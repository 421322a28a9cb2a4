-- SUMMARY: The client's cache of file sizes, whose sources arrive in any order.
import Mathlib.Data.List.AList
import Mathlib.Data.List.Induction

/-!
# The inode cache of the client

`UpdateInodeAttrCache` and `UpdateCachedFileMeta` of `zb_fuse_client.cpp`. An entry
remembers the version of the file metadata that it holds, but not the version of the
attributes that were written over it.
-/

namespace Zb.Client

structure InodeCacheEntry where
  objectUnitSize : Nat := 0
  fileSize : Nat := 0
  fileMetaVersion : Nat := 0
  deriving DecidableEq

abbrev InodeCache := AList (fun _ : UInt64 => InodeCacheEntry)

/-- What a reply says of a file: its attributes come from the MDS, its metadata from a
    node. -/
inductive Observation
  | attr (size objectUnitSize version : Nat)
  | fileMeta (fileSize objectUnitSize version : Nat)
  deriving DecidableEq

namespace Observation

def version : Observation → Nat
  | attr _ _ version => version
  | fileMeta _ _ version => version

def size : Observation → Nat
  | attr size _ _ => size
  | fileMeta fileSize _ _ => fileSize

def isFileMeta : Observation → Bool
  | attr .. => false
  | fileMeta .. => true

end Observation

namespace InodeCache

/-- `inode_cache[inode_id]`. -/
def entry (cache : InodeCache) (inodeId : UInt64) : InodeCacheEntry :=
  (cache.lookup inodeId).getD {}

def updateInodeAttrCache (cache : InodeCache) (inodeId : UInt64)
    (size objectUnitSize version : Nat) : InodeCache :=
  if inodeId = 0 then cache
  else
    let entry := cache.entry inodeId
    cache.insert inodeId
      (if version < entry.fileMetaVersion then entry
      else
        { entry with
          objectUnitSize := if objectUnitSize > 0 then objectUnitSize else entry.objectUnitSize
          fileSize := size })

def updateCachedFileMeta (cache : InodeCache) (inodeId : UInt64)
    (fileSize objectUnitSize version : Nat) : InodeCache :=
  if inodeId = 0 then cache
  else
    let entry := cache.entry inodeId
    cache.insert inodeId
      (if version < entry.fileMetaVersion then entry
      else
        { objectUnitSize := if objectUnitSize > 0 then objectUnitSize else entry.objectUnitSize
          fileSize := fileSize
          fileMetaVersion := version })

def observe (cache : InodeCache) (inodeId : UInt64) : Observation → InodeCache
  | .attr size objectUnitSize version =>
      cache.updateInodeAttrCache inodeId size objectUnitSize version
  | .fileMeta fileSize objectUnitSize version =>
      cache.updateCachedFileMeta inodeId fileSize objectUnitSize version

/-- The cache after some observations of any inodes. -/
def after (run : List (UInt64 × Observation)) : InodeCache :=
  run.foldl (fun cache seen => cache.observe seen.1 seen.2) ∅

variable {cache : InodeCache} {inodeId other : UInt64} {o : Observation}
  {seen : List Observation} {run : List (UInt64 × Observation)} {sizeOf : Nat → Nat}

theorem entry_updateInodeAttrCache (hinode : inodeId ≠ 0) (size unit version : Nat) :
    (cache.updateInodeAttrCache inodeId size unit version).entry inodeId =
      if version < (cache.entry inodeId).fileMetaVersion then cache.entry inodeId
      else
        ⟨if unit > 0 then unit else (cache.entry inodeId).objectUnitSize, size,
          (cache.entry inodeId).fileMetaVersion⟩ := by
  rw [entry, updateInodeAttrCache, if_neg hinode, AList.lookup_insert]
  rfl

theorem entry_updateCachedFileMeta (hinode : inodeId ≠ 0) (size unit version : Nat) :
    (cache.updateCachedFileMeta inodeId size unit version).entry inodeId =
      if version < (cache.entry inodeId).fileMetaVersion then cache.entry inodeId
      else ⟨if unit > 0 then unit else (cache.entry inodeId).objectUnitSize, size, version⟩ := by
  rw [entry, updateCachedFileMeta, if_neg hinode, AList.lookup_insert]
  rfl

/-- An observation below the metadata's version changes nothing. -/
theorem entry_observe_of_lt (hinode : inodeId ≠ 0)
    (h : o.version < (cache.entry inodeId).fileMetaVersion) :
    (cache.observe inodeId o).entry inodeId = cache.entry inodeId := by
  cases o with
  | attr size unit version => exact (entry_updateInodeAttrCache hinode _ _ _).trans (if_pos h)
  | fileMeta size unit version => exact (entry_updateCachedFileMeta hinode _ _ _).trans (if_pos h)

/-- Any other is taken; attributes leave the metadata's version as it is. -/
theorem entry_observe_of_le (hinode : inodeId ≠ 0)
    (h : (cache.entry inodeId).fileMetaVersion ≤ o.version) :
    ((cache.observe inodeId o).entry inodeId).fileSize = o.size ∧
      ((cache.observe inodeId o).entry inodeId).fileMetaVersion =
        if o.isFileMeta then o.version else (cache.entry inodeId).fileMetaVersion := by
  cases o with
  | attr size unit version =>
      have hentry := (entry_updateInodeAttrCache hinode size unit version).trans
        (if_neg (Nat.not_lt.mpr h))
      rw [observe, hentry]
      exact ⟨rfl, rfl⟩
  | fileMeta size unit version =>
      have hentry := (entry_updateCachedFileMeta hinode size unit version).trans
        (if_neg (Nat.not_lt.mpr h))
      rw [observe, hentry]
      exact ⟨rfl, rfl⟩

/-! ## Runs -/

/-- What the entry says after some observations of its inode. -/
structure Tracks (inodeId : UInt64) (run : List (UInt64 × Observation)) (entry : InodeCacheEntry) :
    Prop where
  newest : ∀ m, (inodeId, m) ∈ run → m.isFileMeta = true → m.version ≤ entry.fileMetaVersion
  seen : entry.fileMetaVersion = 0 ∨
    ∃ m, (inodeId, m) ∈ run ∧ m.isFileMeta = true ∧ m.version = entry.fileMetaVersion
  size : (∀ o, (inodeId, o) ∉ run) ∧ entry.fileSize = 0 ∨
    ∃ o, (inodeId, o) ∈ run ∧ entry.fileMetaVersion ≤ o.version ∧ entry.fileSize = o.size

theorem Tracks.observe (hinode : inodeId ≠ 0)
    (h : Tracks inodeId run (cache.entry inodeId)) (o : Observation) :
    Tracks inodeId (run ++ [(inodeId, o)]) ((cache.observe inodeId o).entry inodeId) := by
  have hmem : ∀ m, (inodeId, m) ∈ run ++ [(inodeId, o)] ↔ (inodeId, m) ∈ run ∨ m = o := by
    simp
  rcases Nat.lt_or_ge o.version (cache.entry inodeId).fileMetaVersion with hlt | hle
  · rw [entry_observe_of_lt hinode hlt]
    refine ⟨?_, ?_, ?_⟩
    · intro m hm hmeta
      rcases (hmem m).mp hm with hold | rfl
      · exact h.newest m hold hmeta
      · exact Nat.le_of_lt hlt
    · rcases h.seen with hzero | ⟨m, hm, hmeta, hversion⟩
      · exact .inl hzero
      · exact .inr ⟨m, (hmem m).mpr (.inl hm), hmeta, hversion⟩
    · rcases h.size with ⟨hnone, -⟩ | ⟨last, hlast, hversion, hsize⟩
      · rcases h.seen with hzero | ⟨m, hm, -⟩
        · rw [hzero] at hlt
          exact absurd hlt (Nat.not_lt_zero _)
        · exact absurd hm (hnone m)
      · exact .inr ⟨last, (hmem last).mpr (.inl hlast), hversion, hsize⟩
  · obtain ⟨hsize, hversion⟩ := entry_observe_of_le hinode hle
    have hgrow : (cache.entry inodeId).fileMetaVersion ≤
        ((cache.observe inodeId o).entry inodeId).fileMetaVersion := by
      rw [hversion]
      split
      · exact hle
      · exact Nat.le_refl _
    refine ⟨?_, ?_, .inr ⟨o, (hmem o).mpr (.inr rfl), ?_, hsize⟩⟩
    · intro m hm hmeta
      rcases (hmem m).mp hm with hold | rfl
      · exact Nat.le_trans (h.newest m hold hmeta) hgrow
      · rw [hversion, if_pos hmeta]
    · rw [hversion]
      split
      · rename_i hmeta
        exact .inr ⟨o, (hmem o).mpr (.inr rfl), hmeta, rfl⟩
      · rcases h.seen with hzero | ⟨m, hm, hmeta, hsame⟩
        · exact .inl hzero
        · exact .inr ⟨m, (hmem m).mpr (.inl hm), hmeta, hsame⟩
    · rw [hversion]
      split
      · exact Nat.le_refl _
      · exact hle

end InodeCache

end Zb.Client
