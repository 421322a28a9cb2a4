-- SUMMARY: The staging area of the optical node: image files, and the table of images in its order of use.
import Mathlib.Data.List.AList
import Mathlib.Data.List.Sort
import ZBStorage.Lib.Bytes

/-!
# The staging area

`SpaceManager` of `space_manager.cpp` with the directory `image/`. Files are known by
the volume id in their names. The hash table and the list of use are one list here,
with the image that was used last in front. Whether `unlink` and `rename` succeed comes
from outside.
-/

namespace Zb.OpticalNode

open Bytes

inductive ImageCategory
  | read
  | write
  deriving DecidableEq

/-- An image of the table; a snapshot lists the same pairs. -/
structure ImageEntry where
  volumeId : UInt64
  category : ImageCategory
  deriving DecidableEq

/-- The error codes of this part. -/
inductive ErrorCode
  | success
  | volumeNotFound
  | volumeAlreadyExists
  | volumeFullNoReadable
  | ioError
  deriving DecidableEq

structure SpaceManager where
  imageDir : AList (fun _ : UInt64 => Bytes) := ∅
  entries : List ImageEntry := []

/-- Whether the victim's file can be unlinked and the new one renamed. -/
structure MoveFaults where
  unlinked : Bool := true
  renamed : Bool := true

namespace SpaceManager

def hasImage (manager : SpaceManager) (volumeId : UInt64) : Bool :=
  manager.entries.any fun entry => entry.volumeId = volumeId

def forget (manager : SpaceManager) (volumeId : UInt64) : List ImageEntry :=
  manager.entries.filter fun entry => entry.volumeId ≠ volumeId

/-- The entry goes first, and stays away if the file cannot be unlinked. -/
def deleteFileAndEntry (manager : SpaceManager) (volumeId : UInt64) (unlinked : Bool) :
    ErrorCode × SpaceManager :=
  if !manager.hasImage volumeId then (.volumeNotFound, manager)
  else if volumeId ∈ manager.imageDir ∧ !unlinked then
    (.ioError, { manager with entries := manager.forget volumeId })
  else
    (.success,
      { imageDir := manager.imageDir.erase volumeId, entries := manager.forget volumeId })

/-- The image read last of all. -/
def victim (manager : SpaceManager) : Option ImageEntry :=
  (manager.entries.filter fun entry => entry.category = .read).getLast?

/-- The rename of `MoveFrom`, after the victim has been taken out. -/
def place (manager : SpaceManager) (evicted : Option ImageEntry) (volumeId : UInt64)
    (bytes : Bytes) (category : ImageCategory) (renamed : Bool) : ErrorCode × SpaceManager :=
  if !renamed then (.ioError, { manager with entries := evicted.toList ++ manager.entries })
  else
    (.success,
      { imageDir := manager.imageDir.insert volumeId bytes
        entries := ⟨volumeId, category⟩ :: manager.entries })

def moveFrom (capacityInImages : Nat) (manager : SpaceManager) (volumeId : UInt64) (bytes : Bytes)
    (category : ImageCategory) (faults : MoveFaults) : ErrorCode × SpaceManager :=
  if manager.hasImage volumeId then (.volumeAlreadyExists, manager)
  else if manager.entries.length ≥ capacityInImages then
    match manager.victim with
    | none => (.volumeFullNoReadable, manager)
    | some victim =>
        match manager.deleteFileAndEntry victim.volumeId faults.unlinked with
        | (.success, manager) => manager.place victim volumeId bytes category faults.renamed
        | (code, manager) => (code, manager)
  else manager.place none volumeId bytes category faults.renamed

def removeSingleReadImage (manager : SpaceManager) (unlinked : Bool) : ErrorCode × SpaceManager :=
  match manager.victim with
  | none => (.volumeNotFound, manager)
  | some victim => manager.deleteFileAndEntry victim.volumeId unlinked

def removeWriteImage (manager : SpaceManager) (volumeId : UInt64) (unlinked : Bool) :
    ErrorCode × SpaceManager :=
  if ⟨volumeId, .write⟩ ∈ manager.entries then manager.deleteFileAndEntry volumeId unlinked
  else (.volumeNotFound, manager)

def touch (manager : SpaceManager) (volumeId : UInt64) : SpaceManager :=
  match manager.entries.find? fun entry => entry.volumeId = volumeId with
  | none => manager
  | some entry => { manager with entries := entry :: manager.forget volumeId }

/-- From the least to the most recently used. -/
def snapshotImageEntries (manager : SpaceManager) : List ImageEntry := manager.entries.reverse

/-- An image of a snapshot goes to the front if it is on the disk and new. -/
def restoreEntry (imageDir : AList fun _ : UInt64 => Bytes) (entries : List ImageEntry)
    (entry : ImageEntry) : List ImageEntry :=
  if (entries.any fun other => other.volumeId = entry.volumeId) ∨ entry.volumeId ∉ imageDir then
    entries
  else entry :: entries

def restoreListed (imageDir : AList fun _ : UInt64 => Bytes) (snapshot : List ImageEntry) :
    List ImageEntry :=
  snapshot.foldl (restoreEntry imageDir) []

/-- The images on the disk that the snapshot does not list count as read. -/
def rebuildManagementTable (manager : SpaceManager) (snapshot : List ImageEntry) : SpaceManager :=
  let listed := restoreListed manager.imageDir snapshot
  let diskOnly := manager.imageDir.keys.filter fun volumeId =>
    !listed.any fun entry => entry.volumeId = volumeId
  { manager with
    entries := (diskOnly.insertionSort (· ≤ ·)).foldl
      (fun entries volumeId => ⟨volumeId, .read⟩ :: entries) listed }

/-! ## What the operations keep -/

variable {manager manager' : SpaceManager} {volumeId other : UInt64} {bytes : Bytes}
  {category : ImageCategory} {entry : ImageEntry} {capacity : Nat} {faults : MoveFaults}
  {unlinked : Bool} {code : ErrorCode} {snapshot : List ImageEntry}

/-- No file comes to `image/` but that of the image. -/
theorem mem_imageDir_place {evicted : Option ImageEntry} {renamed : Bool}
    (h : other ∈ (manager.place evicted volumeId bytes category renamed).2.imageDir) :
    other ∈ manager.imageDir ∨ other = volumeId := by
  rw [place] at h
  split at h
  · exact .inl h
  · exact ((AList.mem_insert _).mp h).symm

theorem mem_imageDir_delete
    (h : other ∈ (manager.deleteFileAndEntry volumeId unlinked).2.imageDir) :
    other ∈ manager.imageDir := by
  rw [deleteFileAndEntry] at h
  split at h
  · exact h
  · split at h
    · exact h
    · exact (AList.mem_erase.mp h).2

theorem mem_imageDir_moveFrom
    (h : other ∈ (manager.moveFrom capacity volumeId bytes category faults).2.imageDir) :
    other ∈ manager.imageDir ∨ other = volumeId := by
  rw [moveFrom] at h
  split at h
  · exact .inl h
  · split at h
    · split at h
      · exact .inl h
      · rename_i victim _
        split at h
        · rename_i space hdeleted
          have hspace : space = (manager.deleteFileAndEntry victim.volumeId faults.unlinked).2 := by
            rw [hdeleted]
          rw [hspace] at h
          exact (mem_imageDir_place h).imp_left mem_imageDir_delete
        · rename_i code space _ hdeleted
          have hspace : space = (manager.deleteFileAndEntry victim.volumeId faults.unlinked).2 := by
            rw [hdeleted]
          rw [hspace] at h
          exact .inl (mem_imageDir_delete h)
    · exact mem_imageDir_place h

theorem mem_imageDir_removeWriteImage
    (h : other ∈ (manager.removeWriteImage volumeId unlinked).2.imageDir) :
    other ∈ manager.imageDir := by
  rw [removeWriteImage] at h
  split at h
  · exact mem_imageDir_delete h
  · exact h

theorem mem_imageDir_removeSingleReadImage
    (h : other ∈ (manager.removeSingleReadImage unlinked).2.imageDir) :
    other ∈ manager.imageDir := by
  rw [removeSingleReadImage] at h
  split at h
  · exact h
  · exact mem_imageDir_delete h

theorem imageDir_touch (manager : SpaceManager) (volumeId : UInt64) :
    (manager.touch volumeId).imageDir = manager.imageDir := by
  rw [touch]
  split <;> rfl

/-! ## The table after a restart -/

theorem entries_rebuild (manager : SpaceManager) (snapshot : List ImageEntry) :
    (manager.rebuildManagementTable snapshot).entries =
      (((manager.imageDir.keys.filter fun volumeId =>
        !(restoreListed manager.imageDir snapshot).any fun entry => entry.volumeId = volumeId)
          |>.insertionSort (· ≤ ·)).map fun volumeId => ⟨volumeId, .read⟩).reverse ++
        restoreListed manager.imageDir snapshot := by
  have hpush : ∀ (ids : List UInt64) (listed : List ImageEntry),
      ids.foldl (fun entries volumeId => ⟨volumeId, .read⟩ :: entries) listed =
        (ids.map fun volumeId => ⟨volumeId, .read⟩).reverse ++ listed := by
    intro ids
    induction ids with
    | nil => exact fun _ => rfl
    | cons id ids ih => simp [ih]
  rw [rebuildManagementTable]
  exact hpush _ _

theorem mem_restoreListed (imageDir : AList fun _ : UInt64 => Bytes) (snapshot : List ImageEntry)
    (acc : List ImageEntry) (hacc : ∀ entry ∈ acc, entry.volumeId ∈ imageDir) :
    ∀ entry ∈ snapshot.foldl (restoreEntry imageDir) acc, entry.volumeId ∈ imageDir := by
  induction snapshot generalizing acc with
  | nil => exact hacc
  | cons first snapshot ih =>
      refine ih _ ?_
      rw [restoreEntry]
      split
      · exact hacc
      · rename_i hnew
        intro entry hmem
        rcases List.mem_cons.mp hmem with rfl | hold
        · exact not_not.mp fun hno => hnew (.inr hno)
        · exact hacc entry hold

/-- The table lists the images of `image/` and no others. -/
theorem mem_entries_rebuild :
    volumeId ∈ (manager.rebuildManagementTable snapshot).entries.map ImageEntry.volumeId ↔
      volumeId ∈ manager.imageDir := by
  rw [entries_rebuild]
  simp only [List.map_append, List.mem_append, List.map_reverse, List.mem_reverse, List.map_map,
    List.mem_map, List.mem_insertionSort, List.mem_filter, Function.comp_apply]
  constructor
  · rintro (⟨id, ⟨hkey, -⟩, rfl⟩ | ⟨entry, hentry, rfl⟩)
    · exact AList.mem_keys.mp hkey
    · exact mem_restoreListed manager.imageDir snapshot [] (fun _ hnil => nomatch hnil) entry hentry
  · intro hmem
    cases hlisted : (restoreListed manager.imageDir snapshot).any
        fun entry => entry.volumeId = volumeId with
    | true =>
        obtain ⟨entry, hentry, hsame⟩ := List.any_eq_true.mp hlisted
        exact .inr ⟨entry, hentry, of_decide_eq_true hsame⟩
    | false =>
        exact .inl ⟨volumeId, ⟨AList.mem_keys.mpr hmem, by rw [hlisted]; rfl⟩, rfl⟩

end SpaceManager

end Zb.OpticalNode
