-- SUMMARY: The allocator of optical images: its cursor only moves forward, inside the cluster.
import ZBStorage.Mds.Masstree.OpticalProfile

/-!
# Allocation of optical images

`MasstreeOpticalAllocator.cpp`. The cursor names the image that is being filled. A
file that does not fit into what is left of it goes to the next image.
-/

namespace Zb.Mds.OpticalAllocator

open OpticalProfile

variable (p : OpticalProfile)

def normalizeCursor (cursor : OpticalClusterCursor) : Except String Unit × OpticalClusterCursor :=
  if cursor.nodeIndex < p.opticalNodeCount then
    if cursor.diskIndex ≥ p.disksPerNode then
      normalizeCursor ⟨⟨cursor.nodeIndex + 1, 0, 0⟩, 0⟩
    else if cursor.imageIndexInDisk ≥ p.imagesPerDisk cursor.diskIndex then
      normalizeCursor ⟨⟨cursor.nodeIndex, cursor.diskIndex + 1, 0⟩, 0⟩
    else if cursor.imageUsedBytes ≥ p.imageCapacityBytes then
      normalizeCursor ⟨⟨cursor.nodeIndex, cursor.diskIndex, cursor.imageIndexInDisk + 1⟩, 0⟩
    else (.ok (), cursor)
  else (.error "masstree optical cluster capacity is exhausted", cursor)
termination_by (p.opticalNodeCount - cursor.nodeIndex, p.disksPerNode - cursor.diskIndex,
  p.imagesPerDisk cursor.diskIndex - cursor.imageIndexInDisk)

def advanceToNextImage (cursor : OpticalClusterCursor) :
    Except String Unit × OpticalClusterCursor :=
  normalizeCursor p
    { cursor with imageUsedBytes := 0, imageIndexInDisk := cursor.imageIndexInDisk + 1 }

/-- The part of `allocate` after the cursor is normal. -/
def makeRoom (cursor : OpticalClusterCursor) (fileSizeBytes : Nat) :
    Except String Unit × OpticalClusterCursor :=
  if (cursor.imageUsedBytes + fileSizeBytes) % 2 ^ 64 > p.imageCapacityBytes then
    advanceToNextImage p cursor
  else (.ok (), cursor)

/-- `Allocate`, with the cursor that it leaves. -/
def allocate (cursor : OpticalClusterCursor) (fileSizeBytes : Nat) :
    Except String Nat × OpticalClusterCursor :=
  if fileSizeBytes = 0 then (.error "invalid masstree optical allocation args", cursor)
  else if fileSizeBytes > p.imageCapacityBytes then
    (.error "file size exceeds masstree optical image capacity", cursor)
  else
    match normalizeCursor p cursor with
    | (.error e, normal) => (.error e, normal)
    | (.ok (), normal) =>
        match makeRoom p normal fileSizeBytes with
        | (.error e, room) => (.error e, room)
        | (.ok (), room) =>
            (.ok (p.globalImageId room.toOpticalLocation),
              { room with imageUsedBytes := (room.imageUsedBytes + fileSizeBytes) % 2 ^ 64 })

/-- What the calls with some file sizes answer, one after the other. -/
def allocations : OpticalClusterCursor → List Nat → List (Except String Nat)
  | _, [] => []
  | cursor, size :: sizes =>
      (allocate p cursor size).1 :: allocations (allocate p cursor size).2 sizes

variable {p} {cursor : OpticalClusterCursor} {l m n : OpticalLocation}

/-! ## The cursor moves forward -/

/-- The disc of `m` is that of `l` or a later one. -/
def OnOrPast (l m : OpticalLocation) : Prop :=
  l.nodeIndex < m.nodeIndex ∨ l.nodeIndex = m.nodeIndex ∧ l.diskIndex ≤ m.diskIndex

theorem OnOrPast.refl : OnOrPast l l := .inr ⟨rfl, Nat.le_refl _⟩

theorem OnOrPast.trans (h₁ : OnOrPast l m) (h₂ : OnOrPast m n) : OnOrPast l n := by
  unfold OnOrPast at *
  omega

theorem normalizeCursor_onOrPast (cursor : OpticalClusterCursor) :
    OnOrPast cursor.toOpticalLocation (normalizeCursor p cursor).2.toOpticalLocation := by
  fun_induction normalizeCursor p cursor with
  | case1 cursor _ _ ih =>
      apply OnOrPast.trans _ ih
      exact .inl (Nat.lt_succ_self _)
  | case2 cursor _ _ _ ih =>
      apply OnOrPast.trans _ ih
      exact .inr ⟨rfl, Nat.le_succ _⟩
  | case3 cursor _ _ _ _ ih => exact OnOrPast.trans (.inr ⟨rfl, Nat.le_refl _⟩) ih
  | case4 => exact .refl
  | case5 => exact .refl

theorem normalizeCursor_valid (h : (normalizeCursor p cursor).1 = .ok ()) :
    p.IsValidLocation (normalizeCursor p cursor).2.toOpticalLocation := by
  fun_induction normalizeCursor p cursor with
  | case1 _ _ _ ih => exact ih h
  | case2 _ _ _ _ ih => exact ih h
  | case3 _ _ _ _ _ ih => exact ih h
  | case4 cursor hnode hdisk himage => exact ⟨hnode, Nat.lt_of_not_le hdisk, Nat.lt_of_not_le himage⟩
  | case5 => cases h

theorem makeRoom_onOrPast (cursor : OpticalClusterCursor) (size : Nat) :
    OnOrPast cursor.toOpticalLocation (makeRoom p cursor size).2.toOpticalLocation := by
  unfold makeRoom
  split
  · have hnext : OnOrPast cursor.toOpticalLocation
        { cursor with imageUsedBytes := 0, imageIndexInDisk := cursor.imageIndexInDisk + 1
          }.toOpticalLocation := .inr ⟨rfl, Nat.le_refl _⟩
    exact hnext.trans (normalizeCursor_onOrPast _)
  · exact .refl

theorem makeRoom_valid (hc : p.IsValidLocation cursor.toOpticalLocation) (size : Nat)
    (h : (makeRoom p cursor size).1 = .ok ()) :
    p.IsValidLocation (makeRoom p cursor size).2.toOpticalLocation := by
  unfold makeRoom at h ⊢
  split at h
  · rename_i hfull
    rw [if_pos hfull]
    exact normalizeCursor_valid h
  · rename_i hroom
    rw [if_neg hroom]
    exact hc

/-- A call moves the cursor forward. The image that it answers is the one under the
    cursor then. -/
theorem allocate_spec (p : OpticalProfile) (cursor : OpticalClusterCursor) (size : Nat) :
    OnOrPast cursor.toOpticalLocation (allocate p cursor size).2.toOpticalLocation ∧
      ∀ g, (allocate p cursor size).1 = .ok g →
        p.IsValidLocation (allocate p cursor size).2.toOpticalLocation ∧
          p.globalImageId (allocate p cursor size).2.toOpticalLocation = g := by
  unfold allocate
  split
  · exact ⟨.refl, nofun⟩
  split
  · exact ⟨.refl, nofun⟩
  have hnormal := normalizeCursor_onOrPast (p := p) cursor
  have hvalid : (normalizeCursor p cursor).1 = .ok () → _ := normalizeCursor_valid
  generalize normalizeCursor p cursor = answer at hnormal hvalid ⊢
  obtain ⟨_ | _, normal⟩ := answer
  · exact ⟨hnormal, nofun⟩
  have hroom := makeRoom_onOrPast (p := p) normal size
  have hroomValid := makeRoom_valid (hvalid rfl) size
  dsimp only
  generalize makeRoom p normal size = answer at hroom hroomValid ⊢
  obtain ⟨_ | _, room⟩ := answer
  · exact ⟨hnormal.trans hroom, nofun⟩
  refine ⟨hnormal.trans hroom, fun g hg => ⟨hroomValid rfl, ?_⟩⟩
  cases hg
  rfl

/-- Every image that a run of calls gives out lies on the disc the run started at or
    on a later one. -/
theorem allocations_onOrPast {sizes : List Nat} {g : Nat}
    (h : .ok g ∈ allocations p cursor sizes) :
    ∃ l, p.IsValidLocation l ∧ p.globalImageId l = g ∧ OnOrPast cursor.toOpticalLocation l := by
  induction sizes generalizing cursor with
  | nil => cases h
  | cons size sizes ih =>
      have hspec := allocate_spec p cursor size
      rw [allocations, List.mem_cons] at h
      rcases h with hfirst | hlater
      · have himage := hspec.2 g hfirst.symm
        exact ⟨_, himage.1, himage.2, hspec.1⟩
      · obtain ⟨l, hl, hid, hpast⟩ := ih hlater
        exact ⟨l, hl, hid, hspec.1.trans hpast⟩

end Zb.Mds.OpticalAllocator
