-- SUMMARY: The two layouts of the optical cluster and their global image ids, without gaps and in order.
import Mathlib.Data.UInt
import ZBStorage.Lib.BlockNumbering

/-!
# Optical profiles

`MasstreeOpticalProfile.h`. A node holds small discs in front of large ones, and an
image is named by its node, its disc and its index on the disc, or by one global
id. Unsigned arithmetic wraps around where the source computes in 32 or 64 bits;
at the sizes of the two profiles it does not.
-/

namespace Zb.Mds

structure OpticalLocation where
  nodeIndex : Nat
  diskIndex : Nat
  imageIndexInDisk : Nat
  deriving DecidableEq, Repr

structure OpticalClusterCursor extends OpticalLocation where
  imageUsedBytes : Nat
  deriving DecidableEq, Repr

structure OpticalProfile where
  opticalNodeCount : Nat
  disksPerNode : Nat
  smallDisksPerNode : Nat
  largeDisksPerNode : Nat
  smallDiskCapacityBytes : Nat
  largeDiskCapacityBytes : Nat
  imagesPerSmallDisk : Nat
  imagesPerLargeDisk : Nat
  imageCapacityBytes : Nat

namespace OpticalProfile

def fixed : OpticalProfile where
  opticalNodeCount := 10000
  disksPerNode := 10000
  smallDisksPerNode := 10000
  largeDisksPerNode := 0
  smallDiskCapacityBytes := 2000000000000
  largeDiskCapacityBytes := 2000000000000
  imagesPerSmallDisk := 20
  imagesPerLargeDisk := 20
  imageCapacityBytes := 100000000000

def legacyMixed : OpticalProfile :=
  { fixed with
    smallDisksPerNode := 9000
    largeDisksPerNode := 1000
    smallDiskCapacityBytes := 1000000000000
    largeDiskCapacityBytes := 10000000000000
    imagesPerSmallDisk := 10
    imagesPerLargeDisk := 100 }

variable (p : OpticalProfile)

def imagesPerDisk (diskIndex : Nat) : Nat :=
  if diskIndex < p.smallDisksPerNode then p.imagesPerSmallDisk else p.imagesPerLargeDisk

def diskCapacityBytes (diskIndex : Nat) : Nat :=
  if diskIndex < p.smallDisksPerNode then p.smallDiskCapacityBytes else p.largeDiskCapacityBytes

def imagesPerNode : Nat :=
  (p.smallDisksPerNode * p.imagesPerSmallDisk + p.largeDisksPerNode * p.imagesPerLargeDisk) % 2 ^ 32

def globalImageId (location : OpticalLocation) : Nat :=
  let imageIndexInNode :=
    if location.diskIndex < p.smallDisksPerNode then
      location.diskIndex * p.imagesPerSmallDisk + location.imageIndexInDisk
    else
      p.smallDisksPerNode * p.imagesPerSmallDisk +
        (location.diskIndex - p.smallDisksPerNode) * p.imagesPerLargeDisk + location.imageIndexInDisk
  (location.nodeIndex * p.imagesPerNode + imageIndexInNode) % 2 ^ 64

/-- The last checks of `decodeGlobalImageId`. -/
def decodedLocation (nodeIndex diskIndex imageIndexInDisk : Nat) : Option OpticalLocation :=
  if diskIndex ≥ p.disksPerNode ∨ imageIndexInDisk ≥ p.imagesPerDisk diskIndex then none
  else some ⟨nodeIndex, diskIndex, imageIndexInDisk⟩

def decodeGlobalImageId (globalImageId : Nat) : Option OpticalLocation :=
  if p.imagesPerNode = 0 then none
  else if globalImageId / p.imagesPerNode ≥ p.opticalNodeCount then none
  else
    let nodeIndex := globalImageId / p.imagesPerNode
    let imageIndexInNode := globalImageId % p.imagesPerNode % 2 ^ 32
    let smallRegionImages := p.smallDisksPerNode * p.imagesPerSmallDisk % 2 ^ 32
    if imageIndexInNode < smallRegionImages then
      p.decodedLocation nodeIndex (imageIndexInNode / p.imagesPerSmallDisk)
        (imageIndexInNode % p.imagesPerSmallDisk)
    else if p.imagesPerLargeDisk = 0 then none
    else
      let largeRegion := imageIndexInNode - smallRegionImages
      p.decodedLocation nodeIndex
        ((p.smallDisksPerNode + largeRegion / p.imagesPerLargeDisk) % 2 ^ 32)
        (largeRegion % p.imagesPerLargeDisk)

/-- The checks that `ConvertLocationTo` and `IsValidCursor` share. -/
def IsValidLocation (location : OpticalLocation) : Prop :=
  location.nodeIndex < p.opticalNodeCount ∧ location.diskIndex < p.disksPerNode ∧
    location.imageIndexInDisk < p.imagesPerDisk location.diskIndex

instance (location : OpticalLocation) : Decidable (p.IsValidLocation location) := by
  unfold IsValidLocation
  infer_instance

def IsValidCursor (cursor : OpticalClusterCursor) : Prop :=
  p.IsValidLocation cursor.toOpticalLocation ∧ cursor.imageUsedBytes ≤ p.imageCapacityBytes

instance (cursor : OpticalClusterCursor) : Decidable (p.IsValidCursor cursor) := by
  unfold IsValidCursor
  infer_instance

def convertLocationTo (source : OpticalLocation) (targetProfile : OpticalProfile) :
    Option OpticalLocation :=
  if p.IsValidLocation source then targetProfile.decodeGlobalImageId (p.globalImageId source)
  else none

/-- The images of the cluster: a node holds `imagesPerNode` of them. -/
def imageCount : Nat := p.opticalNodeCount * p.imagesPerNode

end OpticalProfile

/-! ## Images in order -/

/-- The lexicographic order of nodes, discs and images. -/
def OpticalLocation.Before (l m : OpticalLocation) : Prop :=
  l.nodeIndex < m.nodeIndex ∨ l.nodeIndex = m.nodeIndex ∧
    (l.diskIndex < m.diskIndex ∨ l.diskIndex = m.diskIndex ∧
      l.imageIndexInDisk < m.imageIndexInDisk)

/-- Global image ids number the images of a profile from zero, in order. -/
structure OpticalProfile.NumbersImages (p : OpticalProfile) : Prop where
  id_lt {l : OpticalLocation} : p.IsValidLocation l → p.globalImageId l < p.imageCount
  decode_id {l : OpticalLocation} :
    p.IsValidLocation l → p.decodeGlobalImageId (p.globalImageId l) = some l
  id_decode {g : Nat} : g < p.imageCount →
    ∃ l, p.decodeGlobalImageId g = some l ∧ p.IsValidLocation l ∧ p.globalImageId l = g
  decode_past {g : Nat} : p.imageCount ≤ g → p.decodeGlobalImageId g = none
  id_lt_iff {l m : OpticalLocation} : p.IsValidLocation l → p.IsValidLocation m →
    (p.globalImageId l < p.globalImageId m ↔ l.Before m)

namespace OpticalProfile

theorem NumbersImages.id_of_decode {p : OpticalProfile} {l : OpticalLocation} {g : Nat}
    (hp : p.NumbersImages) (h : p.decodeGlobalImageId g = some l) : p.globalImageId l = g := by
  rcases Nat.lt_or_ge g p.imageCount with hlt | hge
  · obtain ⟨m, hm, -, hid⟩ := hp.id_decode hlt
    rw [h] at hm
    rw [Option.some.inj hm]
    exact hid
  · rw [hp.decode_past hge] at h
    cases h

/-- What the two profiles have in common: the discs of a node fill its two regions,
    and the counts stay in the machine's integers. -/
structure WellFormed (p : OpticalProfile) : Prop where
  disks : p.disksPerNode = p.smallDisksPerNode + p.largeDisksPerNode
  small_pos : 0 < p.imagesPerSmallDisk
  large_pos : 0 < p.imagesPerLargeDisk
  disks_lt : p.disksPerNode < 2 ^ 32
  node_lt : p.smallDisksPerNode * p.imagesPerSmallDisk + p.largeDisksPerNode * p.imagesPerLargeDisk
    < 2 ^ 32
  cluster_le : p.opticalNodeCount *
    (p.smallDisksPerNode * p.imagesPerSmallDisk + p.largeDisksPerNode * p.imagesPerLargeDisk)
    ≤ 2 ^ 64

theorem fixed_wellFormed : fixed.WellFormed := by
  constructor <;> decide

theorem legacyMixed_wellFormed : legacyMixed.WellFormed := by
  constructor <;> decide

/-- The discs of a node as blocks of images. -/
def discs (p : OpticalProfile) : BlockNumbering :=
  .twoRegions p.smallDisksPerNode p.imagesPerSmallDisk p.imagesPerLargeDisk

/-- The nodes as blocks of images. -/
def nodes (p : OpticalProfile) : BlockNumbering := .uniform p.imagesPerNode

variable {p : OpticalProfile} {l m : OpticalLocation} {g : Nat}

theorem WellFormed.imagesPerNode_eq (hp : p.WellFormed) :
    p.imagesPerNode = p.smallDisksPerNode * p.imagesPerSmallDisk +
      p.largeDisksPerNode * p.imagesPerLargeDisk :=
  Nat.mod_eq_of_lt hp.node_lt

theorem WellFormed.discs_start (hp : p.WellFormed) :
    p.discs.start p.disksPerNode = p.imagesPerNode := by
  rw [hp.imagesPerNode_eq, hp.disks]
  dsimp only [discs, BlockNumbering.twoRegions]
  split
  · rename_i hnone
    have hlarge : p.largeDisksPerNode = 0 := by omega
    omega
  · rw [Nat.add_sub_cancel_left]

/-- The index of an image in its node. -/
def indexInNode (p : OpticalProfile) (l : OpticalLocation) : Nat :=
  p.discs.start l.diskIndex + l.imageIndexInDisk

theorem WellFormed.indexInNode_lt (hp : p.WellFormed) (hl : p.IsValidLocation l) :
    p.indexInNode l < p.imagesPerNode := by
  rw [← hp.discs_start]
  exact BlockNumbering.number_lt_start hl.2.2 hl.2.1

theorem WellFormed.number_lt (hp : p.WellFormed) (hl : p.IsValidLocation l) :
    p.nodes.start l.nodeIndex + p.indexInNode l < p.imageCount :=
  BlockNumbering.number_lt_start (b := p.nodes) (hp.indexInNode_lt hl) hl.1

theorem WellFormed.imageCount_le (hp : p.WellFormed) : p.imageCount ≤ 2 ^ 64 := by
  have hle := hp.cluster_le
  rwa [← hp.imagesPerNode_eq] at hle

theorem globalImageId_eq_mod (p : OpticalProfile) (l : OpticalLocation) :
    p.globalImageId l = (p.nodes.start l.nodeIndex + p.indexInNode l) % 2 ^ 64 := by
  dsimp only [globalImageId, indexInNode, nodes, discs, BlockNumbering.uniform,
    BlockNumbering.twoRegions]
  split <;> rfl

theorem WellFormed.globalImageId_eq (hp : p.WellFormed) (hl : p.IsValidLocation l) :
    p.globalImageId l = p.nodes.start l.nodeIndex + p.indexInNode l := by
  rw [globalImageId_eq_mod]
  exact Nat.mod_eq_of_lt (Nat.lt_of_lt_of_le (hp.number_lt hl) hp.imageCount_le)

theorem WellFormed.globalImageId_lt_iff (hp : p.WellFormed) (hl : p.IsValidLocation l)
    (hm : p.IsValidLocation m) : p.globalImageId l < p.globalImageId m ↔ l.Before m := by
  rw [hp.globalImageId_eq hl, hp.globalImageId_eq hm,
    BlockNumbering.number_lt_iff (hp.indexInNode_lt hl) (hp.indexInNode_lt hm)]
  unfold indexInNode
  rw [BlockNumbering.number_lt_iff hl.2.2 hm.2.2]
  rfl

theorem WellFormed.globalImageId_inj (hp : p.WellFormed) (hl : p.IsValidLocation l)
    (hm : p.IsValidLocation m) (h : p.globalImageId l = p.globalImageId m) : l = m := by
  rw [hp.globalImageId_eq hl, hp.globalImageId_eq hm] at h
  obtain ⟨hnode, hindex⟩ :=
    BlockNumbering.number_inj (hp.indexInNode_lt hl) (hp.indexInNode_lt hm) h
  obtain ⟨hdisk, himage⟩ := BlockNumbering.number_inj hl.2.2 hm.2.2 hindex
  cases l
  cases m
  congr

/-- Decoding finds the place of every id below the count. -/
theorem WellFormed.decode_of_lt (hp : p.WellFormed) (hg : g < p.imageCount) :
    ∃ l, p.decodeGlobalImageId g = some l ∧ p.IsValidLocation l ∧ p.globalImageId l = g := by
  have hpos : 0 < p.imagesPerNode := by
    apply Nat.pos_of_ne_zero
    intro hzero
    rw [imageCount, hzero, Nat.mul_zero] at hg
    exact Nat.not_lt_zero _ hg
  have hnode : g / p.imagesPerNode < p.opticalNodeCount :=
    Nat.div_lt_of_lt_mul (by rwa [Nat.mul_comm])
  have hrest : g % p.imagesPerNode < p.imagesPerNode := Nat.mod_lt _ hpos
  have hdecoded : ∀ k i, p.discs.start k + i = g % p.imagesPerNode → i < p.discs.size k →
      ∃ l, p.decodedLocation (g / p.imagesPerNode) k i = some l ∧ p.IsValidLocation l ∧
        p.globalImageId l = g := by
    intro k i hindex hi
    have hk : k < p.disksPerNode := by
      apply Nat.lt_of_not_le
      intro hle
      have hstart := BlockNumbering.start_mono (b := p.discs) hle
      rw [hp.discs_start] at hstart
      omega
    have hvalid : p.IsValidLocation ⟨g / p.imagesPerNode, k, i⟩ := ⟨hnode, hk, hi⟩
    refine ⟨⟨g / p.imagesPerNode, k, i⟩, ?_, hvalid, ?_⟩
    · apply if_neg
      rw [not_or, Nat.not_le, Nat.not_le]
      exact ⟨hk, hi⟩
    · rw [hp.globalImageId_eq hvalid, indexInNode, hindex]
      exact BlockNumbering.uniform_div_mod _ g
  have hsmall : p.smallDisksPerNode * p.imagesPerSmallDisk < 2 ^ 32 :=
    Nat.lt_of_le_of_lt (Nat.le_add_right _ _) hp.node_lt
  have hnode32 : p.imagesPerNode < 2 ^ 32 := by
    rw [hp.imagesPerNode_eq]
    exact hp.node_lt
  unfold decodeGlobalImageId
  rw [if_neg (by omega), if_neg (by omega)]
  dsimp only
  rw [Nat.mod_eq_of_lt hsmall, Nat.mod_eq_of_lt (Nat.lt_trans hrest hnode32)]
  split
  · rename_i hregion
    have hplace := BlockNumbering.twoRegions_number_first p.imagesPerLargeDisk hregion
    apply hdecoded _ _ hplace.2
    dsimp only [discs, BlockNumbering.twoRegions]
    rw [if_pos hplace.1]
    exact Nat.mod_lt _ hp.small_pos
  · rename_i hregion
    have hplace : p.discs.start _ + _ = _ :=
      BlockNumbering.twoRegions_number_second (Nat.le_of_not_lt hregion)
    have hlarge : (g % p.imagesPerNode - p.smallDisksPerNode * p.imagesPerSmallDisk) /
        p.imagesPerLargeDisk < p.largeDisksPerNode := by
      have hcount := hp.imagesPerNode_eq
      apply Nat.div_lt_of_lt_mul
      rw [Nat.mul_comm p.imagesPerLargeDisk]
      omega
    have hlt32 := hp.disks_lt
    rw [hp.disks] at hlt32
    rw [if_neg (Nat.ne_of_gt hp.large_pos), Nat.mod_eq_of_lt (by omega)]
    apply hdecoded _ _ hplace
    dsimp only [discs, BlockNumbering.twoRegions]
    rw [if_neg (Nat.not_lt.mpr (Nat.le_add_right _ _))]
    exact Nat.mod_lt _ hp.large_pos

theorem WellFormed.decode_globalImageId (hp : p.WellFormed) (hl : p.IsValidLocation l) :
    p.decodeGlobalImageId (p.globalImageId l) = some l := by
  have hlt : p.globalImageId l < p.imageCount := by
    rw [hp.globalImageId_eq hl]
    exact hp.number_lt hl
  obtain ⟨m, hm, hvalid, hid⟩ := hp.decode_of_lt hlt
  rw [hm, hp.globalImageId_inj hvalid hl hid]

theorem decode_of_imageCount_le (h : p.imageCount ≤ g) : p.decodeGlobalImageId g = none := by
  unfold decodeGlobalImageId
  split
  · rfl
  · rename_i hpos
    apply if_pos
    exact (Nat.le_div_iff_mul_le (Nat.pos_of_ne_zero hpos)).mpr h

theorem WellFormed.numbersImages (hp : p.WellFormed) : p.NumbersImages where
  id_lt hl := by
    rw [hp.globalImageId_eq hl]
    exact hp.number_lt hl
  decode_id hl := hp.decode_globalImageId hl
  id_decode hg := hp.decode_of_lt hg
  decode_past hg := decode_of_imageCount_le hg
  id_lt_iff hl hm := hp.globalImageId_lt_iff hl hm

end OpticalProfile

end Zb.Mds
