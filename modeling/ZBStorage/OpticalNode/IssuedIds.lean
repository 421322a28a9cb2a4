-- SUMMARY: The ids that a node issues itself: none comes twice if restarts find a trace of those that are out.
import ZBStorage.OpticalNode.DiscPacking

/-!
# Issued ids

An id is taken if the counter is past it and the pool does not hold it. Every image and
every disc has a taken id, and an id is used when it leaves the pool. A restart computes
counter and pool anew, from the files that it looks at and from a snapshot if there is
one; what was taken stays taken if these are evidence of it.
-/

namespace Zb.OpticalNode

open Bytes CallHistory

/-! ## Counters and pools -/

def Taken (next : UInt64) (pool : List UInt64) (id : UInt64) : Prop := id < next ∧ id ∉ pool

structure Issues (next : UInt64) (pool : List UInt64) : Prop where
  nonzero : next ≠ 0
  nodup : pool.Nodup
  bounded : ∀ id ∈ pool, id ≠ 0 ∧ id < next

variable {next next' id : UInt64} {pool used : List UInt64} {missing : Nat}

theorem toNat_succ (h : next.toNat + 1 < 2 ^ 64) : (next + 1).toNat = next.toNat + 1 := by
  rw [UInt64.toNat_add, UInt64.toNat_one, Nat.mod_eq_of_lt h]

theorem lt_succ_of_lt (hroom : next.toNat + 1 < 2 ^ 64) (h : id < next) : id < next + 1 := by
  rw [UInt64.lt_iff_toNat_lt] at h ⊢
  rw [toNat_succ hroom]
  omega

theorem lt_succ_self (hroom : next.toNat + 1 < 2 ^ 64) : next < next + 1 := by
  rw [UInt64.lt_iff_toNat_lt, toNat_succ hroom]
  exact Nat.lt_succ_self _

theorem Issues.notMem (h : Issues next pool) : next ∉ pool := fun hmem =>
  absurd (h.bounded next hmem).2 (by rw [UInt64.lt_iff_toNat_lt]; exact Nat.lt_irrefl _)

theorem Issues.generate (h : Issues next pool) (hroom : next.toNat + 1 < 2 ^ 64) :
    Issues (next + 1) (pool ++ [next]) where
  nonzero := by
    intro hzero
    have hnat := toNat_succ hroom
    rw [hzero] at hnat
    exact absurd hnat.symm (Nat.succ_ne_zero _)
  nodup := by
    rw [List.nodup_append]
    refine ⟨h.nodup, List.nodup_singleton _, fun a ha b hb hab => ?_⟩
    rw [List.mem_singleton.mp hb] at hab
    exact h.notMem (hab ▸ ha)
  bounded := by
    intro other hmem
    rcases List.mem_append.mp hmem with hold | hnew
    · exact ⟨(h.bounded other hold).1, lt_succ_of_lt hroom (h.bounded other hold).2⟩
    · rw [List.mem_singleton.mp hnew]
      exact ⟨h.nonzero, lt_succ_self hroom⟩

theorem Taken.generate (h : Taken next pool id) (hroom : next.toNat + 1 < 2 ^ 64) :
    Taken (next + 1) (pool ++ [next]) id := by
  refine ⟨lt_succ_of_lt hroom h.1, fun hmem => ?_⟩
  rcases List.mem_append.mp hmem with hold | hnew
  · exact h.2 hold
  · have hlt := h.1
    rw [List.mem_singleton.mp hnew, UInt64.lt_iff_toNat_lt] at hlt
    exact Nat.lt_irrefl _ hlt

/-- What a refilled pool keeps. -/
structure Refills (next : UInt64) (pool : List UInt64) (missing : Nat) (filled : UInt64 × List UInt64) :
    Prop where
  issues : Issues filled.1 filled.2
  taken : ∀ id, Taken next pool id → Taken filled.1 filled.2 id
  le : filled.1.toNat ≤ next.toNat + missing

theorem Issues.ensure (h : Issues next pool) (hroom : next.toNat + missing < 2 ^ 64) :
    Refills next pool missing (ensureAvailable missing next pool) := by
  induction missing generalizing next pool with
  | zero => exact ⟨h, fun _ htaken => htaken, Nat.le_refl _⟩
  | succ missing ih =>
      have hone : next.toNat + 1 < 2 ^ 64 := by omega
      have hnext := toNat_succ hone
      have hrest := ih (h.generate hone) (by omega)
      rw [ensureAvailable, if_neg h.nonzero]
      exact ⟨hrest.issues, fun id htaken => hrest.taken id (htaken.generate hone),
        hrest.le.trans (by omega)⟩

theorem Issues.tail (h : Issues next (id :: pool)) : Issues next pool where
  nonzero := h.nonzero
  nodup := h.nodup.of_cons
  bounded := fun other hmem => h.bounded other (List.mem_cons_of_mem _ hmem)

theorem Issues.taken_head (h : Issues next (id :: pool)) : Taken next pool id :=
  ⟨(h.bounded id List.mem_cons_self).2, (List.nodup_cons.mp h.nodup).1⟩

theorem Taken.tail {other : UInt64} (h : Taken next (id :: pool) other) : Taken next pool other :=
  ⟨h.1, fun hmem => h.2 (List.mem_cons_of_mem _ hmem)⟩

/-! ## The alignment -/

theorem le_raise (next : UInt64) (ids : List UInt64) : next.toNat ≤ (raise next ids).toNat := by
  induction ids generalizing next with
  | nil => exact Nat.le_refl _
  | cons id ids ih =>
      rw [raise, List.foldl_cons, ← raise]
      split
      · rename_i hlt
        exact (Nat.le_of_lt (UInt64.lt_iff_toNat_lt.mp hlt)).trans (ih _)
      · exact ih _

theorem lt_raise {ids : List UInt64} (hmem : id ∈ ids) (hroom : id.toNat + 1 < 2 ^ 64) :
    id.toNat < (raise next ids).toNat := by
  induction ids generalizing next with
  | nil => exact nomatch hmem
  | cons first ids ih =>
      rw [raise, List.foldl_cons, ← raise]
      rcases List.mem_cons.mp hmem with rfl | hmem
      · refine Nat.lt_of_lt_of_le ?_ (le_raise _ ids)
        have hsucc := toNat_succ hroom
        split
        · omega
        · rename_i hle
          rw [UInt64.lt_iff_toNat_lt, hsucc] at hle
          omega
      · exact ih hmem

theorem positive_of_ne (h : next ≠ 0) : positive next = next := if_neg h

theorem ne_zero_of_le (h : next ≠ 0) (hle : next.toNat ≤ next'.toNat) : next' ≠ 0 := by
  rintro rfl
  rw [UInt64.toNat_zero] at hle
  exact h (UInt64.toNat_inj.mp (by rw [UInt64.toNat_zero]; omega))

theorem Issues.mono (h : Issues next pool) (hle : next.toNat ≤ next'.toNat) : Issues next' pool where
  nonzero := ne_zero_of_le h.nonzero hle
  nodup := h.nodup
  bounded := fun id hmem => ⟨(h.bounded id hmem).1, UInt64.lt_iff_toNat_lt.mpr
    (Nat.lt_of_lt_of_le (UInt64.lt_iff_toNat_lt.mp (h.bounded id hmem).2) hle)⟩

/-- What the alignment makes of a counter and a pool. -/
theorem Issues.align (h : Issues next pool) (hle : next.toNat ≤ next'.toNat) :
    Issues (positive next') (withoutUsed pool used) := by
  have hraised := h.mono hle
  rw [positive_of_ne hraised.nonzero]
  exact ⟨hraised.nonzero, h.nodup.filter _, fun id hmem =>
    hraised.bounded id (List.mem_filter.mp hmem).1⟩

theorem Issues.taken_zero (h : Issues next pool) : Taken next pool 0 := by
  refine ⟨UInt64.lt_iff_toNat_lt.mpr ?_, fun hmem => (h.bounded 0 hmem).1 rfl⟩
  rw [UInt64.toNat_zero]
  exact Nat.pos_of_ne_zero fun hzero => h.nonzero (UInt64.toNat_inj.mp hzero)

theorem taken_align (hlt : id.toNat < next'.toNat) (hpool : id ∈ pool → id ∈ used) :
    Taken (positive next') (withoutUsed pool used) id := by
  have hne : next' ≠ 0 := by
    rintro rfl
    rw [UInt64.toNat_zero] at hlt
    omega
  rw [positive_of_ne hne]
  refine ⟨UInt64.lt_iff_toNat_lt.mpr hlt, fun hmem => ?_⟩
  obtain ⟨hold, hfree⟩ := List.mem_filter.mp hmem
  have hboth := of_decide_eq_true hfree
  exact hboth.1 (hpool hold)

/-! ## Where ids are -/

/-- An image has this id, wherever it stands or is written down. -/
inductive ImageAt (temp imageDir : AList fun _ : UInt64 => Bytes)
    (pending : List DiscImageEntry) (pendingMeta : Option (List DiscImageEntry))
    (discMeta : AList fun _ : UInt64 => List DiscImageEntry) (index : DiscImageIndex)
    (volumeId : UInt64) : Prop
  | temp : volumeId ∈ temp → ImageAt temp imageDir pending pendingMeta discMeta index volumeId
  | image : volumeId ∈ imageDir →
      ImageAt temp imageDir pending pendingMeta discMeta index volumeId
  | pending {entry : DiscImageEntry} : entry ∈ pending → entry.volumeId = volumeId →
      ImageAt temp imageDir pending pendingMeta discMeta index volumeId
  | pendingMeta {entries : List DiscImageEntry} {entry : DiscImageEntry} :
      pendingMeta = some entries → entry ∈ entries → entry.volumeId = volumeId →
      ImageAt temp imageDir pending pendingMeta discMeta index volumeId
  | discMeta {discId : UInt64} {entries : List DiscImageEntry} {entry : DiscImageEntry} :
      discMeta.lookup discId = some entries → entry ∈ entries → entry.volumeId = volumeId →
      ImageAt temp imageDir pending pendingMeta discMeta index volumeId
  | index : volumeId ∈ index → ImageAt temp imageDir pending pendingMeta discMeta index volumeId

/-- A disc has this id: its metadata, its file, its place in the index or its task. -/
inductive DiscAt (discMeta : AList fun _ : UInt64 => List DiscImageEntry)
    (vdisc : AList fun _ : Bytes => Bytes) (index : DiscImageIndex) (burnTasks : List UInt64)
    (discId : UInt64) : Prop
  | discMeta : discId ∈ discMeta → DiscAt discMeta vdisc index burnTasks discId
  | vdisc : diskId discId ∈ vdisc → DiscAt discMeta vdisc index burnTasks discId
  | index {volumeId : UInt64} {location : DiscImageLocation} :
      index.lookup volumeId = some location →
      parseUint64Decimal location.diskId = some discId →
      DiscAt discMeta vdisc index burnTasks discId
  | task : discId ∈ burnTasks → DiscAt discMeta vdisc index burnTasks discId

def NodeState.HoldsImage (state : NodeState) (volumeId : UInt64) : Prop :=
  ImageAt state.temp state.space.imageDir state.pendingDiscEntries state.pendingDiscMeta
    state.discMeta state.index.discImageIndex volumeId

def NodeState.HoldsDisc (state : NodeState) (discId : UInt64) : Prop :=
  DiscAt state.discMeta state.vdisc state.index.discImageIndex state.burnTasks discId

/-- The ids of the pools are new. -/
structure NodeState.PoolsFree (state : NodeState) : Prop where
  volumesDistinct : state.availableVolumeIds.Nodup
  volumesFree : ∀ id ∈ state.availableVolumeIds, id < state.nextVolumeId ∧ ¬state.HoldsImage id
  discsDistinct : state.availableDiskIds.Nodup
  discsFree : ∀ id ∈ state.availableDiskIds, id < state.nextDiskId ∧ ¬state.HoldsDisc id

/-- The volume id of the image file that a call opens in `temp/`. -/
def NodeState.packedId (config : NodeConfig) (state : NodeState) : NodeCall → Option UInt64
  | .writeTask pack _ _ _ _ =>
      if state.running ∧ pack.file?.isSome then
        (state.ensureAvailableVolumeIds config).availableVolumeIds.head?
      else none
  | .flushArchiveTail (some pack) _ _ _ =>
      if state.running ∧ pack.file?.isSome then
        (state.ensureAvailableVolumeIds config).availableVolumeIds.head?
      else none
  | _ => none

/-- The ids of the discs that a call seals, which get tasks in this order. -/
def NodeState.sealedIds (config : NodeConfig) (state : NodeState) : NodeCall → List UInt64
  | .writeTask pack collected found move list =>
      (state.serve config (.writeTask pack collected found move list)).burnTasks.drop
        state.burnTasks.length
  | .flushArchiveTail pack move list sealRenamed =>
      (state.serve config (.flushArchiveTail pack move list sealRenamed)).burnTasks.drop
        state.burnTasks.length
  | _ => []

def volumesWritten (config : NodeConfig) (hist : List (Served NodeState NodeCall)) : List UInt64 :=
  hist.flatMap fun served => (served.before.packedId config served.call).toList

def discsSealed (config : NodeConfig) (hist : List (Served NodeState NodeCall)) : List UInt64 :=
  hist.flatMap fun served => served.before.sealedIds config served.call

def IdsNeverReused (config : NodeConfig) (ok : NodeState → NodeCall → Prop) : Prop :=
  ∀ hist state, Serves (Serving config) ok {} hist state →
    (volumesWritten config hist).Nodup ∧ (discsSealed config hist).Nodup ∧ state.PoolsFree

/-! ## Restarts that find traces -/

/-- The snapshot that a restart loads. -/
def NodeState.loadedSnapshot (state : NodeState) (faults : RestartFaults) : Option Snapshot :=
  if faults.loaded then state.snapshot else none

/-- The volume ids that a restart looks at: in `image/`, in the list for the next disc
    and in the index. -/
def NodeState.SeesVolume (state : NodeState) (faults : RestartFaults) (volumeId : UInt64) : Prop :=
  volumeId ∈ state.space.imageDir ∨
  (∃ entries, state.pendingDiscMeta = some entries ∧ faults.pendingRead = true ∧
    ∃ entry ∈ entries, entry.volumeId = volumeId) ∨
  volumeId ∈ (state.index.rebuildDiscImageIndex faults.indexRead).discImageIndex

/-- The disc ids that a restart looks at: of the metadata and of the index. -/
def NodeState.SeesDisc (state : NodeState) (faults : RestartFaults) (discId : UInt64) : Prop :=
  discId ∈ state.discMeta ∨
  ∃ volumeId location,
    (state.index.rebuildDiscImageIndex faults.indexRead).discImageIndex.lookup volumeId =
      some location ∧
    parseUint64Decimal location.diskId = some discId

/-- Every taken id comes before one that is seen or before the counter of the snapshot,
    and is seen if the pool of the snapshot still has it. The counter has room after the
    ids that are seen. -/
structure Traced (next : UInt64) (pool : List UInt64) (saved : Option (UInt64 × List UInt64))
    (Sees : UInt64 → Prop) : Prop where
  before : ∀ id, id ≠ 0 → Taken next pool id →
    (∃ seen, Sees seen ∧ id ≤ seen) ∨ ∃ snapshot ∈ saved, id < snapshot.1
  pooled : ∀ id, id ≠ 0 → Taken next pool id → ∀ snapshot ∈ saved, id ∈ snapshot.2 → Sees id
  room : ∀ seen, Sees seen → seen.toNat + 1 < 2 ^ 64

/-- No image is cut short while it is packed. -/
def NodeCall.Whole : NodeCall → Prop
  | .writeTask (.broken _) _ _ _ _ => False
  | .flushArchiveTail (some (.broken _)) _ _ _ => False
  | _ => True

instance (call : NodeCall) : Decidable call.Whole :=
  match call with
  | .writeTask (.broken _) _ _ _ _ => isFalse fun h => h
  | .writeTask .nothing _ _ _ _ => isTrue trivial
  | .writeTask (.whole _) _ _ _ _ => isTrue trivial
  | .flushArchiveTail (some (.broken _)) _ _ _ => isFalse fun h => h
  | .flushArchiveTail (some .nothing) _ _ _ => isTrue trivial
  | .flushArchiveTail (some (.whole _)) _ _ _ => isTrue trivial
  | .flushArchiveTail none _ _ _ => isTrue trivial
  | .onCDBurnComplete _ _ => isTrue trivial
  | .onCDReadComplete _ _ _ => isTrue trivial
  | .touch _ => isTrue trivial
  | .removeSingleReadImage _ => isTrue trivial
  | .shutdown _ => isTrue trivial
  | .crash => isTrue trivial
  | .restart _ => isTrue trivial

/-- Images are packed whole, the counters have room for what a call takes, and every
    restart finds traces of the ids that are taken. -/
structure Traceable (config : NodeConfig) (state : NodeState) (call : NodeCall) : Prop where
  whole : state.running = true → call.Whole
  volumeRoom : state.running = true → state.nextVolumeId.toNat + config.availableIdCount < 2 ^ 64
  diskRoom : state.running = true →
    state.nextDiskId.toNat + 2 * (config.availableIdCount + 1) < 2 ^ 64
  volumesTraced : ∀ faults, state.running = false → call = .restart faults →
    Traced state.nextVolumeId state.availableVolumeIds
      ((state.loadedSnapshot faults).map fun saved => (saved.nextVolumeId, saved.availableVolumeIds))
      (state.SeesVolume faults)
  disksTraced : ∀ faults, state.running = false → call = .restart faults →
    Traced state.nextDiskId state.availableDiskIds
      ((state.loadedSnapshot faults).map fun saved => (saved.nextDiskId, saved.availableDiskIds))
      (state.SeesDisc faults)

/-! ## The invariant -/

/-- Whatever was written or sealed, and whatever the node holds, has a taken id. -/
structure IdsKept (volumes discs : List UInt64) (state : NodeState) : Prop where
  volumeIds : Issues state.nextVolumeId state.availableVolumeIds
  diskIds : Issues state.nextDiskId state.availableDiskIds
  savedVolumeIds : ∀ saved ∈ state.snapshot, Issues saved.nextVolumeId saved.availableVolumeIds
  savedDiskIds : ∀ saved ∈ state.snapshot, Issues saved.nextDiskId saved.availableDiskIds
  savedTasks : ∀ saved ∈ state.snapshot, ∀ id ∈ saved.burnTasks,
    Taken state.nextDiskId state.availableDiskIds id
  imagesTaken : ∀ id, state.HoldsImage id → Taken state.nextVolumeId state.availableVolumeIds id
  discsTaken : ∀ id, state.HoldsDisc id → Taken state.nextDiskId state.availableDiskIds id
  writtenOnce : volumes.Nodup
  written : ∀ id ∈ volumes, Taken state.nextVolumeId state.availableVolumeIds id
  sealedOnce : discs.Nodup
  isSealed : ∀ id ∈ discs, Taken state.nextDiskId state.availableDiskIds id

/-- The other state issues ids in the same way and holds no others. -/
structure Within (state state' : NodeState) : Prop where
  nextVolumeId : state'.nextVolumeId = state.nextVolumeId
  nextDiskId : state'.nextDiskId = state.nextDiskId
  availableVolumeIds : state'.availableVolumeIds = state.availableVolumeIds
  availableDiskIds : state'.availableDiskIds = state.availableDiskIds
  snapshot : state'.snapshot = state.snapshot
  images : ∀ id, state'.HoldsImage id → state.HoldsImage id
  discs : ∀ id, state'.HoldsDisc id → state.HoldsDisc id

variable {config : NodeConfig} {state state' state'' : NodeState} {volumes discs : List UInt64}
  {volumeId discId : UInt64} {entries : List DiscImageEntry} {entry : DiscImageEntry}
  {space : SpaceManager} {faults : RestartFaults}

theorem Within.refl (state : NodeState) : Within state state :=
  ⟨rfl, rfl, rfl, rfl, rfl, fun _ h => h, fun _ h => h⟩

theorem Within.trans (h : Within state state') (h' : Within state' state'') :
    Within state state'' where
  nextVolumeId := h'.nextVolumeId.trans h.nextVolumeId
  nextDiskId := h'.nextDiskId.trans h.nextDiskId
  availableVolumeIds := h'.availableVolumeIds.trans h.availableVolumeIds
  availableDiskIds := h'.availableDiskIds.trans h.availableDiskIds
  snapshot := h'.snapshot.trans h.snapshot
  images := fun id hid => h.images id (h'.images id hid)
  discs := fun id hid => h.discs id (h'.discs id hid)

theorem IdsKept.within (h : IdsKept volumes discs state) (hwithin : Within state state') :
    IdsKept volumes discs state' where
  volumeIds := by
    rw [hwithin.nextVolumeId, hwithin.availableVolumeIds]
    exact h.volumeIds
  diskIds := by
    rw [hwithin.nextDiskId, hwithin.availableDiskIds]
    exact h.diskIds
  savedVolumeIds := hwithin.snapshot ▸ h.savedVolumeIds
  savedDiskIds := hwithin.snapshot ▸ h.savedDiskIds
  savedTasks := by
    rw [hwithin.snapshot, hwithin.nextDiskId, hwithin.availableDiskIds]
    exact h.savedTasks
  imagesTaken := by
    rw [hwithin.nextVolumeId, hwithin.availableVolumeIds]
    exact fun id hid => h.imagesTaken id (hwithin.images id hid)
  discsTaken := by
    rw [hwithin.nextDiskId, hwithin.availableDiskIds]
    exact fun id hid => h.discsTaken id (hwithin.discs id hid)
  writtenOnce := h.writtenOnce
  written := by
    rw [hwithin.nextVolumeId, hwithin.availableVolumeIds]
    exact h.written
  sealedOnce := h.sealedOnce
  isSealed := by
    rw [hwithin.nextDiskId, hwithin.availableDiskIds]
    exact h.isSealed

theorem IdsKept.poolsFree (h : IdsKept volumes discs state) : state.PoolsFree where
  volumesDistinct := h.volumeIds.nodup
  volumesFree := fun id hmem =>
    ⟨(h.volumeIds.bounded id hmem).2, fun hholds => (h.imagesTaken id hholds).2 hmem⟩
  discsDistinct := h.diskIds.nodup
  discsFree := fun id hmem =>
    ⟨(h.diskIds.bounded id hmem).2, fun hholds => (h.discsTaken id hholds).2 hmem⟩

/-! ## Taking ids out of the pools -/

/-- The same state with other counters and pools, for which what was taken is taken. -/
theorem IdsKept.reissue (h : IdsKept volumes discs state) {nextVolume nextDisk : UInt64}
    {volumePool diskPool : List UInt64} (hvolumes : Issues nextVolume volumePool)
    (hdisks : Issues nextDisk diskPool)
    (hvolume : ∀ id, Taken state.nextVolumeId state.availableVolumeIds id →
      Taken nextVolume volumePool id)
    (hdisk : ∀ id, Taken state.nextDiskId state.availableDiskIds id →
      Taken nextDisk diskPool id) :
    IdsKept volumes discs
      { state with
        nextVolumeId := nextVolume
        nextDiskId := nextDisk
        availableVolumeIds := volumePool
        availableDiskIds := diskPool } where
  volumeIds := hvolumes
  diskIds := hdisks
  savedVolumeIds := h.savedVolumeIds
  savedDiskIds := h.savedDiskIds
  savedTasks := fun saved hsaved id hid => hdisk id (h.savedTasks saved hsaved id hid)
  imagesTaken := fun id hid => hvolume id (h.imagesTaken id hid)
  discsTaken := fun id hid => hdisk id (h.discsTaken id hid)
  writtenOnce := h.writtenOnce
  written := fun id hid => hvolume id (h.written id hid)
  sealedOnce := h.sealedOnce
  isSealed := fun id hid => hdisk id (h.isSealed id hid)

theorem IdsKept.ensureVolumes (h : IdsKept volumes discs state)
    (hroom : state.nextVolumeId.toNat + config.availableIdCount < 2 ^ 64) :
    IdsKept volumes discs (state.ensureAvailableVolumeIds config) := by
  have hmissing : state.nextVolumeId.toNat +
      (config.availableIdCount - state.availableVolumeIds.length) < 2 ^ 64 := by omega
  have hrefills := h.volumeIds.ensure hmissing
  exact h.reissue hrefills.issues h.diskIds hrefills.taken fun _ htaken => htaken

theorem IdsKept.ensureDisks (h : IdsKept volumes discs state)
    (hroom : state.nextDiskId.toNat + config.availableIdCount < 2 ^ 64) :
    IdsKept volumes discs (state.ensureAvailableDiskIds config) ∧
      (state.ensureAvailableDiskIds config).nextDiskId.toNat ≤
        state.nextDiskId.toNat + config.availableIdCount := by
  have hmissing : state.nextDiskId.toNat +
      (config.availableIdCount - state.availableDiskIds.length) < 2 ^ 64 := by omega
  have hrefills := h.diskIds.ensure hmissing
  refine ⟨h.reissue h.volumeIds hrefills.issues (fun _ htaken => htaken) hrefills.taken, ?_⟩
  exact hrefills.le.trans (by omega)

/-- The first id of the pool is taken for an image that is packed. -/
theorem IdsKept.packTaken (h : IdsKept volumes discs state) {rest : List UInt64}
    (hpool : state.availableVolumeIds = volumeId :: rest) (bytes : Bytes) :
    IdsKept (volumes ++ [volumeId]) discs
      { state with temp := state.temp.insert volumeId bytes, availableVolumeIds := rest } := by
  have hissues := h.volumeIds
  rw [hpool] at hissues
  have hnew : volumeId ∉ volumes := fun hmem =>
    (h.written volumeId hmem).2 (by rw [hpool]; exact List.mem_cons_self)
  have htail : ∀ id, Taken state.nextVolumeId state.availableVolumeIds id →
      Taken state.nextVolumeId rest id := by
    rw [hpool]
    exact fun id htaken => htaken.tail
  have hbase := h.reissue hissues.tail h.diskIds htail fun _ htaken => htaken
  refine { hbase with imagesTaken := ?_, writtenOnce := ?_, written := ?_ }
  · intro id hid
    cases hid with
    | temp hmem =>
        rcases (AList.mem_insert _).mp hmem with rfl | hold
        · exact hissues.taken_head
        · exact hbase.imagesTaken id (ImageAt.temp hold)
    | image hmem => exact hbase.imagesTaken id (ImageAt.image hmem)
    | pending hmem heq => exact hbase.imagesTaken id (ImageAt.pending hmem heq)
    | pendingMeta hsome hmem heq => exact hbase.imagesTaken id (ImageAt.pendingMeta hsome hmem heq)
    | discMeta hsome hmem heq => exact hbase.imagesTaken id (ImageAt.discMeta hsome hmem heq)
    | index hmem => exact hbase.imagesTaken id (ImageAt.index hmem)
  · rw [List.nodup_append]
    refine ⟨h.writtenOnce, List.nodup_singleton _, fun a ha b hb hab => ?_⟩
    rw [List.mem_singleton.mp hb] at hab
    exact hnew (hab ▸ ha)
  · intro id hid
    rcases List.mem_append.mp hid with hold | hlast
    · exact hbase.written id hold
    · rw [List.mem_singleton.mp hlast]
      exact hissues.taken_head

/-- The first id of the pool is dropped. -/
theorem IdsKept.dropVolume (h : IdsKept volumes discs state) {rest : List UInt64}
    (hpool : state.availableVolumeIds = volumeId :: rest) :
    IdsKept volumes discs { state with availableVolumeIds := rest } := by
  have hissues := h.volumeIds
  rw [hpool] at hissues
  refine h.reissue hissues.tail h.diskIds ?_ fun _ htaken => htaken
  rw [hpool]
  exact fun id htaken => htaken.tail

/-! ## Sealing -/

/-- What sealing does: no disc or one with a new id, and as much of the counter. -/
structure Seals (config : NodeConfig) (volumes discs : List UInt64) (state : NodeState)
    (ids : List UInt64) (state' : NodeState) : Prop where
  kept : IdsKept volumes (discs ++ ids) state'
  tasks : state'.burnTasks = state.burnTasks ++ ids
  le : state'.nextDiskId.toNat ≤ state.nextDiskId.toNat + (config.availableIdCount + 1)

theorem IdsKept.unsealed (h : IdsKept volumes discs state) : Seals config volumes discs state [] state :=
  ⟨by rwa [List.append_nil], (List.append_nil _).symm, Nat.le_add_right _ _⟩

/-- A taken id that no disc has yet is given to the list for the next disc. -/
theorem IdsKept.sealAs (h : IdsKept volumes discs state)
    (htaken : Taken state.nextDiskId state.availableDiskIds discId) (hnew : discId ∉ discs)
    (hmeta : state.pendingDiscMeta = some entries) :
    IdsKept volumes (discs ++ [discId])
      { state with
        pendingDiscMeta := none
        discMeta := state.discMeta.insert discId entries
        burnTasks := state.burnTasks ++ [discId]
        pendingDiscEntries := [] } := by
  refine { h with imagesTaken := ?_, discsTaken := ?_, sealedOnce := ?_, isSealed := ?_ }
  · intro id hid
    cases hid with
    | temp hmem => exact h.imagesTaken id (ImageAt.temp hmem)
    | image hmem => exact h.imagesTaken id (ImageAt.image hmem)
    | pending hmem _ => exact nomatch hmem
    | pendingMeta hsome _ _ => exact nomatch hsome
    | @discMeta other entries' entry hsome hmem heq =>
        by_cases hsame : other = discId
        · rw [hsame, AList.lookup_insert] at hsome
          cases hsome
          exact h.imagesTaken id (ImageAt.pendingMeta hmeta hmem heq)
        · rw [AList.lookup_insert_ne hsame] at hsome
          exact h.imagesTaken id (ImageAt.discMeta hsome hmem heq)
    | index hmem => exact h.imagesTaken id (ImageAt.index hmem)
  · intro id hid
    cases hid with
    | discMeta hmem =>
        rcases (AList.mem_insert _).mp hmem with rfl | hold
        · exact htaken
        · exact h.discsTaken id (DiscAt.discMeta hold)
    | vdisc hmem => exact h.discsTaken id (DiscAt.vdisc hmem)
    | index hsome hparse => exact h.discsTaken id (DiscAt.index hsome hparse)
    | task hmem =>
        rcases List.mem_append.mp hmem with hold | hlast
        · exact h.discsTaken id (DiscAt.task hold)
        · rw [List.mem_singleton.mp hlast]
          exact htaken
  · rw [List.nodup_append]
    refine ⟨h.sealedOnce, List.nodup_singleton _, fun a ha b hb hab => ?_⟩
    rw [List.mem_singleton.mp hb] at hab
    exact hnew (hab ▸ ha)
  · intro id hid
    rcases List.mem_append.mp hid with hold | hlast
    · exact h.isSealed id hold
    · rw [List.mem_singleton.mp hlast]
      exact htaken

/-- An id for a disc, from the pool or from the counter. -/
theorem IdsKept.takeDisk (h : IdsKept volumes discs state)
    (hroom : state.nextDiskId.toNat + 1 < 2 ^ 64) :
    ∃ next, next.toNat ≤ state.nextDiskId.toNat + 1 ∧
      next = (if state.availableDiskIds.isEmpty then state.nextDiskId + 1 else state.nextDiskId) ∧
      IdsKept volumes discs { state with nextDiskId := next } ∧
      IdsKept volumes discs
        { state with nextDiskId := next, availableDiskIds := state.availableDiskIds.tail } ∧
      Taken next state.availableDiskIds.tail (state.availableDiskIds.headD state.nextDiskId) ∧
      state.availableDiskIds.headD state.nextDiskId ∉ discs := by
  cases hpool : state.availableDiskIds with
  | nil =>
      have hissues := h.diskIds
      rw [hpool] at hissues
      have hnext : Issues (state.nextDiskId + 1) [state.nextDiskId] := hissues.generate hroom
      have htaken : ∀ id, Taken state.nextDiskId state.availableDiskIds id →
          Taken (state.nextDiskId + 1) [] id := by
        rw [hpool]
        exact fun id hid => (hid.generate hroom).tail
      have hkept : IdsKept volumes discs
          { state with nextDiskId := state.nextDiskId + 1, availableDiskIds := [] } :=
        h.reissue h.volumeIds hnext.tail (fun _ hid => hid) htaken
      have hsame : { state with nextDiskId := state.nextDiskId + 1 } =
          { state with nextDiskId := state.nextDiskId + 1, availableDiskIds := [] } := by
        rw [← hpool]
      refine ⟨state.nextDiskId + 1, (toNat_succ hroom).le, rfl, hsame ▸ hkept, hkept,
        hnext.taken_head, fun hmem => ?_⟩
      exact absurd (h.isSealed _ hmem).1 (by
        rw [UInt64.lt_iff_toNat_lt]
        exact Nat.lt_irrefl _)
  | cons first rest =>
      have hissues := h.diskIds
      rw [hpool] at hissues
      have htaken : ∀ id, Taken state.nextDiskId state.availableDiskIds id →
          Taken state.nextDiskId rest id := by
        rw [hpool]
        exact fun id hid => hid.tail
      refine ⟨state.nextDiskId, Nat.le_succ _, rfl, by rw [← hpool]; exact h,
        h.reissue h.volumeIds hissues.tail (fun _ hid => hid) htaken, hissues.taken_head,
        fun hmem => ?_⟩
      refine (h.isSealed _ hmem).2 ?_
      rw [hpool]
      exact List.mem_cons_self

theorem IdsKept.sealPendingDisc (h : IdsKept volumes discs state)
    (hroom : state.nextDiskId.toNat + (config.availableIdCount + 1) < 2 ^ 64) (renamed : Bool) :
    ∃ ids, Seals config volumes discs state ids (state.sealPendingDisc config renamed).2 := by
  rw [NodeState.sealPendingDisc]
  split
  · exact ⟨[], h.unsealed⟩
  · have hroom' : state.nextDiskId.toNat + config.availableIdCount < 2 ^ 64 := by omega
    obtain ⟨hfull, hle⟩ := h.ensureDisks hroom'
    generalize hstate : state.ensureAvailableDiskIds config = full at hfull hle
    have htasks : full.burnTasks = state.burnTasks := by
      rw [← hstate]
      rfl
    obtain ⟨next, hnext, heq, hkept, htail, htaken, hnew⟩ := hfull.takeDisk (by omega)
    have hif : (if full.availableDiskIds.isEmpty = true then
        { full with nextDiskId := full.nextDiskId + 1 } else full) =
        { full with nextDiskId := next } := by
      rw [heq]
      split <;> rfl
    have hfail : Seals config volumes discs state [] { full with nextDiskId := next } :=
      ⟨by rwa [List.append_nil], by rw [List.append_nil]; exact htasks, by dsimp only; omega⟩
    dsimp only
    rw [hif]
    split
    · exact ⟨[], hfail⟩
    · split
      · exact ⟨[], hfail⟩
      · rename_i entries hmeta
        split
        · exact ⟨[], hfail⟩
        · refine ⟨[full.availableDiskIds.headD full.nextDiskId], ?_, ?_, ?_⟩
          · exact htail.sealAs htaken hnew hmeta
          · exact congrArg (· ++ _) htasks
          · dsimp only
            omega

/-! ## Packing -/

theorem map_volumeId_placeEntries (block cursor : Nat) (entries : List DiscImageEntry) :
    (placeEntries block cursor entries).1.map DiscImageEntry.volumeId =
      entries.map DiscImageEntry.volumeId := by
  induction entries generalizing cursor with
  | nil => rfl
  | cons entry entries ih => simp [placeEntries, ih]

theorem map_volumeId_fillDiscLayout (config : NodeConfig) (entries : List DiscImageEntry) :
    (fillDiscLayout config entries).1.map DiscImageEntry.volumeId =
      entries.map DiscImageEntry.volumeId :=
  map_volumeId_placeEntries ..

/-- A state after a seal that issues in the same way has sealed the same discs. -/
theorem Seals.within {ids : List UInt64} (h : Seals config volumes discs state ids state')
    (hwithin : Within state' state'') (htasks : state''.burnTasks = state'.burnTasks) :
    Seals config volumes discs state ids state'' where
  kept := h.kept.within hwithin
  tasks := htasks.trans h.tasks
  le := hwithin.nextDiskId ▸ h.le

/-- A list of records of images that the node holds takes the place of the pending one. -/
theorem within_listed (hlisted : ∀ entry ∈ entries, state.HoldsImage entry.volumeId) :
    Within state { state with pendingDiscEntries := entries } where
  nextVolumeId := rfl
  nextDiskId := rfl
  availableVolumeIds := rfl
  availableDiskIds := rfl
  snapshot := rfl
  images := by
    intro id hid
    cases hid with
    | temp hmem => exact ImageAt.temp hmem
    | image hmem => exact ImageAt.image hmem
    | pending hmem heq => exact heq ▸ hlisted _ hmem
    | pendingMeta hsome hmem heq => exact ImageAt.pendingMeta hsome hmem heq
    | discMeta hsome hmem heq => exact ImageAt.discMeta hsome hmem heq
    | index hmem => exact ImageAt.index hmem
  discs := fun _ hid => hid

theorem within_persist (state : NodeState) (persisted : Bool) :
    Within state (state.persistPendingDiscMeta persisted).2 := by
  rw [NodeState.persistPendingDiscMeta]
  split
  · refine ⟨rfl, rfl, rfl, rfl, rfl, fun id hid => ?_, fun _ hid => hid⟩
    cases hid with
    | temp hmem => exact ImageAt.temp hmem
    | image hmem => exact ImageAt.image hmem
    | pending hmem heq => exact ImageAt.pending hmem heq
    | pendingMeta hsome hmem heq =>
        cases hsome
        exact ImageAt.pending hmem heq
    | discMeta hsome hmem heq => exact ImageAt.discMeta hsome hmem heq
    | index hmem => exact ImageAt.index hmem
  · exact Within.refl state

theorem burnTasks_persist (state : NodeState) (persisted : Bool) :
    (state.persistPendingDiscMeta persisted).2.burnTasks = state.burnTasks := by
  rw [NodeState.persistPendingDiscMeta]
  split <;> rfl

theorem space_sealPendingDisc (state : NodeState) (renamed : Bool) :
    (state.sealPendingDisc config renamed).2.space = state.space := by
  rw [NodeState.sealPendingDisc]
  split
  · rfl
  · dsimp only
    repeat' split
    all_goals rfl

theorem space_sealIfFull (state : NodeState) (entry : DiscImageEntry) (renamed : Bool) :
    (state.sealIfFull config entry renamed).2.space = state.space := by
  rw [NodeState.sealIfFull]
  split
  · exact space_sealPendingDisc state renamed
  · rfl

theorem IdsKept.accumulate (h : IdsKept volumes discs state)
    (hroom : state.nextDiskId.toNat + (config.availableIdCount + 1) < 2 ^ 64) (volumeId : UInt64)
    (list : ListFaults) :
    ∃ ids, Seals config volumes discs state ids
      (state.accumulatePackedImage config volumeId list).2 := by
  rw [NodeState.accumulatePackedImage]
  split
  · rename_i bytes digest himage _
    split
    · exact ⟨[], h.unsealed⟩
    · have hseals : ∃ ids, Seals config volumes discs state ids
          (state.sealIfFull config (imageRecord volumeId bytes digest) list.sealRenamed).2 := by
        rw [NodeState.sealIfFull]
        split
        · exact h.sealPendingDisc hroom list.sealRenamed
        · exact ⟨[], h.unsealed⟩
      have hspace : (state.sealIfFull config (imageRecord volumeId bytes digest)
          list.sealRenamed).2.space = state.space := space_sealIfFull ..
      obtain ⟨ids, hseals⟩ := hseals
      dsimp only
      split
      · rename_i after hafter
        rw [hafter] at hseals
        exact ⟨ids, hseals⟩
      · rename_i after hafter
        rw [hafter] at hseals hspace
        have hheld : after.HoldsImage volumeId := by
          refine ImageAt.image ?_
          rw [hspace, ← AList.lookup_isSome, himage]
          rfl
        have hlisted : ∀ entry ∈ (fillDiscLayout config (after.pendingDiscEntries ++
            [imageRecord volumeId bytes digest])).1, after.HoldsImage entry.volumeId := by
          intro entry hmem
          have hid := List.mem_map_of_mem (f := DiscImageEntry.volumeId) hmem
          rw [map_volumeId_fillDiscLayout, List.map_append, List.mem_append] at hid
          rcases hid with hold | hnew
          · obtain ⟨other, hother, heq⟩ := List.mem_map.mp hold
            exact ImageAt.pending hother heq
          · rw [List.mem_singleton.mp hnew]
            exact hheld
        have hwithin := (within_listed hlisted).trans (within_persist _ list.persisted)
        exact ⟨ids, hseals.within hwithin (burnTasks_persist _ _)⟩
  · exact ⟨[], h.unsealed⟩

/-- The image comes from `temp/` to `image/`, so its id is held before and after. -/
theorem within_moved (hmem : volumeId ∈ state.temp)
    (himage : ∀ id ∈ space.imageDir, id ∈ state.space.imageDir ∨ id = volumeId)
    {temp : AList fun _ : UInt64 => Bytes} (htemp : ∀ id ∈ temp, id ∈ state.temp) :
    Within state { state with temp := temp, space := space } where
  nextVolumeId := rfl
  nextDiskId := rfl
  availableVolumeIds := rfl
  availableDiskIds := rfl
  snapshot := rfl
  images := by
    intro id hid
    cases hid with
    | temp hmem => exact ImageAt.temp (htemp id hmem)
    | image himg =>
        rcases himage id himg with hold | rfl
        · exact ImageAt.image hold
        · exact ImageAt.temp hmem
    | pending hmem heq => exact ImageAt.pending hmem heq
    | pendingMeta hsome hmem heq => exact ImageAt.pendingMeta hsome hmem heq
    | discMeta hsome hmem heq => exact ImageAt.discMeta hsome hmem heq
    | index hmem => exact ImageAt.index hmem
  discs := fun _ hid => hid

theorem IdsKept.stage (h : IdsKept volumes discs state)
    (hroom : state.nextDiskId.toNat + (config.availableIdCount + 1) < 2 ^ 64) (volumeId : UInt64)
    (move : MoveFaults) (list : ListFaults) :
    ∃ ids, Seals config volumes discs state ids (state.stage config volumeId move list).2 := by
  rw [NodeState.stage]
  split
  · exact ⟨[], h.unsealed⟩
  · rename_i bytes htemp
    have hmem : volumeId ∈ state.temp := by
      rw [← AList.lookup_isSome, htemp]
      rfl
    have himage : ∀ id ∈ (state.space.moveFrom config.capacityInImages volumeId bytes .write
        move).2.imageDir, id ∈ state.space.imageDir ∨ id = volumeId := fun id hid =>
      SpaceManager.mem_imageDir_moveFrom hid
    split
    · rename_i space hmoved
      rw [hmoved] at himage
      have hwithin : Within state { state with temp := state.temp.erase volumeId, space := space } :=
        within_moved hmem himage fun id hid => (AList.mem_erase.mp hid).2
      obtain ⟨ids, hseals⟩ := (h.within hwithin).accumulate hroom volumeId list
      exact ⟨ids, hseals.kept, hseals.tasks, hseals.le⟩
    · rename_i code space _ hmoved
      rw [hmoved] at himage
      exact ⟨[], h.unsealed.within (within_moved hmem himage fun _ hid => hid) rfl⟩

/-- What a call adds: perhaps a packed image, and the discs that are sealed. -/
structure Adds (volumes discs : List UInt64) (state : NodeState) (packed : Option UInt64)
    (ids : List UInt64) (state' : NodeState) : Prop where
  kept : IdsKept (volumes ++ packed.toList) (discs ++ ids) state'
  tasks : state'.burnTasks = state.burnTasks ++ ids

theorem Seals.adds {ids : List UInt64} {before : NodeState} (packed : Option UInt64)
    (h : Seals config (volumes ++ packed.toList) discs state ids state')
    (htasks : state.burnTasks = before.burnTasks) : Adds volumes discs before packed ids state' :=
  ⟨h.kept, htasks ▸ h.tasks⟩

theorem IdsKept.adds (h : IdsKept volumes discs state') (htasks : state'.burnTasks = state.burnTasks) :
    Adds volumes discs state none [] state' :=
  ⟨by rwa [Option.toList_none, List.append_nil, List.append_nil],
    by rw [htasks, List.append_nil]⟩

theorem scanTemp_ne_none {found : UInt64} (h : volumeId ∈ state.temp) :
    state.scanTemp found ≠ none := by
  rw [NodeState.scanTemp]
  split
  · nofun
  · intro hnone
    rw [List.head?_eq_none_iff] at hnone
    have hkey := AList.mem_keys.mp h
    rw [hnone] at hkey
    exact nomatch hkey

/-- The id that is packed under is the first of the filled pool. -/
def NodeState.packId (config : NodeConfig) (state : NodeState) (pack : Pack) : Option UInt64 :=
  if pack.file?.isSome then (state.ensureAvailableVolumeIds config).availableVolumeIds.head?
  else none

theorem IdsKept.writeTask (h : IdsKept volumes discs state)
    (hvolumes : state.nextVolumeId.toNat + config.availableIdCount < 2 ^ 64)
    (hdisks : state.nextDiskId.toNat + 2 * (config.availableIdCount + 1) < 2 ^ 64) {pack : Pack}
    (hpack : ∀ bytes, pack ≠ .broken bytes) (collected : Bool) (found : UInt64) (move : MoveFaults)
    (list : ListFaults) :
    ∃ ids, Adds volumes discs state (state.packId config pack) ids
      (state.writeTask config pack collected found move list) := by
  have hfull := h.ensureVolumes hvolumes
  have htasks : (state.ensureAvailableVolumeIds config).burnTasks = state.burnTasks := rfl
  have hdisk : (state.ensureAvailableVolumeIds config).nextDiskId = state.nextDiskId := rfl
  rw [NodeState.writeTask, NodeState.packId]
  generalize state.ensureAvailableVolumeIds config = full at hfull htasks hdisk
  have hroom : full.nextDiskId.toNat + (config.availableIdCount + 1) < 2 ^ 64 := by
    rw [hdisk]
    omega
  dsimp only
  cases hpool : full.availableVolumeIds with
  | nil =>
      refine ⟨[], ?_⟩
      rw [List.head?_nil, ite_self]
      exact hfull.adds htasks
  | cons volumeId rest =>
      cases pack with
      | broken bytes => exact absurd rfl (hpack bytes)
      | nothing =>
          cases collected with
          | false => exact ⟨[], hfull.adds htasks⟩
          | true =>
              dsimp only [NodeState.pack, Pack.file?]
              generalize full.scanTemp found = scanned
              cases scanned with
              | none => exact ⟨[], hfull.adds htasks⟩
              | some packed =>
                  have hdrop := hfull.dropVolume hpool
                  rw [← List.append_nil volumes] at hdrop
                  obtain ⟨ids, hseals⟩ := hdrop.stage hroom packed move list
                  rw [hpool]
                  exact ⟨ids, hseals.adds none htasks⟩
      | whole bytes =>
          have htaken := hfull.packTaken hpool bytes
          dsimp only [NodeState.pack, Pack.file?]
          generalize hscan : NodeState.scanTemp _ found = scanned
          cases scanned with
          | none =>
              have hmem : volumeId ∈ full.temp.insert volumeId bytes :=
                (AList.mem_insert _).mpr (.inl rfl)
              exact absurd hscan (scanTemp_ne_none hmem)
          | some packed =>
              obtain ⟨ids, hseals⟩ := htaken.stage hroom packed move list
              rw [hpool]
              exact ⟨ids, hseals.adds (some volumeId) htasks⟩

theorem IdsKept.flushArchiveTail (h : IdsKept volumes discs state)
    (hvolumes : state.nextVolumeId.toNat + config.availableIdCount < 2 ^ 64)
    (hdisks : state.nextDiskId.toNat + 2 * (config.availableIdCount + 1) < 2 ^ 64)
    {pack : Option Pack} (hpack : ∀ bytes, pack ≠ some (.broken bytes)) (move : MoveFaults)
    (list : ListFaults) (sealRenamed : Bool) :
    ∃ ids, Adds volumes discs state (pack.bind (state.packId config)) ids
      (state.flushArchiveTail config pack move list sealRenamed) := by
  cases pack with
  | none =>
      have hroom : state.nextDiskId.toNat + (config.availableIdCount + 1) < 2 ^ 64 := by omega
      obtain ⟨ids, hseals⟩ := h.sealPendingDisc hroom sealRenamed
      exact ⟨ids, by rw [Option.bind_none, Option.toList_none, List.append_nil]; exact hseals.kept,
        hseals.tasks⟩
  | some pack =>
      have hfull := h.ensureVolumes hvolumes
      have htasks : (state.ensureAvailableVolumeIds config).burnTasks = state.burnTasks := rfl
      have hdisk : (state.ensureAvailableVolumeIds config).nextDiskId = state.nextDiskId := rfl
      rw [NodeState.flushArchiveTail, Option.bind_some, NodeState.packId]
      generalize state.ensureAvailableVolumeIds config = full at hfull htasks hdisk
      have hroom : full.nextDiskId.toNat + (config.availableIdCount + 1) < 2 ^ 64 := by
        rw [hdisk]
        omega
      dsimp only
      cases hpool : full.availableVolumeIds with
      | nil =>
          refine ⟨[], ?_⟩
          rw [List.head?_nil, ite_self]
          exact hfull.adds htasks
      | cons volumeId rest =>
          cases pack with
          | broken bytes => exact absurd rfl (hpack bytes)
          | nothing => exact ⟨[], hfull.adds htasks⟩
          | whole bytes =>
              have htaken := hfull.packTaken hpool bytes
              obtain ⟨ids, hseals⟩ := htaken.stage hroom volumeId move list
              dsimp only [NodeState.pack, Pack.file?]
              rw [hpool, List.tail_cons]
              generalize NodeState.stage config _ volumeId move list = staged at hseals ⊢
              obtain ⟨ok, after⟩ := staged
              cases ok with
              | false => exact ⟨ids, hseals.adds (some volumeId) htasks⟩
              | true =>
                  have hle := hseals.le
                  dsimp only at hle
                  rw [hdisk] at hle
                  have hroom' : after.nextDiskId.toNat + (config.availableIdCount + 1) < 2 ^ 64 := by
                    omega
                  obtain ⟨ids', hseals'⟩ := hseals.kept.sealPendingDisc hroom' sealRenamed
                  refine ⟨ids ++ ids', ?_, ?_⟩
                  · rw [← List.append_assoc]
                    exact hseals'.kept
                  · rw [hseals'.tasks, hseals.tasks, ← List.append_assoc]
                    exact congrArg (· ++ ids ++ ids') htasks

/-! ## Burning and reading -/

theorem parseUint64Decimal_diskId (discId : UInt64) :
    parseUint64Decimal (diskId discId) = some discId := by
  have hdigits : (diskId discId).all isDigit = true :=
    List.all_eq_true.mpr fun _ hmem => isDigit_of_mem_decimal hmem
  have hvalue : digitsValue (diskId discId) = discId.toNat := digitsValue_decimal _
  have hnonempty : (diskId discId).isEmpty = false := by
    rw [diskId, decimal, List.isEmpty_map]
    exact Bool.eq_false_of_not_eq_true fun hnil => Nat.toDigits_ne_nil (List.isEmpty_iff.mp hnil)
  have hbound := discId.toNat_lt
  rw [parseUint64Decimal, hvalue, hdigits, hnonempty, if_neg (by simpa using hbound),
    UInt64.ofNat_toNat]

theorem diskId_injective : Function.Injective diskId := fun _ _ h =>
  UInt64.toNat_inj.mp (decimal_injective h)

theorem lookup_file {index : DiscImageIndex} {text : Bytes} {location : DiscImageLocation}
    (h : (entries.foldl (file text) index).lookup volumeId = some location) :
    index.lookup volumeId = some location ∨
      location.diskId = text ∧ ∃ entry ∈ entries, entry.volumeId = volumeId := by
  induction entries generalizing index with
  | nil => exact .inl h
  | cons first entries ih =>
      rcases ih h with hold | ⟨htext, entry, hmem, heq⟩
      · by_cases hsame : volumeId = first.volumeId
        · rw [file, hsame, AList.lookup_insert] at hold
          cases hold
          exact .inr ⟨rfl, first, List.mem_cons_self, hsame.symm⟩
        · rw [file, AList.lookup_insert_ne hsame] at hold
          exact .inl hold
      · exact .inr ⟨htext, entry, List.mem_cons_of_mem _ hmem, heq⟩

theorem lookup_indexBurnedDisc {index : DiscIndexState} {text : Bytes} {outcome : AppendOutcome}
    {location : DiscImageLocation}
    (h : (index.indexBurnedDisc discId text entries outcome).2.discImageIndex.lookup volumeId =
      some location) :
    index.discImageIndex.lookup volumeId = some location ∨
      location.diskId = text ∧ ∃ entry ∈ entries, entry.volumeId = volumeId := by
  rw [DiscIndexState.indexBurnedDisc] at h
  dsimp only at h
  repeat' split at h
  · exact .inl h
  · exact lookup_file h
  · exact .inl h
  · exact lookup_file h

/-- A location of the index comes from the index or from the metadata of a disc. -/
def NodeState.Located (state : NodeState) (volumeId : UInt64) (location : DiscImageLocation) : Prop :=
  state.index.discImageIndex.lookup volumeId = some location ∨
    ∃ discId entries, state.discMeta.lookup discId = some entries ∧
      location.diskId = diskId discId ∧ ∃ entry ∈ entries, entry.volumeId = volumeId

theorem NodeState.Located.image {location : DiscImageLocation} (h : state.Located volumeId location) :
    state.HoldsImage volumeId := by
  rcases h with hold | ⟨discId, entries, hmeta, -, entry, hmem, heq⟩
  · refine ImageAt.index ?_
    rw [← AList.lookup_isSome, hold]
    rfl
  · exact ImageAt.discMeta hmeta hmem heq

theorem NodeState.Located.disc {location : DiscImageLocation} (h : state.Located volumeId location)
    (hparse : parseUint64Decimal location.diskId = some discId) : state.HoldsDisc discId := by
  rcases h with hold | ⟨other, entries, hmeta, htext, -⟩
  · exact DiscAt.index hold hparse
  · rw [htext, parseUint64Decimal_diskId] at hparse
    cases hparse
    refine DiscAt.discMeta ?_
    rw [← AList.lookup_isSome, hmeta]
    rfl

/-- Burning a disc, in part or as a whole, and reading one bring no new id. -/
theorem within_burned {vdisc : AList fun _ : Bytes => Bytes} {index : DiscIndexState}
    {discMeta : AList fun _ : UInt64 => List DiscImageEntry} {burnTasks : List UInt64}
    (himage : ∀ id ∈ space.imageDir, state.HoldsImage id)
    (hvdisc : ∀ text ∈ vdisc, text ∈ state.vdisc ∨ ∃ discId ∈ state.discMeta, text = diskId discId)
    (hindex : ∀ id location, index.discImageIndex.lookup id = some location →
      state.Located id location)
    (hmeta : ∀ discId entries, discMeta.lookup discId = some entries →
      state.discMeta.lookup discId = some entries)
    (htasks : ∀ discId ∈ burnTasks, state.HoldsDisc discId) :
    Within state
      { state with
        space := space, vdisc := vdisc, index := index, discMeta := discMeta
        burnTasks := burnTasks } where
  nextVolumeId := rfl
  nextDiskId := rfl
  availableVolumeIds := rfl
  availableDiskIds := rfl
  snapshot := rfl
  images := by
    intro id hid
    cases hid with
    | temp hmem => exact ImageAt.temp hmem
    | image hmem => exact himage id hmem
    | pending hmem heq => exact ImageAt.pending hmem heq
    | pendingMeta hsome hmem heq => exact ImageAt.pendingMeta hsome hmem heq
    | discMeta hsome hmem heq => exact ImageAt.discMeta (hmeta _ _ hsome) hmem heq
    | index hmem =>
        obtain ⟨location, hlookup⟩ := Option.isSome_iff_exists.mp (AList.lookup_isSome.mpr hmem)
        exact (hindex id location hlookup).image
  discs := by
    intro id hid
    cases hid with
    | discMeta hmem =>
        obtain ⟨entries, hlookup⟩ := Option.isSome_iff_exists.mp (AList.lookup_isSome.mpr hmem)
        refine DiscAt.discMeta ?_
        rw [← AList.lookup_isSome, hmeta id entries hlookup]
        rfl
    | vdisc hmem =>
        rcases hvdisc _ hmem with hold | ⟨discId, hdisc, heq⟩
        · exact DiscAt.vdisc hold
        · rw [diskId_injective heq]
          exact DiscAt.discMeta hdisc
    | index hlookup hparse => exact (hindex _ _ hlookup).disc hparse
    | task hmem => exact htasks id hmem

/-- Only the staging area is other, and it holds no image that is not held. -/
theorem within_space (himage : ∀ id ∈ space.imageDir, state.HoldsImage id) :
    Within state { state with space := space } :=
  within_burned himage (fun _ hmem => .inl hmem) (fun _ _ hlookup => .inl hlookup)
    (fun _ _ hlookup => hlookup) fun _ hmem => DiscAt.task hmem

theorem within_indexAndUnlink (hmeta : state.discMeta.lookup discId = some entries)
    (append : AppendOutcome) (metaUnlinked : Bool) :
    Within state (state.indexAndUnlink discId entries append metaUnlinked).2 := by
  have hlocated : ∀ id location, (state.index.indexBurnedDisc discId (diskId discId) entries
      append).2.discImageIndex.lookup id = some location → state.Located id location :=
    fun id location hlookup => (lookup_indexBurnedDisc hlookup).imp_right fun hnew =>
      ⟨discId, entries, hmeta, hnew.1, hnew.2⟩
  have himage : ∀ id ∈ state.space.imageDir, state.HoldsImage id := fun _ hmem =>
    ImageAt.image hmem
  have hvdisc : ∀ text ∈ state.vdisc, text ∈ state.vdisc ∨
      ∃ discId ∈ state.discMeta, text = diskId discId := fun _ hmem => .inl hmem
  have htasks : ∀ id ∈ state.burnTasks, state.HoldsDisc id := fun _ hmem => DiscAt.task hmem
  have herased : ∀ id entries, (state.discMeta.erase discId).lookup id = some entries →
      state.discMeta.lookup id = some entries := by
    intro id entries hlookup
    by_cases hsame : id = discId
    · rw [hsame, AList.lookup_erase] at hlookup
      exact nomatch hlookup
    · rwa [AList.lookup_erase_ne hsame] at hlookup
  rw [NodeState.indexAndUnlink]
  split
  · rename_i index hindexed
    rw [hindexed] at hlocated
    exact within_burned himage hvdisc hlocated (fun _ _ hlookup => hlookup) htasks
  · rename_i index hindexed
    rw [hindexed] at hlocated
    split
    · exact within_burned himage hvdisc hlocated herased htasks
    · exact within_burned himage hvdisc hlocated (fun _ _ hlookup => hlookup) htasks

theorem mem_imageDir_copyImages {image : UInt64 → ImageFaults} {data : Bytes} {id : UInt64}
    (h : id ∈ (copyImages image entries space data).2.imageDir) : id ∈ space.imageDir := by
  induction entries generalizing space data with
  | nil => exact h
  | cons entry entries ih =>
      rw [copyImages] at h
      split at h
      · exact h
      · split at h
        · exact h
        · exact SpaceManager.mem_imageDir_removeWriteImage (ih h)

theorem mem_imageDir_writeVdisc {burn : BurnFaults} {id : UInt64}
    (h : id ∈ (writeVdiscAndReleaseImages config space discId entries burn).2.imageDir) :
    id ∈ space.imageDir := by
  rw [writeVdiscAndReleaseImages] at h
  split at h
  · exact h
  · have hcopied := @mem_imageDir_copyImages entries space burn.image
      (discHead config discId burn.createdAtMs entries) id
    generalize copyImages burn.image entries space
      (discHead config discId burn.createdAtMs entries) = copied at h hcopied
    obtain ⟨_ | data, after⟩ := copied
    · exact hcopied h
    · dsimp only at h
      split at h
      · exact hcopied h
      · exact hcopied h

theorem within_onCDBurnComplete (state : NodeState) (discId : UInt64) (burn : BurnFaults) :
    Within state (state.onCDBurnComplete config discId burn) := by
  rw [NodeState.onCDBurnComplete]
  split
  · exact Within.refl state
  · have himage : ∀ id ∈ state.space.imageDir, state.HoldsImage id := fun _ hmem =>
      ImageAt.image hmem
    have hlocated : ∀ id location, state.index.discImageIndex.lookup id = some location →
        state.Located id location := fun _ _ hlookup => .inl hlookup
    have hfewer : ∀ id ∈ state.burnTasks.erase discId, state.HoldsDisc id := fun _ hmem =>
      DiscAt.task (List.mem_of_mem_erase hmem)
    have hvdisc : ∀ text ∈ state.vdisc, text ∈ state.vdisc ∨
        ∃ discId ∈ state.discMeta, text = diskId discId := fun _ hmem => .inl hmem
    have hmetas : ∀ discId entries, state.discMeta.lookup discId = some entries →
        state.discMeta.lookup discId = some entries := fun _ _ hlookup => hlookup
    dsimp only
    split
    · rename_i entries hmeta _
      have hburned : ∀ id ∈ (writeVdiscAndReleaseImages config state.space discId entries
          burn).2.imageDir, state.HoldsImage id := fun _ hmem =>
        ImageAt.image (mem_imageDir_writeVdisc hmem)
      split
      · rename_i space hwritten
        rw [hwritten] at hburned
        exact within_burned hburned hvdisc hlocated hmetas hfewer
      · rename_i data space hwritten
        rw [hwritten] at hburned
        have hdisc : discId ∈ state.discMeta := by
          rw [← AList.lookup_isSome, hmeta]
          rfl
        have hrenamed : ∀ text ∈ state.vdisc.insert (diskId discId) data, text ∈ state.vdisc ∨
            ∃ discId ∈ state.discMeta, text = diskId discId := fun text hmem =>
          ((AList.mem_insert _).mp hmem).symm.imp_right fun heq => ⟨discId, hdisc, heq⟩
        have hwithin := within_burned hburned hrenamed hlocated hmetas hfewer
        exact hwithin.trans (within_indexAndUnlink (by exact hmeta) burn.append burn.metaUnlinked)
    · exact within_burned himage hvdisc hlocated hmetas hfewer

theorem within_onCDReadComplete (state : NodeState) (volumeId : UInt64) (verified : Bool)
    (move : MoveFaults) :
    Within state (state.onCDReadComplete config volumeId verified move) := by
  rw [NodeState.onCDReadComplete]
  repeat' split
  · exact Within.refl state
  · exact Within.refl state
  · exact Within.refl state
  · rename_i location hlookup _ _ _ _ _ _ _
    refine within_space fun id hmem => ?_
    rcases SpaceManager.mem_imageDir_moveFrom hmem with hold | rfl
    · exact ImageAt.image hold
    · exact NodeState.Located.image (.inl hlookup)
  · exact Within.refl state

/-! ## Restarts -/

/-- Aligned with what is seen, counter and pool keep what was taken and take what is
    seen. -/
structure Aligns (next : UInt64) (pool : List UInt64) (Sees : UInt64 → Prop) (next' : UInt64)
    (pool' : List UInt64) : Prop where
  issues : Issues next' pool'
  kept : ∀ id, Taken next pool id → Taken next' pool' id
  seen : ∀ id, Sees id → Taken next' pool' id

theorem Traced.aligns {saved : Option (UInt64 × List UInt64)} {Sees : UInt64 → Prop} {base : UInt64}
    {start : List UInt64} (h : Traced next pool saved Sees) (hissues : Issues base start)
    (hbefore : ∀ snapshot ∈ saved, snapshot.1.toNat ≤ base.toNat)
    (hpooled : ∀ id ∈ start, ∃ snapshot ∈ saved, id ∈ snapshot.2)
    (hused : ∀ id, id ∈ used ↔ Sees id) :
    Aligns next pool Sees (positive (raise base used)) (withoutUsed start used) where
  issues := hissues.align (le_raise base used)
  kept := by
    intro id htaken
    by_cases hzero : id = 0
    · rw [hzero]
      exact (hissues.align (le_raise base used)).taken_zero
    refine taken_align ?_ fun hmem => ?_
    · rcases h.before id hzero htaken with ⟨seen, hsees, hle⟩ | ⟨snapshot, hsnapshot, hlt⟩
      · exact Nat.lt_of_le_of_lt (UInt64.le_iff_toNat_le.mp hle)
          (lt_raise ((hused seen).mpr hsees) (h.room seen hsees))
      · exact Nat.lt_of_lt_of_le (UInt64.lt_iff_toNat_lt.mp hlt)
          ((hbefore snapshot hsnapshot).trans (le_raise base used))
    · obtain ⟨snapshot, hsnapshot, hold⟩ := hpooled id hmem
      exact (hused id).mpr (h.pooled id hzero htaken snapshot hsnapshot hold)
  seen := fun id hsees =>
    taken_align (lt_raise ((hused id).mpr hsees) (h.room id hsees)) fun _ => (hused id).mpr hsees

/-- What a state that the files are loaded into holds, and what it issues. -/
structure Loads (faults : RestartFaults) (state state' : NodeState) : Prop where
  temp : state'.temp = state.temp
  imageDir : state'.space.imageDir = state.space.imageDir
  pendingDiscMeta : state'.pendingDiscMeta = state.pendingDiscMeta
  pendingDiscEntries : state'.pendingDiscEntries =
    if faults.pendingRead then state.pendingDiscMeta.getD [] else []
  discMeta : state'.discMeta = state.discMeta
  vdisc : state'.vdisc = state.vdisc
  index : state'.index = state.index.rebuildDiscImageIndex faults.indexRead
  snapshot : state'.snapshot = state.snapshot ∨ state'.snapshot = none
  tasks : state'.burnTasks = [] ∨ ∃ saved ∈ state.snapshot, state'.burnTasks = saved.burnTasks
  volumes : Aligns state.nextVolumeId state.availableVolumeIds (state.SeesVolume faults)
    state'.nextVolumeId state'.availableVolumeIds
  disks : Aligns state.nextDiskId state.availableDiskIds (state.SeesDisc faults)
    state'.nextDiskId state'.availableDiskIds

theorem IdsKept.load (h : IdsKept volumes discs state) (hloads : Loads faults state state') :
    IdsKept volumes discs state' where
  volumeIds := hloads.volumes.issues
  diskIds := hloads.disks.issues
  savedVolumeIds := by
    rcases hloads.snapshot with hsame | hnone
    · exact hsame ▸ h.savedVolumeIds
    · rw [hnone]
      exact fun _ hmem => nomatch hmem
  savedDiskIds := by
    rcases hloads.snapshot with hsame | hnone
    · exact hsame ▸ h.savedDiskIds
    · rw [hnone]
      exact fun _ hmem => nomatch hmem
  savedTasks := by
    rcases hloads.snapshot with hsame | hnone
    · rw [hsame]
      exact fun saved hsaved id hid => hloads.disks.kept id (h.savedTasks saved hsaved id hid)
    · rw [hnone]
      exact fun _ hmem => nomatch hmem
  imagesTaken := by
    intro id hid
    rw [NodeState.HoldsImage, hloads.temp, hloads.imageDir, hloads.pendingDiscMeta,
      hloads.pendingDiscEntries, hloads.discMeta, hloads.index] at hid
    cases hid with
    | temp hmem => exact hloads.volumes.kept id (h.imagesTaken id (ImageAt.temp hmem))
    | image hmem => exact hloads.volumes.kept id (h.imagesTaken id (ImageAt.image hmem))
    | @pending entry hmem heq =>
        refine hloads.volumes.kept id (h.imagesTaken id ?_)
        cases hmeta : state.pendingDiscMeta with
        | none =>
            rw [hmeta, Option.getD_none, ite_self] at hmem
            exact nomatch hmem
        | some entries =>
            rw [hmeta] at hmem
            split at hmem
            · exact ImageAt.pendingMeta hmeta hmem heq
            · exact nomatch hmem
    | pendingMeta hsome hmem heq =>
        exact hloads.volumes.kept id (h.imagesTaken id (ImageAt.pendingMeta hsome hmem heq))
    | discMeta hsome hmem heq =>
        exact hloads.volumes.kept id (h.imagesTaken id (ImageAt.discMeta hsome hmem heq))
    | index hmem => exact hloads.volumes.seen id (.inr (.inr hmem))
  discsTaken := by
    intro id hid
    rw [NodeState.HoldsDisc, hloads.discMeta, hloads.vdisc, hloads.index] at hid
    cases hid with
    | discMeta hmem => exact hloads.disks.kept id (h.discsTaken id (DiscAt.discMeta hmem))
    | vdisc hmem => exact hloads.disks.kept id (h.discsTaken id (DiscAt.vdisc hmem))
    | index hlookup hparse => exact hloads.disks.seen id (.inr ⟨_, _, hlookup, hparse⟩)
    | task hmem =>
        rcases hloads.tasks with hnone | ⟨saved, hsaved, hsame⟩
        · rw [hnone] at hmem
          exact nomatch hmem
        · rw [hsame] at hmem
          exact hloads.disks.kept id (h.savedTasks saved hsaved id hmem)
  writtenOnce := h.writtenOnce
  written := fun id hid => hloads.volumes.kept id (h.written id hid)
  sealedOnce := h.sealedOnce
  isSealed := fun id hid => hloads.disks.kept id (h.isSealed id hid)

/-- The volume ids that the alignment counts are the ones that the restart sees. -/
theorem mem_usedVolumeIds {id : UInt64} (snapshot : List ImageEntry)
    (hentries : state'.space.entries = (state.space.rebuildManagementTable snapshot).entries)
    (hpending : state'.pendingDiscEntries =
      if faults.pendingRead then state.pendingDiscMeta.getD [] else [])
    (hindex : state'.index = state.index.rebuildDiscImageIndex faults.indexRead) :
    id ∈ state'.usedVolumeIds ↔ state.SeesVolume faults id := by
  rw [NodeState.usedVolumeIds, hentries, hpending, hindex, List.mem_append, List.mem_append,
    SpaceManager.mem_entries_rebuild, AList.mem_keys, NodeState.SeesVolume, or_assoc]
  refine or_congr_right (or_congr_left ?_)
  constructor
  · intro hmem
    obtain ⟨entry, hentry, heq⟩ := List.mem_map.mp hmem
    split at hentry
    · rename_i hread
      cases hmeta : state.pendingDiscMeta with
      | none =>
          rw [hmeta] at hentry
          exact nomatch hentry
      | some entries =>
          rw [hmeta] at hentry
          exact ⟨entries, rfl, hread, entry, hentry, heq⟩
    · exact nomatch hentry
  · intro ⟨entries, hmeta, hread, entry, hentry, heq⟩
    rw [hread, hmeta]
    exact List.mem_map.mpr ⟨entry, hentry, heq⟩

theorem mem_usedDiskIds {id : UInt64} (hmeta : state'.discMeta = state.discMeta)
    (hindex : state'.index = state.index.rebuildDiscImageIndex faults.indexRead) :
    id ∈ state'.usedDiskIds ↔ state.SeesDisc faults id := by
  rw [NodeState.usedDiskIds, hmeta, hindex, List.mem_append, NodeState.SeesDisc, AList.mem_keys]
  refine or_congr_right ?_
  rw [List.mem_filterMap]
  constructor
  · intro ⟨⟨volumeId, location⟩, hmem, hparse⟩
    exact ⟨volumeId, location, AList.mem_lookup_iff.mpr hmem, hparse⟩
  · intro ⟨volumeId, location, hlookup, hparse⟩
    exact ⟨⟨volumeId, location⟩, AList.mem_lookup_iff.mp hlookup, hparse⟩

/-- A first start issues from 1 on. -/
theorem issues_one : Issues 1 [] := ⟨by decide, List.nodup_nil, fun _ hmem => nomatch hmem⟩

theorem loads_initializeDir (hvolumes : Traced state.nextVolumeId state.availableVolumeIds none
      (state.SeesVolume faults))
    (hdisks : Traced state.nextDiskId state.availableDiskIds none (state.SeesDisc faults)) :
    Loads faults state (state.initializeDir faults).alignIds where
  temp := rfl
  imageDir := rfl
  pendingDiscMeta := rfl
  pendingDiscEntries := rfl
  discMeta := rfl
  vdisc := rfl
  index := rfl
  snapshot := .inl rfl
  tasks := .inl rfl
  volumes := hvolumes.aligns issues_one (fun _ hmem => nomatch hmem) (fun _ hmem => nomatch hmem)
    fun _ => mem_usedVolumeIds [] rfl rfl rfl
  disks := hdisks.aligns issues_one (fun _ hmem => nomatch hmem) (fun _ hmem => nomatch hmem)
    fun _ => mem_usedDiskIds rfl rfl

theorem IdsKept.loads_applySnapshot (h : IdsKept volumes discs state) {saved : Snapshot}
    (hsaved : state.snapshot = some saved)
    (hvolumes : Traced state.nextVolumeId state.availableVolumeIds
      (some (saved.nextVolumeId, saved.availableVolumeIds)) (state.SeesVolume faults))
    (hdisks : Traced state.nextDiskId state.availableDiskIds
      (some (saved.nextDiskId, saved.availableDiskIds)) (state.SeesDisc faults))
    {snapshot : Option Snapshot} (hsnapshot : snapshot = some saved ∨ snapshot = none) :
    Loads faults state
      { ((state.initializeDir faults).applySnapshot saved).alignIds with snapshot := snapshot } := by
  have hissues := h.savedVolumeIds saved hsaved
  have hdiskIssues := h.savedDiskIds saved hsaved
  have hnext : positive saved.nextVolumeId = saved.nextVolumeId := positive_of_ne hissues.nonzero
  have hnextDisk : positive saved.nextDiskId = saved.nextDiskId := positive_of_ne hdiskIssues.nonzero
  have htasks := le_raise saved.nextDiskId saved.burnTasks
  have husedVolumes : ∀ id, id ∈ ((state.initializeDir faults).applySnapshot saved).usedVolumeIds ↔
      state.SeesVolume faults id := fun _ => mem_usedVolumeIds saved.images rfl rfl rfl
  have husedDisks : ∀ id, id ∈ ((state.initializeDir faults).applySnapshot saved).usedDiskIds ↔
      state.SeesDisc faults id := fun _ => mem_usedDiskIds rfl rfl
  have hvolumeAligns := hvolumes.aligns hissues
    (fun snapshot hmem => by cases hmem; exact Nat.le_refl _)
    (fun id hmem => ⟨_, rfl, hmem⟩) husedVolumes
  have hdiskAligns := hdisks.aligns (hdiskIssues.mono htasks)
    (fun snapshot hmem => by cases hmem; exact htasks)
    (fun id hmem => ⟨_, rfl, hmem⟩) husedDisks
  refine ⟨rfl, rfl, rfl, rfl, rfl, rfl, rfl, ?_, .inr ⟨saved, hsaved, rfl⟩, ?_, ?_⟩
  · rw [hsaved]
    exact hsnapshot
  · dsimp only [NodeState.alignIds, NodeState.applySnapshot]
    rw [hnext]
    exact hvolumeAligns
  · dsimp only [NodeState.alignIds, NodeState.applySnapshot]
    rw [hnextDisk]
    exact hdiskAligns

theorem IdsKept.loads (h : IdsKept volumes discs state) (hrun : state.running = false)
    (htraced : Traceable config state (.restart faults)) :
    Loads faults state ((state.initializeDir faults).loadRuntimeState faults) := by
  have hvolumes := htraced.volumesTraced faults hrun rfl
  have hdisks := htraced.disksTraced faults hrun rfl
  rw [NodeState.loadedSnapshot] at hvolumes hdisks
  rw [NodeState.loadRuntimeState]
  cases hsaved : state.snapshot with
  | none =>
      rw [hsaved, ite_self] at hvolumes hdisks
      have hnone : (state.initializeDir faults).snapshot = none := hsaved
      rw [hnone]
      exact loads_initializeDir hvolumes hdisks
  | some saved =>
      rw [hsaved] at hvolumes hdisks
      have hsome : (state.initializeDir faults).snapshot = some saved := hsaved
      rw [hsome]
      cases hloaded : faults.loaded with
      | false =>
          rw [hloaded] at hvolumes hdisks
          exact loads_initializeDir hvolumes hdisks
      | true =>
          rw [hloaded] at hvolumes hdisks
          refine h.loads_applySnapshot hsaved hvolumes hdisks ?_
          split
          · exact .inr rfl
          · exact .inl rfl

/-! ## The reconciliation -/

theorem mem_imageDir_releaseImages {unlinked : UInt64 → Bool} {id : UInt64}
    (h : id ∈ (releaseImages unlinked space entries).imageDir) : id ∈ space.imageDir := by
  induction entries generalizing space with
  | nil => exact h
  | cons entry entries ih => exact SpaceManager.mem_imageDir_removeWriteImage (ih h)

theorem within_reconcileDisc (faults : RestartFaults) (live : List UInt64) (state : NodeState)
    (discId : UInt64) : Within state (state.reconcileDisc faults live discId) := by
  rw [NodeState.reconcileDisc]
  split
  · rename_i entries hmeta _
    have hindexed := within_indexAndUnlink hmeta (faults.append discId) (faults.metaUnlinked discId)
    split
    · split
      · rename_i after hafter
        rw [hafter] at hindexed
        exact hindexed
      · rename_i after hafter
        rw [hafter] at hindexed
        exact hindexed.trans (within_space fun _ hmem =>
          ImageAt.image (mem_imageDir_releaseImages hmem))
    · split
      · exact Within.refl state
      · split
        · exact Within.refl state
        · refine within_burned (fun _ hmem => ImageAt.image hmem) (fun _ hmem => .inl hmem)
            (fun _ _ hlookup => .inl hlookup) (fun _ _ hlookup => hlookup) fun id hmem => ?_
          rcases List.mem_append.mp hmem with hold | hlast
          · exact DiscAt.task hold
          · refine DiscAt.discMeta ?_
            rw [List.mem_singleton.mp hlast, ← AList.lookup_isSome, hmeta]
            rfl
  · exact Within.refl state

theorem within_reconcileAndReplay (state : NodeState) (faults : RestartFaults) :
    Within state (state.reconcileAndReplay faults) := by
  have hall : ∀ (live discIds : List UInt64) (state : NodeState),
      Within state (discIds.foldl (NodeState.reconcileDisc faults live) state) := by
    intro live discIds
    induction discIds with
    | nil => exact fun state => Within.refl state
    | cons discId discIds ih =>
        exact fun state => (within_reconcileDisc faults live state discId).trans (ih _)
  exact hall ..

/-! ## Whole runs -/

theorem IdsKept.shutdown (h : IdsKept volumes discs state) (persisted running : Bool) :
    IdsKept volumes discs
      { state with
        running := running
        snapshot := if persisted then some state.takeSnapshot else state.snapshot } := by
  cases persisted with
  | false => exact { h with }
  | true =>
      refine { h with savedVolumeIds := ?_, savedDiskIds := ?_, savedTasks := ?_ }
      · intro saved hsaved
        cases hsaved
        exact h.volumeIds
      · intro saved hsaved
        cases hsaved
        exact h.diskIds
      · intro saved hsaved id hid
        cases hsaved
        exact h.discsTaken id (DiscAt.task hid)

theorem IdsKept.of_none (h : IdsKept volumes discs state) :
    IdsKept (volumes ++ (none : Option UInt64).toList) (discs ++ []) state := by
  rwa [Option.toList_none, List.append_nil, List.append_nil]

theorem packedId_stopped (hrun : state.running = false) (call : NodeCall) :
    state.packedId config call = none := by
  cases call with
  | writeTask => rw [NodeState.packedId, hrun, if_neg fun hall => nomatch hall.1]
  | flushArchiveTail pack =>
      cases pack with
      | none => rfl
      | some pack => rw [NodeState.packedId, hrun, if_neg fun hall => nomatch hall.1]
  | _ => rfl

theorem sealedIds_stopped (hrun : state.running = false) (call : NodeCall) :
    state.sealedIds config call = [] := by
  cases call with
  | writeTask | flushArchiveTail =>
      rw [NodeState.sealedIds, NodeState.serve_stopped hrun (by nofun)]
      exact List.drop_length
  | _ => rfl

theorem IdsKept.serveStopped (h : IdsKept volumes discs state) (hrun : state.running = false)
    {call : NodeCall} (hok : Traceable config state call) :
    IdsKept volumes discs (state.serve config call) := by
  cases call with
  | restart faults =>
      rw [NodeState.serve_restart hrun]
      exact (h.load (h.loads hrun hok)).within (within_reconcileAndReplay _ _)
  | _ =>
      rw [NodeState.serve_stopped hrun (by nofun)]
      exact h

theorem IdsKept.work (h : IdsKept volumes discs state) (hrun : state.running = true)
    {call : NodeCall} (hok : Traceable config state call) :
    IdsKept (volumes ++ (state.packedId config call).toList)
      (discs ++ state.sealedIds config call) (state.work config call) := by
  have hvolumes := hok.volumeRoom hrun
  have hdisks := hok.diskRoom hrun
  have hwhole := hok.whole hrun
  cases call with
  | writeTask pack collected found move list =>
      have hpack : ∀ bytes, pack ≠ .broken bytes := fun bytes heq => by
        subst heq
        exact hwhole
      obtain ⟨ids, hadds⟩ := h.writeTask hvolumes hdisks hpack collected found move list
      have hpacked : state.packedId config (.writeTask pack collected found move list) =
          state.packId config pack := by
        rw [NodeState.packedId, NodeState.packId, hrun]
        simp
      rw [NodeState.sealedIds, NodeState.serve_running hrun, NodeState.work, hadds.tasks,
        List.drop_left, hpacked]
      exact hadds.kept
  | flushArchiveTail pack move list sealRenamed =>
      have hpack : ∀ bytes, pack ≠ some (.broken bytes) := fun bytes heq => by
        subst heq
        exact hwhole
      obtain ⟨ids, hadds⟩ := h.flushArchiveTail hvolumes hdisks hpack move list sealRenamed
      have hpacked : state.packedId config (.flushArchiveTail pack move list sealRenamed) =
          pack.bind (state.packId config) := by
        cases pack with
        | none => rfl
        | some pack =>
            rw [NodeState.packedId, Option.bind_some, NodeState.packId, hrun]
            simp
      rw [NodeState.sealedIds, NodeState.serve_running hrun, NodeState.work, hadds.tasks,
        List.drop_left, hpacked]
      exact hadds.kept
  | onCDBurnComplete discId burn =>
      exact (h.within (within_onCDBurnComplete state discId burn)).of_none
  | onCDReadComplete volumeId verified move =>
      exact (h.within (within_onCDReadComplete state volumeId verified move)).of_none
  | touch volumeId =>
      refine (h.within (within_space fun id hmem => ?_)).of_none
      rw [SpaceManager.imageDir_touch] at hmem
      exact ImageAt.image hmem
  | removeSingleReadImage unlinked =>
      exact (h.within (within_space fun id hmem =>
        ImageAt.image (SpaceManager.mem_imageDir_removeSingleReadImage hmem))).of_none
  | shutdown persisted => exact (h.shutdown persisted false).of_none
  | crash => exact (h.shutdown false false).of_none
  | restart faults => exact h.of_none

theorem IdsKept.serve (h : IdsKept volumes discs state) {call : NodeCall}
    (hok : Traceable config state call) :
    IdsKept (volumes ++ (state.packedId config call).toList)
      (discs ++ state.sealedIds config call) (state.serve config call) := by
  cases hrun : state.running with
  | false =>
      rw [packedId_stopped hrun, sealedIds_stopped hrun]
      exact (h.serveStopped hrun hok).of_none
  | true =>
      rw [NodeState.serve_running hrun]
      exact h.work hrun hok

theorem idsKept_init : IdsKept [] [] {} where
  volumeIds := issues_one
  diskIds := issues_one
  savedVolumeIds := fun _ hmem => nomatch hmem
  savedDiskIds := fun _ hmem => nomatch hmem
  savedTasks := fun _ hmem => nomatch hmem
  imagesTaken := by
    intro id hid
    cases hid with
    | pendingMeta hsome _ _ => exact nomatch hsome
    | discMeta hsome _ _ => exact nomatch hsome
    | _ hmem => exact nomatch hmem
  discsTaken := by
    intro id hid
    cases hid with
    | index hlookup _ => exact nomatch hlookup
    | _ hmem => exact nomatch hmem
  writtenOnce := List.nodup_nil
  written := fun _ hmem => nomatch hmem
  sealedOnce := List.nodup_nil
  isSealed := fun _ hmem => nomatch hmem

theorem idsKept_run {hist : List (Served NodeState NodeCall)}
    (h : Serves (Serving config) (Traceable config) {} hist state) :
    IdsKept (volumesWritten config hist) (discsSealed config hist) state := by
  induction h with
  | nil => exact idsKept_init
  | snoc _ hok hstep ih =>
      rw [hstep, volumesWritten, discsSealed, List.flatMap_append, List.flatMap_append,
        List.flatMap_singleton, List.flatMap_singleton]
      exact ih.serve hok

/-- No id is issued twice in a run whose restarts find traces of all the ids. -/
theorem ids_never_reused (config : NodeConfig) : IdsNeverReused config (Traceable config) :=
  fun _ _ h =>
    have hkept := idsKept_run h
    ⟨hkept.writtenOnce, hkept.sealedOnce, hkept.poolsFree⟩

/-! ## Two runs -/

theorem traced_first {Sees : UInt64 → Prop} (hnone : ∀ id, ¬Sees id) : Traced 1 [] none Sees where
  before := by
    intro id hzero htaken
    have hlt := UInt64.lt_iff_toNat_lt.mp htaken.1
    rw [UInt64.toNat_one, Nat.lt_one_iff] at hlt
    exact absurd (UInt64.toNat_inj.mp hlt) hzero
  pooled := fun _ _ _ _ hmem => nomatch hmem
  room := fun seen hsees => absurd hsees (hnone seen)

/-- After a crash without a snapshot the last id that was issued is enough. -/
theorem traced_last {Sees : UInt64 → Prop} {last : UInt64} (hsees : Sees last)
    (hlast : ∀ id, Sees id → id ≤ last) (hroom : last.toNat + 1 < 2 ^ 64) :
    Traced (last + 1) pool none Sees where
  before := by
    intro id _ htaken
    have hlt := UInt64.lt_iff_toNat_lt.mp htaken.1
    rw [toNat_succ hroom] at hlt
    exact .inl ⟨last, hsees, UInt64.le_iff_toNat_le.mpr (Nat.le_of_lt_succ hlt)⟩
  pooled := fun _ _ _ _ hmem => nomatch hmem
  room := fun seen hseen =>
    Nat.lt_of_le_of_lt (Nat.succ_le_succ (UInt64.le_iff_toNat_le.mp (hlast seen hseen))) hroom

def smallConfig : NodeConfig where
  capacityInImages := 4
  availableIdCount := 1
  discCapacityBytes := 1000000
  standardImagesPerDisc := 1
  discBlockSizeBytes := 4096
  imageDir := []

/-- An image is staged and its disc sealed before a crash. -/
def sealedAndCrashed : List NodeCall :=
  [.writeTask (.whole [1]) true 1 {} {}, .flushArchiveTail none {} {} true, .crash]

def sealedRun : List (Served NodeState NodeCall) × NodeState :=
  runOf (NodeState.serve smallConfig) (NodeState.serve smallConfig {} (.restart {})) sealedAndCrashed

theorem traceable_first : Traceable smallConfig {} (.restart {}) where
  whole := nofun
  volumeRoom := nofun
  diskRoom := nofun
  volumesTraced := by
    intro faults _ hcall
    cases hcall
    exact traced_first fun id hsees => by
      rcases hsees with hmem | ⟨_, hmem, _⟩ | hmem
      · exact nomatch hmem
      · exact nomatch hmem
      · exact nomatch hmem
  disksTraced := by
    intro faults _ hcall
    cases hcall
    exact traced_first fun id hsees => by
      rcases hsees with hmem | ⟨_, _, hmem, _⟩
      · exact nomatch hmem
      · exact nomatch hmem

theorem traceable_crashed : Traceable smallConfig sealedRun.2 (.restart {}) where
  whole := fun hrun => absurd hrun (by decide +kernel)
  volumeRoom := fun hrun => absurd hrun (by decide +kernel)
  diskRoom := fun hrun => absurd hrun (by decide +kernel)
  volumesTraced := by
    intro faults _ hcall
    cases hcall
    have hnext : sealedRun.2.nextVolumeId = 1 + 1 := by decide +kernel
    have hsaved : sealedRun.2.snapshot = none := by decide +kernel
    have hfiles : sealedRun.2.space.imageDir.keys = [1] := by decide +kernel
    have hlist : sealedRun.2.pendingDiscMeta = none := by decide +kernel
    have hindex : (sealedRun.2.index.rebuildDiscImageIndex true).discImageIndex.keys = [] := by
      decide +kernel
    rw [NodeState.loadedSnapshot, hsaved, hnext]
    refine traced_last (.inl (AList.mem_keys.mpr (by rw [hfiles]; decide))) ?_ (by decide)
    rintro id (hmem | ⟨_, hmem, _⟩ | hmem)
    · rw [AList.mem_keys, hfiles, List.mem_singleton] at hmem
      exact UInt64.le_of_eq hmem
    · rw [hlist] at hmem
      exact nomatch hmem
    · rw [AList.mem_keys, hindex] at hmem
      exact nomatch hmem
  disksTraced := by
    intro faults _ hcall
    cases hcall
    have hnext : sealedRun.2.nextDiskId = 1 + 1 := by decide +kernel
    have hsaved : sealedRun.2.snapshot = none := by decide +kernel
    have hdiscs : sealedRun.2.discMeta.keys = [1] := by decide +kernel
    have hindex : (sealedRun.2.index.rebuildDiscImageIndex true).discImageIndex.entries = [] := by
      decide +kernel
    rw [NodeState.loadedSnapshot, hsaved, hnext]
    refine traced_last (.inl (AList.mem_keys.mpr (by rw [hdiscs]; decide))) ?_ (by decide)
    rintro id (hmem | ⟨_, _, hmem, _⟩)
    · rw [AList.mem_keys, hdiscs, List.mem_singleton] at hmem
      exact UInt64.le_of_eq hmem
    · rw [← Option.mem_def, AList.mem_lookup_iff, hindex] at hmem
      exact nomatch hmem

/-- The image of the next start has the id 2. -/
theorem ids_never_reused_sealed :
    (sealedRun.2.serve smallConfig (.restart {})).PoolsFree ∧
      ((sealedRun.2.serve smallConfig (.restart {})).nextVolumeId = 2) := by
  have hcalls : ∀ served ∈ sealedRun.1, Traceable smallConfig served.before served.call := by
    have hroom : ∀ served ∈ sealedRun.1, served.before.running = true ∧ served.call.Whole ∧
        served.before.nextVolumeId.toNat + smallConfig.availableIdCount < 2 ^ 64 ∧
          served.before.nextDiskId.toNat + 2 * (smallConfig.availableIdCount + 1) < 2 ^ 64 := by
      decide +kernel
    intro served hmem
    obtain ⟨hrun, hwhole, hvolume, hdisk⟩ := hroom served hmem
    exact ⟨fun _ => hwhole, fun _ => hvolume, fun _ => hdisk,
      fun _ hstop => absurd hrun (by rw [hstop]; decide),
      fun _ hstop => absurd hrun (by rw [hstop]; decide)⟩
  have hfirst : Serves (Serving smallConfig) (Traceable smallConfig) {} [⟨{}, .restart {}, _⟩] _ :=
    .snoc .nil traceable_first (serving_serve _ _ _)
  have hrun := hfirst.append (serves_runOf (serving_serve smallConfig) sealedAndCrashed _ hcalls)
  have hlast := hrun.snoc traceable_crashed (serving_serve _ _ _)
  exact ⟨(ids_never_reused smallConfig _ _ hlast).2.2, by decide +kernel⟩

/-- An image is packed and stays in `temp/`, where the restart after a crash does not look,
    so that the next image is packed under the same id. -/
def leftInTemp : List NodeCall :=
  [.restart {}, .writeTask (.whole [1]) true 1 { renamed := false } {}, .crash, .restart {},
    .writeTask (.whole [2]) true 1 {} {}]

theorem volume_id_reused : ¬IdsNeverReused smallConfig Any := by
  intro h
  have hrun := @serves_runOf _ _ _ Any _ (serving_serve smallConfig) leftInTemp {} fun _ _ => trivial
  have hwritten : volumesWritten smallConfig
      (runOf (NodeState.serve smallConfig) {} leftInTemp).1 = [1, 1] := by decide +kernel
  have hnodup := (h _ _ hrun).1
  rw [hwritten] at hnodup
  exact absurd hnodup (by decide)

end Zb.OpticalNode
