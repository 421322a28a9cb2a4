-- SUMMARY: A file on a disk node read as a byte array: which runs behave as the array, and how a gap shows.
import ZBStorage.Client.FuseFile
import ZBStorage.DataNode.WriteTransactions

/-!
# A file as a byte array

The objects hold the array when they hold every byte below the length that the
metadata gives. A write keeps this as long as the bytes between the old end and the
written range are there as zeros, or come to be zeros because they lie in an object
that ends before them. A truncation writes no object, so what it adds has to be
there as zeros already.
-/

namespace Zb.Client

open Bytes BlockBytes Zb.DataNode CallHistory

variable {file : StoredFile} {system : FuseSystem} {node node' : RealNode} {env : ClientEnv}
  {array data : Bytes} {offset stop unit i n : Nat} {is : List Nat}

/-! ## Paths -/

theorem length_buildPrefix (objectId : Bytes) :
    (LocalPathResolver.buildPrefix objectId).length = 4 := by
  simp only [LocalPathResolver.buildPrefix, List.length_append, List.length_map,
    List.length_take, List.length_replicate]
  omega

theorem resolve_ne {root objectId : Bytes} (hroot : root ≠ []) (hid : objectId ≠ []) :
    LocalPathResolver.resolve root objectId ≠ [] := by
  rw [LocalPathResolver.resolve, if_neg (not_or.mpr ⟨hroot, hid⟩)]
  exact List.append_ne_nil_of_right_ne_nil _ hid

/-- Every object has its own path. -/
theorem resolve_injective {root objectId objectId' : Bytes} (hroot : root ≠ [])
    (hid : objectId ≠ []) (hid' : objectId' ≠ [])
    (h : LocalPathResolver.resolve root objectId = LocalPathResolver.resolve root objectId') :
    objectId = objectId' := by
  rw [LocalPathResolver.resolve, LocalPathResolver.resolve, if_neg (not_or.mpr ⟨hroot, hid⟩),
    if_neg (not_or.mpr ⟨hroot, hid'⟩)] at h
  refine (List.append_inj h ?_).2
  simp only [List.length_append, List.length_take, slice, List.length_drop, length_buildPrefix]

theorem objectId_ne (inodeId : UInt64) (objectIndex : UInt32) :
    buildStableObjectId inodeId objectIndex ≠ [] := by
  simp only [buildStableObjectId, List.append_assoc]
  exact List.append_ne_nil_of_left_ne_nil (by decide) _

def objectIdAt (file : StoredFile) (i : Nat) : Bytes :=
  buildStableObjectId file.inodeId (UInt32.ofNat i)

def objectPathAt (file : StoredFile) (node : RealNode) (i : Nat) : Bytes :=
  LocalPathResolver.resolve (node.mountPoint file.diskId) (objectIdAt file i)

/-- The objects of the file on its disk. -/
def objectStore (file : StoredFile) (node : RealNode) (i : Nat) : Option Bytes :=
  node.files.lookup (objectPathAt file node i)

theorem objectPathAt_ne (hmount : node.mountPoint file.diskId ≠ []) {j : Nat}
    (hi : i < 2 ^ 32) (hj : j < 2 ^ 32) (hne : i ≠ j) :
    objectPathAt file node i ≠ objectPathAt file node j := by
  intro h
  have hid := resolve_injective hmount (objectId_ne _ _) (objectId_ne _ _) h
  have hindex := congrArg UInt32.toNat (buildStableObjectId_injective hid)
  rw [UInt32.toNat_ofNat_of_lt' hi, UInt32.toNat_ofNat_of_lt' hj] at hindex
  exact hne hindex

theorem objectPath_eq (hmount : node.mountPoint file.diskId ≠ []) (i : Nat) :
    node.objectPath file.diskId (objectIdAt file i) = .ok (objectPathAt file node i) := by
  have hid : objectIdAt file i ≠ [] := objectId_ne _ _
  rw [RealNode.objectPath, if_neg (not_or.mpr ⟨file.diskId_ne, hid⟩), if_neg hmount,
    if_neg (resolve_ne hmount hid)]
  rfl

/-! ## Slices -/

/-- The slice of the range from `offset` to `stop` in the object `i`, with its position. -/
def partAt (file : StoredFile) (unit offset stop i : Nat) : FileObjectSlice × Nat :=
  ({ objectIndex := UInt32.ofNat i
     objectId := objectIdAt file i
     diskId := file.diskId
     objectOffset := segStart unit offset i - i * unit
     length := segEnd unit stop i - segStart unit offset i },
    segStart unit offset i - offset)

/-- The ends of the objects do not overflow. -/
theorem object_end (hunit : 0 < unit) (hbound : unit < 2 ^ 64) (hlt : offset < stop)
    (hstop : stop ≤ IOExecutor.maxOff) (hi : i ∈ touched unit offset stop) :
    (i * unit + unit) % 2 ^ 64 = i * unit + unit := by
  have hend := Nat.mul_le_mul_right unit ((mem_touched hlt).mp hi).2
  have hbelow := (block_bounds hunit (stop - 1)).1
  have hmax : IOExecutor.maxOff = 2 ^ 63 - 1 := rfl
  apply Nat.mod_eq_of_lt
  cases i with
  | zero => omega
  | succ k =>
      -- an object before this one is not longer than the offsets
      have hfirst : unit ≤ (k + 1) * unit := Nat.le_mul_of_pos_left unit (Nat.succ_pos k)
      omega

theorem slices_eq (hunit : 0 < unit) (hbound : unit < 2 ^ 64) (hlt : offset < stop)
    (hstop : stop ≤ IOExecutor.maxOff) :
    (touched unit offset stop).filterMap
        (fun i => objectSlice file.inodeId offset stop unit file.diskId
          ((i * unit + unit) % 2 ^ 64) i) =
      (touched unit offset stop).map fun i => (partAt file unit offset stop i).1 := by
  rw [← List.filterMap_eq_map]
  apply List.filterMap_congr
  intro i hi
  have hseg := seg_lt hunit hlt hi
  have hmod : min ((i * unit + unit) % 2 ^ 64) stop = segEnd unit stop i := by
    rw [object_end hunit hbound hlt hstop hi]
    rfl
  simp only [objectSlice, hmod]
  rw [if_neg (by simp only [segStart] at hseg; omega)]
  rfl

/-- The parts of the range fill it, one after the other. -/
theorem positions_eq (file : StoredFile) (n i : Nat) (hfirst : offset < i * unit + unit)
    (hlast : (i + n) * unit < stop) (hend : stop ≤ (i + n) * unit + unit)
    (hlt : offset < stop) :
    positions ((List.range' i (n + 1)).map fun j => (partAt file unit offset stop j).1)
        (segStart unit offset i - offset) (stop - offset) =
      some ((List.range' i (n + 1)).map (partAt file unit offset stop)) := by
  have hbounds : offset ≤ segStart unit offset i ∧
      segStart unit offset i ≤ segEnd unit stop i ∧ segEnd unit stop i ≤ stop := by
    have hle := Nat.mul_le_mul_right unit (Nat.le_add_right i n)
    simp only [segStart, segEnd]
    omega
  have hcursor : segStart unit offset i - offset +
      (segEnd unit stop i - segStart unit offset i) = segEnd unit stop i - offset := by
    omega
  induction n generalizing i with
  | zero =>
      have hstop : segEnd unit stop i = stop := by
        simp only [segEnd, Nat.add_zero] at hend ⊢
        omega
      simp only [List.range'_succ, List.map_cons, List.range'_zero, List.map_nil, positions,
        partAt, hstop]
      rw [if_neg (by omega), if_pos (by omega)]
      rfl
  | succ n ih =>
      have hnext : (i + 1) * unit = i * unit + unit := Nat.succ_mul i unit
      have hindex : i + 1 + n = i + (n + 1) := by omega
      have hle := Nat.mul_le_mul_right unit (Nat.le_add_right (i + 1) n)
      rw [hindex] at hle
      have hseg : segEnd unit stop i = segStart unit offset (i + 1) := by
        simp only [segStart, segEnd]
        omega
      have hbounds' : offset ≤ segStart unit offset (i + 1) ∧
          segStart unit offset (i + 1) ≤ segEnd unit stop (i + 1) ∧
            segEnd unit stop (i + 1) ≤ stop := by
        simp only [segStart, segEnd]
        omega
      have hrest := ih (i + 1) (by omega) (by rwa [hindex]) (by rwa [hindex]) hbounds' (by omega)
      rw [List.range'_succ, List.map_cons, List.map_cons, positions, partAt]
      dsimp only
      rw [hcursor, if_neg (by omega), hseg, hrest, Option.map_some]

/-! ## Objects -/

/-- A node with other files. -/
def withFiles (node : RealNode) (files : Files) : RealNode := { node with files := files }

theorem writeObject_eq (hopen : node.service.writeAdmissionClosed = false)
    (hmount : node.mountPoint file.diskId ≠ []) {part : Bytes} (hpart : part ≠ [])
    (hrange : IOExecutor.range offset part.length = true) (i : Nat) :
    node.writeObject file.diskId (objectIdAt file i) offset part =
      ({}, withFiles node (node.files.insert (objectPathAt file node i)
        (patch ((objectStore file node i).getD []) offset part))) := by
  have hpath : objectPathAt file node i ≠ [] := resolve_ne hmount (objectId_ne _ _)
  have hvalid : ¬ (objectPathAt file node i = [] ∨
      IOExecutor.range offset part.length = false) := by
    rw [hrange]
    exact not_or.mpr ⟨hpath, nofun⟩
  simp only [RealNode.writeObject, hopen, Bool.false_eq_true, if_false, objectPath_eq hmount,
    IOExecutor.write, if_neg hvalid, if_neg hpart]
  rfl

/-- What the write of a range leaves in one of its objects. -/
def patched (file : StoredFile) (node : RealNode) (unit offset : Nat) (data : Bytes) (i : Nat) :
    Bytes :=
  patch ((objectStore file node i).getD []) (segStart unit offset i - i * unit)
    (slice data (segStart unit offset i - offset)
      (segEnd unit (offset + data.length) i - segStart unit offset i))

/-- All the objects of a write are patched, each once. -/
theorem writeParts_eq (hopen : node.service.writeAdmissionClosed = false)
    (hmount : node.mountPoint file.diskId ≠ [])
    (hstop : offset + data.length ≤ IOExecutor.maxOff) (hnodup : is.Nodup)
    (hseg : ∀ i ∈ is, i < 2 ^ 32 ∧
      segStart unit offset i < segEnd unit (offset + data.length) i) :
    ∃ files, writeParts file.diskId data (is.map (partAt file unit offset (offset + data.length)))
        node = (none, withFiles node files) ∧
      ∀ j < 2 ^ 32, objectStore file (withFiles node files) j =
        if j ∈ is then some (patched file node unit offset data j)
        else objectStore file node j := by
  induction is generalizing node with
  | nil => exact ⟨node.files, rfl, fun j _ => rfl⟩
  | cons i is ih =>
      obtain ⟨hnotMem, hnodup⟩ := List.nodup_cons.mp hnodup
      obtain ⟨hi, hlt⟩ := hseg i List.mem_cons_self
      have hend : segEnd unit (offset + data.length) i ≤ offset + data.length :=
        min_le_right _ _
      have hstart : offset ≤ segStart unit offset i := le_max_right _ _
      have hlen : (slice data (segStart unit offset i - offset)
          (segEnd unit (offset + data.length) i - segStart unit offset i)).length =
          segEnd unit (offset + data.length) i - segStart unit offset i := by
        simp only [slice, List.length_take, List.length_drop]
        omega
      have hpart : slice data (segStart unit offset i - offset)
          (segEnd unit (offset + data.length) i - segStart unit offset i) ≠ [] := by
        apply List.ne_nil_of_length_pos
        omega
      have hrange : IOExecutor.range (segStart unit offset i - i * unit)
          (slice data (segStart unit offset i - offset)
            (segEnd unit (offset + data.length) i - segStart unit offset i)).length = true := by
        simp only [IOExecutor.range, hlen, Bool.and_eq_true, decide_eq_true_eq]
        omega
      have hwritten := writeObject_eq hopen hmount hpart hrange i
      obtain ⟨files, hparts, hstore⟩ := @ih (withFiles node (node.files.insert
        (objectPathAt file node i) (patched file node unit offset data i))) hopen hmount hnodup
        fun j hj => hseg j (List.mem_cons_of_mem _ hj)
      refine ⟨files, ?_, fun j hj => ?_⟩
      · have hpos : segEnd unit (offset + data.length) i - segStart unit offset i ≠ 0 := by
          omega
        rw [List.map_cons, writeParts.eq_def, partAt]
        dsimp only
        rw [if_neg hpos, hwritten]
        exact Prod.ext (congrArg Prod.fst hparts) (congrArg Prod.snd hparts)
      · have hother (k : Nat) (hk : k < 2 ^ 32) (hne : k ≠ i) :
            objectStore file (withFiles node (node.files.insert (objectPathAt file node i)
              (patched file node unit offset data i))) k = objectStore file node k :=
          AList.lookup_insert_ne (objectPathAt_ne hmount hk hi hne)
        refine (hstore j hj).trans ?_
        by_cases hji : j = i
        · subst hji
          rw [if_neg hnotMem, if_pos List.mem_cons_self]
          exact AList.lookup_insert _
        · by_cases hmem : j ∈ is
          · rw [if_pos hmem, if_pos (List.mem_cons_of_mem _ hmem)]
            exact congrArg (fun block => some (patch (block.getD []) _ _)) (hother j hj hji)
          · rw [if_neg hmem, if_neg (by simp [hji, hmem])]
            exact hother j hj hji

/-- The parts of a read are the range of the array. -/
theorem readParts_eq (hmount : node.mountPoint file.diskId ≠ []) (hunit : 0 < unit)
    (hholds : Holds unit (objectStore file node) array) (hstop : stop ≤ array.length)
    (hmax : array.length ≤ IOExecutor.maxOff)
    (hseg : ∀ i ∈ is, segStart unit offset i < segEnd unit stop i) :
    readParts node file.diskId (is.map (partAt file unit offset stop)) =
      .ok (is.flatMap fun j =>
        slice array (segStart unit offset j) (segEnd unit stop j - segStart unit offset j)) := by
  induction is with
  | nil => rfl
  | cons i is ih =>
      have hlt := hseg i List.mem_cons_self
      obtain ⟨block, hblock, hslice⟩ := hholds.segment hunit hlt hstop
      have hend : segEnd unit stop i ≤ stop := min_le_right _ _
      have hrange : IOExecutor.range (segStart unit offset i - i * unit)
          (segEnd unit stop i - segStart unit offset i) = true := by
        simp only [IOExecutor.range, Bool.and_eq_true, decide_eq_true_eq]
        omega
      have hpath : objectPathAt file node i ≠ [] := resolve_ne hmount (objectId_ne _ _)
      have hvalid : ¬ (objectPathAt file node i = [] ∨
          IOExecutor.range (segStart unit offset i - i * unit)
            (segEnd unit stop i - segStart unit offset i) = false) := by
        rw [hrange]
        exact not_or.mpr ⟨hpath, nofun⟩
      have hlookup : node.files.lookup (objectPathAt file node i) = some block := hblock
      have hread : node.readObject file.diskId (objectIdAt file i)
          (segStart unit offset i - i * unit) (segEnd unit stop i - segStart unit offset i) =
          .ok (slice array (segStart unit offset i)
            (segEnd unit stop i - segStart unit offset i)) := by
        simp only [RealNode.readObject, objectPath_eq hmount, IOExecutor.read, if_neg hvalid,
          hlookup, hslice]
      have hlen : (slice array (segStart unit offset i)
          (segEnd unit stop i - segStart unit offset i)).length =
          segEnd unit stop i - segStart unit offset i := by
        simp only [slice, List.length_take, List.length_drop]
        omega
      have hpos : segEnd unit stop i - segStart unit offset i ≠ 0 := by omega
      have hrest := ih fun j hj => hseg j (List.mem_cons_of_mem _ hj)
      rw [List.map_cons, readParts.eq_def, partAt]
      dsimp only
      rw [if_neg hpos, hread]
      dsimp only
      rw [hlen, if_neg (not_not.mpr rfl), hrest]
      rfl

/-- The slices of the node are the parts of the range in the objects that it touches. -/
theorem slices_positions (file : StoredFile) (hunit : 0 < unit) (hbound : unit < 2 ^ 64)
    (hlt : offset < stop) (hstop : stop ≤ IOExecutor.maxOff) :
    positions (StorageServiceImpl.buildObjectSlices file.inodeId offset (stop - offset) unit
        file.diskId) 0 (stop - offset) =
      some ((touched unit offset stop).map (partAt file unit offset stop)) := by
  have hstart := block_bounds hunit offset
  have hend := block_bounds hunit (stop - 1)
  have hle : offset / unit ≤ (stop - 1) / unit := Nat.div_le_div_right (by omega)
  have hlast : offset / unit + ((stop - 1) / unit - offset / unit) = (stop - 1) / unit := by
    omega
  have hzero : segStart unit offset (offset / unit) = offset := max_eq_right hstart.1
  have hparts := positions_eq file ((stop - 1) / unit - offset / unit) (offset / unit)
    hstart.2 (by rw [hlast]; omega) (by rw [hlast]; omega) hlt
  have hvalid : ¬ (file.inodeId = 0 ∨ stop - offset = 0 ∨ unit = 0) :=
    not_or.mpr ⟨file.inodeId_ne, not_or.mpr ⟨by omega, by omega⟩⟩
  have hsum : offset + (stop - offset) = stop := by omega
  rw [hzero, Nat.sub_self] at hparts
  rw [StorageServiceImpl.buildObjectSlices, if_neg hvalid, objectSlices, hsum]
  exact (congrArg (fun slices => positions slices 0 (stop - offset))
    (slices_eq hunit hbound hlt hstop)).trans hparts

/-- A read of a range of the array. -/
theorem readParts_range (hmount : node.mountPoint file.diskId ≠ []) (hunit : 0 < unit)
    (hholds : Holds unit (objectStore file node) array) (hlt : offset < stop)
    (hstop : stop ≤ array.length) (hmax : array.length ≤ IOExecutor.maxOff) :
    readParts node file.diskId ((touched unit offset stop).map (partAt file unit offset stop)) =
      .ok (slice array offset (stop - offset)) := by
  have hstart := block_bounds hunit offset
  have hend := block_bounds hunit (stop - 1)
  have hle : offset / unit ≤ (stop - 1) / unit := Nat.div_le_div_right (by omega)
  have hlast : offset / unit + ((stop - 1) / unit - offset / unit) = (stop - 1) / unit := by
    omega
  have hzero : segStart unit offset (offset / unit) = offset := max_eq_right hstart.1
  have hcover : stop ≤ (offset / unit + ((stop - 1) / unit - offset / unit + 1)) * unit := by
    rw [← Nat.add_assoc, hlast, Nat.succ_mul]
    omega
  have hflat := flatMap_segments array hunit ((stop - 1) / unit - offset / unit + 1)
    (offset / unit) hstart.2 hcover (by rw [hzero]; omega)
  rw [readParts_eq hmount hunit hholds hstop hmax fun i hi => seg_lt hunit hlt hi]
  rw [hzero] at hflat
  exact congrArg Except.ok hflat

/-- The objects after a write hold the array after it. -/
theorem writeParts_holds (hopen : node.service.writeAdmissionClosed = false)
    (hmount : node.mountPoint file.diskId ≠ []) (hunit : 0 < unit) (hdata : data ≠ [])
    (hstop : offset + data.length ≤ IOExecutor.maxOff)
    (hindex : offset + data.length ≤ unit * 2 ^ 32) (hlength : array.length ≤ unit * 2 ^ 32)
    (hholds : Holds unit (objectStore file node) array)
    (hgap : ∀ p, array.length ≤ p → p < offset →
      byteAt unit (objectStore file node) p = some 0 ∨
        byteAt unit (objectStore file node) p = none ∧ p / unit = offset / unit) :
    ∃ files, writeParts file.diskId data ((touched unit offset (offset + data.length)).map
        (partAt file unit offset (offset + data.length))) node = (none, withFiles node files) ∧
      Holds unit (objectStore file (withFiles node files)) (patch array offset data) := by
  have hlt : offset < offset + data.length :=
    Nat.lt_add_of_pos_right (List.length_pos_iff.mpr hdata)
  have hsmall (p : Nat) (hp : p < unit * 2 ^ 32) : p / unit < 2 ^ 32 :=
    Nat.div_lt_of_lt_mul hp
  obtain ⟨files, hparts, hstore⟩ := writeParts_eq hopen hmount hstop List.nodup_range'
    fun i hi => ⟨lt_of_le_of_lt ((mem_touched hlt).mp hi).2 (hsmall _ (by omega)),
      seg_lt hunit hlt hi⟩
  refine ⟨files, hparts, (hholds.write hunit hdata hgap).congr fun p hp => ?_⟩
  rw [length_patch] at hp
  rw [hstore _ (hsmall p (by omega)), writeRange]
  exact if_congr (mem_touched hlt) rfl rfl

/-! ## Commits -/

/-- A commit that is not a repetition, and expects the version of the file, succeeds. -/
theorem commit_ok {service : StorageServiceImpl} (request : CommitFileWriteRequest)
    (hopen : service.writeAdmissionClosed = false) (hinode : request.inodeId ≠ 0)
    (htxid : request.txid ≠ []) (hunit : request.objectUnitSize ≠ 0)
    (hcreate : request.allowCreate = true)
    (hfresh : service.table.repeated request.inodeId request.txid = none)
    (hversion : request.expectedVersion =
      ((service.table.fileMetaByInode.lookup request.inodeId).map FileMeta.version).getD 0)
    (nowMs : UInt64) :
    ∃ fileMeta signature, service.commitFileWrite request { nowMs := nowMs } =
        ({ fileMeta := fileMeta },
          { service with table :=
              service.table.put false request.inodeId request.txid signature fileMeta }) ∧
      fileMeta.fileSize = request.fileSize ∧
        fileMeta.objectUnitSize = request.objectUnitSize := by
  have happly : ∃ fileMeta, service.table.applyFileMeta false (commitRequest request nowMs)
      request.txid (commitSignature request) { nowMs := nowMs } =
        ({ fileMeta := fileMeta }, service.table.put false request.inodeId request.txid
          (commitSignature request) fileMeta) ∧
      fileMeta.fileSize = request.fileSize ∧
        fileMeta.objectUnitSize = request.objectUnitSize := by
    unfold FileMetaTable.applyFileMeta
    simp only [commitRequest, if_neg hinode, if_neg hunit, hfresh, hcreate]
    cases hentry : service.table.fileMetaByInode.lookup request.inodeId with
    | none =>
        rw [hentry] at hversion
        have hzero : ¬ request.expectedVersion > 0 := by
          have hexpected : request.expectedVersion = 0 := hversion
          rw [hexpected]
          decide
        simp only [Bool.true_eq_false, if_false, if_neg hzero]
        exact ⟨_, rfl, rfl, rfl⟩
    | some old =>
        rw [hentry] at hversion
        have hsame : ¬ (request.expectedVersion > 0 ∧ request.expectedVersion ≠ old.version) :=
          fun h => h.2 hversion
        simp only [if_neg hsame]
        exact ⟨_, rfl, rfl, rfl⟩
  obtain ⟨fileMeta, happlied, hsize, hunitSize⟩ := happly
  refine ⟨fileMeta, commitSignature request, ?_, hsize, hunitSize⟩
  simp only [StorageServiceImpl.commitFileWrite, hopen, Bool.false_eq_true, if_false,
    if_neg hinode, if_neg htxid, if_neg hunit, FileMetaTable.commitFileWrite, happlied,
    Bool.true_eq_false, and_false]

/-! ## The array -/

def entry (file : StoredFile) (system : FuseSystem) : Option FileMeta :=
  system.node.service.table.fileMetaByInode.lookup file.inodeId

def lastTxid (file : StoredFile) (system : FuseSystem) : Option Bytes :=
  system.node.service.table.lastCommitTxidByInode.lookup file.inodeId

/-- The system stores the array. The last commit was by the last transaction that was
    allocated, or under the last lock that was taken. -/
structure Stores (file : StoredFile) (system : FuseSystem) (array : Bytes) : Prop where
  admission : system.node.service.writeAdmissionClosed = false
  mount : system.node.mountPoint file.diskId ≠ []
  length : array.length ≤ IOExecutor.maxOff
  absent : entry file system = none →
    array = [] ∧ system.attr.size = 0 ∧ system.attr.objectUnitSize ≠ 0
  present : ∀ fileMeta, entry file system = some fileMeta →
    fileMeta.fileSize.toNat = array.length ∧ fileMeta.objectUnitSize ≠ 0 ∧
      array.length ≤ fileMeta.objectUnitSize.toNat * 2 ^ 32 ∧
        Holds fileMeta.objectUnitSize.toNat (objectStore file system.node) array
  allocated : ∀ stamp : Stamp, lastTxid file system = some (stamp.txid file.inodeId) →
    stamp.mark + 1 = system.node.service.nextTxid
  locked : ∀ sequence nowMs, lastTxid file system =
    some (metaTxid file (RealNode.lockToken system.node.lockSession sequence) nowMs) →
      sequence = system.node.lockSequence

/-- A file that has been created, and nothing else. -/
structure NewFile (file : StoredFile) (system : FuseSystem) : Prop where
  admission : system.node.service.writeAdmissionClosed = false
  mount : system.node.mountPoint file.diskId ≠ []
  entry_none : entry file system = none
  lastTxid_none : lastTxid file system = none
  size : system.attr.size = 0
  objectUnitSize : system.attr.objectUnitSize ≠ 0

theorem Stores.new (h : NewFile file system) : Stores file system [] where
  admission := h.admission
  mount := h.mount
  length := Nat.zero_le _
  absent := fun _ => ⟨rfl, h.size, h.objectUnitSize⟩
  present := fun _ hentry => nomatch h.entry_none.symm.trans hentry
  allocated := fun _ hlast => nomatch h.lastTxid_none.symm.trans hlast
  locked := fun _ _ hlast => nomatch h.lastTxid_none.symm.trans hlast

/-- The size of the objects of the file, or what it will be. -/
def objectUnit (file : StoredFile) (system : FuseSystem) (otherwise : UInt64) : UInt64 :=
  ((entry file system).map FileMeta.objectUnitSize).getD otherwise

theorem Stores.holds_unit (h : Stores file system array) {otherwise : UInt64} (hne : otherwise ≠ 0) :
    objectUnit file system otherwise ≠ 0 ∧
      array.length ≤ (objectUnit file system otherwise).toNat * 2 ^ 32 ∧
        Holds (objectUnit file system otherwise).toNat (objectStore file system.node) array := by
  unfold objectUnit
  cases hentry : entry file system with
  | none =>
      obtain ⟨rfl, -, -⟩ := h.absent hentry
      exact ⟨hne, Nat.zero_le _, nofun⟩
  | some fileMeta =>
      obtain ⟨-, hunit, hlength, hholds⟩ := h.present fileMeta hentry
      exact ⟨hunit, hlength, hholds⟩

/-! ## Transactions -/

theorem repeated_none {txid : Bytes} (h : lastTxid file system ≠ some txid) :
    system.node.service.table.repeated file.inodeId txid = none :=
  if_neg fun hlast => h hlast.2

theorem Stamp.txid_ne (stamp : Stamp) (inodeId : UInt64) : stamp.txid inodeId ≠ [] := by
  simp only [Stamp.txid, List.append_assoc]
  exact List.append_ne_nil_of_left_ne_nil (by decide) _

theorem metaTxid_ne_nil (file : StoredFile) (token : Bytes) (nowMs : UInt64) :
    metaTxid file token nowMs ≠ [] := by
  simp only [metaTxid, List.append_assoc]
  exact List.append_ne_nil_of_left_ne_nil (by decide) _

theorem bootstrapTxid_ne_nil (file : StoredFile) (token : Bytes) (nowMs : UInt64) :
    bootstrapTxid file token nowMs ≠ [] := by
  simp only [bootstrapTxid, List.append_assoc]
  exact List.append_ne_nil_of_left_ne_nil (by decide) _

theorem metaTxid_ne (file : StoredFile) (token : Bytes) (nowMs : UInt64) (stamp : Stamp) :
    metaTxid file token nowMs ≠ stamp.txid file.inodeId := by
  intro h
  have hmeta : ofAscii "meta-" = [109, 101, 116, 97, 45] := by decide
  have htx : ofAscii "tx-" = [116, 120, 45] := by decide
  simp only [metaTxid, Stamp.txid, List.append_assoc, hmeta, htx] at h
  exact absurd (List.cons.inj h).1 (by decide)

theorem metaTxid_ne_bootstrap (file : StoredFile) (token token' : Bytes) (nowMs nowMs' : UInt64) :
    metaTxid file token nowMs ≠ bootstrapTxid file token' nowMs' := by
  intro h
  have hmeta : ofAscii "meta-" = [109, 101, 116, 97, 45] := by decide
  have hbootstrap : ofAscii "bootstrap-" = 98 :: [111, 111, 116, 115, 116, 114, 97, 112, 45] := by
    decide
  simp only [metaTxid, bootstrapTxid, List.append_assoc, hmeta, hbootstrap] at h
  exact absurd (List.cons.inj h).1 (by decide)

theorem metaTxid_sequence {session : Bytes} {sequence sequence' nowMs nowMs' : UInt64}
    (h : metaTxid file (RealNode.lockToken session sequence) nowMs =
      metaTxid file (RealNode.lockToken session sequence') nowMs') : sequence = sequence' := by
  have hdash : isDigit 45 = false := by decide
  simp only [metaTxid, RealNode.lockToken, List.append_assoc] at h
  have htokens := List.append_cancel_left (List.append_cancel_left (List.append_cancel_left
    (List.append_cancel_left (List.append_cancel_left h))))
  exact UInt64.toNat_inj.mp (decimal_append_inj hdash htokens).1

theorem succ_ne_self (a : UInt64) : a + 1 ≠ a := by
  intro h
  have := congrArg UInt64.toNat h
  rw [UInt64.toNat_add] at this
  have := a.toNat_lt
  have : (1 : UInt64).toNat = 1 := rfl
  omega

/-- A commit of the client that is not a repetition, and expects the version of the file. -/
theorem commitFileWrite_ok {txid : Bytes} (fileSize : UInt64)
    {objectUnitSize expectedVersion : UInt64}
    (hopen : system.node.service.writeAdmissionClosed = false) (htxid : txid ≠ [])
    (hunit : objectUnitSize ≠ 0) (hfresh : lastTxid file system ≠ some txid ∨
      entry file system = none)
    (hversion : expectedVersion = ((entry file system).map FileMeta.version).getD 0)
    (env : ClientEnv) :
    ∃ fileMeta system', commitFileWrite file system env txid fileSize objectUnitSize
        expectedVersion = (.ok fileMeta, system') ∧
      fileMeta.fileSize = fileSize ∧ fileMeta.objectUnitSize = objectUnitSize ∧
        entry file system' = some fileMeta ∧ lastTxid file system' = some txid ∧
          system'.node = { system.node with service := system'.node.service } ∧
            system'.node.service.nextTxid = system.node.service.nextTxid ∧
              system'.node.service.writeAdmissionClosed = false := by
  have hrepeated : system.node.service.table.repeated file.inodeId txid = none := by
    rcases hfresh with hfresh | hnone
    · exact repeated_none hfresh
    · unfold FileMetaTable.repeated
      rw [show system.node.service.table.fileMetaByInode.lookup file.inodeId = none from hnone]
      exact ite_self none
  obtain ⟨fileMeta, signature, hcommit, hsize, hunitSize⟩ := commit_ok
    { inodeId := file.inodeId
      txid := txid
      fileSize := fileSize
      objectUnitSize := objectUnitSize
      expectedVersion := expectedVersion
      allowCreate := true
      mtimeSec := env.timeSec } hopen file.inodeId_ne htxid hunit rfl hrepeated hversion env.nowMs
  refine ⟨fileMeta, { system with node := { system.node with service :=
    { system.node.service with table :=
        system.node.service.table.put false file.inodeId txid signature fileMeta } } },
    ?_, hsize, hunitSize, ?_⟩
  · simp only [commitFileWrite, hcommit, if_true]
  · refine ⟨AList.lookup_insert _, ?_, rfl, rfl, hopen⟩
    simp only [lastTxid, FileMetaTable.put, if_neg htxid, AList.lookup_insert]

/-! ## Writes -/

/-- The size of the objects that a write gives to a file without metadata. -/
def ClientEnv.writeUnit (env : ClientEnv) : UInt64 :=
  if env.hintObjectUnitSize > 0 then env.hintObjectUnitSize else kDefaultObjectUnitSize

theorem pos_iff_ne {a : UInt64} : a > 0 ↔ a ≠ 0 := by
  rw [gt_iff_lt, UInt64.lt_iff_toNat_lt, ← UInt64.toNat_inj.ne]
  exact Nat.pos_iff_ne_zero

theorem ClientEnv.writeUnit_ne (env : ClientEnv) : env.writeUnit ≠ 0 := by
  unfold ClientEnv.writeUnit
  split
  · rename_i hpos
    exact pos_iff_ne.mp hpos
  · decide

/-- The bytes between the end of the array and a write are there as zeros, or lie in the
    first object of the write, which ends before them. -/
def GapFilled (file : StoredFile) (system : FuseSystem) (array : Bytes) (unit offset : Nat) :
    Prop :=
  ∀ p, array.length ≤ p → p < offset →
    byteAt unit (objectStore file system.node) p = some 0 ∨
      byteAt unit (objectStore file system.node) p = none ∧ p / unit = offset / unit

/-- The allocation of a write under a lock. -/
theorem allocate_ok (h : Stores file system array) (env : ClientEnv)
    (hrange : offset + data.length ≤ IOExecutor.maxOff) :
    ∃ plan, system.node.acquireFileWriteLock.2.service.allocateFileWrite
        { inodeId := file.inodeId
          offset := UInt64.ofNat offset
          size := UInt64.ofNat data.length
          diskId := file.diskId
          objectUnitSizeHint := env.hintObjectUnitSize } env.nowMs =
        (plan, { system.node.service with nextTxid := system.node.service.nextTxid + 1 }) ∧
      plan.status = {} ∧
      plan.fileMeta.objectUnitSize = objectUnit file system env.writeUnit ∧
      plan.fileMeta.fileSize.toNat = array.length ∧
      plan.fileMeta.version = ((entry file system).map FileMeta.version).getD 0 ∧
      (∃ stamp : Stamp, plan.txid = stamp.txid file.inodeId ∧
        stamp.mark = system.node.service.nextTxid) ∧
      plan.slices = StorageServiceImpl.buildObjectSlices file.inodeId offset data.length
        (objectUnit file system env.writeUnit).toNat file.diskId := by
  have hmax : IOExecutor.maxOff = 2 ^ 63 - 1 := rfl
  have hoffset : (UInt64.ofNat offset).toNat = offset := UInt64.toNat_ofNat_of_lt' (by
    change offset < 2 ^ 64
    omega)
  have hsize : (UInt64.ofNat data.length).toNat = data.length := UInt64.toNat_ofNat_of_lt' (by
    change data.length < 2 ^ 64
    omega)
  obtain ⟨hunit, -, -⟩ := h.holds_unit env.writeUnit_ne
  have hplan : ∃ plan : FileMeta, system.node.service.table.planMeta
        { inodeId := file.inodeId
          offset := UInt64.ofNat offset
          size := UInt64.ofNat data.length
          diskId := file.diskId
          objectUnitSizeHint := env.hintObjectUnitSize } env.nowMs = plan ∧
      plan.objectUnitSize = objectUnit file system env.writeUnit ∧
      plan.fileSize.toNat = array.length ∧
      plan.version = ((entry file system).map FileMeta.version).getD 0 := by
    refine ⟨_, rfl, ?_⟩
    unfold FileMetaTable.planMeta objectUnit
    have hlookup : system.node.service.table.fileMetaByInode.lookup file.inodeId =
        entry file system := rfl
    rw [hlookup]
    cases hentry : entry file system with
    | none =>
        obtain ⟨rfl, -, -⟩ := h.absent hentry
        exact ⟨rfl, rfl, rfl⟩
    | some fileMeta => exact ⟨rfl, (h.present fileMeta hentry).1, rfl⟩
  obtain ⟨plan, hplan, hplanUnit, hplanSize, hplanVersion⟩ := hplan
  have hvalid : ¬ 2 ^ 64 ≤ offset + data.length := by omega
  refine ⟨{ fileMeta := plan
            txid := Stamp.txid ⟨env.nowMs, UInt64.ofNat offset, system.node.service.nextTxid⟩
              file.inodeId
            slices := StorageServiceImpl.buildObjectSlices file.inodeId offset data.length
              (objectUnit file system env.writeUnit).toNat file.diskId },
    ?_, rfl, hplanUnit, hplanSize, hplanVersion, ⟨_, rfl, rfl⟩, rfl⟩
  have hopen : system.node.acquireFileWriteLock.2.service = system.node.service := rfl
  have hunitPos : objectUnit file system env.writeUnit > 0 := pos_iff_ne.mpr hunit
  simp only [hopen, StorageServiceImpl.allocateFileWrite, h.admission, Bool.false_eq_true,
    if_false, if_neg file.inodeId_ne, hoffset, hsize, if_neg hvalid, hplan, FileMeta.unit,
    hplanUnit, if_pos hunitPos]
  rfl

/-- The system after a lock was taken and a transaction allocated. -/
def afterAllocation (system : FuseSystem) : FuseSystem :=
  { system with node :=
      { system.node with
        service := { system.node.service with nextTxid := system.node.service.nextTxid + 1 }
        lockSequence := system.node.lockSequence + 1 } }

/-- A write whose gap is filled makes of the array what it should. -/
theorem Stores.write (h : Stores file system array) (env : ClientEnv) {start : Int}
    (hstart : 0 ≤ start) (hdata : data ≠ [])
    (hrange : start.toNat + data.length ≤ IOExecutor.maxOff) (hlen : data.length ≤ intMax)
    (hindex : start.toNat + data.length ≤
      (objectUnit file system env.writeUnit).toNat * 2 ^ 32)
    (hgap : GapFilled file system array (objectUnit file system env.writeUnit).toNat
      start.toNat) :
    ∃ system', fuseWrite file system env start data = (.ok data.length, system') ∧
      Stores file system' (patch array start.toNat data) := by
  have hmax : IOExecutor.maxOff = 2 ^ 63 - 1 := rfl
  have hpos := List.length_pos_iff.mpr hdata
  obtain ⟨hunit, hlength, hholds⟩ := h.holds_unit env.writeUnit_ne
  have hunitPos : 0 < (objectUnit file system env.writeUnit).toNat :=
    Nat.pos_of_ne_zero fun hzero => hunit (UInt64.toNat_inj.mp hzero)
  obtain ⟨plan, halloc, hstatus, hplanUnit, hplanSize, hplanVersion, ⟨stamp, htxid, hmark⟩,
    hslices⟩ := allocate_ok h env hrange
  have htxidNe : plan.txid ≠ [] := htxid ▸ Stamp.txid_ne stamp _
  have hlt : start.toNat < start.toNat + data.length := by omega
  have hdiff : start.toNat + data.length - start.toNat = data.length := by omega
  have hparts := slices_positions file hunitPos (UInt64.toNat_lt _) hlt hrange
  rw [hdiff] at hparts
  obtain ⟨files, hwritten, hheld⟩ := @writeParts_holds file (afterAllocation system).node _ _ _ _
    h.admission h.mount hunitPos hdata hrange hindex hlength hholds hgap
  -- the commit
  have hfresh : lastTxid file system ≠ some plan.txid := by
    intro hlast
    have hnext := h.allocated stamp (hlast.trans (congrArg some htxid))
    rw [hmark] at hnext
    exact succ_ne_self _ hnext
  obtain ⟨fileMeta, committed, hcommit, hsize, hcommitUnit, hentry, hlast, hnode, hnext,
    hcommitOpen⟩ := @commitFileWrite_ok file
      { afterAllocation system with node := withFiles (afterAllocation system).node files } _
      (UInt64.ofNat (max plan.fileMeta.fileSize.toNat (start.toNat + data.length))) _ _
      h.admission htxidNe hunit (.inl hfresh) hplanVersion env
  have hnewSize : fileMeta.fileSize.toNat = (patch array start.toNat data).length := by
    rw [hsize, hplanSize, length_patch]
    apply UInt64.toNat_ofNat_of_lt'
    change max array.length (start.toNat + data.length) < 2 ^ 64
    have := h.length
    omega
  refine ⟨updateInodeStat file committed fileMeta, ?_, ?_⟩
  · have hplanPos : objectUnit file system env.writeUnit > 0 := pos_iff_ne.mpr hunit
    have hvalid : ¬ (objectUnit file system env.writeUnit = 0 ∨ plan.txid = []) :=
      not_or.mpr ⟨hunit, htxidNe⟩
    have hnotBig : ¬ intMax < data.length := by omega
    have hnoOverflow : ¬ 2 ^ 64 ≤ start.toNat + data.length := by omega
    have hwrite : fuseWrite file system env start data =
        writeAllocated file (afterAllocation system) env start.toNat data plan := by
      simp only [fuseWrite, if_neg (not_lt.mpr hstart), if_neg hdata, if_neg hnoOverflow,
        halloc, hstatus, if_true]
      rfl
    rw [hwrite]
    simp only [writeAllocated, hplanUnit, if_pos hplanPos, if_neg hvalid, hslices, hparts,
      if_neg hnotBig, hwritten, hcommit]
  · have hcommitStore : objectStore file committed.node =
        objectStore file (withFiles (afterAllocation system).node files) := by
      rw [hnode]
      rfl
    constructor
    · exact hcommitOpen
    · change committed.node.mountPoint file.diskId ≠ []
      rw [hnode]
      exact h.mount
    · rw [length_patch]
      have := h.length
      omega
    · exact fun hnone => nomatch hentry.symm.trans hnone
    · intro other hother
      cases hentry.symm.trans hother
      rw [hcommitUnit]
      refine ⟨hnewSize, hunit, ?_, ?_⟩
      · rw [length_patch]
        exact max_le hlength hindex
      · change Holds _ (objectStore file committed.node) _
        rw [hcommitStore]
        exact hheld
    · intro other hother
      have hsame := Option.some.inj (hlast.symm.trans hother)
      rw [htxid] at hsame
      rw [← Stamp.txid_injective file.inodeId hsame, hmark]
      change _ = committed.node.service.nextTxid
      exact hnext.symm
    · intro sequence nowMs hother
      have hsame := Option.some.inj (hlast.symm.trans hother)
      rw [htxid] at hsame
      exact absurd hsame.symm (metaTxid_ne _ _ _ _)

/-! ## Truncations -/

/-- The bytes that a truncation adds are there as zeros. -/
def ZerosThere (file : StoredFile) (system : FuseSystem) (array : Bytes) (unit size : Nat) :
    Prop :=
  ∀ p, array.length ≤ p → p < size → byteAt unit (objectStore file system.node) p = some 0

/-- The system after a lock was taken. -/
def afterLock (system : FuseSystem) : FuseSystem :=
  { system with node := system.node.acquireFileWriteLock.2 }

/-- The metadata of the file, after it was made up if there was none. -/
theorem fetchNodeFileMeta_ok (h : Stores file system array) (env : ClientEnv)
    (hunit : objectUnit file system env.unit ≠ 0) (token : Bytes) :
    ∃ fileMeta fetched, fetchNodeFileMeta file (afterLock system) env token =
        (.ok fileMeta, fetched) ∧
      fileMeta.objectUnitSize = objectUnit file system env.unit ∧
        entry file fetched = some fileMeta ∧
          (lastTxid file fetched = lastTxid file system ∨
            lastTxid file fetched = some (bootstrapTxid file token env.nowMs)) ∧
            fetched.node = { (afterLock system).node with service := fetched.node.service } ∧
              fetched.node.service.nextTxid = system.node.service.nextTxid ∧
                fetched.node.service.writeAdmissionClosed = false := by
  have hlookup : (afterLock system).node.service.table.fileMetaByInode.lookup file.inodeId =
      entry file system := rfl
  have hvalid : ¬ 2 ^ 64 ≤ (0 : UInt64).toNat + (0 : UInt64).toNat := by decide
  unfold objectUnit at hunit ⊢
  cases hentry : entry file system with
  | some fileMeta =>
      refine ⟨fileMeta, afterLock system, ?_, rfl, hentry, .inl rfl, rfl, rfl, h.admission⟩
      simp only [fetchNodeFileMeta, StorageServiceImpl.resolveFileRead, if_neg file.inodeId_ne,
        if_neg hvalid, hlookup, hentry, true_or, if_true]
  | none =>
      rw [hentry] at hunit
      obtain ⟨fileMeta, fetched, hcommit, -, hcommitUnit, hcommitted, hlast, hnode, hnext,
        hopen⟩ := @commitFileWrite_ok file (afterLock system)
          (bootstrapTxid file token env.nowMs) env.hintFileSize env.unit 0 h.admission
          (bootstrapTxid_ne_nil file token env.nowMs) hunit (.inr hentry)
          (congrArg (fun e => (Option.map FileMeta.version e).getD 0) hentry).symm env
      refine ⟨fileMeta, fetched, ?_, hcommitUnit, hcommitted, .inr hlast, hnode, hnext, hopen⟩
      have hmissing : isMissingFileMeta
          { code := .notFound, message := "file meta not found" } = true := by decide
      simp only [fetchNodeFileMeta, StorageServiceImpl.resolveFileRead, if_neg file.inodeId_ne,
        if_neg hvalid, hlookup, hentry, hmissing, Bool.true_eq_false, if_false, hcommit]

/-- A truncation that adds only what is there as zeros. -/
theorem Stores.truncate (h : Stores file system array) (env : ClientEnv) {size : Int}
    (hsize : 0 ≤ size) (hrange : size.toNat ≤ IOExecutor.maxOff)
    (hunit : objectUnit file system env.unit ≠ 0)
    (hindex : size.toNat ≤ (objectUnit file system env.unit).toNat * 2 ^ 32)
    (hzeros : ZerosThere file system array (objectUnit file system env.unit).toNat
      size.toNat) :
    ∃ system', fuseTruncate file system env size = (.ok (), system') ∧
      Stores file system' (resize array size.toNat) := by
  have hmax : IOExecutor.maxOff = 2 ^ 63 - 1 := rfl
  have hholds : Holds (objectUnit file system env.unit).toNat (objectStore file system.node)
      array := by
    unfold objectUnit
    cases hentry : entry file system with
    | none =>
        obtain ⟨rfl, -, -⟩ := h.absent hentry
        exact nofun
    | some fileMeta => exact (h.present fileMeta hentry).2.2.2
  obtain ⟨fileMeta, fetched, hfetch, hfetchUnit, hfetchEntry, hfetchLast, hfetchNode, hfetchNext,
    hfetchOpen⟩ := fetchNodeFileMeta_ok h env hunit system.node.acquireFileWriteLock.1
  have hfresh : lastTxid file fetched ≠
      some (metaTxid file system.node.acquireFileWriteLock.1 env.nowMs) := by
    intro hlast
    rcases hfetchLast with hsame | hbootstrap
    · exact succ_ne_self _ (h.locked _ _ (hsame.symm.trans hlast))
    · exact metaTxid_ne_bootstrap _ _ _ _ _
        (Option.some.inj (hlast.symm.trans hbootstrap))
  have hversion : fileMeta.version = ((entry file fetched).map FileMeta.version).getD 0 := by
    rw [hfetchEntry]
    rfl
  obtain ⟨next, committed, hcommit, hcommitSize, hcommitUnit, hentry, hlast, hnode, hnext,
    hopen⟩ := commitFileWrite_ok (UInt64.ofNat size.toNat) hfetchOpen
      (metaTxid_ne_nil file _ env.nowMs) hunit (.inl hfresh) hversion env
  have hnewSize : (UInt64.ofNat size.toNat).toNat = size.toNat := by
    apply UInt64.toNat_ofNat_of_lt'
    change size.toNat < 2 ^ 64
    omega
  have hcommitNode : committed.node =
      { (afterLock system).node with service := committed.node.service } := by
    rw [hnode, hfetchNode]
  refine ⟨updateInodeStat file committed next, ?_, ?_⟩
  · have hpos : objectUnit file system env.unit > 0 := pos_iff_ne.mpr hunit
    have hfetched : fetchNodeFileMeta file { system with node := system.node.acquireFileWriteLock.2 }
        env system.node.acquireFileWriteLock.1 = (.ok fileMeta, fetched) := hfetch
    simp only [fuseTruncate, if_neg (not_lt.mpr hsize), hfetched, hfetchUnit, if_pos hpos,
      if_neg hunit, hcommit]
  · constructor
    · exact hopen
    · change committed.node.mountPoint file.diskId ≠ []
      rw [hcommitNode]
      exact h.mount
    · rw [length_resize]
      exact hrange
    · exact fun hnone => nomatch hentry.symm.trans hnone
    · intro other hother
      cases hentry.symm.trans hother
      rw [hcommitUnit, hcommitSize, hnewSize, length_resize]
      refine ⟨rfl, hunit, hindex, ?_⟩
      change Holds _ (objectStore file committed.node) _
      rw [hcommitNode]
      exact hholds.resize hzeros
    · intro stamp hother
      have hsame := Option.some.inj (hlast.symm.trans hother)
      exact absurd hsame (metaTxid_ne _ _ _ _)
    · intro sequence nowMs hother
      have hsame := Option.some.inj (hlast.symm.trans hother)
      have hsession : committed.node.lockSession = system.node.lockSession := by
        rw [hcommitNode]
        rfl
      change sequence = committed.node.lockSequence
      rw [hcommitNode]
      have hother' : metaTxid file (RealNode.lockToken system.node.lockSession
          (system.node.lockSequence + 1)) env.nowMs =
          metaTxid file (RealNode.lockToken system.node.lockSession sequence) nowMs := by
        rw [← hsession]
        exact (congrArg (fun session => metaTxid file (RealNode.lockToken session
          (system.node.lockSequence + 1)) env.nowMs) hsession).trans hsame
      exact (metaTxid_sequence hother').symm

/-! ## Reads -/

theorem slice_clip (array : Bytes) (offset size : Nat) :
    slice array offset (min size (array.length - offset)) = slice array offset size := by
  apply List.ext_getElem?
  intro k
  rw [getElem?_slice, getElem?_slice]
  by_cases hin : k < min size (array.length - offset)
  · rw [if_pos hin, if_pos (by omega)]
  · rw [if_neg hin]
    split
    · rw [List.getElem?_eq_none (by omega)]
    · rfl

/-- A read of no more than fits in an `int` returns the bytes of the array. -/
theorem Stores.read (h : Stores file system array) {start : Int} {size : Nat}
    (hstart : 0 ≤ start) (hrange : start.toNat + size ≤ IOExecutor.maxOff)
    (hfits : min size (array.length - start.toNat) ≤ intMax) :
    fuseRead file system start size = .ok (slice array start.toNat size) := by
  have hmax : IOExecutor.maxOff = 2 ^ 63 - 1 := rfl
  have hoffset : (UInt64.ofNat start.toNat).toNat = start.toNat := by
    apply UInt64.toNat_ofNat_of_lt'
    change start.toNat < 2 ^ 64
    omega
  have hsize : (UInt64.ofNat size).toNat = size := by
    apply UInt64.toNat_ofNat_of_lt'
    change size < 2 ^ 64
    omega
  have hvalid : ¬ 2 ^ 64 ≤ start.toNat + size := by omega
  have hlookup : system.node.service.table.fileMetaByInode.lookup file.inodeId =
      entry file system := rfl
  rw [fuseRead, if_neg (not_lt.mpr hstart)]
  by_cases hempty : size = 0
  · rw [if_pos hempty, hempty]
    rfl
  rw [if_neg hempty]
  have hsizeNe : UInt64.ofNat size ≠ 0 := by
    intro hzero
    apply hempty
    rw [← hsize, hzero]
    rfl
  cases hentry : entry file system with
  | none =>
      -- the attributes say that the file is empty
      obtain ⟨rfl, hattr, hattrUnit⟩ := h.absent hentry
      have hmissing : isMissingFileMeta
          { code := .notFound, message := "file meta not found" } = true := by decide
      simp only [resolveRead, StorageServiceImpl.resolveFileRead, if_neg file.inodeId_ne, hoffset,
        hsize, if_neg hvalid, hlookup, hentry, hmissing, Bool.true_eq_false, if_false,
        if_neg hattrUnit, hattr]
      have hzero : (0 : UInt64).toNat ≤ start.toNat := Nat.zero_le _
      rw [if_pos hzero, slice, List.drop_nil, List.take_nil]
  | some fileMeta =>
      obtain ⟨hlength, hunit, -, hholds⟩ := h.present fileMeta hentry
      have hunitPos : 0 < fileMeta.objectUnitSize.toNat :=
        Nat.pos_of_ne_zero fun hzero => hunit (UInt64.toNat_inj.mp hzero)
      have hunitEq : fileMeta.unit = fileMeta.objectUnitSize := if_pos (pos_iff_ne.mpr hunit)
      by_cases hpast : array.length ≤ start.toNat
      · have hpast' : fileMeta.fileSize.toNat ≤ start.toNat := by omega
        simp only [resolveRead, StorageServiceImpl.resolveFileRead, if_neg file.inodeId_ne,
          hoffset, hsize, if_neg hvalid, hlookup, hentry, hpast', or_true, if_true]
        rw [slice, List.drop_eq_nil_of_le hpast, List.take_nil]
      · have hsome : ¬ (UInt64.ofNat size = 0 ∨ array.length ≤ start.toNat) :=
          not_or.mpr ⟨hsizeNe, hpast⟩
        have hsmall : ¬ intMax < min size (array.length - start.toNat) := by omega
        have hlt : start.toNat < start.toNat + min size (array.length - start.toNat) := by omega
        have hstop : start.toNat + min size (array.length - start.toNat) ≤ array.length := by
          omega
        have hparts := slices_positions file hunitPos (UInt64.toNat_lt _) hlt
          (hstop.trans h.length)
        have hread := readParts_range h.mount hunitPos hholds hlt hstop h.length
        rw [Nat.add_sub_cancel_left] at hparts hread
        simp only [resolveRead, StorageServiceImpl.resolveFileRead, if_neg file.inodeId_ne,
          hoffset, hsize, if_neg hvalid, hlookup, hentry, if_neg hsome, hlength,
          hunitEq, if_neg hpast, if_neg hsmall, hparts, hread, slice_clip]

/-! ## Runs -/

/-- The system beside the array that the file should be. -/
structure FuseRun where
  system : FuseSystem
  array : Bytes

abbrev FuseServed := Served FuseRun FuseCall

def serveRun (file : StoredFile) (run : FuseRun) (call : FuseCall) : FuseRun :=
  ⟨run.system.serve file call, arrayAfter run.array call⟩

def Serving (file : StoredFile) (run : FuseRun) (call : FuseCall) (run' : FuseRun) : Prop :=
  run' = serveRun file run call

/-- Offsets and sizes are those of an `off_t`. -/
def InRange (_ : FuseRun) : FuseCall → Prop
  | .write _ offset data => 0 ≤ offset ∧ offset.toNat + data.length ≤ IOExecutor.maxOff
  | .truncate _ size => 0 ≤ size ∧ size.toNat ≤ IOExecutor.maxOff
  | .read _ offset size => 0 ≤ offset ∧ offset.toNat + size ≤ IOExecutor.maxOff

/-- The bytes that a call adds without writing them are there as zeros, or come to be
    zeros; the numbers of the objects fit in 32 bits, and what is transferred in an `int`;
    and the file has a size of objects. -/
def Gapless (file : StoredFile) (run : FuseRun) : FuseCall → Prop
  | .write env offset data =>
      data ≠ [] → data.length ≤ intMax ∧
        offset.toNat + data.length ≤
          (objectUnit file run.system env.writeUnit).toNat * 2 ^ 32 ∧
        GapFilled file run.system run.array (objectUnit file run.system env.writeUnit).toNat
          offset.toNat
  | .truncate env size =>
      objectUnit file run.system env.unit ≠ 0 ∧
        size.toNat ≤ (objectUnit file run.system env.unit).toNat * 2 ^ 32 ∧
        ZerosThere file run.system run.array (objectUnit file run.system env.unit).toNat
          size.toNat
  | .read _ offset size => min size (run.array.length - offset.toNat) ≤ intMax

def GaplessInRange (file : StoredFile) (run : FuseRun) (call : FuseCall) : Prop :=
  InRange run call ∧ Gapless file run call

/-- Every read returns the bytes of the array in its range. -/
def ReadsArray (file : StoredFile) (hist : List FuseServed) : Prop :=
  ∀ e ∈ hist, ∀ env offset size, e.call = .read env offset size →
    fuseRead file e.before.system offset size = .ok (slice e.before.array offset.toNat size)

theorem Stores.serve {run run' : FuseRun} {call : FuseCall}
    (h : Stores file run.system run.array) (hok : GaplessInRange file run call)
    (hserve : Serving file run call run') : Stores file run'.system run'.array := by
  rw [hserve]
  cases call with
  | write env offset data =>
      obtain ⟨⟨hoffset, hrange⟩, hgapless⟩ := hok
      by_cases hdata : data = []
      · have hnothing : fuseWrite file run.system env offset data = (.ok 0, run.system) := by
          rw [fuseWrite, if_neg (not_lt.mpr hoffset), if_pos hdata]
        simp only [serveRun, FuseSystem.serve, arrayAfter, hnothing, if_pos hdata]
        exact h
      · obtain ⟨hlen, hindex, hgap⟩ := hgapless hdata
        obtain ⟨system', hwrite, hstores⟩ := h.write env hoffset hdata hrange hlen hindex hgap
        simp only [serveRun, FuseSystem.serve, arrayAfter, hwrite, if_neg hdata]
        exact hstores
  | truncate env size =>
      obtain ⟨⟨hsize, hrange⟩, hunit, hindex, hzeros⟩ := hok
      obtain ⟨system', htruncate, hstores⟩ := h.truncate env hsize hrange hunit hindex hzeros
      simp only [serveRun, FuseSystem.serve, arrayAfter, htruncate]
      exact hstores
  | read env offset size => exact h

/-- From a new file, a run of calls that leave no gap reads the array. -/
theorem gapless_file_is_array {run run' : FuseRun} {hist : List FuseServed}
    (hnew : NewFile file run.system) (hempty : run.array = [])
    (h : Serves (Serving file) (GaplessInRange file) run hist run') : ReadsArray file hist := by
  have hstart : Stores file run.system run.array := hempty ▸ .new hnew
  intro e hmem env offset size hcall
  obtain ⟨hist₁, hist₂, rfl⟩ := List.append_of_mem hmem
  obtain ⟨hbefore, hok, -, -⟩ := h.split
  have hstores : Stores file e.before.system e.before.array :=
    hbefore.invariant (I := fun run => Stores file run.system run.array)
      (fun _ _ _ hstores hok hserve => hstores.serve hok hserve) hstart
  rw [hcall] at hok
  exact hstores.read hok.1.1 hok.1.2 hok.2

/-! ## A gap -/

theorem serving_serveRun (file : StoredFile) (run : FuseRun) (call : FuseCall) :
    Serving file run call (serveRun file run call) := rfl

def smallFile : StoredFile where
  inodeId := 1
  diskId := ofAscii "d"
  updateInodeStat := fun attr _ => attr
  inodeId_ne := by decide
  diskId_ne := by decide

def created : FuseRun where
  system :=
    { node := { mountPoint := fun _ => ofAscii "/" }
      attr := { size := 0, objectUnitSize := 4, version := 0 } }
  array := []

theorem created_new : NewFile smallFile created.system where
  admission := rfl
  mount := by decide
  entry_none := rfl
  lastTxid_none := rfl
  size := rfl
  objectUnitSize := by decide

def someClient : ClientEnv where
  nowMs := 0
  timeSec := 1
  hintFileSize := 0
  hintObjectUnitSize := 4
  defaultObjectUnitSize := 4

/-- Six bytes in two objects, and a read across them. -/
def twoObjects : List FuseCall :=
  [.write someClient 0 [1, 2, 3, 4, 5, 6], .read someClient 2 4]

theorem gapless_file_is_array_two :
    fuseRead smallFile (serveRun smallFile created (.write someClient 0 [1, 2, 3, 4, 5, 6])).system
      2 4 = .ok [3, 4, 5, 6] := by
  have hrun : Serves (Serving smallFile) (GaplessInRange smallFile) created
      (runOf (serveRun smallFile) created twoObjects).1
      (runOf (serveRun smallFile) created twoObjects).2 := by
    refine serves_runOf (serving_serveRun smallFile) twoObjects created ?_
    refine List.forall_mem_cons.mpr ⟨⟨⟨by decide, by decide⟩, fun _ => ⟨by decide, by decide, ?_⟩⟩,
      List.forall_mem_cons.mpr ⟨⟨⟨by decide, by decide⟩, ?_⟩, nofun⟩⟩
    · exact fun p _ hp => absurd hp (Nat.not_lt_zero p)
    · change min 4 _ ≤ intMax
      exact (min_le_left _ _).trans (by decide)
  exact gapless_file_is_array created_new rfl hrun _ (List.mem_cons_of_mem _ List.mem_cons_self)
    someClient 2 4 rfl

/-- One byte far behind the end, and a read before it. -/
def writePastEnd : List FuseCall := [.write someClient 8 [1], .read someClient 0 4]

/-- The bytes before it are in no object, and a read of them fails. -/
theorem gap_is_not_read : ¬ ∀ file run hist run', NewFile file run.system → run.array = [] →
    Serves (Serving file) InRange run hist run' → ReadsArray file hist := by
  intro h
  have hrun : Serves (Serving smallFile) InRange created
      (runOf (serveRun smallFile) created writePastEnd).1
      (runOf (serveRun smallFile) created writePastEnd).2 := by
    refine serves_runOf (serving_serveRun smallFile) writePastEnd created ?_
    exact List.forall_mem_cons.mpr ⟨⟨by decide, by decide⟩,
      List.forall_mem_cons.mpr ⟨⟨by decide, by decide⟩, nofun⟩⟩
  have hread := h smallFile created _ _ created_new rfl hrun _
    (List.mem_cons_of_mem _ List.mem_cons_self) someClient 0 4 rfl
  have hfails : (fuseRead smallFile
      (serveRun smallFile created (.write someClient 8 [1])).system 0 4).isOk = false := by
    decide +kernel
  rw [show fuseRead smallFile
    (serveRun smallFile created (.write someClient 8 [1])).system 0 4 = _ from hread] at hfails
  cases hfails

end Zb.Client
