-- SUMMARY: Changed attributes written back: name, parent and locations stay, and they are read back.
import ZBStorage.Mds.Storage.NamespaceIndex
import ZBStorage.Mds.Storage.UnifiedInodeRoundTrip

/-!
# What `PutInode` leaves alone

Attributes that were read with `GetInode` are changed and written back. The write
decodes the stored record, overlays the attributes and encodes it again, so it has to
carry everything that the attributes do not have through both codecs.
-/

namespace Zb.Mds

open Zb.Rpc Bytes Handler

/-- What a caller changes between the reading and the writing of the attributes. -/
structure AttrChange where
  size : UInt64
  version : UInt64
  atime : UInt64
  mtime : UInt64
  ctime : UInt64
  mode : UInt32
  uid : UInt32
  gid : UInt32
  nlink : UInt32
  fileArchiveState : InodeArchiveState

def AttrChange.apply (change : AttrChange) (attr : InodeAttr) : InodeAttr :=
  { attr with
    size := change.size
    version := change.version
    atime := change.atime
    mtime := change.mtime
    ctime := change.ctime
    mode := change.mode
    uid := change.uid
    gid := change.gid
    nlink := change.nlink
    fileArchiveState := change.fileArchiveState }

/-- The attributes with the size and the blocks that the encoder gives them. -/
def normalisedAttr (attr : InodeAttr) : InodeAttr :=
  let size := normalizeDirectorySize attr.type.toUInt32.toUInt8 attr.size
  { attr with
    size := size
    blksize := normalizeBlockSize attr.blksize
    blocks512 := normalizeBlocks512 attr.blocks512 size }

/-- The same name in the same directory, with its primary location and archive copy. -/
structure SamePlace (record record' : UnifiedInodeRecord) : Prop where
  parentInodeId : record'.parentInodeId = record.parentInodeId
  fileName : record'.fileName = record.fileName
  storageTier : record'.storageTier = record.storageTier
  flags : record'.flags = record.flags
  diskNodeId : record'.diskNodeId = record.diskNodeId
  diskId : record'.diskId = record.diskId
  opticalNodeId : record'.opticalNodeId = record.opticalNodeId
  opticalDiskId : record'.opticalDiskId = record.opticalDiskId
  opticalImageId : record'.opticalImageId = record.opticalImageId

/-! ## The record that is written -/

theorem inodeType_ofUInt32 {type : UInt8} (h : isValidInodeType type = true) :
    (InodeType.ofUInt32 type.toUInt32).toUInt32.toUInt8 = type := by
  rw [isValidInodeType, Bool.or_eq_true, beq_iff_eq, beq_iff_eq] at h
  rcases h with rfl | rfl <;> rfl

theorem archiveState_ofUInt32 {state : InodeArchiveState}
    (h : isValidArchiveState state.toUInt32 = true) :
    InodeArchiveState.ofUInt32 state.toUInt32 = state := by
  cases state with
  | unrecognized v hv =>
      rw [isValidArchiveState, decide_eq_true_eq] at h
      exact absurd hv (UInt32.not_lt.mpr h)
  | _ => rfl

variable {record : UnifiedInodeRecord} {change : AttrChange}

/-- A stored record with the changes of the attributes. -/
def changedRecord (change : AttrChange) (record : UnifiedInodeRecord) : UnifiedInodeRecord :=
  { record with
    version := kVersion
    sizeBytes := change.size
    versionNo := change.version
    atime := change.atime
    mtime := change.mtime
    ctime := change.ctime
    mode := change.mode
    uid := change.uid
    gid := change.gid
    nlink := change.nlink
    fileArchiveState := change.fileArchiveState.toUInt32 }

/-- The attributes that were read bring nothing else into the record. -/
theorem updatedRecord_apply (hr : Encodable record) (hstored : storedForm record = record) :
    updatedRecord (change.apply (unifiedInodeRecordToAttr record)) record =
      changedRecord change record := by
  have htype := inodeType_ofUInt32 hr.inodeType
  have hlength : UInt16.ofNat record.fileName.length = record.fileNameLen :=
    congrArg UnifiedInodeRecord.fileNameLen hstored
  have hname : (if record.fileName ≠ [] ∨ record.fileName = [] then record.fileName
      else record.fileName) = record.fileName := ite_self _
  have hnameLen : (if record.fileName ≠ [] ∨ record.fileName = [] then
      UInt16.ofNat record.fileName.length else record.fileNameLen) = record.fileNameLen := by
    rw [hlength, ite_self]
  by_cases hdisk : record.storageTier = UnifiedStorageTier.kDisk
  · simp only [updatedRecord, applyAttrToUnifiedRecord, AttrChange.apply,
      unifiedInodeRecordToAttr, changedRecord, htype, hdisk, hname, hnameLen, if_true, true_or]
  · simp only [updatedRecord, applyAttrToUnifiedRecord, AttrChange.apply,
      unifiedInodeRecordToAttr, changedRecord, htype, hdisk, hname, hnameLen, if_false]

theorem Encodable.changedRecord (hr : Encodable record)
    (hstate : isValidArchiveState change.fileArchiveState.toUInt32 = true) :
    Encodable (changedRecord change record) :=
  { hr with fileArchiveState := hstate }

/-- Storing a changed record normalises its size and its blocks only. -/
theorem storedForm_changedRecord (hstored : storedForm record = record) :
    storedForm (changedRecord change record) = { changedRecord change record with
      sizeBytes := normalizeDirectorySize record.inodeType change.size
      blocks512 := normalizeBlocks512 record.blocks512
        (normalizeDirectorySize record.inodeType change.size) } := by
  -- the derived fields and the location do not depend on what is changed
  have hsame : storedForm (changedRecord change record) =
      { changedRecord change (storedForm record) with
        sizeBytes := normalizeDirectorySize record.inodeType change.size
        blocks512 := normalizeBlocks512 record.blocks512
          (normalizeDirectorySize record.inodeType change.size) } := rfl
  rw [hsame, hstored]

/-- The place of a record is not what the attributes change. -/
theorem samePlace_changedRecord (hstored : storedForm record = record) :
    SamePlace record (storedForm (changedRecord change record)) := by
  rw [storedForm_changedRecord hstored]
  exact ⟨rfl, rfl, rfl, rfl, rfl, rfl, rfl, rfl, rfl⟩

/-- The attributes of the record that was written are those that were given. -/
theorem attr_changedRecord (hr : Encodable record) (hstored : storedForm record = record)
    (hstate : isValidArchiveState change.fileArchiveState.toUInt32 = true) :
    unifiedInodeRecordToAttr (storedForm (changedRecord change record)) =
      normalisedAttr (change.apply (unifiedInodeRecordToAttr record)) := by
  have htype := inodeType_ofUInt32 hr.inodeType
  have hround := archiveState_ofUInt32 hstate
  have hblksize : normalizeBlockSize record.blksize = record.blksize :=
    congrArg UnifiedInodeRecord.blksize hstored
  rw [storedForm_changedRecord hstored]
  simp only [unifiedInodeRecordToAttr, changedRecord, normalisedAttr, AttrChange.apply, htype,
    hround, hblksize]
  rfl

/-! ## The write -/

variable {ι : Type} [DecidableEq ι]

theorem run_getInode {env : Oracle} {i : ι} {s : MdsState ι} {id : UInt64} {payload : Bytes}
    (hid : id ≠ 0) (hstored : s.db.lookup (.inode id) = some payload)
    (hdecode : decodeUnifiedInodeRecord payload = .ok record) :
    Prog.run (MdsOp.exec env i) (getInode id) s =
      some (.ok (unifiedInodeRecordToAttr record), s) := by
  rw [getInode, if_neg hid, run_get, MetaMap.read_eq_ok.mpr hstored]
  simp only [decodeUnifiedInodeAttr, hdecode]
  rfl

theorem run_putInode {env : Oracle} {i : ι} {s : MdsState ι} {id : UInt64} {attr : InodeAttr}
    {existing payload : Bytes} (hstored : s.db.lookup (.inode id) = some existing)
    (hpayload : putInodePayload attr (.ok existing) = .ok payload) :
    Prog.run (MdsOp.exec env i) (putInode id attr) s =
      some (.ok (), { s with db := s.db.insert (.inode id) payload }) := by
  rw [putInode, run_get, MetaMap.read_eq_ok.mpr hstored, hpayload]
  rfl

/-- Attributes that were read are changed and put back: the write succeeds, the record
    keeps its place, and the attributes are read back. -/
theorem putInode_preserves (env : Oracle) (i : ι) (s : MdsState ι) (id : UInt64)
    (r : UnifiedInodeRecord) (payload : Bytes) (attr : InodeAttr) (change : AttrChange)
    (hencoded : encodeUnifiedInodeRecord r = .ok payload)
    (hstored : s.db.lookup (.inode id) = some payload)
    (hread : Prog.run (MdsOp.exec env i) (getInode id) s = some (.ok attr, s))
    (hstate : isValidArchiveState change.fileArchiveState.toUInt32 = true) :
    ∃ s' record record', recordOf s.db id = some record ∧ recordOf s'.db id = some record' ∧
      Prog.run (MdsOp.exec env i) (putInode id (change.apply attr)) s = some (.ok (), s') ∧
      SamePlace record record' ∧
      Prog.run (MdsOp.exec env i) (getInode id) s' =
        some (.ok (normalisedAttr (change.apply attr)), s') ∧
      ∀ key, key ≠ .inode id → s'.db.lookup key = s.db.lookup key := by
  have hdecode := decode_encode hencoded
  have hr := (encode_eq_ok_iff.mp hencoded).1.storedForm
  have hfixed := storedForm_idem r (encode_eq_ok_iff.mp hencoded).1.storageTier
  have hid : id ≠ 0 := by
    intro hzero
    rw [getInode, if_pos hzero] at hread
    cases hread
  have hattr : attr = unifiedInodeRecordToAttr (storedForm r) := by
    rw [run_getInode hid hstored hdecode] at hread
    cases hread
    rfl
  obtain ⟨written, hwritten⟩ : ∃ written, encodeUnifiedInodeRecord
      (changedRecord change (storedForm r)) = .ok written :=
    ⟨_, encode_eq_ok_iff.mpr ⟨hr.changedRecord hstate, rfl⟩⟩
  have hpayload : putInodePayload (change.apply attr) (.ok payload) = .ok written := by
    simp only [putInodePayload, hdecode, bind, Except.bind, hattr]
    rw [updatedRecord_apply hr hfixed]
    exact hwritten
  have hlookup : AList.lookup (.inode id) (s.db.insert (.inode id) written) = some written :=
    AList.lookup_insert s.db
  refine ⟨_, storedForm r, storedForm (changedRecord change (storedForm r)), ?_, ?_,
    run_putInode hstored hpayload, samePlace_changedRecord hfixed, ?_, ?_⟩
  · rw [recordOf, hstored, Option.bind_some, hdecode]
    rfl
  · rw [recordOf, hlookup, Option.bind_some, decode_encode hwritten]
    rfl
  · rw [run_getInode hid hlookup (decode_encode hwritten), attr_changedRecord hr hfixed hstate,
      hattr]
  · exact fun key hne => AList.lookup_insert_ne hne

/-- The file of `archivedDiskRecord` grows. -/
def grownChange : AttrChange where
  size := 4097
  version := 2
  atime := 1
  mtime := 2
  ctime := 3
  mode := 0o644
  uid := 1
  gid := 1
  nlink := 2
  fileArchiveState := .pending

def archivedState : MdsState Unit where
  db := (∅ : MetaMap).insert (.inode 7) (layoutRecord (packedForm archivedDiskRecord))
  owner := fun _ => none
  issued := []

theorem putInode_preserves_archived :
    ∃ s' record record', recordOf archivedState.db 7 = some record ∧
      recordOf s'.db 7 = some record' ∧
      Prog.run (MdsOp.exec silentOracle ()) (putInode 7 (grownChange.apply
        (unifiedInodeRecordToAttr (storedForm archivedDiskRecord)))) archivedState =
          some (.ok (), s') ∧
      SamePlace record record' ∧
      Prog.run (MdsOp.exec silentOracle ()) (getInode 7) s' = some (.ok (normalisedAttr
        (grownChange.apply (unifiedInodeRecordToAttr (storedForm archivedDiskRecord)))), s') ∧
      ∀ key, key ≠ .inode 7 → s'.db.lookup key = archivedState.db.lookup key := by
  have hencoded : encodeUnifiedInodeRecord archivedDiskRecord =
      .ok (layoutRecord (packedForm archivedDiskRecord)) :=
    encode_eq_ok_iff.mpr ⟨by constructor <;> decide, rfl⟩
  have hstored : archivedState.db.lookup (.inode 7) =
      some (layoutRecord (packedForm archivedDiskRecord)) := AList.lookup_insert ∅
  exact putInode_preserves silentOracle () archivedState 7 archivedDiskRecord _ _ grownChange
    hencoded hstored (run_getInode (by decide) hstored (decode_encode hencoded)) (by decide)

end Zb.Mds
