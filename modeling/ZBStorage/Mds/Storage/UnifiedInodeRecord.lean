-- SUMMARY: The 256-byte unified inode record, its codec, and its attributes.
import Mathlib.Tactic.NormNum
import ZBStorage.Mds.Messages

/-!
# Unified inode records

`UnifiedInodeRecord.h` / `UnifiedInodeRecord.cpp`. A record is encoded into a
zeroed buffer of `kRecordSize` bytes by writes at fixed offsets. Decoding checks
the enumerated bytes, expands the packed location and, for a disk-tier record,
reads the tagged auxiliary archive location out of the reserved area.
-/

namespace Zb.Mds

open Zb.Rpc Bytes

namespace UnifiedStorageTier

def kNone : UInt8 := 0
def kDisk : UInt8 := 1
def kOptical : UInt8 := 2

@[simp] theorem kDisk_ne_kNone : kDisk ≠ kNone := by decide
@[simp] theorem kOptical_ne_kNone : kOptical ≠ kNone := by decide
@[simp] theorem kNone_ne_kDisk : kNone ≠ kDisk := by decide
@[simp] theorem kOptical_ne_kDisk : kOptical ≠ kDisk := by decide
@[simp] theorem kNone_ne_kOptical : kNone ≠ kOptical := by decide
@[simp] theorem kDisk_ne_kOptical : kDisk ≠ kOptical := by decide

end UnifiedStorageTier

namespace UnifiedLocationFormat

def kNone : UInt8 := 0
def kDisk : UInt8 := 1
def kOpticalPacked : UInt8 := 2

@[simp] theorem kNone_ne_kDisk : kNone ≠ kDisk := by decide
@[simp] theorem kOpticalPacked_ne_kDisk : kOpticalPacked ≠ kDisk := by decide
@[simp] theorem kNone_ne_kOpticalPacked : kNone ≠ kOpticalPacked := by decide

end UnifiedLocationFormat

/-- The in-memory record. The location is held twice: packed
    (`locationFormat`, `storageLoc0`, `storageLoc1`) and expanded. -/
structure UnifiedInodeRecord where
  version : UInt8 := 3
  inodeType : UInt8 := 0
  storageTier : UInt8 := UnifiedStorageTier.kNone
  flags : UInt8 := 0
  fileNameLen : UInt16 := 0
  locationFormat : UInt8 := UnifiedLocationFormat.kNone
  inodeId : UInt64 := 0
  parentInodeId : UInt64 := 0
  sizeBytes : UInt64 := 0
  atime : UInt64 := 0
  mtime : UInt64 := 0
  ctime : UInt64 := 0
  versionNo : UInt64 := 0
  mode : UInt32 := 0
  uid : UInt32 := 0
  gid : UInt32 := 0
  nlink : UInt32 := 0
  blksize : UInt32 := 0
  fileArchiveState : UInt32 := 0
  blocks512 : UInt64 := 0
  storageLoc0 : UInt64 := 0
  storageLoc1 : UInt64 := 0
  rdevMajor : UInt32 := 0
  rdevMinor : UInt32 := 0
  objectUnitSize : UInt64 := 0
  replica : UInt32 := 0
  diskNodeId : UInt64 := 0
  diskId : UInt32 := 0
  opticalNodeId : UInt64 := 0
  opticalDiskId : UInt64 := 0
  opticalImageId : UInt32 := 0
  fileName : Bytes := []
  deriving DecidableEq

/-! ## Layout -/

def kRecordSize : Nat := 256
def kVersion : UInt8 := 3
def kFileNameSize : Nat := 64

def kVersionOffset : Nat := 0
def kInodeTypeOffset : Nat := 1
def kStorageTierOffset : Nat := 2
def kFlagsOffset : Nat := 3
def kFileNameLenOffset : Nat := 4
def kLocationFormatOffset : Nat := 5
def kReserved0Offset : Nat := 6
def kInodeIdOffset : Nat := 8
def kParentInodeIdOffset : Nat := 16
def kSizeBytesOffset : Nat := 24
def kAtimeOffset : Nat := 32
def kMtimeOffset : Nat := 40
def kCtimeOffset : Nat := 48
def kVersionNoOffset : Nat := 56
def kModeOffset : Nat := 64
def kUidOffset : Nat := 68
def kGidOffset : Nat := 72
def kNlinkOffset : Nat := 76
def kBlockSizeOffset : Nat := 80
def kFileArchiveStateOffset : Nat := 84
def kBlocks512Offset : Nat := 88
def kStorageLoc0Offset : Nat := 96
def kStorageLoc1Offset : Nat := 104
def kRdevMajorOffset : Nat := 112
def kRdevMinorOffset : Nat := 116
def kObjectUnitSizeOffset : Nat := 120
def kReplicaOffset : Nat := 124
def kReserved1Offset : Nat := 126
def kFileNameOffset : Nat := 128
def kReservedOffset : Nat := 192

/-- The tag `ARC1` of an auxiliary archive location in the reserved area. -/
def kArchiveTag : UInt32 := 0x31435241

def kDefaultBlockSize : UInt32 := 4096
def kBlocksUnitBytes : UInt64 := 512

/-! ## Validity and normalisation -/

def isValidInodeType (value : UInt8) : Bool := value == 0 || value == 1
def isValidStorageTier (value : UInt8) : Bool := value ≤ UnifiedStorageTier.kOptical
def isValidLocationFormat (value : UInt8) : Bool := value ≤ UnifiedLocationFormat.kOpticalPacked
def isValidArchiveState (value : UInt32) : Bool := value ≤ 3

def ceilDiv (value divisor : UInt64) : UInt64 :=
  if divisor = 0 then 0 else (value + divisor - 1) / divisor

def normalizeDirectorySize (inodeType : UInt8) (sizeBytes : UInt64) : UInt64 :=
  if inodeType = 1 ∧ sizeBytes = 0 then kDefaultBlockSize.toUInt64 else sizeBytes

def normalizeBlockSize (requested : UInt32) : UInt32 :=
  if requested = 0 then kDefaultBlockSize else requested

def normalizeBlocks512 (requested sizeBytes : UInt64) : UInt64 :=
  if requested ≠ 0 then requested else ceilDiv sizeBytes kBlocksUnitBytes

def normalizePackedLocation (record : UnifiedInodeRecord) : Except String UnifiedInodeRecord :=
  let record := { record with
    locationFormat := UnifiedLocationFormat.kNone, storageLoc0 := 0, storageLoc1 := 0 }
  if record.storageTier = UnifiedStorageTier.kDisk then
    .ok { record with
      locationFormat := UnifiedLocationFormat.kDisk
      storageLoc0 := record.diskNodeId
      storageLoc1 := record.diskId.toUInt64 }
  else if record.storageTier = UnifiedStorageTier.kOptical then
    if record.opticalDiskId > 0xFFFFFFFF then .error "optical_disk_id exceeds packed v3 range"
    else .ok { record with
      locationFormat := UnifiedLocationFormat.kOpticalPacked
      storageLoc0 := record.opticalNodeId
      storageLoc1 := (record.opticalDiskId <<< 32) ||| record.opticalImageId.toUInt64 }
  else .ok record

def expandPackedLocation (record : UnifiedInodeRecord) : UnifiedInodeRecord :=
  let record := { record with
    diskNodeId := 0, diskId := 0, opticalNodeId := 0, opticalDiskId := 0, opticalImageId := 0 }
  if record.locationFormat = UnifiedLocationFormat.kDisk then
    { record with
      diskNodeId := record.storageLoc0
      diskId := record.storageLoc1.toUInt32 }
  else if record.locationFormat = UnifiedLocationFormat.kOpticalPacked then
    { record with
      opticalNodeId := record.storageLoc0
      opticalDiskId := record.storageLoc1 >>> 32
      opticalImageId := (record.storageLoc1 &&& 0xFFFFFFFF).toUInt32 }
  else record

def fillDerivedPosixFields (record : UnifiedInodeRecord) (normalizeDirSize : Bool) :
    UnifiedInodeRecord :=
  let sizeBytes :=
    if normalizeDirSize then normalizeDirectorySize record.inodeType record.sizeBytes
    else record.sizeBytes
  { record with
    sizeBytes := sizeBytes
    blksize := normalizeBlockSize record.blksize
    blocks512 := normalizeBlocks512 record.blocks512 sizeBytes
    fileNameLen := UInt16.ofNat record.fileName.length }

/-! ## Encoding -/

/-- The tagged auxiliary archive location, written for a disk-tier record that
    carries an image. -/
def archiveFields (r : UnifiedInodeRecord) : List Field :=
  if r.storageTier = UnifiedStorageTier.kDisk ∧ r.opticalImageId ≠ 0 then
    [ .u32 kReservedOffset kArchiveTag,
      .u32 (kReservedOffset + 4) r.opticalImageId,
      .u64 (kReservedOffset + 8) r.opticalDiskId,
      .u64 (kReservedOffset + 16) r.opticalNodeId ]
  else []

/-- The writes of `EncodeUnifiedInodeRecord` into its zeroed buffer, in order. -/
def recordFields (r : UnifiedInodeRecord) : List Field :=
  [ .u8 kVersionOffset r.version,
    .u8 kInodeTypeOffset r.inodeType,
    .u8 kStorageTierOffset r.storageTier,
    .u8 kFlagsOffset r.flags,
    .u8 kFileNameLenOffset r.fileNameLen.toUInt8,
    .u8 kLocationFormatOffset r.locationFormat,
    .u16 kReserved0Offset 0,
    .u64 kInodeIdOffset r.inodeId,
    .u64 kParentInodeIdOffset r.parentInodeId,
    .u64 kSizeBytesOffset r.sizeBytes,
    .u64 kAtimeOffset r.atime,
    .u64 kMtimeOffset r.mtime,
    .u64 kCtimeOffset r.ctime,
    .u64 kVersionNoOffset r.versionNo,
    .u32 kModeOffset r.mode,
    .u32 kUidOffset r.uid,
    .u32 kGidOffset r.gid,
    .u32 kNlinkOffset r.nlink,
    .u32 kBlockSizeOffset r.blksize,
    .u32 kFileArchiveStateOffset r.fileArchiveState,
    .u64 kBlocks512Offset r.blocks512,
    .u64 kStorageLoc0Offset r.storageLoc0,
    .u64 kStorageLoc1Offset r.storageLoc1,
    .u32 kRdevMajorOffset r.rdevMajor,
    .u32 kRdevMinorOffset r.rdevMinor,
    .u32 kObjectUnitSizeOffset r.objectUnitSize.toUInt32,
    .u16 kReplicaOffset r.replica.toUInt16,
    .u16 kReserved1Offset 0 ]
  ++ archiveFields r
  ++ [⟨kFileNameOffset, kFileNameSize, r.fileName⟩]

def layoutRecord (r : UnifiedInodeRecord) : Bytes :=
  layout (List.replicate kRecordSize 0) (recordFields r)

def encodeUnifiedInodeRecord (record : UnifiedInodeRecord) : Except String Bytes :=
  if !isValidInodeType record.inodeType then .error "invalid inode_type"
  else if !isValidStorageTier record.storageTier then .error "invalid storage_tier"
  else if !isValidArchiveState record.fileArchiveState then .error "invalid file_archive_state"
  else if record.fileName.length > kFileNameSize then .error "file_name exceeds 64 bytes"
  else if record.objectUnitSize > 0xFFFFFFFF then .error "object_unit_size exceeds v3 range"
  else if record.replica > 0xFFFF then .error "replica exceeds v3 range"
  else
    let normalized := fillDerivedPosixFields { record with version := kVersion } true
    match normalizePackedLocation normalized with
    | .error e => .error e
    | .ok normalized => .ok (layoutRecord normalized)

/-! ## Decoding -/

/-- The fields of a 256-byte payload, with the packed location not yet expanded. -/
def readRecord (data : Bytes) : UnifiedInodeRecord where
  version := kVersion
  inodeType := readU8 data kInodeTypeOffset
  storageTier := readU8 data kStorageTierOffset
  flags := readU8 data kFlagsOffset
  fileNameLen := (readU8 data kFileNameLenOffset).toUInt16
  locationFormat := readU8 data kLocationFormatOffset
  inodeId := readU64 data kInodeIdOffset
  parentInodeId := readU64 data kParentInodeIdOffset
  sizeBytes := readU64 data kSizeBytesOffset
  atime := readU64 data kAtimeOffset
  mtime := readU64 data kMtimeOffset
  ctime := readU64 data kCtimeOffset
  versionNo := readU64 data kVersionNoOffset
  mode := readU32 data kModeOffset
  uid := readU32 data kUidOffset
  gid := readU32 data kGidOffset
  nlink := readU32 data kNlinkOffset
  blksize := readU32 data kBlockSizeOffset
  fileArchiveState := readU32 data kFileArchiveStateOffset
  blocks512 := readU64 data kBlocks512Offset
  storageLoc0 := readU64 data kStorageLoc0Offset
  storageLoc1 := readU64 data kStorageLoc1Offset
  rdevMajor := readU32 data kRdevMajorOffset
  rdevMinor := readU32 data kRdevMinorOffset
  objectUnitSize := (readU32 data kObjectUnitSizeOffset).toUInt64
  replica := (readU16 data kReplicaOffset).toUInt32
  fileName := slice data kFileNameOffset (readU8 data kFileNameLenOffset).toNat

/-- The tagged auxiliary archive location of a disk-tier record. -/
def readArchiveLocation (data : Bytes) (record : UnifiedInodeRecord) : UnifiedInodeRecord :=
  if record.storageTier = UnifiedStorageTier.kDisk ∧ readU32 data kReservedOffset = kArchiveTag then
    { record with
      opticalImageId := readU32 data (kReservedOffset + 4)
      opticalDiskId := readU64 data (kReservedOffset + 8)
      opticalNodeId := readU64 data (kReservedOffset + 16) }
  else record

def decodeV3UnifiedInodeRecord (data : Bytes) : Except String UnifiedInodeRecord :=
  if data.length ≠ kRecordSize then .error "invalid unified inode size"
  else if !isValidInodeType (readU8 data kInodeTypeOffset) then .error "invalid unified inode_type"
  else if !isValidStorageTier (readU8 data kStorageTierOffset) then
    .error "invalid unified storage_tier"
  else if !isValidLocationFormat (readU8 data kLocationFormatOffset) then
    .error "invalid unified location_format"
  else if (readU8 data kFileNameLenOffset).toNat > kFileNameSize then
    .error "invalid unified file_name_len"
  else if !isValidArchiveState (readU32 data kFileArchiveStateOffset) then
    .error "invalid unified file_archive_state"
  else
    let record := expandPackedLocation (readRecord data)
    let record := readArchiveLocation data record
    .ok (fillDerivedPosixFields record false)

def decodeUnifiedInodeRecord (data : Bytes) : Except String UnifiedInodeRecord :=
  if data.length ≠ kRecordSize then .error "invalid unified inode size"
  else if readU8 data kVersionOffset = kVersion then decodeV3UnifiedInodeRecord data
  else .error "unified inode version mismatch"

/-! ## Round trip -/

theorem recordFields_fits {r : UnifiedInodeRecord} (h : r.fileName.length ≤ kFileNameSize) :
    ∀ f ∈ recordFields r, f.Fits := by
  unfold recordFields archiveFields
  split <;>
    simp only [List.cons_append, List.nil_append, List.forall_mem_cons, Field.Fits, Field.u8,
      Field.u16, Field.u32, Field.u64, length_ofNatLE, Nat.le_refl, h, and_true, List.not_mem_nil,
      false_imp_iff, implies_true]

/-- The slots of the layout, in the order of the writes. -/
theorem recordFields_disjoint (r : UnifiedInodeRecord) :
    (recordFields r).Pairwise Field.Disjoint := by
  have hslots : ((recordFields r).map fun f => (f.offset, f.size)).Pairwise
      fun a b => a.1 + a.2 ≤ b.1 ∨ b.1 + b.2 ≤ a.1 := by
    unfold recordFields archiveFields
    split
    · show List.Pairwise _ [(0, 1), (1, 1), (2, 1), (3, 1), (4, 1), (5, 1), (6, 2), (8, 8), (16, 8),
        (24, 8), (32, 8), (40, 8), (48, 8), (56, 8), (64, 4), (68, 4), (72, 4), (76, 4), (80, 4),
        (84, 4), (88, 8), (96, 8), (104, 8), (112, 4), (116, 4), (120, 4), (124, 2), (126, 2),
        (192, 4), (196, 4), (200, 8), (208, 8), (128, 64)]
      decide
    · show List.Pairwise _ [(0, 1), (1, 1), (2, 1), (3, 1), (4, 1), (5, 1), (6, 2), (8, 8), (16, 8),
        (24, 8), (32, 8), (40, 8), (48, 8), (56, 8), (64, 4), (68, 4), (72, 4), (76, 4), (80, 4),
        (84, 4), (88, 8), (96, 8), (104, 8), (112, 4), (116, 4), (120, 4), (124, 2), (126, 2),
        (128, 64)]
      decide
  rw [List.pairwise_map] at hslots
  exact hslots

section Layout

variable {r : UnifiedInodeRecord} (hname : r.fileName.length ≤ kFileNameSize) {off : Nat} (i : Nat)
include hname

theorem readU8_layoutRecord {v : UInt8} (hi : (recordFields r)[i]? = some (.u8 off v))
    (hin : off + 1 ≤ kRecordSize) : readU8 (layoutRecord r) off = v :=
  readU8_layout (List.mem_of_getElem? hi) (recordFields_disjoint r) (recordFields_fits hname)
    (by rwa [List.length_replicate])

theorem readU16_layoutRecord {v : UInt16} (hi : (recordFields r)[i]? = some (.u16 off v))
    (hin : off + 2 ≤ kRecordSize) : readU16 (layoutRecord r) off = v :=
  readU16_layout (List.mem_of_getElem? hi) (recordFields_disjoint r) (recordFields_fits hname)
    (by rwa [List.length_replicate])

theorem readU32_layoutRecord {v : UInt32} (hi : (recordFields r)[i]? = some (.u32 off v))
    (hin : off + 4 ≤ kRecordSize) : readU32 (layoutRecord r) off = v :=
  readU32_layout (List.mem_of_getElem? hi) (recordFields_disjoint r) (recordFields_fits hname)
    (by rwa [List.length_replicate])

theorem readU64_layoutRecord {v : UInt64} (hi : (recordFields r)[i]? = some (.u64 off v))
    (hin : off + 8 ≤ kRecordSize) : readU64 (layoutRecord r) off = v :=
  readU64_layout (List.mem_of_getElem? hi) (recordFields_disjoint r) (recordFields_fits hname)
    (by rwa [List.length_replicate])

omit i off in
theorem fileName_layoutRecord :
    slice (layoutRecord r) kFileNameOffset r.fileName.length = r.fileName :=
  slice_layout (f := ⟨kFileNameOffset, kFileNameSize, r.fileName⟩)
    (List.mem_append_right _ List.mem_cons_self)
    (recordFields_disjoint r) (recordFields_fits hname)
    (by rw [List.length_replicate]; show kFileNameOffset + kFileNameSize ≤ kRecordSize; decide)

/-- Reading the fields of a laid out record gives the record back, without the
    expanded location. -/
theorem readRecord_layoutRecord (hlen : r.fileNameLen = UInt16.ofNat r.fileName.length)
    (hunit : ¬ r.objectUnitSize > 0xFFFFFFFF) (hreplica : ¬ r.replica > 0xFFFF) :
    readRecord (layoutRecord r) = { r with
      version := kVersion
      diskNodeId := 0, diskId := 0, opticalNodeId := 0, opticalDiskId := 0, opticalImageId := 0 } := by
  have hlenNat : r.fileNameLen.toUInt8.toNat = r.fileName.length := by
    simp only [kFileNameSize] at hname
    rw [hlen]
    simp
    omega
  have hlen16 : r.fileNameLen.toUInt8.toUInt16 = r.fileNameLen := by
    apply UInt16.toNat_inj.mp
    rw [UInt8.toNat_toUInt16, hlenNat, hlen]
    simp only [kFileNameSize] at hname
    simp
    omega
  have hunit' : r.objectUnitSize.toUInt32.toUInt64 = r.objectUnitSize := by
    have : r.objectUnitSize.toNat ≤ 0xFFFFFFFF := by simpa [UInt64.lt_iff_toNat_lt] using hunit
    apply UInt64.toNat_inj.mp
    simp
    omega
  have hreplica' : r.replica.toUInt16.toUInt32 = r.replica := by
    have : r.replica.toNat ≤ 0xFFFF := by simpa [UInt32.lt_iff_toNat_lt] using hreplica
    apply UInt32.toNat_inj.mp
    simp
    omega
  rw [readRecord, readU8_layoutRecord hname 1 rfl (by decide),
    readU8_layoutRecord hname 2 rfl (by decide), readU8_layoutRecord hname 3 rfl (by decide),
    readU8_layoutRecord hname 4 rfl (by decide), readU8_layoutRecord hname 5 rfl (by decide),
    readU64_layoutRecord hname 7 rfl (by decide), readU64_layoutRecord hname 8 rfl (by decide),
    readU64_layoutRecord hname 9 rfl (by decide), readU64_layoutRecord hname 10 rfl (by decide),
    readU64_layoutRecord hname 11 rfl (by decide), readU64_layoutRecord hname 12 rfl (by decide),
    readU64_layoutRecord hname 13 rfl (by decide), readU32_layoutRecord hname 14 rfl (by decide),
    readU32_layoutRecord hname 15 rfl (by decide), readU32_layoutRecord hname 16 rfl (by decide),
    readU32_layoutRecord hname 17 rfl (by decide), readU32_layoutRecord hname 18 rfl (by decide),
    readU32_layoutRecord hname 19 rfl (by decide), readU64_layoutRecord hname 20 rfl (by decide),
    readU64_layoutRecord hname 21 rfl (by decide), readU64_layoutRecord hname 22 rfl (by decide),
    readU32_layoutRecord hname 23 rfl (by decide), readU32_layoutRecord hname 24 rfl (by decide),
    readU32_layoutRecord hname 25 rfl (by decide), readU16_layoutRecord hname 26 rfl (by decide),
    hlenNat, hlen16, hunit', hreplica', fileName_layoutRecord hname]
end Layout

/-- What a record is once stored: the normalisations of the encoder, and the
    location fields that its tier keeps. -/
def storedForm (r : UnifiedInodeRecord) : UnifiedInodeRecord := { r with
  version := kVersion
  sizeBytes := normalizeDirectorySize r.inodeType r.sizeBytes
  blksize := normalizeBlockSize r.blksize
  blocks512 := normalizeBlocks512 r.blocks512 (normalizeDirectorySize r.inodeType r.sizeBytes)
  fileNameLen := UInt16.ofNat r.fileName.length
  locationFormat :=
    if r.storageTier = UnifiedStorageTier.kDisk then UnifiedLocationFormat.kDisk
    else if r.storageTier = UnifiedStorageTier.kOptical then UnifiedLocationFormat.kOpticalPacked
    else UnifiedLocationFormat.kNone
  storageLoc0 :=
    if r.storageTier = UnifiedStorageTier.kDisk then r.diskNodeId
    else if r.storageTier = UnifiedStorageTier.kOptical then r.opticalNodeId
    else 0
  storageLoc1 :=
    if r.storageTier = UnifiedStorageTier.kDisk then r.diskId.toUInt64
    else if r.storageTier = UnifiedStorageTier.kOptical then
      (r.opticalDiskId <<< 32) ||| r.opticalImageId.toUInt64
    else 0
  diskNodeId := if r.storageTier = UnifiedStorageTier.kDisk then r.diskNodeId else 0
  diskId := if r.storageTier = UnifiedStorageTier.kDisk then r.diskId else 0
  opticalNodeId := if keepsOptical r then r.opticalNodeId else 0
  opticalDiskId := if keepsOptical r then r.opticalDiskId else 0
  opticalImageId := if keepsOptical r then r.opticalImageId else 0 }
where
  /-- An optical record keeps its location, a disk record its archive copy if it
      names an image. -/
  keepsOptical (r : UnifiedInodeRecord) : Bool :=
    r.storageTier == UnifiedStorageTier.kOptical ||
      (r.storageTier == UnifiedStorageTier.kDisk && r.opticalImageId != 0)

/-- The records the encoder accepts. -/
structure Encodable (r : UnifiedInodeRecord) : Prop where
  inodeType : isValidInodeType r.inodeType = true
  storageTier : isValidStorageTier r.storageTier = true
  fileArchiveState : isValidArchiveState r.fileArchiveState = true
  fileName : r.fileName.length ≤ kFileNameSize
  objectUnitSize : ¬ r.objectUnitSize > 0xFFFFFFFF
  replica : ¬ r.replica > 0xFFFF
  opticalDiskId : r.storageTier = UnifiedStorageTier.kOptical → ¬ r.opticalDiskId > 0xFFFFFFFF

/-- The record the encoder lays out: derived fields filled in, location packed. -/
def packedForm (r : UnifiedInodeRecord) : UnifiedInodeRecord :=
  { storedForm r with
    diskNodeId := r.diskNodeId, diskId := r.diskId, opticalNodeId := r.opticalNodeId
    opticalDiskId := r.opticalDiskId, opticalImageId := r.opticalImageId }

theorem normalizePackedLocation_eq_ok {r : UnifiedInodeRecord}
    (h : r.storageTier = UnifiedStorageTier.kOptical → ¬ r.opticalDiskId > 0xFFFFFFFF) :
    normalizePackedLocation (fillDerivedPosixFields { r with version := kVersion } true) =
      .ok (packedForm r) := by
  simp only [normalizePackedLocation, fillDerivedPosixFields, packedForm, storedForm]
  by_cases hdisk : r.storageTier = UnifiedStorageTier.kDisk
  · simp only [hdisk, if_true]
  · by_cases hopt : r.storageTier = UnifiedStorageTier.kOptical
    · simp only [if_neg hdisk, if_pos hopt, if_neg (h hopt), if_true]
    · simp only [if_neg hdisk, if_neg hopt, if_true]

theorem encode_eq_ok_iff {r : UnifiedInodeRecord} {b : Bytes} :
    encodeUnifiedInodeRecord r = .ok b ↔ Encodable r ∧ b = layoutRecord (packedForm r) := by
  constructor
  · intro h
    unfold encodeUnifiedInodeRecord at h
    split at h
    · cases h
    split at h
    · cases h
    split at h
    · cases h
    split at h
    · cases h
    split at h
    · cases h
    split at h
    · cases h
    rename_i htype htier hstate hname hunit hreplica
    have hdisk : r.storageTier = UnifiedStorageTier.kOptical → ¬ r.opticalDiskId > 0xFFFFFFFF := by
      intro hopt hbig
      have hne : ¬ UnifiedStorageTier.kOptical = UnifiedStorageTier.kDisk := by decide
      simp [normalizePackedLocation, fillDerivedPosixFields, hopt, hne, hbig] at h
    simp only [normalizePackedLocation_eq_ok hdisk, Except.ok.injEq] at h
    exact ⟨⟨by simpa using htype, by simpa using htier, by simpa using hstate,
      Nat.le_of_not_lt hname, hunit, hreplica, hdisk⟩, h.symm⟩
  · rintro ⟨hr, rfl⟩
    have hpack := normalizePackedLocation_eq_ok hr.opticalDiskId
    have hname : ¬ r.fileName.length > kFileNameSize := Nat.not_lt.mpr hr.fileName
    simp [encodeUnifiedInodeRecord, hr.inodeType, hr.storageTier, hr.fileArchiveState,
       hr.objectUnitSize, hr.replica, hname, hpack]

theorem length_layoutRecord (r : UnifiedInodeRecord) : (layoutRecord r).length = kRecordSize := by
  rw [layoutRecord, length_layout, List.length_replicate]

theorem isValidStorageTier_cases {t : UInt8} (h : isValidStorageTier t = true) :
    t = UnifiedStorageTier.kDisk ∨ t = UnifiedStorageTier.kOptical ∨ t = UnifiedStorageTier.kNone := by
  simp only [isValidStorageTier, UnifiedStorageTier.kOptical, UnifiedStorageTier.kDisk, UnifiedStorageTier.kNone, decide_eq_true_eq, UInt8.le_iff_toNat_le] at *
  simp only [← UInt8.toNat_inj] 
  simp at *
  omega

/-- The auxiliary archive location is found exactly when it was written. -/
theorem readArchiveLocation_layoutRecord {r rec : UnifiedInodeRecord}
    (hname : r.fileName.length ≤ kFileNameSize) (htier : rec.storageTier = r.storageTier) :
    readArchiveLocation (layoutRecord r) rec =
      if r.storageTier = UnifiedStorageTier.kDisk ∧ r.opticalImageId ≠ 0 then
        { rec with
          opticalImageId := r.opticalImageId
          opticalDiskId := r.opticalDiskId
          opticalNodeId := r.opticalNodeId }
      else rec := by
  unfold readArchiveLocation
  by_cases harc : r.storageTier = UnifiedStorageTier.kDisk ∧ r.opticalImageId ≠ 0
  · have hfields : recordFields r = (recordFields r).take 28 ++
        [.u32 kReservedOffset kArchiveTag, .u32 (kReservedOffset + 4) r.opticalImageId,
          .u64 (kReservedOffset + 8) r.opticalDiskId, .u64 (kReservedOffset + 16) r.opticalNodeId,
          ⟨kFileNameOffset, kFileNameSize, r.fileName⟩] := by
      rw [recordFields, archiveFields, if_pos harc]
      rfl
    have hget (i : Nat) : (recordFields r)[28 + i]? = [Field.u32 kReservedOffset kArchiveTag,
        .u32 (kReservedOffset + 4) r.opticalImageId, .u64 (kReservedOffset + 8) r.opticalDiskId,
        .u64 (kReservedOffset + 16) r.opticalNodeId,
        ⟨kFileNameOffset, kFileNameSize, r.fileName⟩][i]? := by
      rw [hfields]
      exact (List.getElem?_append_right (Nat.le_add_right 28 i)).trans
        (by congr 1; exact Nat.add_sub_cancel_left 28 i)
    rw [readU32_layoutRecord hname 28 (hget 0) (by decide),
      readU32_layoutRecord hname 29 (hget 1) (by decide),
      readU64_layoutRecord hname 30 (hget 2) (by decide),
      readU64_layoutRecord hname 31 (hget 3) (by decide), if_pos ⟨htier.trans harc.1, rfl⟩,
      if_pos harc]
  · rw [if_neg harc, if_neg]
    rintro ⟨hdisk, htag⟩
    have hfields : archiveFields r = [] := if_neg harc
    -- nothing was written to the reserved area, so the tag reads as zero
    have hzero : readU32 (layoutRecord r) kReservedOffset = 0 := by
      rw [readU32, layoutRecord, slice_layout_untouched (recordFields_fits hname)]
      · decide
      · rw [recordFields, hfields]
        simp only [List.cons_append, List.nil_append, List.forall_mem_cons, Field.u8, Field.u16,
          Field.u32, Field.u64]
        decide
    rw [hzero] at htag
    exact absurd htag (by decide)

theorem toNat_packedOptical {d : UInt64} {i : UInt32} (h : ¬ d > 0xFFFFFFFF) :
    ((d <<< 32) ||| i.toUInt64).toNat = d.toNat * 2 ^ 32 + i.toNat := by
  have hd : d.toNat ≤ 0xFFFFFFFF := by simpa [UInt64.lt_iff_toNat_lt] using h
  have hi : i.toNat < 2 ^ 32 := i.toNat_lt
  have hshift : (d <<< 32).toNat = d.toNat <<< 32 := by
    rw [UInt64.toNat_shiftLeft]
    simp only [Nat.shiftLeft_eq]
    have : (32 : UInt64).toNat % 64 = 32 := by decide
    rw [this]
    omega
  rw [UInt64.toNat_or, hshift, UInt32.toNat_toUInt64, ← Nat.shiftLeft_add_eq_or_of_lt hi,
    Nat.shiftLeft_eq]

theorem opticalDiskId_packed {d : UInt64} {i : UInt32} (h : ¬ d > 0xFFFFFFFF) :
    ((d <<< 32) ||| i.toUInt64) >>> 32 = d := by
  apply UInt64.toNat_inj.mp
  have hi : i.toNat < 2 ^ 32 := i.toNat_lt
  rw [UInt64.toNat_shiftRight, toNat_packedOptical h]
  simp [Nat.shiftRight_eq_div_pow]
  omega

theorem opticalImageId_packed {d : UInt64} {i : UInt32} (h : ¬ d > 0xFFFFFFFF) :
    (((d <<< 32) ||| i.toUInt64) &&& 0xFFFFFFFF).toUInt32 = i := by
  apply UInt32.toNat_inj.mp
  have hi : i.toNat < 2 ^ 32 := i.toNat_lt
  have hmask : ((0xFFFFFFFF : UInt64)).toNat = 2 ^ 32 - 1 := by decide
  rw [UInt64.toNat_toUInt32, UInt64.toNat_and, toNat_packedOptical h, hmask, Nat.and_two_pow_sub_one_eq_mod]
  omega

theorem normalizeBlockSize_idem (b : UInt32) :
    normalizeBlockSize (normalizeBlockSize b) = normalizeBlockSize b := by
  by_cases h : b = 0
  · subst h
    decide
  · simp [normalizeBlockSize, h]

theorem normalizeBlocks512_idem (blocks size : UInt64) :
    normalizeBlocks512 (normalizeBlocks512 blocks size) size = normalizeBlocks512 blocks size := by
  by_cases h : blocks = 0
  · simp [normalizeBlocks512, h]
  · simp [normalizeBlocks512, h]

/-- Expanding the packed location of a laid out record and reading its archive
    copy gives the location fields its tier keeps. -/
theorem expanded_layoutRecord {r : UnifiedInodeRecord} (hr : Encodable r) :
    readArchiveLocation (layoutRecord (packedForm r))
        (expandPackedLocation (readRecord (layoutRecord (packedForm r)))) = storedForm r := by
  have hname : (packedForm r).fileName.length ≤ kFileNameSize := hr.fileName
  have hread := readRecord_layoutRecord hname rfl hr.objectUnitSize hr.replica
  rcases isValidStorageTier_cases hr.storageTier with hdisk | hopt | hnone
  · rw [hread, readArchiveLocation_layoutRecord hname]
    · by_cases himage : r.opticalImageId = 0
      · simp [expandPackedLocation, packedForm, storedForm, storedForm.keepsOptical, hdisk, himage]
      · simp [expandPackedLocation, packedForm, storedForm, storedForm.keepsOptical, hdisk, himage]
    · simp [expandPackedLocation, packedForm, storedForm, hdisk]
  · rw [hread, readArchiveLocation_layoutRecord hname]
    · have hid := hr.opticalDiskId hopt
      simp [expandPackedLocation, packedForm, storedForm, storedForm.keepsOptical, hopt,
        opticalDiskId_packed hid, opticalImageId_packed hid]
    · simp [expandPackedLocation, packedForm, storedForm, hopt]
  · rw [hread, readArchiveLocation_layoutRecord hname]
    · simp [expandPackedLocation, packedForm, storedForm, storedForm.keepsOptical, hnone]
    · simp [expandPackedLocation, packedForm, storedForm, hnone]

/-- Every payload the encoder produces decodes to the stored form of the record. -/
theorem decode_encode {r : UnifiedInodeRecord} {b : Bytes}
    (h : encodeUnifiedInodeRecord r = .ok b) :
    decodeUnifiedInodeRecord b = .ok (storedForm r) := by
  obtain ⟨hr, rfl⟩ := encode_eq_ok_iff.mp h
  have hname : (packedForm r).fileName.length ≤ kFileNameSize := hr.fileName
  have hversion : readU8 (layoutRecord (packedForm r)) kVersionOffset = kVersion :=
    readU8_layoutRecord hname 0 rfl (by decide)
  have htype : readU8 (layoutRecord (packedForm r)) kInodeTypeOffset = r.inodeType :=
    readU8_layoutRecord hname 1 rfl (by decide)
  have htier : readU8 (layoutRecord (packedForm r)) kStorageTierOffset = r.storageTier :=
    readU8_layoutRecord hname 2 rfl (by decide)
  have hformat : isValidLocationFormat
      (readU8 (layoutRecord (packedForm r)) kLocationFormatOffset) = true := by
    rw [readU8_layoutRecord hname 5 rfl (by decide)]
    simp only [packedForm, storedForm]
    split
    · rfl
    · split <;> rfl
  have hstate : readU32 (layoutRecord (packedForm r)) kFileArchiveStateOffset =
      r.fileArchiveState := readU32_layoutRecord hname 19 rfl (by decide)
  have hnameLen : ¬ (readU8 (layoutRecord (packedForm r)) kFileNameLenOffset).toNat >
      kFileNameSize := by
    rw [readU8_layoutRecord hname 4 rfl (by decide)]
    have hle := hr.fileName
    simp only [packedForm, storedForm, kFileNameSize] at hle ⊢
    simp
    omega
  have hexp := expanded_layoutRecord hr
  simp only [decodeUnifiedInodeRecord, decodeV3UnifiedInodeRecord, length_layoutRecord, hversion,
    htype, htier, hformat, hstate, hnameLen, hr.inodeType, hr.storageTier, hr.fileArchiveState,
    hexp]
  simp [fillDerivedPosixFields, storedForm, normalizeBlockSize_idem, normalizeBlocks512_idem]

end Zb.Mds
