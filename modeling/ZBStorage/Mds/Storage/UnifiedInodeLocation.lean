-- SUMMARY: Conversions between unified inode records, inode attributes and the disk and optical locations they pack.
import Mathlib.Data.List.Infix
import ZBStorage.Mds.Storage.UnifiedInodeRecord

/-!
# Attributes and locations of unified records

`UnifiedInodeLocation.h` and the attribute conversions of
`UnifiedInodeRecord.cpp`. A location names its node and disk by strings; a
record keeps only the number at the end of each and a flag for virtual nodes.
-/

namespace Zb.Mds

open Zb.Rpc Bytes

def kUnifiedFlagVirtualDiskNode : UInt8 := 0x01

/-! ## Node and disk names -/

/-- The decimal number at the end of `text`, unless there is none or it does not
    fit, in which case `std::stoull` throws. -/
def tryParseTrailingUint64 (text : Bytes) : Option UInt64 :=
  let digits := text.rtakeWhile isDigit
  if digits = [] then none
  else if digitsValue digits < 2 ^ 64 then some (UInt64.ofNat (digitsValue digits))
  else none

def tryParseTrailingUint32 (text : Bytes) : Option UInt32 :=
  match tryParseTrailingUint64 text with
  | none => none
  | some parsed => if parsed > 0xFFFFFFFF then none else some parsed.toUInt32

def isVirtualDiskNodeId (nodeId : Bytes) : Bool := decide (ofAscii "-v" <:+: nodeId)

/-- `std::setw(2)` with `std::setfill('0')`. -/
def twoDigits (n : Nat) : Bytes := if n < 10 then ofAscii "0" ++ decimal n else decimal n

def formatRealNodeId (numericId : UInt64) : Bytes :=
  ofAscii "node-real-" ++ twoDigits numericId.toNat

def formatVirtualNodeId (numericId : UInt64) : Bytes := ofAscii "vpool-v" ++ decimal numericId.toNat

def formatDiskIdForTier (numericId : UInt32) (isVirtual : Bool) : Bytes :=
  if isVirtual then ofAscii "disk" ++ decimal numericId.toNat
  else ofAscii "disk-" ++ twoDigits numericId.toNat

def formatOpticalNodeId (numericId : UInt64) : Bytes :=
  ofAscii "optical-node-" ++ decimal numericId.toNat

def formatOpticalDiskId (numericId : UInt64) : Bytes := ofAscii "disk-" ++ decimal numericId.toNat

def formatOpticalImageId (nodeId diskId : UInt64) (imageId : UInt32) : Bytes :=
  ofAscii "img-" ++ decimal nodeId.toNat ++ ofAscii "-" ++ decimal diskId.toNat ++ ofAscii "-" ++
    decimal imageId.toNat

/-! ## Attributes -/

def toProtoStorageTier (storageTier : UInt8) : InodeStorageTier :=
  if storageTier = UnifiedStorageTier.kDisk then .disk
  else if storageTier = UnifiedStorageTier.kOptical then .optical
  else .none

theorem toProtoStorageTier_optical {tier : UInt8} :
    toProtoStorageTier tier = .optical ↔ tier = UnifiedStorageTier.kOptical := by
  rw [toProtoStorageTier]
  split
  · rename_i hdisk
    rw [hdisk]
    decide
  · split
    · rename_i hoptical
      exact iff_of_true rfl hoptical
    · rename_i hother
      exact iff_of_false (by decide) hother

def toUnifiedStorageTier : InodeStorageTier → UInt8
  | .disk => UnifiedStorageTier.kDisk
  | .optical => UnifiedStorageTier.kOptical
  | _ => UnifiedStorageTier.kNone

def unifiedInodeRecordToAttr (r : UnifiedInodeRecord) : InodeAttr :=
  let isDisk := r.storageTier = UnifiedStorageTier.kDisk
  let isOptical := r.storageTier = UnifiedStorageTier.kOptical
  { inodeId := r.inodeId
    type := .ofUInt32 r.inodeType.toUInt32
    mode := r.mode
    uid := r.uid
    gid := r.gid
    size := r.sizeBytes
    atime := r.atime
    mtime := r.mtime
    ctime := r.ctime
    nlink := r.nlink
    blksize := r.blksize
    blocks512 := r.blocks512
    rdevMajor := r.rdevMajor
    rdevMinor := r.rdevMinor
    objectUnitSize := r.objectUnitSize
    replica := r.replica
    version := r.versionNo
    fileArchiveState := .ofUInt32 r.fileArchiveState
    fileName := r.fileName
    storageTier := toProtoStorageTier r.storageTier
    diskNodeId := if isDisk then r.diskNodeId else 0
    diskId := if isDisk then r.diskId else 0
    diskNodeIsVirtual := if isDisk then r.flags &&& kUnifiedFlagVirtualDiskNode ≠ 0 else false
    opticalNodeId := if isDisk ∨ isOptical then r.opticalNodeId else 0
    opticalDiskId := if isDisk ∨ isOptical then r.opticalDiskId else 0
    opticalImageId := if isDisk ∨ isOptical then r.opticalImageId else 0 }

def attrToUnifiedInodeRecord (attr : InodeAttr) (parentInodeId : UInt64) (storageTier : UInt8) :
    Except String UnifiedInodeRecord :=
  if !isValidInodeType attr.type.toUInt32.toUInt8 then .error "invalid attr.type"
  else if attr.fileName.length > kFileNameSize then .error "attr.file_name exceeds 64 bytes"
  else if attr.objectUnitSize > 0xFFFFFFFF then .error "attr.object_unit_size exceeds v3 range"
  else if attr.replica > 0xFFFF then .error "attr.replica exceeds v3 range"
  else if attr.opticalDiskId > 0xFFFFFFFF then
    .error "attr.optical_disk_id exceeds packed v3 range"
  else
    let tier :=
      if attr.storageTier = .none then storageTier else toUnifiedStorageTier attr.storageTier
    let isDisk := tier = UnifiedStorageTier.kDisk
    let isOptical := tier = UnifiedStorageTier.kOptical
    let out : UnifiedInodeRecord :=
      { version := kVersion
        inodeType := attr.type.toUInt32.toUInt8
        storageTier := tier
        inodeId := attr.inodeId
        parentInodeId := parentInodeId
        sizeBytes := attr.size
        atime := attr.atime
        mtime := attr.mtime
        ctime := attr.ctime
        versionNo := attr.version
        mode := attr.mode
        uid := attr.uid
        gid := attr.gid
        nlink := attr.nlink
        blksize := attr.blksize
        fileArchiveState := attr.fileArchiveState.toUInt32
        blocks512 := attr.blocks512
        rdevMajor := attr.rdevMajor
        rdevMinor := attr.rdevMinor
        objectUnitSize := attr.objectUnitSize
        replica := attr.replica
        fileName := attr.fileName
        fileNameLen := UInt16.ofNat attr.fileName.length
        -- the location fields that the tier does not use are cleared
        diskNodeId := if isDisk then attr.diskNodeId else 0
        diskId := if isDisk then attr.diskId else 0
        flags := if isDisk ∧ attr.diskNodeIsVirtual then kUnifiedFlagVirtualDiskNode else 0
        opticalNodeId := if isOptical then attr.opticalNodeId else 0
        opticalDiskId := if isOptical then attr.opticalDiskId else 0
        opticalImageId := if isOptical then attr.opticalImageId else 0 }
    normalizePackedLocation (fillDerivedPosixFields out true)

/-- Packing the location touches only the packed fields. -/
theorem normalizePackedLocation_frame {r r' : UnifiedInodeRecord}
    (h : normalizePackedLocation r = .ok r') :
    ∃ format loc0 loc1,
      r' = { r with locationFormat := format, storageLoc0 := loc0, storageLoc1 := loc1 } := by
  simp only [normalizePackedLocation] at h
  split at h
  · cases h
    exact ⟨_, _, _, rfl⟩
  · split at h
    · split at h
      · cases h
      · cases h
        exact ⟨_, _, _, rfl⟩
    · cases h
      exact ⟨_, _, _, rfl⟩

/-- The fields of a new record that do not depend on its location. -/
theorem attrToUnifiedInodeRecord_ok {attr : InodeAttr} {parent : UInt64} {tier : UInt8}
    {r : UnifiedInodeRecord} (h : attrToUnifiedInodeRecord attr parent tier = .ok r) :
    r.parentInodeId = parent ∧ r.fileName = attr.fileName ∧
      r.inodeType = attr.type.toUInt32.toUInt8 ∧ r.versionNo = attr.version ∧
      r.fileArchiveState = attr.fileArchiveState.toUInt32 ∧
      r.sizeBytes = normalizeDirectorySize r.inodeType attr.size ∧
      r.storageTier =
        if attr.storageTier = .none then tier else toUnifiedStorageTier attr.storageTier := by
  unfold attrToUnifiedInodeRecord at h
  split at h
  · cases h
  split at h
  · cases h
  split at h
  · cases h
  split at h
  · cases h
  split at h
  · cases h
  obtain ⟨_, _, _, rfl⟩ := normalizePackedLocation_frame h
  exact ⟨rfl, rfl, rfl, rfl, rfl, rfl, rfl⟩

/-- Overwrites the attribute fields of a record and leaves its parent and its
    location alone. An empty name keeps the stored one. -/
def applyAttrToUnifiedRecord (attr : InodeAttr) (record : UnifiedInodeRecord) :
    UnifiedInodeRecord :=
  let named := attr.fileName ≠ [] ∨ record.fileName = []
  { record with
    version := kVersion
    inodeType := attr.type.toUInt32.toUInt8
    inodeId := attr.inodeId
    sizeBytes := attr.size
    atime := attr.atime
    mtime := attr.mtime
    ctime := attr.ctime
    versionNo := attr.version
    blksize := attr.blksize
    blocks512 := attr.blocks512
    rdevMajor := attr.rdevMajor
    rdevMinor := attr.rdevMinor
    objectUnitSize := attr.objectUnitSize
    mode := attr.mode
    uid := attr.uid
    gid := attr.gid
    nlink := attr.nlink
    replica := attr.replica
    fileArchiveState := attr.fileArchiveState.toUInt32
    fileName := if named then attr.fileName else record.fileName
    fileNameLen := if named then UInt16.ofNat attr.fileName.length else record.fileNameLen }

/-! ## Locations -/

def clearDiskLocationInUnifiedRecord (r : UnifiedInodeRecord) : UnifiedInodeRecord :=
  let packedDisk := r.locationFormat = UnifiedLocationFormat.kDisk
  { r with
    diskNodeId := 0
    diskId := 0
    locationFormat := if packedDisk then UnifiedLocationFormat.kNone else r.locationFormat
    storageLoc0 := if packedDisk then 0 else r.storageLoc0
    storageLoc1 := if packedDisk then 0 else r.storageLoc1
    flags := r.flags &&& ~~~kUnifiedFlagVirtualDiskNode }

def clearOpticalLocationInUnifiedRecord (r : UnifiedInodeRecord) : UnifiedInodeRecord :=
  let packedOptical := r.locationFormat = UnifiedLocationFormat.kOpticalPacked
  { r with
    opticalNodeId := 0
    opticalDiskId := 0
    opticalImageId := 0
    locationFormat := if packedOptical then UnifiedLocationFormat.kNone else r.locationFormat
    storageLoc0 := if packedOptical then 0 else r.storageLoc0
    storageLoc1 := if packedOptical then 0 else r.storageLoc1 }

def applyDiskLocationToUnifiedRecord (location : DiskFileLocation) (r : UnifiedInodeRecord) :
    UnifiedInodeRecord :=
  let r := { r with storageTier := UnifiedStorageTier.kDisk }
  let r := clearDiskLocationInUnifiedRecord (clearOpticalLocationInUnifiedRecord r)
  -- both fields were just cleared, and a failed parse leaves them so
  let diskNodeId := (tryParseTrailingUint64 location.nodeId).getD r.diskNodeId
  let diskId := (tryParseTrailingUint32 location.diskId).getD r.diskId
  { r with
    flags :=
      if isVirtualDiskNodeId location.nodeId then r.flags ||| kUnifiedFlagVirtualDiskNode
      else r.flags
    diskNodeId := diskNodeId
    diskId := diskId
    locationFormat := UnifiedLocationFormat.kDisk
    storageLoc0 := diskNodeId
    storageLoc1 := diskId.toUInt64 }

/-- Unlike its disk counterpart it does not clear the fields it then parses into,
    so a name without a number keeps the number of an earlier archive copy. -/
def applyOpticalLocationToUnifiedRecord (location : OpticalFileLocation) (r : UnifiedInodeRecord) :
    UnifiedInodeRecord :=
  let r := { r with storageTier := UnifiedStorageTier.kOptical }
  let r := clearDiskLocationInUnifiedRecord r
  let opticalNodeId := (tryParseTrailingUint64 location.nodeId).getD r.opticalNodeId
  let opticalDiskId := (tryParseTrailingUint64 location.diskId).getD r.opticalDiskId
  let opticalImageId := (tryParseTrailingUint32 location.imageId).getD r.opticalImageId
  { r with
    opticalNodeId := opticalNodeId
    opticalDiskId := opticalDiskId
    opticalImageId := opticalImageId
    locationFormat := UnifiedLocationFormat.kOpticalPacked
    storageLoc0 := opticalNodeId
    storageLoc1 := (opticalDiskId <<< 32) ||| opticalImageId.toUInt64 }

def populateDiskFileLocationFromInodeAttr (attr : InodeAttr) : Option DiskFileLocation :=
  if attr.storageTier ≠ .disk then none
  else if !attr.diskNodeIsVirtual ∧ attr.diskNodeId = 0 then none
  else some
    { nodeId :=
        if attr.diskNodeIsVirtual then formatVirtualNodeId attr.diskNodeId
        else formatRealNodeId attr.diskNodeId
      diskId := formatDiskIdForTier attr.diskId attr.diskNodeIsVirtual }

def populateOpticalFileLocationFromInodeAttr (attr : InodeAttr) (inodeId : UInt64) :
    Option OpticalFileLocation :=
  if inodeId = 0 ∨ attr.storageTier ≠ .optical ∨ attr.opticalNodeId = 0 then none
  else some
    { nodeId := formatOpticalNodeId attr.opticalNodeId
      diskId := formatOpticalDiskId attr.opticalDiskId
      imageId := formatOpticalImageId attr.opticalNodeId attr.opticalDiskId attr.opticalImageId
      fileId := ofAscii "obj-" ++ decimal inodeId.toNat ++ ofAscii "-0" }

end Zb.Mds
