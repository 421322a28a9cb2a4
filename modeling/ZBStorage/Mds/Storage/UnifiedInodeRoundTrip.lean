-- SUMMARY: What a unified inode record is after it was encoded and decoded.
import ZBStorage.Mds.Storage.UnifiedInodeRecord

/-!
# The round trip of a unified record

The encoder fills in derived fields and derives the packed location from the fields
of the tier; the decoder expands it again. What a record carries beside the fields of
its tier is not stored. The archive copy of a disk record is stored if it names an
image.
-/

namespace Zb.Mds

open Zb.Rpc Bytes

/-- `decoded` is what the store makes of `r`: nothing but the derived fields and the
    location of the tier. -/
structure Normalised (r decoded : UnifiedInodeRecord) : Prop where
  frame : decoded = { r with
    version := decoded.version
    sizeBytes := decoded.sizeBytes
    blksize := decoded.blksize
    blocks512 := decoded.blocks512
    fileNameLen := decoded.fileNameLen
    locationFormat := decoded.locationFormat
    storageLoc0 := decoded.storageLoc0
    storageLoc1 := decoded.storageLoc1
    diskNodeId := decoded.diskNodeId
    diskId := decoded.diskId
    opticalNodeId := decoded.opticalNodeId
    opticalDiskId := decoded.opticalDiskId
    opticalImageId := decoded.opticalImageId }
  version : decoded.version = kVersion
  sizeBytes : decoded.sizeBytes = if r.inodeType = 1 ∧ r.sizeBytes = 0 then 4096 else r.sizeBytes
  blksize : decoded.blksize = if r.blksize = 0 then 4096 else r.blksize
  blocks512 : r.blocks512 ≠ 0 → decoded.blocks512 = r.blocks512
  blocks512_zero : r.blocks512 = 0 → decoded.sizeBytes.toNat + 511 < 2 ^ 64 →
    decoded.blocks512.toNat = (decoded.sizeBytes.toNat + 511) / 512
  fileNameLen : decoded.fileNameLen.toNat = r.fileName.length
  disk : r.storageTier = UnifiedStorageTier.kDisk →
    decoded.diskNodeId = r.diskNodeId ∧ decoded.diskId = r.diskId ∧
      decoded.opticalNodeId = (if r.opticalImageId = 0 then 0 else r.opticalNodeId) ∧
      decoded.opticalDiskId = (if r.opticalImageId = 0 then 0 else r.opticalDiskId) ∧
      decoded.opticalImageId = r.opticalImageId ∧
      decoded.locationFormat = UnifiedLocationFormat.kDisk ∧
      decoded.storageLoc0 = r.diskNodeId ∧ decoded.storageLoc1 = r.diskId.toUInt64
  optical : r.storageTier = UnifiedStorageTier.kOptical →
    decoded.diskNodeId = 0 ∧ decoded.diskId = 0 ∧
      decoded.opticalNodeId = r.opticalNodeId ∧ decoded.opticalDiskId = r.opticalDiskId ∧
      decoded.opticalImageId = r.opticalImageId ∧
      decoded.locationFormat = UnifiedLocationFormat.kOpticalPacked ∧
      decoded.storageLoc0 = r.opticalNodeId ∧
      decoded.storageLoc1 = (r.opticalDiskId <<< 32) ||| r.opticalImageId.toUInt64
  none : r.storageTier = UnifiedStorageTier.kNone →
    decoded.diskNodeId = 0 ∧ decoded.diskId = 0 ∧
      decoded.opticalNodeId = 0 ∧ decoded.opticalDiskId = 0 ∧ decoded.opticalImageId = 0 ∧
      decoded.locationFormat = UnifiedLocationFormat.kNone ∧
      decoded.storageLoc0 = 0 ∧ decoded.storageLoc1 = 0

/-! ## The stored form -/

/-- Without overflow the blocks are those that the size needs. -/
theorem toNat_ceilDiv {size : UInt64} (h : size.toNat + 511 < 2 ^ 64) :
    (ceilDiv size kBlocksUnitBytes).toNat = (size.toNat + 511) / 512 := by
  have hunit : kBlocksUnitBytes.toNat = 512 := rfl
  have hdiff : (size + kBlocksUnitBytes - 1).toNat = size.toNat + 511 := by
    rw [UInt64.toNat_sub, UInt64.toNat_add, hunit, UInt64.toNat_one]
    omega
  rw [ceilDiv, if_neg (by decide), UInt64.toNat_div, hdiff, hunit]

theorem keepsOptical_disk {r : UnifiedInodeRecord} (h : r.storageTier = UnifiedStorageTier.kDisk) :
    storedForm.keepsOptical r = (r.opticalImageId != 0) := by
  simp only [storedForm.keepsOptical, h]
  rfl

theorem keepsOptical_optical {r : UnifiedInodeRecord}
    (h : r.storageTier = UnifiedStorageTier.kOptical) : storedForm.keepsOptical r = true := by
  simp only [storedForm.keepsOptical, h]
  rfl

theorem keepsOptical_none {r : UnifiedInodeRecord} (h : r.storageTier = UnifiedStorageTier.kNone) :
    storedForm.keepsOptical r = false := by
  simp only [storedForm.keepsOptical, h]
  rfl

theorem Encodable.normalised {r : UnifiedInodeRecord} (hr : Encodable r) :
    Normalised r (storedForm r) where
  frame := rfl
  version := rfl
  sizeBytes := rfl
  blksize := rfl
  blocks512 hne := if_pos hne
  blocks512_zero hzero hlt := by
    have hblocks : (storedForm r).blocks512 = ceilDiv (storedForm r).sizeBytes kBlocksUnitBytes :=
      if_neg (not_not.mpr hzero)
    rw [hblocks]
    exact toNat_ceilDiv hlt
  fileNameLen := by
    have hle := hr.fileName
    rw [kFileNameSize] at hle
    exact UInt16.toNat_ofNat_of_lt' (Nat.lt_of_le_of_lt hle (by decide))
  disk hdisk := by
    by_cases himage : r.opticalImageId = 0
    · simp [storedForm, keepsOptical_disk hdisk, hdisk, himage]
    · simp [storedForm, keepsOptical_disk hdisk, hdisk, himage]
  optical hoptical := by
    simp [storedForm, keepsOptical_optical hoptical, hoptical]
  none hnone := by
    simp [storedForm, keepsOptical_none hnone, hnone]

/-! ## Encoding again -/

theorem normalizeDirectorySize_idem (inodeType : UInt8) (size : UInt64) :
    normalizeDirectorySize inodeType (normalizeDirectorySize inodeType size) =
      normalizeDirectorySize inodeType size := by
  by_cases h : inodeType = 1 ∧ size = 0
  · rw [normalizeDirectorySize, normalizeDirectorySize, if_pos h]
    exact if_neg fun hzero => absurd hzero.2 (by decide)
  · rw [normalizeDirectorySize, normalizeDirectorySize, if_neg h, if_neg h]

/-- What is stored is stored as it is. -/
theorem storedForm_idem (r : UnifiedInodeRecord)
    (htier : isValidStorageTier r.storageTier = true) :
    storedForm (storedForm r) = storedForm r := by
  have hsize := normalizeDirectorySize_idem r.inodeType r.sizeBytes
  have hblksize := normalizeBlockSize_idem r.blksize
  have hblocks := normalizeBlocks512_idem r.blocks512
    (normalizeDirectorySize r.inodeType r.sizeBytes)
  rcases isValidStorageTier_cases htier with hdisk | hoptical | hnone
  · by_cases himage : r.opticalImageId = 0
    · simp [storedForm, storedForm.keepsOptical, hdisk, himage, hsize, hblksize, hblocks]
    · simp [storedForm, storedForm.keepsOptical, hdisk, himage, hsize, hblksize, hblocks]
  · simp [storedForm, storedForm.keepsOptical, hoptical, hsize, hblksize, hblocks]
  · simp [storedForm, storedForm.keepsOptical, hnone, hsize, hblksize, hblocks]

theorem Encodable.storedForm {r : UnifiedInodeRecord} (hr : Encodable r) :
    Encodable (storedForm r) where
  inodeType := hr.inodeType
  storageTier := hr.storageTier
  fileArchiveState := hr.fileArchiveState
  fileName := hr.fileName
  objectUnitSize := hr.objectUnitSize
  replica := hr.replica
  opticalDiskId hoptical := by
    have hkept := (hr.normalised.optical hoptical).2.2.2.1
    rw [hkept]
    exact hr.opticalDiskId hoptical

/-- The laid out bytes do not depend on location fields that are not stored. -/
theorem layoutRecord_packedForm {r : UnifiedInodeRecord} (hr : Encodable r) :
    layoutRecord (packedForm (storedForm r)) = layoutRecord (packedForm r) := by
  have hidem := storedForm_idem r hr.storageTier
  have harchive : archiveFields (packedForm (storedForm r)) = archiveFields (packedForm r) := by
    rcases isValidStorageTier_cases hr.storageTier with hdisk | hoptical | hnone
    · by_cases himage : r.opticalImageId = 0
      · simp [archiveFields, packedForm, storedForm, storedForm.keepsOptical, hdisk, himage]
      · simp [archiveFields, packedForm, storedForm, storedForm.keepsOptical, hdisk, himage]
    · simp [archiveFields, packedForm, storedForm, hoptical]
    · simp [archiveFields, packedForm, storedForm, hnone]
  have hfields : recordFields (packedForm (storedForm r)) = recordFields (packedForm r) := by
    rw [recordFields, recordFields, harchive]
    simp only [packedForm, hidem]
  rw [layoutRecord, layoutRecord, hfields]

theorem encode_storedForm {r : UnifiedInodeRecord} {payload : Bytes}
    (h : encodeUnifiedInodeRecord r = .ok payload) :
    encodeUnifiedInodeRecord (storedForm r) = .ok payload := by
  obtain ⟨hr, rfl⟩ := encode_eq_ok_iff.mp h
  exact encode_eq_ok_iff.mpr ⟨hr.storedForm, (layoutRecord_packedForm hr).symm⟩

/-- Whatever is encoded decodes to its normal form, which encodes to the same bytes. -/
theorem record_round_trip {r : UnifiedInodeRecord} {payload : Bytes}
    (h : encodeUnifiedInodeRecord r = .ok payload) :
    ∃ decoded, decodeUnifiedInodeRecord payload = .ok decoded ∧ Normalised r decoded ∧
      encodeUnifiedInodeRecord decoded = .ok payload :=
  ⟨storedForm r, decode_encode h, (encode_eq_ok_iff.mp h).1.normalised, encode_storedForm h⟩

/-- A file on a disk with a copy in an image. -/
def archivedDiskRecord : UnifiedInodeRecord where
  inodeType := 0
  storageTier := UnifiedStorageTier.kDisk
  inodeId := 7
  sizeBytes := 513
  diskNodeId := 3
  diskId := 1
  opticalNodeId := 5
  opticalDiskId := 6
  opticalImageId := 8
  fileName := ofAscii "f"

theorem record_round_trip_archived :
    ∃ decoded, decodeUnifiedInodeRecord (layoutRecord (packedForm archivedDiskRecord)) =
      .ok decoded ∧ Normalised archivedDiskRecord decoded ∧
      encodeUnifiedInodeRecord decoded = .ok (layoutRecord (packedForm archivedDiskRecord)) :=
  record_round_trip (encode_eq_ok_iff.mpr ⟨by
    constructor <;> decide, rfl⟩)

/-- Without an image id the node and the disk of the archive copy are dropped. -/
theorem archive_location_dropped :
    ¬∀ r payload decoded, encodeUnifiedInodeRecord r = .ok payload →
      decodeUnifiedInodeRecord payload = .ok decoded →
      r.storageTier = UnifiedStorageTier.kDisk →
      decoded.opticalNodeId = r.opticalNodeId ∧ decoded.opticalDiskId = r.opticalDiskId ∧
        decoded.opticalImageId = r.opticalImageId := by
  intro h
  have hencoded : encodeUnifiedInodeRecord { archivedDiskRecord with opticalImageId := 0 } =
      .ok (layoutRecord (packedForm { archivedDiskRecord with opticalImageId := 0 })) :=
    encode_eq_ok_iff.mpr ⟨by constructor <;> decide, rfl⟩
  have hdropped := (h _ _ _ hencoded (decode_encode hencoded) rfl).1
  exact absurd hdropped (by decide)

end Zb.Mds
