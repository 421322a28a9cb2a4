-- SUMMARY: The format of volume images: the head and the file records, written and read back.
import ZBStorage.Lib.ByteReader

/-!
# The volume format

An image begins with a head of fixed size. The records of its files stand one behind
another at the offset that the head names, and the compressed files behind them. A record
has a fixed part and two strings, each behind its length. The reader of strings keeps its
offset in 32 bits, and so the end of a string that it compares with the input.
-/

namespace Zb.OpticalNode.Volumes

open Bytes

inductive ErrorCode
  | success
  | fileNotFound
  | invalidPath
  | volumeFull
  | volumeNotFound
  | invalidVolumeFormat
  | inodeNotFound
  | serializationError
  | ioError
  | invalidVolumeId
  | invalidParameter
  deriving DecidableEq, Repr

def kMagicNumber : UInt64 := 0x56494D47
def kCurrentVersion : UInt32 := 2
def kInvalidVolumeId : UInt64 := 0
def kVolumeMetadataSize : Nat := 8 + 4 + 8 + 8 + 8 + 8 + 8 + 8 + 8 + 8 + 4
def kFileMetadataFixedSize : Nat := 8 + 8 + 8 + 8 + 8 + 4 + 8 + 1 + 1

structure VolumeMetadata where
  magicNumber : UInt64 := kMagicNumber
  version : UInt32 := kCurrentVersion
  volumeId : UInt64 := kInvalidVolumeId
  volumeSize : UInt64 := 0
  metadataOffset : UInt64 := 0
  metadataSize : UInt64 := 0
  directoryOffset : UInt64 := 0
  directorySize : UInt64 := 0
  userDataOffset : UInt64 := 0
  userDataSize : UInt64 := 0
  fileCount : UInt32 := 0
  deriving DecidableEq, Repr

/-- The modification time is the bit pattern of a `time_t`. -/
structure FileMetadata where
  inodeId : UInt64 := 0
  fileSize : UInt64 := 0
  compressedSize : UInt64 := 0
  volumeId : UInt64 := kInvalidVolumeId
  offsetInVolume : UInt64 := 0
  fileName : Bytes := []
  compressedFileName : Bytes := []
  fileMode : UInt32 := 0
  lastModified : UInt64 := 0
  isDirectory : Bool := false
  isCompressed : Bool := false
  deriving DecidableEq, Repr

/-! ## The head -/

def serializeVolumeMetadata (metadata : VolumeMetadata) : Bytes :=
  List.flatten
    [putU64 metadata.magicNumber, putU32 metadata.version, putU64 metadata.volumeId,
      putU64 metadata.volumeSize, putU64 metadata.metadataOffset, putU64 metadata.metadataSize,
      putU64 metadata.directoryOffset, putU64 metadata.directorySize,
      putU64 metadata.userDataOffset, putU64 metadata.userDataSize, putU32 metadata.fileCount]

def nextVolumeMetadata : Reader VolumeMetadata := do
  let magicNumber ← nextU64
  let version ← nextU32
  let volumeId ← nextU64
  let volumeSize ← nextU64
  let metadataOffset ← nextU64
  let metadataSize ← nextU64
  let directoryOffset ← nextU64
  let directorySize ← nextU64
  let userDataOffset ← nextU64
  let userDataSize ← nextU64
  let fileCount ← nextU32
  return {
    magicNumber, version, volumeId, volumeSize, metadataOffset, metadataSize, directoryOffset,
    directorySize, userDataOffset, userDataSize, fileCount }

/-- `none` is an input shorter than a head. -/
def deserializeVolumeMetadata (input : Bytes) : Option VolumeMetadata :=
  (nextVolumeMetadata input).map (·.1)

/-- The ends of the regions are sums of 64-bit numbers and may wrap. -/
def validateVolumeMetadata (metadata : VolumeMetadata) : Bool :=
  metadata.magicNumber = kMagicNumber && metadata.version = kCurrentVersion &&
    metadata.volumeId ≠ kInvalidVolumeId && kVolumeMetadataSize ≤ metadata.metadataOffset.toNat &&
    metadata.metadataOffset + metadata.metadataSize ≤ metadata.directoryOffset &&
    metadata.directoryOffset + metadata.directorySize ≤ metadata.userDataOffset &&
    metadata.userDataOffset ≤ metadata.volumeSize &&
    metadata.userDataSize ≤ metadata.volumeSize - metadata.userDataOffset

@[simp] theorem length_serializeVolumeMetadata (metadata : VolumeMetadata) :
    (serializeVolumeMetadata metadata).length = kVolumeMetadataSize := by
  simp [serializeVolumeMetadata, kVolumeMetadataSize]

theorem reads_volumeMetadata (metadata : VolumeMetadata) :
    Reads nextVolumeMetadata (serializeVolumeMetadata metadata) metadata :=
  (reads_u64 _).bind <| (reads_u32 _).bind <| (reads_u64 _).bind <| (reads_u64 _).bind <|
    (reads_u64 _).bind <| (reads_u64 _).bind <| (reads_u64 _).bind <| (reads_u64 _).bind <|
    (reads_u64 _).bind <| (reads_u64 _).bind <| (reads_u32 _).bind <| Reads.pure metadata

theorem takes_volumeMetadata : Takes nextVolumeMetadata kVolumeMetadataSize :=
  takes_u64.bind fun _ => takes_u32.bind fun _ => takes_u64.bind fun _ => takes_u64.bind fun _ =>
    takes_u64.bind fun _ => takes_u64.bind fun _ => takes_u64.bind fun _ => takes_u64.bind fun _ =>
    takes_u64.bind fun _ => takes_u64.bind fun _ => takes_u32.bind fun _ => takes_pure _

theorem deserializeVolumeMetadata_serialize (metadata : VolumeMetadata) :
    deserializeVolumeMetadata (serializeVolumeMetadata metadata) = some metadata := by
  have hread := reads_volumeMetadata metadata []
  rw [List.append_nil] at hread
  rw [deserializeVolumeMetadata, hread]
  rfl

/-! ## The records -/

/-- The length is written in 32 bits. -/
def writeString (str : Bytes) : Bytes := putString str

def flagByte (flag : Bool) : UInt8 := if flag then 1 else 0

def serializeFixedPart (metadata : FileMetadata) : Bytes :=
  List.flatten
    [putU64 metadata.inodeId, putU64 metadata.fileSize, putU64 metadata.compressedSize,
      putU64 metadata.volumeId, putU64 metadata.offsetInVolume, putU32 metadata.fileMode,
      putU64 metadata.lastModified, putU8 (flagByte metadata.isDirectory),
      putU8 (flagByte metadata.isCompressed)]

def serializeFileMetadata (metadata : FileMetadata) : Bytes :=
  serializeFixedPart metadata ++
    (writeString metadata.fileName ++ writeString metadata.compressedFileName)

def nextFixedPart : Reader FileMetadata := do
  let inodeId ← nextU64
  let fileSize ← nextU64
  let compressedSize ← nextU64
  let volumeId ← nextU64
  let offsetInVolume ← nextU64
  let fileMode ← nextU32
  let lastModified ← nextU64
  let isDirectory ← nextU8
  let isCompressed ← nextU8
  return {
    inodeId, fileSize, compressedSize, volumeId, offsetInVolume, fileMode, lastModified,
    isDirectory := isDirectory != 0, isCompressed := isCompressed != 0 }

/-- What a reader makes of an input: it refuses, reads past the end of the input, or gives a
    value and the offset behind it. -/
inductive Extent (α : Type)
  | refused
  | beyond
  | read (value : α) (offset : UInt32)
  deriving DecidableEq, Repr

/-- The first check is made in the size of the machine, the second in 32 bits. -/
def readString (input : Bytes) (offset : UInt32) : Extent Bytes :=
  if input.length < offset.toNat + 4 then .refused
  else
    let length := readU32 input offset.toNat
    let offset := offset + 4
    if input.length < (offset + length).toNat then .refused
    else if input.length < offset.toNat + length.toNat then .beyond
    else .read (slice input offset.toNat length.toNat) (offset + length)

def deserializeFileMetadata (input : Bytes) : Extent FileMetadata :=
  match nextFixedPart input with
  | none => .refused
  | some (fixed, _) =>
      match readString input (UInt32.ofNat kFileMetadataFixedSize) with
      | .refused => .refused
      | .beyond => .beyond
      | .read fileName offset =>
          match readString input offset with
          | .refused => .refused
          | .beyond => .beyond
          | .read compressedFileName offset => .read { fixed with fileName, compressedFileName } offset

theorem bne_flagByte (flag : Bool) : (flagByte flag != 0) = flag := by
  cases flag <;> rfl

@[simp] theorem length_serializeFixedPart (metadata : FileMetadata) :
    (serializeFixedPart metadata).length = kFileMetadataFixedSize := by
  simp [serializeFixedPart, kFileMetadataFixedSize]

theorem length_serializeFileMetadata (metadata : FileMetadata) :
    (serializeFileMetadata metadata).length =
      kFileMetadataFixedSize + 8 + metadata.fileName.length +
        metadata.compressedFileName.length := by
  simp only [serializeFileMetadata, writeString, List.length_append, length_serializeFixedPart,
    length_putString]
  omega

theorem reads_fixedPart (metadata : FileMetadata) :
    Reads nextFixedPart (serializeFixedPart metadata)
      { metadata with fileName := [], compressedFileName := [] } := by
  have hbytes : Reads nextFixedPart (serializeFixedPart metadata)
      { metadata with
        fileName := [], compressedFileName := []
        isDirectory := flagByte metadata.isDirectory != 0
        isCompressed := flagByte metadata.isCompressed != 0 } :=
    (reads_u64 _).bind <| (reads_u64 _).bind <| (reads_u64 _).bind <| (reads_u64 _).bind <|
      (reads_u64 _).bind <| (reads_u32 _).bind <| (reads_u64 _).bind <| (reads_u8 _).bind <|
      (reads_u8 _).bind <| Reads.pure _
  rwa [bne_flagByte, bne_flagByte] at hbytes

theorem takes_fixedPart : Takes nextFixedPart kFileMetadataFixedSize :=
  takes_u64.bind fun _ => takes_u64.bind fun _ => takes_u64.bind fun _ => takes_u64.bind fun _ =>
    takes_u64.bind fun _ => takes_u32.bind fun _ => takes_u64.bind fun _ => takes_u8.bind fun _ =>
    takes_u8.bind fun _ => takes_pure _

/-! ## Strings -/

variable {input before text after : Bytes} {offset : UInt32} {metadata : FileMetadata}

theorem toNat_ofNat_small {n : Nat} (h : n < 2 ^ 32) : (UInt32.ofNat n).toNat = n := by
  rw [UInt32.toNat_ofNat', Nat.mod_eq_of_lt h]

theorem readU32_putString (htext : text.length < 2 ^ 32) :
    readU32 (before ++ (putString text ++ after)) before.length = UInt32.ofNat text.length := by
  have hslice : slice (before ++ (putString text ++ after)) before.length 4 =
      putU32 (UInt32.ofNat text.length) := by
    rw [slice, List.drop_left, putString, List.append_assoc]
    exact List.take_left' (length_putU32 _)
  rw [readU32, hslice, putU32, toNatLE_ofNatLE, toNat_ofNat_small htext,
    Nat.mod_eq_of_lt (by omega)]

/-- A string that ends below 2 ^ 32 is read back. -/
theorem readString_append (h : before.length + 4 + text.length < 2 ^ 32) :
    readString (before ++ (putString text ++ after)) (UInt32.ofNat before.length) =
      .read text (UInt32.ofNat (before.length + 4 + text.length)) := by
  have hoffset := toNat_ofNat_small (show before.length < 2 ^ 32 by omega)
  have hstart : UInt32.ofNat before.length + 4 = UInt32.ofNat (before.length + 4) := by
    rw [UInt32.ofNat_add]
    rfl
  have hstop : UInt32.ofNat (before.length + 4) + UInt32.ofNat text.length =
      UInt32.ofNat (before.length + 4 + text.length) := (UInt32.ofNat_add _ _).symm
  have hlength : (before ++ (putString text ++ after)).length =
      before.length + 4 + text.length + after.length := by
    simp only [List.length_append, length_putString]
    omega
  have htext : slice (before ++ (putString text ++ after)) (before.length + 4) text.length =
      text := by
    rw [slice, ← List.drop_drop, List.drop_left, putString, List.append_assoc,
      List.drop_left' (length_putU32 _), List.take_left]
  rw [readString, hoffset, readU32_putString (by omega), hlength]
  dsimp only
  rw [hstart, hstop, toNat_ofNat_small h, toNat_ofNat_small (by omega),
    toNat_ofNat_small (by omega), if_neg (by omega), if_neg (by omega), if_neg (by omega), htext]

/-- The end of the string at the offset lies behind the input, and the end that is computed
    in 32 bits does not. -/
def LengthWraps (input : Bytes) (offset : Nat) : Prop :=
  offset + 4 ≤ input.length ∧
    input.length < (offset + 4) % 2 ^ 32 + (readU32 input offset).toNat ∧
      ((offset + 4) % 2 ^ 32 + (readU32 input offset).toNat) % 2 ^ 32 ≤ input.length

/-- A string is read past the end of the input exactly when its end wraps. -/
theorem readString_beyond_iff (input : Bytes) (offset : UInt32) :
    readString input offset = .beyond ↔ LengthWraps input offset.toNat := by
  have hstart : (offset + 4).toNat = (offset.toNat + 4) % 2 ^ 32 := UInt32.toNat_add offset 4
  have hstop : (offset + 4 + readU32 input offset.toNat).toNat =
      ((offset.toNat + 4) % 2 ^ 32 + (readU32 input offset.toNat).toNat) % 2 ^ 32 := by
    rw [UInt32.toNat_add, hstart]
  unfold readString LengthWraps
  dsimp only
  rw [hstart, hstop]
  split
  · exact ⟨nofun, fun h => by omega⟩
  · split
    · exact ⟨nofun, fun h => by omega⟩
    · split
      · exact ⟨fun _ => by omega, fun _ => rfl⟩
      · exact ⟨nofun, fun h => by omega⟩

theorem readString_read_iff (input : Bytes) (offset : UInt32) :
    (∃ found next, readString input offset = .read found next) ↔
      offset.toNat + 4 ≤ input.length ∧
        (offset.toNat + 4) % 2 ^ 32 + (readU32 input offset.toNat).toNat ≤ input.length := by
  have hstart : (offset + 4).toNat = (offset.toNat + 4) % 2 ^ 32 := UInt32.toNat_add offset 4
  have hstop : (offset + 4 + readU32 input offset.toNat).toNat =
      ((offset.toNat + 4) % 2 ^ 32 + (readU32 input offset.toNat).toNat) % 2 ^ 32 := by
    rw [UInt32.toNat_add, hstart]
  unfold readString
  dsimp only
  rw [hstart, hstop]
  split
  · exact ⟨nofun, fun h => by omega⟩
  · split
    · exact ⟨nofun, fun h => by omega⟩
    · split
      · exact ⟨nofun, fun h => by omega⟩
      · exact ⟨fun _ => by omega, fun _ => ⟨_, _, rfl⟩⟩

theorem toNat_of_readString {found : Bytes} {next : UInt32}
    (h : readString input offset = .read found next) :
    next.toNat = ((offset.toNat + 4) % 2 ^ 32 + (readU32 input offset.toNat).toNat) % 2 ^ 32 := by
  have hnext : next = offset + 4 + readU32 input offset.toNat := by
    unfold readString at h
    dsimp only at h
    split at h
    · cases h
    · split at h
      · cases h
      · split at h
        · cases h
        · cases h
          rfl
  rw [hnext, UInt32.toNat_add, UInt32.toNat_add]
  rfl

/-! ## Whole records -/

theorem deserialize_serialize (h : (serializeFileMetadata metadata).length < 2 ^ 32) :
    deserializeFileMetadata (serializeFileMetadata metadata) =
      .read metadata (UInt32.ofNat (serializeFileMetadata metadata).length) := by
  have hlength := length_serializeFileMetadata metadata
  have hfixedLength := length_serializeFixedPart metadata
  have hnameLength := length_putString metadata.fileName
  have hfixed := reads_fixedPart metadata
    (putString metadata.fileName ++ putString metadata.compressedFileName)
  have hname : readString (serializeFileMetadata metadata) (UInt32.ofNat kFileMetadataFixedSize) =
      .read metadata.fileName
        (UInt32.ofNat (kFileMetadataFixedSize + 4 + metadata.fileName.length)) := by
    rw [← hfixedLength]
    exact readString_append (by omega)
  have hcompressed : readString (serializeFileMetadata metadata)
      (UInt32.ofNat (kFileMetadataFixedSize + 4 + metadata.fileName.length)) =
        .read metadata.compressedFileName
          (UInt32.ofNat (serializeFileMetadata metadata).length) := by
    have hread := @readString_append
      (serializeFixedPart metadata ++ putString metadata.fileName) metadata.compressedFileName []
      (by rw [List.length_append]; omega)
    have hbefore : (serializeFixedPart metadata ++ putString metadata.fileName).length =
        kFileMetadataFixedSize + 4 + metadata.fileName.length := by
      rw [List.length_append]
      omega
    have hend : kFileMetadataFixedSize + 4 + metadata.fileName.length + 4 +
        metadata.compressedFileName.length = (serializeFileMetadata metadata).length := by
      omega
    rw [List.append_nil, List.append_assoc, hbefore, hend] at hread
    exact hread
  rw [deserializeFileMetadata, hname]
  dsimp only
  rw [hcompressed, show nextFixedPart (serializeFileMetadata metadata) = _ from hfixed]

/-- A record is read back, and to its end, exactly when it is shorter than 2 ^ 32. -/
theorem deserialize_serialize_iff (metadata : FileMetadata) :
    (∃ offset, deserializeFileMetadata (serializeFileMetadata metadata) = .read metadata offset ∧
      offset.toNat = (serializeFileMetadata metadata).length) ↔
        (serializeFileMetadata metadata).length < 2 ^ 32 := by
  constructor
  · rintro ⟨offset, -, hlength⟩
    rw [← hlength]
    exact offset.toNat_lt
  · intro h
    exact ⟨_, deserialize_serialize h, toNat_ofNat_small h⟩

/-- One of the two strings of a record is read past its end. -/
def StringWraps (input : Bytes) : Prop :=
  LengthWraps input kFileMetadataFixedSize ∨
    (let stop := kFileMetadataFixedSize + 4 + (readU32 input kFileMetadataFixedSize).toNat
     stop ≤ input.length ∧ LengthWraps input (stop % 2 ^ 32))

theorem deserialize_beyond_iff (input : Bytes) :
    deserializeFileMetadata input = .beyond ↔ StringWraps input := by
  have hsize : (UInt32.ofNat kFileMetadataFixedSize).toNat = kFileMetadataFixedSize := rfl
  have hfirst := readString_beyond_iff input (UInt32.ofNat kFileMetadataFixedSize)
  have hread := readString_read_iff input (UInt32.ofNat kFileMetadataFixedSize)
  have hsmall : (kFileMetadataFixedSize + 4) % 2 ^ 32 = kFileMetadataFixedSize + 4 := rfl
  rw [hsize] at hfirst hread
  rw [hsmall] at hread
  rcases takes_fixedPart input with ⟨hshort, hfixed⟩ | ⟨-, fixed, hreads⟩
  · rw [deserializeFileMetadata, hfixed]
    refine ⟨nofun, ?_⟩
    rintro (⟨hlength, -⟩ | ⟨hstop, -⟩)
    · omega
    · omega
  rw [deserializeFileMetadata, hreads.of_take]
  dsimp only
  cases hname : readString input (UInt32.ofNat kFileMetadataFixedSize) with
  | refused =>
      rw [hname] at hfirst hread
      refine ⟨nofun, ?_⟩
      rintro (hwraps | ⟨hstop, -⟩)
      · cases hfirst.mpr hwraps
      · obtain ⟨_, _, hfound⟩ := hread.mpr ⟨by omega, hstop⟩
        cases hfound
  | beyond => exact ⟨fun _ => .inl (hfirst.mp hname), fun _ => rfl⟩
  | read name offset =>
      have hstop := (hread.mp ⟨name, offset, hname⟩).2
      have hoffset := toNat_of_readString hname
      rw [hsize, hsmall] at hoffset
      have hnot : ¬LengthWraps input kFileMetadataFixedSize := by
        intro hwraps
        rw [hfirst.mpr hwraps] at hname
        cases hname
      have hsecond := readString_beyond_iff input offset
      rw [hoffset] at hsecond
      dsimp only
      cases hcompressed : readString input offset with
      | refused =>
          rw [hcompressed] at hsecond
          refine ⟨nofun, fun h => ?_⟩
          cases hsecond.mpr (h.resolve_left hnot).2
      | beyond => exact ⟨fun _ => .inr ⟨hstop, hsecond.mp hcompressed⟩, fun _ => rfl⟩
      | read compressed next =>
          rw [hcompressed] at hsecond
          refine ⟨nofun, fun h => ?_⟩
          cases hsecond.mpr (h.resolve_left hnot).2

end Zb.OpticalNode.Volumes
