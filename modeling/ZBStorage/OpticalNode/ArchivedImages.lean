-- SUMMARY: The second reader of volume images, on a disc: which records it finds and which images it accepts.
import ZBStorage.Lib.Checks
import ZBStorage.OpticalNode.DiscIndex
import ZBStorage.OpticalNode.VolumeManager

/-!
# Images on discs

Mirrors `OpticalNodeManager::ReadArchivedImageFiles`. It reads the table of an image off
the disc, within the bounds of the image, and checks more than mounting does: the lengths
of the names, the inode ids and the places of the files.
-/

namespace Zb.OpticalNode.Volumes

open Bytes Checks

structure ArchivedImage where
  volumeId : UInt64
  location : DiscImageLocation

def kMaxQueryMetadata : Nat := 64 * 1024 * 1024
def kMaxQueryString : Nat := 65536

/-- A string with its length, in front of the rest. -/
def takeString (rest : Bytes) : Except String (Bytes × Bytes) :=
  if rest.length < 4 then .error "truncated archived metadata string"
  else
    let length := toNatLE (rest.take 4)
    if kMaxQueryString < length ∨ rest.length - 4 < length then
      .error "invalid archived metadata string length"
    else .ok (rest.take (4 + length), rest.drop (4 + length))

def takeRecord (rest : Bytes) : Except String (Bytes × Bytes) :=
  if rest.length < kFileMetadataFixedSize then .error "truncated archived file metadata"
  else do
    let (fileName, rest') ← takeString (rest.drop kFileMetadataFixedSize)
    let (compressedFileName, rest') ← takeString rest'
    return (rest.take kFileMetadataFixedSize ++ (fileName ++ compressedFileName), rest')

/-- The file is of the volume, new, and inside the user data. -/
def consistent (volume : VolumeMetadata) (volumeId : UInt64) (inodes : List UInt64)
    (file : FileMetadata) : Bool :=
  file.inodeId ≠ 0 && file.volumeId = volumeId && file.inodeId ∉ inodes &&
    volume.userDataOffset ≤ file.offsetInVolume &&
    file.offsetInVolume - volume.userDataOffset ≤ volume.userDataSize &&
    file.compressedSize ≤
      volume.userDataSize - (file.offsetInVolume - volume.userDataOffset)

def readFiles (volume : VolumeMetadata) (volumeId : UInt64) :
    Nat → Bytes → List UInt64 → Except String (List FileMetadata)
  | 0, rest, _ => if rest ≠ [] then .error "unparsed archived metadata bytes" else .ok []
  | count + 1, rest, inodes => do
      let (record, rest) ← takeRecord rest
      match deserializeFileMetadata record with
      | .refused | .beyond => .error "inconsistent archived file metadata"
      | .read file _ =>
          if !consistent volume volumeId inodes file then
            .error "inconsistent archived file metadata"
          else
            let files ← readFiles volume volumeId count rest (file.inodeId :: inodes)
            return file :: files

/-- A range of the image, read off the disc. -/
def readAt (disc : Bytes) (location : DiscImageLocation) (offset size : Nat) : Option Bytes :=
  if location.imageSizeBytes.toNat < offset ∨ location.imageSizeBytes.toNat - offset < size then none
  else some (slice disc (location.offsetInDisc.toNat + offset) size)

def within (location : DiscImageLocation) (offset size : UInt64) : Bool :=
  offset ≤ location.imageSizeBytes && size ≤ location.imageSizeBytes - offset

def boundedLayout (location : DiscImageLocation) (volume : VolumeMetadata) : Bool :=
  kVolumeMetadataSize ≤ volume.metadataOffset.toNat &&
    volume.metadataSize.toNat ≤ kMaxQueryMetadata &&
    within location volume.metadataOffset volume.metadataSize &&
    within location volume.directoryOffset volume.directorySize &&
    within location volume.userDataOffset volume.userDataSize &&
    volume.metadataOffset + volume.metadataSize ≤ volume.directoryOffset &&
    volume.directoryOffset + volume.directorySize ≤ volume.userDataOffset &&
    volume.fileCount.toNat ≤ volume.metadataSize.toNat / (kFileMetadataFixedSize + 8)

/-- The files are given in the order of their inode ids. -/
def readArchivedImageFiles (disc : Option Bytes) (image : ArchivedImage) :
    Except String (List FileMetadata) :=
  match disc with
  | none => .error "indexed disc file unavailable"
  | some disc =>
      let location := image.location
      if disc.length < location.offsetInDisc.toNat ∨
          disc.length - location.offsetInDisc.toNat < location.imageSizeBytes.toNat then
        .error "indexed image exceeds disc file bounds"
      else
        match (readAt disc location 0 kVolumeMetadataSize).bind deserializeVolumeMetadata with
        | none => .error "invalid or unsupported archived volume header"
        | some volume =>
            if volume.magicNumber ≠ kMagicNumber ∨ volume.version ≠ kCurrentVersion ∨
                volume.volumeId ≠ image.volumeId then
              .error "invalid or unsupported archived volume header"
            else if !boundedLayout location volume then
              .error "archived metadata exceeds query bounds or has invalid layout"
            else
              match readAt disc location volume.metadataOffset.toNat volume.metadataSize.toNat with
              | none => .error "archived metadata read failed"
              | some metadata => do
                  let files ←
                    readFiles volume image.volumeId volume.fileCount.toNat metadata []
                  return files.mergeSort fun file other => file.inodeId ≤ other.inodeId

/-! ## One record for both readers -/

variable {rest rest' record tail : Bytes} {volume : VolumeMetadata} {volumeId : UInt64}
  {inodes : List UInt64} {files : List FileMetadata} {metadata : FileMetadata}

/-- A string with its length. -/
def IsString (text : Bytes) : Prop :=
  ∃ length content : Bytes, text = length ++ content ∧ length.length = 4 ∧
    content.length = toNatLE length

/-- A fixed part and two strings. -/
def IsRecord (record : Bytes) : Prop :=
  ∃ fixed name compressed, record = fixed ++ (name ++ compressed) ∧
    fixed.length = kFileMetadataFixedSize ∧ IsString name ∧ IsString compressed

theorem takeString_ok {text : Bytes} (h : takeString rest = .ok (text, rest')) :
    rest = text ++ rest' ∧ IsString text := by
  unfold takeString at h
  dsimp only at h
  split at h
  · cases h
  · split at h
    · cases h
    · rename_i hlength hfits
      cases h
      refine ⟨(List.take_append_drop _ _).symm, rest.take 4,
        (rest.drop 4).take (toNatLE (rest.take 4)), List.take_add, ?_, ?_⟩
      · rw [List.length_take]
        omega
      · rw [List.length_take, List.length_drop]
        omega

theorem takeRecord_ok (h : takeRecord rest = .ok (record, rest')) :
    rest = record ++ rest' ∧ IsRecord record := by
  unfold takeRecord at h
  split at h
  · cases h
  · rename_i hlength
    obtain ⟨⟨name, rest₁⟩, hname, h⟩ := bind_ok h
    obtain ⟨⟨compressed, rest₂⟩, hcompressed, h⟩ := bind_ok h
    cases h
    obtain ⟨hrest, hnameString⟩ := takeString_ok hname
    obtain ⟨hrest₁, hcompressedString⟩ := takeString_ok hcompressed
    refine ⟨?_, _, _, _, rfl, ?_, hnameString, hcompressedString⟩
    · conv_lhs => rw [← List.take_append_drop kFileMetadataFixedSize rest, hrest, hrest₁]
      rw [List.append_assoc, List.append_assoc]
    · rw [List.length_take]
      omega

theorem IsRecord.reads (h : IsRecord record) : Reads nextRecord record record := by
  obtain ⟨fixed, name, compressed, rfl, hfixed, ⟨length1, name, rfl, hlength1, hname⟩,
    length2, compressed, rfl, hlength2, hcompressed⟩ := h
  have hreads : Reads nextRecord
      (fixed ++ (length1 ++ (name ++ (length2 ++ (compressed ++ [])))))
      (fixed ++ (length1 ++ (name ++ (length2 ++ compressed)))) :=
    (Reads.raw hfixed).bind <| (Reads.raw hlength1).bind <| (Reads.raw hname).bind <|
      (Reads.raw hlength2).bind <| (Reads.raw hcompressed).bind <| Reads.pure _
  rw [List.append_nil] at hreads
  rw [List.append_assoc]
  exact hreads

/-! ## The two readers agree -/

theorem readFiles_ok {count : Nat}
    (h : readFiles volume volumeId (count + 1) rest inodes = .ok files) :
    ∃ record rest' file offset later, takeRecord rest = .ok (record, rest') ∧
      deserializeFileMetadata record = .read file offset ∧
        consistent volume volumeId inodes file = true ∧
          readFiles volume volumeId count rest' (file.inodeId :: inodes) = .ok later ∧
            files = file :: later := by
  rw [readFiles] at h
  obtain ⟨⟨record, rest'⟩, htake, h⟩ := bind_ok h
  dsimp only at h
  cases hfile : deserializeFileMetadata record with
  | refused =>
      rw [hfile] at h
      cases h
  | beyond =>
      rw [hfile] at h
      cases h
  | read file offset =>
      rw [hfile] at h
      dsimp only at h
      split at h
      · cases h
      · rename_i hconsistent
        obtain ⟨later, hlater, h⟩ := bind_ok h
        cases h
        rw [Bool.not_eq_true, Bool.not_eq_false'] at hconsistent
        exact ⟨record, rest', file, offset, later, htake, hfile, hconsistent, hlater, rfl⟩

/-- Mounting goes through a table that the other reader accepts, and finds its records. -/
theorem mountRecords_of_readFiles {count : Nat}
    (h : readFiles volume volumeId count rest inodes = .ok files) (tail : Bytes)
    (cache : AList fun _ : UInt64 => FileMetadata) :
    ∃ cache', mountRecords count (rest ++ tail) cache = (.success, cache') ∧
      (∀ file ∈ files, cache'.lookup file.inodeId = some file) ∧
        (∀ inode, (∀ file ∈ files, file.inodeId ≠ inode) →
          cache'.lookup inode = cache.lookup inode) ∧
            ∀ file ∈ files, file.inodeId ∉ inodes := by
  induction count generalizing rest inodes files cache with
  | zero =>
      rw [readFiles] at h
      split at h
      · cases h
      · cases h
        exact ⟨cache, rfl, nofun, fun _ _ => rfl, nofun⟩
  | succ count ih =>
      obtain ⟨record, rest', file, offset, later, htake, hfile, hconsistent, hlater, rfl⟩ :=
        readFiles_ok h
      obtain ⟨rfl, hrecord⟩ := takeRecord_ok htake
      obtain ⟨cache', hmount, hfound, hothers, hnew⟩ :=
        ih hlater (cache.insert file.inodeId file)
      have hfirst : ∀ other ∈ later, other.inodeId ≠ file.inodeId := fun other hmem heq =>
        hnew other hmem (heq ▸ List.mem_cons_self)
      refine ⟨cache', ?_, ?_, ?_, ?_⟩
      · rw [mountRecords, List.append_assoc, hrecord.reads (rest' ++ tail)]
        dsimp only
        rw [hfile]
        exact hmount
      · intro other hmem
        rcases List.mem_cons.mp hmem with rfl | hmem
        · rw [hothers _ hfirst, AList.lookup_insert]
        · exact hfound other hmem
      · intro inode hne
        rw [hothers inode fun other hmem => hne other (List.mem_cons_of_mem _ hmem),
          AList.lookup_insert_ne (hne file List.mem_cons_self).symm]
      · intro other hmem
        rcases List.mem_cons.mp hmem with rfl | hmem
        · simp only [consistent, Bool.and_eq_true, decide_eq_true_eq] at hconsistent
          exact hconsistent.1.1.1.2
        · exact fun hold => hnew other hmem (List.mem_cons_of_mem _ hold)

theorem mountImage_success {manager manager' : VolumeManager} {image : Bytes}
    (h : mountImage manager image = (.success, manager')) :
    ∃ volume cache, deserializeVolumeMetadata image = some volume ∧
      validateVolumeMetadata volume = true ∧ volume.volumeId ∉ manager.mountedVolumes ∧
        mountRecords volume.fileCount.toNat (image.drop volume.metadataOffset.toNat)
          manager.fileMetadataCache = (.success, cache) ∧
            manager' = { manager with
              fileMetadataCache := cache
              mountedVolumes := manager.mountedVolumes.insert volume.volumeId volume } := by
  unfold mountImage at h
  split at h
  · cases h
  · rename_i volume hvolume
    split at h
    · cases h
    · rename_i hvalid
      split at h
      · cases h
      · rename_i hunmounted
        generalize hrecords : mountRecords volume.fileCount.toNat
          (image.drop volume.metadataOffset.toNat) manager.fileMetadataCache = result at h
        obtain ⟨code, cache⟩ := result
        dsimp only at h
        split at h
        · rename_i hcode
          cases h
          exact absurd rfl hcode
        · rename_i hcode
          cases h
          rw [not_not] at hcode
          subst hcode
          rw [Bool.not_eq_true, Bool.not_eq_false'] at hvalid
          exact ⟨volume, cache, hvolume, hvalid, hunmounted, hrecords, rfl⟩

/-- What the second reader found before it gave the files. -/
structure Archived (disc : Bytes) (image : ArchivedImage) (volume : VolumeMetadata)
    (metadata : Bytes) : Prop where
  offset_le : image.location.offsetInDisc.toNat ≤ disc.length
  size_le : image.location.imageSizeBytes.toNat ≤
    disc.length - image.location.offsetInDisc.toNat
  head : (readAt disc image.location 0 kVolumeMetadataSize).bind deserializeVolumeMetadata =
    some volume
  magic : volume.magicNumber = kMagicNumber
  version : volume.version = kCurrentVersion
  volumeId : volume.volumeId = image.volumeId
  bounded : boundedLayout image.location volume = true
  table : readAt disc image.location volume.metadataOffset.toNat volume.metadataSize.toNat =
    some metadata

theorem readArchivedImageFiles_ok {disc : Bytes} {image : ArchivedImage}
    (h : readArchivedImageFiles (some disc) image = .ok files) :
    ∃ volume metadata found, Archived disc image volume metadata ∧
      readFiles volume image.volumeId volume.fileCount.toNat metadata [] = .ok found ∧
        files = found.mergeSort fun file other => file.inodeId ≤ other.inodeId := by
  unfold readArchivedImageFiles at h
  dsimp only at h
  split at h
  · cases h
  · rename_i hdisc
    rw [not_or, Nat.not_lt, Nat.not_lt] at hdisc
    split at h
    · cases h
    · rename_i volume hhead
      split at h
      · cases h
      · rename_i hvolume
        rw [not_or, not_or, not_not, not_not, not_not] at hvolume
        split at h
        · cases h
        · rename_i hbounded
          rw [Bool.not_eq_true, Bool.not_eq_false'] at hbounded
          split at h
          · cases h
          · rename_i metadata htable
            obtain ⟨found, hfound, h⟩ := bind_ok h
            cases h
            exact ⟨volume, metadata, found, ⟨hdisc.1, hdisc.2, hhead, hvolume.1, hvolume.2.1,
              hvolume.2.2, hbounded, htable⟩, hfound, rfl⟩

theorem deserializeVolumeMetadata_take (image : Bytes) :
    deserializeVolumeMetadata (image.take kVolumeMetadataSize) =
      deserializeVolumeMetadata image := by
  rcases takes_volumeMetadata image with ⟨hshort, hread⟩ | ⟨hlength, volume, hreads⟩
  · rw [List.take_of_length_le hshort.le]
  · have hhead := hreads []
    rw [List.append_nil] at hhead
    rw [deserializeVolumeMetadata, deserializeVolumeMetadata, hhead, hreads.of_take]
    rfl

/-- A range of an image, read off the disc. -/
theorem readAt_image {disc image : Bytes} {location : DiscImageLocation} {offset size : Nat}
    {found : Bytes}
    (himage : slice disc location.offsetInDisc.toNat location.imageSizeBytes.toNat = image)
    (h : readAt disc location offset size = some found) : slice image offset size = found := by
  unfold readAt at h
  split at h
  · cases h
  · rename_i hroom
    cases h
    rw [← himage, slice, slice, slice, List.drop_take, List.take_take, List.drop_drop]
    congr 1
    omega

theorem Archived.image {disc image : Bytes} {archived : ArchivedImage} {table : Bytes}
    (h : Archived disc archived volume table)
    (himage : slice disc archived.location.offsetInDisc.toNat
      archived.location.imageSizeBytes.toNat = image) :
    deserializeVolumeMetadata image = some volume ∧
      ∃ tail, image.drop volume.metadataOffset.toNat = table ++ tail := by
  obtain ⟨header, hheader, hvolume⟩ := Option.bind_eq_some_iff.mp h.head
  have hslice := readAt_image himage hheader
  have htable := readAt_image himage h.table
  refine ⟨?_, (image.drop volume.metadataOffset.toNat).drop volume.metadataSize.toNat, ?_⟩
  · rw [← deserializeVolumeMetadata_take, ← hvolume, ← hslice]
    rfl
  · rw [← htable]
    exact (List.take_append_drop _ _).symm

/-- An image that both readers accept has the same files for both. -/
theorem readers_agree {manager manager' : VolumeManager} {disc image : Bytes}
    {archived : ArchivedImage}
    (himage : slice disc archived.location.offsetInDisc.toNat
      archived.location.imageSizeBytes.toNat = image)
    (hmount : mountImage manager image = (.success, manager'))
    (hread : readArchivedImageFiles (some disc) archived = .ok files) :
    (∀ file ∈ files, manager'.fileMetadataCache.lookup file.inodeId = some file) ∧
      ∀ inode, (∀ file ∈ files, file.inodeId ≠ inode) →
        manager'.fileMetadataCache.lookup inode = manager.fileMetadataCache.lookup inode := by
  obtain ⟨volume, cache, hvolume, -, -, hrecords, rfl⟩ := mountImage_success hmount
  obtain ⟨volume', table, found, harchived, hfound, rfl⟩ := readArchivedImageFiles_ok hread
  obtain ⟨hvolume', tail, htail⟩ := harchived.image himage
  rw [hvolume] at hvolume'
  cases hvolume'
  obtain ⟨cache', hcache, hlookup, hothers, -⟩ :=
    mountRecords_of_readFiles hfound tail manager.fileMetadataCache
  rw [← htail, hrecords] at hcache
  cases hcache
  refine ⟨fun file hmem => hlookup file (List.mem_mergeSort.mp hmem), fun inode hne => ?_⟩
  exact hothers inode fun file hmem => hne file (List.mem_mergeSort.mpr hmem)

/-! ## Packed images -/

def NamesFit (file : FileMetadata) : Prop :=
  file.fileName.length ≤ kMaxQueryString ∧ file.compressedFileName.length ≤ kMaxQueryString

instance (file : FileMetadata) : Decidable (NamesFit file) := inferInstanceAs (Decidable (_ ∧ _))

theorem takeString_putString {text : Bytes} (h : text.length < 2 ^ 32) (tail : Bytes) :
    takeString (putString text ++ tail) =
      if kMaxQueryString < text.length then .error "invalid archived metadata string length"
      else .ok (putString text, tail) := by
  have hlength : (putString text ++ tail).length = 4 + text.length + tail.length := by
    rw [List.length_append, length_putString]
  have hfront : (putString text ++ tail).take 4 = putU32 (UInt32.ofNat text.length) := by
    rw [putString, List.append_assoc]
    exact List.take_left' (length_putU32 _)
  have hnumber : toNatLE ((putString text ++ tail).take 4) = text.length := by
    rw [hfront, putU32, toNatLE_ofNatLE, toNat_ofNat_small h, Nat.mod_eq_of_lt (by omega)]
  rw [takeString, if_neg (by omega)]
  dsimp only
  rw [hnumber, hlength]
  split
  · rename_i hlong
    rw [if_pos (by omega)]
  · rename_i hfits
    rw [if_neg (by omega), List.take_left' (length_putString text),
      List.drop_left' (length_putString text)]

theorem takeRecord_serialize (hname : metadata.fileName.length < 2 ^ 32)
    (hcompressed : metadata.compressedFileName.length < 2 ^ 32) (tail : Bytes) :
    takeRecord (serializeFileMetadata metadata ++ tail) =
      if NamesFit metadata then .ok (serializeFileMetadata metadata, tail)
      else .error "invalid archived metadata string length" := by
  have hlength := length_serializeFileMetadata metadata
  have hfixed := length_serializeFixedPart metadata
  have hrest : (serializeFileMetadata metadata ++ tail).drop kFileMetadataFixedSize =
      putString metadata.fileName ++ (putString metadata.compressedFileName ++ tail) := by
    rw [serializeFileMetadata, List.append_assoc, List.append_assoc, List.drop_left' hfixed]
    rfl
  have hfront : (serializeFileMetadata metadata ++ tail).take kFileMetadataFixedSize =
      serializeFixedPart metadata := by
    rw [serializeFileMetadata, List.append_assoc, List.take_left' hfixed]
  have hroom : ¬(serializeFileMetadata metadata ++ tail).length < kFileMetadataFixedSize := by
    rw [List.length_append]
    omega
  rw [takeRecord, if_neg hroom, hrest, hfront, takeString_putString hname]
  by_cases hfirst : kMaxQueryString < metadata.fileName.length
  · rw [if_pos hfirst, if_neg fun h : NamesFit metadata => Nat.not_le_of_lt hfirst h.1]
    rfl
  · rw [if_neg hfirst]
    simp only [bind, Except.bind]
    rw [takeString_putString hcompressed]
    by_cases hsecond : kMaxQueryString < metadata.compressedFileName.length
    · rw [if_pos hsecond, if_neg fun h : NamesFit metadata => Nat.not_le_of_lt hsecond h.2]
    · have hfits : NamesFit metadata := ⟨Nat.le_of_not_lt hfirst, Nat.le_of_not_lt hsecond⟩
      rw [if_neg hsecond, if_pos hfits]
      rfl

/-- At an offset that has not wrapped, only the end of the file is checked. -/
theorem consistent_placed {offset : UInt64} {placed : Nat}
    (hoffset : offset.toNat = volume.userDataOffset.toNat + placed)
    (hplaced : placed ≤ volume.userDataSize.toNat) (hnonzero : metadata.inodeId ≠ 0)
    (hvolume : metadata.volumeId = volumeId) (hnew : metadata.inodeId ∉ inodes) :
    consistent volume volumeId inodes { metadata with offsetInVolume := offset } = true ↔
      placed + metadata.compressedSize.toNat ≤ volume.userDataSize.toNat := by
  have hstart : volume.userDataOffset ≤ offset := by
    rw [UInt64.le_iff_toNat_le]
    omega
  have hskip : (offset - volume.userDataOffset).toNat = placed := by
    rw [UInt64.toNat_sub_of_le _ _ hstart]
    omega
  have hin : offset - volume.userDataOffset ≤ volume.userDataSize := by
    rw [UInt64.le_iff_toNat_le, hskip]
    exact hplaced
  have hleft : (volume.userDataSize - (offset - volume.userDataOffset)).toNat =
      volume.userDataSize.toNat - placed := by
    rw [UInt64.toNat_sub_of_le _ _ hin, hskip]
  simp only [consistent, Bool.and_eq_true, decide_eq_true_eq]
  rw [UInt64.le_iff_toNat_le (a := metadata.compressedSize), hleft]
  constructor
  · rintro ⟨-, hsize⟩
    omega
  · intro hsize
    exact ⟨⟨⟨⟨⟨hnonzero, hvolume⟩, hnew⟩, hstart⟩, hin⟩, by omega⟩

/-- Records behind one another are accepted as long as the names are short and the files end
    inside the user data; before they reach its end their offsets have not wrapped. -/
theorem readFiles_placed {offset : UInt64} {placed : Nat}
    (hbound : volume.userDataOffset.toNat + volume.userDataSize.toNat < 2 ^ 64)
    (hoffset : offset.toNat = volume.userDataOffset.toNat + placed)
    (hplaced : placed ≤ volume.userDataSize.toNat)
    (hids : ∀ file ∈ files, file.inodeId ≠ 0 ∧ file.volumeId = volumeId ∧ file.inodeId ∉ inodes)
    (hnodup : (files.map (·.inodeId)).Nodup)
    (hshort : ∀ file ∈ files, (serializeFileMetadata file).length < 2 ^ 32)
    (found : List FileMetadata) :
    readFiles volume volumeId files.length
        ((placeFiles offset files).flatMap serializeFileMetadata) inodes = .ok found ↔
      ((∀ file ∈ files, NamesFit file) ∧
        placed + (files.map (·.compressedSize.toNat)).sum ≤ volume.userDataSize.toNat) ∧
          found = placeFiles offset files := by
  induction files generalizing offset placed inodes found with
  | nil =>
      rw [List.length_nil, placeFiles, List.flatMap_nil, readFiles, if_neg (not_not_intro rfl)]
      constructor
      · rintro ⟨⟩
        exact ⟨⟨fun _ hmem => absurd hmem List.not_mem_nil, hplaced⟩, rfl⟩
      · rintro ⟨-, rfl⟩
        rfl
  | cons file files ih =>
      obtain ⟨hnonzero, hvolume, hnew⟩ := hids file List.mem_cons_self
      rw [List.map_cons, List.nodup_cons] at hnodup
      have hfileShort : (serializeFileMetadata { file with offsetInVolume := offset }).length <
          2 ^ 32 := by
        have hlength := hshort file List.mem_cons_self
        rw [length_serializeFileMetadata] at hlength ⊢
        exact hlength
      have hlength := length_serializeFileMetadata { file with offsetInVolume := offset }
      have hread := deserialize_serialize hfileShort
      have hsame : NamesFit { file with offsetInVolume := offset } ↔ NamesFit file := Iff.rfl
      have htake := @takeRecord_serialize { file with offsetInVolume := offset } (by omega)
        (by omega)
        ((placeFiles (offset + file.compressedSize) files).flatMap serializeFileMetadata)
      have hrest (other : FileMetadata) (hmem : other ∈ files) : other.inodeId ≠ 0 ∧
          other.volumeId = volumeId ∧ other.inodeId ∉ file.inodeId :: inodes := by
        obtain ⟨hother, hothers, hnone⟩ := hids other (List.mem_cons_of_mem _ hmem)
        refine ⟨hother, hothers, ?_⟩
        rw [List.mem_cons, not_or]
        exact ⟨fun heq => hnodup.1 (heq ▸ List.mem_map_of_mem hmem), hnone⟩
      rw [List.length_cons, placeFiles, List.flatMap_cons, readFiles, htake, List.map_cons,
        List.sum_cons]
      by_cases hfits : NamesFit file
      · rw [if_pos (hsame.mpr hfits)]
        simp only [bind, Except.bind]
        rw [hread]
        dsimp only
        have hconsistent := consistent_placed hoffset hplaced hnonzero hvolume hnew
        by_cases hroom : placed + file.compressedSize.toNat ≤ volume.userDataSize.toNat
        · have hnext : (offset + file.compressedSize).toNat =
              volume.userDataOffset.toNat + (placed + file.compressedSize.toNat) := by
            rw [UInt64.toNat_add, hoffset, Nat.mod_eq_of_lt (by omega)]
            omega
          have hlater := ih hnext hroom hrest hnodup.2 fun other hmem =>
            hshort other (List.mem_cons_of_mem _ hmem)
          rw [hconsistent.mpr hroom]
          constructor
          · intro h
            obtain ⟨later, hfound, h⟩ := bind_ok h
            cases h
            obtain ⟨⟨hnames, hend⟩, rfl⟩ := (hlater later).mp hfound
            exact ⟨⟨List.forall_mem_cons.mpr ⟨hfits, hnames⟩, by omega⟩, rfl⟩
          · rintro ⟨⟨hnames, hend⟩, rfl⟩
            have hfound := (hlater _).mpr
              ⟨⟨(List.forall_mem_cons.mp hnames).2, by omega⟩, rfl⟩
            rw [hfound]
            rfl
        · rw [Bool.eq_false_iff.mpr (mt hconsistent.mp hroom)]
          constructor
          · rintro ⟨⟩
          · rintro ⟨⟨-, hend⟩, -⟩
            omega
      · rw [if_neg (mt hsame.mp hfits)]
        constructor
        · rintro ⟨⟩
        · rintro ⟨⟨hnames, -⟩, -⟩
          exact absurd (hnames file List.mem_cons_self) hfits

/-- The image stands on the disc where the index says. -/
structure StandsAt (disc : Bytes) (location : DiscImageLocation) (image : Bytes) : Prop where
  bytes : slice disc location.offsetInDisc.toNat location.imageSizeBytes.toNat = image
  size : location.imageSizeBytes.toNat = image.length
  within : location.offsetInDisc.toNat + image.length ≤ disc.length

theorem StandsAt.readAt {disc image : Bytes} {location : DiscImageLocation}
    (h : StandsAt disc location image) {offset size : Nat} (hroom : offset + size ≤ image.length) :
    readAt disc location offset size = some (slice image offset size) := by
  have hsize := h.size
  have hread : Volumes.readAt disc location offset size =
      some (slice disc (location.offsetInDisc.toNat + offset) size) := if_neg (by omega)
  rw [hread, readAt_image h.bytes hread]

theorem toNat_payloadSize (files : List FileMetadata) :
    (payloadSize files).toNat = (files.map (·.compressedSize.toNat)).sum % 2 ^ 64 := by
  induction files with
  | nil => rfl
  | cons file files ih =>
      rw [payloadSize] at ih ⊢
      rw [List.map_cons, List.sum_cons, UInt64.toNat_add, ih, List.map_cons, List.sum_cons,
        Nat.add_mod_mod]

section Packed

variable {manager : VolumeManager} {payload image disc : Bytes} {location : DiscImageLocation}
  {volumeSize : UInt64}

theorem length_le_records (files : List FileMetadata) :
    files.length * (kFileMetadataFixedSize + 8) ≤ (files.flatMap serializeFileMetadata).length :=
  mul_length_le_flatMap (fun file => by rw [length_serializeFileMetadata]; omega) files

theorem toNat_metadataSize
    (h : (files.flatMap serializeFileMetadata).length ≤ kMaxQueryMetadata) :
    (metadataSize files).toNat = (files.flatMap serializeFileMetadata).length := by
  have hmax : kMaxQueryMetadata < 2 ^ 64 := by decide
  exact UInt64.toNat_ofNat_of_lt' (Nat.lt_of_le_of_lt h hmax)

/-- The layout of a packed image is within the bounds when its payload is as long as its head
    says. -/
theorem boundedLayout_packedHead
    (hmetadata : (files.flatMap serializeFileMetadata).length ≤ kMaxQueryMetadata)
    (hsize : location.imageSizeBytes.toNat =
      kVolumeMetadataSize + (files.flatMap serializeFileMetadata).length + payload.length) :
    boundedLayout location (packedHead volumeSize volumeId files) = true ↔
      (payloadSize files).toNat ≤ payload.length := by
  have hrecords := toNat_metadataSize hmetadata
  have hmax : kMaxQueryMetadata = 67108864 := rfl
  have hhead : (UInt64.ofNat kVolumeMetadataSize).toNat = kVolumeMetadataSize := rfl
  have hheadSize : kVolumeMetadataSize = 80 := rfl
  have hstart : (UInt64.ofNat kVolumeMetadataSize + metadataSize files).toNat =
      kVolumeMetadataSize + (files.flatMap serializeFileMetadata).length := by
    rw [UInt64.toNat_add, hrecords, hhead, Nat.mod_eq_of_lt (by omega)]
  have hcount := length_le_records files
  have hrecord : kFileMetadataFixedSize + 8 = 62 := rfl
  rw [hrecord] at hcount
  have hcountSmall : (UInt32.ofNat files.length).toNat = files.length :=
    toNat_ofNat_small (by omega)
  have hfirst : UInt64.ofNat kVolumeMetadataSize ≤ location.imageSizeBytes := by
    rw [UInt64.le_iff_toNat_le]
    omega
  have hsecond : UInt64.ofNat kVolumeMetadataSize + metadataSize files ≤
      location.imageSizeBytes := by
    rw [UInt64.le_iff_toNat_le]
    omega
  have hfirstRoom : metadataSize files ≤
      location.imageSizeBytes - UInt64.ofNat kVolumeMetadataSize := by
    rw [UInt64.le_iff_toNat_le, UInt64.toNat_sub_of_le _ _ hfirst]
    omega
  have hsecondRoom : (location.imageSizeBytes -
      (UInt64.ofNat kVolumeMetadataSize + metadataSize files)).toNat = payload.length := by
    rw [UInt64.toNat_sub_of_le _ _ hsecond]
    omega
  unfold boundedLayout within packedHead
  dsimp only
  simp only [Bool.and_eq_true, decide_eq_true_eq, UInt64.add_zero]
  rw [UInt64.le_iff_toNat_le (a := payloadSize files), hsecondRoom]
  constructor
  · intro h
    exact h.1.1.1.2.2
  · intro h
    refine ⟨⟨⟨⟨⟨⟨⟨Nat.le_refl _, ?_⟩, hfirst, hfirstRoom⟩, hsecond, UInt64.zero_le⟩, hsecond, h⟩,
      UInt64.le_refl _⟩, UInt64.le_refl _⟩, ?_⟩
    · omega
    · rw [hcountSmall, hrecords]
      exact (Nat.le_div_iff_mul_le (by decide)).mpr hcount

/-- With the head and the table found, the records decide. -/
theorem readArchivedImageFiles_eq {archived : ArchivedImage} {table : Bytes}
    (h : Archived disc archived volume table) :
    readArchivedImageFiles (some disc) archived = (do
      let found ← readFiles volume archived.volumeId volume.fileCount.toNat table []
      return found.mergeSort fun file other => file.inodeId ≤ other.inodeId) := by
  have hoffset := h.offset_le
  have hsize := h.size_le
  unfold readArchivedImageFiles
  dsimp only
  rw [if_neg (by omega), h.head]
  dsimp only
  rw [if_neg (by rw [not_or, not_or, not_not, not_not, not_not]; exact ⟨h.magic, h.version, h.volumeId⟩),
    h.bounded, h.table]
  rfl

theorem readArchivedImageFiles_unbounded (archived : ArchivedImage)
    (hhead : (readAt disc archived.location 0 kVolumeMetadataSize).bind
      deserializeVolumeMetadata = some volume)
    (hbounded : ¬boundedLayout archived.location volume = true) (found : List FileMetadata) :
    readArchivedImageFiles (some disc) archived ≠ .ok found := by
  intro h
  obtain ⟨volume', table, -, harchived, -, -⟩ := readArchivedImageFiles_ok h
  rw [harchived.head] at hhead
  cases hhead
  exact hbounded harchived.bounded

/-- A packed image is accepted exactly when its names are short and its payload is as long as
    the sizes in its records. -/
theorem archived_packedImage_iff
    (hmetadata : (files.flatMap serializeFileMetadata).length ≤ kMaxQueryMetadata)
    (hnonzero : ∀ file ∈ files, file.inodeId ≠ 0) (hnodup : (files.map (·.inodeId)).Nodup)
    (hdisc : StandsAt disc location
      (imageOf (packedHead volumeSize volumeId files) (packedFiles volumeId files) payload)) :
    (∃ found, readArchivedImageFiles (some disc) ⟨volumeId, location⟩ = .ok found) ↔
      (∀ file ∈ files, NamesFit file) ∧
        (files.map (·.compressedSize.toNat)).sum ≤ payload.length := by
  have hrecords := toNat_metadataSize hmetadata
  have hmax : kMaxQueryMetadata = 67108864 := rfl
  have hheadSize : (UInt64.ofNat kVolumeMetadataSize).toNat = kVolumeMetadataSize := rfl
  have heighty : kVolumeMetadataSize = 80 := rfl
  have hcount := length_le_records files
  have hrecordSize : kFileMetadataFixedSize + 8 = 62 := rfl
  rw [hrecordSize] at hcount
  have hlength : (imageOf (packedHead volumeSize volumeId files) (packedFiles volumeId files)
      payload).length =
        kVolumeMetadataSize + (files.flatMap serializeFileMetadata).length + payload.length := by
    rw [imageOf, List.length_append, List.length_append, length_serializeVolumeMetadata,
      length_records_packedFiles, Nat.add_assoc]
  have hsize := hdisc.size.trans hlength
  have hwithin := hdisc.within
  rw [hlength] at hwithin
  have hhead : (readAt disc location 0 kVolumeMetadataSize).bind deserializeVolumeMetadata =
      some (packedHead volumeSize volumeId files) := by
    rw [hdisc.readAt (by omega)]
    have hslice : slice (imageOf (packedHead volumeSize volumeId files)
        (packedFiles volumeId files) payload) 0 kVolumeMetadataSize =
          serializeVolumeMetadata (packedHead volumeSize volumeId files) :=
      List.take_left' (length_serializeVolumeMetadata _)
    rw [hslice]
    exact deserializeVolumeMetadata_serialize _
  have hbounded := @boundedLayout_packedHead volumeId files payload location volumeSize hmetadata hsize
  have hwrapped := toNat_payloadSize files
  have hpayload : payload.length < 2 ^ 64 := by
    have hlt := location.imageSizeBytes.toNat_lt
    omega
  by_cases hroom : (payloadSize files).toNat ≤ payload.length
  · have htable : readAt disc location (packedHead volumeSize volumeId files).metadataOffset.toNat
        (packedHead volumeSize volumeId files).metadataSize.toNat =
          some ((packedFiles volumeId files).flatMap serializeFileMetadata) := by
      have hslice : slice (imageOf (packedHead volumeSize volumeId files)
          (packedFiles volumeId files) payload) kVolumeMetadataSize
            (files.flatMap serializeFileMetadata).length =
              (packedFiles volumeId files).flatMap serializeFileMetadata := by
        rw [slice, imageOf, List.drop_left' (length_serializeVolumeMetadata _),
          List.take_left' (length_records_packedFiles volumeId files)]
      have hread := @StandsAt.readAt _ _ _ hdisc kVolumeMetadataSize
        (files.flatMap serializeFileMetadata).length (by omega)
      rw [hslice, ← hrecords, ← hheadSize] at hread
      exact hread
    have hoffset : location.offsetInDisc.toNat ≤ disc.length := by omega
    have hfits : location.imageSizeBytes.toNat ≤
        disc.length - location.offsetInDisc.toNat := by omega
    have harchived : Archived disc ⟨volumeId, location⟩ (packedHead volumeSize volumeId files)
        ((packedFiles volumeId files).flatMap serializeFileMetadata) :=
      { offset_le := hoffset, size_le := hfits, head := hhead, magic := rfl, version := rfl,
        volumeId := rfl, bounded := hbounded.mpr hroom, table := htable }
    rw [readArchivedImageFiles_eq harchived]
    have hcountEq : (packedHead volumeSize volumeId files).fileCount.toNat =
        (files.map fun file => { file with volumeId }).length := by
      rw [List.length_map]
      exact toNat_ofNat_small (by omega)
    have hstart : (UInt64.ofNat kVolumeMetadataSize + metadataSize files).toNat =
        kVolumeMetadataSize + (files.flatMap serializeFileMetadata).length := by
      rw [UInt64.toNat_add, hrecords, hheadSize, Nat.mod_eq_of_lt (by omega)]
    have hbound : (packedHead volumeSize volumeId files).userDataOffset.toNat +
        (packedHead volumeSize volumeId files).userDataSize.toNat < 2 ^ 64 := by
      have hlt := location.imageSizeBytes.toNat_lt
      change (UInt64.ofNat kVolumeMetadataSize + metadataSize files).toNat +
        (payloadSize files).toNat < 2 ^ 64
      omega
    have hids (file : FileMetadata) (hmem : file ∈ files.map fun file => { file with volumeId }) :
        file.inodeId ≠ 0 ∧ file.volumeId = volumeId ∧ file.inodeId ∉ ([] : List UInt64) := by
      obtain ⟨pending, hpending, rfl⟩ := List.mem_map.mp hmem
      exact ⟨hnonzero pending hpending, rfl, List.not_mem_nil⟩
    have hshort (file : FileMetadata)
        (hmem : file ∈ files.map fun file => { file with volumeId }) :
        (serializeFileMetadata file).length < 2 ^ 32 := by
      obtain ⟨pending, hpending, rfl⟩ := List.mem_map.mp hmem
      have hle := length_le_flatMap serializeFileMetadata hpending
      rw [length_serializeFileMetadata] at hle ⊢
      dsimp only
      omega
    have hdistinct : ((files.map fun file => { file with volumeId }).map (·.inodeId)).Nodup := by
      rw [List.map_map]
      exact hnodup
    have hplaced := @readFiles_placed (packedHead volumeSize volumeId files) volumeId []
      (files.map fun file => { file with volumeId }) _ 0 hbound rfl (Nat.zero_le _) hids hdistinct
      hshort
    rw [← hcountEq, List.forall_mem_map, List.map_map, Nat.zero_add] at hplaced
    have hend : (packedHead volumeSize volumeId files).userDataSize.toNat =
        (payloadSize files).toNat := rfl
    rw [hend, hwrapped] at hplaced
    rw [hwrapped] at hroom
    constructor
    · rintro ⟨found, hfound⟩
      obtain ⟨records, hread, -⟩ := bind_ok hfound
      obtain ⟨⟨hnames, hsum⟩, -⟩ := (hplaced records).mp hread
      exact ⟨hnames, Nat.le_trans hsum hroom⟩
    · rintro ⟨hnames, hsum⟩
      have hread : readFiles (packedHead volumeSize volumeId files) volumeId
          (packedHead volumeSize volumeId files).fileCount.toNat
          ((packedFiles volumeId files).flatMap serializeFileMetadata) [] =
            .ok (packedFiles volumeId files) :=
        (hplaced _).mpr
          ⟨⟨hnames, (Nat.mod_eq_of_lt (Nat.lt_of_le_of_lt hsum hpayload)).symm.le⟩, rfl⟩
      refine ⟨(packedFiles volumeId files).mergeSort
        fun file other => file.inodeId ≤ other.inodeId, ?_⟩
      rw [hread]
      rfl
  · constructor
    · rintro ⟨found, hfound⟩
      exact absurd hfound (readArchivedImageFiles_unbounded ⟨volumeId, location⟩ hhead
        (mt hbounded.mp hroom) found)
    · rintro ⟨-, hsum⟩
      rw [Nat.mod_eq_of_lt (by omega)] at hwrapped
      omega

end Packed

/-! ## The two readers -/

/-- The record is read back, and to its end. -/
def RoundTrips (metadata : FileMetadata) : Prop :=
  ∃ offset, deserializeFileMetadata (serializeFileMetadata metadata) = .read metadata offset ∧
    offset.toNat = (serializeFileMetadata metadata).length

/-- Mounting filed these records and left the others as they were. -/
def Mounted (before after : VolumeManager) (files : List FileMetadata) : Prop :=
  (∀ file ∈ files, after.fileMetadataCache.lookup file.inodeId = some file) ∧
    ∀ inodeId, (∀ file ∈ files, file.inodeId ≠ inodeId) →
      after.fileMetadataCache.lookup inodeId = before.fileMetadataCache.lookup inodeId

/-- An image that the claim says the second reader accepts. -/
structure PackedTo (manager : VolumeManager) (image : Bytes) (archived : ArchivedImage)
    (disc : Bytes) : Prop where
  packed : ∃ volumeId env after,
    packVolume manager volumeId env = (.success, [.packed archived.volumeId image], after)
  metadata : (manager.pendingFiles.flatMap serializeFileMetadata).length ≤ kMaxQueryMetadata
  nonzero : ∀ file ∈ manager.pendingFiles, file.inodeId ≠ 0
  nodup : (manager.pendingFiles.map (·.inodeId)).Nodup
  disc : StandsAt disc archived.location image

theorem PackedTo.archived_iff {manager : VolumeManager} {image disc : Bytes}
    {archived : ArchivedImage} (h : PackedTo manager image archived disc) :
    (∃ files, readArchivedImageFiles (some disc) archived = .ok files) ↔
      (∀ file ∈ manager.pendingFiles, NamesFit file) ∧
        (manager.pendingFiles.map (·.compressedSize.toNat)).sum ≤
          (storedPayload manager.tempFiles manager.pendingFiles).length := by
  obtain ⟨volumeId, env, after, hpack⟩ := h.packed
  obtain ⟨payload, tempFiles, -, hpayload, hevents, -⟩ := packVolume_success hpack
  have hstored : payload = storedPayload manager.tempFiles manager.pendingFiles := by
    rw [payload_of_success ((map_inodeId_packedFiles _ _).symm ▸ h.nodup) hpayload,
      storedPayload_packedFiles]
  simp only [List.cons.injEq, Event.packed.injEq, and_true] at hevents
  obtain ⟨hid, himage⟩ := hevents
  have hdisc := h.disc
  rw [himage, ← hid, hstored] at hdisc
  exact archived_packedImage_iff h.metadata h.nonzero h.nodup hdisc

/-- A record is read back when it is shorter than 2 ^ 32, and a string is read inside the
    input unless its end wraps. Whatever both readers accept they read alike; a packed image
    is accepted when its names are short and the compressed files have not become shorter
    since they were collected. -/
theorem volume_readers_exact (metadata : FileMetadata) (input : Bytes) (offset : UInt32)
    (manager : VolumeManager) (disc image : Bytes) (archived : ArchivedImage) :
    (RoundTrips metadata ↔ (serializeFileMetadata metadata).length < 2 ^ 32) ∧
    (readString input offset ≠ .beyond ↔ ¬LengthWraps input offset.toNat) ∧
    (deserializeFileMetadata input ≠ .beyond ↔ ¬StringWraps input) ∧
    (∀ manager' files,
      slice disc archived.location.offsetInDisc.toNat
        archived.location.imageSizeBytes.toNat = image →
      mountImage manager image = (.success, manager') →
        readArchivedImageFiles (some disc) archived = .ok files →
          Mounted manager manager' files) ∧
    (PackedTo manager image archived disc →
      ((∃ files, readArchivedImageFiles (some disc) archived = .ok files) ↔
        (∀ file ∈ manager.pendingFiles, NamesFit file) ∧
          (manager.pendingFiles.map (·.compressedSize.toNat)).sum ≤
            (storedPayload manager.tempFiles manager.pendingFiles).length)) := by
  refine ⟨deserialize_serialize_iff metadata, not_congr (readString_beyond_iff input offset),
    not_congr (deserialize_beyond_iff input), ?_, ?_⟩
  · intro manager' files himage hmount hread
    exact readers_agree himage hmount hread
  · intro hpacked
    exact hpacked.archived_iff

section Examples

/-- The compressor that copies. -/
def copying : Zlib where
  compress2 input := if input.length < 2 ^ 64 then some input else none
  uncompress input _ := some input

/-- A file waits to be packed. -/
def oneFile : VolumeManager where
  tempFiles := AList.insert 1 [5, 6, 7] ∅
  pendingFiles := [{ inodeId := 1, fileSize := 3, compressedSize := 3, fileName := [97] }]
  pendingSize := 3
  volumeSize := 1000

def imageOfOneFile : Bytes :=
  imageOf (packedHead 1000 7 oneFile.pendingFiles) (packedFiles 7 oneFile.pendingFiles) [5, 6, 7]

def wholeDisc (volumeId : UInt64) (image : Bytes) : ArchivedImage where
  volumeId := volumeId
  location :=
    { diskId := [], offsetInDisc := 0, imageSizeBytes := UInt64.ofNat image.length, sha256Hex := [] }

theorem volume_readers_exact_of_one_file :
    RoundTrips { inodeId := 1, fileName := [97] } ∧
      ∃ files, readArchivedImageFiles (some imageOfOneFile) (wholeDisc 7 imageOfOneFile) =
        .ok files := by
  obtain ⟨hround, -, -, -, hpacked⟩ := volume_readers_exact { inodeId := 1, fileName := [97] } [] 0
    oneFile imageOfOneFile imageOfOneFile (wholeDisc 7 imageOfOneFile)
  refine ⟨hround.mpr (by decide +kernel), (hpacked ?_).mpr ⟨by decide +kernel, by decide +kernel⟩⟩
  exact
    { packed := ⟨7, { generatedId := 0 }, _, rfl⟩
      metadata := by decide +kernel
      nonzero := by decide
      nodup := by decide
      disc := ⟨by decide +kernel, by decide +kernel, by decide +kernel⟩ }

/-- A file of these bytes is archived under the inode id 1. -/
def addCall (content : Bytes) : AddCall where
  filePath := [97]
  inodeId := 1
  volumeId := 7
  found := .regular { content, fileMode := 0, lastModified := 0 }
  pack := { generatedId := 0 }

def collectTwice : Answer :=
  addFileToCollect copying (fun _ _ => false)
    (addFileToCollect copying (fun _ _ => false) { volumeSize := 10 }
      (addCall [1, 2, 3, 4, 5, 6, 7, 8])).2.2 (addCall [1, 2, 3, 4, 5])

def imageOfTwice : Bytes :=
  collectTwice.2.1.headD (.accepted 0 []) |> fun event =>
    match event with
    | .packed _ image => image
    | .accepted _ _ => []

/-- A length of 2 ^ 32 - 1 wraps around to the end of the input. A file that is archived again
    while it waits leaves an image behind that the second reader refuses. -/
theorem wrapped_length_read_beyond :
    deserializeFileMetadata (List.replicate 54 0 ++ [255, 255, 255, 255]) = .beyond ∧
      collectTwice.1 = .success ∧
        collectTwice.2.1 = [.packed 7 imageOfTwice, .accepted 1 [1, 2, 3, 4, 5]] ∧
          ∀ files, readArchivedImageFiles (some imageOfTwice) (wholeDisc 7 imageOfTwice) ≠
            .ok files := by
  refine ⟨by decide +kernel, by decide +kernel, by decide +kernel, fun files h => ?_⟩
  have hrefused : (readArchivedImageFiles (some imageOfTwice)
    (wholeDisc 7 imageOfTwice)).toOption.isNone = true := by decide +kernel
  rw [h] at hrefused
  cases hrefused

end Examples

end Zb.OpticalNode.Volumes
