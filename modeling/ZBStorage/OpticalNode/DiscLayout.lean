-- SUMMARY: The layout of a disc in 64 bits: where no sum wraps, ranges are sound and every image is extracted as it was.
import ZBStorage.OpticalNode.DiscPacking

/-!
# The layout of a disc

`FillDiscLayout`, the metadata file of a disc and the disc file. The sizes are
configured freely, and their sums wrap around at 64 bits.
-/

namespace Zb.OpticalNode

open Bytes

/-! ## The layout in 64 bits -/

/-- `AlignUp`. -/
def alignUp64 (value alignment : Nat) : Nat :=
  if alignment = 0 then value
  else if value % alignment = 0 then value
  else (value + (alignment - value % alignment)) % 2 ^ 64

def metadataAreaBytes64 (config : NodeConfig) (entryCount : Nat) : Nat :=
  alignUp64 ((discMetaHeaderSize +
    max entryCount config.standardImagesPerDisc * discImageRecordSize.toNat) % 2 ^ 64)
    config.discBlockSizeBytes

/-- The loop of `FillDiscLayout`. -/
def placeEntries64 (block : Nat) : Nat → List DiscImageEntry → List DiscImageEntry × Nat
  | cursor, [] => ([], cursor)
  | cursor, entry :: entries =>
      let aligned := alignUp64 entry.imageSizeBytes.toNat block
      let rest := placeEntries64 block ((cursor + aligned) % 2 ^ 64) entries
      ({ entry with
          alignedSizeBytes := UInt64.ofNat aligned
          offsetInDisc := UInt64.ofNat cursor } :: rest.1, rest.2)

/-- `FillDiscLayout`. -/
def fillDiscLayout64 (config : NodeConfig) (entries : List DiscImageEntry) :
    List DiscImageEntry × Nat :=
  placeEntries64 config.discBlockSizeBytes
    ((alignUp64 discSuperblockSize config.discBlockSizeBytes +
      metadataAreaBytes64 config entries.length) % 2 ^ 64) entries

variable {config : NodeConfig} {entries : List DiscImageEntry} {entry : DiscImageEntry}
  {block cursor total : Nat}

/-! ## Agreement with unbounded arithmetic -/

theorem le_alignUp (value alignment : Nat) : value ≤ alignUp value alignment := by
  unfold alignUp
  split
  · exact Nat.le_refl _
  split
  · exact Nat.le_refl _
  · exact Nat.le_add_right _ _

theorem dvd_alignUp (value : Nat) {alignment : Nat} (h : alignment ≠ 0) :
    alignment ∣ alignUp value alignment := by
  unfold alignUp
  rw [if_neg h]
  split
  · rename_i hzero
    exact Nat.dvd_of_mod_eq_zero hzero
  · have hlt : value % alignment < alignment := Nat.mod_lt _ (Nat.pos_of_ne_zero h)
    have hsum := Nat.div_add_mod value alignment
    refine ⟨value / alignment + 1, ?_⟩
    rw [Nat.mul_add, Nat.mul_one]
    omega

theorem alignUp_le_of_dvd {value alignment bound : Nat} (hvalue : value ≤ bound)
    (hbound : alignment ∣ bound) : alignUp value alignment ≤ bound := by
  unfold alignUp
  split
  · exact hvalue
  rename_i hpos
  split
  · exact hvalue
  rename_i hrest
  obtain ⟨count, rfl⟩ := hbound
  have hlt : value % alignment < alignment := Nat.mod_lt _ (Nat.pos_of_ne_zero hpos)
  have hsum := Nat.div_add_mod value alignment
  have hquot : value / alignment < count := by
    apply Nat.lt_of_mul_lt_mul_left (a := alignment)
    omega
  have hmul : alignment * (value / alignment + 1) ≤ alignment * count :=
    Nat.mul_le_mul_left _ hquot
  rw [Nat.mul_add, Nat.mul_one] at hmul
  omega

theorem alignUp_mono {value value' : Nat} (alignment : Nat) (h : value ≤ value') :
    alignUp value alignment ≤ alignUp value' alignment := by
  rcases eq_or_ne alignment 0 with rfl | hpos
  · exact h
  · exact alignUp_le_of_dvd (Nat.le_trans h (le_alignUp _ _)) (dvd_alignUp _ hpos)

theorem alignUp64_eq {value alignment : Nat} (h : alignUp value alignment < 2 ^ 64) :
    alignUp64 value alignment = alignUp value alignment := by
  unfold alignUp at h ⊢
  unfold alignUp64
  split
  · rfl
  rename_i hpos
  rw [if_neg hpos] at h
  split
  · rfl
  · rename_i hrest
    rw [if_neg hrest] at h
    exact Nat.mod_eq_of_lt h

theorem placeEntries_snd (block cursor : Nat) (entries : List DiscImageEntry) :
    (placeEntries block cursor entries).2 =
      cursor + (entries.map fun entry => alignUp entry.imageSizeBytes.toNat block).sum := by
  induction entries generalizing cursor with
  | nil => rfl
  | cons entry entries ih =>
      rw [placeEntries, List.map_cons, List.sum_cons, ← Nat.add_assoc]
      exact ih _

theorem placeEntries64_eq (h : (placeEntries block cursor entries).2 < 2 ^ 64) :
    placeEntries64 block cursor entries = placeEntries block cursor entries := by
  induction entries generalizing cursor with
  | nil => rfl
  | cons entry entries ih =>
      have hall := placeEntries_snd block cursor (entry :: entries)
      rw [List.map_cons, List.sum_cons] at hall
      have haligned : alignUp64 entry.imageSizeBytes.toNat block =
          alignUp entry.imageSizeBytes.toNat block := alignUp64_eq (by omega)
      have hrest : (placeEntries block (cursor + alignUp entry.imageSizeBytes.toNat block)
          entries).2 < 2 ^ 64 := h
      rw [placeEntries64, haligned, Nat.mod_eq_of_lt (by omega), ih hrest, placeEntries]

theorem fillDiscLayout64_eq (h : (fillDiscLayout config entries).2 < 2 ^ 64) :
    fillDiscLayout64 config entries = fillDiscLayout config entries := by
  have hsum := placeEntries_snd config.discBlockSizeBytes (dataOffset config entries.length) entries
  have hle : dataOffset config entries.length < 2 ^ 64 := by
    rw [fillDiscLayout, hsum] at h
    omega
  have harea : metadataAreaBytes config entries.length < 2 ^ 64 :=
    Nat.lt_of_le_of_lt (Nat.le_add_left _ _) hle
  have hmeta : metadataAreaBytes64 config entries.length =
      metadataAreaBytes config entries.length := by
    unfold metadataAreaBytes64
    rw [Nat.mod_eq_of_lt (Nat.lt_of_le_of_lt (le_alignUp _ _) harea)]
    exact alignUp64_eq harea
  rw [fillDiscLayout64, alignUp64_eq (Nat.lt_of_le_of_lt (Nat.le_add_right _ _) hle), hmeta]
  show placeEntries64 _ (dataOffset config entries.length % 2 ^ 64) entries = _
  rw [Nat.mod_eq_of_lt hle]
  exact placeEntries64_eq h

/-! ## Placed records -/

/-- The records lie one behind the other from the cursor to the total. -/
inductive Placed (block total : Nat) : Nat → List DiscImageEntry → Prop
  | nil : Placed block total total []
  | cons {cursor : Nat} {entry : DiscImageEntry} {entries : List DiscImageEntry} :
      entry.offsetInDisc.toNat = cursor →
      entry.alignedSizeBytes.toNat = alignUp entry.imageSizeBytes.toNat block →
      Placed block total (cursor + entry.alignedSizeBytes.toNat) entries →
      Placed block total cursor (entry :: entries)

theorem placed_placeEntries (h : (placeEntries block cursor entries).2 < 2 ^ 64) :
    Placed block (placeEntries block cursor entries).2 cursor
      (placeEntries block cursor entries).1 := by
  induction entries generalizing cursor with
  | nil => exact .nil
  | cons entry entries ih =>
      have hall := placeEntries_snd block cursor (entry :: entries)
      rw [List.map_cons, List.sum_cons] at hall
      have haligned : (UInt64.ofNat (alignUp entry.imageSizeBytes.toNat block)).toNat =
          alignUp entry.imageSizeBytes.toNat block :=
        UInt64.toNat_ofNat_of_lt' (show _ < 2 ^ 64 by omega)
      refine .cons (UInt64.toNat_ofNat_of_lt' (show cursor < 2 ^ 64 by omega)) haligned ?_
      dsimp only
      rw [haligned]
      exact ih h

namespace Placed

theorem le_total (h : Placed block total cursor entries) : cursor ≤ total := by
  induction h with
  | nil => exact Nat.le_refl _
  | cons hoffset haligned _ ih => exact Nat.le_trans (Nat.le_add_right _ _) ih

theorem le_offset (h : Placed block total cursor entries) (hmem : entry ∈ entries) :
    cursor ≤ entry.offsetInDisc.toNat := by
  induction h with
  | nil => cases hmem
  | cons hoffset haligned _ ih =>
      rcases List.mem_cons.mp hmem with rfl | hlater
      · exact Nat.le_of_eq hoffset.symm
      · exact Nat.le_trans (Nat.le_add_right _ _) (ih hlater)

theorem end_le_total (h : Placed block total cursor entries) (hmem : entry ∈ entries) :
    entry.offsetInDisc.toNat + entry.alignedSizeBytes.toNat ≤ total := by
  induction h with
  | nil => cases hmem
  | cons hoffset haligned hrest ih =>
      rcases List.mem_cons.mp hmem with rfl | hlater
      · rw [hoffset]
        exact hrest.le_total
      · exact ih hlater

theorem aligned_eq (h : Placed block total cursor entries) (hmem : entry ∈ entries) :
    entry.alignedSizeBytes.toNat = alignUp entry.imageSizeBytes.toNat block := by
  induction h with
  | nil => cases hmem
  | cons hoffset haligned hrest ih =>
      rcases List.mem_cons.mp hmem with rfl | hlater
      · exact haligned
      · exact ih hlater

theorem pairwise (h : Placed block total cursor entries) : entries.Pairwise fun a b =>
    a.offsetInDisc.toNat + a.alignedSizeBytes.toNat ≤ b.offsetInDisc.toNat := by
  induction h with
  | nil => exact .nil
  | cons hoffset haligned hrest ih =>
      refine List.pairwise_cons.mpr ⟨fun later hlater => ?_, ih⟩
      rw [hoffset]
      exact hrest.le_offset hlater

theorem dvd_offset (h : Placed block total cursor entries) (hblock : block ≠ 0)
    (hcursor : block ∣ cursor) (hmem : entry ∈ entries) : block ∣ entry.offsetInDisc.toNat := by
  induction h with
  | nil => cases hmem
  | cons hoffset haligned _ ih =>
      rcases List.mem_cons.mp hmem with rfl | hlater
      · rwa [hoffset]
      · apply ih (Nat.dvd_add hcursor _) hlater
        rw [haligned]
        exact dvd_alignUp _ hblock

theorem last_ends (h : Placed block total cursor entries) {last : DiscImageEntry}
    (hlast : entries.getLast? = some last) :
    last.offsetInDisc.toNat + last.alignedSizeBytes.toNat = total := by
  induction h with
  | nil => cases hlast
  | @cons cursor entry entries hoffset haligned hrest ih =>
      cases hrest with
      | nil =>
          have hsame : entry = last := Option.some.inj hlast
          rw [← hsame, hoffset]
      | cons => exact ih hlast

end Placed

/-! ## Sealed sets -/

/-- The records of a disc as `FillDiscLayout` leaves them, below 64 bits. -/
structure Laid (config : NodeConfig) (entries : List DiscImageEntry) : Prop where
  filled : (fillDiscLayout config entries).1 = entries
  total_lt : (fillDiscLayout config entries).2 < 2 ^ 64
  capacity : (fillDiscLayout config entries).2 ≤ config.discCapacityBytes ∨ entries.length = 1
  sizes : ∀ entry ∈ entries, entry.imageSizeBytes ≠ 0
  storable : ∀ entry ∈ entries, entry.Storable
  count_lt : entries.length < 2 ^ 32

/-- What the layout of a disc promises. -/
structure LayoutSound (config : NodeConfig) (entries : List DiscImageEntry) : Prop where
  disjoint : entries.Pairwise fun a b =>
    a.offsetInDisc.toNat + a.alignedSizeBytes.toNat ≤ b.offsetInDisc.toNat
  whole : ∀ entry ∈ entries, entry.imageSizeBytes ≤ entry.alignedSizeBytes
  aligned : config.discBlockSizeBytes ≠ 0 → ∀ entry ∈ entries,
    config.discBlockSizeBytes ∣ entry.offsetInDisc.toNat ∧
      config.discBlockSizeBytes ∣ entry.alignedSizeBytes.toNat
  superblock : discSuperblockSize ≤ alignUp64 discSuperblockSize config.discBlockSizeBytes
  area : (metaArea entries).length ≤ metadataAreaBytes64 config entries.length
  behindHead : ∀ entry ∈ entries, alignUp64 discSuperblockSize config.discBlockSizeBytes +
    metadataAreaBytes64 config entries.length ≤ entry.offsetInDisc.toNat
  ends : ∀ last ∈ entries.getLast?, last.offsetInDisc.toNat + last.alignedSizeBytes.toNat =
    (fillDiscLayout64 config entries).2
  capacity : (fillDiscLayout64 config entries).2 ≤ config.discCapacityBytes ∨ entries.length = 1

theorem length_metaArea (entries : List DiscImageEntry) :
    (metaArea entries).length =
      discMetaHeaderSize + entries.length * discImageRecordSize.toNat := by
  have hrecords : ∀ entries : List DiscImageEntry,
      ((entries.map DiscImageEntry.serialize).flatten).length =
        entries.length * discImageRecordSize.toNat := by
    intro entries
    induction entries with
    | nil => exact (Nat.zero_mul _).symm
    | cons entry entries ih =>
        rw [List.map_cons, List.flatten_cons, List.length_append, ih,
          DiscImageEntry.length_serialize, List.length_cons, Nat.succ_mul, Nat.add_comm]
  rw [metaArea, List.length_append, length_layout, List.length_replicate, hrecords]

theorem length_metaArea_le (config : NodeConfig) (entries : List DiscImageEntry) :
    (metaArea entries).length ≤ metadataAreaBytes config entries.length := by
  rw [length_metaArea]
  apply Nat.le_trans _ (le_alignUp _ _)
  exact Nat.add_le_add_left (Nat.mul_le_mul_right _ (Nat.le_max_left _ _)) _

namespace Laid

theorem placed (h : Laid config entries) : Placed config.discBlockSizeBytes
    (fillDiscLayout config entries).2 (dataOffset config entries.length) entries := by
  have hplaced := placed_placeEntries h.total_lt
  have hsame : (placeEntries config.discBlockSizeBytes (dataOffset config entries.length)
      entries).1 = entries := h.filled
  rwa [hsame] at hplaced

theorem dataOffset_lt (h : Laid config entries) : dataOffset config entries.length < 2 ^ 64 :=
  Nat.lt_of_le_of_lt h.placed.le_total h.total_lt

theorem metadataOffset_eq (h : Laid config entries) :
    alignUp64 discSuperblockSize config.discBlockSizeBytes =
      alignUp discSuperblockSize config.discBlockSizeBytes :=
  alignUp64_eq (Nat.lt_of_le_of_lt (Nat.le_add_right _ _) h.dataOffset_lt)

theorem metadataArea_eq (h : Laid config entries) :
    metadataAreaBytes64 config entries.length = metadataAreaBytes config entries.length := by
  have harea : metadataAreaBytes config entries.length < 2 ^ 64 :=
    Nat.lt_of_le_of_lt (Nat.le_add_left _ _) h.dataOffset_lt
  unfold metadataAreaBytes64
  rw [Nat.mod_eq_of_lt (Nat.lt_of_le_of_lt (le_alignUp _ _) harea)]
  exact alignUp64_eq harea

theorem layoutSound (h : Laid config entries) : LayoutSound config entries where
  disjoint := h.placed.pairwise
  whole := by
    intro entry hmem
    rw [UInt64.le_iff_toNat_le, h.placed.aligned_eq hmem]
    exact le_alignUp _ _
  aligned := by
    intro hblock entry hmem
    have hcursor : config.discBlockSizeBytes ∣ dataOffset config entries.length :=
      Nat.dvd_add (dvd_alignUp _ hblock) (dvd_alignUp _ hblock)
    refine ⟨h.placed.dvd_offset hblock hcursor hmem, ?_⟩
    rw [h.placed.aligned_eq hmem]
    exact dvd_alignUp _ hblock
  superblock := by
    rw [h.metadataOffset_eq]
    exact le_alignUp _ _
  area := by
    rw [h.metadataArea_eq]
    exact length_metaArea_le config entries
  behindHead := by
    intro entry hmem
    rw [h.metadataOffset_eq, h.metadataArea_eq]
    exact h.placed.le_offset hmem
  ends := by
    intro last hlast
    rw [fillDiscLayout64_eq h.total_lt]
    exact h.placed.last_ends hlast
  capacity := by
    rw [fillDiscLayout64_eq h.total_lt]
    exact h.capacity

end Laid

/-! ## The metadata file -/

/-- `DiscMetaHeader::Parse`: the number of records. -/
def parseDiscMetaHeader (header : Bytes) : Option UInt32 :=
  if header.length < discMetaHeaderSize then none
  else if readU32 header 0 = discMetaMagic ∧ readU32 header 4 = discFormatVersion ∧
      readU32 header 8 = discImageRecordSize then some (readU32 header 12)
  else none

def parseRecords : Nat → Bytes → Option (List DiscImageEntry)
  | 0, _ => some []
  | count + 1, records => do
      let entry ← DiscImageEntry.parse (records.take discImageRecordSize.toNat)
      let rest ← parseRecords count (records.drop discImageRecordSize.toNat)
      some (entry :: rest)

/-- `ReadDiscMetaFile`, of a file that can be read. -/
def readDiscMetaFile (buffer : Bytes) : Option (List DiscImageEntry) :=
  if buffer = [] then none
  else
    match parseDiscMetaHeader buffer with
    | none => none
    | some entryCount =>
        if discMetaHeaderSize + entryCount.toNat * discImageRecordSize.toNat ≠ buffer.length then
          none
        else parseRecords entryCount.toNat (buffer.drop discMetaHeaderSize)

theorem parseRecords_serialize (h : ∀ entry ∈ entries, entry.Storable) (rest : Bytes) :
    parseRecords entries.length ((entries.map DiscImageEntry.serialize).flatten ++ rest) =
      some entries := by
  induction entries with
  | nil => rfl
  | cons entry entries ih =>
      have hentry := h entry List.mem_cons_self
      rw [List.map_cons, List.flatten_cons, List.append_assoc, List.length_cons, parseRecords,
        ← entry.length_serialize, List.take_left, List.drop_left,
        DiscImageEntry.parse_serialize hentry,
        ih fun other hmem => h other (List.mem_cons_of_mem _ hmem)]
      rfl

/-- The fields of the header that `metaArea` lays out. -/
def metaHeaderFields (entryCount : Nat) : List Field :=
  [.u32 0 discMetaMagic, .u32 4 discFormatVersion, .u32 8 discImageRecordSize,
    .u32 12 (UInt32.ofNat entryCount)]

theorem metaHeaderFields_disjoint (entryCount : Nat) :
    (metaHeaderFields entryCount).Pairwise Field.Disjoint := by
  simp [metaHeaderFields, Field.Disjoint, Field.u32]

theorem metaHeaderFields_fit (entryCount : Nat) : ∀ f ∈ metaHeaderFields entryCount, f.Fits := by
  simp [metaHeaderFields, Field.Fits, Field.u32]

theorem parseDiscMetaHeader_metaArea (entries : List DiscImageEntry) :
    parseDiscMetaHeader (metaArea entries) = some (UInt32.ofNat entries.length) := by
  have hlong : ¬ (metaArea entries).length < discMetaHeaderSize := by
    rw [length_metaArea]
    omega
  have hread : ∀ off v, Field.u32 off v ∈ metaHeaderFields entries.length → off + 4 ≤ 32 →
      readU32 (metaArea entries) off = v := by
    intro off v hmem hin
    rw [metaArea, readU32, slice_append (by rw [length_layout, List.length_replicate]; exact hin),
      ← readU32]
    exact readU32_layout hmem (metaHeaderFields_disjoint _) (metaHeaderFields_fit _)
      (by rw [List.length_replicate]; exact hin)
  unfold parseDiscMetaHeader
  rw [if_neg hlong, hread 0 discMetaMagic, hread 4 discFormatVersion, hread 8 discImageRecordSize,
    hread 12 (UInt32.ofNat entries.length), if_pos ⟨rfl, rfl, rfl⟩]
  all_goals simp [metaHeaderFields]

theorem readDiscMetaFile_metaArea (h : ∀ entry ∈ entries, entry.Storable)
    (hcount : entries.length < 2 ^ 32) : readDiscMetaFile (metaArea entries) = some entries := by
  have hlength := length_metaArea entries
  have hcount32 : (UInt32.ofNat entries.length).toNat = entries.length :=
    UInt32.toNat_ofNat_of_lt' hcount
  have hne : metaArea entries ≠ [] := by
    intro hnil
    rw [hnil] at hlength
    have hheader : discMetaHeaderSize = 32 := rfl
    rw [List.length_nil] at hlength
    omega
  have hdrop : (metaArea entries).drop discMetaHeaderSize =
      (entries.map DiscImageEntry.serialize).flatten := by
    rw [metaArea]
    apply List.drop_left'
    rw [length_layout, List.length_replicate]
  unfold readDiscMetaFile
  rw [if_neg hne, parseDiscMetaHeader_metaArea]
  dsimp only
  rw [hcount32, if_neg (not_not_intro hlength.symm), hdrop]
  have hrecords := parseRecords_serialize h []
  rwa [List.append_nil] at hrecords

/-! ## The disc file -/

variable {space space' : SpaceManager} {data disc : Bytes} {image : UInt64 → ImageFaults}

theorem length_padTo {size : Nat} {bytes : Bytes} (h : bytes.length ≤ size) :
    (padTo size bytes).length = size := by
  rw [padTo, List.length_append, List.length_replicate]
  omega

theorem take_padTo (size : Nat) (bytes : Bytes) : (padTo size bytes).take bytes.length = bytes := by
  rw [padTo]
  exact List.take_left

theorem lookup_removeWriteImage {volumeId other : UInt64} {unlinked : Bool} {bytes : Bytes}
    (h : (space.removeWriteImage volumeId unlinked).2.imageDir.lookup other = some bytes) :
    space.imageDir.lookup other = some bytes := by
  rw [SpaceManager.removeWriteImage] at h
  split at h
  · rw [SpaceManager.deleteFileAndEntry] at h
    split at h
    · exact h
    split at h
    · exact h
    · dsimp only at h
      rcases eq_or_ne other volumeId with rfl | hne
      · rw [AList.lookup_erase] at h
        cases h
      · rwa [AList.lookup_erase_ne hne] at h
  · exact h

/-- The bytes of a slice do not depend on what comes behind it. -/
theorem slice_eq_of_starts {start size : Nat} (hpre : data <+: disc)
    (hin : start + size ≤ data.length) : slice disc start size = slice data start size := by
  obtain ⟨rest, rfl⟩ := hpre
  exact slice_append hin

/-- The data area: the disc grows to the total, and each image stands at its place. -/
theorem copyImages_placed (h : Placed block total data.length entries)
    (hcopied : copyImages image entries space data = (some disc, space')) :
    disc.length = total ∧ data <+: disc ∧ ∀ entry ∈ entries, ∃ bytes,
      space.imageDir.lookup entry.volumeId = some bytes ∧
        bytes.length = entry.imageSizeBytes.toNat ∧
        slice disc entry.offsetInDisc.toNat entry.imageSizeBytes.toNat = bytes := by
  induction entries generalizing space data with
  | nil =>
      cases hcopied
      cases h
      exact ⟨rfl, List.prefix_refl _, fun _ hmem => nomatch hmem⟩
  | cons entry entries ih =>
      obtain ⟨hoffset, haligned, hrest⟩ : entry.offsetInDisc.toNat = data.length ∧
          entry.alignedSizeBytes.toNat = alignUp entry.imageSizeBytes.toNat block ∧
          Placed block total (data.length + entry.alignedSizeBytes.toNat) entries := by
        cases h with
        | cons hoffset haligned hrest => exact ⟨hoffset, haligned, hrest⟩
      rw [copyImages] at hcopied
      split at hcopied
      · cases hcopied
      rename_i bytes hbytes
      split at hcopied
      · cases hcopied
      rename_i hgood
      have hsize : bytes.length = entry.imageSizeBytes.toNat :=
        not_not.mp fun hne => hgood (.inr (.inl hne))
      have hwhole : bytes.length ≤ entry.alignedSizeBytes.toNat := by
        rw [hsize, haligned]
        exact le_alignUp _ _
      have hlength : (data ++ padTo entry.alignedSizeBytes.toNat bytes).length =
          data.length + entry.alignedSizeBytes.toNat := by
        rw [List.length_append, length_padTo hwhole]
      rw [← hlength] at hrest
      obtain ⟨htotal, hpre, himages⟩ := ih hrest hcopied
      refine ⟨htotal, (List.prefix_append _ _).trans hpre, fun other hmem => ?_⟩
      rcases List.mem_cons.mp hmem with rfl | hlater
      · refine ⟨bytes, hbytes, hsize, ?_⟩
        rw [slice_eq_of_starts hpre (by rw [hlength, hoffset]; omega), hoffset, slice,
          List.drop_left, ← hsize]
        exact take_padTo _ _
      · obtain ⟨found, hfound, hrest⟩ := himages other hlater
        exact ⟨found, lookup_removeWriteImage hfound, hrest⟩

theorem length_superblock (config : NodeConfig) (discId createdAtMs : UInt64) (count : Nat) :
    (superblock config discId createdAtMs count).length = discSuperblockSize := by
  rw [superblock, length_layout, List.length_replicate]

theorem length_discHead (config : NodeConfig) (discId createdAtMs : UInt64)
    (entries : List DiscImageEntry) :
    (discHead config discId createdAtMs entries).length = dataOffset config entries.length := by
  rw [discHead, List.length_append, length_padTo, length_padTo (length_metaArea_le config entries)]
  · rfl
  · rw [length_superblock]
    exact le_alignUp _ _

theorem slice_discHead (config : NodeConfig) (discId createdAtMs : UInt64)
    (entries : List DiscImageEntry) :
    slice (discHead config discId createdAtMs entries)
        (alignUp discSuperblockSize config.discBlockSizeBytes) (metaArea entries).length =
      metaArea entries := by
  have hhead : (padTo (alignUp discSuperblockSize config.discBlockSizeBytes)
      (superblock config discId createdAtMs entries.length)).length =
        alignUp discSuperblockSize config.discBlockSizeBytes := by
    apply length_padTo
    rw [length_superblock]
    exact le_alignUp _ _
  rw [discHead, slice, List.drop_left' hhead]
  exact take_padTo _ _

/-- What the disc file holds: the metadata area and every image. -/
structure DiscHolds (config : NodeConfig) (space : SpaceManager) (entries : List DiscImageEntry)
    (disc : Bytes) : Prop where
  length : disc.length = (fillDiscLayout64 config entries).2
  metadata : readDiscMetaFile (slice disc (alignUp64 discSuperblockSize config.discBlockSizeBytes)
    (metaArea entries).length) = some entries
  images : ∀ entry ∈ entries, ∃ bytes, space.imageDir.lookup entry.volumeId = some bytes ∧
    extractRangeFromDisc disc entry.offsetInDisc entry.imageSizeBytes = some bytes

theorem Laid.discHolds (h : Laid config entries) {discId : UInt64} {faults : BurnFaults}
    (hwritten : writeVdiscAndReleaseImages config space discId entries faults =
      (some disc, space')) : DiscHolds config space entries disc := by
  rw [writeVdiscAndReleaseImages] at hwritten
  split at hwritten
  · cases hwritten
  split at hwritten
  · cases hwritten
  rename_i written released hcopied
  split at hwritten
  swap
  · cases hwritten
  cases hwritten
  have hhead := length_discHead config discId faults.createdAtMs entries
  have hplaced := h.placed
  rw [← hhead] at hplaced
  obtain ⟨htotal, hpre, himages⟩ := copyImages_placed hplaced hcopied
  refine ⟨?_, ?_, ?_⟩
  · rw [htotal, fillDiscLayout64_eq h.total_lt]
  · have hin : alignUp discSuperblockSize config.discBlockSizeBytes + (metaArea entries).length ≤
        (discHead config discId faults.createdAtMs entries).length := by
      rw [hhead]
      exact Nat.add_le_add_left (length_metaArea_le config entries) _
    rw [h.metadataOffset_eq, slice_eq_of_starts hpre hin, slice_discHead]
    exact readDiscMetaFile_metaArea h.storable h.count_lt
  · intro entry hmem
    obtain ⟨bytes, hbytes, hsize, hslice⟩ := himages entry hmem
    refine ⟨bytes, hbytes, ?_⟩
    have hend := h.placed.end_le_total hmem
    have hwhole := UInt64.le_iff_toNat_le.mp (h.layoutSound.whole entry hmem)
    rw [extractRangeFromDisc, if_neg (h.sizes entry hmem), if_neg (by omega), hslice]

end Zb.OpticalNode
