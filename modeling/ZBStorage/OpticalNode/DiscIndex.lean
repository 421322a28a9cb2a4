-- SUMMARY: The index of burned discs: blocks appended to one file, and what a block cut short does to it.
import Mathlib.Data.List.AList
import ZBStorage.Lib.Bytes
import ZBStorage.Lib.CallHistory

/-!
# The index of burned discs

`IndexBurnedDisc` and `RebuildDiscImageIndex` of `optical_node_manager.cpp`, with
the codec of `node_discs_meta`. Every disc appends a block to the file: a header
and a record for each image. A restart reads the blocks in their order and stops
at the first one that is cut short, whatever stands after it.
-/

namespace Zb.OpticalNode

open Bytes CallHistory

/-! ## The codec -/

def discIndexMagic : UInt32 := 0x5A424449
def discFormatVersion : UInt32 := 1
def discImageRecordSize : UInt32 := 128
def discIndexHeaderSize : UInt32 := 32
def discSha256HexLength : UInt32 := 64

structure DiscImageEntry where
  volumeId : UInt64 := 0
  imageSizeBytes : UInt64 := 0
  alignedSizeBytes : UInt64 := 0
  offsetInDisc : UInt64 := 0
  sha256Hex : Bytes := []
  deriving DecidableEq

/-- A string in a slot of zeros, cut to its size. -/
def fixedString (capacity : Nat) (text : Bytes) : Bytes :=
  text.take capacity ++ List.replicate (capacity - text.length) 0

def readFixedString (field : Bytes) : Bytes := field.takeWhile fun b => b ≠ 0

def DiscImageEntry.fields (entry : DiscImageEntry) : List Field :=
  [.u64 0 entry.volumeId, .u64 8 entry.imageSizeBytes, .u64 16 entry.alignedSizeBytes,
    .u64 24 entry.offsetInDisc,
    ⟨32, 64, fixedString discSha256HexLength.toNat entry.sha256Hex⟩]

def DiscImageEntry.serialize (entry : DiscImageEntry) : Bytes :=
  layout (List.replicate discImageRecordSize.toNat 0) entry.fields

def DiscImageEntry.parse (record : Bytes) : Option DiscImageEntry :=
  if record.length ≠ discImageRecordSize.toNat then none
  else some
    { volumeId := readU64 record 0
      imageSizeBytes := readU64 record 8
      alignedSizeBytes := readU64 record 16
      offsetInDisc := readU64 record 24
      sha256Hex := readFixedString (slice record 32 discSha256HexLength.toNat) }

structure DiscIndexHeader where
  magicNumber : UInt32 := discIndexMagic
  formatVersion : UInt32 := discFormatVersion
  recordSize : UInt32 := discImageRecordSize
  entryCount : UInt32 := 0
  discId : UInt64 := 0
  deriving DecidableEq

def DiscIndexHeader.fields (header : DiscIndexHeader) : List Field :=
  [.u32 0 header.magicNumber, .u32 4 header.formatVersion, .u32 8 header.recordSize,
    .u32 12 header.entryCount, .u64 16 header.discId]

def DiscIndexHeader.serialize (header : DiscIndexHeader) : Bytes :=
  layout (List.replicate discIndexHeaderSize.toNat 0) header.fields

def DiscIndexHeader.parse (header : Bytes) : Option DiscIndexHeader :=
  if header.length < discIndexHeaderSize.toNat then none
  else
    let out : DiscIndexHeader :=
      { magicNumber := readU32 header 0
        formatVersion := readU32 header 4
        recordSize := readU32 header 8
        entryCount := readU32 header 12
        discId := readU64 header 16 }
    if out.magicNumber = discIndexMagic ∧ out.formatVersion = discFormatVersion ∧
        out.recordSize = discImageRecordSize then some out
    else none

/-! ## The manager -/

structure DiscImageLocation where
  diskId : Bytes
  offsetInDisc : UInt64
  imageSizeBytes : UInt64
  sha256Hex : Bytes
  deriving DecidableEq

abbrev DiscImageIndex := AList fun _ : UInt64 => DiscImageLocation

def DiscImageEntry.location (diskId : Bytes) (entry : DiscImageEntry) : DiscImageLocation where
  diskId := diskId
  offsetInDisc := entry.offsetInDisc
  imageSizeBytes := entry.imageSizeBytes
  sha256Hex := entry.sha256Hex

def file (diskId : Bytes) (index : DiscImageIndex) (entry : DiscImageEntry) : DiscImageIndex :=
  index.insert entry.volumeId (entry.location diskId)

/-- The loop over the records of a block. -/
def readRecords (diskId : Bytes) : Nat → Bytes → DiscImageIndex → DiscImageIndex × Bool
  | 0, _, rebuilt => (rebuilt, true)
  | count + 1, records, rebuilt =>
      match DiscImageEntry.parse (records.take discImageRecordSize.toNat) with
      | none => (rebuilt, false)
      | some entry =>
          readRecords diskId count (records.drop discImageRecordSize.toNat)
            (file diskId rebuilt entry)

/-- The loop over the blocks, and whether it came to the end of the file. Every block
    takes at least a header, so the length of the file bounds the rounds. -/
def readBlocks : Nat → Bytes → DiscImageIndex → DiscImageIndex × Bool
  | 0, buffer, rebuilt => (rebuilt, buffer.isEmpty)
  | rounds + 1, buffer, rebuilt =>
      if buffer.isEmpty then (rebuilt, true)
      else
        match DiscIndexHeader.parse buffer with
        | none => (rebuilt, false)
        | some header =>
            let blockBytes := discIndexHeaderSize.toNat +
              header.entryCount.toNat * discImageRecordSize.toNat
            if blockBytes > buffer.length then (rebuilt, false)
            else
              match readRecords (decimal header.discId.toNat) header.entryCount.toNat
                  (buffer.drop discIndexHeaderSize.toNat) rebuilt with
              | (rebuilt, false) => (rebuilt, false)
              | (rebuilt, true) => readBlocks rounds (buffer.drop blockBytes) rebuilt

def readIndex (buffer : Bytes) : DiscImageIndex × Bool := readBlocks buffer.length buffer ∅

/-- `node_discs_meta` and the index in memory. -/
structure DiscIndexState where
  nodeDiscsMeta : Bytes := []
  discImageIndex : DiscImageIndex := ∅

/-- What becomes of an append: it succeeds, or it fails after some bytes. One that fails
    in `fsync` or `close` has written all of them. -/
inductive AppendOutcome
  | done
  | failed (written : Nat)

def blockOf (discId : UInt64) (entries : List DiscImageEntry) : Bytes :=
  let header : DiscIndexHeader := { entryCount := UInt32.ofNat entries.length, discId := discId }
  header.serialize ++ (entries.map DiscImageEntry.serialize).flatten

def AppendOutcome.written (outcome : AppendOutcome) (block : Bytes) : Bytes :=
  match outcome with
  | .done => block
  | .failed written => block.take written

/-- A read that fails leaves the index empty. -/
def DiscIndexState.rebuildDiscImageIndex (state : DiscIndexState) (readable : Bool) :
    DiscIndexState :=
  { state with discImageIndex := if readable then (readIndex state.nodeDiscsMeta).1 else ∅ }

def DiscIndexState.alreadyIndexed (state : DiscIndexState) (diskId : Bytes)
    (entries : List DiscImageEntry) : Bool :=
  entries.all fun entry =>
    match state.discImageIndex.lookup entry.volumeId with
    | none => false
    | some location => location.diskId = diskId

def DiscIndexState.indexBurnedDisc (state : DiscIndexState) (discId : UInt64) (diskId : Bytes)
    (entries : List DiscImageEntry) (outcome : AppendOutcome) : Bool × DiscIndexState :=
  if entries.isEmpty then (true, state)
  else
    let indexed := entries.foldl (file diskId) state.discImageIndex
    if state.alreadyIndexed diskId entries then (true, { state with discImageIndex := indexed })
    else
      let appended := state.nodeDiscsMeta ++ outcome.written (blockOf discId entries)
      match outcome with
      | .failed _ => (false, { state with nodeDiscsMeta := appended })
      | .done => (true, { nodeDiscsMeta := appended, discImageIndex := indexed })

/-! ## Round trips -/

/-- The digest fits its slot and is read back whole. -/
def DiscImageEntry.Storable (entry : DiscImageEntry) : Prop :=
  entry.sha256Hex.length ≤ discSha256HexLength.toNat ∧ 0 ∉ entry.sha256Hex

instance (entry : DiscImageEntry) : Decidable entry.Storable :=
  inferInstanceAs (Decidable (_ ∧ _))

variable {discId : UInt64} {diskId : Bytes} {entry : DiscImageEntry}
  {entries : List DiscImageEntry} {index : DiscImageIndex}

theorem slice_append {buf rest : Bytes} {off n : Nat} (h : off + n ≤ buf.length) :
    slice (buf ++ rest) off n = slice buf off n := by
  rw [slice, slice, List.drop_append_of_le_length (by omega), List.take_append_of_le_length]
  rw [List.length_drop]
  omega

theorem length_fixedString (capacity : Nat) (text : Bytes) :
    (fixedString capacity text).length = capacity := by
  rw [fixedString, List.length_append, List.length_take, List.length_replicate]
  omega

theorem readFixedString_fixedString {capacity : Nat} {text : Bytes} (h : text.length ≤ capacity)
    (hzero : 0 ∉ text) : readFixedString (fixedString capacity text) = text := by
  have hkept : ∀ b ∈ text, decide (b ≠ 0) = true := fun b hb =>
    decide_eq_true fun heq => hzero (heq ▸ hb)
  rw [readFixedString, fixedString, List.take_of_length_le h, List.takeWhile_append_of_pos hkept]
  cases capacity - text.length with
  | zero => simp
  | succ n => simp [List.replicate_succ]

@[simp] theorem DiscImageEntry.length_serialize (entry : DiscImageEntry) :
    entry.serialize.length = discImageRecordSize.toNat := by
  rw [serialize, length_layout, List.length_replicate]

theorem DiscImageEntry.fields_disjoint (entry : DiscImageEntry) :
    entry.fields.Pairwise Field.Disjoint := by
  simp [fields, Field.Disjoint, Field.u64]

theorem DiscImageEntry.fields_fit (entry : DiscImageEntry) : ∀ f ∈ entry.fields, f.Fits := by
  simp [fields, Field.Fits, Field.u64, length_fixedString, discSha256HexLength]

theorem DiscImageEntry.parse_serialize (h : entry.Storable) :
    parse entry.serialize = some entry := by
  have hread : ∀ off v, Field.u64 off v ∈ entry.fields → off + 8 ≤ 128 →
      readU64 entry.serialize off = v := fun off v hmem hin =>
    readU64_layout hmem entry.fields_disjoint entry.fields_fit
      (by rw [List.length_replicate]; exact hin)
  have hsha : slice entry.serialize 32 discSha256HexLength.toNat =
      fixedString discSha256HexLength.toNat entry.sha256Hex := by
    have hslice : slice entry.serialize 32
        (fixedString discSha256HexLength.toNat entry.sha256Hex).length =
        fixedString discSha256HexLength.toNat entry.sha256Hex :=
      slice_layout (f := ⟨32, 64, fixedString discSha256HexLength.toNat entry.sha256Hex⟩)
        (by simp [fields]) entry.fields_disjoint entry.fields_fit (by simp [discImageRecordSize])
    rw [length_fixedString] at hslice
    exact hslice
  rw [parse, length_serialize, if_neg (by simp), hread 0 entry.volumeId, hread 8 entry.imageSizeBytes,
    hread 16 entry.alignedSizeBytes, hread 24 entry.offsetInDisc, hsha,
    readFixedString_fixedString h.1 h.2]
  all_goals simp [fields]

@[simp] theorem DiscIndexHeader.length_serialize (header : DiscIndexHeader) :
    header.serialize.length = discIndexHeaderSize.toNat := by
  rw [serialize, length_layout, List.length_replicate]

theorem DiscIndexHeader.fields_disjoint (header : DiscIndexHeader) :
    header.fields.Pairwise Field.Disjoint := by
  simp [fields, Field.Disjoint, Field.u64, Field.u32]

theorem DiscIndexHeader.fields_fit (header : DiscIndexHeader) : ∀ f ∈ header.fields, f.Fits := by
  simp [fields, Field.Fits, Field.u64, Field.u32]

/-- A header is read back from the front of whatever follows it. -/
theorem DiscIndexHeader.parse_serialize (entryCount : UInt32) (discId : UInt64) (rest : Bytes) :
    parse (({ entryCount := entryCount, discId := discId } : DiscIndexHeader).serialize ++ rest) =
      some { entryCount := entryCount, discId := discId } := by
  generalize hheader : ({ entryCount := entryCount, discId := discId } : DiscIndexHeader) = header
  have hread32 : ∀ off v, Field.u32 off v ∈ header.fields → off + 4 ≤ 32 →
      readU32 (header.serialize ++ rest) off = v := by
    intro off v hmem hin
    rw [readU32, slice_append (by rw [length_serialize]; exact hin), ← readU32]
    exact readU32_layout hmem header.fields_disjoint header.fields_fit
      (by rw [List.length_replicate]; exact hin)
  have hread64 : ∀ off v, Field.u64 off v ∈ header.fields → off + 8 ≤ 32 →
      readU64 (header.serialize ++ rest) off = v := by
    intro off v hmem hin
    rw [readU64, slice_append (by rw [length_serialize]; exact hin), ← readU64]
    exact readU64_layout hmem header.fields_disjoint header.fields_fit
      (by rw [List.length_replicate]; exact hin)
  have hlong : ¬(header.serialize ++ rest).length < discIndexHeaderSize.toNat := by
    rw [List.length_append, length_serialize]
    omega
  rw [parse, if_neg hlong, hread32 0 header.magicNumber, hread32 4 header.formatVersion,
    hread32 8 header.recordSize, hread32 12 header.entryCount, hread64 16 header.discId]
  · subst hheader
    rfl
  all_goals simp [fields]

theorem readRecords_serialize (hstorable : ∀ entry ∈ entries, entry.Storable) (rest : Bytes) :
    readRecords diskId entries.length ((entries.map DiscImageEntry.serialize).flatten ++ rest)
        index =
      (entries.foldl (file diskId) index, true) := by
  induction entries generalizing index with
  | nil => rfl
  | cons entry entries ih =>
      have hentry := hstorable entry List.mem_cons_self
      have htake : (entry.serialize ++ ((entries.map DiscImageEntry.serialize).flatten ++
          rest)).take discImageRecordSize.toNat = entry.serialize := by
        rw [← entry.length_serialize, List.take_left]
      have hdrop : (entry.serialize ++ ((entries.map DiscImageEntry.serialize).flatten ++
          rest)).drop discImageRecordSize.toNat =
          (entries.map DiscImageEntry.serialize).flatten ++ rest := by
        rw [← entry.length_serialize, List.drop_left]
      rw [List.map_cons, List.flatten_cons, List.append_assoc, List.length_cons, readRecords, htake,
        hdrop, DiscImageEntry.parse_serialize hentry]
      exact ih fun other hmem => hstorable other (List.mem_cons_of_mem _ hmem)

/-! ## Blocks -/

/-- The block of a disc, with records that are read back whole. -/
structure Block where
  discId : UInt64
  entries : List DiscImageEntry
  counted : entries.length < 2 ^ 32
  storable : ∀ entry ∈ entries, entry.Storable

namespace Block

def bytes (block : Block) : Bytes := blockOf block.discId block.entries

def fileInto (index : DiscImageIndex) (block : Block) : DiscImageIndex :=
  block.entries.foldl (file (decimal block.discId.toNat)) index

theorem length_bytes (block : Block) :
    block.bytes.length =
      discIndexHeaderSize.toNat + block.entries.length * discImageRecordSize.toNat := by
  have hrecords : ∀ entries : List DiscImageEntry,
      ((entries.map DiscImageEntry.serialize).flatten).length =
        entries.length * discImageRecordSize.toNat := by
    intro entries
    induction entries with
    | nil => simp
    | cons entry entries ih =>
        rw [List.map_cons, List.flatten_cons, List.length_append, ih, DiscImageEntry.length_serialize,
          List.length_cons, Nat.succ_mul, Nat.add_comm]
  rw [bytes, blockOf, List.length_append, DiscIndexHeader.length_serialize, hrecords]

theorem toNat_entryCount (block : Block) :
    (UInt32.ofNat block.entries.length).toNat = block.entries.length := by
  rw [UInt32.toNat_ofNat']
  exact Nat.mod_eq_of_lt block.counted

theorem parse_bytes (block : Block) (rest : Bytes) :
    DiscIndexHeader.parse (block.bytes ++ rest) =
      some { entryCount := UInt32.ofNat block.entries.length, discId := block.discId } := by
  rw [bytes, blockOf, List.append_assoc]
  exact DiscIndexHeader.parse_serialize ..

theorem bytes_ne_nil (block : Block) (rest : Bytes) : (block.bytes ++ rest).isEmpty = false := by
  have hlength := block.length_bytes
  cases hbytes : block.bytes with
  | nil => simp [hbytes, discIndexHeaderSize] at hlength; omega
  | cons b bs => rfl

/-- A whole block is read, and the rest after it. -/
theorem readBlocks_bytes (block : Block) (rounds : Nat) (rest : Bytes) :
    readBlocks (rounds + 1) (block.bytes ++ rest) index =
      readBlocks rounds rest (block.fileInto index) := by
  have hlength := block.length_bytes
  have hfits : ¬discIndexHeaderSize.toNat + block.entries.length * discImageRecordSize.toNat >
      (block.bytes ++ rest).length := by
    rw [List.length_append, hlength]
    omega
  have hdrop : (block.bytes ++ rest).drop (discIndexHeaderSize.toNat +
      block.entries.length * discImageRecordSize.toNat) = rest := by
    rw [← hlength, List.drop_left]
  have hrecords : (block.bytes ++ rest).drop discIndexHeaderSize.toNat =
      (block.entries.map DiscImageEntry.serialize).flatten ++ rest := by
    rw [bytes, blockOf, List.append_assoc]
    exact List.drop_left' (DiscIndexHeader.length_serialize _)
  simp only [readBlocks, block.bytes_ne_nil, block.parse_bytes, block.toNat_entryCount, hfits,
    Bool.false_eq_true, if_false, hrecords, readRecords_serialize block.storable, hdrop]
  rfl

/-- A block that is cut short ends the reading. -/
theorem readBlocks_take (block : Block) (rounds : Nat) {written : Nat}
    (hsome : 0 < written) (hshort : written < block.bytes.length) :
    readBlocks (rounds + 1) (block.bytes.take written) index = (index, false) := by
  have hlength : (block.bytes.take written).length = written := by
    rw [List.length_take]
    omega
  have hnonempty : (block.bytes.take written).isEmpty = false := by
    cases htake : block.bytes.take written with
    | nil => rw [htake] at hlength; simp at hlength; omega
    | cons b bs => rfl
  rw [readBlocks, hnonempty]
  simp only [Bool.false_eq_true, if_false]
  by_cases hheader : written < discIndexHeaderSize.toNat
  · rw [DiscIndexHeader.parse, if_pos (by rw [hlength]; exact hheader)]
  · -- the header is whole, and counts records that are missing
    have hparse : DiscIndexHeader.parse (block.bytes.take written) =
        some { entryCount := UInt32.ofNat block.entries.length, discId := block.discId } := by
      rw [bytes, blockOf, List.take_append, DiscIndexHeader.length_serialize,
        List.take_of_length_le (by rw [DiscIndexHeader.length_serialize]; omega)]
      exact DiscIndexHeader.parse_serialize ..
    rw [hparse]
    dsimp only
    rw [block.toNat_entryCount, if_pos (by rw [hlength, ← block.length_bytes]; exact hshort)]

end Block

/-- What an append that failed may leave after the last whole block. -/
def Torn (bytes : Bytes) : Prop :=
  bytes = [] ∨ ∃ (block : Block) (written : Nat), 0 < written ∧ written < block.bytes.length ∧
    bytes = block.bytes.take written

theorem Torn.readBlocks {torn : Bytes} (h : Torn torn) {rounds : Nat}
    (hrounds : torn.length ≤ rounds) : readBlocks rounds torn index = (index, torn.isEmpty) := by
  rcases h with rfl | ⟨block, written, hsome, hshort, rfl⟩
  · cases rounds with
    | zero => rfl
    | succ rounds => rfl
  · have hlength : (block.bytes.take written).length = written := by
      rw [List.length_take]
      omega
    have hnonempty : (block.bytes.take written).isEmpty = false := by
      rw [List.isEmpty_eq_false_iff, ← List.length_pos_iff]
      omega
    obtain ⟨rounds, rfl⟩ : ∃ n, rounds = n + 1 := ⟨rounds - 1, by omega⟩
    rw [block.readBlocks_take rounds hsome hshort, hnonempty]

theorem readBlocks_blocks (blocks : List Block) (rounds : Nat) (rest : Bytes) :
    readBlocks (blocks.length + rounds) ((blocks.map Block.bytes).flatten ++ rest) index =
      readBlocks rounds rest (blocks.foldl Block.fileInto index) := by
  induction blocks generalizing index with
  | nil => rw [List.length_nil, Nat.zero_add]; rfl
  | cons block blocks ih =>
      rw [List.length_cons, Nat.add_right_comm, List.map_cons, List.flatten_cons, List.append_assoc,
        block.readBlocks_bytes, ih]
      rfl

theorem length_le_flatten (blocks : List Block) :
    blocks.length ≤ ((blocks.map Block.bytes).flatten).length := by
  induction blocks with
  | nil => exact Nat.le_refl 0
  | cons block blocks ih =>
      have hlength := block.length_bytes
      have hheader : discIndexHeaderSize.toNat = 32 := rfl
      rw [List.length_cons, List.map_cons, List.flatten_cons, List.length_append]
      omega

/-- Reading the file finds the whole blocks, and notices what stands after them. -/
theorem readIndex_blocks (blocks : List Block) {torn : Bytes} (h : Torn torn) :
    readIndex ((blocks.map Block.bytes).flatten ++ torn) =
      (blocks.foldl Block.fileInto ∅, torn.isEmpty) := by
  have hle := length_le_flatten blocks
  have hlength : ((blocks.map Block.bytes).flatten ++ torn).length =
      blocks.length + (((blocks.map Block.bytes).flatten).length - blocks.length + torn.length) := by
    rw [List.length_append]
    omega
  rw [readIndex, hlength, readBlocks_blocks, h.readBlocks (by omega)]

/-! ## Runs -/

inductive DiscIndexCall
  | indexBurnedDisc (discId : UInt64) (diskId : Bytes) (entries : List DiscImageEntry)
      (outcome : AppendOutcome)
  | restart (readable : Bool)

def DiscIndexState.serve (state : DiscIndexState) : DiscIndexCall → DiscIndexState
  | .indexBurnedDisc discId diskId entries outcome =>
      (state.indexBurnedDisc discId diskId entries outcome).2
  | .restart readable => state.rebuildDiscImageIndex readable

def DiscIndexState.Serve (state : DiscIndexState) (call : DiscIndexCall) (state' : DiscIndexState) :
    Prop := state' = state.serve call

/-- The call reports the disc as indexed. -/
def DiscIndexState.indexes (state : DiscIndexState) : DiscIndexCall → Bool
  | .indexBurnedDisc discId diskId entries outcome =>
      (state.indexBurnedDisc discId diskId entries outcome).1
  | .restart _ => false

/-- The call leaves its whole block in the file. -/
def DiscIndexState.appends (state : DiscIndexState) : DiscIndexCall → Bool
  | .indexBurnedDisc discId diskId entries outcome =>
      !entries.isEmpty && !state.alreadyIndexed diskId entries &&
        outcome.written (blockOf discId entries) = blockOf discId entries
  | .restart _ => false

/-- The images that a call names, with their places. -/
def DiscIndexCall.recordInto (index : DiscImageIndex) : DiscIndexCall → DiscImageIndex
  | .indexBurnedDisc _ diskId entries _ => entries.foldl (file diskId) index
  | .restart _ => index

/-- What was recorded last for each image, by a call that reported success or left its
    whole block. -/
def recorded (hist : List (Served DiscIndexState DiscIndexCall)) : DiscImageIndex :=
  hist.foldl (fun index served =>
    if served.before.indexes served.call || served.before.appends served.call then
      served.call.recordInto index
    else index) ∅

/-- After a restart the index is what was recorded. -/
def IndexSurvives (ok : DiscIndexState → DiscIndexCall → Prop) : Prop :=
  ∀ hist state, Serves DiscIndexState.Serve ok {} hist state → ∀ volumeId,
    (state.rebuildDiscImageIndex true).discImageIndex.lookup volumeId =
      (recorded hist).lookup volumeId

/-- The call names its disc and its records as the callers do. It appends to a file that
    ends with a whole block, and does without appending only if the file says the same. -/
def Whole (state : DiscIndexState) : DiscIndexCall → Prop
  | .indexBurnedDisc discId diskId entries _ =>
      diskId = decimal discId.toNat ∧ entries.length < 2 ^ 32 ∧
      (∀ entry ∈ entries, entry.Storable) ∧
      if state.alreadyIndexed diskId entries then
        ∀ entry ∈ entries, (readIndex state.nodeDiscsMeta).1.lookup entry.volumeId =
          some (entry.location diskId)
      else (readIndex state.nodeDiscsMeta).2 = true
  | .restart _ => True

instance (state : DiscIndexState) : (call : DiscIndexCall) → Decidable (Whole state call)
  | .indexBurnedDisc _ _ _ _ => inferInstanceAs (Decidable (_ ∧ _ ∧ _ ∧ _))
  | .restart _ => inferInstanceAs (Decidable True)

/-! ## Whole blocks survive -/

theorem lookup_foldl_file_congr {index' : DiscImageIndex}
    (h : ∀ volumeId, index.lookup volumeId = index'.lookup volumeId) (volumeId : UInt64) :
    (entries.foldl (file diskId) index).lookup volumeId =
      (entries.foldl (file diskId) index').lookup volumeId := by
  induction entries generalizing index index' with
  | nil => exact h volumeId
  | cons entry entries ih =>
      apply ih
      intro other
      by_cases hsame : other = entry.volumeId
      · rw [hsame, file, file, AList.lookup_insert, AList.lookup_insert]
      · rw [file, file, AList.lookup_insert_ne hsame, AList.lookup_insert_ne hsame, h]

/-- Filing what is filed already changes nothing. -/
theorem lookup_foldl_file_same
    (h : ∀ entry ∈ entries, index.lookup entry.volumeId = some (entry.location diskId))
    (volumeId : UInt64) :
    (entries.foldl (file diskId) index).lookup volumeId = index.lookup volumeId := by
  induction entries with
  | nil => rfl
  | cons entry entries ih =>
      have hsame : ∀ other, (file diskId index entry).lookup other = index.lookup other := by
        intro other
        by_cases hother : other = entry.volumeId
        · rw [hother, file, AList.lookup_insert, h entry List.mem_cons_self]
        · rw [file, AList.lookup_insert_ne hother]
      rw [List.foldl_cons, lookup_foldl_file_congr hsame]
      exact ih fun other hmem => h other (List.mem_cons_of_mem _ hmem)

variable {hist : List (Served DiscIndexState DiscIndexCall)} {state state' : DiscIndexState}
  {call : DiscIndexCall}

theorem recorded_snoc (hist : List (Served DiscIndexState DiscIndexCall)) (state : DiscIndexState)
    (call : DiscIndexCall) (state' : DiscIndexState) :
    recorded (hist ++ [⟨state, call, state'⟩]) =
      if state.indexes call || state.appends call then call.recordInto (recorded hist)
      else recorded hist := by
  rw [recorded, List.foldl_append]
  rfl

/-- The file is whole blocks, with what was recorded, and perhaps a part of one more. -/
def Holds (hist : List (Served DiscIndexState DiscIndexCall)) (nodeDiscsMeta : Bytes) : Prop :=
  ∃ (blocks : List Block) (torn : Bytes), Torn torn ∧
    nodeDiscsMeta = (blocks.map Block.bytes).flatten ++ torn ∧
    ∀ volumeId, (blocks.foldl Block.fileInto ∅).lookup volumeId = (recorded hist).lookup volumeId

theorem Holds.lookup {nodeDiscsMeta : Bytes} (h : Holds hist nodeDiscsMeta) (volumeId : UInt64) :
    (readIndex nodeDiscsMeta).1.lookup volumeId = (recorded hist).lookup volumeId := by
  obtain ⟨blocks, torn, htorn, rfl, hsame⟩ := h
  rw [readIndex_blocks blocks htorn, hsame]

/-- A call that records nothing and leaves the file keeps what it holds. -/
theorem Holds.keep {nodeDiscsMeta : Bytes} (h : Holds hist nodeDiscsMeta)
    (hsame : ∀ volumeId, (recorded (hist ++ [⟨state, call, state'⟩])).lookup volumeId =
      (recorded hist).lookup volumeId) :
    Holds (hist ++ [⟨state, call, state'⟩]) nodeDiscsMeta := by
  obtain ⟨blocks, torn, htorn, hfile, hheld⟩ := h
  exact ⟨blocks, torn, htorn, hfile, fun volumeId => (hheld volumeId).trans (hsame volumeId).symm⟩

/-- An append to whole blocks leaves one more of them, or a part of it. -/
theorem Holds.append {outcome : AppendOutcome} (h : Holds hist state.nodeDiscsMeta)
    (hempty : entries.isEmpty = false)
    (hindexed : state.alreadyIndexed (decimal discId.toNat) entries = false)
    (hcounted : entries.length < 2 ^ 32) (hstorable : ∀ entry ∈ entries, entry.Storable)
    (hwhole : (readIndex state.nodeDiscsMeta).2 = true) :
    Holds (hist ++ [⟨state, .indexBurnedDisc discId (decimal discId.toNat) entries outcome, state'⟩])
      (state.nodeDiscsMeta ++ outcome.written (blockOf discId entries)) := by
  obtain ⟨blocks, torn, htorn, hfile, hheld⟩ := h
  rw [hfile, readIndex_blocks blocks htorn, List.isEmpty_iff] at hwhole
  subst hwhole
  rw [List.append_nil] at hfile
  let block : Block := ⟨discId, entries, hcounted, hstorable⟩
  by_cases hall : outcome.written block.bytes = block.bytes
  · -- the block is whole, even if the call says that it failed
    have happends : state.appends
        (.indexBurnedDisc discId (decimal discId.toNat) entries outcome) = true := by
      simp only [DiscIndexState.appends, hempty, hindexed, Bool.not_false, Bool.true_and,
        decide_eq_true_eq]
      exact hall
    refine ⟨blocks ++ [block], [], .inl rfl, ?_, fun volumeId => ?_⟩
    · rw [hfile, List.append_nil, List.map_append, List.flatten_append]
      change _ ++ outcome.written block.bytes = _
      rw [hall]
      simp
    · rw [recorded_snoc, happends, Bool.or_true, if_pos rfl, List.foldl_append]
      exact lookup_foldl_file_congr hheld volumeId
  · have happends : state.appends
        (.indexBurnedDisc discId (decimal discId.toNat) entries outcome) = false := by
      simp only [DiscIndexState.appends, hempty, hindexed, Bool.not_false, Bool.true_and,
        decide_eq_false_iff_not]
      exact hall
    cases outcome with
    | done => exact absurd rfl hall
    | failed written =>
        have hshort : written < block.bytes.length := by
          by_contra hlong
          exact hall (List.take_of_length_le (Nat.le_of_not_lt hlong))
        have hfails : state.indexes
            (.indexBurnedDisc discId (decimal discId.toNat) entries (.failed written)) = false := by
          simp only [DiscIndexState.indexes, DiscIndexState.indexBurnedDisc, hempty, hindexed,
            Bool.false_eq_true, if_false]
        refine ⟨blocks, block.bytes.take written, ?_, by rw [hfile]; rfl, fun volumeId => ?_⟩
        · rcases Nat.eq_zero_or_pos written with rfl | hsome
          · exact .inl rfl
          · exact .inr ⟨block, written, hsome, hshort, rfl⟩
        · rw [recorded_snoc, happends, hfails, Bool.or_false, if_neg Bool.false_ne_true]
          exact hheld volumeId

theorem Holds.serve (h : Holds hist state.nodeDiscsMeta) (hok : Whole state call) :
    Holds (hist ++ [⟨state, call, state'⟩]) (state.serve call).nodeDiscsMeta := by
  cases call with
  | restart readable => exact h.keep fun volumeId => by rw [recorded_snoc]; rfl
  | indexBurnedDisc discId diskId entries outcome =>
      obtain ⟨rfl, hcounted, hstorable, hcase⟩ := hok
      simp only [DiscIndexState.serve, DiscIndexState.indexBurnedDisc]
      cases hempty : entries.isEmpty with
      | true =>
          rw [List.isEmpty_iff] at hempty
          subst hempty
          refine h.keep fun volumeId => ?_
          rw [recorded_snoc]
          split <;> rfl
      | false =>
          cases hindexed : state.alreadyIndexed (decimal discId.toNat) entries with
          | true =>
              rw [hindexed, if_pos rfl] at hcase
              refine h.keep fun volumeId => ?_
              rw [recorded_snoc]
              split
              · refine lookup_foldl_file_same (fun entry hmem => ?_) volumeId
                rw [← h.lookup, hcase entry hmem]
              · rfl
          | false =>
              rw [hindexed, if_neg Bool.false_ne_true] at hcase
              simp only [Bool.false_eq_true, if_false]
              cases outcome with
              | done => exact h.append hempty hindexed hcounted hstorable hcase
              | failed written => exact h.append hempty hindexed hcounted hstorable hcase

theorem holds_serves (h : Serves DiscIndexState.Serve Whole {} hist state) :
    Holds hist state.nodeDiscsMeta := by
  induction h with
  | nil => exact ⟨[], [], .inl rfl, rfl, fun _ => rfl⟩
  | snoc _ hok hserve ih =>
      cases hserve
      exact ih.serve hok

/-- The index survives if blocks are appended to whole blocks only. -/
theorem burned_discs_survive (hist : List (Served DiscIndexState DiscIndexCall))
    (state : DiscIndexState) (hserves : Serves DiscIndexState.Serve Whole {} hist state)
    (volumeId : UInt64) :
    (state.rebuildDiscImageIndex true).discImageIndex.lookup volumeId =
      (recorded hist).lookup volumeId :=
  (holds_serves hserves).lookup volumeId

/-! ## A block after a torn one -/

def imageOf (volumeId : UInt64) : DiscImageEntry where
  volumeId := volumeId
  imageSizeBytes := 4096
  sha256Hex := ofAscii "ab"

def tornThenWhole : List DiscIndexCall :=
  [.indexBurnedDisc 1 (ofAscii "1") [imageOf 10] (.failed 40),
    .indexBurnedDisc 2 (ofAscii "2") [imageOf 20] .done]

def historyOf : DiscIndexState → List DiscIndexCall → List (Served DiscIndexState DiscIndexCall)
  | _, [] => []
  | state, call :: calls => ⟨state, call, state.serve call⟩ :: historyOf (state.serve call) calls

theorem serves_historyOf {ok : DiscIndexState → DiscIndexCall → Prop} (calls : List DiscIndexCall)
    (state : DiscIndexState)
    (hok : ∀ served ∈ historyOf state calls, ok served.before served.call) :
    Serves DiscIndexState.Serve ok state (historyOf state calls)
      (calls.foldl DiscIndexState.serve state) := by
  induction calls generalizing state with
  | nil => exact .nil
  | cons call calls ih =>
      have hfirst : Serves DiscIndexState.Serve ok state [⟨state, call, state.serve call⟩]
          (state.serve call) := .snoc .nil (hok _ List.mem_cons_self) rfl
      exact hfirst.append (ih _ fun served hmem => hok served (List.mem_cons_of_mem _ hmem))

/-- The disc after a torn block was reported as indexed, and is lost by a restart. -/
theorem burned_disc_lost : ¬IndexSurvives Any := by
  intro h
  have hsurvives := h _ _ (serves_historyOf tornThenWhole {} fun _ _ => trivial) 20
  exact absurd hsurvives (by decide +kernel)

def wholeThenTorn : List DiscIndexCall :=
  [.indexBurnedDisc 1 (ofAscii "1") [imageOf 10] .done,
    .indexBurnedDisc 2 (ofAscii "2") [imageOf 20] (.failed 40)]

theorem burned_discs_survive_torn :
    ((wholeThenTorn.foldl DiscIndexState.serve {}).rebuildDiscImageIndex
      true).discImageIndex.lookup 10 = some ((imageOf 10).location (ofAscii "1")) := by
  have hserves : Serves DiscIndexState.Serve Whole {} (historyOf {} wholeThenTorn)
      (wholeThenTorn.foldl DiscIndexState.serve {}) :=
    serves_historyOf wholeThenTorn {} (by decide +kernel)
  have hsurvives := burned_discs_survive _ _ hserves 10
  rw [hsurvives]
  decide +kernel

end Zb.OpticalNode
