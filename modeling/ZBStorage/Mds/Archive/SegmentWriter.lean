-- SUMMARY: Writing the segments of an archive generation in pages with their tables of offsets.
import ZBStorage.Lib.CallHistory
import ZBStorage.Mds.Archive.ArchiveDataFile

/-!
# Writing segments

The `SegmentWriter` of `ArchiveImportService.cpp`. A record is buffered as long as
the page has room for it, and the buffer is flushed before the first record that it
has no room for. That record is then buffered without a second look, so one that is
too large for any page is refused only when nothing is buffered.
-/

namespace Zb.Mds

open Bytes CallHistory

def segmentHeader (kind : ArchiveTableKind) (pageSizeBytes : UInt32) (pageCount : UInt64) : Bytes :=
  ArchiveDataFile.kArchiveSegmentMagic ++ [kind.toUInt8, kArchiveFormatVersion, 0, 0] ++
    ofNatLE 4 pageSizeBytes.toNat ++ ofNatLE 8 pageCount.toNat

def indexHeader (kind : ArchiveTableKind) (pageCount : UInt64) : Bytes :=
  ArchiveSparseIndex.kArchiveIndexMagic ++ [kind.toUInt8, kArchiveFormatVersion, 0, 0] ++
    ofNatLE 8 pageCount.toNat

/-! ## Pages -/

/-- The running `data_begin` of a page, after each of its records. -/
def dataBegins (dataBegin : UInt32) : List Bytes → List UInt32
  | [] => []
  | record :: records =>
      let dataBegin := dataBegin - UInt32.ofNat record.length
      dataBegin :: dataBegins dataBegin records

/-- Records go from the end of the page to the front, and their offsets into the table. -/
def placeRecords (page : Bytes) (dataBegin : UInt32) (i : Nat) : List Bytes → Bytes × UInt32
  | [] => (page, dataBegin)
  | record :: records =>
      let dataBegin := dataBegin - UInt32.ofNat record.length
      let page := overwrite page dataBegin.toNat record
      let page := overwrite page (kArchivePageHeaderSize + i * 4) (ofNatLE 4 dataBegin.toNat)
      placeRecords page dataBegin (i + 1) records

def buildPage (pageSizeBytes : UInt32) (records : List Bytes) : Bytes :=
  let placed := placeRecords (List.replicate pageSizeBytes.toNat 0) pageSizeBytes 0 records
  overwrite (overwrite placed.1 0 (ofNatLE 4 records.length)) 4 (ofNatLE 4 placed.2.toNat)

def indexEntry (pageCount : UInt64) (key : Bytes) : Bytes :=
  ofNatLE 8 pageCount.toNat ++ ofNatLE 2 key.length ++ key

/-! ## The writer -/

/-- Whether the streams take what a call writes to them. -/
structure StreamAnswers where
  dataOk : Bool := true
  indexOk : Bool := true
  closeOk : Bool := true
  deriving DecidableEq

structure SegmentWriter where
  kind : ArchiveTableKind
  pageSizeBytes : UInt32
  dataOut : Bytes
  indexOut : Bytes
  pageCount : UInt64 := 0
  currentRecordBytes : Nat := 0
  records : List Bytes := []
  keys : List Bytes := []
  deriving DecidableEq

inductive SegmentCall
  | append (record key : Bytes) (answers : StreamAnswers)
  | finish (answers : StreamAnswers)
  deriving DecidableEq

namespace SegmentWriter

/-- `Open`, when the streams can be opened. -/
def start (kind : ArchiveTableKind) (pageSizeBytes : UInt32) : SegmentWriter where
  kind := kind
  pageSizeBytes := pageSizeBytes
  dataOut := segmentHeader kind pageSizeBytes 0
  indexOut := indexHeader kind 0

def canFit (writer : SegmentWriter) (recordCount recordBytes : Nat) : Bool :=
  kArchivePageHeaderSize + recordCount * 4 + recordBytes ≤ writer.pageSizeBytes.toNat

/-- A write that fails leaves the files as they are. -/
def flush (writer : SegmentWriter) (answers : StreamAnswers) : Bool × SegmentWriter :=
  if writer.records = [] then (true, writer)
  else if !answers.dataOk then (false, writer)
  else
    let written := { writer with
      dataOut := writer.dataOut ++ buildPage writer.pageSizeBytes writer.records }
    if !answers.indexOk then (false, written)
    else (true, { written with
      indexOut := writer.indexOut ++ indexEntry writer.pageCount (writer.keys.getLastD [])
      pageCount := writer.pageCount + 1
      records := []
      keys := []
      currentRecordBytes := 0 })

def push (writer : SegmentWriter) (record key : Bytes) : SegmentWriter :=
  { writer with
    records := writer.records ++ [record]
    keys := writer.keys ++ [key]
    currentRecordBytes := writer.currentRecordBytes + record.length }

def append (writer : SegmentWriter) (record key : Bytes) (answers : StreamAnswers) :
    Bool × SegmentWriter :=
  if writer.canFit (writer.records.length + 1) (writer.currentRecordBytes + record.length) then
    (true, writer.push record key)
  else if writer.records = [] then (false, writer)
  else
    let flushed := writer.flush answers
    if flushed.1 then (true, flushed.2.push record key) else flushed

def finish (writer : SegmentWriter) (answers : StreamAnswers) : Bool × SegmentWriter :=
  let flushed := writer.flush answers
  if !flushed.1 then flushed
  else (answers.closeOk, { flushed.2 with
    dataOut := overwrite flushed.2.dataOut 0
      (segmentHeader writer.kind writer.pageSizeBytes flushed.2.pageCount)
    indexOut := overwrite flushed.2.indexOut 0 (indexHeader writer.kind flushed.2.pageCount) })

def serve (writer : SegmentWriter) : SegmentCall → Bool × SegmentWriter
  | .append record key answers => writer.append record key answers
  | .finish answers => writer.finish answers

def Serve (writer : SegmentWriter) (call : SegmentCall) (writer' : SegmentWriter) : Prop :=
  (writer.serve call).2 = writer'

/-- The call puts a page together. -/
def Flushes (writer : SegmentWriter) : SegmentCall → Prop
  | .append record _ _ => writer.records ≠ [] ∧
      ¬writer.canFit (writer.records.length + 1) (writer.currentRecordBytes + record.length)
  | .finish _ => writer.records ≠ []

/-- The record does not fit into an empty page. -/
def Oversized (writer : SegmentWriter) (record : Bytes) : Prop :=
  writer.pageSizeBytes.toNat < kArchivePageHeaderSize + 4 + record.length

instance (writer : SegmentWriter) (record : Bytes) : Decidable (writer.Oversized record) :=
  inferInstanceAs (Decidable (_ < _))

end SegmentWriter

/-! ## Pages that hold their records -/

/-- `data_begin` counts down from the size of the page without a wrap, and stays above
    the table of offsets. -/
def HoldsRecords (pageSizeBytes : UInt32) (records : List Bytes) : Prop :=
  ∀ i dataBegin, (dataBegins pageSizeBytes records)[i]? = some dataBegin →
    dataBegin.toNat + ((records.take (i + 1)).map List.length).sum = pageSizeBytes.toNat ∧
      kArchivePageHeaderSize + records.length * 4 ≤ dataBegin.toNat

/-- As long as there is room, a subtraction takes the length of the record. -/
theorem dataBegins_exact {dataBegin : UInt32} {records : List Bytes}
    (h : (records.map List.length).sum ≤ dataBegin.toNat) (i : Nat) {value : UInt32}
    (hi : (dataBegins dataBegin records)[i]? = some value) :
    value.toNat + ((records.take (i + 1)).map List.length).sum = dataBegin.toNat := by
  induction records generalizing dataBegin i with
  | nil => cases hi
  | cons record records ih =>
      rw [List.map_cons, List.sum_cons] at h
      have hlt := dataBegin.toNat_lt
      have hsmall : record.length < UInt32.size := Nat.lt_of_le_of_lt (by omega) hlt
      have hlength : (UInt32.ofNat record.length).toNat = record.length :=
        UInt32.toNat_ofNat_of_lt' hsmall
      have hsub : (dataBegin - UInt32.ofNat record.length).toNat =
          dataBegin.toNat - record.length := by
        rw [UInt32.toNat_sub_of_le _ _ (by rw [UInt32.le_iff_toNat_le, hlength]; omega), hlength]
      rw [List.take_succ_cons, List.map_cons, List.sum_cons]
      cases i with
      | zero =>
          cases hi
          rw [hsub, List.take_zero, List.map_nil, List.sum_nil]
          omega
      | succ i =>
          have hrest := ih (by rw [hsub]; omega) i hi
          rw [hsub] at hrest
          omega

theorem sum_take_le (records : List Bytes) (n : Nat) :
    ((records.take n).map List.length).sum ≤ (records.map List.length).sum := by
  conv_rhs => rw [← List.take_append_drop n records, List.map_append, List.sum_append]
  exact Nat.le_add_right _ _

theorem holdsRecords_of_le {pageSizeBytes : UInt32} {records : List Bytes}
    (h : kArchivePageHeaderSize + records.length * 4 + (records.map List.length).sum ≤
      pageSizeBytes.toNat) : HoldsRecords pageSizeBytes records := by
  intro i dataBegin hi
  have hexact := dataBegins_exact (by omega) i hi
  have hle := sum_take_le records (i + 1)
  exact ⟨hexact, by omega⟩

/-! ## Runs of a writer -/

namespace SegmentWriter

variable {kind : ArchiveTableKind} {pageSizeBytes : UInt32} {writer : SegmentWriter}
  {hist : List (Served SegmentWriter SegmentCall)}

/-- What is buffered fits into one page. -/
structure Fits (pageSizeBytes : UInt32) (writer : SegmentWriter) : Prop where
  page : writer.pageSizeBytes = pageSizeBytes
  bytes : writer.currentRecordBytes = (writer.records.map List.length).sum
  room : writer.records ≠ [] → kArchivePageHeaderSize + writer.records.length * 4 +
    writer.currentRecordBytes ≤ pageSizeBytes.toNat

/-- A record too large for a page comes when nothing is buffered, or when the page
    before it cannot be written. -/
def Checked (writer : SegmentWriter) : SegmentCall → Prop
  | .append record _ answers => writer.Oversized record →
      writer.records = [] ∨ answers.dataOk = false ∨ answers.indexOk = false
  | .finish _ => True

instance (writer : SegmentWriter) (call : SegmentCall) : Decidable (writer.Checked call) := by
  cases call <;> unfold Checked <;> infer_instance

theorem Fits.start : Fits pageSizeBytes (start kind pageSizeBytes) where
  page := rfl
  bytes := rfl
  room hne := absurd rfl hne

theorem Fits.push (h : Fits pageSizeBytes writer) {record key : Bytes}
    (hfit : kArchivePageHeaderSize + (writer.records.length + 1) * 4 +
      (writer.currentRecordBytes + record.length) ≤ pageSizeBytes.toNat) :
    Fits pageSizeBytes (writer.push record key) where
  page := h.page
  bytes := by
    dsimp only [SegmentWriter.push]
    rw [h.bytes, List.map_append, List.sum_append, List.map_singleton, List.sum_singleton]
  room _ := by
    dsimp only [SegmentWriter.push]
    rw [List.length_append, List.length_singleton]
    exact hfit

/-- A flush empties the buffer, or leaves it as it is. -/
theorem flush_cases (writer : SegmentWriter) (answers : StreamAnswers) :
    ((writer.flush answers).2.pageSizeBytes = writer.pageSizeBytes) ∧
      (((writer.flush answers).2.records = [] ∧ (writer.flush answers).2.currentRecordBytes = 0) ∨
        ((writer.flush answers).2.records = writer.records ∧
          (writer.flush answers).2.currentRecordBytes = writer.currentRecordBytes)) := by
  unfold flush
  split
  · exact ⟨rfl, .inr ⟨rfl, rfl⟩⟩
  split
  · exact ⟨rfl, .inr ⟨rfl, rfl⟩⟩
  dsimp only
  split
  · exact ⟨rfl, .inr ⟨rfl, rfl⟩⟩
  · exact ⟨rfl, .inl ⟨rfl, rfl⟩⟩

theorem Fits.flush (h : Fits pageSizeBytes writer) (answers : StreamAnswers) :
    Fits pageSizeBytes (writer.flush answers).2 := by
  obtain ⟨hpage, ⟨hrecords, hbytes⟩ | ⟨hrecords, hbytes⟩⟩ := writer.flush_cases answers
  · refine ⟨hpage.trans h.page, ?_, fun hne => absurd hrecords hne⟩
    rw [hbytes, hrecords]
    rfl
  · refine ⟨hpage.trans h.page, ?_, ?_⟩
    · rw [hbytes, hrecords]
      exact h.bytes
    · rw [hrecords, hbytes]
      exact h.room

/-- A flush succeeds when there is nothing to write or everything is taken, and then
    nothing is buffered. -/
theorem flush_fst (writer : SegmentWriter) (answers : StreamAnswers) :
    (writer.flush answers).1 = true ↔
      writer.records = [] ∨ answers.dataOk = true ∧ answers.indexOk = true := by
  unfold flush
  split
  · rename_i hnil
    exact ⟨fun _ => .inl hnil, fun _ => rfl⟩
  · rename_i hne
    cases hdata : answers.dataOk <;> cases hindex : answers.indexOk <;> simp [hne]

theorem records_flush {answers : StreamAnswers} (h : (writer.flush answers).1 = true) :
    (writer.flush answers).2.records = [] ∧
      ((writer.flush answers).2.currentRecordBytes = 0 ∨ writer.records = []) := by
  unfold flush at h ⊢
  split
  · rename_i hnil
    exact ⟨hnil, .inr hnil⟩
  rename_i hne
  rw [if_neg hne] at h
  split
  · rename_i hdata
    rw [if_pos hdata] at h
    cases h
  rename_i hdata
  rw [if_neg hdata] at h
  dsimp only at h ⊢
  split
  · rename_i hindex
    rw [if_pos hindex] at h
    cases h
  · exact ⟨rfl, .inl rfl⟩

theorem Fits.append (h : Fits pageSizeBytes writer) {record key : Bytes} {answers : StreamAnswers}
    (hchecked : writer.Checked (.append record key answers)) :
    Fits pageSizeBytes (writer.append record key answers).2 := by
  unfold SegmentWriter.append
  split
  · rename_i hfit
    simp only [canFit, decide_eq_true_eq] at hfit
    rw [h.page] at hfit
    exact h.push hfit
  split
  · exact h
  rename_i hne
  dsimp only
  split
  · rename_i hflushed
    obtain ⟨hrecords, hbytes⟩ := records_flush hflushed
    have hfits := h.flush answers
    have hzero : (writer.flush answers).2.currentRecordBytes = 0 := hbytes.resolve_right hne
    -- the page before it was written, so the record is not too large
    have hsmall : ¬writer.Oversized record := by
      intro hoversized
      obtain ⟨hdata, hindex⟩ := ((writer.flush_fst answers).mp hflushed).resolve_left hne
      rcases hchecked hoversized with hnil | hdata' | hindex'
      · exact hne hnil
      · cases hdata.symm.trans hdata'
      · cases hindex.symm.trans hindex'
    rw [Oversized, h.page, Nat.not_lt] at hsmall
    refine hfits.push ?_
    rw [hrecords, hzero, List.length_nil]
    omega
  · exact h.flush answers

theorem Fits.serve (h : Fits pageSizeBytes writer) {call : SegmentCall}
    (hchecked : writer.Checked call) : Fits pageSizeBytes (writer.serve call).2 := by
  cases call with
  | append record key answers => exact h.append hchecked
  | finish answers =>
      have hflushed := h.flush answers
      unfold SegmentWriter.serve SegmentWriter.finish
      dsimp only
      split
      · exact hflushed
      · exact ⟨hflushed.page, hflushed.bytes, hflushed.room⟩

/-- Records too large for a page are refused, and every page that is put together holds
    its records. -/
structure PagesFit (hist : List (Served SegmentWriter SegmentCall)) : Prop where
  refused : ∀ e ∈ hist, ∀ record key answers, e.call = .append record key answers →
    e.before.Oversized record → (e.before.append record key answers).1 = false
  holds : ∀ e ∈ hist, e.before.Flushes e.call →
    HoldsRecords e.before.pageSizeBytes e.before.records

/-- What is buffered goes into one page. -/
theorem Fits.holdsRecords (h : Fits pageSizeBytes writer) (hne : writer.records ≠ []) :
    HoldsRecords writer.pageSizeBytes writer.records := by
  apply holdsRecords_of_le
  rw [h.page, ← h.bytes]
  exact h.room hne

/-- A record that is too large is refused unless the page before it can be written. -/
theorem append_refused {record key : Bytes} {answers : StreamAnswers}
    (hoversized : writer.Oversized record) :
    (writer.append record key answers).1 = false ↔
      (writer.records = [] ∨ answers.dataOk = false ∨ answers.indexOk = false) := by
  have hfull : ¬writer.canFit (writer.records.length + 1)
      (writer.currentRecordBytes + record.length) := by
    simp only [canFit, decide_eq_true_eq]
    rw [Oversized] at hoversized
    omega
  unfold SegmentWriter.append
  rw [if_neg hfull]
  by_cases hnil : writer.records = []
  · rw [if_pos hnil]
    exact ⟨fun _ => .inl hnil, fun _ => rfl⟩
  · rw [if_neg hnil]
    have hflush := writer.flush_fst answers
    dsimp only
    by_cases hflushed : (writer.flush answers).1 = true
    · rw [if_pos hflushed]
      obtain ⟨hdata, hindex⟩ := (hflush.mp hflushed).resolve_left hnil
      simp [hnil, hdata, hindex]
    · rw [if_neg hflushed]
      rw [hflush, not_or, not_and_or, Bool.not_eq_true, Bool.not_eq_true] at hflushed
      exact ⟨fun _ => .inr hflushed.2, fun _ => Bool.eq_false_iff.mpr (by
        rw [ne_eq, hflush]
        simp only [hnil, false_or, not_and_or, Bool.not_eq_true]
        exact hflushed.2)⟩

/-- The invariant at every call of a run whose calls so far were checked. -/
theorem fits_at {writer' : SegmentWriter} (h : Serves Serve Any writer hist writer')
    (hfits : Fits pageSizeBytes writer) (hchecked : ∀ e ∈ hist, e.before.Checked e.call) :
    Fits pageSizeBytes writer' ∧ ∀ e ∈ hist, Fits pageSizeBytes e.before := by
  induction h with
  | nil => exact ⟨hfits, fun _ hmem => (nomatch hmem)⟩
  | @snoc hist t u call _ _ hserve ih =>
      obtain ⟨ht, hbefore⟩ := ih fun e hmem => hchecked e (List.mem_append_left _ hmem)
      have hlast : t.Checked call :=
        hchecked _ (List.mem_append_right _ (List.mem_singleton.mpr rfl))
      refine ⟨hserve ▸ ht.serve hlast, fun e hmem => ?_⟩
      rcases List.mem_append.mp hmem with hmem | hmem
      · exact hbefore e hmem
      · rw [List.mem_singleton.mp hmem]
        exact ht

/-- Pages never overflow exactly if every record that is too large comes to an empty
    buffer, or the page before it cannot be written. -/
theorem pages_fit_iff (kind : ArchiveTableKind) (pageSizeBytes : UInt32)
    {hist : List (Served SegmentWriter SegmentCall)} {writer : SegmentWriter}
    (h : Serves Serve Any (start kind pageSizeBytes) hist writer) :
    PagesFit hist ↔ ∀ e ∈ hist, e.before.Checked e.call := by
  constructor
  · intro hpages
    induction h with
    | nil => exact fun _ hmem => (nomatch hmem)
    | @snoc hist t u call _ _ _ ih =>
        have hpre : PagesFit hist :=
          ⟨fun e hmem => hpages.refused e (List.mem_append_left _ hmem),
            fun e hmem => hpages.holds e (List.mem_append_left _ hmem)⟩
        have hchecked := ih hpre
        intro e hmem
        rcases List.mem_append.mp hmem with hin | hin
        · exact hchecked e hin
        · have hrefused := hpages.refused e hmem
          rw [List.mem_singleton.mp hin] at hrefused ⊢
          cases call with
          | append record key answers =>
              intro hoversized
              exact (append_refused hoversized).mp (hrefused record key answers rfl hoversized)
          | finish answers => trivial
  · intro hchecked
    have hfits := (fits_at h Fits.start hchecked).2
    constructor
    · intro e hmem record key answers hcall hoversized
      have hcond := hchecked e hmem
      rw [hcall] at hcond
      exact (append_refused hoversized).mpr (hcond hoversized)
    · intro e hmem hflushes
      refine (hfits e hmem).holdsRecords ?_
      cases hcall : e.call with
      | append record key answers =>
          rw [hcall] at hflushes
          exact hflushes.1
      | finish answers =>
          rw [hcall] at hflushes
          exact hflushes

/-- A record that fills a page of 16 bytes, and one that fits in no page. -/
def largeAlone : List SegmentCall :=
  [.append (List.replicate 4 1) [1] {}, .append [1] [2] {}, .finish {},
    .append (List.replicate 20 1) [3] {}]

theorem pages_fit_large_alone :
    PagesFit (runOf (fun writer call => (writer.serve call).2) (start .inode 16) largeAlone).1 := by
  have hserves : Serves Serve Any (start .inode 16)
      (runOf (fun writer call => (writer.serve call).2) (start .inode 16) largeAlone).1
      (runOf (fun writer call => (writer.serve call).2) (start .inode 16) largeAlone).2 :=
    @serves_runOf _ _ _ Any _ (fun _ _ => rfl) _ _ fun _ _ => trivial
  exact (pages_fit_iff .inode 16 hserves).mpr (by decide +kernel)

/-- The record that fits in no page comes after one that is buffered. -/
def largeAfterSmall : List SegmentCall :=
  [.append [1] [1] {}, .append (List.replicate 20 1) [2] {}, .finish {}]

def overflowRun : List (Served SegmentWriter SegmentCall) × SegmentWriter :=
  runOf (fun writer call => (writer.serve call).2) (start .inode 16) largeAfterSmall

/-- The second call, which accepts the large record. -/
def acceptingStep : Served SegmentWriter SegmentCall :=
  overflowRun.1.get ⟨1, by decide +kernel⟩

/-- Behind a small record a large one is accepted, and the page that is put together
    for it overflows. -/
theorem page_overflows : ¬∀ hist writer, Serves Serve Any (start .inode 16) hist writer →
    PagesFit hist := by
  intro h
  have hserves : Serves Serve Any (start .inode 16) overflowRun.1 overflowRun.2 :=
    @serves_runOf _ _ _ Any _ (fun _ _ => rfl) _ _ fun _ _ => trivial
  have hrefused := (h _ _ hserves).refused acceptingStep (List.get_mem _ _)
    (List.replicate 20 1) [2] {} rfl (by decide +kernel)
  have haccepted : (acceptingStep.before.append (List.replicate 20 1) [2] {}).1 = true := by
    decide +kernel
  cases hrefused.symm.trans haccepted

end SegmentWriter

end Zb.Mds
