-- SUMMARY: The bounded queue of archive candidates: two heaps with stale entries over the live ones.
import Mathlib.Algebra.GroupWithZero.Nat
import Mathlib.Data.List.AList
import ZBStorage.Lib.CallHistory
import ZBStorage.Lib.PriorityQueue

/-!
# The queue of archive candidates

The table `latest` holds the live candidates. Each of them has an entry in both
heaps, stamped with the version of its record; an entry whose version is no longer
the one of the record is stale. The heaps order their entries by last access, then
by report, then by inode. The test that decides which candidate leaves a full queue
is a third comparison, and it orders reports the other way round.
-/

namespace Zb.Mds

open CallHistory

structure FileArchiveCandidateEntry where
  inodeId : UInt64
  nodeId : String := ""
  nodeAddress : String := ""
  diskId : String
  fileSize : UInt64 := 0
  objectCount : UInt32 := 0
  lastAccessTsMs : UInt64
  archiveState : String := "pending"
  version : UInt64 := 0
  reportTsMs : UInt64
  deriving DecidableEq

structure HeapEntry where
  lastAccessTsMs : UInt64
  reportTsMs : UInt64
  inodeId : UInt64
  version : UInt64
  deriving DecidableEq

structure CandidateRecord where
  candidate : FileArchiveCandidateEntry
  version : UInt64
  deriving DecidableEq

def FileArchiveCandidateEntry.heapEntry (candidate : FileArchiveCandidateEntry)
    (version : UInt64) : HeapEntry :=
  ⟨candidate.lastAccessTsMs, candidate.reportTsMs, candidate.inodeId, version⟩

def CandidateRecord.heapEntry (record : CandidateRecord) : HeapEntry :=
  record.candidate.heapEntry record.version

/-! ## The three comparisons -/

def bestCompare (a b : HeapEntry) : Bool :=
  if a.lastAccessTsMs ≠ b.lastAccessTsMs then a.lastAccessTsMs > b.lastAccessTsMs
  else if a.reportTsMs ≠ b.reportTsMs then a.reportTsMs > b.reportTsMs
  else a.inodeId > b.inodeId

def worstCompare (a b : HeapEntry) : Bool :=
  if a.lastAccessTsMs ≠ b.lastAccessTsMs then a.lastAccessTsMs < b.lastAccessTsMs
  else if a.reportTsMs ≠ b.reportTsMs then a.reportTsMs < b.reportTsMs
  else a.inodeId < b.inodeId

def isBetterThan (lhs : FileArchiveCandidateEntry) (rhs : HeapEntry) : Bool :=
  if lhs.lastAccessTsMs ≠ rhs.lastAccessTsMs then lhs.lastAccessTsMs < rhs.lastAccessTsMs
  else if lhs.reportTsMs ≠ rhs.reportTsMs then lhs.reportTsMs > rhs.reportTsMs
  else lhs.inodeId < rhs.inodeId

/-- The order that candidates come out in, as `bestCompare` has it. -/
def comesBefore (a b : FileArchiveCandidateEntry) : Bool :=
  bestCompare (b.heapEntry 0) (a.heapEntry 0)

theorem worstCompare_eq (a b : HeapEntry) : worstCompare a b = bestCompare b a := by
  unfold worstCompare bestCompare
  grind

theorem bestCompare_asymm (a b : HeapEntry) (h : bestCompare a b = true) :
    bestCompare b a = false := by
  unfold bestCompare at *
  grind

theorem bestCompare_trans (a b c : HeapEntry) (hab : bestCompare a b = false)
    (hbc : bestCompare b c = false) : bestCompare a c = false := by
  unfold bestCompare at *
  grind

instance : Comparator bestCompare where
  asymm := bestCompare_asymm
  trans := bestCompare_trans

instance : Comparator worstCompare where
  asymm a b h := by
    rw [worstCompare_eq] at h ⊢
    exact bestCompare_asymm b a h
  trans a b c hab hbc := by
    rw [worstCompare_eq] at hab hbc ⊢
    exact bestCompare_trans c b a hbc hab

section Order

variable (a b : FileArchiveCandidateEntry) (v v' : UInt64)

@[simp] theorem worstCompare_heapEntry :
    worstCompare (a.heapEntry v) (b.heapEntry v') = comesBefore a b :=
  worstCompare_eq _ _

variable {a b}

theorem comesBefore_asymm (h : comesBefore a b = true) : comesBefore b a = false :=
  bestCompare_asymm _ _ h

/-- Candidates of different inodes are ordered. -/
theorem comesBefore_of_not (h : comesBefore a b = false) (hne : a.inodeId ≠ b.inodeId) :
    comesBefore b a = true := by
  simp only [comesBefore, bestCompare, FileArchiveCandidateEntry.heapEntry] at *
  grind

variable (a b)

/-- The candidates whose reports the eviction test orders the wrong way round. -/
def ReportsTie : Prop := a.lastAccessTsMs = b.lastAccessTsMs ∧ a.reportTsMs ≠ b.reportTsMs

variable {a b}

theorem isBetterThan_eq (h : ¬ReportsTie a b) :
    isBetterThan a (b.heapEntry v) = comesBefore a b := by
  unfold isBetterThan comesBefore bestCompare FileArchiveCandidateEntry.heapEntry
  rcases eq_or_ne a.lastAccessTsMs b.lastAccessTsMs with hlast | hlast
  · rcases eq_or_ne a.reportTsMs b.reportTsMs with hreport | hreport
    · simp [hlast, hreport]
    · exact absurd ⟨hlast, hreport⟩ h
  · simp [hlast, hlast.symm]

theorem isBetterThan_of_reportsTie (h : ReportsTie a b) :
    isBetterThan a (b.heapEntry v) = comesBefore b a := by
  obtain ⟨hlast, hreport⟩ := h
  unfold isBetterThan comesBefore bestCompare FileArchiveCandidateEntry.heapEntry
  simp [hlast, hreport]

end Order

/-! ## The queue -/

structure FileArchiveCandidateQueue where
  maxSize : Nat
  seq : UInt64 := 0
  latest : AList (fun _ : UInt64 => CandidateRecord) := ∅
  best : PriorityQueue HeapEntry bestCompare := .empty
  worst : PriorityQueue HeapEntry worstCompare := .empty

/-- What `PushLocked` answers: whether it took the candidate, and `evicted`. -/
structure PushAnswer where
  accepted : Bool
  evicted : Bool
  deriving DecidableEq

/-- The checks that a candidate must pass whatever the queue holds. -/
def FileArchiveCandidateEntry.admissible (candidate : FileArchiveCandidateEntry) : Bool :=
  !(candidate.inodeId == 0 || candidate.diskId == "") &&
    !(candidate.archiveState != "" && candidate.archiveState != "pending")

namespace FileArchiveCandidateQueue

def live (q : FileArchiveCandidateQueue) : List FileArchiveCandidateEntry :=
  q.latest.entries.map (·.2.candidate)

def isActiveVersion (q : FileArchiveCandidateQueue) (entry : HeapEntry) : Bool :=
  match q.latest.lookup entry.inodeId with
  | none => false
  | some record => record.version == entry.version

def pruneBest (q : FileArchiveCandidateQueue) : FileArchiveCandidateQueue :=
  { q with best := q.best.prune q.isActiveVersion }

def pruneWorst (q : FileArchiveCandidateQueue) : FileArchiveCandidateQueue :=
  { q with worst := q.worst.prune q.isActiveVersion }

/-- The second half of `PushLocked`: the candidate gets a record and its entries. -/
def record (q : FileArchiveCandidateQueue) (candidate : FileArchiveCandidateEntry) :
    FileArchiveCandidateQueue :=
  let version := q.seq + 1
  { q with
    seq := version
    latest := q.latest.insert candidate.inodeId ⟨candidate, version⟩
    best := q.best.push (candidate.heapEntry version)
    worst := q.worst.push (candidate.heapEntry version) }

def erase (q : FileArchiveCandidateQueue) (inodeId : UInt64) : FileArchiveCandidateQueue :=
  { q with latest := q.latest.erase inodeId }

/-- A candidate of an inode that is not in the queue finds the queue full. -/
def FullFor (q : FileArchiveCandidateQueue) (candidate : FileArchiveCandidateEntry) : Prop :=
  0 < q.maxSize ∧ q.latest.lookup candidate.inodeId = none ∧
    q.maxSize ≤ q.latest.entries.length

instance (q : FileArchiveCandidateQueue) (candidate : FileArchiveCandidateEntry) :
    Decidable (q.FullFor candidate) := inferInstanceAs (Decidable (_ ∧ _ ∧ _))

def pushLocked (q : FileArchiveCandidateQueue) (candidate : FileArchiveCandidateEntry) :
    PushAnswer × FileArchiveCandidateQueue :=
  if !candidate.admissible then (⟨false, false⟩, q)
  else if q.FullFor candidate then
    let q := q.pruneWorst
    match q.worst.top? with
    | none => (⟨false, false⟩, q)
    | some worstEntry =>
        if isBetterThan candidate worstEntry then
          (⟨true, true⟩, (q.erase worstEntry.inodeId).record candidate)
        else (⟨false, false⟩, q)
  else (⟨true, false⟩, q.record candidate)

def popTop (q : FileArchiveCandidateQueue) :
    Option FileArchiveCandidateEntry × FileArchiveCandidateQueue :=
  let q := q.pruneBest
  let (top, best) := q.best.popActive q.isActiveVersion
  let q := { q with best := best }
  match top with
  | none => (none, q)
  | some top =>
      ((q.latest.lookup top.inodeId).map (·.candidate), q.erase top.inodeId)

/-! ## Entries and records -/

/-- Every live candidate has its entry in both heaps, and of the entries of an inode
    the one with the version of the record is that entry. -/
structure Inv (q : FileArchiveCandidateQueue) : Prop where
  keyed : ∀ id record, q.latest.lookup id = some record → record.candidate.inodeId = id
  inBest : ∀ id record, q.latest.lookup id = some record → record.heapEntry ∈ q.best
  inWorst : ∀ id record, q.latest.lookup id = some record → record.heapEntry ∈ q.worst
  current : ∀ entry record, entry ∈ q.best ∨ entry ∈ q.worst →
    q.latest.lookup entry.inodeId = some record → record.version = entry.version →
      entry = record.heapEntry
  issued : ∀ entry, entry ∈ q.best ∨ entry ∈ q.worst → entry.version.toNat ≤ q.seq.toNat
  bounded : 0 < q.maxSize → q.latest.entries.length ≤ q.maxSize

variable {q : FileArchiveCandidateQueue} {c d : FileArchiveCandidateEntry}

theorem mem_live : d ∈ q.live ↔ ∃ id version, q.latest.lookup id = some ⟨d, version⟩ := by
  constructor
  · intro hmem
    obtain ⟨⟨id, record⟩, hrecord, rfl⟩ := List.mem_map.mp hmem
    exact ⟨id, record.version, AList.mem_lookup_iff.mpr hrecord⟩
  · intro ⟨id, version, hlookup⟩
    exact List.mem_map.mpr ⟨⟨id, ⟨d, version⟩⟩, AList.mem_lookup_iff.mp hlookup, rfl⟩

/-- The inode of a live candidate leads to its record. -/
theorem Inv.lookup (h : Inv q) (hd : d ∈ q.live) :
    ∃ version, q.latest.lookup d.inodeId = some ⟨d, version⟩ := by
  obtain ⟨id, version, hlookup⟩ := mem_live.mp hd
  have hid : d.inodeId = id := h.keyed id _ hlookup
  exact ⟨version, hid ▸ hlookup⟩

theorem Inv.eq_of_inodeId (h : Inv q) (hc : c ∈ q.live) (hd : d ∈ q.live)
    (hid : c.inodeId = d.inodeId) : c = d := by
  obtain ⟨v, hlookup⟩ := h.lookup hc
  obtain ⟨v', hlookup'⟩ := h.lookup hd
  rw [hid, hlookup'] at hlookup
  cases hlookup
  rfl

theorem Inv.ne_of_lookup_none (hd : d ∈ q.live) (h : Inv q)
    (hnew : q.latest.lookup c.inodeId = none) : d.inodeId ≠ c.inodeId := by
  intro hid
  obtain ⟨v, hlookup⟩ := h.lookup hd
  rw [hid, hnew] at hlookup
  exact nomatch hlookup

theorem Inv.inodeIds (h : Inv q) : q.live.map (·.inodeId) = q.latest.keys := by
  unfold live AList.keys List.keys
  rw [List.map_map]
  apply List.map_congr_left
  intro ⟨id, record⟩ hmem
  exact h.keyed id record (AList.mem_lookup_iff.mpr hmem)

theorem isActiveVersion_iff {entry : HeapEntry} :
    q.isActiveVersion entry = true ↔
      ∃ record, q.latest.lookup entry.inodeId = some record ∧ record.version = entry.version := by
  unfold isActiveVersion
  split
  · rename_i hnone
    simp [hnone]
  · rename_i record hsome
    simp [hsome]

/-- An active entry is the entry of a live candidate. -/
theorem Inv.candidate_of_active (h : Inv q) {entry : HeapEntry}
    (hentry : entry ∈ q.best ∨ entry ∈ q.worst) (hactive : q.isActiveVersion entry = true) :
    ∃ d, ∃ version, q.latest.lookup entry.inodeId = some ⟨d, version⟩ ∧ d ∈ q.live ∧
      d.inodeId = entry.inodeId ∧ entry = d.heapEntry version := by
  obtain ⟨record, hlookup, hversion⟩ := isActiveVersion_iff.mp hactive
  have hrecord := h.current entry record hentry hlookup hversion
  exact ⟨record.candidate, record.version, hlookup, mem_live.mpr ⟨_, _, hlookup⟩,
    h.keyed _ _ hlookup, hrecord⟩

theorem Inv.active_of_lookup (h : Inv q) {id : UInt64} {record : CandidateRecord}
    (hlookup : q.latest.lookup id = some record) :
    q.isActiveVersion record.heapEntry = true := by
  have hid : record.heapEntry.inodeId = id := h.keyed id record hlookup
  exact isActiveVersion_iff.mpr ⟨record, hid ▸ hlookup, rfl⟩

/-! ## What the steps keep -/

theorem inv_empty (maxSize : Nat) : Inv { maxSize := maxSize } where
  keyed id record h := nomatch h
  inBest id record h := nomatch h
  inWorst id record h := nomatch h
  current entry record h := by
    rcases h with h | h
    all_goals exact absurd h PriorityQueue.not_mem_empty
  issued entry h := by
    rcases h with h | h
    all_goals exact absurd h PriorityQueue.not_mem_empty
  bounded _ := Nat.zero_le _

theorem Inv.pruneBest (h : Inv q) : Inv q.pruneBest :=
  { h with
    inBest id record hlookup :=
      PriorityQueue.mem_prune_of_active (h.inBest id record hlookup) (h.active_of_lookup hlookup)
    current entry record hentry :=
      h.current entry record (hentry.imp_left PriorityQueue.mem_of_mem_prune)
    issued entry hentry := h.issued entry (hentry.imp_left PriorityQueue.mem_of_mem_prune) }

theorem Inv.pruneWorst (h : Inv q) : Inv q.pruneWorst :=
  { h with
    inWorst id record hlookup :=
      PriorityQueue.mem_prune_of_active (h.inWorst id record hlookup) (h.active_of_lookup hlookup)
    current entry record hentry :=
      h.current entry record (hentry.imp_right PriorityQueue.mem_of_mem_prune)
    issued entry hentry := h.issued entry (hentry.imp_right PriorityQueue.mem_of_mem_prune) }

theorem lookup_of_lookup_erase {id id' : UInt64} {record : CandidateRecord}
    (h : (q.erase id').latest.lookup id = some record) :
    id ≠ id' ∧ q.latest.lookup id = some record := by
  rcases eq_or_ne id id' with rfl | hne
  · rw [erase, AList.lookup_erase] at h
    exact nomatch h
  · rw [erase, AList.lookup_erase_ne hne] at h
    exact ⟨hne, h⟩

theorem length_erase_le (id : UInt64) :
    (q.erase id).latest.entries.length ≤ q.latest.entries.length := by
  have hkeys : (q.erase id).latest.keys.length ≤ q.latest.keys.length := by
    rw [erase, AList.keys_erase]
    exact List.length_erase_le
  unfold AList.keys List.keys at hkeys
  rwa [List.length_map, List.length_map] at hkeys

theorem Inv.erase (h : Inv q) (id : UInt64) : Inv (q.erase id) where
  keyed id' record hlookup := h.keyed id' record (lookup_of_lookup_erase hlookup).2
  inBest id' record hlookup := h.inBest id' record (lookup_of_lookup_erase hlookup).2
  inWorst id' record hlookup := h.inWorst id' record (lookup_of_lookup_erase hlookup).2
  current entry record hentry hlookup :=
    h.current entry record hentry (lookup_of_lookup_erase hlookup).2
  issued := h.issued
  bounded hk := (length_erase_le id).trans (h.bounded hk)

theorem mem_live_erase (h : Inv q) (id : UInt64) :
    d ∈ (q.erase id).live ↔ d ∈ q.live ∧ d.inodeId ≠ id := by
  constructor
  · intro hd
    obtain ⟨id', version, hlookup⟩ := mem_live.mp hd
    obtain ⟨hne, hlookup⟩ := lookup_of_lookup_erase hlookup
    have hid : d.inodeId = id' := h.keyed id' _ hlookup
    exact ⟨mem_live.mpr ⟨id', version, hlookup⟩, hid ▸ hne⟩
  · intro ⟨hd, hne⟩
    obtain ⟨version, hlookup⟩ := h.lookup hd
    refine mem_live.mpr ⟨d.inodeId, version, ?_⟩
    rw [erase, AList.lookup_erase_ne hne]
    exact hlookup

theorem lookup_record (c : FileArchiveCandidateEntry) :
    (q.record c).latest.lookup c.inodeId = some ⟨c, q.seq + 1⟩ :=
  AList.lookup_insert _

theorem lookup_record_ne {id : UInt64} (hne : id ≠ c.inodeId) :
    (q.record c).latest.lookup id = q.latest.lookup id :=
  AList.lookup_insert_ne hne

theorem mem_live_record (h : Inv q) :
    d ∈ (q.record c).live ↔ d = c ∨ d ∈ q.live ∧ d.inodeId ≠ c.inodeId := by
  constructor
  · intro hd
    obtain ⟨id, version, hlookup⟩ := mem_live.mp hd
    rcases eq_or_ne id c.inodeId with rfl | hne
    · rw [lookup_record] at hlookup
      cases hlookup
      exact .inl rfl
    · rw [lookup_record_ne hne] at hlookup
      have hid : d.inodeId = id := h.keyed id _ hlookup
      exact .inr ⟨mem_live.mpr ⟨id, version, hlookup⟩, hid ▸ hne⟩
  · rintro (rfl | ⟨hd, hne⟩)
    · exact mem_live.mpr ⟨_, _, lookup_record d⟩
    · obtain ⟨version, hlookup⟩ := h.lookup hd
      exact mem_live.mpr ⟨d.inodeId, version, (lookup_record_ne hne).trans hlookup⟩

theorem length_entries (latest : AList fun _ : UInt64 => CandidateRecord) :
    latest.entries.length = latest.keys.length := by
  rw [AList.keys, List.keys, List.length_map]

theorem length_record_le (c : FileArchiveCandidateEntry) :
    (q.record c).latest.entries.length ≤ q.latest.entries.length + 1 := by
  rw [length_entries, length_entries, record, AList.keys_insert, List.length_cons]
  exact Nat.succ_le_succ List.length_erase_le

theorem length_record_of_lookup {record : CandidateRecord}
    (hlookup : q.latest.lookup c.inodeId = some record) :
    (q.record c).latest.entries.length = q.latest.entries.length := by
  have hmem : c.inodeId ∈ q.latest.keys := by
    rw [← AList.mem_keys, ← AList.lookup_isSome, hlookup]
    rfl
  rw [length_entries, length_entries, FileArchiveCandidateQueue.record, AList.keys_insert,
    List.length_cons, List.length_erase_of_mem hmem]
  exact Nat.sub_add_cancel (List.length_pos_of_mem hmem)

/-- A new version is above those that are out. -/
theorem Inv.record (h : Inv q) (hseq : q.seq.toNat + 1 < 2 ^ 64)
    (hsize : 0 < q.maxSize → (q.record c).latest.entries.length ≤ q.maxSize) :
    Inv (q.record c) := by
  have hnext : (q.seq + 1).toNat = q.seq.toNat + 1 := by
    rw [UInt64.toNat_add, UInt64.toNat_one]
    exact Nat.mod_eq_of_lt hseq
  have hentries : ∀ {entry}, entry ∈ (q.record c).best ∨ entry ∈ (q.record c).worst →
      entry = c.heapEntry (q.seq + 1) ∨ entry ∈ q.best ∨ entry ∈ q.worst := by
    rintro entry (hmem | hmem)
    · exact (PriorityQueue.mem_push.mp hmem).imp_right .inl
    · exact (PriorityQueue.mem_push.mp hmem).imp_right .inr
  refine ⟨?keyed, ?inBest, ?inWorst, ?current, ?issued, hsize⟩
  case keyed =>
    intro id record hlookup
    rcases eq_or_ne id c.inodeId with rfl | hne
    · rw [lookup_record] at hlookup
      cases hlookup
      rfl
    · exact h.keyed id record (lookup_record_ne hne ▸ hlookup)
  case inBest =>
    intro id record hlookup
    refine PriorityQueue.mem_push.mpr ?_
    rcases eq_or_ne id c.inodeId with rfl | hne
    · rw [lookup_record] at hlookup
      cases hlookup
      exact .inl rfl
    · exact .inr (h.inBest id record (lookup_record_ne hne ▸ hlookup))
  case inWorst =>
    intro id record hlookup
    refine PriorityQueue.mem_push.mpr ?_
    rcases eq_or_ne id c.inodeId with rfl | hne
    · rw [lookup_record] at hlookup
      cases hlookup
      exact .inl rfl
    · exact .inr (h.inWorst id record (lookup_record_ne hne ▸ hlookup))
  case current =>
    intro entry record hentry hlookup hversion
    rcases hentries hentry with rfl | hold
    · have hrecord := hlookup.symm.trans (lookup_record c)
      cases hrecord
      rfl
    · rcases eq_or_ne entry.inodeId c.inodeId with hid | hne
      · rw [hid, lookup_record] at hlookup
        cases hlookup
        have hle := h.issued entry hold
        rw [← hversion, hnext] at hle
        exact absurd hle (Nat.not_succ_le_self _)
      · rw [lookup_record_ne hne] at hlookup
        exact h.current entry record hold hlookup hversion
  case issued =>
    intro entry hentry
    show entry.version.toNat ≤ (q.seq + 1).toNat
    rw [hnext]
    rcases hentries hentry with rfl | hold
    · exact hnext.le
    · exact (h.issued entry hold).trans (Nat.le_succ _)

/-! ## A push -/

theorem FullFor.live_ne_nil (h : q.FullFor c) : q.latest.entries ≠ [] :=
  List.ne_nil_of_length_pos (h.1.trans_le h.2.2)

/-- A full queue compares the candidate with the live candidate that comes last. -/
theorem pushLocked_full (h : Inv q) (hadm : c.admissible = true) (hfull : q.FullFor c) :
    ∃ last ∈ q.live, ∃ version, (∀ d ∈ q.live, comesBefore last d = false) ∧
      q.pushLocked c =
        if isBetterThan c (last.heapEntry version) then
          (⟨true, true⟩, (q.pruneWorst.erase last.inodeId).record c)
        else (⟨false, false⟩, q.pruneWorst) := by
  have hkept := h.pruneWorst
  rcases htop : q.pruneWorst.worst.top? with _ | entry
  · obtain ⟨⟨id, record⟩, hmem⟩ := List.exists_mem_of_ne_nil _ hfull.live_ne_nil
    have hentry := hkept.inWorst id record (AList.mem_lookup_iff.mpr hmem)
    exact absurd hentry (PriorityQueue.eq_empty_of_top? htop)
  · have hentry : entry ∈ q.pruneWorst.worst := PriorityQueue.mem_of_top? htop
    have hactive : q.isActiveVersion entry = true := PriorityQueue.active_top?_prune htop
    obtain ⟨last, version, -, hlast, hid, rfl⟩ :=
      hkept.candidate_of_active (.inr hentry) hactive
    refine ⟨last, hlast, version, ?_, ?_⟩
    · intro d hd
      obtain ⟨v, hlookup⟩ := hkept.lookup hd
      have hfirst := PriorityQueue.top?_first htop (hkept.inWorst _ _ hlookup)
      exact (worstCompare_heapEntry last d version v).symm.trans hfirst
    · rw [pushLocked, hadm, if_neg (by simp), if_pos hfull]
      simp only [htop, hid]

theorem pushLocked_room (hadm : c.admissible = true) (hroom : ¬q.FullFor c) :
    q.pushLocked c = (⟨true, false⟩, q.record c) := by
  rw [pushLocked, hadm, if_neg (by simp), if_neg hroom]

theorem pushLocked_inadmissible (hadm : c.admissible = false) :
    q.pushLocked c = (⟨false, false⟩, q) := by
  rw [pushLocked, hadm]
  rfl

theorem length_record_room (h : Inv q) (hroom : ¬q.FullFor c) (hk : 0 < q.maxSize) :
    (q.record c).latest.entries.length ≤ q.maxSize := by
  rcases hlookup : q.latest.lookup c.inodeId with _ | record
  · have hlt : q.latest.entries.length < q.maxSize :=
      Nat.lt_of_not_le fun hle => hroom ⟨hk, hlookup, hle⟩
    exact (length_record_le c).trans hlt
  · rw [length_record_of_lookup hlookup]
    exact h.bounded hk

theorem length_erase_of_live (h : Inv q) (hd : d ∈ q.live) :
    (q.erase d.inodeId).latest.entries.length + 1 = q.latest.entries.length := by
  obtain ⟨version, hlookup⟩ := h.lookup hd
  have hmem : d.inodeId ∈ q.latest.keys := by
    rw [← AList.mem_keys, ← AList.lookup_isSome, hlookup]
    rfl
  rw [length_entries, length_entries, erase, AList.keys_erase, List.length_erase_of_mem hmem]
  exact Nat.sub_add_cancel (List.length_pos_of_mem hmem)

/-- What a full queue holds after the last candidate has made room for another. -/
theorem evict_inv (h : Inv q) (hseq : q.seq.toNat + 1 < 2 ^ 64) (hd : d ∈ q.live) :
    Inv ((q.pruneWorst.erase d.inodeId).record c) := by
  refine (h.pruneWorst.erase d.inodeId).record hseq fun hk => ?_
  refine (length_record_le c).trans ?_
  rw [length_erase_of_live h.pruneWorst hd]
  exact h.bounded hk

theorem mem_live_evict {last : FileArchiveCandidateEntry} (h : Inv q) (hlast : last ∈ q.live)
    (hnew : q.latest.lookup c.inodeId = none) :
    d ∈ ((q.pruneWorst.erase last.inodeId).record c).live ↔ d = c ∨ d ∈ q.live ∧ d ≠ last := by
  rw [mem_live_record (h.pruneWorst.erase _), mem_live_erase h.pruneWorst]
  refine or_congr_right ⟨?_, ?_⟩
  · intro ⟨⟨hd, hne⟩, _⟩
    exact ⟨hd, fun heq => hne (heq ▸ rfl)⟩
  · intro ⟨hd, hne⟩
    exact ⟨⟨hd, fun hid => hne (h.eq_of_inodeId hd hlast hid)⟩, Inv.ne_of_lookup_none hd h hnew⟩

theorem Inv.pushLocked (h : Inv q) (hseq : q.seq.toNat + 1 < 2 ^ 64) :
    Inv (q.pushLocked c).2 := by
  rcases hadm : c.admissible with _ | _
  · rw [pushLocked_inadmissible hadm]
    exact h
  · rcases Classical.em (q.FullFor c) with hfull | hroom
    · obtain ⟨last, hlast, version, -, hpush⟩ := pushLocked_full h hadm hfull
      rw [hpush]
      split
      · exact evict_inv h hseq hlast
      · exact h.pruneWorst
    · rw [pushLocked_room hadm hroom]
      exact h.record hseq (length_record_room h hroom)

/-! ## A pop -/

/-- `PopTop` takes the live candidate that nothing live comes before. -/
theorem popTop_cases (h : Inv q) :
    (q.popTop.1 = none ∧ q.live = [] ∧ Inv q.popTop.2 ∧ q.popTop.2.live = []) ∨
      ∃ top ∈ q.live, q.popTop.1 = some top ∧ (∀ d ∈ q.live, comesBefore d top = false) ∧
        Inv q.popTop.2 ∧ ∀ d, d ∈ q.popTop.2.live ↔ d ∈ q.live ∧ d ≠ top := by
  have hkept := h.pruneBest
  let popped := q.pruneBest.best.popActive q.pruneBest.isActiveVersion
  rcases htop : popped.1 with _ | entry
  · have hentries : q.latest.entries = [] := by
      refine List.eq_nil_iff_forall_not_mem.mpr fun ⟨id, record⟩ hmem => ?_
      have hlookup := AList.mem_lookup_iff.mpr hmem
      have hentry := PriorityQueue.mem_prune_of_active (hkept.inBest id record hlookup)
        (hkept.active_of_lookup hlookup)
      exact PriorityQueue.eq_empty_of_top? htop hentry
    have hlive : q.live = [] := by rw [live, hentries, List.map_nil]
    have hpop : q.popTop = (none, { q.pruneBest with best := popped.2 }) := by
      unfold popTop
      simp only [popped] at htop
      simp only [htop, popped]
    have hnone : ∀ id, q.latest.lookup id = none := by
      intro id
      rcases hlookup : q.latest.lookup id with _ | record
      · rfl
      · have hmem := AList.mem_lookup_iff.mp hlookup
        rw [hentries] at hmem
        exact nomatch hmem
    rw [hpop]
    refine .inl ⟨rfl, hlive, ?_, hlive⟩
    exact {
      hkept with
      inBest := fun id record hlookup => nomatch (hnone id).symm.trans hlookup
      current := fun entry record hentry =>
        hkept.current entry record (hentry.imp_left PriorityQueue.mem_of_mem_popActive)
      issued := fun entry hentry =>
        hkept.issued entry (hentry.imp_left PriorityQueue.mem_of_mem_popActive) }
  · have hentry : entry ∈ q.pruneBest.best :=
      PriorityQueue.mem_of_mem_prune (PriorityQueue.mem_of_top? htop)
    have hactive : q.pruneBest.isActiveVersion entry = true :=
      PriorityQueue.active_top?_prune htop
    obtain ⟨top, version, hlookup, hlive, hid, hheap⟩ :=
      hkept.candidate_of_active (.inl hentry) hactive
    have hpop : q.popTop =
        (some top, ({ q.pruneBest with best := popped.2 } : FileArchiveCandidateQueue).erase
          top.inodeId) := by
      unfold popTop
      simp only [popped] at htop
      simp only [htop, popped, hlookup, hid, Option.map_some]
    rw [hpop]
    refine .inr ⟨top, hlive, rfl, ?first, ?inv, ?live⟩
    case first =>
      intro d hd
      obtain ⟨v, hrecord⟩ := hkept.lookup hd
      have hmem := PriorityQueue.mem_prune_of_active (hkept.inBest _ _ hrecord)
        (hkept.active_of_lookup hrecord)
      have hfirst := PriorityQueue.top?_first htop hmem
      rwa [hheap] at hfirst
    case live =>
      intro d
      have hmem := mem_live_erase (d := d) hkept top.inodeId
      refine hmem.trans (and_congr_right fun hd => not_congr ⟨?_, fun heq => heq ▸ rfl⟩)
      exact h.eq_of_inodeId hd hlive
    case inv =>
      have hother : ∀ id record, id ≠ top.inodeId → q.latest.lookup id = some record →
          record.heapEntry ∈ popped.2 := by
        intro id record hne hrecord
        refine PriorityQueue.mem_popActive_of_active (hkept.inBest id record hrecord)
          (hkept.active_of_lookup hrecord) ?_
        intro heq
        rw [show popped.1 = some record.heapEntry from heq] at htop
        cases htop
        exact hne ((h.keyed id record hrecord).symm.trans hid.symm)
      have herased := hkept.erase top.inodeId
      exact {
        herased with
        inBest := fun id record hlookup =>
          have hrecord := lookup_of_lookup_erase (q := q) hlookup
          hother id record hrecord.1 hrecord.2
        current := fun entry record hentry =>
          herased.current entry record (hentry.imp_left PriorityQueue.mem_of_mem_popActive)
        issued := fun entry hentry =>
          herased.issued entry (hentry.imp_left PriorityQueue.mem_of_mem_popActive) }

end FileArchiveCandidateQueue

/-! ## Runs -/

open FileArchiveCandidateQueue

/-- A queue and the candidates that it has accepted so far. -/
structure WatchedQueue where
  queue : FileArchiveCandidateQueue
  accepted : List FileArchiveCandidateEntry := []

inductive QueueCall
  | pushBatch (candidates : List FileArchiveCandidateEntry)
  | popTop

namespace WatchedQueue

def start (maxSize : Nat) : WatchedQueue := { queue := { maxSize := maxSize } }

def push (w : WatchedQueue) (candidate : FileArchiveCandidateEntry) : WatchedQueue :=
  let (answer, queue) := w.queue.pushLocked candidate
  ⟨queue, if answer.accepted then w.accepted ++ [candidate] else w.accepted⟩

def serve : WatchedQueue → QueueCall → WatchedQueue
  | w, .pushBatch candidates => candidates.foldl push w
  | w, .popTop => { w with queue := w.queue.popTop.2 }

def Serve (w : WatchedQueue) (call : QueueCall) (w' : WatchedQueue) : Prop := w' = w.serve call

/-- The counter of the versions does not run over. -/
def VersionsLeft (w : WatchedQueue) : QueueCall → Prop
  | .pushBatch candidates => w.queue.seq.toNat + candidates.length < 2 ^ 64
  | .popTop => True

def lastAccepted (w : WatchedQueue) (inodeId : UInt64) : Option FileArchiveCandidateEntry :=
  w.accepted.reverse.find? (·.inodeId == inodeId)

def EachPush (P : WatchedQueue → FileArchiveCandidateEntry → Prop) (w : WatchedQueue) :
    List FileArchiveCandidateEntry → Prop
  | [] => True
  | c :: candidates => P w c ∧ EachPush P (w.push c) candidates

/-! ## What a queue is to do -/

structure StateKept (maxSize : Nat) (w : WatchedQueue) : Prop where
  bounded : w.queue.live.length ≤ maxSize
  onePerInode : (w.queue.live.map (·.inodeId)).Nodup
  latestAccepted : ∀ d ∈ w.queue.live, w.lastAccepted d.inodeId = some d

/-- A push to a full queue drops the candidate that comes last, the pushed one
    included. -/
structure PushKept (maxSize : Nat) (w : WatchedQueue) (c : FileArchiveCandidateEntry) : Prop where
  state : StateKept maxSize (w.push c)
  evicts : w.queue.FullFor c → (w.queue.pushLocked c).1.accepted = true →
    ∃ out ∈ w.queue.live, comesBefore out c = false ∧
      (∀ d, d ∈ (w.push c).queue.live ↔ d = c ∨ d ∈ w.queue.live ∧ d ≠ out) ∧
      ∀ d ∈ (w.push c).queue.live, comesBefore d out = true
  refuses : c.admissible = true → w.queue.FullFor c →
    (w.queue.pushLocked c).1.accepted = false →
      (∀ d ∈ w.queue.live, comesBefore c d = false) ∧ (w.push c).queue.live = w.queue.live
  keeps : c.admissible = true → ¬w.queue.FullFor c →
    (w.queue.pushLocked c).1.accepted = true ∧
      ∀ d, d ∈ (w.push c).queue.live ↔ d = c ∨ d ∈ w.queue.live ∧ d.inodeId ≠ c.inodeId

structure PopKept (maxSize : Nat) (w : WatchedQueue) : Prop where
  state : StateKept maxSize (w.serve .popTop)
  empty : w.queue.popTop.1 = none → w.queue.live = []
  first : ∀ top, w.queue.popTop.1 = some top → top ∈ w.queue.live ∧
    (∀ d ∈ w.queue.live, comesBefore d top = false) ∧
    ∀ d, d ∈ (w.serve .popTop).queue.live ↔ d ∈ w.queue.live ∧ d ≠ top

def CallKept (maxSize : Nat) (w : WatchedQueue) : QueueCall → Prop
  | .pushBatch candidates => EachPush (PushKept maxSize) w candidates
  | .popTop => PopKept maxSize w

/-- A candidate that finds the queue full was not last accessed when the last live
    candidate was, unless it was reported at the same time too. -/
def PushClear (w : WatchedQueue) (c : FileArchiveCandidateEntry) : Prop :=
  c.admissible = true → w.queue.FullFor c → ∀ last ∈ w.queue.live,
    (∀ d ∈ w.queue.live, comesBefore last d = false) → ¬ReportsTie c last

def CallClear (w : WatchedQueue) : QueueCall → Prop
  | .pushBatch candidates => EachPush PushClear w candidates
  | .popTop => True

variable {maxSize : Nat} {w : WatchedQueue} {c d : FileArchiveCandidateEntry}

instance : Decidable (PushClear w c) :=
  inferInstanceAs (Decidable (_ → _ → ∀ last ∈ w.queue.live, (∀ d ∈ w.queue.live, _) → ¬(_ ∧ _)))

def decidePushes (w : WatchedQueue) : (candidates : List FileArchiveCandidateEntry) →
    Decidable (EachPush PushClear w candidates)
  | [] => .isTrue trivial
  | c :: candidates =>
      have := decidePushes (w.push c) candidates
      inferInstanceAs (Decidable (PushClear w c ∧ EachPush PushClear (w.push c) candidates))

instance : (call : QueueCall) → Decidable (CallClear w call)
  | .pushBatch candidates => decidePushes w candidates
  | .popTop => .isTrue trivial

instance : (call : QueueCall) → Decidable (VersionsLeft w call)
  | .pushBatch candidates => inferInstanceAs (Decidable (_ + candidates.length < 2 ^ 64))
  | .popTop => .isTrue trivial

/-! ## The invariant of a run -/

structure RunInv (maxSize : Nat) (w : WatchedQueue) : Prop where
  queue : Inv w.queue
  maxSize : w.queue.maxSize = maxSize
  latestAccepted : ∀ d ∈ w.queue.live, w.lastAccepted d.inodeId = some d

theorem RunInv.stateKept (h : RunInv maxSize w) (hk : 0 < maxSize) : StateKept maxSize w where
  bounded := by
    have hbounded := h.queue.bounded (h.maxSize ▸ hk)
    rw [h.maxSize] at hbounded
    rwa [live, List.length_map]
  onePerInode := by
    rw [h.queue.inodeIds]
    exact w.queue.latest.keys_nodup
  latestAccepted := h.latestAccepted

theorem accepted_push (w : WatchedQueue) (c : FileArchiveCandidateEntry) :
    (w.push c).accepted =
      if (w.queue.pushLocked c).1.accepted then w.accepted ++ [c] else w.accepted := rfl

theorem lastAccepted_push (haccepted : (w.queue.pushLocked c).1.accepted = true) :
    (w.push c).lastAccepted c.inodeId = some c := by
  rw [lastAccepted, accepted_push, haccepted, if_pos rfl, List.reverse_append,
    List.reverse_singleton, List.singleton_append, List.find?_cons, beq_self_eq_true]

theorem lastAccepted_push_of_ne (hne : d.inodeId ≠ c.inodeId) :
    (w.push c).lastAccepted d.inodeId = w.lastAccepted d.inodeId := by
  rw [lastAccepted, accepted_push]
  split
  · rw [List.reverse_append, List.reverse_singleton, List.singleton_append, List.find?_cons,
      beq_false_of_ne hne.symm]
    rfl
  · rfl

theorem lastAccepted_push_of_refused (hrefused : (w.queue.pushLocked c).1.accepted = false)
    (id : UInt64) : (w.push c).lastAccepted id = w.lastAccepted id := by
  rw [lastAccepted, accepted_push, hrefused]
  rfl

theorem maxSize_pushLocked (q : FileArchiveCandidateQueue) (c : FileArchiveCandidateEntry) :
    (q.pushLocked c).2.maxSize = q.maxSize := by
  unfold pushLocked
  split
  · rfl
  · split
    · simp only
      split
      · rfl
      · split
        · rfl
        · rfl
    · rfl

theorem seq_pushLocked_le (q : FileArchiveCandidateQueue) (c : FileArchiveCandidateEntry) :
    (q.pushLocked c).2.seq.toNat ≤ q.seq.toNat + 1 := by
  have hnext : (q.seq + 1).toNat ≤ q.seq.toNat + 1 := by
    rw [UInt64.toNat_add, UInt64.toNat_one]
    exact Nat.mod_le _ _
  unfold pushLocked
  split
  · exact Nat.le_succ _
  · split
    · simp only
      split
      · exact Nat.le_succ _
      · split
        · exact hnext
        · exact Nat.le_succ _
    · exact hnext

/-- The last candidate of a full queue decides the push, as the test compares it. -/
theorem push_full (h : RunInv maxSize w) (hadm : c.admissible = true)
    (hfull : w.queue.FullFor c) :
    ∃ last ∈ w.queue.live, ∃ version, (∀ d ∈ w.queue.live, comesBefore last d = false) ∧
      (w.queue.pushLocked c).1.accepted = isBetterThan c (last.heapEntry version) ∧
      (isBetterThan c (last.heapEntry version) = true →
        ∀ d, d ∈ (w.push c).queue.live ↔ d = c ∨ d ∈ w.queue.live ∧ d ≠ last) ∧
      (isBetterThan c (last.heapEntry version) = false →
        (w.push c).queue.live = w.queue.live) := by
  obtain ⟨last, hlast, version, hfirst, hpush⟩ := pushLocked_full h.queue hadm hfull
  refine ⟨last, hlast, version, hfirst, ?accepted, ?taken, ?refused⟩
  case accepted =>
    rw [hpush]
    split
    · rename_i hbetter
      exact hbetter.symm
    · rename_i hbetter
      exact (Bool.eq_false_of_not_eq_true hbetter).symm
  case taken =>
    intro hbetter d
    show d ∈ (w.queue.pushLocked c).2.live ↔ _
    rw [hpush, if_pos hbetter]
    exact mem_live_evict h.queue hlast hfull.2.1
  case refused =>
    intro hbetter
    show (w.queue.pushLocked c).2.live = _
    rw [hpush, hbetter]
    rfl

/-- Each live candidate is the one pushed, or was live and is of another inode. -/
theorem mem_live_push (h : RunInv maxSize w) (hd : d ∈ (w.push c).queue.live) :
    d = c ∧ (w.queue.pushLocked c).1.accepted = true ∨
      d ∈ w.queue.live ∧
        ((w.queue.pushLocked c).1.accepted = false ∨ d.inodeId ≠ c.inodeId) := by
  rcases hadm : c.admissible with _ | _
  · have hpush := pushLocked_inadmissible (q := w.queue) hadm
    have hlive : (w.push c).queue.live = w.queue.live :=
      congrArg (fun r : PushAnswer × FileArchiveCandidateQueue => r.2.live) hpush
    rw [hlive] at hd
    exact .inr ⟨hd, .inl (by rw [hpush])⟩
  · rcases Classical.em (w.queue.FullFor c) with hfull | hroom
    · obtain ⟨last, hlast, version, -, haccepted, htaken, hrefused⟩ := push_full h hadm hfull
      rw [haccepted]
      rcases hbetter : isBetterThan c (last.heapEntry version) with _ | _
      · rw [hrefused hbetter] at hd
        exact .inr ⟨hd, .inl rfl⟩
      · rcases (htaken hbetter d).mp hd with hnew | ⟨hold, -⟩
        · exact .inl ⟨hnew, rfl⟩
        · exact .inr ⟨hold, .inr (Inv.ne_of_lookup_none hold h.queue hfull.2.1)⟩
    · have hpush := pushLocked_room hadm hroom
      have hlive : (w.push c).queue.live = (w.queue.record c).live :=
        congrArg (fun r : PushAnswer × FileArchiveCandidateQueue => r.2.live) hpush
      rw [hlive, mem_live_record h.queue] at hd
      rcases hd with hnew | ⟨hold, hne⟩
      · exact .inl ⟨hnew, by rw [hpush]⟩
      · exact .inr ⟨hold, .inr hne⟩

theorem RunInv.push (h : RunInv maxSize w) (hseq : w.queue.seq.toNat + 1 < 2 ^ 64) :
    RunInv maxSize (w.push c) where
  queue := h.queue.pushLocked hseq
  maxSize := (maxSize_pushLocked w.queue c).trans h.maxSize
  latestAccepted d hd := by
    rcases mem_live_push h hd with ⟨rfl, haccepted⟩ | ⟨hold, hrefused | hne⟩
    · exact lastAccepted_push haccepted
    · exact (lastAccepted_push_of_refused hrefused _).trans (h.latestAccepted d hold)
    · exact (lastAccepted_push_of_ne hne).trans (h.latestAccepted d hold)

theorem RunInv.popTop (h : RunInv maxSize w) : RunInv maxSize (w.serve .popTop) := by
  have hsize : w.queue.popTop.2.maxSize = w.queue.maxSize := by
    unfold FileArchiveCandidateQueue.popTop
    simp only
    split
    · rfl
    · rfl
  rcases popTop_cases h.queue with ⟨-, -, hinv, hlive⟩ | ⟨top, -, -, -, hinv, hlive⟩
  · refine ⟨hinv, hsize.trans h.maxSize, fun d hd => ?_⟩
    rw [show (w.serve .popTop).queue.live = [] from hlive] at hd
    exact nomatch hd
  · exact ⟨hinv, hsize.trans h.maxSize, fun d hd => h.latestAccepted d ((hlive d).mp hd).1⟩

/-! ## When the best are kept -/

theorem popKept (h : RunInv maxSize w) (hk : 0 < maxSize) : PopKept maxSize w := by
  refine ⟨h.popTop.stateKept hk, ?_, ?_⟩
  · intro hnone
    rcases popTop_cases h.queue with ⟨-, hlive, -⟩ | ⟨top, -, htop, -⟩
    · exact hlive
    · rw [htop] at hnone
      exact nomatch hnone
  · intro top hsome
    rcases popTop_cases h.queue with ⟨hnone, -⟩ | ⟨top', hlive, htop, hfirst, -, hmem⟩
    · rw [hnone] at hsome
      exact nomatch hsome
    · rw [htop] at hsome
      cases hsome
      exact ⟨hlive, hfirst, hmem⟩

theorem push_kept_of_clear (h : RunInv maxSize w) (hk : 0 < maxSize)
    (hseq : w.queue.seq.toNat + 1 < 2 ^ 64) (hclear : PushClear w c) : PushKept maxSize w c := by
  refine ⟨(h.push hseq).stateKept hk, ?evicts, ?refuses, ?keeps⟩
  case evicts =>
    intro hfull haccepted
    have hadm : c.admissible = true := by
      rcases hadm : c.admissible with _ | _
      · rw [pushLocked_inadmissible hadm] at haccepted
        exact nomatch haccepted
      · rfl
    obtain ⟨last, hlast, version, hlatest, hanswer, htaken, -⟩ := push_full h hadm hfull
    rw [haccepted] at hanswer
    have hbefore : comesBefore c last = true := by
      rw [← isBetterThan_eq version (hclear hadm hfull last hlast hlatest)]
      exact hanswer.symm
    refine ⟨last, hlast, comesBefore_asymm hbefore, htaken hanswer.symm, fun d hd => ?_⟩
    rcases (htaken hanswer.symm d).mp hd with rfl | ⟨hlive, hne⟩
    · exact hbefore
    · exact comesBefore_of_not (hlatest d hlive) fun hid =>
        hne (h.queue.eq_of_inodeId hlast hlive hid).symm
  case refuses =>
    intro hadm hfull hrefused
    obtain ⟨last, hlast, version, hlatest, hanswer, -, hsame⟩ := push_full h hadm hfull
    rw [hrefused] at hanswer
    have hafter : comesBefore c last = false := by
      rw [← isBetterThan_eq version (hclear hadm hfull last hlast hlatest)]
      exact hanswer.symm
    refine ⟨fun d hd => ?_, hsame hanswer.symm⟩
    exact bestCompare_trans (d.heapEntry 0) (last.heapEntry 0) (c.heapEntry 0) (hlatest d hd) hafter
  case keeps =>
    intro hadm hroom
    have hpush := pushLocked_room hadm hroom
    refine ⟨by rw [hpush], fun d => ?_⟩
    have hlive : (w.push c).queue.live = (w.queue.record c).live :=
      congrArg (fun r : PushAnswer × FileArchiveCandidateQueue => r.2.live) hpush
    rw [hlive]
    exact mem_live_record h.queue

/-- A tie of reports with the last candidate is decided the wrong way. -/
theorem push_clear_of_kept (h : RunInv maxSize w) (hkept : PushKept maxSize w c) :
    PushClear w c := by
  intro hadm hfull last hlast hlatest htie
  obtain ⟨last', hlast', version, hlatest', hanswer, htaken, -⟩ := push_full h hadm hfull
  have hsame : last' = last := by
    refine h.queue.eq_of_inodeId hlast' hlast (Classical.byContradiction fun hne => ?_)
    have hbefore := comesBefore_of_not (hlatest' last hlast) hne
    rw [hlatest last' hlast'] at hbefore
    exact nomatch hbefore
  subst hsame
  rw [isBetterThan_of_reportsTie version htie] at hanswer
  rcases haccepted : (w.queue.pushLocked c).1.accepted with _ | _
  · have hafter := (hkept.refuses hadm hfull haccepted).1 last' hlast
    have hne : c.inodeId ≠ last'.inodeId :=
      (Inv.ne_of_lookup_none hlast h.queue hfull.2.1).symm
    rw [haccepted, comesBefore_of_not hafter hne] at hanswer
    exact nomatch hanswer
  · obtain ⟨out, hout, hafter, hlive, hbest⟩ := hkept.evicts hfull haccepted
    rcases eq_or_ne last' out with rfl | hne
    · rw [haccepted, hafter] at hanswer
      exact nomatch hanswer
    · have hbefore := hbest last' ((hlive last').mpr (.inr ⟨hlast, hne⟩))
      rw [hlatest out hout] at hbefore
      exact nomatch hbefore

theorem callKept_iff (h : RunInv maxSize w) (hk : 0 < maxSize) (call : QueueCall)
    (hleft : VersionsLeft w call) :
    (CallKept maxSize w call ↔ CallClear w call) ∧ RunInv maxSize (w.serve call) := by
  cases call with
  | popTop => exact ⟨iff_of_true (popKept h hk) trivial, h.popTop⟩
  | pushBatch candidates =>
      induction candidates generalizing w with
      | nil => exact ⟨Iff.rfl, h⟩
      | cons c candidates ih =>
          have hall : w.queue.seq.toNat + (candidates.length + 1) < 2 ^ 64 := hleft
          have hseq : w.queue.seq.toNat + 1 < 2 ^ 64 := by omega
          have hle := seq_pushLocked_le w.queue c
          have hrest : (w.push c).queue.seq.toNat + candidates.length < 2 ^ 64 := by
            show (w.queue.pushLocked c).2.seq.toNat + candidates.length < 2 ^ 64
            omega
          have hlater := ih (h.push hseq) hrest
          refine ⟨and_congr ⟨push_clear_of_kept h, push_kept_of_clear h hk hseq⟩ hlater.1, ?_⟩
          exact hlater.2

theorem runInv_start : RunInv maxSize (start maxSize) where
  queue := inv_empty maxSize
  maxSize := rfl
  latestAccepted _ hd := nomatch hd

/-- Over any calls, the queue keeps the best candidates exactly when no push to the
    full queue ties with the last candidate on the last access but not on the report. -/
theorem best_kept_iff {hist : List (Served WatchedQueue QueueCall)} (hk : 0 < maxSize)
    (h : Serves Serve VersionsLeft (start maxSize) hist w) :
    (∀ e ∈ hist, CallKept maxSize e.before e.call) ↔
      ∀ e ∈ hist, CallClear e.before e.call := by
  have hstep : ∀ (w : WatchedQueue) call w', RunInv maxSize w → VersionsLeft w call →
      Serve w call w' → RunInv maxSize w' := by
    intro w call w' hinv hleft hserve
    rw [hserve]
    exact (callKept_iff hinv hk call hleft).2
  have hcall : ∀ e ∈ hist, CallKept maxSize e.before e.call ↔ CallClear e.before e.call := by
    intro e hmem
    obtain ⟨earlier, later, rfl⟩ := List.append_of_mem hmem
    obtain ⟨hbefore, hleft, -, -⟩ := h.split
    exact (callKept_iff (hbefore.invariant hstep runInv_start) hk e.call hleft).1
  exact ⟨fun hkept e hmem => (hcall e hmem).mp (hkept e hmem),
    fun hclear e hmem => (hcall e hmem).mpr (hclear e hmem)⟩

def candidate (inodeId lastAccessTsMs reportTsMs : UInt64) : FileArchiveCandidateEntry where
  inodeId := inodeId
  diskId := "disk-0"
  lastAccessTsMs := lastAccessTsMs
  reportTsMs := reportTsMs

theorem serves_calls (maxSize : Nat) (calls : List QueueCall)
    (hleft : ∀ e ∈ (runOf serve (start maxSize) calls).1, VersionsLeft e.before e.call) :
    Serves Serve VersionsLeft (start maxSize) (runOf serve (start maxSize) calls).1
      (runOf serve (start maxSize) calls).2 := by
  have hserve : ∀ w call, Serve w call (w.serve call) := fun _ _ => rfl
  exact serves_runOf hserve calls (start maxSize) hleft

theorem best_kept_colder :
    ¬∃ e ∈ (runOf serve (start 1)
        [.pushBatch [candidate 1 5 10, candidate 2 4 20, candidate 3 4 20], .popTop]).1,
      ¬CallKept 1 e.before e.call := by
  rintro ⟨e, hmem, hlost⟩
  exact hlost ((best_kept_iff (by decide) (serves_calls 1 _ (by decide +kernel))).mpr
    (by decide +kernel) e hmem)

/-- The newer report of two files that were last accessed together drives out the older
    one, although the older one would come out first. -/
theorem best_evicted :
    ¬∀ (maxSize : Nat) (hist : List (Served WatchedQueue QueueCall)) (w : WatchedQueue),
      0 < maxSize → Serves Serve VersionsLeft (start maxSize) hist w →
        ∀ e ∈ hist, CallKept maxSize e.before e.call := by
  intro hclaim
  have hrun := hclaim 1 _ _ (by decide)
    (serves_calls 1 [.pushBatch [candidate 1 5 10, candidate 2 5 20]] (by decide +kernel))
  have hpush := (hrun _ List.mem_cons_self).2.1
  obtain ⟨out, hout, hafter, -⟩ := hpush.evicts (by decide +kernel) (by decide +kernel)
  have hbefore : ∀ out ∈ ((start 1).push (candidate 1 5 10)).queue.live,
      comesBefore out (candidate 2 5 20) = true := by decide +kernel
  rw [hbefore out hout] at hafter
  exact nomatch hafter

end WatchedQueue

end Zb.Mds
