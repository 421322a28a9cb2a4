-- SUMMARY: What the two archive metadata stores share: a table, its log and snapshot, and the start.
import ZBStorage.DataNode.FileMetaStore
import ZBStorage.Lib.WalRecords

/-!
# The log of the archive metadata

A data node tracks its files and its objects in two tables of one design. A change is
made in memory and appended to a log; after a number of changes the whole table is
written as a snapshot and the log starts again. A table that outgrows its capacity
loses the entries that were accessed longest ago, each with a record in the log. The
start reads the snapshot, which must be readable line by line, replays the log up to
the first record that it cannot read, and cuts the table to its capacity. The writing
of the files is taken to succeed.
-/

namespace Zb.DataNode

open Bytes TextFields TableFill WalRecords

/-! ## The format of an entry -/

/-- What the stores do differently. -/
structure MetaFormat (ρ : Type) where
  noun : String
  kArchiveWalMagic : Bytes
  length_magic : kArchiveWalMagic.length = 4
  key : ρ → Bytes
  lastAccess : ρ → UInt64
  serializeMetaLine : ρ → Bytes
  parseMetaLine : Bytes → Option ρ
  parse_nil : parseMetaLine [] = none
  deletion : ρ → Bytes
  parseDeletion : Bytes → Option Bytes

abbrev MetaTable (ρ : Type) := AList fun _ : Bytes => ρ

abbrev MetaOrder (ρ : Type) := RowOrder (Sigma fun _ : Bytes => ρ)

/-- The table with its bounds, and the content of its two files. A file that is not there
    counts as an empty one. -/
structure MetaStore (ρ : Type) where
  metas : MetaTable ρ := ∅
  maxEntries : Nat
  snapshotIntervalOps : UInt32
  updatesSinceSnapshot : UInt32 := 0
  snapshot : Bytes := []
  wal : Bytes := []

def kMaxWalPayloadBytes : Nat := 64 * 1024 * 1024

def maxTs : UInt64 := 0xFFFFFFFFFFFFFFFF

theorem le_maxTs (ts : UInt64) : ts ≤ maxTs :=
  UInt64.le_iff_toNat_le.mpr (Nat.le_of_lt_succ ts.toNat_lt)

/-- One byte of the checksum. -/
def crc32Byte (crc : UInt32) (ch : UInt8) : UInt32 :=
  (List.range 8).foldl
    (fun crc _ => (crc >>> 1) ^^^ (0xEDB88320 &&& (0 - (crc &&& 1)))) (crc ^^^ ch.toUInt32)

def crc32 (data : Bytes) : UInt32 := ~~~ data.foldl crc32Byte 0xFFFFFFFF

/-- A change of an entry, and its deletion. -/
def updatePayload (line : Bytes) : Bytes := 85 :: tab :: line

def deletePayload (body : Bytes) : Bytes := 68 :: tab :: body

namespace MetaStore

variable {ρ : Type} (format : MetaFormat ρ) (order : MetaOrder ρ) (store : MetaStore ρ)

/-! ## Writing -/

/-- `EnsureWalMagicLocked`. -/
def ensureWalMagic : Option (MetaStore ρ) :=
  if store.wal = [] then some { store with wal := format.kArchiveWalMagic }
  else if store.wal.length < 4 then none
  else some store

/-- `AppendWalRecordLocked`, and the count of the changes when it succeeds. -/
def appendWalRecord (payload : Bytes) : Option (MetaStore ρ) :=
  (ensureWalMagic format store).map fun store =>
    { store with
      wal := store.wal ++ frame crc32 payload
      updatesSinceSnapshot := store.updatesSinceSnapshot + 1 }

/-- `WriteSnapshotLocked`. -/
def writeSnapshot : MetaStore ρ :=
  { store with
    snapshot := (order.arrange store.metas.entries).flatMap fun entry =>
      format.serializeMetaLine entry.2 ++ [newline]
    wal := format.kArchiveWalMagic
    updatesSinceSnapshot := 0 }

def maybeSnapshot : MetaStore ρ :=
  if store.updatesSinceSnapshot < store.snapshotIntervalOps then store
  else writeSnapshot format order store

/-- A change is logged, and every so often the table is written. -/
def record (payload : Bytes) : Bool × MetaStore ρ :=
  match appendWalRecord format store payload with
  | none => (false, store)
  | some logged => (true, maybeSnapshot format order logged)

/-- The first entry, in the order of the table, that was accessed before all others; none
    when all were accessed at the largest time. -/
def oldest (entries : List (Sigma fun _ : Bytes => ρ)) : Option (Sigma fun _ : Bytes => ρ) :=
  entries.foldl
    (fun victim entry =>
      if format.lastAccess entry.2 < (victim.map fun v => format.lastAccess v.2).getD maxTs
      then some entry else victim)
    none

/-- One eviction, with a record in the log when the log is open. -/
def evict (walOpen : Bool) (victim : Sigma fun _ : Bytes => ρ) : MetaStore ρ :=
  let rest := { store with metas := store.metas.erase victim.1 }
  if walOpen then
    (appendWalRecord format rest (deletePayload (format.deletion victim.2))).getD rest
  else rest

/-- The loop of `EvictIfNeededLocked`; every turn takes an entry away. -/
def evictLoop (walOpen : Bool) : Nat → MetaStore ρ → MetaStore ρ
  | 0, store => store
  | fuel + 1, store =>
      if store.metas.entries.length ≤ store.maxEntries then store
      else
        match oldest format (order.arrange store.metas.entries) with
        | none => store
        | some victim => evictLoop walOpen fuel (evict format store walOpen victim)

def evictIfNeeded (walOpen : Bool) : MetaStore ρ :=
  evictLoop format order walOpen store.metas.entries.length store

/-- An entry that is put in place and logged. -/
def put (row : ρ) : Bool × MetaStore ρ :=
  record format order { store with metas := store.metas.insert (format.key row) row }
    (updatePayload (format.serializeMetaLine row))

/-- The same with the table cut to its capacity before the entry is logged. -/
def putEvicting (row : ρ) : Bool × MetaStore ρ :=
  record format order
    (evictIfNeeded format order
      { store with metas := store.metas.insert (format.key row) row } true)
    (updatePayload (format.serializeMetaLine row))

/-- An entry that is taken away and logged. -/
def remove (key body : Bytes) : MetaStore ρ :=
  (record format order { store with metas := store.metas.erase key } (deletePayload body)).2

def setMax (maxEntries : Nat) : MetaStore ρ :=
  evictIfNeeded format order { store with maxEntries := max 1 maxEntries } true

/-! ## Reading -/

def invalidSnapshot (lineNumber : Nat) : String :=
  "invalid " ++ format.noun ++ " snapshot at line " ++ toString lineNumber

/-- `LoadSnapshotLocked`, from line `lineNumber` on. -/
def loadSnapshot : Nat → List Bytes → MetaTable ρ → Except String (MetaTable ρ)
  | _, [], metas => .ok metas
  | lineNumber, line :: lines, metas =>
      if line = [] then loadSnapshot (lineNumber + 1) lines metas
      else
        match format.parseMetaLine line with
        | none => .error (invalidSnapshot format lineNumber)
        | some row => loadSnapshot (lineNumber + 1) lines (metas.insert (format.key row) row)

/-- What one record of the log does, if it can be read. -/
def applyPayload (metas : MetaTable ρ) : Bytes → Option (MetaTable ρ)
  | op :: sep :: body =>
      if sep ≠ tab then none
      else if op = 85 then
        (format.parseMetaLine body).map fun row => metas.insert (format.key row) row
      else if op = 68 then (format.parseDeletion body).map fun key => metas.erase key
      else none
  | _ => none

/-- `ReplayWalLocked`: the table, and the log cut behind its last good record. A log that
    starts otherwise is dropped whole. -/
def replayWal (metas : MetaTable ρ) (wal : Bytes) : MetaTable ρ × Bytes :=
  if wal = [] then (metas, [])
  else if wal.take 4 ≠ format.kArchiveWalMagic then (metas, [])
  else
    let replayed := replayAll crc32 kMaxWalPayloadBytes (applyPayload format) metas (wal.drop 4)
    (replayed.1, wal.take (wal.length - replayed.2.length))

/-- `Init` of a directory with these two files. The log is not open yet when the table is
    cut to its capacity. -/
def init (maxEntries : Nat) (snapshotIntervalOps : UInt32) (snapshot wal : Bytes) :
    Except String (MetaStore ρ) :=
  match loadSnapshot format 1 (getLines newline [] snapshot) ∅ with
  | .error message => .error message
  | .ok base =>
      let replayed := replayWal format base wal
      let loaded : MetaStore ρ :=
        { metas := replayed.1
          maxEntries := max 1 maxEntries
          snapshotIntervalOps := if snapshotIntervalOps = 0 then 1 else snapshotIntervalOps
          snapshot := snapshot
          wal := replayed.2 }
      match ensureWalMagic format (evictIfNeeded format order loaded false) with
      | none => .error (format.noun ++ " wal is too small for magic header")
      | some store => .ok store

end MetaStore

/-! ## What is read back -/

/-- A row that the files can carry; `read` is what is read back of it. -/
structure MetaFormat.Writes {ρ : Type} (format : MetaFormat ρ) (row read : ρ) : Prop where
  parse : format.parseMetaLine (format.serializeMetaLine row) = some read
  key : format.key read = format.key row
  line : newline ∉ format.serializeMetaLine row
  size : (updatePayload (format.serializeMetaLine row)).length ≤ kMaxWalPayloadBytes
  deletion : format.parseDeletion (format.deletion row) = some (format.key row)
  deletion_size : (deletePayload (format.deletion row)).length ≤ kMaxWalPayloadBytes

namespace MetaStore

variable {ρ : Type} {format : MetaFormat ρ} {order : MetaOrder ρ} {store : MetaStore ρ}
  {norm : ρ → ρ} {metas metas' replayed next base : MetaTable ρ} {payload body : Bytes}
  {payloads : List Bytes} {row : ρ} {key : Bytes}

/-- Every entry is under its key and can be written. -/
def Sound (format : MetaFormat ρ) (norm : ρ → ρ) (metas : MetaTable ρ) : Prop :=
  ∀ key row, metas.lookup key = some row → format.key row = key ∧ format.Writes row (norm row)

/-- The files are readable to their end, and a replay makes this table of them. -/
def Logged (format : MetaFormat ρ) (store : MetaStore ρ) (replayed : MetaTable ρ) : Prop :=
  ∃ (base : MetaTable ρ) (payloads : List Bytes),
    loadSnapshot format 1 (getLines newline [] store.snapshot) ∅ = .ok base ∧
    store.wal = format.kArchiveWalMagic ++ payloads.flatMap (frame crc32) ∧
    (∀ payload ∈ payloads, payload.length ≤ kMaxWalPayloadBytes) ∧
    payloads.foldlM (applyPayload format) base = some replayed

theorem kMaxWalPayloadBytes_lt : kMaxWalPayloadBytes < 2 ^ 32 := by decide

theorem applyPayload_update (h : format.Writes row (norm row)) (metas : MetaTable ρ) :
    applyPayload format metas (updatePayload (format.serializeMetaLine row)) =
      some (metas.insert (format.key row) (norm row)) := by
  rw [updatePayload, applyPayload, if_neg (not_not_intro rfl), if_pos rfl, h.parse, Option.map_some,
    h.key]

theorem applyPayload_delete (h : format.parseDeletion body = some key) (metas : MetaTable ρ) :
    applyPayload format metas (deletePayload body) = some (metas.erase key) := by
  rw [deletePayload, applyPayload, if_neg (not_not_intro rfl), if_neg (by decide), if_pos rfl, h,
    Option.map_some]

/-! ## The log -/

theorem Logged.ensureWalMagic (h : Logged format store replayed) :
    ensureWalMagic format store = some store := by
  obtain ⟨base, payloads, -, hwal, -⟩ := h
  have hlength : 4 ≤ store.wal.length := by
    rw [hwal, List.length_append, format.length_magic]
    exact Nat.le_add_right 4 _
  have hne : store.wal ≠ [] := fun heq => by
    rw [heq] at hlength
    cases hlength
  rw [MetaStore.ensureWalMagic, if_neg hne, if_neg (Nat.not_lt_of_le hlength)]

/-- A record that can be applied is read back behind the others. -/
theorem Logged.append (h : Logged format store replayed)
    (hsize : payload.length ≤ kMaxWalPayloadBytes)
    (happly : applyPayload format replayed payload = some next) :
    ∃ logged, appendWalRecord format store payload = some logged ∧
      logged.metas = store.metas ∧ logged.maxEntries = store.maxEntries ∧
        Logged format logged next := by
  refine ⟨_, congrArg (Option.map _) h.ensureWalMagic, rfl, rfl, ?_⟩
  obtain ⟨base, payloads, hbase, hwal, hsizes, hrun⟩ := h
  refine ⟨base, payloads ++ [payload], hbase, ?_, fun other hmem => ?_, ?_⟩
  · show store.wal ++ frame crc32 payload = _
    rw [hwal, List.flatMap_append, List.flatMap_singleton, List.append_assoc]
  · rcases List.mem_append.mp hmem with hmem | hmem
    · exact hsizes other hmem
    · rwa [List.mem_singleton.mp hmem]
  · rw [List.foldlM_append, hrun]
    show (applyPayload format replayed payload).bind _ = _
    rw [happly]
    rfl

theorem Logged.replayWal (h : Logged format store replayed) :
    ∃ base, loadSnapshot format 1 (getLines newline [] store.snapshot) ∅ = .ok base ∧
      replayWal format base store.wal = (replayed, store.wal) := by
  obtain ⟨base, payloads, hbase, hwal, hsizes, hrun⟩ := h
  refine ⟨base, hbase, ?_⟩
  have hmagic : store.wal.take 4 = format.kArchiveWalMagic := by
    rw [hwal]
    exact List.take_left' format.length_magic
  have hrecords : store.wal.drop 4 = payloads.flatMap (frame crc32) := by
    rw [hwal]
    exact List.drop_left' format.length_magic
  have hne : store.wal ≠ [] := fun heq => by
    have hlength := format.length_magic
    rw [← hmagic, heq] at hlength
    cases hlength
  rw [MetaStore.replayWal, if_neg hne, if_neg (not_not_intro hmagic), hrecords,
    replayAll_frames kMaxWalPayloadBytes_lt hsizes hrun]
  dsimp only
  rw [List.length_nil, Nat.sub_zero, List.take_length]

/-! ## The snapshot -/

theorem serializeMetaLine_ne_nil (h : format.Writes row (norm row)) : format.serializeMetaLine row ≠ [] := by
  intro hempty
  have hparse := h.parse
  rw [hempty, format.parse_nil] at hparse
  cases hparse

theorem loadSnapshot_rows {entries : List (Sigma fun _ : Bytes => ρ)}
    (hentries : ∀ entry ∈ entries,
      format.key entry.2 = entry.1 ∧ format.Writes entry.2 (norm entry.2)) (lineNumber : Nat) :
    loadSnapshot format lineNumber (entries.map fun entry => format.serializeMetaLine entry.2)
        metas =
      .ok (fill Sigma.fst (fun entry => some (norm entry.2)) entries metas) := by
  induction entries generalizing metas lineNumber with
  | nil => rfl
  | cons entry entries ih =>
      obtain ⟨hkey, hwrites⟩ := hentries entry List.mem_cons_self
      rw [List.map_cons, loadSnapshot, if_neg (serializeMetaLine_ne_nil hwrites), hwrites.parse]
      dsimp only
      rw [ih fun other hmem => hentries other (List.mem_cons_of_mem _ hmem), hwrites.key, hkey]
      rfl

/-- The replayed table has these entries as they are read back, and no others. -/
def Agrees (norm : ρ → ρ) (metas replayed : MetaTable ρ) : Prop :=
  ∀ key, replayed.lookup key = (metas.lookup key).map norm

/-- The replayed table has these entries as they are read back, and maybe others. -/
def Covers (norm : ρ → ρ) (metas replayed : MetaTable ρ) : Prop :=
  ∀ key row, metas.lookup key = some row → replayed.lookup key = some (norm row)

theorem Agrees.covers (h : Agrees norm metas replayed) : Covers norm metas replayed := by
  intro key row hlookup
  rw [h key, hlookup, Option.map_some]

theorem Sound.writeSnapshot (h : Sound format norm store.metas) (order : MetaOrder ρ) :
    ∃ replayed, Logged format (writeSnapshot format order store) replayed ∧
      Agrees norm store.metas replayed := by
  have hperm := order.perm store.metas.entries
  have hentries : ∀ entry ∈ order.arrange store.metas.entries,
      format.key entry.2 = entry.1 ∧ format.Writes entry.2 (norm entry.2) := fun entry hmem =>
    h entry.1 entry.2 (AList.mem_lookup_iff.mpr (hperm.mem_iff.mp hmem))
  have hlines : getLines newline [] (MetaStore.writeSnapshot format order store).snapshot =
      (order.arrange store.metas.entries).map fun entry => format.serializeMetaLine entry.2 := by
    have hclean : ∀ line ∈ (order.arrange store.metas.entries).map
        fun entry => format.serializeMetaLine entry.2, newline ∉ line := by
      intro line hmem
      obtain ⟨entry, hentry, rfl⟩ := List.mem_map.mp hmem
      exact (hentries entry hentry).2.line
    rw [← getLines_flatMap hclean, List.flatMap_map]
    rfl
  have hnodup : ((order.arrange store.metas.entries).map Sigma.fst).Nodup :=
    (hperm.map Sigma.fst).nodup_iff.mpr store.metas.nodupKeys
  refine ⟨fill Sigma.fst (fun entry => some (norm entry.2)) (order.arrange store.metas.entries) ∅,
    ⟨_, [], by rw [hlines, loadSnapshot_rows hentries], ?_, nofun, rfl⟩, fun key => ?_⟩
  · exact (List.append_nil _).symm
  · cases hlookup : store.metas.lookup key with
    | none =>
        have hnot : key ∉ (order.arrange store.metas.entries).map Sigma.fst := fun hin =>
          AList.lookup_eq_none.mp hlookup
            (AList.mem_keys.mpr ((hperm.map Sigma.fst).mem_iff.mp hin))
        rw [lookup_fill_of_notMem hnot]
        rfl
    | some row =>
        have hmem : ⟨key, row⟩ ∈ order.arrange store.metas.entries :=
          hperm.mem_iff.mpr (AList.mem_lookup_iff.mp hlookup)
        exact lookup_fill hnodup hmem

/-! ## Evictions -/

variable {entries : List (Sigma fun _ : Bytes => ρ)} {victim entry : Sigma fun _ : Bytes => ρ}
  {walOpen : Bool} {fuel : Nat}

/-- The time that the scan compares with. -/
def oldestTs (format : MetaFormat ρ) (victim : Option (Sigma fun _ : Bytes => ρ)) : UInt64 :=
  (victim.map fun v => format.lastAccess v.2).getD maxTs

/-- What the scan finds from a candidate on. -/
theorem oldest_scan (format : MetaFormat ρ) (start : Option (Sigma fun _ : Bytes => ρ))
    (entries : List (Sigma fun _ : Bytes => ρ)) :
    let found := entries.foldl
      (fun victim entry =>
        if format.lastAccess entry.2 < oldestTs format victim then some entry else victim) start
    (found = start ∨ ∃ entry ∈ entries, found = some entry) ∧
      oldestTs format found ≤ oldestTs format start ∧
        ∀ entry ∈ entries, oldestTs format found ≤ format.lastAccess entry.2 := by
  induction entries generalizing start with
  | nil => exact ⟨.inl rfl, UInt64.le_refl _, nofun⟩
  | cons first entries ih =>
      dsimp only
      rw [List.foldl_cons]
      obtain ⟨hfound, hstart, hrest⟩ :=
        ih (if format.lastAccess first.2 < oldestTs format start then some first else start)
      by_cases hfirst : format.lastAccess first.2 < oldestTs format start
      · rw [if_pos hfirst] at hfound hstart hrest ⊢
        refine ⟨.inr ?_, UInt64.le_trans hstart (UInt64.le_of_lt hfirst), ?_⟩
        · rcases hfound with hfound | ⟨entry, hmem, hfound⟩
          · exact ⟨first, List.mem_cons_self, hfound⟩
          · exact ⟨entry, List.mem_cons_of_mem _ hmem, hfound⟩
        · intro entry hmem
          rcases List.mem_cons.mp hmem with rfl | hmem
          · exact hstart
          · exact hrest entry hmem
      · rw [if_neg hfirst] at hfound hstart hrest ⊢
        refine ⟨hfound.imp_right fun ⟨entry, hmem, heq⟩ =>
          ⟨entry, List.mem_cons_of_mem _ hmem, heq⟩, hstart, ?_⟩
        intro entry hmem
        rcases List.mem_cons.mp hmem with rfl | hmem
        · exact UInt64.le_trans hstart (UInt64.not_lt.mp hfirst)
        · exact hrest entry hmem

/-- A victim is an entry, and none was accessed before it. -/
theorem oldest_eq_some (h : oldest format entries = some victim) :
    victim ∈ entries ∧
      ∀ entry ∈ entries, format.lastAccess victim.2 ≤ format.lastAccess entry.2 := by
  obtain ⟨hfound, -, hle⟩ := oldest_scan format none entries
  have hscan : entries.foldl
      (fun victim entry =>
        if format.lastAccess entry.2 < oldestTs format victim then some entry else victim) none =
          some victim := h
  rw [hscan] at hfound hle
  refine ⟨?_, hle⟩
  rcases hfound with hnone | ⟨entry, hmem, heq⟩
  · cases hnone
  · exact Option.some.inj heq ▸ hmem

theorem oldest_eq_none (h : oldest format entries = none) (hmem : entry ∈ entries) :
    format.lastAccess entry.2 = maxTs := by
  obtain ⟨-, -, hle⟩ := oldest_scan format none entries
  have hscan : entries.foldl
      (fun victim entry =>
        if format.lastAccess entry.2 < oldestTs format victim then some entry else victim) none =
          none := h
  rw [hscan] at hle
  exact UInt64.le_antisymm (le_maxTs _) (hle entry hmem)

/-- Entries leave the table and the replayed table together. -/
def Shrinks (metas replayed metas' replayed' : MetaTable ρ) : Prop :=
  ∀ key, metas'.lookup key = metas.lookup key ∧ replayed'.lookup key = replayed.lookup key ∨
    metas'.lookup key = none ∧ replayed'.lookup key = none

theorem Shrinks.trans {metas'' replayed' replayed'' : MetaTable ρ}
    (h : Shrinks metas replayed metas' replayed')
    (h' : Shrinks metas' replayed' metas'' replayed'') :
    Shrinks metas replayed metas'' replayed'' := by
  intro key
  rcases h' key with ⟨hmetas', hreplayed'⟩ | hnone
  · rw [hmetas', hreplayed']
    exact h key
  · exact .inr hnone

theorem shrinks_erase (key : Bytes) :
    Shrinks metas replayed (metas.erase key) (replayed.erase key) := by
  intro other
  by_cases hkey : other = key
  · rw [hkey]
    exact .inr ⟨AList.lookup_erase _ _, AList.lookup_erase _ _⟩
  · exact .inl ⟨AList.lookup_erase_ne hkey, AList.lookup_erase_ne hkey⟩

theorem Shrinks.sound {replayed' : MetaTable ρ} (h : Shrinks metas replayed metas' replayed')
    (hsound : Sound format norm metas) : Sound format norm metas' := by
  intro key row hlookup
  rcases h key with ⟨hmetas, -⟩ | ⟨hnone, -⟩
  · exact hsound key row (hmetas ▸ hlookup)
  · rw [hnone] at hlookup
    cases hlookup

theorem Logged.evict (h : Logged format store replayed) (hsound : Sound format norm store.metas)
    (hmem : victim ∈ store.metas.entries) :
    (evict format store true victim).metas = store.metas.erase victim.1 ∧
      (evict format store true victim).maxEntries = store.maxEntries ∧
        Logged format (evict format store true victim) (replayed.erase victim.1) := by
  obtain ⟨hkey, hwrites⟩ := hsound victim.1 victim.2 (AList.mem_lookup_iff.mpr hmem)
  have hrest : Logged format { store with metas := store.metas.erase victim.1 } replayed := h
  obtain ⟨logged, happend, hmetas, hmax, hlogged⟩ := hrest.append hwrites.deletion_size
    (applyPayload_delete hwrites.deletion replayed)
  rw [MetaStore.evict, if_pos rfl, happend, ← hkey]
  exact ⟨hmetas.trans (by rw [hkey]), hmax, hlogged⟩

/-- What the loop of evictions leaves. -/
structure Evicted (format : MetaFormat ρ) (store : MetaStore ρ) (replayed : MetaTable ρ)
    (store' : MetaStore ρ) (replayed' : MetaTable ρ) : Prop where
  logged : Logged format store' replayed'
  shrinks : Shrinks store.metas replayed store'.metas replayed'
  maxEntries : store'.maxEntries = store.maxEntries

theorem Logged.evictLoop (h : Logged format store replayed) (hsound : Sound format norm store.metas)
    (order : MetaOrder ρ) (fuel : Nat) :
    ∃ replayed', Evicted format store replayed (evictLoop format order true fuel store) replayed' := by
  have hsame : Evicted format store replayed store replayed := ⟨h, fun _ => .inl ⟨rfl, rfl⟩, rfl⟩
  induction fuel generalizing store replayed with
  | zero => exact ⟨replayed, hsame⟩
  | succ fuel ih =>
      rw [MetaStore.evictLoop]
      split
      · exact ⟨replayed, hsame⟩
      · split
        · exact ⟨replayed, hsame⟩
        · rename_i victim hvictim
          have hmem := (order.perm _).mem_iff.mp (oldest_eq_some hvictim).1
          obtain ⟨hmetas, hmax, hlogged⟩ := h.evict hsound hmem
          have hshrinks : Shrinks store.metas replayed (MetaStore.evict format store true victim).metas
              (replayed.erase victim.1) := hmetas ▸ shrinks_erase victim.1
          obtain ⟨replayed', hevicted⟩ := ih hlogged (hshrinks.sound hsound)
            ⟨hlogged, fun _ => .inl ⟨rfl, rfl⟩, rfl⟩
          exact ⟨replayed', hevicted.logged, hshrinks.trans hevicted.shrinks,
            hevicted.maxEntries.trans hmax⟩

theorem appendWalRecord_metas {logged : MetaStore ρ}
    (h : appendWalRecord format store payload = some logged) :
    logged.metas = store.metas ∧ logged.maxEntries = store.maxEntries := by
  obtain ⟨ensured, hensured, rfl⟩ := Option.map_eq_some_iff.mp h
  unfold ensureWalMagic at hensured
  split at hensured
  · cases hensured
    exact ⟨rfl, rfl⟩
  · split at hensured
    · cases hensured
    · cases hensured
      exact ⟨rfl, rfl⟩

theorem evict_metas (format : MetaFormat ρ) (store : MetaStore ρ) (walOpen : Bool)
    (victim : Sigma fun _ : Bytes => ρ) :
    (evict format store walOpen victim).metas = store.metas.erase victim.1 ∧
      (evict format store walOpen victim).maxEntries = store.maxEntries := by
  unfold evict
  dsimp only
  split
  · cases happend : appendWalRecord format { store with metas := store.metas.erase victim.1 }
        (deletePayload (format.deletion victim.2)) with
    | none => exact ⟨rfl, rfl⟩
    | some logged => exact appendWalRecord_metas happend
  · exact ⟨rfl, rfl⟩

theorem length_erase (h : victim ∈ metas.entries) :
    (metas.erase victim.1).entries.length + 1 = metas.entries.length := by
  obtain ⟨row, before, behind, -, hentries, herase⟩ :=
    List.exists_of_kerase (List.mem_keys_of_mem h)
  show (metas.entries.kerase victim.1).length + 1 = _
  rw [herase, hentries, List.length_append, List.length_append, List.length_cons]
  omega

theorem evictIfNeeded_of_le (h : store.metas.entries.length ≤ store.maxEntries) :
    evictIfNeeded format order store walOpen = store := by
  unfold evictIfNeeded
  cases store.metas.entries.length with
  | zero => rfl
  | succ fuel =>
      rw [evictLoop]
      exact if_pos h

/-- The loop ends with the table within its capacity, or without a victim. -/
theorem length_evictLoop (order : MetaOrder ρ) (walOpen : Bool)
    (hfuel : store.metas.entries.length ≤ fuel) :
    (evictLoop format order walOpen fuel store).metas.entries.length ≤ store.maxEntries ∨
      ∀ entry ∈ (evictLoop format order walOpen fuel store).metas.entries,
        format.lastAccess entry.2 = maxTs := by
  induction fuel generalizing store with
  | zero => exact .inl (Nat.le_trans hfuel (Nat.zero_le _))
  | succ fuel ih =>
      rw [evictLoop]
      split
      · rename_i hroom
        exact .inl hroom
      · split
        · rename_i hnone
          exact .inr fun entry hmem => oldest_eq_none hnone ((order.perm _).mem_iff.mpr hmem)
        · rename_i victim hvictim
          have hmem := (order.perm _).mem_iff.mp (oldest_eq_some hvictim).1
          obtain ⟨hmetas, hmax⟩ := evict_metas format store walOpen victim
          have hlength := length_erase hmem
          rw [← hmax]
          exact ih (by rw [hmetas]; omega)

/-- What is evicted was accessed no later than what stays. -/
theorem evictLoop_oldest (format : MetaFormat ρ) (order : MetaOrder ρ) (walOpen : Bool) (fuel : Nat)
    (store : MetaStore ρ) :
    (∀ key row, (evictLoop format order walOpen fuel store).metas.lookup key = some row →
      store.metas.lookup key = some row) ∧
    ∀ key row key' row', store.metas.lookup key = some row →
      (evictLoop format order walOpen fuel store).metas.lookup key = none →
        (evictLoop format order walOpen fuel store).metas.lookup key' = some row' →
          format.lastAccess row ≤ format.lastAccess row' := by
  have hsame : (∀ key row, store.metas.lookup key = some row → store.metas.lookup key = some row) ∧
      ∀ key row key' row', store.metas.lookup key = some row → store.metas.lookup key = none →
        store.metas.lookup key' = some row' → format.lastAccess row ≤ format.lastAccess row' :=
    ⟨fun _ _ h => h, fun _ _ _ _ hsome hnone =>
      absurd (hsome.symm.trans hnone) (Option.some_ne_none _)⟩
  induction fuel generalizing store with
  | zero => exact hsame
  | succ fuel ih =>
      rw [evictLoop]
      split
      · exact hsame
      · split
        · exact hsame
        · rename_i victim hvictim
          obtain ⟨hmem, hle⟩ := oldest_eq_some hvictim
          obtain ⟨hmetas, -⟩ := evict_metas format store walOpen victim
          obtain ⟨hkept, hevicted⟩ := ih (evict format store walOpen victim)
            ⟨fun _ _ h => h, fun _ _ _ _ hsome hnone =>
              absurd (hsome.symm.trans hnone) (Option.some_ne_none _)⟩
          rw [hmetas] at hkept hevicted
          have hstays (key : Bytes) (row : ρ)
              (h : (evictLoop format order walOpen fuel
                (evict format store walOpen victim)).metas.lookup key = some row) :
              store.metas.lookup key = some row :=
            (StoredFiles.lookup_erase_eq_some (hkept key row h)).2
          refine ⟨hstays, fun key row key' row' hlookup hgone hstay => ?_⟩
          by_cases hkey : key = victim.1
          · have hvictimRow := AList.mem_lookup_iff.mpr ((order.perm _).mem_iff.mp hmem)
            rw [hkey, hvictimRow] at hlookup
            cases hlookup
            have hentry := AList.mem_lookup_iff.mp (hstays key' row' hstay)
            exact hle ⟨key', row'⟩ ((order.perm _).mem_iff.mpr hentry)
          · exact hevicted key row key' row' ((AList.lookup_erase_ne hkey).trans hlookup) hgone hstay

/-- A table one above its capacity loses the entry that the scan finds. -/
theorem evictIfNeeded_one (hlength : store.metas.entries.length = store.maxEntries + 1)
    (h : oldest format (order.arrange store.metas.entries) = some victim) :
    evictIfNeeded format order store walOpen = evict format store walOpen victim := by
  have hmem := (order.perm _).mem_iff.mp (oldest_eq_some h).1
  obtain ⟨hmetas, hmax⟩ := evict_metas format store walOpen victim
  have hroom : (evict format store walOpen victim).metas.entries.length ≤
      (evict format store walOpen victim).maxEntries := by
    have herase := length_erase hmem
    rw [hmetas, hmax]
    omega
  rw [evictIfNeeded, hlength, evictLoop, if_neg (by omega), h]
  dsimp only
  cases store.maxEntries with
  | zero => rfl
  | succ fuel => exact if_pos hroom

/-! ## Changes -/

/-- The files hold what is in the table, and maybe entries that the table has lost. -/
structure Follows (format : MetaFormat ρ) (norm : ρ → ρ) (store : MetaStore ρ)
    (replayed : MetaTable ρ) : Prop where
  logged : Logged format store replayed
  sound : Sound format norm store.metas
  covers : Covers norm store.metas replayed

/-- The tables follow each other through a change, and they agree after it if they did
    before it and the condition holds. -/
def Steps (format : MetaFormat ρ) (norm : ρ → ρ) (store : MetaStore ρ) (replayed : MetaTable ρ)
    (store' : MetaStore ρ) (agreeing : Prop) : Prop :=
  ∃ replayed', Follows format norm store' replayed' ∧
    (agreeing → Agrees norm store.metas replayed → Agrees norm store'.metas replayed')

theorem Steps.same (h : Follows format norm store replayed) (agreeing : Prop) :
    Steps format norm store replayed store agreeing := ⟨replayed, h, fun _ hagrees => hagrees⟩

/-- A record that is appended to what the files hold, and the snapshot that may follow. -/
theorem Logged.record (h : Logged format store replayed) (hsound : Sound format norm store.metas)
    (hsize : payload.length ≤ kMaxWalPayloadBytes)
    (happly : applyPayload format replayed payload = some next) (order : MetaOrder ρ) :
    (record format order store payload).1 = true ∧
    (record format order store payload).2.metas = store.metas ∧
    (record format order store payload).2.maxEntries = store.maxEntries ∧
      ∃ replayed', Logged format (record format order store payload).2 replayed' ∧
        (replayed' = next ∨ Agrees norm store.metas replayed') := by
  obtain ⟨logged, happend, hmetas, hmax, hlogged⟩ := h.append hsize happly
  rw [MetaStore.record, happend]
  dsimp only
  unfold maybeSnapshot
  split
  · exact ⟨rfl, hmetas, hmax, next, hlogged, .inl rfl⟩
  · have hlogged : Sound format norm logged.metas := hmetas ▸ hsound
    obtain ⟨replayed', hsnapshot, hagrees⟩ := hlogged.writeSnapshot order
    exact ⟨rfl, hmetas, hmax, replayed', hsnapshot, .inr (hmetas ▸ hagrees)⟩

theorem Sound.insert (h : Sound format norm metas) (hrow : format.Writes row (norm row)) :
    Sound format norm (metas.insert (format.key row) row) := by
  intro key other hlookup
  by_cases hkey : key = format.key row
  · subst hkey
    rw [AList.lookup_insert] at hlookup
    cases hlookup
    exact ⟨rfl, hrow⟩
  · rw [AList.lookup_insert_ne hkey] at hlookup
    exact h key other hlookup

theorem Follows.evictIfNeeded (h : Follows format norm store replayed) (order : MetaOrder ρ) :
    Steps format norm store replayed (evictIfNeeded format order store true) True := by
  obtain ⟨replayed', hlogged, hshrinks, -⟩ :=
    h.logged.evictLoop h.sound order store.metas.entries.length
  refine ⟨replayed', ⟨hlogged, hshrinks.sound h.sound, fun key row hlookup => ?_⟩,
    fun _ hagrees key => ?_⟩
  · have hmetas : (MetaStore.evictIfNeeded format order store true).metas.lookup key =
        some row := hlookup
    rcases hshrinks key with ⟨hsame, hreplayed⟩ | ⟨hnone, -⟩
    · rw [hreplayed]
      exact h.covers key row (hsame.symm.trans hmetas)
    · exact absurd (hmetas.symm.trans hnone) (Option.some_ne_none row)
  · show _ = Option.map norm
      ((evictLoop format order true store.metas.entries.length store).metas.lookup key)
    rcases hshrinks key with ⟨hsame, hreplayed⟩ | ⟨hnone, hreplayed⟩
    · rw [hreplayed, hsame]
      exact hagrees key
    · rw [hreplayed, hnone]
      rfl

/-- An entry that is put in place is logged, and then evicted or not. -/
theorem Follows.putEvicting (h : Follows format norm store replayed)
    (hrow : format.Writes row (norm row)) (order : MetaOrder ρ) :
    (putEvicting format order store row).1 = true ∧
    Steps format norm store replayed (putEvicting format order store row).2
      ((putEvicting format order store row).2.metas.lookup (format.key row) = some row) := by
  have hput : Logged format { store with metas := store.metas.insert (format.key row) row }
      replayed := h.logged
  have hsound : Sound format norm (store.metas.insert (format.key row) row) := h.sound.insert hrow
  obtain ⟨replayed', hlogged, hshrinks, -⟩ := hput.evictLoop hsound order
    (store.metas.insert (format.key row) row).entries.length
  have hevictedSound := hshrinks.sound hsound
  obtain ⟨htrue, hmetas, -, replayed'', hrecord, hreplayed⟩ :=
    hlogged.record hevictedSound hrow.size (applyPayload_update hrow replayed') order
  have hother (key : Bytes) (hkey : key ≠ format.key row) :
      (store.metas.insert (format.key row) row).lookup key = store.metas.lookup key :=
    AList.lookup_insert_ne hkey
  refine ⟨htrue, replayed'', ⟨hrecord, ?_, ?_⟩, fun hstays hagrees => ?_⟩
  · rw [MetaStore.putEvicting, MetaStore.evictIfNeeded, hmetas]
    exact hevictedSound
  · rw [MetaStore.putEvicting, MetaStore.evictIfNeeded, hmetas]
    rcases hreplayed with rfl | hagrees
    · intro key other hlookup
      by_cases hkey : key = format.key row
      · subst hkey
        rw [AList.lookup_insert]
        rcases hshrinks (format.key row) with ⟨hsame, -⟩ | ⟨hnone, -⟩
        · have hfound := hsame.symm.trans hlookup
          rw [AList.lookup_insert] at hfound
          cases hfound
          rfl
        · exact absurd (hlookup.symm.trans hnone) (Option.some_ne_none other)
      · rw [AList.lookup_insert_ne hkey]
        rcases hshrinks key with ⟨hsame, hsameReplayed⟩ | ⟨hnone, -⟩
        · rw [hsameReplayed]
          exact h.covers key other ((hother key hkey).symm.trans (hsame.symm.trans hlookup))
        · exact absurd (hlookup.symm.trans hnone) (Option.some_ne_none other)
    · exact hagrees.covers
  · rw [MetaStore.putEvicting, MetaStore.evictIfNeeded, hmetas] at hstays ⊢
    rcases hreplayed with rfl | hsnapshot
    · intro key
      by_cases hkey : key = format.key row
      · rw [hkey, AList.lookup_insert, hstays]
        rfl
      · rw [AList.lookup_insert_ne hkey]
        rcases hshrinks key with ⟨hsame, hsameReplayed⟩ | ⟨hnone, hnoneReplayed⟩
        · rw [hsameReplayed, hsame]
          exact (hagrees key).trans (congrArg (Option.map norm) (hother key hkey).symm)
        · rw [hnoneReplayed, hnone]
          rfl
    · exact hsnapshot

/-- An entry that is put in place without an eviction. -/
theorem Follows.put (h : Follows format norm store replayed)
    (hrow : format.Writes row (norm row)) (order : MetaOrder ρ) :
    (put format order store row).1 = true ∧
    (put format order store row).2.metas = store.metas.insert (format.key row) row ∧
    Steps format norm store replayed (put format order store row).2 True := by
  have hput : Logged format { store with metas := store.metas.insert (format.key row) row }
      replayed := h.logged
  have hsound : Sound format norm (store.metas.insert (format.key row) row) := h.sound.insert hrow
  obtain ⟨htrue, hmetas, -, replayed', hrecord, hreplayed⟩ :=
    hput.record hsound hrow.size (applyPayload_update hrow replayed) order
  have hinserted (hagrees : Agrees norm store.metas replayed) :
      Agrees norm (store.metas.insert (format.key row) row)
        (replayed.insert (format.key row) (norm row)) := by
    intro key
    by_cases hkey : key = format.key row
    · rw [hkey, AList.lookup_insert, AList.lookup_insert]
      rfl
    · rw [AList.lookup_insert_ne hkey, AList.lookup_insert_ne hkey]
      exact hagrees key
  refine ⟨htrue, hmetas, replayed', ⟨hrecord, ?_, ?_⟩, fun _ hagrees => ?_⟩
  · rw [MetaStore.put, hmetas]
    exact hsound
  · rw [MetaStore.put, hmetas]
    rcases hreplayed with rfl | hagrees
    · intro key other hlookup
      by_cases hkey : key = format.key row
      · rw [hkey, AList.lookup_insert] at hlookup ⊢
        cases hlookup
        rfl
      · have hold := (AList.lookup_insert_ne hkey).symm.trans hlookup
        rw [AList.lookup_insert_ne hkey]
        exact h.covers key other hold
    · exact hagrees.covers
  · rw [MetaStore.put, hmetas]
    rcases hreplayed with rfl | hsnapshot
    · exact hinserted hagrees
    · exact hsnapshot

theorem Follows.remove (h : Follows format norm store replayed)
    (hkey : format.parseDeletion body = some key)
    (hsize : (deletePayload body).length ≤ kMaxWalPayloadBytes) (order : MetaOrder ρ) :
    (remove format order store key body).metas = store.metas.erase key ∧
    Steps format norm store replayed (remove format order store key body) True := by
  have herased : Logged format { store with metas := store.metas.erase key } replayed := h.logged
  have hshrinks : Shrinks store.metas replayed (store.metas.erase key) (replayed.erase key) :=
    shrinks_erase key
  have hsound := hshrinks.sound h.sound
  obtain ⟨-, hmetas, -, replayed', hrecord, hreplayed⟩ :=
    herased.record hsound hsize (applyPayload_delete hkey replayed) order
  refine ⟨hmetas, replayed', ⟨hrecord, ?_, ?_⟩, fun _ hagrees => ?_⟩
  · rw [MetaStore.remove, hmetas]
    exact hsound
  · rw [MetaStore.remove, hmetas]
    rcases hreplayed with rfl | hagrees
    · intro other row hlookup
      obtain ⟨hne, hold⟩ := StoredFiles.lookup_erase_eq_some hlookup
      rw [AList.lookup_erase_ne hne]
      exact h.covers other row hold
    · exact hagrees.covers
  · rw [MetaStore.remove, hmetas]
    rcases hreplayed with rfl | hsnapshot
    · intro other
      rcases hshrinks other with ⟨hsame, hsameReplayed⟩ | ⟨hnone, hnoneReplayed⟩
      · rw [hsame, hsameReplayed]
        exact hagrees other
      · rw [hnone, hnoneReplayed]
        rfl
    · exact hsnapshot

/-! ## The start -/

/-- Nothing is written while the log is closed. -/
theorem evictLoop_closed (order : MetaOrder ρ) (fuel : Nat) (store : MetaStore ρ) :
    (evictLoop format order false fuel store).wal = store.wal := by
  induction fuel generalizing store with
  | zero => rfl
  | succ fuel ih =>
      rw [evictLoop]
      split
      · rfl
      · split
        · rfl
        · exact ih _

/-- A store starts from what the files hold, cut to the capacity. -/
theorem Follows.init (h : Follows format norm store replayed) (order : MetaOrder ρ)
    (maxEntries : Nat) (interval : UInt32) :
    ∃ reloaded, init format order maxEntries interval store.snapshot store.wal = .ok reloaded ∧
      (replayed.entries.length ≤ maxEntries → reloaded.metas = replayed) := by
  obtain ⟨base, hbase, hreplay⟩ := h.logged.replayWal
  rw [MetaStore.init, hbase]
  dsimp only
  rw [hreplay]
  dsimp only
  generalize hloaded : MetaStore.mk replayed (max 1 maxEntries)
    (if interval = 0 then 1 else interval) 0 store.snapshot store.wal = loaded
  have hwal : (MetaStore.evictIfNeeded format order loaded false).wal = store.wal := by
    rw [MetaStore.evictIfNeeded, evictLoop_closed, ← hloaded]
  have hmagic : ensureWalMagic format (MetaStore.evictIfNeeded format order loaded false) =
      some (MetaStore.evictIfNeeded format order loaded false) := by
    obtain ⟨base, payloads, -, hlog, -⟩ := h.logged
    have hlength : 4 ≤ (MetaStore.evictIfNeeded format order loaded false).wal.length := by
      rw [hwal, hlog, List.length_append, format.length_magic]
      exact Nat.le_add_right 4 _
    have hne : (MetaStore.evictIfNeeded format order loaded false).wal ≠ [] :=
      List.ne_nil_of_length_pos (by omega)
    rw [MetaStore.ensureWalMagic, if_neg hne, if_neg (Nat.not_lt_of_le hlength)]
  rw [hmagic]
  refine ⟨MetaStore.evictIfNeeded format order loaded false, rfl, fun hlength => ?_⟩
  have hroom : loaded.metas.entries.length ≤ loaded.maxEntries := by
    rw [← hloaded]
    exact Nat.le_trans hlength (Nat.le_max_right 1 maxEntries)
  rw [evictIfNeeded_of_le hroom, ← hloaded]

/-- A store that starts in an empty directory. -/
theorem init_empty {maxEntries : Nat} {interval : UInt32}
    (h : init format order maxEntries interval [] [] = .ok store) :
    Follows format norm store ∅ ∧ Agrees norm store.metas ∅ ∧
      store.metas = ∅ ∧ store.maxEntries = max 1 maxEntries := by
  cases h
  have hsound : Sound format norm (∅ : MetaTable ρ) := nofun
  refine ⟨⟨⟨∅, [], rfl, ?_, nofun, rfl⟩, hsound, nofun⟩, fun _ => rfl, rfl, rfl⟩
  exact (List.append_nil _).symm

theorem Agrees.length_le (h : Agrees norm metas replayed) :
    replayed.entries.length ≤ metas.entries.length := by
  have hkeys : replayed.keys ⊆ metas.keys := by
    intro key hmem
    by_contra hnot
    have hnone := AList.lookup_eq_none.mpr fun hin => hnot (AList.mem_keys.mp hin)
    have hreplayed := h key
    rw [hnone] at hreplayed
    exact AList.lookup_eq_none.mp hreplayed (AList.mem_keys.mpr hmem)
  have hle := (List.subperm_of_subset replayed.keys_nodup hkeys).length_le
  have hlength (table : MetaTable ρ) : table.keys.length = table.entries.length := List.length_map _
  rwa [hlength, hlength] at hle

end MetaStore

end Zb.DataNode
