-- SUMMARY: Runs of the namespace store over reservations and held attributes, and the invariant that they keep.
import ZBStorage.Mds.Storage.NamespaceRuns

/-!
# Runs of the namespace store

A client of the namespace store reserves and commits creations, renames and
removes paths, reads inodes and writes attributes back. A state of a run is the
state of the server together with what clients hold: their reservations and the
attributes they have read.
-/

namespace Zb.Mds

open Zb.Rpc Bytes LabelledGraph

/-! ## States and calls -/

structure NsState where
  mds : MdsState Unit
  reservations : List NamespaceCreation := []
  held : List (UInt64 × InodeAttr) := []

abbrev NsState.db (s : NsState) : MetaMap := s.mds.db

inductive NsCall
  | allocateInodeId (type : InodeType)
  | reserveCreate (path : Bytes) (type : InodeType)
  | commit (n : Nat) (attr : InodeAttr)
  | cancel (n : Nat)
  | rename (oldPath newPath : Bytes)
  | remove (path : Bytes) (expectedType : InodeType)
  | getInode (id : UInt64)
  | putInode (id : UInt64) (attr : InodeAttr)

/-- `c.Step s ok s'`: the call `c` can take `s` to `s'`, with a positive answer
    when `ok`. -/
def NsCall.Step : NsCall → NsState → Bool → NsState → Prop
  | .allocateInodeId type, s, ok, s' => ∃ r m,
      (Zb.Mds.allocateInodeId type).Runs () s.mds r m ∧ ok = r.isOk ∧ s' = { s with mds := m }
  | .reserveCreate path type, s, ok, s' => ∃ r m,
      (Zb.Mds.reserveCreate path type).Runs () s.mds r m ∧ ok = r.isOk ∧
      s' = { s with mds := m, reservations := s.reservations ++ r.toOption.toList }
  | .commit n attr, s, ok, s' => ∃ c r m, s.reservations[n]? = some c ∧
      (c.commit attr).Runs () s.mds r m ∧ ok = r.1.isOk ∧
      s' = { s with mds := m, reservations := s.reservations.set n r.2 }
  | .cancel n, s, ok, s' => ∃ c, s.reservations[n]? = some c ∧ ok = true ∧
      s' = { s with reservations := s.reservations.set n c.cancel }
  | .rename oldPath newPath, s, ok, s' => ∃ r m,
      (Zb.Mds.rename oldPath newPath).Runs () s.mds r m ∧ ok = r.isOk ∧ s' = { s with mds := m }
  | .remove path expectedType, s, ok, s' => ∃ r m,
      (Zb.Mds.remove path expectedType).Runs () s.mds r m ∧ ok = r.isOk ∧ s' = { s with mds := m }
  | .getInode id, s, ok, s' => ∃ r m,
      (Zb.Mds.getInode id).Runs () s.mds r m ∧ ok = r.isOk ∧
      s' = { s with mds := m, held := s.held ++ (r.toOption.map (id, ·)).toList }
  | .putInode id attr, s, ok, s' => ∃ r m,
      (Zb.Mds.putInode id attr).Runs () s.mds r m ∧ ok = r.isOk ∧ s' = { s with mds := m }

/-- The state `EnsureRoot` leaves of an empty store: the root directory, no entry
    and no other inode. -/
structure RootState (s : NsState) : Prop where
  root : ∃ record, recordOf s.db kRootInodeId = some record ∧ IsDir record
  inodes : ∀ id, s.db.lookup (.inode id) ≠ none → id = kRootInodeId
  dentries : ∀ parent name, s.db.lookup (.dentry parent name) = none
  counter : s.db.lookup .nextInode = none
  reservations : s.reservations = []
  held : s.held = []

/-! ## Entries and records after each batch -/

section Batches

variable {db : MetaMap} {p q id x : UInt64} {n m payload : Bytes}

theorem dentryOf_eq_some {parent : UInt64} {name : Bytes} :
    dentryOf db parent name = some id ↔
      ∃ v, db.lookup (.dentry parent name) = some v ∧ decodeUInt64 v = some id := by
  rw [dentryOf, Option.bind_eq_some_iff]

@[simp] theorem dentryOf_createBatch :
    dentryOf (db.write (createBatch p n id payload)) q m =
      if q = p ∧ m = n then some id else dentryOf db q m := by
  simp [dentryOf, createBatch]
  split <;> simp [decodeUInt64_encodeUInt64]

@[simp] theorem recordOf_createBatch :
    recordOf (db.write (createBatch p n id payload)) x =
      if x = id then (decodeUnifiedInodeRecord payload).toOption else recordOf db x := by
  simp [recordOf, createBatch]
  split <;> simp

variable {oldParent newParent : UInt64} {oldName newName : Bytes}

@[simp] theorem dentryOf_renameBatch :
    dentryOf (db.write (renameBatch oldParent oldName newParent newName id payload)) q m =
      if q = newParent ∧ m = newName then some id
      else if q = oldParent ∧ m = oldName then none else dentryOf db q m := by
  simp [dentryOf, renameBatch]
  split
  · simp [decodeUInt64_encodeUInt64]
  · split <;> simp

@[simp] theorem recordOf_renameBatch :
    recordOf (db.write (renameBatch oldParent oldName newParent newName id payload)) x =
      if x = id then (decodeUnifiedInodeRecord payload).toOption else recordOf db x := by
  simp [recordOf, renameBatch]
  split <;> simp

@[simp] theorem dentryOf_removeBatch :
    dentryOf (db.write (removeBatch p n id)) q m =
      if q = p ∧ m = n then none else dentryOf db q m := by
  simp [dentryOf, removeBatch]
  split <;> simp

@[simp] theorem recordOf_removeBatch :
    recordOf (db.write (removeBatch p n id)) x = if x = id then none else recordOf db x := by
  simp [recordOf, removeBatch]
  split <;> simp

@[simp] theorem dentryOf_insert_inode :
    dentryOf (db.insert (.inode id) payload) q m = dentryOf db q m := by
  simp [dentryOf]

@[simp] theorem dentryOf_insert_nextInode {v : Bytes} :
    dentryOf (db.insert .nextInode v) q m = dentryOf db q m := by
  simp [dentryOf]

@[simp] theorem recordOf_insert_nextInode {v : Bytes} :
    recordOf (db.insert .nextInode v) x = recordOf db x := by
  simp [recordOf]

end Batches

/-! ## Entries lead to records -/

/-- Every record decodes, every entry leads to a stored record, no record is
    entered twice and the root not at all. -/
structure Linked (db : MetaMap) : Prop where
  decodes : ∀ id data, db.lookup (.inode id) = some data → ∃ record, recordOf db id = some record
  target : ∀ parent name v, db.lookup (.dentry parent name) = some v →
    ∃ id record, dentryOf db parent name = some id ∧ recordOf db id = some record
  arborescence : Arborescence (dentryOf db) kRootInodeId

theorem Linked.target_of_dentryOf {db : MetaMap} (h : Linked db) {parent id : UInt64} {name : Bytes}
    (hd : dentryOf db parent name = some id) : ∃ record, recordOf db id = some record := by
  obtain ⟨v, hv, -⟩ := dentryOf_eq_some.mp hd
  obtain ⟨id', record, hid', hrecord⟩ := h.target _ _ _ hv
  obtain rfl : id' = id := Option.some.inj (hid'.symm.trans hd)
  exact ⟨record, hrecord⟩

theorem lookup_inode_of_recordOf {db : MetaMap} {id : UInt64} {record : UnifiedInodeRecord}
    (h : recordOf db id = some record) : db.lookup (.inode id) ≠ none := by
  obtain ⟨data, hdata, -⟩ := recordOf_eq_some.mp h
  simp [hdata]

theorem createPayload_ok {attr : InodeAttr} {parent : UInt64} {name payload : Bytes}
    (h : createPayload attr parent name = .ok payload) :
    ∃ record, decodeUnifiedInodeRecord payload = .ok record ∧ record.parentInodeId = parent ∧
      record.fileName = name ∧ record.inodeType = attr.type.toUInt32.toUInt8 := by
  unfold createPayload at h
  cases hrec : attrToUnifiedInodeRecord { attr with fileName := name } parent
      UnifiedStorageTier.kNone with
  | error e => simp [hrec, bind, Except.bind] at h
  | ok record =>
      simp only [hrec, bind, Except.bind] at h
      obtain ⟨hparent, hname, htype, -⟩ := attrToUnifiedInodeRecord_ok hrec
      exact ⟨storedForm record, decode_encode h, hparent, hname, htype⟩

theorem renamePayload_ok {data payload : Bytes} {newParent : UInt64} {newName : Bytes}
    (h : renamePayload data newParent newName = .ok payload) :
    ∃ old new, decodeUnifiedInodeRecord data = .ok old ∧
      decodeUnifiedInodeRecord payload = .ok new ∧ new.parentInodeId = newParent ∧
      new.fileName = newName ∧ new.inodeType = old.inodeType := by
  unfold renamePayload at h
  cases hdec : decodeUnifiedInodeRecord data with
  | error e => simp [hdec, bind, Except.bind] at h
  | ok old =>
      simp only [hdec, bind, Except.bind] at h
      exact ⟨old, _, rfl, decode_encode h, rfl, rfl, rfl⟩

section Linked

variable {db : MetaMap}

theorem Linked.of_create {path : Bytes} {attr : InodeAttr} {batch : WriteBatch} (h : Linked db)
    (hc : CreateEffect db path attr batch) (hfresh : db.lookup (.inode attr.inodeId) = none) :
    Linked (db.write batch) := by
  obtain ⟨parent, name, payload, -, -, -, hid, hpay, rfl⟩ := hc
  obtain ⟨record, hdec, -⟩ := createPayload_ok hpay
  have hnew {p n} : dentryOf db p n ≠ some attr.inodeId := by
    intro hd
    obtain ⟨r, hr⟩ := h.target_of_dentryOf hd
    exact lookup_inode_of_recordOf hr hfresh
  have hkeep {id r} (hr : recordOf db id = some r) :
      ∃ r, recordOf (db.write (createBatch parent name attr.inodeId payload)) id = some r := by
    rw [recordOf_createBatch]
    split
    · exact ⟨record, by simp [hdec, Except.toOption]⟩
    · exact ⟨r, hr⟩
  constructor
  · intro id data hdata
    by_cases hx : id = attr.inodeId
    · exact ⟨record, by simp [hx, hdec, Except.toOption]⟩
    · obtain ⟨r, hr⟩ := h.decodes id data (by simpa [createBatch, hx] using hdata)
      exact hkeep hr
  · intro p n v hv
    by_cases hpn : p = parent ∧ n = name
    · exact ⟨attr.inodeId, record, by simp [hpn], by simp [hdec, Except.toOption]⟩
    · obtain ⟨id, r, hd, hr⟩ := h.target p n v
        (by simpa [createBatch, hpn] using hv)
      obtain ⟨r', hr'⟩ := hkeep hr
      exact ⟨id, r', by simp [hpn, hd], hr'⟩
  · constructor
    · intro a b c k l hac hbc
      simp only [dentryOf_createBatch] at hac hbc
      split at hac <;> split at hbc
      · next ha hb => exact ⟨ha.1.trans hb.1.symm, ha.2.trans hb.2.symm⟩
      · exact absurd (hbc.trans hac.symm) hnew
      · exact absurd (hac.trans hbc.symm) hnew
      · exact h.arborescence.in_unique hac hbc
    · intro a l hroot
      simp only [dentryOf_createBatch] at hroot
      split at hroot
      · exact absurd (Option.some.inj hroot) (UInt64.ne_of_lt hid).symm
      · exact h.arborescence.root_in a l hroot

theorem Linked.of_rename {oldPath newPath : Bytes} {batch : WriteBatch} (h : Linked db)
    (hc : RenameEffect db oldPath newPath batch) : Linked (db.write batch) := by
  obtain ⟨oldParent, oldName, newParent, newName, inode, data, payload, -, -, hsource, habsent,
    hdata, hpay, rfl⟩ := hc
  obtain ⟨old, new, hold, hnew, -⟩ := renamePayload_ok hpay
  have hkeep {id r} (hr : recordOf db id = some r) : ∃ r, recordOf
      (db.write (renameBatch oldParent oldName newParent newName inode payload)) id = some r := by
    rw [recordOf_renameBatch]
    split
    · exact ⟨new, by simp [hnew, Except.toOption]⟩
    · exact ⟨r, hr⟩
  constructor
  · intro id data' hdata'
    by_cases hx : id = inode
    · exact ⟨new, by simp [hx, hnew, Except.toOption]⟩
    · obtain ⟨r, hr⟩ := h.decodes id data' (by simpa [renameBatch, hx] using hdata')
      exact hkeep hr
  · intro p n v hv
    by_cases hpn : p = newParent ∧ n = newName
    · exact ⟨inode, new, by simp [hpn], by simp [hnew, Except.toOption]⟩
    · have hv' : ¬ (p = oldParent ∧ n = oldName) ∧ db.lookup (.dentry p n) = some v := by
        simpa [renameBatch, hpn] using hv
      obtain ⟨id, r, hd, hr⟩ := h.target _ _ _ hv'.2
      obtain ⟨r', hr'⟩ := hkeep hr
      exact ⟨id, r', by simp [hpn, hv'.1, hd], hr'⟩
  · constructor
    · intro a b c k l hac hbc
      simp only [dentryOf_renameBatch] at hac hbc
      -- the only entry of the moved inode was the one just deleted
      have hmoved {p n} (hd : dentryOf db p n = some inode) : p = oldParent ∧ n = oldName :=
        h.arborescence.in_unique hd hsource
      split at hac <;> split at hbc
      · next ha hb => exact ⟨ha.1.trans hb.1.symm, ha.2.trans hb.2.symm⟩
      · split at hbc
        · cases hbc
        · next hne => exact absurd (hmoved (hbc.trans hac.symm)) hne
      · split at hac
        · cases hac
        · next hne => exact absurd (hmoved (hac.trans hbc.symm)) hne
      · split at hac
        · cases hac
        · split at hbc
          · cases hbc
          · exact h.arborescence.in_unique hac hbc
    · intro a l hroot
      simp only [dentryOf_renameBatch] at hroot
      split at hroot
      · exact h.arborescence.root_in oldParent oldName (hsource.trans hroot)
      · split at hroot
        · cases hroot
        · exact h.arborescence.root_in a l hroot

theorem Linked.of_remove {path : Bytes} {batch : WriteBatch} (h : Linked db)
    (hc : RemoveEffect db path batch) : Linked (db.write batch) := by
  obtain ⟨parent, name, inode, record, -, hsource, hrecord, -, rfl⟩ := hc
  constructor
  · intro id data hdata
    by_cases hx : id = inode
    · simp [removeBatch, hx] at hdata
    · obtain ⟨r, hr⟩ := h.decodes id data (by simpa [removeBatch, hx] using hdata)
      exact ⟨r, by simp [hx, hr]⟩
  · intro p n v hv
    have hv' : ¬ (p = parent ∧ n = name) ∧ db.lookup (.dentry p n) = some v := by
      simpa [removeBatch] using hv
    obtain ⟨id, r, hd, hr⟩ := h.target _ _ _ hv'.2
    -- only the deleted entry led to the deleted record
    have hx : id ≠ inode := by
      rintro rfl
      exact hv'.1 (h.arborescence.in_unique hd hsource)
    exact ⟨id, r, by simp [hv'.1, hd], by simp [hx, hr]⟩
  · constructor
    · intro a b c k l hac hbc
      simp only [dentryOf_removeBatch] at hac hbc
      split at hac
      · cases hac
      · split at hbc
        · cases hbc
        · exact h.arborescence.in_unique hac hbc
    · intro a l hroot
      simp only [dentryOf_removeBatch] at hroot
      split at hroot
      · cases hroot
      · exact h.arborescence.root_in a l hroot

theorem Linked.of_put {id : UInt64} {attr : InodeAttr} {data payload : Bytes} (h : Linked db)
    (hpay : putInodePayload attr (.ok data) = .ok payload) :
    Linked (db.insert (.inode id) payload) := by
  obtain ⟨record, -, hdec⟩ := putInodePayload_existing hpay
  have hkeep {x r} (hr : recordOf db x = some r) :
      ∃ r, recordOf (db.insert (.inode id) payload) x = some r := by
    rw [recordOf_insert_inode]
    split
    · exact ⟨storedForm (updatedRecord attr record), by simp [hdec, Except.toOption]⟩
    · exact ⟨r, hr⟩
  constructor
  · intro x data' hdata'
    by_cases hx : x = id
    · exact ⟨storedForm (updatedRecord attr record), by simp [hx, hdec, Except.toOption]⟩
    · obtain ⟨r, hr⟩ := h.decodes x data' (by simpa [hx] using hdata')
      exact hkeep hr
  · intro p n v hv
    obtain ⟨x, r, hd, hr⟩ := h.target p n v (by simpa using hv)
    obtain ⟨r', hr'⟩ := hkeep hr
    exact ⟨x, r', by simpa using hd, hr'⟩
  · exact ⟨fun hac hbc => h.arborescence.in_unique (by simpa using hac) (by simpa using hbc),
      fun a l hroot => h.arborescence.root_in a l (by simpa using hroot)⟩

theorem Linked.of_count {v : Bytes} (h : Linked db) : Linked (db.insert .nextInode v) := by
  constructor
  · intro id data hdata
    obtain ⟨r, hr⟩ := h.decodes id data (by simpa using hdata)
    exact ⟨r, by simpa using hr⟩
  · intro p n w hw
    obtain ⟨id, r, hd, hr⟩ := h.target p n w (by simpa using hw)
    exact ⟨id, r, by simpa using hd, by simpa using hr⟩
  · exact ⟨fun hac hbc => h.arborescence.in_unique (by simpa using hac) (by simpa using hbc),
      fun a l hroot => h.arborescence.root_in a l (by simpa using hroot)⟩

end Linked

/-! ## Reserved ids are fresh -/

/-- Every id in use and every reserved id lies below the counter, reserved ids
    are distinct, and an unfinished reservation has no record yet. -/
structure Fresh (db : MetaMap) (reservations : List NamespaceCreation) : Prop where
  counter : ∃ next, nextInodeId (db.read .nextInode) = .ok next ∧ kRootInodeId < next ∧
    (∀ id, db.lookup (.inode id) ≠ none → id < next) ∧ ∀ c ∈ reservations, c.id < next
  distinct : (reservations.map (·.id)).Nodup
  unused : ∀ c ∈ reservations, c.finished = false → db.lookup (.inode c.id) = none

/-- The condition under which an allocation does not wrap the counter. -/
def CounterBelowMax (db : MetaMap) : Prop :=
  nextInodeId (db.read .nextInode) ≠ .ok 0xFFFFFFFFFFFFFFFF

instance (db : MetaMap) : Decidable (CounterBelowMax db) :=
  inferInstanceAs (Decidable (nextInodeId (db.read .nextInode) ≠ .ok 0xFFFFFFFFFFFFFFFF))

theorem lt_add_one_of_ne_max {n : UInt64} (h : n ≠ 0xFFFFFFFFFFFFFFFF) : n < n + 1 := by
  have hne : n.toNat ≠ 0xFFFFFFFFFFFFFFFF := fun hn => h (UInt64.toNat_inj.mp hn)
  have hlt := n.toNat_lt
  rw [UInt64.lt_iff_toNat_lt, UInt64.toNat_add, Nat.mod_eq_of_lt]
  · simp
  · simp
    omega

section Fresh

variable {db : MetaMap} {reservations : List NamespaceCreation}

/-- What the counter reads after an allocation. -/
theorem nextInodeId_insert {next : UInt64} :
    nextInodeId (MetaMap.read (db.insert .nextInode (encodeUInt64 next)) .nextInode) =
      .ok next := by
  have hread : MetaMap.read (db.insert .nextInode (encodeUInt64 next)) .nextInode =
      .ok (encodeUInt64 next) := MetaMap.read_eq_ok.mpr (AList.lookup_insert db)
  rw [hread, nextInodeId, decodeUInt64_encodeUInt64]

/-- Nothing but the counter and the set of inode ids matters for freshness. -/
theorem Fresh.of_subset {db' : MetaMap} (h : Fresh db reservations)
    (hcounter : db'.lookup .nextInode = db.lookup .nextInode)
    (hinodes : ∀ id, db'.lookup (.inode id) ≠ none → db.lookup (.inode id) ≠ none) :
    Fresh db' reservations := by
  obtain ⟨next, hnext, hroot, hids, hress⟩ := h.counter
  refine ⟨⟨next, ?_, hroot, fun id hid => hids id (hinodes id hid), hress⟩, h.distinct, ?_⟩
  · have hread : db'.read .nextInode = db.read .nextInode := by
      simp only [MetaMap.read, hcounter]
    rw [hread]
    exact hnext
  · intro c hc hfin
    by_contra hne
    exact hinodes c.id hne (h.unused c hc hfin)

/-- Allocating an id moves the counter above it. -/
theorem Fresh.of_count {next : UInt64} (h : Fresh db reservations)
    (hnext : nextInodeId (db.read .nextInode) = .ok next) (hmax : CounterBelowMax db) :
    Fresh (db.insert .nextInode (encodeUInt64 (next + 1))) reservations := by
  obtain ⟨next', hnext', hroot, hids, hress⟩ := h.counter
  obtain rfl : next' = next := Except.ok.inj (hnext'.symm.trans hnext)
  have hlt : next' < next' + 1 := lt_add_one_of_ne_max fun heq => hmax (heq ▸ hnext)
  refine ⟨⟨next' + 1, nextInodeId_insert, UInt64.lt_trans hroot hlt, ?_, ?_⟩, h.distinct, ?_⟩
  · intro id hid
    exact UInt64.lt_trans (hids id (by simpa using hid)) hlt
  · intro c hc
    exact UInt64.lt_trans (hress c hc) hlt
  · intro c hc hfin
    simpa using h.unused c hc hfin

/-- A reservation of the id just allocated is as fresh as the others. -/
theorem Fresh.of_reserve {next : UInt64} (h : Fresh db reservations)
    (hnext : nextInodeId (db.read .nextInode) = .ok next) (hmax : CounterBelowMax db)
    (path : Bytes) (type : InodeType) :
    Fresh (db.insert .nextInode (encodeUInt64 (next + 1)))
      (reservations ++ [{ path, type, id := next }]) := by
  obtain ⟨next', hnext', hroot, hids, hress⟩ := h.counter
  obtain rfl : next' = next := Except.ok.inj (hnext'.symm.trans hnext)
  have hlt : next' < next' + 1 := lt_add_one_of_ne_max fun heq => hmax (heq ▸ hnext)
  have hcount := h.of_count hnext hmax
  obtain ⟨after, hafter, hroot', hids', hress'⟩ := hcount.counter
  obtain rfl : after = next' + 1 := Except.ok.inj (hafter.symm.trans nextInodeId_insert)
  refine ⟨⟨next' + 1, hafter, hroot', hids', ?_⟩, ?_, ?_⟩
  · intro c hc
    rcases List.mem_append.mp hc with hc | hc
    · exact hress' c hc
    · obtain rfl := List.mem_singleton.mp hc
      exact hlt
  · rw [List.map_append, List.nodup_append]
    refine ⟨h.distinct, by simp, ?_⟩
    rintro a ha b hb rfl
    obtain ⟨c, hc, rfl⟩ := List.mem_map.mp ha
    exact UInt64.ne_of_lt (hress c hc) (by simpa using hb)
  · intro c hc hfin
    rcases List.mem_append.mp hc with hc | hc
    · exact hcount.unused c hc hfin
    · obtain rfl := List.mem_singleton.mp hc
      by_contra hne
      exact absurd (hids next' (by simpa using hne)) (UInt64.lt_irrefl _)

/-- Finishing a reservation keeps its id and asks nothing more of it. -/
theorem Fresh.of_finish {n : Nat} {c c' : NamespaceCreation} (h : Fresh db reservations)
    (hc : reservations[n]? = some c) (hid : c'.id = c.id)
    (hfin : c'.finished = false → c.finished = false) : Fresh db (reservations.set n c') := by
  have hmem : c ∈ reservations := List.mem_of_getElem? hc
  have hids : (reservations.set n c').map (·.id) = reservations.map (·.id) := by
    obtain ⟨hlen, rfl⟩ := List.getElem?_eq_some_iff.mp hc
    rw [List.map_set, hid, ← List.getElem_map (fun c : NamespaceCreation => c.id),
      List.set_getElem_self]
    rwa [List.length_map]
  obtain ⟨next, hnext, hroot, hused, hress⟩ := h.counter
  refine ⟨⟨next, hnext, hroot, hused, fun d hd => ?_⟩, hids ▸ h.distinct, fun d hd hdfin => ?_⟩
  · rcases List.mem_or_eq_of_mem_set hd with hd | rfl
    · exact hress d hd
    · exact hid ▸ hress c hmem
  · rcases List.mem_or_eq_of_mem_set hd with hd | rfl
    · exact h.unused d hd hdfin
    · exact hid ▸ h.unused c hmem (hfin hdfin)

/-- Committing a reservation uses its id up and leaves the others unused. -/
theorem Fresh.of_create {n : Nat} {c : NamespaceCreation} {path : Bytes} {attr : InodeAttr}
    {batch : WriteBatch} (h : Fresh db reservations) (hc : reservations[n]? = some c)
    (hattr : attr.inodeId = c.id) (he : CreateEffect db path attr batch) :
    Fresh (db.write batch) (reservations.set n { c with finished := true }) := by
  obtain ⟨parent, name, payload, -, -, -, -, -, rfl⟩ := he
  have hlookup (x : UInt64) : (db.write (createBatch parent name attr.inodeId payload)).lookup
      (.inode x) = if x = c.id then some payload else db.lookup (.inode x) := by
    simp [createBatch, hattr]
  obtain ⟨next, hnext, hroot, hused, hress⟩ := h.counter
  have hset : Fresh db (reservations.set n { c with finished := true }) :=
    h.of_finish hc rfl (by simp)
  obtain ⟨next', hnext', -, -, hress'⟩ := hset.counter
  obtain rfl : next' = next := Except.ok.inj (hnext'.symm.trans hnext)
  have hread : (db.write (createBatch parent name attr.inodeId payload)).read .nextInode =
      db.read .nextInode := by
    rw [MetaMap.read, MetaMap.read, MetaMap.lookup_write_of_notMem (by simp [createBatch, BatchEntry.key])]
  refine ⟨⟨next', hread ▸ hnext, hroot, fun x hx => ?_, hress'⟩, hset.distinct, fun d hd hfin => ?_⟩
  · rw [hlookup] at hx
    split at hx
    · next hxc => exact hxc ▸ hress c (List.mem_of_getElem? hc)
    · exact hused x hx
  · -- an unfinished reservation is another one, so its id is another
    rw [hlookup]
    obtain ⟨k, hk⟩ := List.mem_iff_getElem?.mp hd
    have hkn : k ≠ n := by
      rintro rfl
      have hlen : k < reservations.length := (List.getElem?_eq_some_iff.mp hc).1
      rw [List.getElem?_set_self hlen] at hk
      cases hk
      simp at hfin
    rw [List.getElem?_set_ne (Ne.symm hkn)] at hk
    have hne : d.id ≠ c.id := by
      intro heq
      have hkm : (reservations.map (·.id))[k]? = some d.id := by rw [List.getElem?_map, hk]; rfl
      have hnm : (reservations.map (·.id))[n]? = some d.id := by
        rw [List.getElem?_map, hc, heq]
        rfl
      exact hkn ((List.getElem?_inj (List.getElem?_eq_some_iff.mp hkm).1 h.distinct).mp
        (hkm.trans hnm.symm))
    rw [if_neg hne]
    exact h.unused d (List.mem_of_getElem? hk) hfin

end Fresh

/-! ## What a step can do -/

/-- `c.Effect s ok db' reservations'`: what the call `c`, answered `ok`, can make
    of the store and of the reservations of `s`. -/
inductive NsCall.Effect (s : NsState) : NsCall → Bool → MetaMap → List NamespaceCreation → Prop
  | failed (c : NsCall) : Effect s c false s.db s.reservations
  | read (id : UInt64) : Effect s (.getInode id) true s.db s.reservations
  | count {type next} : nextInodeId (s.db.read .nextInode) = .ok next →
      Effect s (.allocateInodeId type) true (s.db.insert .nextInode (encodeUInt64 (next + 1)))
        s.reservations
  | reserve {path type next} : nextInodeId (s.db.read .nextInode) = .ok next →
      Effect s (.reserveCreate path type) true
        (s.db.insert .nextInode (encodeUInt64 (next + 1)))
        (s.reservations ++ [{ path, type, id := next }])
  | exhausted {path type next} : nextInodeId (s.db.read .nextInode) = .ok next →
      Effect s (.reserveCreate path type) false
        (s.db.insert .nextInode (encodeUInt64 (next + 1))) s.reservations
  | commit {n attr c batch} : s.reservations[n]? = some c → c.finished = false →
      attr.inodeId = c.id → attr.type = c.type → CreateEffect s.db c.path attr batch →
      Effect s (.commit n attr) true (s.db.write batch)
        (s.reservations.set n { c with finished := true })
  | cancel {n c} : s.reservations[n]? = some c →
      Effect s (.cancel n) true s.db (s.reservations.set n c.cancel)
  | rename {oldPath newPath batch} : RenameEffect s.db oldPath newPath batch →
      Effect s (.rename oldPath newPath) true (s.db.write batch) s.reservations
  | remove {path expectedType batch} : RemoveEffect s.db path batch →
      Effect s (.remove path expectedType) true (s.db.write batch) s.reservations
  | put {id attr payload} : putInodePayload attr (s.db.read (.inode id)) = .ok payload →
      Effect s (.putInode id attr) true (s.db.insert (.inode id) payload) s.reservations

theorem set_self_of_getElem? {n : Nat} {c : NamespaceCreation} {l : List NamespaceCreation}
    (h : l[n]? = some c) : l.set n c = l := by
  obtain ⟨hlen, rfl⟩ := List.getElem?_eq_some_iff.mp h
  exact List.set_getElem_self hlen

theorem NsCall.effect_of_step {c : NsCall} {s s' : NsState} {ok : Bool} (h : c.Step s ok s') :
    c.Effect s ok s'.db s'.reservations := by
  cases c with
  | allocateInodeId type =>
      obtain ⟨r, m, hrun, rfl, rfl⟩ := h
      rcases runs_allocateInodeId hrun with ⟨⟨e, rfl⟩, rfl⟩ | ⟨next, rfl, hnext, rfl⟩
      · exact .failed _
      · exact .count hnext
  | reserveCreate path type =>
      obtain ⟨r, m, hrun, rfl, rfl⟩ := h
      obtain ⟨r₁, s₁, halloc, hrun⟩ := Prog.runs_bind.mp hrun
      rcases runs_allocateInodeId halloc with ⟨⟨e, rfl⟩, rfl⟩ | ⟨next, rfl, hnext, rfl⟩
      · obtain ⟨rfl, rfl⟩ := Prog.runs_ret.mp hrun
        show Effect s _ false s.db (s.reservations ++ [])
        rw [List.append_nil]
        exact .failed _
      · obtain ⟨rfl, rfl⟩ := Prog.runs_ret.mp hrun
        by_cases hzero : next = 0
        · simp only [hzero, if_true]
          show Effect s _ false (s.db.insert .nextInode (encodeUInt64 (0 + 1))) (s.reservations ++ [])
          rw [List.append_nil]
          exact .exhausted (hzero ▸ hnext)
        · simp only [hzero, if_false]
          exact .reserve hnext
  | commit n attr =>
      obtain ⟨c, r, m, hc, hrun, rfl, rfl⟩ := h
      unfold NamespaceCreation.commit at hrun
      split at hrun
      · obtain ⟨rfl, rfl⟩ := Prog.runs_ret.mp hrun
        simp only [set_self_of_getElem? hc]
        exact .failed _
      · next hvalid =>
          simp only [not_or, Bool.not_eq_true, not_not] at hvalid
          obtain ⟨status, s₁, hcreate, hrun⟩ := Prog.runs_bind.mp hrun
          obtain ⟨rfl, rfl⟩ := Prog.runs_ret.mp hrun
          rcases runs_create hcreate with ⟨hok, rfl⟩ | ⟨hok, batch, heffect, rfl⟩
          · simp only [hok, Bool.false_eq_true, if_false, set_self_of_getElem? hc]
            exact .failed _
          · simp only [hok, if_true]
            exact .commit hc hvalid.1 hvalid.2.1 hvalid.2.2 heffect
  | cancel n =>
      obtain ⟨c, hc, rfl, rfl⟩ := h
      exact .cancel hc
  | rename oldPath newPath =>
      obtain ⟨r, m, hrun, rfl, rfl⟩ := h
      rcases runs_rename hrun with ⟨hok, rfl⟩ | ⟨hok, batch, heffect, rfl⟩
      · rw [hok]
        exact .failed _
      · rw [hok]
        exact .rename heffect
  | remove path expectedType =>
      obtain ⟨r, m, hrun, rfl, rfl⟩ := h
      rcases runs_remove hrun with ⟨hok, rfl⟩ | ⟨hok, batch, heffect, rfl⟩
      · rw [hok]
        exact .failed _
      · rw [hok]
        exact .remove heffect
  | getInode id =>
      obtain ⟨r, m, hrun, rfl, rfl⟩ := h
      obtain ⟨rfl, -⟩ := runs_getInode hrun
      cases r with
      | error e => exact .failed _
      | ok attr => exact .read id
  | putInode id attr =>
      obtain ⟨r, m, hrun, rfl, rfl⟩ := h
      rcases runs_putInode hrun with ⟨⟨e, rfl⟩, rfl⟩ | ⟨rfl, payload, hpay, rfl⟩
      · exact .failed _
      · exact .put hpay

/-! ## The common invariant -/

structure NsState.Base (s : NsState) : Prop where
  linked : Linked s.db
  fresh : Fresh s.db s.reservations

/-- The calls the common invariant is about: attributes are written to inodes
    that exist, and an allocation does not wrap the counter. -/
def NsCall.Ordinary (c : NsCall) (s : NsState) : Prop :=
  match c with
  | .allocateInodeId _ | .reserveCreate _ _ => CounterBelowMax s.db
  | .putInode id _ => s.db.lookup (.inode id) ≠ none
  | _ => True

theorem RootState.base {s : NsState} (h : RootState s) : s.Base := by
  obtain ⟨record, hrecord, -⟩ := h.root
  refine ⟨⟨?_, ?_, ?_⟩, ⟨?_, ?_, ?_⟩⟩
  · intro id data hdata
    obtain rfl := h.inodes id (by rw [hdata]; exact Option.some_ne_none data)
    exact ⟨record, hrecord⟩
  · intro parent name v hv
    rw [h.dentries] at hv
    cases hv
  · constructor
    · intro a b c k l hac
      rw [dentryOf, h.dentries] at hac
      cases hac
    · intro a l hroot
      rw [dentryOf, h.dentries] at hroot
      cases hroot
  · refine ⟨kRootInodeId + 1, ?_, by decide, ?_, by simp [h.reservations]⟩
    · rw [MetaMap.read, h.counter]
      rfl
    · intro id hid
      rw [h.inodes id hid]
      decide
  · simp [h.reservations]
  · simp [h.reservations]

/-- A write over an existing inode reads the payload it replaces. -/
theorem read_inode_of_lookup {db : MetaMap} {id : UInt64} (h : db.lookup (.inode id) ≠ none) :
    ∃ data, db.lookup (.inode id) = some data ∧ db.read (.inode id) = .ok data := by
  obtain ⟨data, hdata⟩ := Option.ne_none_iff_exists'.mp h
  exact ⟨data, hdata, MetaMap.read_eq_ok.mpr hdata⟩

theorem NsState.Base.step {s s' : NsState} {c : NsCall} {ok : Bool} (h : s.Base)
    (hstep : c.Step s ok s') (hord : c.Ordinary s) : s'.Base := by
  have heffect := NsCall.effect_of_step hstep
  suffices hgoal : Linked s'.db ∧ Fresh s'.db s'.reservations from ⟨hgoal.1, hgoal.2⟩
  generalize s'.db = db', s'.reservations = reservations' at heffect
  cases heffect with
  | failed => exact ⟨h.linked, h.fresh⟩
  | read => exact ⟨h.linked, h.fresh⟩
  | count hnext => exact ⟨h.linked.of_count, h.fresh.of_count hnext hord⟩
  | reserve hnext => exact ⟨h.linked.of_count, h.fresh.of_reserve hnext hord _ _⟩
  | exhausted hnext => exact ⟨h.linked.of_count, h.fresh.of_count hnext hord⟩
  | @commit n attr c batch hc hfin hid htype he =>
      have hunused : s.db.lookup (.inode attr.inodeId) = none :=
        hid ▸ h.fresh.unused c (List.mem_of_getElem? hc) hfin
      exact ⟨h.linked.of_create he hunused, h.fresh.of_create hc hid he⟩
  | cancel hc => exact ⟨h.linked, h.fresh.of_finish hc rfl (by simp [NamespaceCreation.cancel])⟩
  | rename he =>
      refine ⟨h.linked.of_rename he, ?_⟩
      obtain ⟨_, _, _, _, inode, data, _, _, _, _, _, hdata, _, rfl⟩ := he
      refine h.fresh.of_subset (MetaMap.lookup_write_of_notMem (by simp [renameBatch, BatchEntry.key])) ?_
      intro id hid
      by_cases hx : id = inode
      · rw [hx, hdata]
        exact Option.some_ne_none data
      · simpa [renameBatch, hx] using hid
  | remove he =>
      refine ⟨h.linked.of_remove he, ?_⟩
      obtain ⟨_, _, inode, _, _, _, _, _, rfl⟩ := he
      refine h.fresh.of_subset (MetaMap.lookup_write_of_notMem (by simp [removeBatch, BatchEntry.key])) ?_
      intro id hid
      by_cases hx : id = inode
      · simp [removeBatch, hx] at hid
      · simpa [removeBatch, hx] using hid
  | @put id attr payload hpay =>
      obtain ⟨data, hdata, hread⟩ := read_inode_of_lookup hord
      rw [hread] at hpay
      refine ⟨h.linked.of_put hpay, h.fresh.of_subset (AList.lookup_insert_ne (by simp)) ?_⟩
      intro x hx
      by_cases hxid : x = id
      · rw [hxid, hdata]
        exact Option.some_ne_none data
      · simpa [hxid] using hx

/-! ## Runs -/

/-- `NsRun allowed s₀ s`: calls that are allowed when they are made lead from
    `s₀` to `s`. -/
inductive NsRun (allowed : NsCall → NsState → Prop) (s₀ : NsState) : NsState → Prop
  | start : NsRun allowed s₀ s₀
  | step {s s' : NsState} {c : NsCall} {ok : Bool} :
      NsRun allowed s₀ s → allowed c s → c.Step s ok s' → NsRun allowed s₀ s'

/-- The outcome of a call when no store call fails. -/
def NsCall.exec (env : Oracle) : NsCall → NsState → Option NsState
  | .allocateInodeId type, s =>
      ((Zb.Mds.allocateInodeId type).run (MdsOp.exec env ()) s.mds).map fun p =>
        { s with mds := p.2 }
  | .reserveCreate path type, s =>
      ((Zb.Mds.reserveCreate path type).run (MdsOp.exec env ()) s.mds).map fun p =>
        { s with mds := p.2, reservations := s.reservations ++ p.1.toOption.toList }
  | .commit n attr, s =>
      match s.reservations[n]? with
      | none => none
      | some c => ((c.commit attr).run (MdsOp.exec env ()) s.mds).map fun p =>
          { s with mds := p.2, reservations := s.reservations.set n p.1.2 }
  | .cancel n, s =>
      match s.reservations[n]? with
      | none => none
      | some c => some { s with reservations := s.reservations.set n c.cancel }
  | .rename oldPath newPath, s =>
      ((Zb.Mds.rename oldPath newPath).run (MdsOp.exec env ()) s.mds).map fun p =>
        { s with mds := p.2 }
  | .remove path expectedType, s =>
      ((Zb.Mds.remove path expectedType).run (MdsOp.exec env ()) s.mds).map fun p =>
        { s with mds := p.2 }
  | .getInode id, s =>
      ((Zb.Mds.getInode id).run (MdsOp.exec env ()) s.mds).map fun p =>
        { s with mds := p.2, held := s.held ++ (p.1.toOption.map (id, ·)).toList }
  | .putInode id attr, s =>
      ((Zb.Mds.putInode id attr).run (MdsOp.exec env ()) s.mds).map fun p => { s with mds := p.2 }

theorem NsCall.step_of_exec {env : Oracle} {c : NsCall} {s s' : NsState}
    (h : c.exec env s = some s') : ∃ ok, c.Step s ok s' := by
  cases c <;> simp only [exec] at h
  case commit n attr =>
    split at h
    · cases h
    · next c hc =>
        obtain ⟨⟨r, m⟩, hrun, rfl⟩ := Option.map_eq_some_iff.mp h
        exact ⟨_, c, r, m, hc, runs_of_exec hrun, rfl, rfl⟩
  case cancel n =>
    split at h
    · cases h
    · next c hc =>
        cases h
        exact ⟨_, c, hc, rfl, rfl⟩
  all_goals
    obtain ⟨⟨r, m⟩, hrun, rfl⟩ := Option.map_eq_some_iff.mp h
    exact ⟨_, r, m, runs_of_exec hrun, rfl, rfl⟩

/-- Runs the calls of a script, each of them allowed. -/
def runScript (env : Oracle) (allowed : NsCall → NsState → Bool) :
    List NsCall → NsState → Option NsState
  | [], s => some s
  | c :: cs, s =>
      if allowed c s then (c.exec env s).bind (runScript env allowed cs) else none

theorem run_of_runScript {env : Oracle} {allowed : NsCall → NsState → Prop}
    {check : NsCall → NsState → Bool} (hcheck : ∀ c s, check c s = true → allowed c s)
    {cs : List NsCall} {s₀ s s' : NsState} (hrun : NsRun allowed s₀ s)
    (h : runScript env check cs s = some s') : NsRun allowed s₀ s' := by
  induction cs generalizing s with
  | nil =>
      cases h
      exact hrun
  | cons c cs ih =>
      rw [runScript] at h
      split at h
      · next hallowed =>
          obtain ⟨s₁, hexec, hrest⟩ := Option.bind_eq_some_iff.mp h
          obtain ⟨ok, hstep⟩ := NsCall.step_of_exec hexec
          exact ih (.step hrun (hcheck c s hallowed) hstep) hrest
      · cases h

/-- The record `EnsureRoot` stores. -/
def rootRecord : UnifiedInodeRecord where
  inodeType := 1
  inodeId := kRootInodeId
  sizeBytes := 4096
  mode := 0o755
  nlink := 2
  blksize := 4096
  blocks512 := 8
  replica := 1
  versionNo := 1
  fileName := ofAscii "/"

/-- A store with the root directory only. -/
def rootStore : NsState where
  mds :=
    { db := AList.insert (.inode kRootInodeId) (layoutRecord (packedForm rootRecord)) ∅
      owner := fun _ => none
      issued := [] }

theorem rootStore_rootState : RootState rootStore := by
  have hencode : encodeUnifiedInodeRecord rootRecord = .ok (layoutRecord (packedForm rootRecord)) :=
    encode_eq_ok_iff.mpr ⟨⟨by decide, by decide, by decide, by decide, by decide, by decide,
      by decide⟩, rfl⟩
  refine ⟨⟨storedForm rootRecord, ?_, rfl⟩, ?_, ?_, ?_, rfl, rfl⟩
  · exact recordOf_eq_some.mpr ⟨_, AList.lookup_insert ∅, decode_encode hencode⟩
  · intro id hid
    by_contra hne
    exact hid ((MetaMap.lookup_inode_insert_inode ∅ _ id _).trans (if_neg hne))
  · intro parent name
    exact MetaMap.lookup_dentry_insert_other parent name (by simp)
  · exact AList.lookup_insert_ne (by simp)

end Zb.Mds
