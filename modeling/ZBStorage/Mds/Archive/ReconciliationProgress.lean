-- SUMMARY: Passes with nothing else going on: what one does to every record, and when an expired one is reset.
import ZBStorage.Mds.Archive.LeaseReconciliation

/-!
# Passes alone

A pass visits the first records in the order of their keys, and always starts again at
the first one. Records of archived files are dropped, so later passes come further; the
others stay where they are.
-/

namespace Zb.Mds

open Zb.Rpc Bytes Prog Reconciler ReconcileOp

variable {ι : Type}

/-- No call fails. -/
def ReconcileOp.Works : (o : ReconcileOp) → TimedState ι → o.Res → TimedState ι → Prop
  | .now, s, r, s' => s.clock ≤ r ∧ r.toNat < 2 ^ 63 ∧ s' = { s with clock := r }
  | .newIterator, s, r, s' => r = s.db.leases ∧ s' = s
  | .get inodeId, s, r, s' => r = s.db.read (.inode inodeId) ∧ s' = s
  | .put inodeId payload, s, r, s' =>
      r = .ok () ∧ s' = { s with db := s.db.insert (.inode inodeId) payload }
  | .writeBatch batch, s, r, s' => r = .ok () ∧ s' = { s with db := s.db.write batch }
  | .resolveDiskId _ _, s, _, s' | .resolveNodeAddress _, s, _, s'
  | .updateFileArchiveState _ _, s, _, s' => s' = s

theorem ReconcileOp.Works.sem {o : ReconcileOp} {s s' : TimedState ι} {r : o.Res}
    (h : o.Works s r s') : o.Sem s r s' := by
  cases o with
  | now => exact h
  | newIterator => exact ⟨h.1 ▸ List.prefix_rfl, h.2⟩
  | get inodeId => exact ⟨.inl h.1, h.2⟩
  | put inodeId payload => exact .inl h
  | writeBatch batch => exact .inl h
  | resolveDiskId nodeId diskId => exact h
  | resolveNodeAddress nodeId => exact h
  | updateFileArchiveState nodeAddress request => exact h

namespace Reconciler

/-- A whole pass. -/
def Pass (maxRecords : UInt32) (s s' : TimedState ι) : Prop :=
  ∃ a, Runs ReconcileOp.Works (reconcileArchiveStates maxRecords) s a s'

/-- The stored inode can be read. -/
def Readable (db : MetaMap) (inodeId : UInt64) : Prop := ∃ attr, Stored db inodeId attr

/-- Records are stored under the inodes that they name. -/
def RecordsKeyed (db : MetaMap) : Prop :=
  ∀ inodeId record, db.lookup (.fileArchiveState inodeId) = some record →
    record.inodeId = inodeId ∧ inodeId ≠ 0

/-- The record is free, or gone. -/
def Released (db : MetaMap) (inodeId : UInt64) : Prop :=
  ∀ record, db.lookup (.fileArchiveState inodeId) = some record → record.state = .pending

/-- However the passes go, the record is released after so many of them. -/
inductive ReleasedWithin (maxRecords : UInt32) (inodeId : UInt64) : Nat → TimedState ι → Prop
  | now {passes : Nat} {s : TimedState ι} : Released s.db inodeId →
      ReleasedWithin maxRecords inodeId passes s
  | later {passes : Nat} {s : TimedState ι} :
      (∀ s', Pass maxRecords s s' → ReleasedWithin maxRecords inodeId passes s') →
      ReleasedWithin maxRecords inodeId (passes + 1) s

/-- The files before a file in the order of the keys whose records no pass drops. -/
def staying (db : MetaMap) (inodeId : UInt64) : List UInt64 :=
  (db.leases.map Prod.fst).filter fun id =>
    (MetaKey.fileArchiveState id).render < (MetaKey.fileArchiveState inodeId).render ∧
      located db id = false

/-! ## The order of the records -/

/-- The file of a lease key. -/
def leaseFile : MetaKey → Option UInt64
  | .fileArchiveState inodeId => some inodeId
  | _ => none

theorem leases_nodup (db : MetaMap) : (db.leases.map Prod.fst).Nodup := by
  have hfiles : ∀ entries : List (Σ k : MetaKey, k.Value),
      (entries.filterMap leaseEntry).map Prod.fst = (entries.map Sigma.fst).filterMap leaseFile := by
    intro entries
    induction entries with
    | nil => rfl
    | cons e entries ih =>
        obtain ⟨k, v⟩ := e
        cases k with
        | fileArchiveState id => exact congrArg (id :: ·) ih
        | _ => exact ih
  rw [MetaMap.leases, List.Perm.nodup_iff ((List.perm_insertionSort _ _).map _), hfiles]
  refine List.Nodup.filterMap ?_ db.nodupKeys
  intro k k' id hk hk'
  cases k with
  | fileArchiveState a =>
      cases k' with
      | fileArchiveState b =>
          obtain rfl : a = id := Option.some.inj hk
          obtain rfl : b = a := Option.some.inj hk'
          rfl
      | _ => cases hk'
  | _ => cases hk

theorem leases_sorted (db : MetaMap) : db.leases.Pairwise fun a b =>
    (MetaKey.fileArchiveState a.1).render ≤ (MetaKey.fileArchiveState b.1).render := by
  have : Std.Total fun a b : UInt64 × ArchiveLeaseRecord =>
      (MetaKey.fileArchiveState a.1).render ≤ (MetaKey.fileArchiveState b.1).render :=
    ⟨fun a b => List.le_total _ _⟩
  have : IsTrans (UInt64 × ArchiveLeaseRecord) fun a b =>
      (MetaKey.fileArchiveState a.1).render ≤ (MetaKey.fileArchiveState b.1).render :=
    ⟨fun a b c => List.le_trans⟩
  exact List.pairwise_insertionSort _ _

/-! ## Reading -/

variable {s s' : TimedState ι} {inodeId id : UInt64}

theorem readsStore_works (inodeId : UInt64) :
    ReadsStore NoGuard Works (fun s : TimedState ι => s.db) False inodeId where
  get _ _ := ⟨trivial, fun _ _ hworks => ⟨hworks.2, fun _ => .inl hworks.1⟩⟩
  resolveDiskId _ _ _ := ⟨trivial, fun _ _ hworks => hworks⟩
  resolveNodeAddress _ _ := ⟨trivial, fun _ _ hworks => hworks⟩

theorem readable_of_located {db : MetaMap} (h : located db inodeId = true) : Readable db inodeId := by
  obtain ⟨data, attr, hdata, hattr, -⟩ := located_iff.mp h
  exact ⟨attr, data, hdata, hattr⟩

/-! ## The scan -/

/-- The pass has to write the record. -/
def Due (db : MetaMap) (now : UInt64) (entry : UInt64 × ArchiveLeaseRecord) : Prop :=
  located db entry.1 = true ∨ (Readable db entry.1 ∧ isExpired now entry.2 = true)

/-- What the scan has collected from these records. -/
structure Scanned (db : MetaMap) (now : UInt64) (entries : List (UInt64 × ArchiveLeaseRecord))
    (collected : Collected) : Prop where
  batch : ∀ e ∈ collected.batch, ∃ visited ∈ entries,
    e.key = .fileArchiveState visited.1 ∧
    (located db visited.1 = true → e = .delete (.fileArchiveState visited.1)) ∧
    ∀ record', e = .put (.fileArchiveState visited.1) record' →
      record'.state = .pending ∧ record'.inodeId = visited.1
  updates : ∀ update ∈ collected.sourceUpdates, ∃ visited ∈ entries, visited.1 = update.inodeId
  written : ∀ visited ∈ entries, Due db now visited →
    ∃ e ∈ collected.batch, e.key = .fileArchiveState visited.1

variable {db : MetaMap} {now key : UInt64} {entries : List (UInt64 × ArchiveLeaseRecord)}
  {collected : Collected} {record : ArchiveLeaseRecord}

theorem Scanned.passed (h : Scanned db now entries collected) (hnot : ¬Due db now (key, record)) :
    Scanned db now (entries ++ [(key, record)]) collected where
  batch e hmem := by
    obtain ⟨visited, hvisited, hrest⟩ := h.batch e hmem
    exact ⟨visited, List.mem_append_left _ hvisited, hrest⟩
  updates update hmem := by
    obtain ⟨visited, hvisited, hrest⟩ := h.updates update hmem
    exact ⟨visited, List.mem_append_left _ hvisited, hrest⟩
  written visited hmem hdue := by
    rcases List.mem_append.mp hmem with hmem | hmem
    · exact h.written visited hmem hdue
    · exact absurd (List.mem_singleton.mp hmem ▸ hdue) hnot

theorem Scanned.decided {entry : BatchEntry} {archiveState : FileArchiveState} {version : UInt64}
    {nodeAddress : Bytes} (h : Scanned db now entries collected) (hkeyed : record.inodeId = key)
    (hdecided : decideRecord now record (located db key) = some (entry, archiveState, version)) :
    Scanned db now (entries ++ [(key, record)]) {
      batch := collected.batch ++ [entry]
      sourceUpdates := collected.sourceUpdates ++
        [{ inodeId := record.inodeId, nodeAddress, diskId := record.ownerDiskId, archiveState,
           version }] } := by
  have hentry : entry.key = .fileArchiveState key ∧
      (located db key = true → entry = .delete (.fileArchiveState key)) ∧
      ∀ record', entry = .put (.fileArchiveState key) record' →
        record'.state = .pending ∧ record'.inodeId = key := by
    subst hkeyed
    rw [decideRecord] at hdecided
    split at hdecided
    · cases hdecided
      exact ⟨rfl, fun _ => rfl, fun _ hput => by cases hput⟩
    · rename_i harchived
      split at hdecided
      · cases hdecided
        refine ⟨rfl, fun hlocated => absurd hlocated harchived, fun record' hput => ?_⟩
        cases hput
        exact ⟨rfl, rfl⟩
      · cases hdecided
  refine ⟨fun e hmem => ?_, fun update hmem => ?_, fun visited hmem hdue => ?_⟩
  · rcases List.mem_append.mp hmem with hmem | hmem
    · obtain ⟨visited, hvisited, hrest⟩ := h.batch e hmem
      exact ⟨visited, List.mem_append_left _ hvisited, hrest⟩
    · exact ⟨(key, record), List.mem_append_right _ (List.mem_singleton.mpr rfl),
        List.mem_singleton.mp hmem ▸ hentry⟩
  · rcases List.mem_append.mp hmem with hmem | hmem
    · obtain ⟨visited, hvisited, hrest⟩ := h.updates update hmem
      exact ⟨visited, List.mem_append_left _ hvisited, hrest⟩
    · refine ⟨(key, record), List.mem_append_right _ (List.mem_singleton.mpr rfl), ?_⟩
      rw [List.mem_singleton.mp hmem]
      exact hkeyed.symm
  · rcases List.mem_append.mp hmem with hmem | hmem
    · obtain ⟨e, hwritten, hkey⟩ := h.written visited hmem hdue
      exact ⟨e, List.mem_append_left _ hwritten, hkey⟩
    · refine ⟨entry, List.mem_append_right _ (List.mem_singleton.mpr rfl), ?_⟩
      rw [List.mem_singleton.mp hmem]
      exact hentry.1

theorem wp_visit_works (h : Scanned s.db now entries collected) (hkeyed : record.inodeId = key)
    (hzero : key ≠ 0) :
    Wp NoGuard Works (visit now collected key record)
      (fun collected s' => s' = s ∧ Scanned s.db now (entries ++ [(key, record)]) collected) s := by
  have hunreadable : ¬Readable s.db key → Scanned s.db now (entries ++ [(key, record)]) collected :=
    fun hnot => h.passed fun hdue => hdue.elim (fun h => hnot (readable_of_located h))
      fun h => hnot h.1
  rw [visit, if_neg (hkeyed ▸ hzero)]
  refine (wp_loadInodeAttr (readsStore_works key)).bind ?_
  rintro r s' ⟨rfl, -, hload⟩
  cases r with
  | error e =>
      refine ⟨rfl, hunreadable ?_⟩
      rintro ⟨attr, hstored⟩
      cases hload (fun h => h) hkeyed attr hstored
  | ok attr =>
      refine (wp_hasUsableOpticalLocation (readsStore_works key)).bind ?_
      rintro r s'' ⟨rfl, hlocated, hreadable⟩
      cases r with
      | error e =>
          refine ⟨rfl, hunreadable ?_⟩
          rintro ⟨attr, hstored⟩
          obtain ⟨archived, herror⟩ :=
            hreadable (fun h => h) hkeyed (hkeyed ▸ hzero) attr hstored
          cases herror
      | ok archived =>
          obtain rfl : located s''.db key = archived := hlocated archived rfl hkeyed
          dsimp only
          cases hdecided : decideRecord now record (located s''.db key) with
          | none =>
              refine ⟨rfl, h.passed fun hdue => ?_⟩
              rw [decideRecord] at hdecided
              split at hdecided
              · cases hdecided
              · rename_i harchived
                split at hdecided
                · cases hdecided
                · rename_i hkept
                  exact hdue.elim harchived fun h => hkept (.inl h.2)
          | some decision =>
              obtain ⟨entry, archiveState, version⟩ := decision
              refine wp_op.mpr ⟨trivial, ?_⟩
              rintro nodeAddress s' rfl
              exact ⟨rfl, h.decided hkeyed hdecided⟩

theorem wp_visitAll_works {rest : List (UInt64 × ArchiveLeaseRecord)}
    (h : Scanned s.db now entries collected)
    (hkeyed : ∀ e ∈ rest, e.2.inodeId = e.1 ∧ e.1 ≠ 0) :
    Wp NoGuard Works (visitAll now collected rest)
      (fun collected s' => s' = s ∧ Scanned s.db now (entries ++ rest) collected) s := by
  induction rest generalizing entries collected with
  | nil => exact ⟨rfl, (List.append_nil entries).symm ▸ h⟩
  | cons first rest ih =>
      have hfirst := hkeyed first List.mem_cons_self
      refine (wp_visit_works h hfirst.1 hfirst.2).bind ?_
      rintro collected s' ⟨rfl, h⟩
      have hnext := ih h fun e hmem => hkeyed e (List.mem_cons_of_mem _ hmem)
      rwa [List.append_assoc] at hnext

/-! ## The states pushed -/

/-- Only the inodes of some files are written. -/
structure Writes (ids : List UInt64) (s s' : TimedState ι) : Prop where
  lease : ∀ id, s'.db.lookup (.fileArchiveState id) = s.db.lookup (.fileArchiveState id)
  inode : ∀ id ∉ ids, s'.db.lookup (.inode id) = s.db.lookup (.inode id)
  clock : s'.clock = s.clock

theorem Writes.refl (ids : List UInt64) (s : TimedState ι) : Writes ids s s :=
  ⟨fun _ => rfl, fun _ _ => rfl, rfl⟩

theorem Writes.trans {s'' : TimedState ι} {ids ids' : List UInt64} (h : Writes ids s s')
    (h' : Writes ids' s' s'') : Writes (ids ++ ids') s s'' where
  lease id := (h'.lease id).trans (h.lease id)
  inode id hnot := by
    obtain ⟨hnot, hnot'⟩ := not_or.mp (List.mem_append.not.mp hnot)
    exact (h'.inode id hnot').trans (h.inode id hnot)
  clock := h'.clock.trans h.clock

theorem wp_updateInodeArchiveState_works {archiveState : InodeArchiveState} :
    Wp NoGuard Works (updateInodeArchiveState inodeId archiveState)
      (fun _ s' => Writes [inodeId] s s') s := by
  rw [updateInodeArchiveState]
  split
  · exact .refl _ s
  refine (wp_loadInodeAttr (readsStore_works inodeId)).bind ?_
  rintro r s' ⟨rfl, -⟩
  cases r with
  | error e => exact .refl _ s'
  | ok inode =>
      dsimp only
      split
      · exact .refl _ s'
      split
      · exact .refl _ s'
      refine wp_op.mpr ⟨trivial, ?_⟩
      rintro current s'' ⟨-, rfl⟩
      split
      · exact .refl _ s''
      · refine ⟨trivial, ?_⟩
        rintro r s' ⟨-, rfl⟩
        refine ⟨fun id => AList.lookup_insert_ne (by rintro ⟨⟩), fun id hnot => ?_, rfl⟩
        exact AList.lookup_insert_ne fun heq =>
          hnot (List.mem_singleton.mpr (MetaKey.inode.inj heq))

theorem wp_updateSourceFileArchiveState_works {update : FileStateUpdate} :
    Wp NoGuard Works (updateSourceFileArchiveState update)
      (fun _ s' => Writes [update.inodeId] s s') s := by
  rw [updateSourceFileArchiveState]
  split
  · exact .refl _ s
  refine wp_updateInodeArchiveState_works.bind ?_
  intro r s' hwrites
  cases r with
  | error e => exact hwrites
  | ok done =>
      dsimp only
      split
      · exact hwrites
      · refine ⟨trivial, ?_⟩
        rintro r s'' rfl
        exact hwrites

theorem wp_pushAll_works {updates : List FileStateUpdate} {error : String} :
    Wp NoGuard Works (pushAll error updates)
      (fun _ s' => Writes (updates.map FileStateUpdate.inodeId) s s') s := by
  induction updates generalizing s error with
  | nil => exact .refl _ s
  | cons update updates ih =>
      refine wp_updateSourceFileArchiveState_works.bind ?_
      intro r s' hfirst
      cases r with
      | error e => exact ih.mono fun _ _ hlater => hfirst.trans hlater
      | ok done => exact ih.mono fun _ _ hlater => hfirst.trans hlater

/-! ## A whole pass -/

/-- What a pass does to the records and the inodes. -/
structure Advances (maxRecords : UInt32) (s s' : TimedState ι) : Prop where
  clock : s.clock ≤ s'.clock
  /-- no record appears -/
  keyed : RecordsKeyed s'.db
  subset : ∀ id, s'.db.lookup (.fileArchiveState id) ≠ none →
    s.db.lookup (.fileArchiveState id) ≠ none
  dropped : ∀ visited ∈ s.db.leases.take maxRecords.toNat, located s.db visited.1 = true →
    s'.db.lookup (.fileArchiveState visited.1) = none
  released : ∀ visited ∈ s.db.leases.take maxRecords.toNat, Readable s.db visited.1 →
    isExpired s.clock visited.2 = true → Released s'.db visited.1
  others : ∀ id, (∀ visited ∈ s.db.leases.take maxRecords.toNat, visited.1 ≠ id) →
    s'.db.lookup (.fileArchiveState id) = s.db.lookup (.fileArchiveState id) ∧
    s'.db.lookup (.inode id) = s.db.lookup (.inode id)

theorem isExpired_mono {now' : UInt64} (hle : now ≤ now') (h : isExpired now record = true) :
    isExpired now' record = true := by
  obtain ⟨harchiving, hpos, hexpired⟩ := of_decide_eq_true h
  exact decide_eq_true ⟨harchiving, hpos, UInt64.le_trans hexpired hle⟩

/-- What the batch of a scan does to a record. -/
theorem Scanned.write (h : Scanned db now entries collected) (id : UInt64) :
    (db.write collected.batch).lookup (.fileArchiveState id) =
        db.lookup (.fileArchiveState id) ∧ (∀ visited ∈ entries, visited.1 = id →
          ¬Due db now visited) ∨
      ((∃ visited ∈ entries, visited.1 = id) ∧
        (located db id = true → (db.write collected.batch).lookup (.fileArchiveState id) = none) ∧
        ∀ record', (db.write collected.batch).lookup (.fileArchiveState id) = some record' →
          record'.state = .pending ∧ record'.inodeId = id) := by
  by_cases hmem : ∃ e ∈ collected.batch, e.key = .fileArchiveState id
  · right
    have hset := sets_of_mem db hmem
    have hentry : ∀ e ∈ collected.batch, e.key = .fileArchiveState id →
        (∃ visited ∈ entries, visited.1 = id) ∧
        (located db id = true → e = .delete (.fileArchiveState id)) ∧
        ∀ record', e = .put (.fileArchiveState id) record' →
          record'.state = .pending ∧ record'.inodeId = id := by
      intro e he hkey
      obtain ⟨visited, hvisited, hsame, hrest⟩ := h.batch e he
      obtain rfl : visited.1 = id := MetaKey.fileArchiveState.inj (hsame.symm.trans hkey)
      exact ⟨⟨visited, hvisited, rfl⟩, hrest⟩
    obtain ⟨e, he, hkey⟩ := hmem
    refine ⟨(hentry e he hkey).1, fun hlocated => ?_, fun record' hstored => ?_⟩
    · cases hstored : (db.write collected.batch).lookup (.fileArchiveState id) with
      | none => rfl
      | some record' =>
          rw [hstored] at hset
          exact nomatch (hentry _ hset rfl).2.1 hlocated
    · rw [hstored] at hset
      exact (hentry _ hset rfl).2.2 record' rfl
  · refine .inl ⟨MetaMap.lookup_write_of_notMem fun e he hkey => hmem ⟨e, he, hkey⟩, ?_⟩
    rintro visited hvisited rfl hdue
    exact hmem (h.written visited hvisited hdue)

theorem Scanned.inode (h : Scanned db now entries collected) (id : UInt64) :
    (db.write collected.batch).lookup (.inode id) = db.lookup (.inode id) := by
  refine MetaMap.lookup_write_of_notMem fun e he hkey => ?_
  obtain ⟨visited, -, hsame, -⟩ := h.batch e he
  exact nomatch hkey.symm.trans hsame

/-- The scan, its batch and what is pushed. -/
theorem Scanned.advances {maxRecords : UInt32} {t : TimedState ι}
    (hkeyed : RecordsKeyed s.db) (hclock : s.clock ≤ now)
    (h : Scanned s.db now (s.db.leases.take maxRecords.toNat) collected)
    (hwrites : Writes (collected.sourceUpdates.map FileStateUpdate.inodeId)
      { s with db := s.db.write collected.batch, clock := now } t) :
    Advances maxRecords s t := by
  have hlease : ∀ id, t.db.lookup (.fileArchiveState id) =
      (s.db.write collected.batch).lookup (.fileArchiveState id) := hwrites.lease
  have hstored : ∀ visited ∈ s.db.leases.take maxRecords.toNat,
      s.db.lookup (.fileArchiveState visited.1) = some visited.2 :=
    fun visited hmem => MetaMap.mem_leases.mp (List.mem_of_mem_take hmem)
  refine ⟨hwrites.clock ▸ hclock, fun id record' hrecord => ?_, fun id hsome hnone => ?_,
    fun visited hmem hlocated => ?_, fun visited hmem hreadable hexpired record' hrecord => ?_,
    fun id hnot => ⟨?_, ?_⟩⟩
  · rw [hlease] at hrecord
    rcases h.write id with ⟨hsame, -⟩ | ⟨⟨visited, hmem, rfl⟩, -, hreset⟩
    · exact hkeyed id record' (hsame ▸ hrecord)
    · exact ⟨(hreset record' hrecord).2, (hkeyed _ _ (hstored visited hmem)).2⟩
  · rw [hlease] at hsome
    rcases h.write id with ⟨hsame, -⟩ | ⟨⟨visited, hmem, rfl⟩, -, -⟩
    · exact hsome (hsame.trans hnone)
    · rw [hstored visited hmem] at hnone
      exact nomatch hnone
  · rw [hlease]
    rcases h.write visited.1 with ⟨-, hnot⟩ | ⟨-, hdropped, -⟩
    · exact absurd (.inl hlocated) (hnot visited hmem rfl)
    · exact hdropped hlocated
  · rw [hlease] at hrecord
    rcases h.write visited.1 with ⟨-, hnot⟩ | ⟨-, -, hreset⟩
    · exact absurd (.inr ⟨hreadable, isExpired_mono hclock hexpired⟩) (hnot visited hmem rfl)
    · exact (hreset record' hrecord).1
  · rw [hlease]
    rcases h.write id with ⟨hsame, -⟩ | ⟨⟨visited, hmem, hid⟩, -, -⟩
    · exact hsame
    · exact absurd hid (hnot visited hmem)
  · refine (hwrites.inode id fun hmem => ?_).trans (h.inode id)
    obtain ⟨update, hupdate, rfl⟩ := List.mem_map.mp hmem
    obtain ⟨visited, hvisited, hid⟩ := h.updates update hupdate
    exact hnot visited hvisited hid

theorem wp_reconcileArchiveStates_works {maxRecords : UInt32} (hkeyed : RecordsKeyed s.db) :
    Wp NoGuard Works (reconcileArchiveStates maxRecords) (fun _ s' => Advances maxRecords s s') s := by
  rw [reconcileArchiveStates]
  split
  · rename_i hzero
    have hnil : s.db.leases.take maxRecords.toNat = [] := by rw [hzero]; rfl
    have hscanned : Scanned s.db s.clock (s.db.leases.take maxRecords.toNat) {} := by
      rw [hnil]
      exact ⟨by simp, by simp, by simp⟩
    exact hscanned.advances hkeyed (UInt64.le_refl _) (.refl _ s)
  refine wp_op.mpr ⟨trivial, ?_⟩
  rintro now s' ⟨hclock, -, rfl⟩
  refine wp_op.mpr ⟨trivial, ?_⟩
  rintro entries s' ⟨rfl, rfl⟩
  have hentries : ∀ e ∈ s.db.leases.take maxRecords.toNat, e.2.inodeId = e.1 ∧ e.1 ≠ 0 :=
    fun e hmem => hkeyed e.1 e.2 (MetaMap.mem_leases.mp (List.mem_of_mem_take hmem))
  have hempty : Scanned s.db now [] {} := ⟨by simp, by simp, by simp⟩
  refine (wp_visitAll_works (s := { s with clock := now }) hempty hentries).bind ?_
  rintro collected s' ⟨rfl, hscanned⟩
  have hpush : ∀ s', s' = { s with db := s.db.write collected.batch, clock := now } →
      Wp NoGuard Works (do return (true, ← pushAll "" collected.sourceUpdates) :
        Reconciler (Bool × String)) (fun _ t => Advances maxRecords s t) s' := by
    rintro s' rfl
    refine wp_pushAll_works.bind fun error t hwrites => ?_
    exact hscanned.advances hkeyed hclock hwrites
  by_cases hbatch : collected.batch = []
  · rw [if_pos hbatch]
    refine hpush _ ?_
    rw [hbatch]
    rfl
  · rw [if_neg hbatch]
    refine wp_op.mpr ⟨trivial, ?_⟩
    rintro r s' ⟨rfl, rfl⟩
    exact hpush _ rfl

theorem Pass.advances {maxRecords : UInt32} (h : Pass maxRecords s s') (hkeyed : RecordsKeyed s.db) :
    Advances maxRecords s s' := by
  obtain ⟨a, hrun⟩ := h
  exact (wp_reconcileArchiveStates_works hkeyed).runs hrun

/-! ## Many passes -/

theorem mem_leaseFiles {id : UInt64} :
    id ∈ db.leases.map Prod.fst ↔ db.lookup (.fileArchiveState id) ≠ none := by
  rw [List.mem_map, Option.ne_none_iff_exists']
  constructor
  · rintro ⟨⟨id, record⟩, hmem, rfl⟩
    exact ⟨record, MetaMap.mem_leases.mp hmem⟩
  · rintro ⟨record, hstored⟩
    exact ⟨(id, record), MetaMap.mem_leases.mpr hstored, rfl⟩

/-- No more records stay in front of a file than before. -/
theorem Advances.staying_le {maxRecords : UInt32} (h : Advances maxRecords s s') (id : UInt64) :
    (staying s'.db id).length ≤ (staying s.db id).length := by
  refine (List.subperm_of_subset ((leases_nodup s'.db).filter _) fun other hmem => ?_).length_le
  rw [List.mem_filter, mem_leaseFiles, decide_eq_true_eq] at hmem
  rw [staying, List.mem_filter, mem_leaseFiles, decide_eq_true_eq]
  obtain ⟨hrecord, hbefore, hnone⟩ := hmem
  refine ⟨h.subset other hrecord, hbefore, ?_⟩
  by_cases hvisited : ∀ visited ∈ s.db.leases.take maxRecords.toNat, visited.1 ≠ other
  · rw [located, (h.others other hvisited).2] at hnone
    exact hnone
  · push Not at hvisited
    obtain ⟨visited, hmem, rfl⟩ := hvisited
    exact Bool.eq_false_iff.mpr fun hlocated => hrecord (h.dropped visited hmem hlocated)

/-- A file behind the ones visited. Enough of those in front of it are dropped. -/
theorem Advances.fewer {maxRecords : UInt32} (h : Advances maxRecords s s')
    (hmem : (id, record) ∈ s.db.leases) (hnot : (id, record) ∉ s.db.leases.take maxRecords.toNat)
    (hstaying : (staying s.db id).length < maxRecords.toNat) :
    s'.db.leases.length < s.db.leases.length := by
  have hsplit := List.take_append_drop maxRecords.toNat s.db.leases
  have hrest : (id, record) ∈ s.db.leases.drop maxRecords.toNat := by
    rw [← hsplit] at hmem
    exact (List.mem_append.mp hmem).resolve_left hnot
  have hlength : (s.db.leases.take maxRecords.toNat).length = maxRecords.toNat := by
    have hlt : maxRecords.toNat < s.db.leases.length := by
      by_contra hge
      rw [List.drop_eq_nil_of_le (Nat.le_of_not_lt hge)] at hrest
      exact nomatch hrest
    rw [List.length_take, Nat.min_eq_left hlt.le]
  have hstored := MetaMap.mem_leases.mp hmem
  have hbefore : ∀ visited ∈ s.db.leases.take maxRecords.toNat,
      (MetaKey.fileArchiveState visited.1).render < (MetaKey.fileArchiveState id).render := by
    intro visited hvisited
    have hsorted := leases_sorted s.db
    rw [← hsplit] at hsorted
    refine Std.lt_of_le_of_ne ((List.pairwise_append.mp hsorted).2.2 visited hvisited _ hrest) ?_
    intro hsame
    obtain rfl : visited.1 = id :=
      MetaKey.fileArchiveState.inj (MetaKey.render_injective hsame)
    have hother := MetaMap.mem_leases.mp (List.mem_of_mem_take hvisited)
    rw [hstored] at hother
    refine hnot ?_
    rw [Option.some.inj hother]
    exact hvisited
  obtain ⟨visited, hvisited, hlocated⟩ : ∃ visited ∈ s.db.leases.take maxRecords.toNat,
      located s.db visited.1 = true := by
    by_contra hnone
    push Not at hnone
    have hsub : (s.db.leases.take maxRecords.toNat).map Prod.fst ⊆ staying s.db id := by
      intro other hmem
      obtain ⟨visited, hvisited, rfl⟩ := List.mem_map.mp hmem
      rw [staying, List.mem_filter, decide_eq_true_eq]
      exact ⟨List.mem_map_of_mem (List.mem_of_mem_take hvisited), hbefore visited hvisited,
        Bool.eq_false_iff.mpr (hnone visited hvisited)⟩
    have hnodup : ((s.db.leases.take maxRecords.toNat).map Prod.fst).Nodup := by
      rw [List.map_take]
      exact (leases_nodup s.db).sublist (List.take_sublist _ _)
    have hle := (List.subperm_of_subset hnodup hsub).length_le
    rw [List.length_map, hlength] at hle
    exact absurd hstaying (Nat.not_lt.mpr hle)
  have hin : visited.1 ∈ s.db.leases.map Prod.fst :=
    List.mem_map_of_mem (List.mem_of_mem_take hvisited)
  have hsub : s'.db.leases.map Prod.fst ⊆ (s.db.leases.map Prod.fst).erase visited.1 := by
    intro other hmem
    have hrecord := mem_leaseFiles.mp hmem
    refine ((leases_nodup s.db).mem_erase_iff).mpr ⟨?_, mem_leaseFiles.mpr (h.subset other hrecord)⟩
    rintro rfl
    exact hrecord (h.dropped visited hvisited hlocated)
  have hle := (List.subperm_of_subset (leases_nodup s'.db) hsub).length_le
  rw [List.length_map, List.length_erase_of_mem hin, List.length_map] at hle
  have hpos : 0 < s.db.leases.length := List.length_pos_of_mem hmem
  omega

/-- An expired record is released after so many passes as there are records, if fewer of
    those in front of it stay than a pass visits. -/
theorem releasedWithin_of_staying {maxRecords : UInt32} (hkeyed : RecordsKeyed s.db)
    (hstored : s.db.lookup (.fileArchiveState id) = some record)
    (hexpired : isExpired s.clock record = true) (hreadable : Readable s.db id)
    (hstaying : (staying s.db id).length < maxRecords.toNat) :
    ReleasedWithin maxRecords id s.db.leases.length s := by
  have hwithin : ∀ passes (s : TimedState ι), s.db.leases.length ≤ passes → RecordsKeyed s.db →
      s.db.lookup (.fileArchiveState id) = some record → isExpired s.clock record = true →
      Readable s.db id → (staying s.db id).length < maxRecords.toNat →
      ReleasedWithin maxRecords id passes s := by
    intro passes
    induction passes with
    | zero =>
        intro s hle _ hstored
        have hmem := MetaMap.mem_leases.mpr hstored
        rw [List.length_eq_zero_iff.mp (Nat.le_zero.mp hle)] at hmem
        exact nomatch hmem
    | succ passes ih =>
        intro s hle hkeyed hstored hexpired hreadable hstaying
        refine .later fun s' hpass => ?_
        have h := hpass.advances hkeyed
        have hmem := MetaMap.mem_leases.mpr hstored
        by_cases hvisited : (id, record) ∈ s.db.leases.take maxRecords.toNat
        · exact .now (h.released _ hvisited hreadable hexpired)
        · have hothers : ∀ visited ∈ s.db.leases.take maxRecords.toNat, visited.1 ≠ id := by
            rintro visited hmem' rfl
            have hsame := MetaMap.mem_leases.mp (List.mem_of_mem_take hmem')
            rw [hstored] at hsame
            refine hvisited ?_
            rw [Option.some.inj hsame]
            exact hmem'
          obtain ⟨hlease, hinode⟩ := h.others id hothers
          have hfewer := h.fewer hmem hvisited hstaying
          obtain ⟨attr, data, hdata, hattr⟩ := hreadable
          exact ih s' (by omega) h.keyed (hlease.trans hstored) (isExpired_mono h.clock hexpired)
            ⟨attr, data, hinode.trans hdata, hattr⟩ ((h.staying_le id).trans_lt hstaying)
  exact hwithin _ s (Nat.le_refl _) hkeyed hstored hexpired hreadable hstaying

end Reconciler

end Zb.Mds
