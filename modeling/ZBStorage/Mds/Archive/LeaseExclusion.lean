-- SUMMARY: Lease calls: at most one holder of an unexpired lease, and superseded ids have no effect.
import ZBStorage.Mds.Archive.ArchiveLeaseManager

/-!
# Exclusive leases

Each lease call runs under the mutex of the lease manager, so a history of calls
is a sequence. The clock they read never goes back. A lease id is new when it is
handed out; from the moment another one takes its place it cannot become the
current one again.
-/

namespace Zb.Mds

open Zb.Rpc Bytes Handler ArchiveLeaseManager

variable {ι : Type}

/-! ## Timed runs -/

/-- A state with the last reading of the clock. -/
structure TimedState (ι : Type) extends MdsState ι where
  clock : UInt64

/-- The clock does not go back; nothing but its reading moves it. -/
def MdsOp.Ticks : (o : MdsOp) → UInt64 → o.Res → UInt64 → Prop
  | .nowMilliseconds, t, now, t' => t ≤ now ∧ t' = now
  | _, t, _, t' => t' = t

def MdsOp.TimedSem (i : ι) (o : MdsOp) (s : TimedState ι) (r : o.Res) (s' : TimedState ι) : Prop :=
  o.Sem i s.toMdsState r s'.toMdsState ∧ o.Ticks s.clock r s'.clock

abbrev Handler.RunsTimed {α : Type} (h : Handler α) (i : ι) (s : TimedState ι) (a : α)
    (s' : TimedState ι) : Prop := Prog.Runs (MdsOp.TimedSem i) h s a s'

section Timed

variable {i : ι} {α : Type} {a : α} {s s'' : TimedState ι}

theorem runsTimed_get {k : MetaKey} {f : Except String k.Value → Handler α}
    (h : (Handler.get k >>= f).RunsTimed i s a s'') :
    ∃ r, (r = s.db.read k ∨ IoError r) ∧ (f r).RunsTimed i s a s'' := by
  obtain ⟨r, ⟨m, t⟩, ⟨⟨hm, hr⟩, ht⟩, h⟩ := Prog.runs_call.mp h
  cases hm
  cases ht
  exact ⟨r, hr, h⟩

theorem runsTimed_nowMilliseconds {f : UInt64 → Handler α}
    (h : (Handler.nowMilliseconds >>= f).RunsTimed i s a s'') :
    ∃ now, s.clock ≤ now ∧ (f now).RunsTimed i { s with clock := now } a s'' := by
  obtain ⟨now, ⟨m, t⟩, ⟨⟨hm, -⟩, hle, ht⟩, h⟩ := Prog.runs_call.mp h
  cases hm
  subst ht
  exact ⟨t, hle, h⟩

theorem runsTimed_generateLeaseId {f : Bytes → Handler α}
    (h : (Handler.generateLeaseId >>= f).RunsTimed i s a s'') :
    ∃ id, id ≠ [] ∧ id ∉ s.issued ∧
      (f id).RunsTimed i { s with issued := id :: s.issued } a s'' := by
  obtain ⟨id, ⟨m, t⟩, ⟨⟨hlen, hnew, hm⟩, ht⟩, h⟩ := Prog.runs_call.mp h
  cases hm
  cases ht
  refine ⟨id, ?_, hnew, h⟩
  rintro rfl
  cases hlen

theorem runsTimed_put {k : MetaKey} {v : k.Value} {r : Except String Unit} {s' : TimedState ι}
    (h : (Handler.put k v).RunsTimed i s r s') :
    (r = .ok () ∧ s' = { s with db := s.db.insert k v }) ∨ (IoError r ∧ s' = s) := by
  obtain ⟨r', ⟨m, t⟩, ⟨hm, ht⟩, h⟩ := Prog.runs_call.mp h
  obtain ⟨rfl, rfl⟩ := Prog.runs_ret.mp h
  cases ht
  rcases hm with ⟨rfl, hm⟩ | ⟨hio, hm⟩
  · cases hm
    exact .inl ⟨rfl, rfl⟩
  · cases hm
    exact .inr ⟨hio, rfl⟩

theorem runsTimed_writeBatch {batch : WriteBatch} {r : Except String Unit} {s' : TimedState ι}
    (h : (Handler.writeBatch batch).RunsTimed i s r s') :
    (r = .ok () ∧ s' = { s with db := s.db.write batch }) ∨ (IoError r ∧ s' = s) := by
  obtain ⟨r', ⟨m, t⟩, ⟨hm, ht⟩, h⟩ := Prog.runs_call.mp h
  obtain ⟨rfl, rfl⟩ := Prog.runs_ret.mp h
  cases ht
  rcases hm with ⟨rfl, hm⟩ | ⟨hio, hm⟩
  · cases hm
    exact .inl ⟨rfl, rfl⟩
  · cases hm
    exact .inr ⟨hio, rfl⟩

/-- Two states that differ in who holds which mutex. -/
structure SameBut (s s' : TimedState ι) : Prop where
  db : s'.db = s.db
  issued : s'.issued = s.issued
  clock : s'.clock = s.clock

theorem runsTimed_withLock {m : Mutex} {body : Handler α}
    (h : (Handler.withLock m body).RunsTimed i s a s'') :
    ∃ s₁ s', SameBut s s₁ ∧ body.RunsTimed i s₁ a s' ∧ SameBut s' s'' := by
  obtain ⟨_, s₁, hlock, h⟩ := Prog.runs_bind.mp h
  obtain ⟨_, ⟨m₁, t₁⟩, ⟨⟨-, hm⟩, ht⟩, hret⟩ := Prog.runs_call.mp hlock
  obtain ⟨-, rfl⟩ := Prog.runs_ret.mp hret
  cases hm
  cases ht
  obtain ⟨b, s', hbody, h⟩ := Prog.runs_bind.mp h
  obtain ⟨_, s₂, hunlock, h⟩ := Prog.runs_bind.mp h
  obtain ⟨_, ⟨m₂, t₂⟩, ⟨⟨-, hm⟩, ht⟩, hret⟩ := Prog.runs_call.mp hunlock
  obtain ⟨-, rfl⟩ := Prog.runs_ret.mp hret
  cases hm
  cases ht
  obtain ⟨rfl, rfl⟩ := Prog.runs_ret.mp h
  refine ⟨_, s', ?_, hbody, ⟨rfl, rfl, rfl⟩⟩
  exact ⟨rfl, rfl, rfl⟩

/-- The outcome of an operation when no store call fails. -/
def MdsOp.timedExec [DecidableEq ι] (env : Oracle) (i : ι) (o : MdsOp) (s : TimedState ι) :
    Option (o.Res × TimedState ι) :=
  match o with
  | .nowMilliseconds =>
      if env.milliseconds.toNat < 2 ^ 63 ∧ s.clock ≤ env.milliseconds then
        some (env.milliseconds, { s with clock := env.milliseconds })
      else none
  | o => (o.exec env i s.toMdsState).map fun p => (p.1, { toMdsState := p.2, clock := s.clock })

theorem runsTimed_of_run [DecidableEq ι] {env : Oracle} {h : Handler α} {s' : TimedState ι}
    (hrun : h.run (MdsOp.timedExec env i) s = some (a, s')) : h.RunsTimed i s a s' := by
  refine Prog.runs_of_run (fun {o s r s'} hexec => ?_) hrun
  unfold MdsOp.timedExec at hexec
  split at hexec
  · split at hexec
    · next hclock =>
        cases hexec
        exact ⟨⟨rfl, hclock.1⟩, hclock.2, rfl⟩
    · cases hexec
  · next hother =>
      obtain ⟨⟨r', m⟩, hstep, heq⟩ := Option.map_eq_some_iff.mp hexec
      cases heq
      refine ⟨MdsOp.sem_of_exec hstep, ?_⟩
      cases o with
      | nowMilliseconds => exact absurd rfl hother
      | _ => rfl

end Timed

/-! ## Calls -/

inductive LeaseCall
  | claim (request : ClaimArchiveTaskRequest)
  | renew (request : RenewArchiveLeaseRequest)
  | commit (request : CommitArchiveTaskRequest)

inductive LeaseReply
  | claim (reply : Except String ClaimArchiveTaskReply)
  | renew (reply : Except String RenewArchiveLeaseReply)
  | commit (reply : Except String CommitArchiveTaskReply)

namespace LeaseCall

def prog (options : Options) : LeaseCall → Handler LeaseReply
  | .claim request => do return .claim (← ArchiveLeaseManager.claim options request)
  | .renew request => do return .renew (← ArchiveLeaseManager.renew options request)
  | .commit request => do return .commit (← ArchiveLeaseManager.commit request)

def inodeId : LeaseCall → UInt64
  | .claim request => request.inodeId
  | .renew request => request.inodeId
  | .commit request => request.inodeId

/-- The lease id and the node a call presents. -/
def presented : LeaseCall → Option (Bytes × Bytes)
  | .claim _ => none
  | .renew request => some (request.leaseId, request.nodeId)
  | .commit request => some (request.leaseId, request.nodeId)

/-- The duration a call asks for. -/
def requested : LeaseCall → Option UInt64
  | .claim request => some request.requestedLeaseMs
  | .renew request => some request.requestedLeaseMs
  | .commit _ => none

end LeaseCall

/-- Whether a reply says that the call was granted, has renewed or committed. -/
def LeaseReply.accepted : LeaseReply → Bool
  | .claim (.ok reply) => reply.granted
  | .renew (.ok reply) => reply.renewed
  | .commit (.ok reply) => reply.committed
  | _ => false

/-- The record a call finds: the stored one, or a new one in its place. -/
def Loaded (db : MetaMap) (inodeId : UInt64) (record : ArchiveLeaseRecord) : Prop :=
  db.lookup (.fileArchiveState inodeId) = some record ∨
  (db.lookup (.fileArchiveState inodeId) = none ∧
    ∃ now, record = { inodeId, state := .pending, version := 1, updateTsMs := now })

/-- The call presents the lease of the record, and its owner if any. -/
def Holder (record : ArchiveLeaseRecord) (leaseId nodeId : Bytes) : Prop :=
  record.state = .archiving ∧ record.leaseId = leaseId ∧
    (nodeId ≠ [] → record.ownerNodeId = nodeId)

/-- At most one lease id was handed out. -/
def Issues (s s' : TimedState ι) : Prop :=
  s'.issued = s.issued ∨ ∃ id, id ≠ [] ∧ s'.issued = id :: s.issued

/-- What a call does: nothing to the store, or one of its writes. -/
inductive LeaseStep (options : Options) (s : TimedState ι) :
    LeaseCall → LeaseReply → TimedState ι → Prop
  | unchanged {c reply s'} : s'.db = s.db → Issues s s' → reply.accepted = false →
      LeaseStep options s c reply s'
  /-- a record in an unknown state was reset, but then not claimed -/
  | reset {request e record record' s'} : Loaded s.db request.inodeId record →
      record.state ≠ .archiving → record'.state = .pending → record'.leaseId = [] →
      record'.leaseExpireTsMs = 0 → record'.inodeId = record.inodeId →
      s'.db = s.db.insert (.fileArchiveState record.inodeId) record' → Issues s s' →
      LeaseStep options s (.claim request) (.claim (.error e)) s'
  /-- the lease is held, by the caller or another -/
  | held {request record s'} : s.db.lookup (.fileArchiveState request.inodeId) = some record →
      record.state = .archiving → s'.clock < record.leaseExpireTsMs → s'.db = s.db →
      s'.issued = s.issued →
      LeaseStep options s (.claim request) (.claim (.ok
        { granted := decide (record.ownerNodeId = request.nodeId ∧
            record.ownerDiskId = request.diskId)
          record })) s'
  | granted {request record record' s'} : Loaded s.db request.inodeId record →
      ¬ (record.state = .archiving ∧ s'.clock < record.leaseExpireTsMs) →
      record'.state = .archiving → record'.leaseId ≠ [] → record'.leaseId ∉ s.issued →
      record'.leaseExpireTsMs = s'.clock + normalizeLeaseMs options request.requestedLeaseMs →
      record'.inodeId = record.inodeId →
      s'.db = s.db.insert (.fileArchiveState record.inodeId) record' →
      s'.issued = record'.leaseId :: s.issued →
      LeaseStep options s (.claim request) (.claim (.ok { granted := true, record := record' })) s'
  | renewed {request record record' s'} :
      s.db.lookup (.fileArchiveState request.inodeId) = some record →
      Holder record request.leaseId request.nodeId → record'.state = .archiving →
      record'.leaseId = record.leaseId →
      record'.leaseExpireTsMs = s'.clock + normalizeLeaseMs options request.requestedLeaseMs →
      record'.inodeId = record.inodeId →
      s'.db = s.db.insert (.fileArchiveState record.inodeId) record' → s'.issued = s.issued →
      LeaseStep options s (.renew request) (.renew (.ok { renewed := true, record := record' })) s'
  | released {request reply record record' s'} :
      s.db.lookup (.fileArchiveState request.inodeId) = some record →
      Holder record request.leaseId request.nodeId → record'.state = .pending →
      record'.leaseId = [] → record'.leaseExpireTsMs = 0 → record'.inodeId = record.inodeId →
      s'.db = s.db.insert (.fileArchiveState record.inodeId) record' → s'.issued = s.issued →
      LeaseStep options s (.commit request) reply s'
  | dropped {request reply record s'} :
      s.db.lookup (.fileArchiveState request.inodeId) = some record →
      Holder record request.leaseId request.nodeId →
      s'.db = s.db.write [.delete (.fileArchiveState request.inodeId)] → s'.issued = s.issued →
      LeaseStep options s (.commit request) reply s'

section Steps

variable {i : ι} {s s' : TimedState ι} {options : Options}

theorem runs_loadOrInitRecordLocked {α : Type} {inodeId : UInt64}
    {f : Except String ArchiveLeaseRecord → Handler α} {a : α}
    (h : (loadOrInitRecordLocked inodeId >>= f).RunsTimed i s a s') :
    (∃ e, (f (.error e)).RunsTimed i s a s') ∨
    ∃ record t, Loaded s.db inodeId record ∧
      (f (.ok record)).RunsTimed i { s with clock := t } a s' := by
  obtain ⟨b, s₁, hload, hrest⟩ := Prog.runs_bind.mp h
  obtain ⟨r, hread, hload⟩ := runsTimed_get hload
  cases r with
  | ok record =>
      obtain ⟨rfl, rfl⟩ := Prog.runs_ret.mp hload
      rcases hread with hread | ⟨e, -, he⟩
      · exact .inr ⟨record, s₁.clock, .inl (MetaMap.read_eq_ok.mp hread.symm), hrest⟩
      · cases he
  | error e =>
      by_cases he : e = ""
      · subst he
        rcases hread with hread | ⟨e, hne, he⟩
        · simp only [ne_eq, not_true_eq_false, if_false] at hload
          obtain ⟨now, -, hload⟩ := runsTimed_nowMilliseconds hload
          obtain ⟨rfl, rfl⟩ := Prog.runs_ret.mp hload
          exact .inr ⟨_, now, .inr ⟨(MetaMap.read_eq_error.mp hread.symm).1, now, rfl⟩, hrest⟩
        · cases he
          exact absurd rfl hne
      · simp only [ne_eq, he, not_false_eq_true, if_true] at hload
        obtain ⟨rfl, rfl⟩ := Prog.runs_ret.mp hload
        exact .inl ⟨e, hrest⟩

theorem runs_persistRecordLocked {record : ArchiveLeaseRecord} {r : Except String Unit}
    (h : (persistRecordLocked record).RunsTimed i s r s') :
    (r = .ok () ∧ s' = { s with db := s.db.insert (.fileArchiveState record.inodeId) record }) ∨
    ((∃ e, r = .error e) ∧ s' = s) := by
  unfold persistRecordLocked at h
  split at h
  · obtain ⟨rfl, rfl⟩ := Prog.runs_ret.mp h
    exact .inr ⟨⟨_, rfl⟩, rfl⟩
  · rcases runsTimed_put h with hok | ⟨⟨e, -, he⟩, hs⟩
    · exact .inl hok
    · exact .inr ⟨⟨e, he⟩, hs⟩

/-- The store calls of a claim, before it looks at the lease. -/
theorem runs_repairState {now : UInt64} {record : ArchiveLeaseRecord}
    {r : Except String ArchiveLeaseRecord} (h : (repairState now record).RunsTimed i s r s') :
    (r = .ok record ∧ s' = s ∧ (record.state = .pending ∨ record.state = .archiving)) ∨
    (record.state ≠ .archiving ∧ ∃ record' : ArchiveLeaseRecord, record'.state = .pending ∧
      record'.leaseId = [] ∧ record'.leaseExpireTsMs = 0 ∧ record'.inodeId = record.inodeId ∧
      ((r = .ok record' ∧
          s' = { s with db := s.db.insert (.fileArchiveState record.inodeId) record' }) ∨
        ((∃ e, r = .error e) ∧ s' = s))) := by
  unfold repairState at h
  split at h
  · next hstate =>
      refine .inr ⟨hstate.2, { record with
        state := .pending
        leaseId := []
        leaseExpireTsMs := 0
        updateTsMs := now
        version := record.version + 1 }, rfl, rfl, rfl, rfl, ?_⟩
      obtain ⟨r', s₁, hpersist, hrest⟩ := Prog.runs_bind.mp h
      rcases runs_persistRecordLocked hpersist with ⟨rfl, rfl⟩ | ⟨⟨e, rfl⟩, rfl⟩
      · obtain ⟨rfl, rfl⟩ := Prog.runs_ret.mp hrest
        exact .inl ⟨rfl, rfl⟩
      · obtain ⟨rfl, rfl⟩ := Prog.runs_ret.mp hrest
        exact .inr ⟨⟨e, rfl⟩, rfl⟩
  · next hstate =>
      obtain ⟨rfl, rfl⟩ := Prog.runs_ret.mp h
      refine .inl ⟨rfl, rfl, ?_⟩
      by_contra hother
      exact hstate (not_or.mp hother)

/-- The claim of a record that is not held. -/
theorem step_of_freeClaim {request : ClaimArchiveTaskRequest}
    {r : Except String ClaimArchiveTaskReply} {record record₁ : ArchiveLeaseRecord}
    {s₂ s₃ : TimedState ι} {now : UInt64} (hload : Loaded s.db request.inodeId record)
    (hdb : s₃.db = s.db ∨ ∃ r : ArchiveLeaseRecord, record.state ≠ .archiving ∧
      r.state = .pending ∧ r.leaseId = [] ∧ r.leaseExpireTsMs = 0 ∧ r.inodeId = record.inodeId ∧
      s₃.db = s.db.insert (.fileArchiveState record.inodeId) r)
    (hissued : s₃.issued = s.issued) (hclock : s₃.clock = now)
    (hinode : record₁.inodeId = record.inodeId)
    (hfree : ¬ (record.state = .archiving ∧ now < record.leaseExpireTsMs))
    (hrun : Handler.RunsTimed (do
      let leaseId ← generateLeaseId
      let record := { record₁ with
        state := .archiving
        ownerNodeId := request.nodeId
        ownerDiskId := request.diskId
        leaseId
        leaseExpireTsMs := now + normalizeLeaseMs options request.requestedLeaseMs
        updateTsMs := now
        version := record₁.version + 1 }
      match ← persistRecordLocked record with
      | .error e => return .error e
      | .ok () => return .ok { granted := true, record }) i s₃ r s₂) (hsame' : SameBut s₂ s') :
    LeaseStep options s (.claim request) (.claim r) s' := by
  obtain ⟨leaseId, hne, hnew, hrun⟩ := runsTimed_generateLeaseId hrun
  obtain ⟨r₂, s₄, hpersist, hrun⟩ := Prog.runs_bind.mp hrun
  rw [hissued] at hnew
  rcases runs_persistRecordLocked hpersist with ⟨rfl, rfl⟩ | ⟨⟨e, rfl⟩, rfl⟩
  · obtain ⟨rfl, rfl⟩ := Prog.runs_ret.mp hrun
    have hnow : s'.clock = now := hsame'.clock.trans hclock
    refine .granted hload (by rw [hnow]; exact hfree) rfl hne hnew (by rw [hnow]) hinode ?_ ?_
    · rw [hsame'.db]
      show AList.insert (.fileArchiveState record₁.inodeId) _ s₃.db = _
      rcases hdb with hdb | ⟨_, -, -, -, -, -, hdb⟩
      · rw [hdb, hinode]
      · rw [hdb, hinode, AList.insert_insert]
    · rw [hsame'.issued]
      exact congrArg (leaseId :: ·) hissued
  · obtain ⟨rfl, rfl⟩ := Prog.runs_ret.mp hrun
    have hgrown : Issues s s' := by
      refine .inr ⟨leaseId, hne, ?_⟩
      rw [hsame'.issued, ← hissued]
    rcases hdb with hdb | ⟨r', hstate, hpending, hid, hexpire, hinode', hdb⟩
    · exact .unchanged (hsame'.db.trans hdb) hgrown rfl
    · exact .reset hload hstate hpending hid hexpire hinode' (hsame'.db.trans hdb) hgrown

theorem step_of_claim {request : ClaimArchiveTaskRequest}
    {r : Except String ClaimArchiveTaskReply} (h : (claim options request).RunsTimed i s r s') :
    LeaseStep options s (.claim request) (.claim r) s' := by
  unfold claim at h
  split at h
  · obtain ⟨rfl, rfl⟩ := Prog.runs_ret.mp h
    exact .unchanged rfl (.inl rfl) rfl
  obtain ⟨s₁, s₂, hsame, hbody, hsame'⟩ := runsTimed_withLock h
  rcases runs_loadOrInitRecordLocked hbody with ⟨e, hbody⟩ | ⟨record, t, hload, hbody⟩
  · obtain ⟨rfl, rfl⟩ := Prog.runs_ret.mp hbody
    exact .unchanged (hsame'.db.trans hsame.db) (.inl (hsame'.issued.trans hsame.issued)) rfl
  rw [hsame.db] at hload
  obtain ⟨now, -, hbody⟩ := runsTimed_nowMilliseconds hbody
  obtain ⟨r₁, s₃, hrepair, hbody⟩ := Prog.runs_bind.mp hbody
  rcases runs_repairState hrepair with
    ⟨rfl, rfl, hstate⟩ | ⟨hstate, record', hpending, hid, hexpire, hinode, hrest⟩
  · simp only at hbody
    split at hbody
    · next hheld =>
        obtain ⟨rfl, rfl⟩ := Prog.runs_ret.mp hbody
        have hstored : s.db.lookup (.fileArchiveState request.inodeId) = some record := by
          rcases hload with hload | ⟨-, _, rfl⟩
          · exact hload
          · cases hheld.1
        have hnow : s'.clock = now := hsame'.clock
        refine .held hstored hheld.1 (by rw [hnow]; exact hheld.2) (hsame'.db.trans hsame.db) ?_
        exact hsame'.issued.trans hsame.issued
    · next hfree =>
        refine step_of_freeClaim hload (.inl ?_) ?_ ?_ rfl hfree hbody hsame'
        · exact hsame.db
        · exact hsame.issued
        · rfl
  · rcases hrest with ⟨rfl, rfl⟩ | ⟨⟨e, rfl⟩, rfl⟩
    · have hdb : AList.insert (.fileArchiveState record.inodeId) record' s₁.db =
          AList.insert (.fileArchiveState record.inodeId) record' s.db := by rw [hsame.db]
      simp only at hbody
      split at hbody
      · next hheld =>
          rw [hpending] at hheld
          cases hheld.1
      · refine step_of_freeClaim hload
          (.inr ⟨record', hstate, hpending, hid, hexpire, hinode, ?_⟩) ?_ ?_ hinode
          (fun hheld => hstate hheld.1) hbody hsame'
        · exact hdb
        · exact hsame.issued
        · rfl
    · obtain ⟨rfl, rfl⟩ := Prog.runs_ret.mp hbody
      exact .unchanged (hsame'.db.trans hsame.db) (.inl (hsame'.issued.trans hsame.issued)) rfl

theorem step_of_renew {request : RenewArchiveLeaseRequest}
    {r : Except String RenewArchiveLeaseReply} (h : (renew options request).RunsTimed i s r s') :
    LeaseStep options s (.renew request) (.renew r) s' := by
  unfold renew at h
  split at h
  · obtain ⟨rfl, rfl⟩ := Prog.runs_ret.mp h
    exact .unchanged rfl (.inl rfl) rfl
  obtain ⟨s₁, s₂, hsame, hbody, hsame'⟩ := runsTimed_withLock h
  have hissued : s₂.issued = s₁.issued → Issues s s' := fun hkept =>
    .inl (hsame'.issued.trans (hkept.trans hsame.issued))
  rcases runs_loadOrInitRecordLocked hbody with ⟨e, hbody⟩ | ⟨record, t, hload, hbody⟩
  · obtain ⟨rfl, rfl⟩ := Prog.runs_ret.mp hbody
    exact .unchanged (hsame'.db.trans hsame.db) (hissued rfl) rfl
  rw [hsame.db] at hload
  obtain ⟨now, -, hbody⟩ := runsTimed_nowMilliseconds hbody
  split at hbody
  · obtain ⟨rfl, rfl⟩ := Prog.runs_ret.mp hbody
    exact .unchanged (hsame'.db.trans hsame.db) (hissued rfl) rfl
  next hrefused =>
  obtain ⟨r₁, s₃, hpersist, hbody⟩ := Prog.runs_bind.mp hbody
  simp only [not_or, not_and, ne_eq, not_not] at hrefused
  obtain ⟨hstate, hid, hnode, -⟩ := hrefused
  have hstored : s.db.lookup (.fileArchiveState request.inodeId) = some record := by
    rcases hload with hload | ⟨-, _, rfl⟩
    · exact hload
    · cases hstate
  rcases runs_persistRecordLocked hpersist with ⟨rfl, rfl⟩ | ⟨⟨e, rfl⟩, rfl⟩
  · obtain ⟨rfl, rfl⟩ := Prog.runs_ret.mp hbody
    have hnow : s'.clock = now := hsame'.clock
    refine .renewed hstored ⟨hstate, hid, hnode⟩ hstate rfl (by rw [hnow]) rfl ?_ ?_
    · rw [hsame'.db, ← hsame.db]
    · rw [hsame'.issued]
      exact hsame.issued
  · obtain ⟨rfl, rfl⟩ := Prog.runs_ret.mp hbody
    exact .unchanged (hsame'.db.trans hsame.db) (hissued rfl) rfl

theorem step_of_commit {request : CommitArchiveTaskRequest}
    {r : Except String CommitArchiveTaskReply} (h : (commit request).RunsTimed i s r s') :
    LeaseStep options s (.commit request) (.commit r) s' := by
  unfold commit at h
  split at h
  · obtain ⟨rfl, rfl⟩ := Prog.runs_ret.mp h
    exact .unchanged rfl (.inl rfl) rfl
  obtain ⟨s₁, s₂, hsame, hbody, hsame'⟩ := runsTimed_withLock h
  have hissued : s₂.issued = s₁.issued → Issues s s' := fun hkept =>
    .inl (hsame'.issued.trans (hkept.trans hsame.issued))
  rcases runs_loadOrInitRecordLocked hbody with ⟨e, hbody⟩ | ⟨record, t, hload, hbody⟩
  · obtain ⟨rfl, rfl⟩ := Prog.runs_ret.mp hbody
    exact .unchanged (hsame'.db.trans hsame.db) (hissued rfl) rfl
  rw [hsame.db] at hload
  obtain ⟨now, -, hbody⟩ := runsTimed_nowMilliseconds hbody
  split at hbody
  · obtain ⟨rfl, rfl⟩ := Prog.runs_ret.mp hbody
    exact .unchanged (hsame'.db.trans hsame.db) (hissued rfl) rfl
  next hrefused =>
  simp only [not_or, not_and, ne_eq, not_not] at hrefused
  obtain ⟨hstate, hid, hnode⟩ := hrefused
  have hstored : s.db.lookup (.fileArchiveState request.inodeId) = some record := by
    rcases hload with hload | ⟨-, _, rfl⟩
    · exact hload
    · cases hstate
  simp only at hbody
  split at hbody
  · obtain ⟨r₁, s₃, hwrite, hbody⟩ := Prog.runs_bind.mp hbody
    rcases runsTimed_writeBatch hwrite with ⟨rfl, rfl⟩ | ⟨⟨e, -, rfl⟩, rfl⟩
    · obtain ⟨rfl, rfl⟩ := Prog.runs_ret.mp hbody
      refine .dropped hstored ⟨hstate, hid, hnode⟩ ?_ ?_
      · rw [hsame'.db, ← hsame.db]
      · rw [hsame'.issued]
        exact hsame.issued
    · obtain ⟨rfl, rfl⟩ := Prog.runs_ret.mp hbody
      exact .unchanged (hsame'.db.trans hsame.db) (hissued rfl) rfl
  · obtain ⟨r₁, s₃, hpersist, hbody⟩ := Prog.runs_bind.mp hbody
    rcases runs_persistRecordLocked hpersist with ⟨rfl, rfl⟩ | ⟨⟨e, rfl⟩, rfl⟩
    · obtain ⟨rfl, rfl⟩ := Prog.runs_ret.mp hbody
      let record' : ArchiveLeaseRecord := { record with
        state := .pending
        lastOpId := if request.opId ≠ [] then request.opId else record.leaseId
        leaseId := []
        leaseExpireTsMs := 0
        updateTsMs := now
        version := record.version + 1 }
      refine .released hstored ⟨hstate, hid, hnode⟩ (rfl : record'.state = .pending) rfl rfl rfl
        ?_ ?_
      · rw [hsame'.db, ← hsame.db]
      · rw [hsame'.issued]
        exact hsame.issued
    · obtain ⟨rfl, rfl⟩ := Prog.runs_ret.mp hbody
      exact .unchanged (hsame'.db.trans hsame.db) (hissued rfl) rfl

/-- What each call does, read off its program. -/
theorem step_of_runs {c : LeaseCall} {reply : LeaseReply}
    (h : (c.prog options).RunsTimed i s reply s') : LeaseStep options s c reply s' := by
  cases c with
  | claim request =>
      obtain ⟨r, s₁, hrun, hret⟩ := Prog.runs_bind.mp h
      obtain ⟨rfl, rfl⟩ := Prog.runs_ret.mp hret
      exact step_of_claim hrun
  | renew request =>
      obtain ⟨r, s₁, hrun, hret⟩ := Prog.runs_bind.mp h
      obtain ⟨rfl, rfl⟩ := Prog.runs_ret.mp hret
      exact step_of_renew hrun
  | commit request =>
      obtain ⟨r, s₁, hrun, hret⟩ := Prog.runs_bind.mp h
      obtain ⟨rfl, rfl⟩ := Prog.runs_ret.mp hret
      exact step_of_commit hrun

end Steps

/-! ## What holds of the stored leases -/

/-- Leases are stored under the inode they name, with ids that were handed out. -/
structure LeasesKeyed (s : TimedState ι) : Prop where
  keyed : ∀ {id record}, s.db.lookup (.fileArchiveState id) = some record → record.inodeId = id
  issued : ∀ {id record}, s.db.lookup (.fileArchiveState id) = some record →
    record.state = .archiving → record.leaseId ∈ s.issued
  nonempty : [] ∉ s.issued

/-- A held lease has an id and an expiry, a free one neither. -/
def Shaped (record : ArchiveLeaseRecord) : Prop :=
  (record.state = .archiving → record.leaseId ≠ [] ∧ 0 < record.leaseExpireTsMs) ∧
  (record.state = .pending → record.leaseId = [] ∧ record.leaseExpireTsMs = 0)

/-- The records calls write: free ones, and held ones with a new id or the one
    already stored. -/
def Written (options : Options) (s : TimedState ι) (c : LeaseCall) (s' : TimedState ι) (id : UInt64)
    (record : ArchiveLeaseRecord) : Prop :=
  (record.state = .pending ∧ record.leaseId = [] ∧ record.leaseExpireTsMs = 0) ∨
  (record.state = .archiving ∧
    (∃ ms ∈ c.requested, record.leaseExpireTsMs = s'.clock + normalizeLeaseMs options ms) ∧
    ((record.leaseId ≠ [] ∧ record.leaseId ∉ s.issued ∧ record.leaseId ∈ s'.issued) ∨
      ∃ previous, s.db.lookup (.fileArchiveState id) = some previous ∧
        previous.state = .archiving ∧ record.leaseId = previous.leaseId))

/-- A lease is superseded: its id was handed out and is not the current one. -/
def Superseded (id : UInt64) (leaseId : Bytes) (s : TimedState ι) : Prop :=
  leaseId ∈ s.issued ∧
    ∀ record, s.db.lookup (.fileArchiveState id) = some record → record.leaseId ≠ leaseId

section Invariants

variable {options : Options} {s s' : TimedState ι} {c : LeaseCall} {reply : LeaseReply}

theorem Loaded.inodeId {inodeId : UInt64} {record : ArchiveLeaseRecord} (hkeyed : LeasesKeyed s)
    (h : Loaded s.db inodeId record) : record.inodeId = inodeId := by
  rcases h with h | ⟨-, now, rfl⟩
  · exact hkeyed.keyed h
  · rfl

theorem LeaseStep.issues (h : LeaseStep options s c reply s') : Issues s s' := by
  cases h with
  | unchanged _ hissues _ => exact hissues
  | reset _ _ _ _ _ _ _ hissues => exact hissues
  | granted _ _ _ hne _ _ _ _ hissued => exact .inr ⟨_, hne, hissued⟩
  | held _ _ _ _ hissued => exact .inl hissued
  | renewed _ _ _ _ _ _ _ hissued => exact .inl hissued
  | released _ _ _ _ _ _ _ hissued => exact .inl hissued
  | dropped _ _ _ hissued => exact .inl hissued

theorem Issues.subset (h : Issues s s') : s.issued ⊆ s'.issued := by
  rcases h with h | ⟨id, -, h⟩
  · rw [h]
    exact List.Subset.refl _
  · rw [h]
    exact List.subset_cons_self _ _

/-- A lease found after a step was there before, or was written for its inode. -/
theorem LeaseStep.stored (hkeyed : LeasesKeyed s) (h : LeaseStep options s c reply s') {id : UInt64}
    {record : ArchiveLeaseRecord} (hlook : s'.db.lookup (.fileArchiveState id) = some record) :
    s.db.lookup (.fileArchiveState id) = some record ∨
      (record.inodeId = id ∧ Written options s c s' id record) := by
  have hinsert : ∀ {id' : UInt64} {record' : ArchiveLeaseRecord}, record'.inodeId = id' →
      s'.db = s.db.insert (.fileArchiveState id') record' → Written options s c s' id' record' →
      s.db.lookup (.fileArchiveState id) = some record ∨
        (record.inodeId = id ∧ Written options s c s' id record) := by
    intro id' record' hid hdb hwritten
    rw [hdb] at hlook
    by_cases hsame : id = id'
    · subst hsame
      rw [AList.lookup_insert] at hlook
      cases hlook
      exact .inr ⟨hid, hwritten⟩
    · rw [AList.lookup_insert_ne (by simpa using hsame)] at hlook
      exact .inl hlook
  cases h with
  | unchanged hdb _ _ => exact .inl (hdb ▸ hlook)
  | reset _ _ hstate hlease hexpire hid hdb _ => exact hinsert hid hdb (.inl ⟨hstate, hlease, hexpire⟩)
  | held _ _ _ hdb _ => exact .inl (hdb ▸ hlook)
  | granted hload _ hstate hne hnew hexpire hid hdb hissued =>
      refine hinsert hid hdb (.inr ⟨hstate, ⟨_, rfl, hexpire⟩, .inl ⟨hne, hnew, ?_⟩⟩)
      rw [hissued]
      exact List.mem_cons_self
  | renewed hstored hholder hstate hlease hexpire hid hdb _ =>
      refine hinsert hid hdb (.inr ⟨hstate, ⟨_, rfl, hexpire⟩, .inr ⟨_, ?_, hholder.1, hlease⟩⟩)
      rw [hkeyed.keyed hstored]
      exact hstored
  | released hstored _ hstate hlease hexpire hid hdb _ =>
      exact hinsert hid hdb (.inl ⟨hstate, hlease, hexpire⟩)
  | @dropped request _ previous _ hstored _ hdb _ =>
      rw [hdb] at hlook
      by_cases hsame : id = request.inodeId
      · subst hsame
        simp [BatchEntry.apply] at hlook
      · rw [MetaMap.lookup_write_of_notMem (by simpa [BatchEntry.key, eq_comm] using hsame)] at hlook
        exact .inl hlook

theorem LeasesKeyed.step (hkeyed : LeasesKeyed s) (h : LeaseStep options s c reply s') :
    LeasesKeyed s' where
  keyed := by
    intro id record hlook
    rcases h.stored hkeyed hlook with hbefore | ⟨hid, -⟩
    · exact hkeyed.keyed hbefore
    · exact hid
  issued := by
    intro id record hlook hstate
    rcases h.stored hkeyed hlook with hbefore | ⟨-, ⟨hpending, -⟩ | ⟨-, -, hlease⟩⟩
    · exact h.issues.subset (hkeyed.issued hbefore hstate)
    · rw [hpending] at hstate
      cases hstate
    · rcases hlease with ⟨-, -, hnew⟩ | ⟨previous, hprevious, harchiving, hsame⟩
      · exact hnew
      · rw [hsame]
        exact h.issues.subset (hkeyed.issued hprevious harchiving)
  nonempty := by
    rcases h.issues with hissued | ⟨id, hne, hissued⟩
    · rw [hissued]
      exact hkeyed.nonempty
    · rw [hissued, List.mem_cons, not_or]
      exact ⟨Ne.symm hne, hkeyed.nonempty⟩

/-- Calls store well-formed leases, unless the expiry they compute is zero. -/
theorem LeaseStep.shaped (hkeyed : LeasesKeyed s) (h : LeaseStep options s c reply s')
    (hfits : ∀ ms ∈ c.requested, s'.clock + normalizeLeaseMs options ms ≠ 0)
    (hshaped : ∀ id record, s.db.lookup (.fileArchiveState id) = some record → Shaped record)
    {id : UInt64} {record : ArchiveLeaseRecord}
    (hlook : s'.db.lookup (.fileArchiveState id) = some record) : Shaped record := by
  rcases h.stored hkeyed hlook with
    hbefore | ⟨-, ⟨hpending, hnone, hzero⟩ | ⟨harchiving, ⟨ms, hms, hexpire⟩, hlease⟩⟩
  · exact hshaped id record hbefore
  · refine ⟨fun hstate => ?_, fun _ => ⟨hnone, hzero⟩⟩
    rw [hpending] at hstate
    cases hstate
  · refine ⟨fun _ => ⟨?_, ?_⟩, fun hstate => ?_⟩
    · rcases hlease with ⟨hne, -⟩ | ⟨previous, hprevious, hheld, hsame⟩
      · exact hne
      · rw [hsame]
        exact ((hshaped id previous hprevious).1 hheld).1
    · rw [hexpire]
      exact UInt64.pos_iff_ne_zero.mpr (hfits ms hms)
    · rw [harchiving] at hstate
      cases hstate

theorem Superseded.step {id : UInt64} {leaseId : Bytes} (hold : Superseded id leaseId s)
    (hkeyed : LeasesKeyed s) (h : LeaseStep options s c reply s') : Superseded id leaseId s' := by
  refine ⟨h.issues.subset hold.1, fun record hlook heq => ?_⟩
  rcases h.stored hkeyed hlook with hbefore | ⟨-, ⟨-, hnone, -⟩ | ⟨-, -, hlease⟩⟩
  · exact hold.2 record hbefore heq
  · rw [← heq, hnone] at hold
    exact hkeyed.nonempty hold.1
  · rcases hlease with ⟨-, hnew, -⟩ | ⟨previous, hprevious, -, hsame⟩
    · rw [heq] at hnew
      exact hnew hold.1
    · exact hold.2 previous hprevious (hsame ▸ heq)

/-- A call that presents a lease has an effect only if that lease is stored. -/
theorem LeaseStep.holder (h : LeaseStep options s c reply s') {leaseId nodeId : Bytes}
    (hpresented : c.presented = some (leaseId, nodeId))
    (heffect : reply.accepted = true ∨ s'.db ≠ s.db) :
    ∃ record, s.db.lookup (.fileArchiveState c.inodeId) = some record ∧
      Holder record leaseId nodeId := by
  cases h with
  | unchanged hdb _ hrefused =>
      rcases heffect with haccepted | hchanged
      · rw [hrefused] at haccepted
        cases haccepted
      · exact absurd hdb hchanged
  | reset => cases hpresented
  | held => cases hpresented
  | granted => cases hpresented
  | renewed hstored hholder =>
      cases hpresented
      exact ⟨_, hstored, hholder⟩
  | released hstored hholder =>
      cases hpresented
      exact ⟨_, hstored, hholder⟩
  | dropped hstored hholder =>
      cases hpresented
      exact ⟨_, hstored, hholder⟩

theorem LeaseStep.claim_refused {request : ClaimArchiveTaskRequest}
    (h : LeaseStep options s (.claim request) reply s') {record : ArchiveLeaseRecord}
    (hstored : s.db.lookup (.fileArchiveState request.inodeId) = some record)
    (harchiving : record.state = .archiving) (hexpire : s'.clock < record.leaseExpireTsMs)
    (hother : ¬ (record.ownerNodeId = request.nodeId ∧ record.ownerDiskId = request.diskId)) :
    reply.accepted = false ∧ s'.db = s.db := by
  have hloaded : ∀ {record'}, Loaded s.db request.inodeId record' → record' = record := by
    rintro record' (hload | ⟨hnone, -⟩)
    · rw [hstored] at hload
      exact (Option.some.inj hload).symm
    · rw [hstored] at hnone
      cases hnone
  cases h with
  | unchanged hdb _ hrefused => exact ⟨hrefused, hdb⟩
  | reset hload hstate =>
      rw [hloaded hload] at hstate
      exact absurd harchiving hstate
  | held hstored' _ _ hdb _ =>
      rw [hstored] at hstored'
      cases hstored'
      exact ⟨decide_eq_false hother, hdb⟩
  | granted hload hfree =>
      rw [hloaded hload] at hfree
      exact absurd ⟨harchiving, hexpire⟩ hfree

/-- A granted claim answers with the lease that is stored afterwards. -/
theorem LeaseStep.granted_stored (hkeyed : LeasesKeyed s) {request : ClaimArchiveTaskRequest}
    {record : ArchiveLeaseRecord}
    (h : LeaseStep options s (.claim request) (.claim (.ok ⟨true, record⟩)) s') :
    s'.db.lookup (.fileArchiveState request.inodeId) = some record := by
  generalize hreply : LeaseReply.claim (.ok ⟨true, record⟩) = reply at h
  cases h with
  | unchanged _ _ hrefused =>
      subst hreply
      cases hrefused
  | reset => cases hreply
  | held hstored _ _ hdb _ =>
      simp only [LeaseReply.claim.injEq, Except.ok.injEq, ClaimArchiveTaskReply.mk.injEq] at hreply
      rw [hdb, hreply.2]
      exact hstored
  | granted hload _ _ _ _ _ hid hdb _ =>
      cases hreply
      rw [hdb, hload.inodeId hkeyed]
      exact AList.lookup_insert _

end Invariants

/-! ## Histories -/

/-- The expiry a call would store is not zero. -/
def LeaseCall.Fits (options : Options) (c : LeaseCall) (now : UInt64) : Prop :=
  ∀ ms ∈ c.requested, now + normalizeLeaseMs options ms ≠ 0

/-- Lease calls of any threads one after the other, each of them at a time that
    `ok` allows. -/
inductive LeaseRun (options : Options) (ok : LeaseCall → UInt64 → Prop) (s : TimedState ι) :
    List (LeaseCall × LeaseReply) → TimedState ι → Prop
  | nil : LeaseRun options ok s [] s
  | snoc {cs s' i c reply s''} : LeaseRun options ok s cs s' →
      (c.prog options).RunsTimed i s' reply s'' → ok c s''.clock →
      LeaseRun options ok s (cs ++ [(c, reply)]) s''

section Runs

variable {options : Options} {ok : LeaseCall → UInt64 → Prop} {s₀ s : TimedState ι}
  {cs : List (LeaseCall × LeaseReply)}

theorem LeasesKeyed.run (h₀ : LeasesKeyed s₀) (h : LeaseRun options ok s₀ cs s) : LeasesKeyed s := by
  induction h with
  | nil => exact h₀
  | snoc _ hcall _ ih => exact ih.step (step_of_runs hcall)

theorem Superseded.run {id : UInt64} {leaseId : Bytes} (hold : Superseded id leaseId s₀)
    (h₀ : LeasesKeyed s₀) (h : LeaseRun options ok s₀ cs s) : Superseded id leaseId s := by
  induction h with
  | nil => exact hold
  | snoc hrun hcall _ ih => exact ih.step (h₀.run hrun) (step_of_runs hcall)

theorem shaped_of_run (h₀ : LeasesKeyed s₀) (hok : ∀ c now, ok c now → c.Fits options now)
    (hshaped : ∀ id record, s₀.db.lookup (.fileArchiveState id) = some record → Shaped record)
    (h : LeaseRun options ok s₀ cs s) :
    ∀ id record, s.db.lookup (.fileArchiveState id) = some record → Shaped record := by
  induction h with
  | nil => exact hshaped
  | snoc hrun hcall hfits ih =>
      exact fun id record => (step_of_runs hcall).shaped (h₀.run hrun) (hok _ _ hfits) ih

/-- Leases are exclusive. In every history the stored leases stay well formed if no
    expiry is zero; a claim by another than the owner of an unexpired lease is refused
    and changes nothing; renewals and commits have an effect only for the holder; and
    after a claim was granted with another lease id, no call with an older one has an
    effect any more. -/
theorem leases_exclusive (h₀ : LeasesKeyed s₀) (h : LeaseRun options ok s₀ cs s) :
    ((∀ c now, ok c now → c.Fits options now) →
      (∀ id record, s₀.db.lookup (.fileArchiveState id) = some record → Shaped record) →
      ∀ id record, s.db.lookup (.fileArchiveState id) = some record → Shaped record) ∧
    (∀ i request reply s' record, (LeaseCall.prog options (.claim request)).RunsTimed i s reply s' →
      s.db.lookup (.fileArchiveState request.inodeId) = some record → record.state = .archiving →
      s'.clock < record.leaseExpireTsMs →
      ¬ (record.ownerNodeId = request.nodeId ∧ record.ownerDiskId = request.diskId) →
      reply.accepted = false ∧ s'.db = s.db) ∧
    (∀ i c reply s' leaseId nodeId, (LeaseCall.prog options c).RunsTimed i s reply s' →
      c.presented = some (leaseId, nodeId) → (reply.accepted = true ∨ s'.db ≠ s.db) →
      ∃ record, s.db.lookup (.fileArchiveState c.inodeId) = some record ∧
        Holder record leaseId nodeId) ∧
    (∀ i request record s₁ leaseId, (LeaseCall.prog options (.claim request)).RunsTimed i s
        (.claim (.ok { granted := true, record })) s₁ →
      leaseId ∈ s.issued → record.leaseId ≠ leaseId →
      ∀ ok' cs' s₂, LeaseRun options ok' s₁ cs' s₂ →
      ∀ j c reply s₃ nodeId, (LeaseCall.prog options c).RunsTimed j s₂ reply s₃ →
        c.presented = some (leaseId, nodeId) → c.inodeId = request.inodeId →
        reply.accepted = false ∧ s₃.db = s₂.db) := by
  have hkeyed := h₀.run h
  refine ⟨fun hok hshaped => shaped_of_run h₀ hok hshaped h, ?_, ?_, ?_⟩
  · intro i request reply s' record hcall hstored harchiving hexpire hother
    exact (step_of_runs hcall).claim_refused hstored harchiving hexpire hother
  · intro i c reply s' leaseId nodeId hcall hpresented heffect
    exact (step_of_runs hcall).holder hpresented heffect
  · intro i request record s₁ leaseId hclaim hissued hne ok' cs' s₂ hrun j c reply s₃ nodeId hcall
      hpresented hinode
    have hstep := step_of_runs hclaim
    have hold : Superseded request.inodeId leaseId s₁ := by
      refine ⟨hstep.issues.subset hissued, fun record' hstored => ?_⟩
      rw [hstep.granted_stored hkeyed] at hstored
      cases hstored
      exact hne
    have hold₂ := hold.run (hkeyed.step hstep) hrun
    by_contra heffect
    rw [not_and_or, Bool.not_eq_false] at heffect
    obtain ⟨current, hstored, -, hid, -⟩ := (step_of_runs hcall).holder hpresented heffect
    rw [hinode] at hstored
    exact hold₂.2 current hstored hid

end Runs

/-- No leases yet. -/
def noLeases : TimedState Unit :=
  { db := ∅, owner := fun _ => none, issued := [], clock := 0 }

/-- The generator counts, and the clock stands at one second. -/
def countingOracle : Oracle :=
  { silentOracle with
    milliseconds := 1000
    leaseId := fun n => List.replicate 31 48 ++ [UInt8.ofNat (48 + n)] }

theorem noLeases_keyed : LeasesKeyed noLeases where
  keyed hlook := by cases hlook
  issued hlook := by cases hlook
  nonempty := by simp [noLeases]

def firstClaim (requestedLeaseMs : UInt64) : LeaseCall :=
  .claim { nodeId := ofAscii "node-1", diskId := ofAscii "disk-1", requestedLeaseMs, inodeId := 2 }

/-- Another node claims a file that is leased, and is refused. -/
theorem leases_exclusive_of_second_claim : ∃ cs s s' reply,
    LeaseRun {} (LeaseCall.Fits {}) noLeases cs s ∧
      (LeaseCall.prog {} (.claim { nodeId := ofAscii "node-2", inodeId := 2 })).RunsTimed () s reply
        s' ∧ reply.accepted = false ∧ s'.db = s.db := by
  have hrun : (((firstClaim 5000).prog {}).run (MdsOp.timedExec countingOracle ()) noLeases).bind
      (fun p => ((LeaseCall.prog {} (.claim { nodeId := ofAscii "node-2", inodeId := 2 })).run
        (MdsOp.timedExec countingOracle ()) p.2).map fun q =>
          decide (p.2.clock = 1000 ∧ q.2.clock = 1000 ∧
            (p.2.db.lookup (.fileArchiveState 2)).map
              (fun r => (r.state, r.leaseExpireTsMs, r.ownerNodeId)) =
              some (.archiving, 6000, ofAscii "node-1"))) = some true := by
    decide +kernel
  obtain ⟨⟨reply₁, s⟩, hfirst, hrun⟩ := Option.bind_eq_some_iff.mp hrun
  obtain ⟨⟨reply, s'⟩, hsecond, hdec⟩ := Option.map_eq_some_iff.mp hrun
  obtain ⟨hclock, hclock', hrecord⟩ := of_decide_eq_true hdec
  obtain ⟨record, hstored, heq⟩ := Option.map_eq_some_iff.mp hrecord
  simp only [Prod.mk.injEq] at heq
  obtain ⟨hstate, hexpire, howner⟩ := heq
  have hfits : (firstClaim 5000).Fits {} s.clock := by
    rw [hclock]
    intro ms hms
    obtain rfl : 5000 = ms := by simpa [firstClaim, LeaseCall.requested] using hms
    decide
  have hhistory : LeaseRun {} (LeaseCall.Fits {}) noLeases _ s :=
    .snoc .nil (runsTimed_of_run hfirst) hfits
  have hcall := runsTimed_of_run hsecond
  refine ⟨_, s, s', reply, hhistory, hcall, ?_⟩
  refine (leases_exclusive noLeases_keyed hhistory).2.1 () _ reply s' record hcall hstored hstate
    ?_ ?_
  · show s'.clock < _
    rw [hclock', hexpire]
    decide
  · rw [howner]
    exact fun hsame => absurd hsame.1 (by decide)

/-- With a huge maximal duration the expiry wraps around: the lease is granted and
    stored with expiry zero. -/
theorem expiry_wraps_around : ∃ cs s record,
    LeaseRun { maxLeaseMs := 0xFFFFFFFFFFFFFFFF } (fun _ _ => True) noLeases cs s ∧
      s.db.lookup (.fileArchiveState 2) = some record ∧ record.state = .archiving ∧
      record.leaseExpireTsMs = 0 ∧ ¬ Shaped record := by
  have hrun : (((firstClaim 18446744073709550616).prog { maxLeaseMs := 0xFFFFFFFFFFFFFFFF }).run
      (MdsOp.timedExec countingOracle ()) noLeases).map (fun p =>
        (p.2.db.lookup (.fileArchiveState 2)).map (fun r => (r.state, r.leaseExpireTsMs))) =
      some (some (.archiving, 0)) := by
    decide +kernel
  obtain ⟨⟨reply, s⟩, hclaim, hrecord⟩ := Option.map_eq_some_iff.mp hrun
  obtain ⟨record, hstored, heq⟩ := Option.map_eq_some_iff.mp hrecord
  obtain ⟨hstate, hexpire⟩ := Prod.mk.inj heq
  refine ⟨_, s, record, .snoc .nil (runsTimed_of_run hclaim) trivial, hstored, hstate, hexpire,
    fun hshaped => ?_⟩
  have hpos := (hshaped.1 hstate).2
  rw [hexpire] at hpos
  exact absurd hpos (by decide)

end Zb.Mds
