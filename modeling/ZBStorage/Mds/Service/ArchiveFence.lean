-- SUMMARY: Optical archive commits against other writers: one takes effect once, under its lease.
import ZBStorage.Mds.Service.OpticalArchive
import ZBStorage.Mds.Storage.NamespaceConcurrency

/-!
# Fenced archive commits

The lease of a file is checked twice and the inode read twice before the batch of
an archive commit is written. The lease cannot change after its second check,
which happens under the mutex of the leases; the inode can, but then the batch is
refused. The second read of the inode only serves to build the batch, and if it
finds nothing the batch installs no location.
-/

namespace Zb.Mds

open Zb.Rpc Bytes Handler Prog ArchiveLeaseManager

/-! ## Lease calls -/

/-- The operations of a lease call under its mutex. -/
def LeaseOp : MdsOp → Prop
  | .get _ | .nowMilliseconds | .generateLeaseId | .put (.fileArchiveState _) _ => True
  | .writeBatch batch => ∃ id, batch = [.delete (.fileArchiveState id)]
  | _ => False

/-- The operations of a lease call. It writes leases only, and under the mutex. -/
def LeaseRule (h : MdsHistory) : MdsOp → Prop
  | .lock .lease | .unlock .lease => True
  | o => LeaseOp o ∧ ∃ d, Holds .lease h d

section Lease

variable {α : Type}

theorem follows_withLeaseLock {body : Handler α} (hbody : Only LeaseOp body) {h : MdsHistory} :
    Follows LeaseRule (withLock .lease body) (fun _ _ => True) h := by
  refine follows_withLock trivial (fun _ => trivial) (hbody.follows ?_ fun _ _ _ => trivial)
  intro d o hd ho
  have hheld : Holds .lease (h ++ [⟨.lock .lease, ()⟩] ++ d) d := by
    refine ⟨⟨h, by simp⟩, fun hmem => ?_⟩
    exact hd _ hmem
  cases o with
  | lock m => exact ho.elim
  | unlock m => exact ho.elim
  | _ => exact ⟨ho, d, hheld⟩

theorem only_loadOrInitRecordLocked (inodeId : UInt64) :
    Only LeaseOp (loadOrInitRecordLocked inodeId) := by
  refine ⟨trivial, fun r => ?_⟩
  cases r with
  | ok record => trivial
  | error e =>
      show Only LeaseOp (ite _ _ _)
      split
      · trivial
      · exact ⟨trivial, fun _ => trivial⟩

theorem only_persistRecordLocked (record : ArchiveLeaseRecord) :
    Only LeaseOp (persistRecordLocked record) := by
  unfold persistRecordLocked
  split
  · trivial
  · exact ⟨trivial, fun _ => trivial⟩

theorem only_repairState (now : UInt64) (record : ArchiveLeaseRecord) :
    Only LeaseOp (repairState now record) := by
  unfold repairState
  split
  · refine (only_persistRecordLocked _).bind fun r => ?_
    cases r <;> trivial
  · trivial

theorem follows_claim (options : Options) (request : ClaimArchiveTaskRequest) :
    Follows LeaseRule (claim options request) (fun _ _ => True) [] := by
  unfold claim
  split
  · trivial
  refine follows_withLeaseLock ((only_loadOrInitRecordLocked _).bind fun r => ?_)
  cases r with
  | error e => trivial
  | ok record =>
  refine ⟨trivial, fun now => (only_repairState now record).bind fun r => ?_⟩
  cases r with
  | error e => trivial
  | ok record =>
  simp only
  split
  · trivial
  · refine ⟨trivial, fun leaseId => (only_persistRecordLocked _).bind fun r => ?_⟩
    cases r <;> trivial

theorem follows_renew (options : Options) (request : RenewArchiveLeaseRequest) :
    Follows LeaseRule (renew options request) (fun _ _ => True) [] := by
  unfold renew
  split
  · trivial
  refine follows_withLeaseLock ((only_loadOrInitRecordLocked _).bind fun r => ?_)
  cases r with
  | error e => trivial
  | ok record =>
  refine ⟨trivial, fun now => ?_⟩
  show Only LeaseOp (ite _ _ _)
  split
  · trivial
  · refine (only_persistRecordLocked _).bind fun r => ?_
    cases r <;> trivial

theorem follows_commit (request : CommitArchiveTaskRequest) :
    Follows LeaseRule (commit request) (fun _ _ => True) [] := by
  unfold commit
  split
  · trivial
  refine follows_withLeaseLock ((only_loadOrInitRecordLocked _).bind fun r => ?_)
  cases r with
  | error e => trivial
  | ok record =>
  refine ⟨trivial, fun now => ?_⟩
  show Only LeaseOp (ite _ _ _)
  split
  · trivial
  show Only LeaseOp (ite _ _ _)
  split
  · refine ⟨⟨_, rfl⟩, fun r => ?_⟩
    cases r <;> trivial
  · refine (only_persistRecordLocked _).bind fun r => ?_
    cases r <;> trivial

end Lease

/-! ## Calls -/

/-- No outcome of the operation writes a record of an archive operation. -/
def RecordsNoArchive (o : MdsOp) : Prop :=
  ∀ r, ∀ x ∈ o.writes r, ∀ operationId, x.key ≠ .modelOpticalArchiveCommit operationId

/-- Any other code that writes the store: it may write everything but the records
    of archive operations. -/
structure InodeWriter where
  prog : Handler Unit
  follows : Follows (fun _ o => RecordsNoArchive o) prog (fun _ _ => True) []

/-- Attribute updates, `PutInode` and migrations are such code. -/
def LocationCall.writer (c : LocationCall) : InodeWriter where
  prog := c.prog
  follows := by
    refine c.follows_prog.weaken fun h o ho r x hx => ?_
    cases o with
    | put k v =>
        cases r with
        | error e => cases hx
        | ok u =>
            cases List.mem_singleton.mp hx
            cases k with
            | inode id => simp [BatchEntry.key]
            | _ => exact ho.elim
    | writeBatchIfValueEquals k expected batch =>
        cases k with
        | inode id =>
            rcases r with e | (_ | _)
            · cases hx
            · cases hx
            · rcases ho with rfl | ⟨location, record, encoded, -, rfl⟩
              · cases hx
              · simp only [MdsOp.writes, diskLocationBatch, List.mem_cons, List.not_mem_nil,
                  or_false] at hx
                rcases hx with rfl | rfl | rfl <;> simp [BatchEntry.key]
        | _ => exact ho.elim
    | writeBatch batch => exact ho.elim
    | _ => cases hx

/-- So are creations, renames and removals. -/
def TreeCall.writer (c : TreeCall) : InodeWriter where
  prog := do discard c.prog
  follows := by
    refine follows_bind.mpr ((c.follows_prog.mono fun _ _ _ => trivial).weaken fun h o ho r x hx => ?_)
    cases o with
    | put k v =>
        cases r with
        | error e => cases hx
        | ok u =>
            obtain rfl : k = .nextInode := ho
            cases List.mem_singleton.mp hx
            simp [BatchEntry.key]
    | writeBatch batch =>
        cases r with
        | error e => cases hx
        | ok u =>
            cases ho <;>
              simp only [MdsOp.writes, createBatch, renameBatch, removeBatch, List.mem_cons,
                List.not_mem_nil, or_false] at hx <;>
              rcases hx with rfl | rfl | rfl <;> simp [BatchEntry.key]
    | writeBatchIfValueEquals k expected batch => exact ho.elim
    | _ => cases hx

/-- The calls that meet at a file to be archived. -/
inductive ArchiveCall
  | archive (request : ModelOpticalArchiveRequest) (physical : Bool)
  | claim (options : Options) (request : ClaimArchiveTaskRequest)
  | renew (options : Options) (request : RenewArchiveLeaseRequest)
  | commit (request : CommitArchiveTaskRequest)
  | write (writer : InodeWriter)

namespace ArchiveCall

/-- Archive calls keep their reply. -/
def prog : ArchiveCall → Handler (Option ModelOpticalArchiveReply)
  | .archive request physical => do return some (← handleOpticalArchive request physical)
  | .claim options request => do
      discard (ArchiveLeaseManager.claim options request)
      return none
  | .renew options request => do
      discard (ArchiveLeaseManager.renew options request)
      return none
  | .commit request => do
      discard (ArchiveLeaseManager.commit request)
      return none
  | .write writer => do
      writer.prog
      return none

def Rule : ArchiveCall → MdsHistory → MdsOp → Prop
  | .archive request _ => ArchiveRule request
  | .claim _ _ | .renew _ _ | .commit _ => LeaseRule
  | .write _ => fun _ o => RecordsNoArchive o

def Return : ArchiveCall → Option ModelOpticalArchiveReply → MdsHistory → Prop
  | .archive _ _, some reply, h => ArchiveReturn reply h
  | _, _, _ => True

theorem follows_prog (c : ArchiveCall) : Follows c.Rule c.prog c.Return [] := by
  cases c with
  | archive request physical =>
      exact follows_bind.mpr ((follows_handleOpticalArchive request physical).mono
        fun _ _ hreturn => hreturn)
  | claim options request =>
      exact follows_bind.mpr (follows_bind.mpr ((follows_claim options request).mono
        fun _ _ _ => trivial))
  | renew options request =>
      exact follows_bind.mpr (follows_bind.mpr ((follows_renew options request).mono
        fun _ _ _ => trivial))
  | commit request =>
      exact follows_bind.mpr (follows_bind.mpr ((follows_commit request).mono
        fun _ _ _ => trivial))
  | write writer => exact follows_bind.mpr (writer.follows.mono fun _ _ _ => trivial)

end ArchiveCall

/-! ## What calls write -/

variable {ι : Type}

theorem ArchiveCommit.holds_lease {request : ModelOpticalArchiveRequest} {h : MdsHistory}
    {expected : Bytes} {batch : WriteBatch} (hcommit : ArchiveCommit request h expected batch) :
    ∃ source d, request.expectedSource = some source ∧ Holds .lease h d ∧
      LeaseRead request source d := by
  obtain ⟨source, target, d, d', hsource, -, -, -, -, -, -, -, -, hheld, hlease⟩ := hcommit.seen
  exact ⟨source, d', hsource, hheld, hlease⟩

/-- The records of operations are written by archive calls, and not deleted. -/
theorem archive_of_record {c : ArchiveCall} {h : MdsHistory} {e : MdsEvent ι}
    (hrule : c.Rule h e.op) {operationId : Bytes} {x : BatchEntry} (hx : x ∈ writesOf e)
    (hkey : x.key = .modelOpticalArchiveCommit operationId) :
    ∃ request physical expected batch, c = .archive request physical ∧
      request.operationId = operationId ∧ ArchiveCommit request h expected batch ∧
      x = .put (.modelOpticalArchiveCommit operationId) { request with commit := true } := by
  have hlease : ∀ {h}, LeaseRule h e.op → False := by
    intro h hrule
    obtain ⟨i, o, r⟩ := e
    cases o with
    | put k v =>
        cases r with
        | error e => cases hx
        | ok u =>
            cases List.mem_singleton.mp hx
            cases hkey
            exact hrule.1
    | writeBatch batch =>
        cases r with
        | error e => cases hx
        | ok u =>
            obtain ⟨⟨id, rfl⟩, -⟩ := hrule
            cases List.mem_singleton.mp hx
            cases hkey
    | writeBatchIfValueEquals k expected batch => exact hrule.1
    | _ => cases hx
  cases c with
  | archive request physical =>
      obtain ⟨expected, batch, hcommit, he⟩ := archive_write hrule (List.ne_nil_of_mem hx)
      obtain ⟨source, target, d, d', -, -, -, -, -, -, -, -, ⟨saved, hsaved, rfl⟩, -, -⟩ :=
        hcommit.seen
      refine ⟨request, physical, expected, archiveBatch request saved, rfl, ?_⟩
      rw [he] at hx
      have hmem : x ∈ archiveBatch request saved := hx
      simp only [archiveBatch, List.mem_append, List.mem_singleton] at hmem
      rcases hmem with (hmem | rfl) | rfl
      · rcases hsaved with ⟨-, rfl⟩ | ⟨data, record, entry, encoded, -, -, -, rfl⟩
        · cases hmem
        · simp only [opticalLocationBatch, List.mem_cons, List.not_mem_nil, or_false] at hmem
          rcases hmem with rfl | rfl | rfl <;> cases hkey
      · cases hkey
        exact ⟨rfl, hcommit, rfl⟩
      · cases hkey
  | claim options request => exact (hlease hrule).elim
  | renew options request => exact (hlease hrule).elim
  | commit request => exact (hlease hrule).elim
  | write writer => exact absurd hkey (hrule _ _ hx _)

/-! ## Fenced runs -/

variable [DecidableEq ι]

/-- A read of the inode that found nothing, or failed. -/
def failedRead (inodeId : UInt64) : (Σ o : MdsOp, o.Res) → Bool
  | ⟨.get (.inode id), .error _⟩ => decide (id = inodeId)
  | _ => false

def MetaKey.isLease : MetaKey → Bool
  | .fileArchiveState _ => true
  | _ => false

/-- An archive call writes only if all its reads found the inode. Other code
    deletes a lease only while no call is busy with the leases. -/
def ArchiveCall.Fenced (c : ArchiveCall) (w : MdsWorld ι) (i : ι) (o : MdsOp) (r : o.Res) : Prop :=
  match c with
  | .archive request _ =>
      o.writes r ≠ [] → ∀ x ∈ own i w.trace, failedRead request.inodeId x = false
  | .write _ =>
      (∃ x ∈ o.writes r, x.key.isLease = true) →
        w.state.owner .lease = none ∨ w.state.owner .lease = some i
  | _ => True

instance (c : ArchiveCall) (w : MdsWorld ι) (i : ι) (o : MdsOp) (r : o.Res) :
    Decidable (c.Fenced w i o r) :=
  match c with
  | .archive request _ => inferInstanceAs (Decidable (o.writes r ≠ [] →
      ∀ x ∈ own i w.trace, failedRead request.inodeId x = false))
  | .write _ => inferInstanceAs (Decidable ((∃ x ∈ o.writes r, x.key.isLease = true) →
      w.state.owner .lease = none ∨ w.state.owner .lease = some i))
  | .claim _ _ | .renew _ _ | .commit _ => inferInstanceAs (Decidable True)

/-- What holds of the store, and of the call's own history, at the instant an
    archive takes effect. -/
structure Effect (request : ModelOpticalArchiveRequest) (h : MdsHistory) (db : MetaMap)
    (batch : WriteBatch) : Prop where
  /-- one batch installs the location, records the operation and drops the lease -/
  installs : ∃ target encoded record, request.target = some target ∧
    batch = archiveBatch request (opticalLocationBatch request.inodeId encoded target) ∧
    decodeUnifiedInodeRecord encoded = .ok record ∧
    record.storageTier = UnifiedStorageTier.kOptical ∧
    record.fileArchiveState = InodeArchiveState.archived.toUInt32
  /-- the lease is held, and was not expired in this critical section -/
  leased : ∃ source lease now d, request.expectedSource = some source ∧
    db.lookup (.fileArchiveState request.inodeId) = some lease ∧
    heldBy lease source.nodeId source.diskId request.sourceLeaseId = true ∧
    Holds .lease h d ∧ ⟨.nowMilliseconds, now⟩ ∈ d ∧ now < lease.leaseExpireTsMs
  /-- the inode is the one whose version and size were checked -/
  checked : ∃ expected attr, db.lookup (.inode request.inodeId) = some expected ∧
    ⟨.get (.inode request.inodeId), .ok expected⟩ ∈ h ∧
    decodeUnifiedInodeAttr expected = .ok attr ∧ attr.version = request.sourceVersion ∧
    attr.size = request.size
  /-- the operation has not taken effect before -/
  fresh : db.lookup (.modelOpticalArchiveCommit request.operationId) = none

section Runs

variable {calls : ι → ArchiveCall} {s₀ : MdsState ι} {w : MdsWorld ι}
  {pool : ι → Handler (Option ModelOpticalArchiveReply)}

/-- The runs considered. -/
abbrev FencedSteps (calls : ι → ArchiveCall) (s₀ : MdsState ι) (w : MdsWorld ι)
    (pool : ι → Handler (Option ModelOpticalArchiveReply)) : Prop :=
  Steps (mdsMachine fun w i o r => (calls i).Fenced w i o r) s₀ (fun i => (calls i).prog) w pool

/-- While a call holds the mutex of the archives, no other records an operation. -/
theorem record_guarded (h : FencedSteps calls s₀ w pool) {e : MdsEvent ι}
    (hrule : (calls e.tid).Rule (own e.tid w.trace) e.op) {operationId : Bytes}
    (hkey : .modelOpticalArchiveCommit operationId ∈ (writesOf e).map BatchEntry.key) :
    w.state.owner .fileMigration = some e.tid := by
  obtain ⟨x, hx, hkey⟩ := List.mem_map.mp hkey
  obtain ⟨request, physical, expected, batch, -, -, hcommit, -⟩ := archive_of_record hrule hx hkey
  obtain ⟨d, hheld, -⟩ := hcommit.holds_fileMigration
  exact Steps.owner_of_holds h hheld

/-- While a call holds the mutex of the leases, no other writes one. -/
theorem lease_guarded (h : FencedSteps calls s₀ w pool) {e : MdsEvent ι}
    (hrule : (calls e.tid).Rule (own e.tid w.trace) e.op)
    (hmay : (calls e.tid).Fenced w e.tid e.op e.res) {id : UInt64}
    (hkey : .fileArchiveState id ∈ (writesOf e).map BatchEntry.key) :
    w.state.owner .lease = none ∨ w.state.owner .lease = some e.tid := by
  obtain ⟨x, hx, hkey⟩ := List.mem_map.mp hkey
  have hlease : LeaseRule (own e.tid w.trace) e.op → w.state.owner .lease = some e.tid := by
    intro hrule
    obtain ⟨d, hheld⟩ : ∃ d, Holds .lease (own e.tid w.trace) d := by
      obtain ⟨i, o, r⟩ := e
      cases o with
      | lock m => cases hx
      | unlock m => cases hx
      | _ => exact hrule.2
    exact Steps.owner_of_holds h hheld
  cases hc : calls e.tid with
  | archive request physical =>
      rw [hc] at hrule
      obtain ⟨expected, batch, hcommit, -⟩ := archive_write hrule (List.ne_nil_of_mem hx)
      obtain ⟨source, d, -, hheld, -⟩ := hcommit.holds_lease
      exact .inr (Steps.owner_of_holds h hheld)
  | write writer =>
      rw [hc] at hmay
      exact hmay ⟨x, hx, by rw [hkey]; rfl⟩
  | _ =>
      rw [hc] at hrule
      exact .inr (hlease hrule)

/-- What a call has seen when it writes still holds then. -/
theorem effect_of_commit (h : FencedSteps calls s₀ w pool) {i : ι}
    {request : ModelOpticalArchiveRequest} {expected : Bytes} {batch : WriteBatch}
    (hcommit : ArchiveCommit request (own i w.trace) expected batch)
    (hmatched : w.state.db.lookup (.inode request.inodeId) = some expected)
    (hfound : ∀ x ∈ own i w.trace, failedRead request.inodeId x = false) :
    Effect request (own i w.trace) w.state.db batch := by
  have hrule : ∀ {t₁ e t₂}, w.trace = t₁ ++ e :: t₂ →
      (calls e.tid).Rule (own e.tid t₁) e.op := fun hsplit =>
    h.rule_of_event (fun i => (calls i).follows_prog) hsplit
  constructor
  case installs =>
    obtain ⟨source, target, d, d', -, htarget, hown, -, -, -, -, -, ⟨saved, hsaved, rfl⟩, -, -⟩ :=
      hcommit.seen
    rcases hsaved with ⟨⟨e, hmem⟩, -⟩ | ⟨data, record, entry, encoded, -, -, henc, rfl⟩
    · have hmissed : ⟨.get (.inode request.inodeId), .error e⟩ ∈ own i w.trace := by
        rw [hown]
        exact List.mem_cons_of_mem _ hmem
      exact absurd (hfound _ hmissed) (by simp [failedRead])
    · refine ⟨target, encoded, _, htarget, rfl, decode_encode henc, ?_, ?_⟩
      · cases entry <;> rfl
      · rfl
  case leased =>
    obtain ⟨source, d, hsource, hheld, hread⟩ := hcommit.holds_lease
    obtain ⟨lease, now, rfl, hby, hlt⟩ := hread
    refine ⟨source, lease, now, _, hsource, ?_, hby, hheld, by simp, hlt⟩
    have hsilent : Silent [⟨.get (.fileArchiveState request.inodeId), .ok lease⟩,
        ⟨.nowMilliseconds, now⟩] := silent_of_checks (by simp [ArchiveOp])
    rcases Steps.read_of_holds h hheld hsilent List.mem_cons_self
        fun hsteps hsplit hmay hkey => lease_guarded hsteps (hrule hsplit) hmay hkey with
      ⟨e, -, he⟩ | hnow
    · cases he
    · exact MetaMap.read_eq_ok.mp hnow.symm
  case checked =>
    obtain ⟨source, target, d, d', -, -, hown, -, -, hmem, ⟨attr, hdec, hmatch⟩, -⟩ := hcommit.seen
    obtain ⟨hversion, hsize⟩ := of_decide_eq_true hmatch
    refine ⟨expected, attr, hmatched, ?_, hdec, hversion, hsize⟩
    rw [hown]
    exact List.mem_cons_of_mem _ hmem
  case fresh =>
    obtain ⟨d, hheld, hsilent, hmem, -⟩ := hcommit.holds_fileMigration
    rcases Steps.read_of_holds h hheld hsilent hmem fun hsteps hsplit _ hkey =>
        .inr (record_guarded hsteps (hrule hsplit) hkey) with ⟨e, he, herr⟩ | hnow
    · cases herr
      exact absurd rfl he
    · exact (MetaMap.read_eq_error.mp hnow.symm).1

theorem effect_of_event (h : FencedSteps calls s₀ w pool) {t₁ t₂ : List (MdsEvent ι)}
    {e : MdsEvent ι} (hsplit : w.trace = t₁ ++ e :: t₂) {request : ModelOpticalArchiveRequest}
    {physical : Bool} (hc : calls e.tid = .archive request physical) (hwrites : writesOf e ≠ []) :
    Effect request (own e.tid t₁) (s₀.db.write (t₁.flatMap writesOf)) (writesOf e) := by
  have hrule := h.rule_of_event (fun i => (calls i).follows_prog) hsplit
  rw [hc] at hrule
  obtain ⟨expected, batch, hcommit, he⟩ := archive_write hrule hwrites
  obtain ⟨w₁, pool₁, k, s, hsteps, rfl, -, hsem, hmay⟩ := h.before_event hsplit
  rw [← Steps.db_eq hsteps]
  have hmay : (calls e.tid).Fenced w₁ e.tid e.op e.res := hmay
  rw [hc] at hmay
  have hbatch : writesOf e = batch := by rw [he]; rfl
  rw [hbatch]
  refine effect_of_commit hsteps hcommit ?_ (hmay hwrites)
  generalize e.tid = i at he
  subst he
  rcases hsem with ⟨hmatched, -, -⟩ | ⟨-, -, hr, -⟩ | ⟨⟨_, -, hr⟩, -⟩
  · exact hmatched
  · cases hr
  · cases hr

theorem silent_before_write (h : FencedSteps calls s₀ w pool) {t₁ t₂ : List (MdsEvent ι)}
    {e : MdsEvent ι} (hsplit : w.trace = t₁ ++ e :: t₂) {request : ModelOpticalArchiveRequest}
    {physical : Bool} (hc : calls e.tid = .archive request physical) (hwrites : writesOf e ≠ []) :
    Silent (own e.tid t₁) := by
  have hrule := h.rule_of_event (fun i => (calls i).follows_prog) hsplit
  rw [hc] at hrule
  obtain ⟨expected, batch, hcommit, -⟩ := archive_write hrule hwrites
  obtain ⟨source, target, d, d', -, -, hown, hchecks, -⟩ := hcommit.seen
  rw [hown]
  exact silent_cons.mpr ⟨rfl, silent_of_checks hchecks⟩

/-- An operation that took effect is recorded from then on. -/
theorem recorded_after {t₁ t₂ : List (MdsEvent ι)} {e : MdsEvent ι}
    (h : FencedSteps calls s₀ w pool) (hsplit : w.trace = t₁ ++ e :: t₂)
    {request : ModelOpticalArchiveRequest} {physical : Bool}
    (hc : calls e.tid = .archive request physical) (hwrites : writesOf e ≠ []) :
    w.state.db.lookup (.modelOpticalArchiveCommit request.operationId) ≠ none := by
  obtain ⟨target, encoded, record, -, hbatch, -⟩ := (effect_of_event h hsplit hc hwrites).installs
  rw [Steps.db_eq h, hsplit, List.flatMap_append, List.flatMap_cons, MetaMap.write_append,
    MetaMap.write_append]
  intro hnone
  rcases MetaMap.lookup_write ((s₀.db.write (t₁.flatMap writesOf)).write (writesOf e))
      (t₂.flatMap writesOf) (.modelOpticalArchiveCommit request.operationId) with hsame | hset
  · rw [hsame, hbatch, archiveBatch, opticalLocationBatch] at hnone
    simp [BatchEntry.apply] at hnone
  · -- no event deletes the record of an operation
    rw [hnone] at hset
    obtain ⟨e', he', hdelete⟩ := List.mem_flatMap.mp hset
    obtain ⟨u₁, u₂, rfl⟩ := List.append_of_mem he'
    have hrule := h.rule_of_event (fun i => (calls i).follows_prog)
      (hsplit.trans (List.append_assoc t₁ (e :: u₁) (e' :: u₂)).symm)
    obtain ⟨_, _, _, _, -, -, -, hput⟩ := archive_of_record hrule hdelete rfl
    cases hput

/-- Archive commits are fenced and take effect once. When a call writes, it
    writes one batch, and then the operation is new, the lease held and the inode
    as checked; nobody records the operation again. A call that answers anything
    but "committed" has written nothing. -/
theorem archives_fenced (h : FencedSteps calls s₀ w pool) :
    (∀ t₁ e t₂ request physical, w.trace = t₁ ++ e :: t₂ →
      calls e.tid = .archive request physical → writesOf e ≠ [] →
      Effect request (own e.tid t₁) (s₀.db.write (t₁.flatMap writesOf)) (writesOf e) ∧
      Silent (own e.tid t₁) ∧ Silent (own e.tid t₂) ∧
      ∀ e' ∈ t₂, .modelOpticalArchiveCommit request.operationId ∉
        (writesOf e').map BatchEntry.key) ∧
    ∀ i request physical reply, calls i = .archive request physical →
      pool i = .ret (some reply) →
      reply = { status := ⟨.ok, "committed"⟩ } ∨ Silent (own i w.trace) := by
  constructor
  · intro t₁ e t₂ request physical hsplit hc hwrites
    refine ⟨effect_of_event h hsplit hc hwrites, silent_before_write h hsplit hc hwrites, ?_, ?_⟩
    · rintro ⟨o, r⟩ hmem
      by_contra hagain
      obtain ⟨u₁, u₂, rfl⟩ := List.append_of_mem (mem_own.mp hmem)
      have hbefore := silent_before_write h
        (hsplit.trans (List.append_assoc t₁ (e :: u₁) _).symm) hc hagain
      exact hwrites (hbefore ⟨e.op, e.res⟩ (mem_own.mpr (by simp)))
    · intro e' he' hkey
      obtain ⟨u₁, u₂, rfl⟩ := List.append_of_mem he'
      have hsplit' : w.trace = (t₁ ++ e :: u₁) ++ e' :: u₂ := by simp [hsplit]
      obtain ⟨x, hx, hkey⟩ := List.mem_map.mp hkey
      obtain ⟨request', physical', _, _, hc', hop, -, -⟩ := archive_of_record
        (h.rule_of_event (fun i => (calls i).follows_prog) hsplit') hx hkey
      have hfresh := (effect_of_event h hsplit' hc' (List.ne_nil_of_mem hx)).fresh
      obtain ⟨w₁, pool₁, -, -, hsteps, htrace, -⟩ := h.before_event hsplit'
      rw [hop, ← htrace, ← Steps.db_eq hsteps] at hfresh
      exact recorded_after hsteps htrace hc hwrites hfresh
  · intro i request physical reply hc hret
    have hfollows := h.follows (fun i => (calls i).follows_prog) i
    rw [hret, hc] at hfollows
    rcases hfollows with hsilent | ⟨hreply, -⟩
    · exact .inr hsilent
    · exact .inl hreply

end Runs

/-- An archive and a renewal of its lease. -/
def archiveAndRenewal : Bool → ArchiveCall
  | false => .archive sampleManifest false
  | true => .renew {} { nodeId := firstDisk.nodeId, leaseId := ofAscii "lease-1", inodeId := 2 }

/-- The lease is renewed between its two checks; the archive takes effect. -/
theorem archives_fenced_after_renewal : ∃ w pool,
    FencedSteps archiveAndRenewal leasedState w pool ∧
      pool false = .ret (some { status := ⟨.ok, "committed"⟩ }) ∧
      ∃ t₁ e t₂, w.trace = t₁ ++ e :: t₂ ∧ e.tid = false ∧
        Effect sampleManifest (own false t₁) (leasedState.db.write (t₁.flatMap writesOf))
          (writesOf e) := by
  have hrun : (schedule archiveRegistry (fun w i o r => (archiveAndRenewal i).Fenced w i o r)
      leasedState (fun i => (archiveAndRenewal i).prog)
      (List.replicate 12 false ++ List.replicate 5 true ++ List.replicate 8 false)).map
        (fun p => decide ((p.2 false).result? = some (some { status := ⟨.ok, "committed"⟩ }) ∧
          ∃ e ∈ p.1.trace, e.tid = false ∧ writesOf e ≠ [])) = some true := by
    decide +kernel
  obtain ⟨⟨w, pool⟩, hw, hdec⟩ := Option.map_eq_some_iff.mp hrun
  obtain ⟨hreply, e, he, htid, hwrites⟩ := of_decide_eq_true hdec
  have hsteps := steps_of_schedule hw
  obtain ⟨t₁, t₂, hsplit⟩ := List.append_of_mem he
  have heffect := (archives_fenced hsteps).1 t₁ e t₂ sampleManifest false hsplit (by rw [htid]; rfl)
    hwrites
  rw [htid] at heffect
  exact ⟨w, pool, hsteps, eq_ret_of_result? hreply, t₁, e, t₂, hsplit, htid, heffect.1⟩

/-- The read for the batch fails, and the batch is written without a location: the
    archive is recorded and answers "committed", the lease is gone, and the file
    is still on disk. -/
theorem archive_without_location : ∃ w pool,
    Steps (mdsMachine fun _ _ _ _ => True) leasedState (fun i => (archiveAndRenewal i).prog) w pool ∧
      pool false = .ret (some { status := ⟨.ok, "committed"⟩ }) ∧
      w.state.db.lookup (.modelOpticalArchiveCommit sampleManifest.operationId) =
        some sampleManifest ∧
      w.state.db.lookup (.fileArchiveState 2) = none ∧
      w.state.db.lookup (.opticalFileLocation 2) = none ∧
      w.state.db.lookup (.inode 2) = leasedState.db.lookup (.inode 2) := by
  have hrun : ((schedule archiveRegistry (fun _ _ _ _ => True) leasedState
      (fun i => (archiveAndRenewal i).prog) (List.replicate 12 false)).bind fun p =>
        (failRead false p.1 p.2).bind fun p =>
          scheduleFrom archiveRegistry (fun _ _ _ _ => True) p.1 p.2 (List.replicate 6 false)).map
        (fun p => decide ((p.2 false).result? = some (some { status := ⟨.ok, "committed"⟩ }) ∧
          p.1.state.db.lookup (.modelOpticalArchiveCommit sampleManifest.operationId) =
            some sampleManifest ∧
          p.1.state.db.lookup (.fileArchiveState 2) = none ∧
          p.1.state.db.lookup (.opticalFileLocation 2) = none ∧
          p.1.state.db.lookup (.inode 2) = leasedState.db.lookup (.inode 2))) = some true := by
    decide +kernel
  obtain ⟨⟨w, pool⟩, hw, hdec⟩ := Option.map_eq_some_iff.mp hrun
  obtain ⟨⟨w₁, pool₁⟩, hw₁, hw⟩ := Option.bind_eq_some_iff.mp hw
  obtain ⟨⟨w₂, pool₂⟩, hw₂, hw⟩ := Option.bind_eq_some_iff.mp hw
  have hsteps := steps_of_failRead (steps_of_schedule hw₁) (fun _ => trivial) hw₂
  obtain ⟨hreply, hrest⟩ := of_decide_eq_true hdec
  exact ⟨w, pool, steps_of_scheduleFrom hsteps hw, eq_ret_of_result? hreply, hrest⟩

end Zb.Mds
