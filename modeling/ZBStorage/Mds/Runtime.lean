-- SUMMARY: The atomic operations of the metadata server's handlers, with their semantics.
import ZBStorage.Lib.Interleaving
import ZBStorage.Mds.Storage.RocksMetaStore

/-!
# Handlers as programs

Every call of the store, every lock and unlock of a mutex, every reading of a
clock and every question to another component of the server is one atomic
operation. `MdsOp.Sem` says what an operation may do: a store call may also fail,
with a message and without an effect, and the other components may answer
anything.
-/

namespace Zb.Mds

open Zb.Rpc Bytes

/-! ## Other components -/

/-- What the handlers read of a `CmsNodeCatalogEntry`. -/
structure CmsNodeCatalogEntry where
  kind : ManagedNodeKind := .unknown
  executionMode : ManagedExecutionMode := .unknown
  lifecycle : ManagedLifecycleState := .unknown
  /-- `none` without a readiness report, else whether its metadata is ready -/
  readiness : Option Bool := none
  serviceAddress : Bytes := []
  instanceGeneration : UInt64 := 0
  compactId : UInt32 := 0
  health : ManagedHealthState := .unknown
  administrativeState : ManagedAdministrativeState := .unknown
  inventoryReady : Bool := false

/-- A question to a component outside the store. -/
inductive Query
  /-- the archived namespaces behind `MetaStoreRouter::GetInode` -/
  | coldInode (inodeId : UInt64)
  /-- the archived namespaces behind `MetaStoreRouter::ResolvePath` -/
  | coldPath (path : Bytes)
  /-- `LoadMasstreeOpticalFileLocation` -/
  | masstreeLocation (inodeId : UInt64)
  | isWriteAdmitted (nodeId : Bytes)
  | getCommittedNode (nodeId : Bytes)
  | resolveDiskId (nodeId : Bytes) (diskId : UInt32)
  | resolveNode (nodeId : Bytes)
  | resolveOptical (location : OpticalFileLocation) (packed : Bool)
  | verifyPhysicalArchive (request : ModelOpticalArchiveRequest)
  | getInstanceGeneration (nodeId : Bytes)
  /-- `ManageLibraryHandoff` at an endpoint of a handoff -/
  | handoffReceipt (endpoint : OpticalFileLocation)
  /-- the checks of an import request and `EnsureTemplateManifest` -/
  | loadTemplate (request : TemplateImportRequest)
  /-- import, statistics and publication of a generation with inodes `first` to `last` -/
  | publishGeneration (request : TemplateImportRequest) (first last : UInt64)

/-- Failing answers carry the error, which is empty for an absent inode. -/
abbrev Query.Answer : Query → Type
  | .coldInode _ => Except String InodeAttr
  -- none for a path that no archived namespace covers
  | .coldPath _ => Option (Except String (UInt64 × InodeAttr))
  | .masstreeLocation _ => Except String OpticalFileLocation
  | .isWriteAdmitted _ => Bool
  | .getCommittedNode _ => Option CmsNodeCatalogEntry
  | .resolveDiskId _ _ => Option Bytes
  | .resolveNode _ => Option Bytes × Option UInt64
  | .resolveOptical _ _ => Except String OpticalFileLocation
  | .verifyPhysicalArchive _ => Except String Unit
  | .getInstanceGeneration _ => Option UInt64
  -- without a channel there is no answer, and without a receipt no record
  | .handoffReceipt _ => Option (Option OpticalLibraryHandoffRecord)
  | .loadTemplate _ => Except String TemplateManifest
  | .publishGeneration _ _ _ => Except String Unit

/-! ## Operations -/

inductive Mutex
  /-- `RocksNamespaceStore::inode_id_mu_` -/
  | inodeId
  /-- `MdsServiceImpl::file_migration_mu_` -/
  | fileMigration
  /-- `ArchiveLeaseManager::mu_` -/
  | lease
  /-- `MasstreeImportService::import_mu_` -/
  | importing
  deriving DecidableEq

inductive MdsOp
  | get (k : MetaKey)
  | put (k : MetaKey) (v : k.Value)
  | writeBatch (batch : WriteBatch)
  | writeBatchIfValueEquals (k : MetaKey) (expected : k.Value) (batch : WriteBatch)
  | iterate (parent : UInt64)
  | lock (m : Mutex)
  | unlock (m : Mutex)
  | nowSeconds
  | nowMilliseconds
  | generateLeaseId
  | ask (q : Query)

abbrev MdsOp.Res : MdsOp → Type
  | .get k => Except String k.Value
  | .put _ _ | .writeBatch _ => Except String Unit
  | .writeBatchIfValueEquals _ _ _ => Except String Bool
  | .iterate _ => Except String (List (Bytes × Bytes))
  | .lock _ | .unlock _ => Unit
  | .nowSeconds | .nowMilliseconds => UInt64
  | .generateLeaseId => Bytes
  | .ask q => q.Answer

/-- A handler that answers `α`. -/
abbrev Handler (α : Type) := Prog MdsOp MdsOp.Res α

namespace Handler

def op (o : MdsOp) : Handler o.Res := .call o .ret

def get (k : MetaKey) : Handler (Except String k.Value) := op (.get k)
def put (k : MetaKey) (v : k.Value) : Handler (Except String Unit) := op (.put k v)
def writeBatch (batch : WriteBatch) : Handler (Except String Unit) :=
  op (.writeBatch batch)
def writeBatchIfValueEquals (k : MetaKey) (expected : k.Value) (batch : WriteBatch) :
    Handler (Except String Bool) := op (.writeBatchIfValueEquals k expected batch)
def iterate (parent : UInt64) : Handler (Except String (List (Bytes × Bytes))) :=
  op (.iterate parent)
def lock (m : Mutex) : Handler Unit := op (.lock m)
def unlock (m : Mutex) : Handler Unit := op (.unlock m)
def nowSeconds : Handler UInt64 := op .nowSeconds
def nowMilliseconds : Handler UInt64 := op .nowMilliseconds
def generateLeaseId : Handler Bytes := op .generateLeaseId
def ask (q : Query) : Handler q.Answer := op (.ask q)

/-- `std::lock_guard`: the mutex is held while `body` runs. -/
def withLock {α : Type} (m : Mutex) (body : Handler α) : Handler α := do
  lock m
  let a ← body
  unlock m
  return a

end Handler

/-! ## Semantics -/

/-- The state handlers act on: the contents of the store, who holds each mutex,
    and the lease ids handed out so far. -/
structure MdsState (ι : Type) where
  db : MetaMap
  owner : Mutex → Option ι
  issued : List Bytes

/-- A store call that failed: RocksDB reports a status that is never empty. -/
def IoError {α : Type} (r : Except String α) : Prop := ∃ e, e ≠ "" ∧ r = .error e

variable {ι : Type}

/-- `o.Sem i s r s'`: thread `i` can perform `o` in `s`, be answered `r` and
    leave `s'`. -/
def MdsOp.Sem (i : ι) : (o : MdsOp) → MdsState ι → o.Res → MdsState ι → Prop
  | .get k, s, r, s' => s' = s ∧ (r = s.db.read k ∨ IoError r)
  | .put k v, s, r, s' =>
      (r = .ok () ∧ s' = { s with db := s.db.insert k v }) ∨ (IoError r ∧ s' = s)
  | .writeBatch batch, s, r, s' =>
      (r = .ok () ∧ s' = { s with db := s.db.write batch }) ∨ (IoError r ∧ s' = s)
  | .writeBatchIfValueEquals k expected batch, s, r, s' =>
      (s.db.lookup k = some expected ∧ r = .ok true ∧ s' = { s with db := s.db.write batch }) ∨
      (s.db.lookup k ≠ some expected ∧ s.db.lookup k ≠ none ∧ r = .ok false ∧ s' = s) ∨
      -- here a missing key is an error as well
      (IoError r ∧ s' = s)
  | .iterate parent, s, r, s' => s' = s ∧ (r = .ok (s.db.dentries parent) ∨ IoError r)
  | .lock m, s, _, s' => s.owner m = none ∧ s' = { s with owner := Function.update s.owner m (some i) }
  | .unlock m, s, _, s' =>
      s.owner m = some i ∧ s' = { s with owner := Function.update s.owner m none }
  | .nowSeconds, s, _, s' => s' = s
  -- `std::chrono` counts in signed 64-bit numbers
  | .nowMilliseconds, s, r, s' => s' = s ∧ r.toNat < 2 ^ 63
  -- 32 random hexadecimal digits, taken to be new
  | .generateLeaseId, s, r, s' =>
      r.length = 32 ∧ r ∉ s.issued ∧ s' = { s with issued := r :: s.issued }
  | .ask _, s, _, s' => s' = s

/-- The answers of clocks, of the generator and of the other components in one
    execution. -/
structure Oracle where
  seconds : UInt64 := 0
  milliseconds : UInt64 := 0
  leaseId : Nat → Bytes := fun _ => []
  answer : (q : Query) → q.Answer

/-- Other components that know nothing. -/
def silentOracle : Oracle where
  answer
    | .coldInode _ => .error ""
    | .coldPath _ => none
    | .masstreeLocation _ => .error ""
    | .isWriteAdmitted _ => false
    | .getCommittedNode _ => none
    | .resolveDiskId _ _ => none
    | .resolveNode _ => (none, none)
    | .resolveOptical location _ => .ok location
    | .verifyPhysicalArchive _ => .error ""
    | .getInstanceGeneration _ => none
    | .handoffReceipt _ => none
    | .loadTemplate _ => .error ""
    | .publishGeneration _ _ _ => .error ""

/-- The outcome of an operation when no store call fails; `none` when it has to
    wait for a mutex. -/
def MdsOp.exec [DecidableEq ι] (env : Oracle) (i : ι) :
    (o : MdsOp) → MdsState ι → Option (o.Res × MdsState ι)
  | .get k, s => some (s.db.read k, s)
  | .put k v, s => some (.ok (), { s with db := s.db.insert k v })
  | .writeBatch batch, s => some (.ok (), { s with db := s.db.write batch })
  | .writeBatchIfValueEquals k expected batch, s =>
      match s.db.lookup k with
      | none => some (.error "NotFound: ", s)
      | some current =>
          if current = expected then some (.ok true, { s with db := s.db.write batch })
          else some (.ok false, s)
  | .iterate parent, s => some (.ok (s.db.dentries parent), s)
  | .lock m, s =>
      if s.owner m = none then
        some ((), { s with owner := Function.update s.owner m (some i) })
      else none
  | .unlock m, s =>
      if s.owner m = some i then some ((), { s with owner := Function.update s.owner m none })
      else none
  | .nowSeconds, s => some (env.seconds, s)
  | .nowMilliseconds, s =>
      if env.milliseconds.toNat < 2 ^ 63 then some (env.milliseconds, s) else none
  | .generateLeaseId, s =>
      let id := env.leaseId s.issued.length
      if id.length = 32 ∧ id ∉ s.issued then some (id, { s with issued := id :: s.issued })
      else none
  | .ask q, s => some (env.answer q, s)

theorem MdsOp.sem_of_exec [DecidableEq ι] {env : Oracle} {i : ι} {o : MdsOp} {s s' : MdsState ι}
    {r : o.Res} (h : o.exec env i s = some (r, s')) : o.Sem i s r s' := by
  cases o <;> simp only [exec, Option.some.injEq, Prod.mk.injEq] at h
  case get k => exact ⟨h.2.symm, .inl h.1.symm⟩
  case put k v => exact .inl ⟨h.1.symm, h.2.symm⟩
  case writeBatch batch => exact .inl ⟨h.1.symm, h.2.symm⟩
  case writeBatchIfValueEquals k expected batch =>
    split at h
    · cases h
      exact .inr (.inr ⟨⟨_, by decide, rfl⟩, rfl⟩)
    · next current hcur =>
        split at h
        · next heq =>
            cases h
            exact .inl ⟨heq ▸ hcur, rfl, rfl⟩
        · next hne =>
            cases h
            refine .inr (.inl ⟨?_, by simp [hcur], rfl, rfl⟩)
            rw [hcur]
            exact fun hc => hne (Option.some.inj hc)
  case iterate parent => exact ⟨h.2.symm, .inl h.1.symm⟩
  case lock m =>
    split at h
    · next hfree => exact ⟨hfree, by simpa using h.symm⟩
    · cases h
  case unlock m =>
    split at h
    · next hown => exact ⟨hown, by simpa using h.symm⟩
    · cases h
  case nowSeconds => exact h.2.symm
  case nowMilliseconds =>
    split at h
    · next hlt =>
        cases h
        exact ⟨rfl, hlt⟩
    · cases h
  case generateLeaseId =>
    split at h
    · next hid =>
        cases h
        exact ⟨hid.1, hid.2, rfl⟩
    · cases h
  case ask q => exact h.2.symm

/-! ## Sequential runs -/

/-- `h.Runs i s a s'`: thread `i` alone can run the handler `h` from `s`, answer
    `a` and leave `s'`. -/
abbrev Handler.Runs {α : Type} (h : Handler α) (i : ι) (s : MdsState ι) (a : α) (s' : MdsState ι) :
    Prop := Prog.Runs (MdsOp.Sem i) h s a s'

section Runs

variable {i : ι} {α : Type} {a : α} {s s'' : MdsState ι}

theorem runs_get {k : MetaKey} {f : Except String k.Value → Handler α} :
    (Handler.get k >>= f).Runs i s a s'' ↔
      ∃ r, (r = s.db.read k ∨ IoError r) ∧ (f r).Runs i s a s'' := by
  show Prog.Runs _ (.call _ _) _ _ _ ↔ _
  rw [Prog.runs_call]
  constructor
  · rintro ⟨r, s', ⟨rfl, hr⟩, hf⟩
    exact ⟨r, hr, hf⟩
  · rintro ⟨r, hr, hf⟩
    exact ⟨r, s, ⟨rfl, hr⟩, hf⟩

theorem runs_ask {q : Query} {f : q.Answer → Handler α} :
    (Handler.ask q >>= f).Runs i s a s'' ↔ ∃ r, (f r).Runs i s a s'' := by
  show Prog.Runs _ (.call _ _) _ _ _ ↔ _
  rw [Prog.runs_call]
  constructor
  · rintro ⟨r, s₁, rfl, hf⟩
    exact ⟨r, hf⟩
  · rintro ⟨r, hf⟩
    exact ⟨r, s, rfl, hf⟩

theorem runs_iterate {parent : UInt64} {f : Except String (List (Bytes × Bytes)) → Handler α} :
    (Handler.iterate parent >>= f).Runs i s a s'' ↔
      ∃ r, (r = .ok (s.db.dentries parent) ∨ IoError r) ∧ (f r).Runs i s a s'' := by
  show Prog.Runs _ (.call _ _) _ _ _ ↔ _
  rw [Prog.runs_call]
  constructor
  · rintro ⟨r, s', ⟨rfl, hr⟩, hf⟩
    exact ⟨r, hr, hf⟩
  · rintro ⟨r, hr, hf⟩
    exact ⟨r, s, ⟨rfl, hr⟩, hf⟩

theorem runs_put {k : MetaKey} {v : k.Value} {r : Except String Unit} {s' : MdsState ι} :
    (Handler.put k v).Runs i s r s' ↔
      (r = .ok () ∧ s' = { s with db := s.db.insert k v }) ∨ (IoError r ∧ s' = s) := by
  show Prog.Runs _ (.call _ _) _ _ _ ↔ _
  rw [Prog.runs_call]
  constructor
  · rintro ⟨r', s₁, hsem, hret⟩
    obtain ⟨rfl, rfl⟩ := Prog.runs_ret.mp hret
    exact hsem
  · intro h
    exact ⟨r, s', h, .ret r s'⟩

theorem runs_writeBatch {batch : WriteBatch} {r : Except String Unit} {s' : MdsState ι} :
    (Handler.writeBatch batch).Runs i s r s' ↔
      (r = .ok () ∧ s' = { s with db := s.db.write batch }) ∨ (IoError r ∧ s' = s) := by
  show Prog.Runs _ (.call _ _) _ _ _ ↔ _
  rw [Prog.runs_call]
  constructor
  · rintro ⟨r', s₁, hsem, hret⟩
    obtain ⟨rfl, rfl⟩ := Prog.runs_ret.mp hret
    exact hsem
  · intro h
    exact ⟨r, s', h, .ret r s'⟩

/-- What a handler does under a mutex, besides taking and releasing it. -/
theorem runs_withLock {m : Mutex} {body : Handler α}
    (h : (Handler.withLock m body).Runs i s a s'') :
    s.owner m = none ∧ ∃ s',
      body.Runs i { s with owner := Function.update s.owner m (some i) } a s' ∧
      s'.owner m = some i ∧ s'' = { s' with owner := Function.update s'.owner m none } := by
  obtain ⟨_, s₁, hlock, h⟩ := Prog.runs_bind.mp h
  obtain ⟨_, _, ⟨hfree, rfl⟩, hret⟩ := Prog.runs_call.mp hlock
  obtain ⟨-, rfl⟩ := Prog.runs_ret.mp hret
  obtain ⟨b, s₂, hbody, h⟩ := Prog.runs_bind.mp h
  obtain ⟨_, s₃, hunlock, h⟩ := Prog.runs_bind.mp h
  obtain ⟨_, _, ⟨hown, rfl⟩, hret⟩ := Prog.runs_call.mp hunlock
  obtain ⟨-, rfl⟩ := Prog.runs_ret.mp hret
  obtain ⟨rfl, rfl⟩ := Prog.runs_ret.mp h
  exact ⟨hfree, s₂, hbody, hown, rfl⟩

end Runs

section Exec

variable [DecidableEq ι] {env : Oracle} {i : ι} {α : Type} {s s' : MdsState ι}

/-- A run without failures is a run. -/
theorem runs_of_exec {h : Handler α} {a : α} (hrun : h.run (MdsOp.exec env i) s = some (a, s')) :
    h.Runs i s a s' := by
  refine Prog.runs_of_run ?_ hrun
  intro o s r s' h
  exact MdsOp.sem_of_exec h

theorem run_get {k : MetaKey} {f : Except String k.Value → Handler α} :
    Prog.run (MdsOp.exec env i) (Handler.get k >>= f) s =
      Prog.run (MdsOp.exec env i) (f (s.db.read k)) s := rfl

theorem run_ask {q : Query} {f : q.Answer → Handler α} :
    Prog.run (MdsOp.exec env i) (Handler.ask q >>= f) s =
      Prog.run (MdsOp.exec env i) (f (env.answer q)) s := rfl

theorem run_withLock {m : Mutex} {body : Handler α}
    (hfree : s.owner m = none) :
    Prog.run (MdsOp.exec env i) (Handler.withLock m body) s =
      (Prog.run (MdsOp.exec env i) body
        { s with owner := Function.update s.owner m (some i) }).bind fun x =>
          if x.2.owner m = some i then
            some (x.1, { x.2 with owner := Function.update x.2.owner m none })
          else none := by
  have hlock : Prog.run (MdsOp.exec env i) (Handler.lock m) s =
      some ((), { s with owner := Function.update s.owner m (some i) }) := by
    simp [Handler.lock, Handler.op, Prog.run, MdsOp.exec, hfree]
  rw [Handler.withLock, Prog.run_bind, hlock, Option.bind_some, Prog.run_bind]
  refine congrArg _ (funext fun x => ?_)
  rw [Prog.run_bind]
  by_cases hheld : x.2.owner m = some i
  · simp [Handler.unlock, Handler.op, Prog.run, MdsOp.exec, hheld]
  · simp [Handler.unlock, Handler.op, Prog.run, MdsOp.exec, hheld]

end Exec

end Zb.Mds
