-- SUMMARY: Concurrent handlers: what each event of a trace wrote, and what a read still tells later.
import ZBStorage.Mds.Runtime

/-!
# Concurrent handlers

The handlers of a server run concurrently, one operation at a time. The store
after a run is the store before it with the batches of all events applied in
order, so a value read by a handler is still there unless some later event of
the trace wrote the key.
-/

namespace Zb.Mds

open Zb.Rpc Prog

variable {ι : Type}

abbrev MdsEvent (ι : Type) := Event ι MdsOp MdsOp.Res

abbrev MdsWorld (ι : Type) := World ι MdsOp MdsOp.Res (MdsState ι)

abbrev MdsHistory := History MdsOp MdsOp.Res

/-- The interleavings in which every operation satisfies `may`. -/
def mdsMachine (may : MdsWorld ι → ι → (o : MdsOp) → o.Res → Prop) :
    Machine ι MdsOp MdsOp.Res (MdsState ι) where
  sem i o := o.Sem i
  may := may

/-! ## Writes -/

/-- What an operation wrote, by its answer. -/
def MdsOp.writes : (o : MdsOp) → o.Res → WriteBatch
  | .put k v, .ok () => [.put k v]
  | .writeBatch batch, .ok () => batch
  | .writeBatchIfValueEquals _ _ batch, .ok true => batch
  | _, _ => []

def writesOf (e : MdsEvent ι) : WriteBatch := e.op.writes e.res

/-- The inode an operation puts. -/
def MdsOp.putInode? : MdsOp → Option UInt64
  | .put (.inode id) _ => some id
  | _ => none

/-- The operations of a history wrote nothing. -/
def Silent (h : MdsHistory) : Prop := ∀ x ∈ h, x.1.writes x.2 = []

@[simp] theorem silent_nil : Silent [] := by simp [Silent]

@[simp] theorem silent_append {h₁ h₂ : MdsHistory} : Silent (h₁ ++ h₂) ↔ Silent h₁ ∧ Silent h₂ := by
  simp [Silent, or_imp, forall_and]

@[simp] theorem silent_cons {x : Σ o : MdsOp, o.Res} {h : MdsHistory} :
    Silent (x :: h) ↔ x.1.writes x.2 = [] ∧ Silent h := by
  simp [Silent]

@[simp] theorem writes_get {k : MetaKey} {r : Except String k.Value} :
    MdsOp.writes (.get k) r = [] := rfl

@[simp] theorem writes_ask {q : Query} {r : q.Answer} : MdsOp.writes (.ask q) r = [] := rfl

@[simp] theorem writes_put_error {k : MetaKey} {v : k.Value} {e : String} :
    MdsOp.writes (.put k v) (.error e) = [] := rfl

@[simp] theorem writes_put_ok {k : MetaKey} {v : k.Value} :
    MdsOp.writes (.put k v) (.ok ()) = [.put k v] := rfl

@[simp] theorem writes_nowSeconds {r : UInt64} : MdsOp.writes .nowSeconds r = [] := rfl

theorem MdsOp.Sem.db_eq {i : ι} {o : MdsOp} {s s' : MdsState ι} {r : o.Res}
    (h : o.Sem i s r s') : s'.db = s.db.write (o.writes r) := by
  cases o with
  | get k =>
      rw [h.1]
      rfl
  | put k v =>
      rcases h with ⟨rfl, rfl⟩ | ⟨⟨e, -, rfl⟩, rfl⟩
      · rfl
      · rfl
  | writeBatch batch =>
      rcases h with ⟨rfl, rfl⟩ | ⟨⟨e, -, rfl⟩, rfl⟩
      · rfl
      · rfl
  | writeBatchIfValueEquals k expected batch =>
      rcases h with ⟨-, rfl, rfl⟩ | ⟨-, -, rfl, rfl⟩ | ⟨⟨e, -, rfl⟩, rfl⟩
      · rfl
      · rfl
      · rfl
  | iterate parent =>
      rw [h.1]
      rfl
  | lock m =>
      rw [h.2]
      rfl
  | unlock m =>
      rw [h.2]
      rfl
  | nowSeconds =>
      rw [h]
      rfl
  | nowMilliseconds =>
      rw [h.1]
      rfl
  | generateLeaseId =>
      rw [h.2.2]
      rfl
  | ask q =>
      rw [h]
      rfl

/-! ## Reads -/

section Reads

variable {α : Type} [DecidableEq ι] {may : MdsWorld ι → ι → (o : MdsOp) → o.Res → Prop}
  {s₀ : MdsState ι} {pool₀ pool : ι → Handler α} {w : MdsWorld ι}

/-- The contents of the store is a function of the trace. -/
theorem Steps.db_eq (h : Steps (mdsMachine may) s₀ pool₀ w pool) :
    w.state.db = s₀.db.write (w.trace.flatMap writesOf) := by
  induction h with
  | start => rfl
  | step _ _ hsem _ ih =>
      rw [World.push_state, MdsOp.Sem.db_eq hsem, ih, World.push_trace, List.flatMap_append,
        MetaMap.write_append]
      simp [writesOf]

/-- A key no event wrote since an earlier point of the run is as it was there. -/
theorem Steps.lookup_eq {w₁ : MdsWorld ι} {pool₁ : ι → Handler α}
    (h : Steps (mdsMachine may) s₀ pool₀ w pool) (h₁ : Steps (mdsMachine may) s₀ pool₀ w₁ pool₁)
    {t : List (MdsEvent ι)} (htrace : w.trace = w₁.trace ++ t) {k : MetaKey}
    (hkeep : ∀ e ∈ t, k ∉ (writesOf e).map BatchEntry.key) :
    w.state.db.lookup k = w₁.state.db.lookup k := by
  rw [Steps.db_eq h, Steps.db_eq h₁, htrace, List.flatMap_append, MetaMap.write_append]
  refine MetaMap.lookup_write_of_notMem fun e he hkey => ?_
  obtain ⟨ev, hev, he⟩ := List.mem_flatMap.mp he
  exact hkeep ev hev (List.mem_map.mpr ⟨e, he, hkey⟩)

/-- What a read answered is what the store holds now, unless the read failed or a
    later event set the key to what it is now. -/
theorem Steps.read_or_set (h : Steps (mdsMachine may) s₀ pool₀ w pool) {t₁ t₂ : List (MdsEvent ι)}
    {i : ι} {k : MetaKey} {r : Except String k.Value}
    (hsplit : w.trace = t₁ ++ ⟨i, .get k, r⟩ :: t₂) :
    IoError r ∨ r = w.state.db.read k ∨ ∃ e ∈ t₂, Sets (writesOf e) k (w.state.db.lookup k) := by
  induction h generalizing t₂ with
  | start => simp at hsplit
  | @step w pool j o c a s _ hcall hsem hmay ih =>
      rcases snoc_eq_append_cons hsplit with ⟨rfl, he, rfl⟩ | ⟨t₂', rfl, hsplit'⟩
      · cases he
        obtain ⟨rfl, hread⟩ := hsem
        rcases hread with hread | hio
        · exact .inr (.inl hread)
        · exact .inl hio
      · rw [World.push_state, MdsOp.Sem.db_eq hsem]
        rcases MetaMap.lookup_write w.state.db (o.writes a) k with hsame | hset
        · rw [MetaMap.read, hsame, ← MetaMap.read]
          rcases ih hsplit' with hio | hread | ⟨e, hmem, hset⟩
          · exact .inl hio
          · exact .inr (.inl hread)
          · exact .inr (.inr ⟨e, List.mem_append_left _ hmem, hset⟩)
        · exact .inr (.inr ⟨_, List.mem_append_right _ List.mem_cons_self, hset⟩)

end Reads

/-! ## Mutexes -/

/-- A thread with this history holds the mutex and has done `d` under it. -/
def Holds (m : Mutex) (h d : MdsHistory) : Prop :=
  (∃ h₁, h = h₁ ++ ⟨.lock m, ()⟩ :: d) ∧ ⟨.unlock m, ()⟩ ∉ d

/-- Only its holder can release a mutex. -/
theorem MdsOp.Sem.owner_eq {i j : ι} {o : MdsOp} {s s' : MdsState ι} {r : o.Res} {m : Mutex}
    (h : o.Sem j s r s') (howner : s.owner m = some i) (hkeep : o = .unlock m → i ≠ j) :
    s'.owner m = some i := by
  cases o with
  | get k => rwa [h.1]
  | put k v => rcases h with ⟨-, rfl⟩ | ⟨-, rfl⟩ <;> exact howner
  | writeBatch batch => rcases h with ⟨-, rfl⟩ | ⟨-, rfl⟩ <;> exact howner
  | writeBatchIfValueEquals k expected batch =>
      rcases h with ⟨-, -, rfl⟩ | ⟨-, -, -, rfl⟩ | ⟨-, rfl⟩ <;> exact howner
  | iterate parent => rwa [h.1]
  | lock m' =>
      obtain ⟨hfree, rfl⟩ := h
      by_cases hm : m = m'
      · rw [hm, hfree] at howner
        cases howner
      · exact (Function.update_of_ne hm _ _).trans howner
  | unlock m' =>
      obtain ⟨hown, rfl⟩ := h
      by_cases hm : m = m'
      · subst hm
        rw [hown] at howner
        exact absurd (Option.some.inj howner).symm (hkeep rfl)
      · exact (Function.update_of_ne hm _ _).trans howner
  | nowSeconds => rwa [h]
  | nowMilliseconds => rwa [h.1]
  | generateLeaseId => rwa [h.2.2]
  | ask q => rwa [h]

section Mutexes

variable {α : Type} [DecidableEq ι] {may : MdsWorld ι → ι → (o : MdsOp) → o.Res → Prop}
  {s₀ : MdsState ι} {pool₀ pool : ι → Handler α} {w : MdsWorld ι} {i : ι} {m : Mutex}

theorem Steps.owner_of_holds (h : Steps (mdsMachine may) s₀ pool₀ w pool) {d : MdsHistory}
    (hheld : Holds m (own i w.trace) d) : w.state.owner m = some i := by
  induction h generalizing d with
  | start =>
      obtain ⟨⟨h₁, hown⟩, -⟩ := hheld
      simp at hown
  | @step w pool j o k r s _ _ hsem _ ih =>
      obtain ⟨⟨h₁, hown⟩, hkeep⟩ := hheld
      rw [World.push_trace] at hown
      by_cases hij : j = i
      · subst hij
        rw [own_snoc_self] at hown
        rcases snoc_eq_append_cons hown with ⟨rfl, hlock, -⟩ | ⟨d', rfl, hown'⟩
        · cases hlock
          obtain ⟨-, rfl⟩ := hsem
          exact Function.update_self ..
        · have hsub : ⟨.unlock m, ()⟩ ∉ d' := fun hmem => hkeep (List.mem_append_left _ hmem)
          refine MdsOp.Sem.owner_eq hsem (ih ⟨⟨h₁, hown'⟩, hsub⟩) ?_
          rintro rfl
          exact absurd (List.mem_append_right _ List.mem_cons_self) hkeep
      · rw [own_snoc_of_ne hij] at hown
        exact MdsOp.Sem.owner_eq hsem (ih ⟨⟨h₁, hown⟩, hkeep⟩) fun _ => Ne.symm hij

/-- A write that others must not make while the mutex is held came before the
    present holder took it, if the holder has not written. -/
theorem Steps.before_lock (h : Steps (mdsMachine may) s₀ pool₀ w pool) {d : MdsHistory}
    (hheld : Holds m (own i w.trace) d) (hsilent : Silent d) {t₁ t₂ : List (MdsEvent ι)}
    {e : MdsEvent ι} (hsplit : w.trace = t₁ ++ e :: t₂) (hwrites : writesOf e ≠ [])
    (hguard : ∀ {w₁ pool₁}, Steps (mdsMachine may) s₀ pool₀ w₁ pool₁ → w₁.trace = t₁ →
      may w₁ e.tid e.op e.res → w₁.state.owner m = none ∨ w₁.state.owner m = some e.tid) :
    ∃ u₁ u₂, t₂ = u₁ ++ ⟨i, .lock m, ()⟩ :: u₂ ∧ own i u₂ = d := by
  obtain ⟨⟨h₁, hown⟩, hkeep⟩ := hheld
  obtain ⟨v₁, v₂, hlock, -, rfl⟩ := split_of_own hown
  rcases append_cons_eq_append_cons (hlock.symm.trans hsplit) with
    ⟨-, rfl, -⟩ | ⟨c, -, rfl⟩ | ⟨c, rfl, rfl⟩
  · exact absurd rfl hwrites
  · exact ⟨c, v₂, rfl, rfl⟩
  -- the event falls into the critical section
  obtain ⟨w₁, pool₁, -, -, hsteps, htrace, -, -, hmay⟩ := h.before_event hsplit
  have hheld₁ : Holds m (own i w₁.trace) (own i c) := by
    refine ⟨⟨own i v₁, ?_⟩, fun hmem => hkeep ?_⟩
    · rw [htrace, own_append]
      simp [own]
    · rw [own_append]
      exact List.mem_append_left _ hmem
  have htid : e.tid = i := by
    rcases hguard hsteps htrace hmay with hfree | howner
    · rw [Steps.owner_of_holds hsteps hheld₁] at hfree
      cases hfree
    · rw [Steps.owner_of_holds hsteps hheld₁] at howner
      exact (Option.some.inj howner).symm
  have hmem : ⟨e.op, e.res⟩ ∈ own i (c ++ e :: t₂) := by
    rw [← htid]
    exact mem_own.mpr (by simp)
  exact absurd (hsilent _ hmem) hwrites

/-- A value read under a mutex stands while the mutex is held, if its key is not
    written while another thread holds the mutex. -/
theorem Steps.read_of_holds (h : Steps (mdsMachine may) s₀ pool₀ w pool) {d : MdsHistory}
    (hheld : Holds m (own i w.trace) d) (hsilent : Silent d) {k : MetaKey}
    {r : Except String k.Value} (hread : ⟨.get k, r⟩ ∈ d)
    (hguard : ∀ {w₁ pool₁ e t₂}, Steps (mdsMachine may) s₀ pool₀ w₁ pool₁ →
      w.trace = w₁.trace ++ e :: t₂ → may w₁ e.tid e.op e.res →
      k ∈ (writesOf e).map BatchEntry.key →
      w₁.state.owner m = none ∨ w₁.state.owner m = some e.tid) :
    IoError r ∨ r = w.state.db.read k := by
  obtain ⟨⟨h₁, hown⟩, hkeep⟩ := id hheld
  obtain ⟨t₁, t₂, hsplit, -, rfl⟩ := split_of_own hown
  obtain ⟨u₁, u₂, rfl⟩ := List.append_of_mem (mem_own.mp hread)
  rw [← List.cons_append, ← List.append_assoc] at hsplit
  rcases Steps.read_or_set h hsplit with hio | hnow | ⟨e, he, hset⟩
  · exact .inl hio
  · exact .inr hnow
  -- a later write of the key would leave the whole critical section after it
  obtain ⟨v₁, v₂, rfl⟩ := List.append_of_mem he
  obtain ⟨x, hx, hkey⟩ := hset.exists_key
  have hsplit' := hsplit.trans (List.append_assoc _ (_ :: v₁) (e :: v₂)).symm
  obtain ⟨c, u, rfl, hu⟩ := Steps.before_lock h hheld hsilent hsplit' (List.ne_nil_of_mem hx)
    fun hsteps htrace hmay => hguard hsteps (htrace ▸ hsplit') hmay (List.mem_map.mpr ⟨x, hx, hkey⟩)
  have hlater : own i (u₁ ++ ⟨i, .get k, r⟩ :: (v₁ ++ e :: (c ++ ⟨i, .lock m, ()⟩ :: u))) =
      own i (u₁ ++ ⟨i, .get k, r⟩ :: (v₁ ++ e :: c)) ++ ⟨.lock m, ()⟩ :: own i u := by
    have hlock : own i (⟨i, .lock m, ()⟩ :: u) = ⟨.lock m, ()⟩ :: own i u := by simp [own]
    rw [← hlock, ← own_append]
    simp
  rw [hlater] at hu
  have hlen := congrArg List.length hu
  rw [List.length_append, List.length_cons] at hlen
  omega

end Mutexes

/-! ## Schedules -/

section Schedule

variable {α : Type} [DecidableEq ι] {may : MdsWorld ι → ι → (o : MdsOp) → o.Res → Prop}

/-- A read whose turn it is fails. -/
def failRead (i : ι) (w : MdsWorld ι) (pool : ι → Handler α) :
    Option (MdsWorld ι × (ι → Handler α)) :=
  match pool i with
  | .call (.get k) f =>
      some (w.push i (.get k) (.error "IO error: ") w.state,
        Function.update pool i (f (.error "IO error: ")))
  | _ => none

theorem steps_of_failRead {i : ι} {s₀ : MdsState ι} {pool₀ pool pool' : ι → Handler α}
    {w w' : MdsWorld ι} (hsteps : Steps (mdsMachine may) s₀ pool₀ w pool)
    (hmay : ∀ k, may w i (.get k) (.error "IO error: "))
    (h : failRead i w pool = some (w', pool')) : Steps (mdsMachine may) s₀ pool₀ w' pool' := by
  unfold failRead at h
  split at h
  · next k f hcall =>
      cases h
      exact .step hsteps hcall ⟨rfl, .inr ⟨_, by decide, rfl⟩⟩ (hmay k)
  · cases h

variable [∀ w i o r, Decidable (may w i o r)]

/-- Goes on with a schedule in which no store call fails and every operation is
    allowed. -/
def scheduleFrom (env : Oracle) (may : MdsWorld ι → ι → (o : MdsOp) → o.Res → Prop)
    [∀ w i o r, Decidable (may w i o r)] (w : MdsWorld ι) (pool : ι → Handler α) (is : List ι) :
    Option (MdsWorld ι × (ι → Handler α)) :=
  runSchedule (fun i o => o.exec env i) (fun w i o r => decide (may w i o r)) is w pool

/-- Runs such a schedule from the start. -/
def schedule (env : Oracle) (may : MdsWorld ι → ι → (o : MdsOp) → o.Res → Prop)
    [∀ w i o r, Decidable (may w i o r)] (s₀ : MdsState ι) (pool₀ : ι → Handler α) (is : List ι) :
    Option (MdsWorld ι × (ι → Handler α)) :=
  scheduleFrom env may ⟨s₀, []⟩ pool₀ is

theorem steps_of_scheduleFrom {env : Oracle} {s₀ : MdsState ι} {pool₀ pool pool' : ι → Handler α}
    {is : List ι} {w w' : MdsWorld ι} (hsteps : Steps (mdsMachine may) s₀ pool₀ w pool)
    (h : scheduleFrom env may w pool is = some (w', pool')) :
    Steps (mdsMachine may) s₀ pool₀ w' pool' := by
  refine steps_of_runSchedule ?_ ?_ hsteps h
  · intro i o s r s' hexec
    exact MdsOp.sem_of_exec hexec
  · intro w i o r hcheck
    have hmay : may w i o r := of_decide_eq_true hcheck
    exact hmay

theorem steps_of_schedule {env : Oracle} {s₀ : MdsState ι} {pool₀ pool : ι → Handler α}
    {is : List ι} {w : MdsWorld ι} (h : schedule env may s₀ pool₀ is = some (w, pool)) :
    Steps (mdsMachine may) s₀ pool₀ w pool := steps_of_scheduleFrom .start h

end Schedule

/-! ## Rules of a handler -/

section Follows

variable {α : Type} {J : MdsHistory → MdsOp → Prop} {h : MdsHistory}

theorem follows_op {o : MdsOp} {f : o.Res → Handler α} {Q : α → MdsHistory → Prop} :
    Follows J (Handler.op o >>= f) Q h ↔ J h o ∧ ∀ r, Follows J (f r) Q (h ++ [⟨o, r⟩]) := Iff.rfl

/-- A handler under a mutex. -/
theorem follows_withLock {m : Mutex} {body : Handler α} {Q : α → MdsHistory → Prop}
    (hlock : J h (.lock m)) (hunlock : ∀ h, J h (.unlock m))
    (hbody : Follows J body (fun a h' => Q a (h' ++ [⟨.unlock m, ()⟩])) (h ++ [⟨.lock m, ()⟩])) :
    Follows J (Handler.withLock m body) Q h := by
  refine follows_op.mpr ⟨hlock, fun _ => follows_bind.mpr (hbody.mono fun a h' hQ => ?_)⟩
  exact ⟨hunlock h', fun _ => hQ⟩

end Follows

/-! Handlers that only read. -/

section Only

variable {α : Type}

def MdsOp.IsRead : MdsOp → Prop
  | .get _ | .ask _ => True
  | _ => False

@[simp] theorem isRead_get {k : MetaKey} : (MdsOp.get k).IsRead := trivial

@[simp] theorem isRead_ask {q : Query} : (MdsOp.ask q).IsRead := trivial

theorem silent_of_reads {d : MdsHistory} (h : AllOps MdsOp.IsRead d) : Silent d := by
  rintro ⟨o, r⟩ hmem
  have hread : o.IsRead := h _ hmem
  cases o with
  | get k => rfl
  | ask q => rfl
  | _ => exact hread.elim

theorem only_ask {q : Query} {f : q.Answer → Handler α}
    (h : ∀ r, Only MdsOp.IsRead (f r)) : Only MdsOp.IsRead (Handler.ask q >>= f) := ⟨trivial, h⟩

theorem only_get {k : MetaKey} {f : Except String k.Value → Handler α}
    (h : ∀ r, Only MdsOp.IsRead (f r)) : Only MdsOp.IsRead (Handler.get k >>= f) := ⟨trivial, h⟩

end Only

end Zb.Mds
