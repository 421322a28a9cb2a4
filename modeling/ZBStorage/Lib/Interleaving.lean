-- SUMMARY: Interleavings of programs one atomic operation at a time, their traces and their invariant rule.
import Mathlib.Data.List.Basic
import ZBStorage.Lib.Prog

/-!
# Interleavings

A pool holds one program per thread. A run of the pool performs the operations
of its threads one at a time, in any order, and leaves a trace of who performed
what and what was answered. What a thread does depends on its own history alone,
so it is proved of its program (`Prog.Follows`) and holds in every interleaving
(`Steps.follows`); what the state is at a step is read off the trace.
-/

namespace Prog

variable {ι Op : Type} {Res : Op → Type} {α β σ : Type}

/-- One operation of a run. -/
structure Event (ι Op : Type) (Res : Op → Type) where
  tid : ι
  op : Op
  res : Res op

/-- A state of the store together with everything that happened before it. -/
structure World (ι Op : Type) (Res : Op → Type) (σ : Type) where
  state : σ
  trace : List (Event ι Op Res)

/-- The world after thread `i` performed `o`, was answered `r` and left `s`. -/
def World.push (w : World ι Op Res σ) (i : ι) (o : Op) (r : Res o) (s : σ) : World ι Op Res σ :=
  ⟨s, w.trace ++ [⟨i, o, r⟩]⟩

@[simp] theorem World.push_state (w : World ι Op Res σ) (i : ι) (o : Op) (r : Res o) (s : σ) :
    (w.push i o r s).state = s := rfl

@[simp] theorem World.push_trace (w : World ι Op Res σ) (i : ι) (o : Op) (r : Res o) (s : σ) :
    (w.push i o r s).trace = w.trace ++ [⟨i, o, r⟩] := rfl

/-- A split of a trace that just grew: at its last event, or of the trace before. -/
theorem snoc_eq_append_cons {γ : Type} {l l₁ l₂ : List γ} {a b : γ} (h : l ++ [a] = l₁ ++ b :: l₂) :
    (l₂ = [] ∧ b = a ∧ l₁ = l) ∨ ∃ l₂', l₂ = l₂' ++ [a] ∧ l = l₁ ++ b :: l₂' := by
  rcases List.eq_nil_or_concat l₂ with rfl | ⟨l₂', c, rfl⟩
  · obtain ⟨hl, hb⟩ := List.append_inj' h rfl
    exact .inl ⟨rfl, (List.cons.inj hb).1.symm, hl.symm⟩
  · rw [List.concat_eq_append, ← List.cons_append, ← List.append_assoc] at h
    obtain ⟨hl, hc⟩ := List.append_inj' h rfl
    exact .inr ⟨l₂', by rw [List.concat_eq_append, (List.cons.inj hc).1], hl⟩

/-- Of two elements of a list, one comes first. -/
theorem append_cons_eq_append_cons {α : Type} {l₁ l₂ m₁ m₂ : List α} {a b : α}
    (h : l₁ ++ a :: l₂ = m₁ ++ b :: m₂) :
    (l₁ = m₁ ∧ a = b ∧ l₂ = m₂) ∨ (∃ c, l₁ = m₁ ++ b :: c ∧ m₂ = c ++ a :: l₂) ∨
      ∃ c, m₁ = l₁ ++ a :: c ∧ l₂ = c ++ b :: m₂ := by
  rcases List.append_eq_append_iff.mp h with ⟨c, rfl, hc⟩ | ⟨c, rfl, hc⟩
  · cases c with
    | nil =>
        cases hc
        exact .inl ⟨by simp, rfl, rfl⟩
    | cons x c =>
        cases hc
        exact .inr (.inr ⟨c, rfl, rfl⟩)
  · cases c with
    | nil =>
        cases hc
        exact .inl ⟨by simp, rfl, rfl⟩
    | cons x c =>
        cases hc
        exact .inr (.inl ⟨c, rfl, rfl⟩)

/-! ## Threads of a trace -/

section Threads

variable [DecidableEq ι]

/-- What thread `i` performed in a trace. -/
def own (i : ι) (t : List (Event ι Op Res)) : History Op Res :=
  t.filterMap fun e => if e.tid = i then some ⟨e.op, e.res⟩ else none

/-- What happened since thread `i` began. -/
def since (i : ι) (t : List (Event ι Op Res)) : List (Event ι Op Res) :=
  t.dropWhile fun e => decide (e.tid ≠ i)

/-- What happened since thread `i` moved last. -/
def sinceLast (i : ι) (t : List (Event ι Op Res)) : List (Event ι Op Res) :=
  (t.reverse.takeWhile fun e => decide (e.tid ≠ i)).reverse

variable {i : ι} {t : List (Event ι Op Res)}

@[simp] theorem own_nil : own i ([] : List (Event ι Op Res)) = [] := rfl

@[simp] theorem own_append (t₁ t₂ : List (Event ι Op Res)) :
    own i (t₁ ++ t₂) = own i t₁ ++ own i t₂ := List.filterMap_append

theorem own_snoc_self {o : Op} {r : Res o} : own i (t ++ [⟨i, o, r⟩]) = own i t ++ [⟨o, r⟩] := by
  simp [own]

theorem own_snoc_of_ne {j : ι} {o : Op} {r : Res o} (h : j ≠ i) :
    own i (t ++ [⟨j, o, r⟩]) = own i t := by
  simp [own, h]

theorem mem_own {o : Op} {r : Res o} : ⟨o, r⟩ ∈ own i t ↔ ⟨i, o, r⟩ ∈ t := by
  simp only [own, List.mem_filterMap, Option.ite_none_right_eq_some, Option.some.injEq]
  constructor
  · rintro ⟨⟨j, o', r'⟩, hmem, rfl, heq⟩
    cases heq
    exact hmem
  · intro hmem
    exact ⟨_, hmem, rfl, rfl⟩

/-- A split of a thread's history is a split of the trace. -/
theorem split_of_own {h₁ h₂ : History Op Res} {o : Op} {r : Res o}
    (h : own i t = h₁ ++ ⟨o, r⟩ :: h₂) :
    ∃ t₁ t₂, t = t₁ ++ ⟨i, o, r⟩ :: t₂ ∧ own i t₁ = h₁ ∧ own i t₂ = h₂ := by
  obtain ⟨t₁, t', rfl, hown₁, htail⟩ := List.filterMap_eq_append_iff.mp h
  obtain ⟨t₂, ⟨j, o', r'⟩, t₃, rfl, hskip, he, hown₃⟩ := List.filterMap_eq_cons_iff.mp htail
  rw [Option.ite_none_right_eq_some] at he
  obtain ⟨rfl, he⟩ := he
  cases he
  have hown₂ : own j t₂ = [] := List.filterMap_eq_nil_iff.mpr hskip
  exact ⟨t₁ ++ t₂, t₃, by simp, by rw [own_append, hown₂, List.append_nil]; exact hown₁, hown₃⟩

theorem mem_since {t₁ t₂ : List (Event ι Op Res)} {o : Op} {r : Res o} {e : Event ι Op Res}
    (h : e ∈ t₂) : e ∈ since i (t₁ ++ ⟨i, o, r⟩ :: t₂) := by
  induction t₁ with
  | nil => simp [since, h]
  | cons e₁ t₁ ih =>
      by_cases he₁ : e₁.tid = i
      · simp [since, he₁, h]
      · simpa [since, he₁] using ih

theorem since_append {t₁ t₂ : List (Event ι Op Res)} {e : Event ι Op Res} (h : e ∈ since i t₁) :
    e ∈ since i (t₁ ++ t₂) := by
  induction t₁ with
  | nil => cases h
  | cons e₁ t₁ ih =>
      by_cases he₁ : e₁.tid = i
      · have hmem : e ∈ e₁ :: t₁ := by simpa [since, he₁] using h
        have hmem' : e ∈ e₁ :: t₁ ++ t₂ := List.mem_append_left _ hmem
        simpa [since, he₁] using hmem'
      · have hmem : e ∈ since i t₁ := by simpa [since, he₁] using h
        simpa [since, he₁] using ih hmem

theorem sinceLast_eq {t₁ t₂ : List (Event ι Op Res)} {o : Op} {r : Res o} (h : own i t₂ = []) :
    sinceLast i (t₁ ++ ⟨i, o, r⟩ :: t₂) = t₂ := by
  have hothers : ∀ e' ∈ t₂.reverse, decide (e'.tid ≠ i) = true := by
    intro e' he'
    have hskip := List.filterMap_eq_nil_iff.mp h e' (List.mem_reverse.mp he')
    simpa using hskip
  rw [sinceLast, List.reverse_append, List.reverse_cons, List.append_assoc,
    List.takeWhile_append_of_pos hothers, List.singleton_append,
    List.takeWhile_cons_of_neg (by simp), List.append_nil, List.reverse_reverse]

end Threads

/-! ## Runs of a pool -/

/-- What the operations do and which runs are considered: `may w i o r` is the
    condition under which thread `i` performs `o` in the world `w` and is
    answered `r`. -/
structure Machine (ι Op : Type) (Res : Op → Type) (σ : Type) where
  sem : ι → (o : Op) → σ → Res o → σ → Prop
  may : World ι Op Res σ → ι → (o : Op) → Res o → Prop := fun _ _ _ _ => True

/-- `Steps M s₀ pool₀ w pool`: interleaving the programs of `pool₀` from `s₀`
    can reach the world `w` with the programs of `pool` left to run. -/
inductive Steps [DecidableEq ι] (M : Machine ι Op Res σ) (s₀ : σ)
    (pool₀ : ι → Prog Op Res α) : World ι Op Res σ → (ι → Prog Op Res α) → Prop
  | start : Steps M s₀ pool₀ ⟨s₀, []⟩ pool₀
  | step {w : World ι Op Res σ} {pool : ι → Prog Op Res α} {i : ι} {o : Op}
      {k : Res o → Prog Op Res α} {r : Res o} {s : σ} :
      Steps M s₀ pool₀ w pool → pool i = .call o k → M.sem i o w.state r s → M.may w i o r →
      Steps M s₀ pool₀ (w.push i o r s) (Function.update pool i (k r))

section Steps

variable [DecidableEq ι] {M : Machine ι Op Res σ} {s₀ : σ} {pool₀ pool : ι → Prog Op Res α}
  {w : World ι Op Res σ}

/-- The steps of a run are again runs: what led to one of its events. -/
theorem Steps.before_event (h : Steps M s₀ pool₀ w pool) {t₁ t₂ : List (Event ι Op Res)}
    {e : Event ι Op Res} (hsplit : w.trace = t₁ ++ e :: t₂) :
    ∃ w₁ pool₁ k s, Steps M s₀ pool₀ w₁ pool₁ ∧ w₁.trace = t₁ ∧ pool₁ e.tid = .call e.op k ∧
      M.sem e.tid e.op w₁.state e.res s ∧ M.may w₁ e.tid e.op e.res := by
  induction h generalizing t₂ with
  | start => simp at hsplit
  | @step w pool i o k r s hsteps hcall hsem hmay ih =>
      rcases snoc_eq_append_cons hsplit with ⟨-, rfl, rfl⟩ | ⟨t₂', -, hsplit'⟩
      · exact ⟨w, pool, k, s, hsteps, rfl, hcall, hsem, hmay⟩
      · exact ih hsplit'

section Follows

variable {J : ι → History Op Res → Op → Prop} {Q : ι → α → History Op Res → Prop}

/-- Threads follow their rules in every interleaving. -/
theorem Steps.follows (hpool : ∀ i, Follows (J i) (pool₀ i) (Q i) [])
    (h : Steps M s₀ pool₀ w pool) (i : ι) : Follows (J i) (pool i) (Q i) (own i w.trace) := by
  induction h with
  | start => exact hpool i
  | @step w pool j o k r s _ hcall hsem hmay ih =>
      by_cases hij : i = j
      · subst hij
        rw [hcall] at ih
        rw [Function.update_self, World.push_trace, own_snoc_self]
        exact ih.2 r
      · rw [Function.update_of_ne hij, World.push_trace, own_snoc_of_ne (Ne.symm hij)]
        exact ih

/-- What holds at first and is kept by every step within the rules, given that it
    held in all runs before, holds in every run. -/
theorem Steps.invariant (inv : World ι Op Res σ → Prop)
    (hpool : ∀ i, Follows (J i) (pool₀ i) (Q i) []) (hinit : inv ⟨s₀, []⟩)
    (hstep : ∀ {w pool i o r s}, Steps M s₀ pool₀ w pool →
      (∀ {w₁ pool₁}, Steps M s₀ pool₀ w₁ pool₁ → w₁.trace.length ≤ w.trace.length → inv w₁) →
      J i (own i w.trace) o → M.sem i o w.state r s → M.may w i o r → inv (w.push i o r s))
    (h : Steps M s₀ pool₀ w pool) : inv w := by
  induction hlen : w.trace.length using Nat.strongRecOn generalizing w pool with
  | ind n ih =>
      cases h with
      | start => exact hinit
      | @step w pool i o k r s hsteps hcall hsem hmay =>
          have hfollows := hsteps.follows hpool i
          rw [hcall] at hfollows
          refine hstep hsteps (fun hsteps₁ hle => ?_) hfollows.1 hsem hmay
          refine ih _ ?_ hsteps₁ rfl
          rw [← hlen, World.push_trace, List.length_append]
          exact Nat.lt_succ_of_le hle

/-- Every event of a run was within the rules of its thread. -/
theorem Steps.rule_of_event (hpool : ∀ i, Follows (J i) (pool₀ i) (Q i) [])
    (h : Steps M s₀ pool₀ w pool) {t₁ t₂ : List (Event ι Op Res)} {e : Event ι Op Res}
    (hsplit : w.trace = t₁ ++ e :: t₂) : J e.tid (own e.tid t₁) e.op := by
  obtain ⟨w₁, pool₁, k, s, hsteps, rfl, hcall, -, -⟩ := h.before_event hsplit
  have hfollows := hsteps.follows hpool e.tid
  rw [hcall] at hfollows
  exact hfollows.1

end Follows

end Steps

/-! ## Running a schedule -/

/-- Lets the threads of a schedule move in turn, with one chosen outcome of each
    operation, as long as `check` allows it. -/
def runSchedule [DecidableEq ι] (exec : ι → (o : Op) → σ → Option (Res o × σ))
    (check : World ι Op Res σ → ι → (o : Op) → Res o → Bool) :
    List ι → World ι Op Res σ → (ι → Prog Op Res α) →
      Option (World ι Op Res σ × (ι → Prog Op Res α))
  | [], w, pool => some (w, pool)
  | i :: is, w, pool =>
      match pool i with
      | .ret _ => none
      | .call o k =>
          match exec i o w.state with
          | none => none
          | some (r, s) =>
              if check w i o r then
                runSchedule exec check is (w.push i o r s) (Function.update pool i (k r))
              else none

theorem steps_of_runSchedule [DecidableEq ι] {M : Machine ι Op Res σ}
    {exec : ι → (o : Op) → σ → Option (Res o × σ)}
    {check : World ι Op Res σ → ι → (o : Op) → Res o → Bool}
    (hexec : ∀ {i o s r s'}, exec i o s = some (r, s') → M.sem i o s r s')
    (hcheck : ∀ {w i o r}, check w i o r = true → M.may w i o r) {s₀ : σ}
    {pool₀ pool pool' : ι → Prog Op Res α} {w w' : World ι Op Res σ} {is : List ι}
    (hsteps : Steps M s₀ pool₀ w pool) (h : runSchedule exec check is w pool = some (w', pool')) :
    Steps M s₀ pool₀ w' pool' := by
  induction is generalizing w pool with
  | nil =>
      cases h
      exact hsteps
  | cons i is ih =>
      rw [runSchedule] at h
      split at h
      · cases h
      · next o k hcall =>
          split at h
          · cases h
          · next r s hsem =>
              split at h
              · next hmay => exact ih (.step hsteps hcall (hexec hsem) (hcheck hmay)) h
              · cases h

end Prog
