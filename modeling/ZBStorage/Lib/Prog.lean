-- SUMMARY: Programs as trees of atomic operations: their sequential runs, and what they do judged by their own history.
import Mathlib.Logic.Function.Basic

/-!
# Programs of atomic operations

A handler is a tree of calls of atomic operations, each continued by what it answered.
`Prog.Runs` executes it alone, and `Interleaving` executes many of them one operation at
a time. What an operation does is a relation `sem`, so that answers of the environment
and failures are choices of the run.
-/

inductive Prog (Op : Type) (Res : Op → Type) (α : Type) where
  | ret (a : α)
  | call (o : Op) (k : Res o → Prog Op Res α)

namespace Prog

variable {Op : Type} {Res : Op → Type} {α β γ : Type}

def bind : Prog Op Res α → (α → Prog Op Res β) → Prog Op Res β
  | .ret a, f => f a
  | .call o k, f => .call o fun r => bind (k r) f

/-- The program that performs one operation and returns its answer. -/
def perform (o : Op) : Prog Op Res (Res o) := .call o .ret

instance : Monad (Prog Op Res) where
  pure := .ret
  bind := bind

@[simp] theorem pure_eq (a : α) : (pure a : Prog Op Res α) = .ret a := rfl

@[simp] theorem ret_bind (a : α) (f : α → Prog Op Res β) :
    (Prog.ret a >>= f) = f a := rfl

@[simp] theorem call_bind (o : Op) (k : Res o → Prog Op Res α) (f : α → Prog Op Res β) :
    (Prog.call o k >>= f) = .call o fun r => k r >>= f := rfl

@[simp] theorem perform_bind (o : Op) (f : Res o → Prog Op Res β) :
    (perform o >>= f) = .call o f := rfl

/-! ## Sequential runs -/

section Runs

variable {σ : Type} (sem : (o : Op) → σ → Res o → σ → Prop)

/-- `Runs sem p s a s'`: the program `p`, alone, can take state `s` to `s'` and
    return `a`. -/
inductive Runs : Prog Op Res α → σ → α → σ → Prop
  | ret (a : α) (s : σ) : Runs (.ret a) s a s
  | call {o : Op} {k : Res o → Prog Op Res α} {s s' s'' : σ} {r : Res o} {a : α} :
      sem o s r s' → Runs (k r) s' a s'' → Runs (.call o k) s a s''

variable {sem}

@[simp] theorem runs_ret {a b : α} {s s' : σ} :
    Runs sem (.ret a) s b s' ↔ b = a ∧ s' = s := by
  constructor
  · rintro ⟨⟩
    exact ⟨rfl, rfl⟩
  · rintro ⟨rfl, rfl⟩
    exact .ret b s'

@[simp] theorem runs_call {o : Op} {k : Res o → Prog Op Res α} {a : α} {s s'' : σ} :
    Runs sem (.call o k) s a s'' ↔ ∃ r s', sem o s r s' ∧ Runs sem (k r) s' a s'' := by
  constructor
  · rintro (_ | ⟨hsem, hrun⟩)
    exact ⟨_, _, hsem, hrun⟩
  · rintro ⟨r, s', hsem, hrun⟩
    exact .call hsem hrun

theorem runs_bind {p : Prog Op Res α} {f : α → Prog Op Res β} {b : β} {s s'' : σ} :
    Runs sem (p >>= f) s b s'' ↔ ∃ a s', Runs sem p s a s' ∧ Runs sem (f a) s' b s'' := by
  induction p generalizing s with
  | ret a =>
      constructor
      · intro h
        exact ⟨a, s, .ret a s, h⟩
      · rintro ⟨a', s', h, hf⟩
        obtain ⟨rfl, rfl⟩ := runs_ret.mp h
        exact hf
  | call o k ih =>
      simp only [call_bind, runs_call, ih]
      constructor
      · rintro ⟨r, s₁, hsem, a, s', hk, hf⟩
        exact ⟨a, s', ⟨r, s₁, hsem, hk⟩, hf⟩
      · rintro ⟨a, s', ⟨r, s₁, hsem, hk⟩, hf⟩
        exact ⟨r, s₁, hsem, a, s', hk, hf⟩

/-- Runs a program with one chosen outcome of each operation; `none` when an
    operation has to wait. -/
def run (exec : (o : Op) → σ → Option (Res o × σ)) : Prog Op Res α → σ → Option (α × σ)
  | .ret a, s => some (a, s)
  | .call o k, s =>
      match exec o s with
      | none => none
      | some (r, s') => run exec (k r) s'

theorem run_bind {exec : (o : Op) → σ → Option (Res o × σ)} {p : Prog Op Res α}
    {f : α → Prog Op Res β} {s : σ} :
    run exec (p >>= f) s = (run exec p s).bind fun x => run exec (f x.1) x.2 := by
  induction p generalizing s with
  | ret a => rfl
  | call o k ih =>
      rw [call_bind, run, run]
      split
      · rfl
      · exact ih _

theorem runs_of_run {exec : (o : Op) → σ → Option (Res o × σ)}
    (hexec : ∀ {o s r s'}, exec o s = some (r, s') → sem o s r s') {p : Prog Op Res α} {s s' : σ}
    {a : α} (h : run exec p s = some (a, s')) : Runs sem p s a s' := by
  induction p generalizing s with
  | ret b =>
      obtain ⟨rfl, rfl⟩ : b = a ∧ s = s' := by simpa [run] using h
      exact .ret b s
  | call o k ih =>
      rw [run] at h
      split at h
      · cases h
      · next r s₁ heq => exact .call (hexec heq) (ih r h)

end Runs

/-! ## What a program does, seen from its own history -/

/-- The operations a program has performed, with their answers. -/
abbrev History (Op : Type) (Res : Op → Type) := List (Σ o : Op, Res o)

/-- `Follows J p Q h`: after the history `h`, whatever its operations answer, `p`
    performs an operation only where `J` allows it and returns only as `Q` says. -/
def Follows (J : History Op Res → Op → Prop) : Prog Op Res α →
    (α → History Op Res → Prop) → History Op Res → Prop
  | .ret a, Q, h => Q a h
  | .call o k, Q, h => J h o ∧ ∀ r, Follows J (k r) Q (h ++ [⟨o, r⟩])

section Follows

variable {J : History Op Res → Op → Prop} {Q Q' : α → History Op Res → Prop}
  {h : History Op Res}

@[simp] theorem follows_ret {a : α} : Follows J (.ret a : Prog Op Res α) Q h ↔ Q a h := Iff.rfl

theorem follows_call {o : Op} {k : Res o → Prog Op Res α} :
    Follows J (.call o k) Q h ↔ J h o ∧ ∀ r, Follows J (k r) Q (h ++ [⟨o, r⟩]) := Iff.rfl

theorem follows_bind {p : Prog Op Res β} {f : β → Prog Op Res α} :
    Follows J (p >>= f) Q h ↔ Follows J p (fun b h' => Follows J (f b) Q h') h := by
  induction p generalizing h with
  | ret b => exact Iff.rfl
  | call o k ih => simp only [call_bind, follows_call, ih]

theorem Follows.weaken {J' : History Op Res → Op → Prop} {p : Prog Op Res α} (hp : Follows J p Q h)
    (hJ : ∀ h o, J h o → J' h o) : Follows J' p Q h := by
  induction p generalizing h with
  | ret a => exact hp
  | call o k ih => exact ⟨hJ h o hp.1, fun r => ih r (hp.2 r)⟩

theorem Follows.mono {p : Prog Op Res α} (hp : Follows J p Q h) (hQ : ∀ a h', Q a h' → Q' a h') :
    Follows J p Q' h := by
  induction p generalizing h with
  | ret a => exact hQ a h hp
  | call o k ih => exact ⟨hp.1, fun r => ih r (hp.2 r)⟩

end Follows

/-- Every operation of the history satisfies `P`. -/
def AllOps (P : Op → Prop) (d : History Op Res) : Prop := ∀ x ∈ d, P x.1

section AllOps

variable {P P' : Op → Prop} {d d₁ d₂ : History Op Res}

@[simp] theorem allOps_nil : AllOps P ([] : History Op Res) := by simp [AllOps]

@[simp] theorem allOps_append : AllOps P (d₁ ++ d₂) ↔ AllOps P d₁ ∧ AllOps P d₂ := by
  simp [AllOps, or_imp, forall_and]

@[simp] theorem allOps_cons {x : Σ o : Op, Res o} : AllOps P (x :: d) ↔ P x.1 ∧ AllOps P d := by
  simp [AllOps]

theorem AllOps.mono (h : AllOps P d) (hP : ∀ {o}, P o → P' o) : AllOps P' d := fun x hx => hP (h x hx)

end AllOps

/-- Every operation the program can perform satisfies `P`. -/
def Only (P : Op → Prop) : Prog Op Res α → Prop
  | .ret _ => True
  | .call o k => P o ∧ ∀ r, Only P (k r)

section Only

variable {P : Op → Prop}

@[simp] theorem only_ret (a : α) : Only P (.ret a : Prog Op Res α) := trivial

@[simp] theorem only_call {o : Op} {k : Res o → Prog Op Res α} :
    Only P (.call o k) ↔ P o ∧ ∀ r, Only P (k r) := Iff.rfl

theorem Only.bind {p : Prog Op Res α} {f : α → Prog Op Res β} (hp : Only P p)
    (hf : ∀ a, Only P (f a)) : Only P (p >>= f) := by
  induction p with
  | ret a => exact hf a
  | call o k ih => exact ⟨hp.1, fun r => ih r (hp.2 r)⟩

/-- A program whose operations are allowed after each other extends the history by
    them. -/
theorem Only.follows {J : History Op Res → Op → Prop} {Q : α → History Op Res → Prop}
    {p : Prog Op Res α} (hp : Only P p) {h : History Op Res}
    (hJ : ∀ d o, AllOps P d → P o → J (h ++ d) o) (hQ : ∀ a d, AllOps P d → Q a (h ++ d)) :
    Follows J p Q h := by
  induction p generalizing h with
  | ret a => simpa using hQ a [] allOps_nil
  | call o k ih =>
      have hfirst : J h o := by simpa using hJ [] o allOps_nil hp.1
      refine ⟨hfirst, fun r => ih r (hp.2 r) (fun d o' hd ho' => ?_) fun a d hd => ?_⟩
      · simpa using hJ (⟨o, r⟩ :: d) o' (allOps_cons.mpr ⟨hp.1, hd⟩) ho'
      · simpa using hQ a (⟨o, r⟩ :: d) (allOps_cons.mpr ⟨hp.1, hd⟩)

end Only

/-- What a program has returned, if it has. -/
def result? : Prog Op Res α → Option α
  | .ret a => some a
  | .call _ _ => none

theorem eq_ret_of_result? {p : Prog Op Res α} {a : α} (h : p.result? = some a) : p = .ret a := by
  cases p with
  | ret b =>
      cases h
      rfl
  | call o k => cases h

end Prog
