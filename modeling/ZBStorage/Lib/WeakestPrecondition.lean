-- SUMMARY: Weakest preconditions of programs of atomic operations, with a guard for every operation.
import ZBStorage.Lib.Prog

/-!
# Weakest preconditions

A program runs on a state that its operations move. `Wp` says from where it performs
its operations only where a guard allows them, and returns only as a postcondition
says. The state need not be the whole state of the system: what one thread may rely on
while others run is a state as well.
-/

namespace Prog

variable {Op : Type} {Res : Op → Type} {α β σ : Type}

/-- From `s`, `p` is guarded and returns as `Q` says. -/
def Wp (guard : σ → Op → Prop) (moves : (o : Op) → σ → Res o → σ → Prop) :
    Prog Op Res α → (α → σ → Prop) → σ → Prop
  | .ret a, Q, s => Q a s
  | .call o k, Q, s => guard s o ∧ ∀ r s', moves o s r s' → Wp guard moves (k r) Q s'

/-- Every operation is allowed. -/
def NoGuard (_ : σ) (_ : Op) : Prop := True

variable {guard : σ → Op → Prop} {moves : (o : Op) → σ → Res o → σ → Prop}
  {Q Q' : α → σ → Prop} {s s' : σ}

@[simp] theorem wp_ret {a : α} : Wp guard moves (.ret a : Prog Op Res α) Q s ↔ Q a s := Iff.rfl

theorem wp_call {o : Op} {k : Res o → Prog Op Res α} :
    Wp guard moves (.call o k) Q s ↔
      guard s o ∧ ∀ r s', moves o s r s' → Wp guard moves (k r) Q s' := Iff.rfl

theorem wp_bind {p : Prog Op Res β} {f : β → Prog Op Res α} :
    Wp guard moves (p >>= f) Q s ↔ Wp guard moves p (fun b s' => Wp guard moves (f b) Q s') s := by
  induction p generalizing s with
  | ret b => exact Iff.rfl
  | call o k ih => simp only [call_bind, wp_call, ih]

theorem Wp.mono {p : Prog Op Res α} (h : Wp guard moves p Q s) (hQ : ∀ a s', Q a s' → Q' a s') :
    Wp guard moves p Q' s := by
  induction p generalizing s with
  | ret a => exact hQ a s h
  | call o k ih => exact ⟨h.1, fun r s' hmoves => ih r (h.2 r s' hmoves)⟩

/-- A program in front of another one. -/
theorem Wp.bind {p : Prog Op Res β} {f : β → Prog Op Res α} {R : β → σ → Prop}
    (hp : Wp guard moves p R s) (hf : ∀ b s', R b s' → Wp guard moves (f b) Q s') :
    Wp guard moves (p >>= f) Q s := wp_bind.mpr (hp.mono hf)

/-- A sequential run ends as the postcondition says. -/
theorem Wp.runs {p : Prog Op Res α} {a : α} (h : Wp guard moves p Q s) (hrun : Runs moves p s a s') :
    Q a s' := by
  induction hrun with
  | ret a s => exact h
  | call hmoves _ ih => exact ih (h.2 _ _ hmoves)

end Prog
