-- SUMMARY: Sequences of checks that stop at the first error, and what their success says about each of them.
import Mathlib.Logic.Basic

namespace Checks

variable {ε α β : Type}

theorem bind_ok {x : Except ε α} {f : α → Except ε β} {b : β} (h : (x >>= f) = .ok b) :
    ∃ a, x = .ok a ∧ f a = .ok b := by
  cases x with
  | error error => cases h
  | ok a => exact ⟨a, rfl, h⟩

/-- A check that is made under a condition only, and the rest after it. -/
theorem ite_bind_ok {c : Prop} [Decidable c] {x : Except ε Unit} {f : Unit → Except ε β} {b : β}
    (h : (if c then x >>= f else f ()) = .ok b) : (c → x = .ok ()) ∧ f () = .ok b := by
  split at h
  · rename_i hc
    obtain ⟨⟨⟩, hx, hf⟩ := bind_ok h
    exact ⟨fun _ => hx, hf⟩
  · rename_i hc
    exact ⟨fun h => absurd h hc, h⟩

end Checks
