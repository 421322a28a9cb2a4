-- SUMMARY: Forwarding maps: chains of forwards, where they end, and which forward closes no cycle.
import Mathlib.Logic.Function.Basic

namespace Forwarding

variable {α : Type} {next next' : α → Option α} {a b c : α} {m n : Nat}

/-- `Chain next n a b`: `n` forwards lead from `a` to `b`. -/
inductive Chain (next : α → Option α) : Nat → α → α → Prop
  | refl (a : α) : Chain next 0 a a
  | link {n : Nat} {a b c : α} : next a = some b → Chain next n b c → Chain next (n + 1) a c

/-- Every chain of forwards ends. -/
def Settled (next : α → Option α) : Prop := ∀ a, ∃ n b, Chain next n a b ∧ next b = none

theorem Chain.snoc (h : Chain next n a b) (hb : next b = some c) : Chain next (n + 1) a c := by
  induction h with
  | refl a => exact .link hb (.refl c)
  | link hlink _ ih => exact .link hlink (ih hb)

theorem Chain.mono (h : Chain next n a b) (hmono : ∀ x y, next x = some y → next' x = some y) :
    Chain next' n a b := by
  induction h with
  | refl a => exact .refl a
  | link hlink _ ih => exact .link (hmono _ _ hlink) ih

/-- What a chain passes lies on the way to its end. -/
theorem Chain.rest (h : Chain next n a b) (hb : next b = none) (hc : Chain next m a c) :
    ∃ k, n = m + k ∧ Chain next k c b := by
  induction hc generalizing n with
  | refl a => exact ⟨n, (Nat.zero_add n).symm, h⟩
  | link hlink _ ih =>
      cases h with
      | refl => simp [hb] at hlink
      | link hlink' h' =>
          cases hlink.symm.trans hlink'
          obtain ⟨k, rfl, hk⟩ := ih h'
          exact ⟨k, by omega, hk⟩

/-- An element has one end, at one distance. -/
theorem Chain.end_unique (h : Chain next n a b) (hb : next b = none) (h' : Chain next m a c)
    (hc : next c = none) : n = m ∧ b = c := by
  obtain ⟨k, rfl, hk⟩ := h.rest hb h'
  cases hk with
  | refl => exact ⟨rfl, rfl⟩
  | link hlink => simp [hc] at hlink

theorem Settled.acyclic (h : Settled next) : ¬ Chain next (n + 1) a a := by
  intro hcycle
  obtain ⟨m, b, hend, hb⟩ := h a
  obtain ⟨k, hm, hrest⟩ := hend.rest hb hcycle
  obtain ⟨hk, -⟩ := hend.end_unique hb hrest hb
  omega

theorem settled_of_none (h : ∀ a, next a = none) : Settled next := fun a => ⟨0, a, .refl a, h a⟩

/-- Forwarding an end to another end. -/
theorem Settled.of_forward (h : Settled next) (ha : next a = none) (hb : next b = none)
    (hab : a ≠ b) (hnew : next' a = some b) (hold : ∀ x, x ≠ a → next' x = next x) :
    Settled next' := by
  have hkeep : ∀ x y, next x = some y → next' x = some y := by
    intro x y hxy
    rwa [hold x]
    rintro rfl
    simp [ha] at hxy
  intro x
  obtain ⟨n, y, hchain, hy⟩ := h x
  by_cases hya : y = a
  · subst hya
    exact ⟨n + 1, b, (hchain.mono hkeep).snoc hnew, (hold b hab.symm).trans hb⟩
  · exact ⟨n, y, hchain.mono hkeep, (hold y hya).trans hy⟩

end Forwarding
