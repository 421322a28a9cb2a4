-- SUMMARY: Bookings of numbered resources for spans of time, and that none is booked twice.
import Mathlib.Data.List.Basic

/-!
# Bookings

Each resource has a time it is available at. A booking that begins no earlier than the
bookings of its resource end, and moves that time to its own end, overlaps with none.
Resources that are booked in the order of their numbers stay below a limit (`Untouched`),
and what is booked beyond it does not matter.
-/

namespace Bookings

variable {τ : Type}

/-- A resource is taken from `start` to `stop`. -/
structure Use (τ : Type) where
  resource : Nat
  start : Nat
  stop : Nat
  owner : τ
  deriving DecidableEq

/-- Two uses do not overlap if they are of one resource. -/
def Apart (a b : Use τ) : Prop := a.resource = b.resource → a.stop ≤ b.start ∨ b.stop ≤ a.start

instance (a b : Use τ) : Decidable (Apart a b) :=
  inferInstanceAs (Decidable (_ → _))

/-- The uses are apart, and those of the resources below the limit are over when these are
    available. -/
structure Booked (limit : Nat) (available : List Nat) (uses : List (Use τ)) : Prop where
  finished : ∀ u ∈ uses, u.resource < limit → ∀ time, available[u.resource]? = some time →
    u.stop ≤ time
  apart : uses.Pairwise Apart

/-- With `left` bookings to come, those from `limit - left` on have not been booked. -/
def Untouched (limit left now : Nat) (available : List Nat) : Prop :=
  ∀ i time, limit ≤ i + left → available[i]? = some time → time = now

variable {available : List Nat} {uses : List (Use τ)} {owner : τ}
  {resource start stop time limit left left' now count : Nat}

/-- What is over by the time everything becomes available, or on other resources. -/
theorem booked_replicate (hover : ∀ u ∈ uses, u.stop ≤ now ∨ limit ≤ u.resource)
    (hapart : uses.Pairwise Apart) : Booked limit (List.replicate count now) uses where
  finished := by
    intro u hmem hbelow time htime
    rw [List.eq_of_mem_replicate (List.mem_of_getElem? htime)]
    exact (hover u hmem).resolve_right (Nat.not_le.mpr hbelow)
  apart := hapart

theorem untouched_replicate : Untouched limit left now (List.replicate count now) :=
  fun _ _ _ htime => List.eq_of_mem_replicate (List.mem_of_getElem? htime)

namespace Untouched

theorem mono (h : Untouched limit left now available) (hle : left' ≤ left) :
    Untouched limit left' now available :=
  fun i time hi htime => h i time (by omega) htime

/-- A booking of a resource that was to be booked by now. -/
theorem set (h : Untouched limit left now available) (hresource : resource + left < limit) :
    Untouched limit left now (available.set resource stop) := by
  intro i time hi htime
  rw [List.getElem?_set_ne (by omega)] at htime
  exact h i time hi htime

end Untouched

namespace Booked

/-- A resource becomes available later. -/
theorem raise (h : Booked limit available uses) (hold : available[resource]? = some time)
    (hle : time ≤ stop) : Booked limit (available.set resource stop) uses where
  finished := by
    intro u hmem hbelow later hlater
    rcases eq_or_ne resource u.resource with rfl | hne
    · rw [List.getElem?_set_self', hold] at hlater
      have hsame : stop = later := Option.some.inj hlater
      rw [← hsame]
      exact Nat.le_trans (h.finished u hmem hbelow time hold) hle
    · rw [List.getElem?_set_ne hne] at hlater
      exact h.finished u hmem hbelow later hlater
  apart := h.apart

/-- One more use, behind the other uses of its resource. -/
theorem append (h : Booked limit available uses)
    (hbefore : ∀ u ∈ uses, u.resource = resource → u.stop ≤ start) (hspan : start ≤ stop) :
    Booked limit (available.set resource stop) (uses ++ [⟨resource, start, stop, owner⟩]) where
  finished := by
    intro u hmem hbelow later hlater
    rcases List.mem_append.mp hmem with hold | hnew
    · rcases eq_or_ne resource u.resource with rfl | hne
      · rw [List.getElem?_set_self'] at hlater
        obtain ⟨_, _, hsame⟩ := Option.map_eq_some_iff.mp hlater
        have hstop : stop = later := hsame
        rw [← hstop]
        exact Nat.le_trans (hbefore u hold rfl) hspan
      · rw [List.getElem?_set_ne hne] at hlater
        exact h.finished u hold hbelow later hlater
    · rw [List.mem_singleton.mp hnew] at hlater ⊢
      rw [List.getElem?_set_self'] at hlater
      obtain ⟨_, _, hsame⟩ := Option.map_eq_some_iff.mp hlater
      exact Nat.le_of_eq hsame
  apart := by
    refine List.pairwise_append.mpr ⟨h.apart, List.pairwise_singleton _ _, ?_⟩
    intro u hmem v hnew hsame
    rw [List.mem_singleton.mp hnew] at hsame ⊢
    exact .inl (hbefore u hmem hsame)

/-- One more use, from the time its resource is available at. -/
theorem book (h : Booked limit available uses) (hbelow : resource < limit)
    (hold : available[resource]? = some time) (hstart : time ≤ start) (hspan : start ≤ stop) :
    Booked limit (available.set resource stop) (uses ++ [⟨resource, start, stop, owner⟩]) := by
  refine h.append (fun u hmem hsame => ?_) hspan
  rw [← hsame] at hold hbelow
  exact Nat.le_trans (h.finished u hmem hbelow time hold) hstart

end Booked

end Bookings
