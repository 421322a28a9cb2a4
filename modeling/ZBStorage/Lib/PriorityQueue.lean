-- SUMMARY: Priority queues whose entries may be stale, and how these are dropped off the top.
import Mathlib.Data.List.Sort
import Mathlib.Data.List.TakeWhile

/-!
# Priority queues with stale entries

A `PriorityQueue` holds its entries in the order of a comparator, the top first. Entries
are not removed when they become stale: `prune` drops the stale entries that have
reached the top, and `popActive` goes on to the first active one.
-/

/-- `after a b` says that `a` comes out later than `b`. -/
class Comparator {α : Type} (after : α → α → Bool) : Prop where
  asymm : ∀ a b, after a b = true → after b a = false
  trans : ∀ a b c, after a b = false → after b c = false → after a c = false

structure PriorityQueue (α : Type) (after : α → α → Bool) where
  entries : List α
  sorted : entries.Pairwise (after · · = false)

namespace PriorityQueue

variable {α : Type} {after : α → α → Bool} {a x : α} {q : PriorityQueue α after}
  {active : α → Bool}

instance : Membership α (PriorityQueue α after) := ⟨fun q a => a ∈ q.entries⟩

def empty : PriorityQueue α after := ⟨[], .nil⟩

def top? (q : PriorityQueue α after) : Option α := q.entries.head?

def push [Comparator after] (x : α) (q : PriorityQueue α after) : PriorityQueue α after where
  entries := q.entries.orderedInsert (after · · = false) x
  sorted := by
    have htotal : Std.Total fun a b => after a b = false := ⟨fun a b => by
      rcases hab : after a b with _ | _
      · exact .inl rfl
      · exact .inr (Comparator.asymm a b hab)⟩
    have htrans : IsTrans α fun a b => after a b = false := ⟨Comparator.trans⟩
    exact q.sorted.orderedInsert x _

def pop (q : PriorityQueue α after) : PriorityQueue α after :=
  ⟨q.entries.tail, q.sorted.sublist (List.tail_sublist _)⟩

/-- Pops the stale entries that are on top. -/
def prune (active : α → Bool) (q : PriorityQueue α after) : PriorityQueue α after where
  entries := q.entries.dropWhile (!active ·)
  sorted := q.sorted.sublist (List.dropWhile_sublist _)

/-- Pops until an active entry comes out. -/
def popActive (active : α → Bool) (q : PriorityQueue α after) :
    Option α × PriorityQueue α after :=
  let pruned := q.prune active
  (pruned.top?, ⟨pruned.entries.tail, pruned.sorted.sublist (List.tail_sublist _)⟩)

/-! ## Membership -/

@[simp] theorem not_mem_empty : a ∉ (empty : PriorityQueue α after) := List.not_mem_nil

@[simp] theorem mem_push [Comparator after] : a ∈ q.push x ↔ a = x ∨ a ∈ q :=
  List.mem_orderedInsert _

theorem mem_of_mem_prune (h : a ∈ q.prune active) : a ∈ q :=
  (List.dropWhile_sublist _).subset h

theorem mem_of_mem_popActive (h : a ∈ (q.popActive active).2) : a ∈ q :=
  mem_of_mem_prune (List.mem_of_mem_tail h)

theorem mem_prune_of_active (h : a ∈ q) (ha : active a = true) : a ∈ q.prune active := by
  have hsplit : a ∈ q.entries.takeWhile (!active ·) ++ q.entries.dropWhile (!active ·) := by
    rwa [List.takeWhile_append_dropWhile]
  rcases List.mem_append.mp hsplit with hstale | hkept
  · have hna := List.mem_takeWhile_imp hstale
    rw [ha] at hna
    exact nomatch hna
  · exact hkept

theorem entries_push [Comparator after] (x : α) (q : PriorityQueue α after) :
    (q.push x).entries.Perm (x :: q.entries) :=
  List.perm_orderedInsert _ _ _

/-! ## The top -/

theorem entries_of_top? (h : q.top? = some x) : q.entries = x :: q.pop.entries := by
  obtain ⟨rest, hq⟩ := List.head?_eq_some_iff.mp h
  show q.entries = x :: q.entries.tail
  rw [hq, List.tail_cons]

theorem mem_of_top? (h : q.top? = some x) : x ∈ q :=
  List.mem_of_mem_head? h

theorem eq_empty_of_top? (h : q.top? = none) : a ∉ q := by
  intro hmem
  have hmem' : a ∈ q.entries := hmem
  rw [List.head?_eq_none_iff.mp h] at hmem'
  exact nomatch hmem'

/-- The top does not come after any entry. -/
theorem top?_first [Comparator after] (h : q.top? = some x) (ha : a ∈ q) :
    after x a = false := by
  obtain ⟨rest, hq⟩ := List.head?_eq_some_iff.mp h
  have hsorted := q.sorted
  have hmem : a ∈ q.entries := ha
  rw [hq] at hsorted hmem
  rcases List.mem_cons.mp hmem with rfl | hrest
  · rcases hself : after a a with _ | _
    · rfl
    · rw [← hself]
      exact Comparator.asymm a a hself
  · exact List.rel_of_pairwise_cons hsorted hrest

/-- After pruning, the top is active. -/
theorem active_top?_prune (h : (q.prune active).top? = some x) : active x = true := by
  have hx := List.head?_dropWhile_not (!active ·) q.entries
  have htop : (q.entries.dropWhile (!active ·)).head? = some x := h
  rw [htop] at hx
  simpa using hx

/-- An active entry that is not the one popped stays. -/
theorem mem_popActive_of_active (h : a ∈ q) (ha : active a = true)
    (hne : (q.popActive active).1 ≠ some a) : a ∈ (q.popActive active).2 := by
  have hmem : a ∈ (q.prune active).entries := mem_prune_of_active h ha
  have htop : (q.prune active).entries.head? ≠ some a := hne
  show a ∈ (q.prune active).entries.tail
  rcases hlist : (q.prune active).entries with _ | ⟨b, rest⟩
  · rw [hlist] at hmem
    exact nomatch hmem
  · rw [hlist] at hmem htop
    rcases List.mem_cons.mp hmem with rfl | hrest
    · exact absurd rfl htop
    · exact hrest

end PriorityQueue
