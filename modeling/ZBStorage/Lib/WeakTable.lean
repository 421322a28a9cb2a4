-- SUMMARY: A table of weak references, pruned now and then: a reference in use stays, and a new one is fresh.
import ZBStorage.Lib.TableLoop

/-!
# Tables of weak references

Things are numbered as they are made. The table has one of them for each key and
does not keep it in use itself: `used` says which things somebody holds. An entry
whose thing nobody holds may be dropped or replaced, any other entry stays.
-/

structure WeakTable (κ : Type) [DecidableEq κ] where
  calls : Nat := 0
  entries : TableLoop.Table κ Nat := ∅
  made : Nat := 0

namespace WeakTable

open TableLoop

variable {κ : Type} [DecidableEq κ]

/-- One turn of the loop that drops the entries nobody uses. -/
def dropExpired (used : Nat → Bool) (entries : Table κ Nat) (key : κ) : Table κ Nat :=
  match entries.lookup key with
  | some thing => if used thing then entries else entries.erase key
  | none => entries

def prune (used : Nat → Bool) (entries : Table κ Nat) : Table κ Nat :=
  entries.keys.foldl (dropExpired used) entries

/-- The thing of a key, made anew if nobody uses the one of the table. The entries are
    pruned every `period` calls. -/
def get (period : Nat) (used : Nat → Bool) (key : κ) (table : WeakTable κ) :
    Nat × WeakTable κ :=
  let calls := table.calls + 1
  let entries := if calls % period = 0 then prune used table.entries else table.entries
  match entries.lookup key with
  | some thing =>
      if used thing then (thing, { table with calls := calls, entries := entries })
      else
        (table.made,
          { calls := calls, entries := entries.insert key table.made, made := table.made + 1 })
  | none =>
      (table.made,
        { calls := calls, entries := entries.insert key table.made, made := table.made + 1 })

variable {used : Nat → Bool} {entries : Table κ Nat} {table : WeakTable κ} {key other : κ}
  {thing period : Nat}

/-! ## Pruning -/

theorem lookup_dropExpired_of_used (h : entries.lookup other = some thing)
    (hused : used thing = true) : (dropExpired used entries key).lookup other = some thing := by
  unfold dropExpired
  split
  · rename_i found hfound
    split
    · exact h
    · rename_i hfree
      have hne : other ≠ key := by
        rintro rfl
        rw [h] at hfound
        have hsame : thing = found := Option.some.inj hfound
        rw [hsame] at hused
        exact hfree hused
      rwa [AList.lookup_erase_ne hne]
  · exact h

/-- A thing in use stays in the table. -/
theorem lookup_prune_of_used (h : entries.lookup other = some thing) (hused : used thing = true) :
    (prune used entries).lookup other = some thing := by
  unfold prune
  generalize entries.keys = keys
  induction keys generalizing entries with
  | nil => exact h
  | cons key keys ih => exact ih (lookup_dropExpired_of_used h hused)

/-! ## Getting -/

/-- The table that a call of `get` looks into. -/
def visited (period : Nat) (used : Nat → Bool) (table : WeakTable κ) : Table κ Nat :=
  if (table.calls + 1) % period = 0 then prune used table.entries else table.entries

theorem lookup_visited_of_used (period : Nat) (h : table.entries.lookup other = some thing)
    (hused : used thing = true) : (table.visited period used).lookup other = some thing := by
  unfold visited
  split
  · exact lookup_prune_of_used h hused
  · exact h

/-- Either the thing of the key is in use and found, or a new one is made for the key. -/
theorem get_cases (period : Nat) (used : Nat → Bool) (key : κ) (table : WeakTable κ) :
    (∃ thing, (table.visited period used).lookup key = some thing ∧ used thing = true ∧
      table.get period used key = (thing,
        { table with calls := table.calls + 1, entries := table.visited period used })) ∨
    (∀ thing, table.entries.lookup key = some thing → used thing = false) ∧
      table.get period used key = (table.made,
        { calls := table.calls + 1
          entries := (table.visited period used).insert key table.made
          made := table.made + 1 }) := by
  have hfree : (∀ thing, (table.visited period used).lookup key = some thing →
      used thing = false) → ∀ thing, table.entries.lookup key = some thing → used thing = false := by
    intro hvisited thing hlookup
    rw [Bool.eq_false_iff]
    intro hused
    have hstays := lookup_visited_of_used period hlookup hused
    rw [hvisited thing hstays] at hused
    cases hused
  unfold get
  dsimp only
  rw [← visited]
  split
  · rename_i thing hlookup
    split
    · rename_i hused
      exact .inl ⟨thing, hlookup, hused, rfl⟩
    · rename_i hunused
      refine .inr ⟨hfree fun other hother => ?_, rfl⟩
      rw [hlookup] at hother
      have hsame : thing = other := Option.some.inj hother
      rw [← hsame]
      exact Bool.eq_false_iff.mpr hunused
  · rename_i hnone
    refine .inr ⟨hfree fun other hother => ?_, rfl⟩
    rw [hnone] at hother
    cases hother

theorem lookup_get (period : Nat) (used : Nat → Bool) (key : κ) (table : WeakTable κ) :
    (table.get period used key).2.entries.lookup key = some (table.get period used key).1 := by
  rcases get_cases period used key table with ⟨thing, hlookup, _, hget⟩ | ⟨_, hget⟩
  · rw [hget]
    exact hlookup
  · rw [hget]
    exact AList.lookup_insert _

/-- What is in use stays in the table. -/
theorem lookup_get_of_used (h : table.entries.lookup other = some thing)
    (hused : used thing = true) :
    (table.get period used key).2.entries.lookup other = some thing := by
  have hstays := lookup_visited_of_used period h hused
  rcases get_cases period used key table with ⟨found, _, _, hget⟩ | ⟨hfree, hget⟩
  · rw [hget]
    exact hstays
  · rw [hget]
    have hne : other ≠ key := by
      rintro rfl
      rw [hfree thing h] at hused
      cases hused
    show ((table.visited period used).insert key table.made).lookup other = some thing
    rwa [AList.lookup_insert_ne hne]

end WeakTable
