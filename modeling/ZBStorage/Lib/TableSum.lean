-- SUMMARY: Sums over the entries of a table, kept up to date when an entry is filed, replaced or removed.
import Mathlib.Algebra.GroupWithZero.Nat
import Mathlib.Algebra.Order.BigOperators.Group.List
import Mathlib.Data.List.AList

namespace TableSum

variable {α β : Type} [DecidableEq α] {weight : α → β → Nat} {table : AList fun _ : α => β}
  {key : α} {value value' : β}

def total (weight : α → β → Nat) (table : AList fun _ : α => β) : Nat :=
  (table.entries.map fun entry => weight entry.1 entry.2).sum

omit [DecidableEq α] in
@[simp] theorem total_empty : total weight ∅ = 0 := rfl

/-- A table is one of its entries and the others. -/
theorem entries_perm_erase (h : table.lookup key = some value) :
    table.entries.Perm (⟨key, value⟩ :: (table.erase key).entries) := by
  have hmem : key ∈ table := by
    rw [← AList.lookup_isSome, h]
    rfl
  obtain ⟨value', entries₁, entries₂, _, hentries, herase⟩ :=
    List.exists_of_kerase (AList.mem_keys.mp hmem)
  have hfound : table.lookup key = some value' := AList.mem_lookup_iff.mpr (by
    rw [hentries]
    exact List.mem_append_right _ List.mem_cons_self)
  cases h.symm.trans hfound
  have herased : (table.erase key).entries = entries₁ ++ entries₂ := herase
  rw [hentries, herased]
  exact List.perm_middle

theorem entries_erase_none (h : table.lookup key = none) :
    (table.erase key).entries = table.entries :=
  List.kerase_of_notMem_keys (AList.lookup_eq_none.mp h)

theorem entries_insert_new (h : table.lookup key = none) :
    (table.insert key value).entries = ⟨key, value⟩ :: table.entries := by
  rw [AList.entries_insert, List.kerase_of_notMem_keys (AList.lookup_eq_none.mp h)]

/-- An entry counts beside the others. -/
theorem total_erase (h : table.lookup key = some value) :
    total weight table = weight key value + total weight (table.erase key) := by
  have hperm := (entries_perm_erase h).map fun entry => weight entry.1 entry.2
  rw [total, hperm.sum_eq]
  rfl

theorem total_erase_none (h : table.lookup key = none) :
    total weight (table.erase key) = total weight table := by
  rw [total, entries_erase_none h, total]

theorem total_insert (key : α) (value : β) (table : AList fun _ : α => β) :
    total weight (table.insert key value) = weight key value + total weight (table.erase key) := by
  rw [total, AList.entries_insert, List.map_cons, List.sum_cons]
  rfl

theorem total_insert_new (h : table.lookup key = none) :
    total weight (table.insert key value) = weight key value + total weight table := by
  rw [total_insert, total_erase_none h]

/-- The weight of the old value gives way to that of the new one. -/
theorem total_insert_replace (h : table.lookup key = some value) :
    total weight (table.insert key value') + weight key value =
      total weight table + weight key value' := by
  rw [total_insert, total_erase h]
  omega

theorem le_total (h : table.lookup key = some value) : weight key value ≤ total weight table := by
  rw [total_erase h]
  exact Nat.le_add_right _ _

theorem total_eq_zero_iff :
    total weight table = 0 ↔ ∀ key value, table.lookup key = some value → weight key value = 0 := by
  constructor
  · intro hzero key value hlookup
    have hle : weight key value ≤ total weight table := le_total hlookup
    omega
  · intro hall
    apply List.sum_eq_zero
    intro n hn
    obtain ⟨entry, hmem, rfl⟩ := List.mem_map.mp hn
    exact hall entry.1 entry.2 (AList.mem_lookup_iff.mpr hmem)

end TableSum
