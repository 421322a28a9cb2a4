-- SUMMARY: A table filled row by row: what is found in it after rows with different keys.
import Mathlib.Data.List.AList

namespace TableFill

variable {α β ρ : Type} [DecidableEq α] {key : ρ → α} {value : ρ → Option β}
  {rows : List ρ} {table : AList fun _ : α => β} {row : ρ}

/-- Tables are compared entry by entry. -/
instance (priority := 1100) decidableEqTable [DecidableEq β] : DecidableEq (AList fun _ : α => β) :=
  fun table table' => decidable_of_iff (table.entries = table'.entries) AList.ext_iff.symm

/-- The order in which a hash table gives its entries. -/
structure RowOrder (ε : Type) where
  arrange : List ε → List ε
  perm : ∀ rows, (arrange rows).Perm rows

def RowOrder.listed (ε : Type) : RowOrder ε := ⟨id, fun _ => .refl _⟩

/-- Puts the value under the key, if there is a value. -/
def put (table : AList fun _ : α => β) (key : α) : Option β → AList fun _ : α => β
  | none => table
  | some value => table.insert key value

def fill (key : ρ → α) (value : ρ → Option β) (rows : List ρ) (table : AList fun _ : α => β) :
    AList fun _ : α => β :=
  rows.foldl (fun table row => put table (key row) (value row)) table

theorem lookup_put (a : α) (v : Option β) : (put table a v).lookup a = v.or (table.lookup a) := by
  cases v with
  | none => rfl
  | some v => exact AList.lookup_insert table

theorem lookup_put_ne {a a' : α} (h : a' ≠ a) (v : Option β) :
    (put table a v).lookup a' = table.lookup a' := by
  cases v with
  | none => rfl
  | some v => exact AList.lookup_insert_ne h

theorem lookup_fill_of_notMem {a : α} (h : a ∉ rows.map key) :
    (fill key value rows table).lookup a = table.lookup a := by
  induction rows generalizing table with
  | nil => rfl
  | cons row rows ih =>
      rw [List.map_cons, List.mem_cons, not_or] at h
      rw [fill, List.foldl_cons, ← fill, ih h.2, lookup_put_ne h.1]

theorem lookup_fill (hnodup : (rows.map key).Nodup) (hmem : row ∈ rows) :
    (fill key value rows table).lookup (key row) = (value row).or (table.lookup (key row)) := by
  induction rows generalizing table with
  | nil => cases hmem
  | cons first rows ih =>
      rw [List.map_cons, List.nodup_cons] at hnodup
      rw [fill, List.foldl_cons, ← fill]
      rcases List.mem_cons.mp hmem with rfl | hmem
      · rw [lookup_fill_of_notMem hnodup.1, lookup_put]
      · have hne : key row ≠ key first := fun heq =>
          hnodup.1 (heq ▸ List.mem_map_of_mem hmem)
        rw [ih hnodup.2 hmem, lookup_put_ne hne]

end TableFill
