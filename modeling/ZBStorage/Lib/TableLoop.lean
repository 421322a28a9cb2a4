-- SUMMARY: Loops over a table in any order, each entry updated from the partly updated table, with their invariant rule.
import Mathlib.Data.List.AList

/-!
# Loops over a table

A hash table is visited in an order nobody promises. A loop over it that updates
each entry in place is `forEach` over a list of keys, and what holds for every
list holds for every order of the table. A key has one turn in a list without
repetitions, and no other turn touches its entry (`lookup_forEach`).
-/

namespace TableLoop

variable {α β : Type} [DecidableEq α]

abbrev Table (α β : Type) := AList fun _ : α => β

theorem mem_of_lookup {table : Table α β} {key : α} {value : β}
    (h : table.lookup key = some value) : key ∈ table := by
  rw [← AList.lookup_isSome, h]
  rfl

/-- `order` lists the keys of the table, each of them once. -/
structure Enumerates (order : List α) (table : Table α β) : Prop where
  nodup : order.Nodup
  mem_iff : ∀ key, key ∈ order ↔ key ∈ table

omit [DecidableEq α] in
theorem enumerates_keys (table : Table α β) : Enumerates table.keys table :=
  ⟨table.keys_nodup, fun _ => Iff.rfl⟩

section ForEach

/- What the loop makes of an entry, and whether it reports a change. -/
variable (update : Table α β → β → β × Bool)

def forEach : List α → Table α β → Table α β × Bool
  | [], table => (table, false)
  | key :: order, table =>
      match table.lookup key with
      | none => forEach order table
      | some value =>
          let updated := update table value
          let later := forEach order (table.insert key updated.1)
          (later.1, updated.2 || later.2)

variable {update} {order : List α} {table : Table α β}

theorem forEach_cons_of_lookup {key : α} {value : β} (h : table.lookup key = some value) :
    forEach update (key :: order) table =
      ((forEach update order (table.insert key (update table value).1)).1,
        (update table value).2 ||
          (forEach update order (table.insert key (update table value).1)).2) := by
  simp only [forEach, h]

theorem forEach_cons_of_lookup_none {key : α} (h : table.lookup key = none) :
    forEach update (key :: order) table = forEach update order table := by
  simp only [forEach, h]

/-- What every turn preserves, the loop preserves. -/
theorem forEach_invariant {I : Table α β → Prop}
    (hturn : ∀ table key value, I table → table.lookup key = some value →
      I (table.insert key (update table value).1))
    (hinv : I table) : I (forEach update order table).1 := by
  induction order generalizing table with
  | nil => exact hinv
  | cons key order ih =>
      cases hlookup : table.lookup key with
      | none =>
          rw [forEach_cons_of_lookup_none hlookup]
          exact ih hinv
      | some value =>
          rw [forEach_cons_of_lookup hlookup]
          exact ih (hturn table key value hinv hlookup)

theorem forEach_append (order₁ order₂ : List α) (table : Table α β) :
    (forEach update (order₁ ++ order₂) table).1 =
      (forEach update order₂ (forEach update order₁ table).1).1 := by
  induction order₁ generalizing table with
  | nil => rfl
  | cons key order₁ ih =>
      rw [List.cons_append]
      cases hlookup : table.lookup key with
      | none =>
          rw [forEach_cons_of_lookup_none hlookup, forEach_cons_of_lookup_none hlookup, ih]
      | some value =>
          rw [forEach_cons_of_lookup hlookup, forEach_cons_of_lookup hlookup, ih]

theorem lookup_forEach_of_notMem {key : α} (h : key ∉ order) :
    (forEach update order table).1.lookup key = table.lookup key := by
  induction order generalizing table with
  | nil => rfl
  | cons other order ih =>
      rw [List.mem_cons, not_or] at h
      cases hlookup : table.lookup other with
      | none =>
          rw [forEach_cons_of_lookup_none hlookup]
          exact ih h.2
      | some value =>
          rw [forEach_cons_of_lookup hlookup, ih h.2, AList.lookup_insert_ne h.1]

/-- The entry of a key is what its turn makes of it, in the table as the turns
    before left it. -/
theorem lookup_forEach {order₁ order₂ : List α} {key : α} {value : β}
    (hnodup : (order₁ ++ key :: order₂).Nodup) (h : table.lookup key = some value) :
    (forEach update (order₁ ++ key :: order₂) table).1.lookup key =
      some (update (forEach update order₁ table).1 value).1 := by
  have hdisjoint := List.nodup_append.mp hnodup
  have hbefore : key ∉ order₁ := fun hmem =>
    hdisjoint.2.2 key hmem key List.mem_cons_self rfl
  have hafter : key ∉ order₂ := (List.nodup_cons.mp hdisjoint.2.1).1
  rw [forEach_append, forEach_cons_of_lookup ((lookup_forEach_of_notMem hbefore).trans h),
    lookup_forEach_of_notMem hafter, AList.lookup_insert]

/-- What the turns preserve, each in the table that the turns before it leave, the
    loop preserves. -/
theorem forEach_turns {I : Table α β → Prop} (hnodup : order.Nodup)
    (hturn : ∀ order₁ key order₂ value, order = order₁ ++ key :: order₂ →
      table.lookup key = some value → I (forEach update order₁ table).1 →
      I ((forEach update order₁ table).1.insert key
        (update (forEach update order₁ table).1 value).1))
    (hinv : I table) : I (forEach update order table).1 := by
  suffices hrest : ∀ order₂ order₁, order = order₁ ++ order₂ →
      I (forEach update order₁ table).1 → I (forEach update order table).1 from
    hrest order [] rfl hinv
  intro order₂
  induction order₂ with
  | nil =>
      intro order₁ horder hbefore
      rw [horder, List.append_nil]
      exact hbefore
  | cons key order₂ ih =>
      intro order₁ horder hbefore
      have hsplit : order = (order₁ ++ [key]) ++ order₂ := by
        rw [horder, List.append_assoc, List.singleton_append]
      apply ih (order₁ ++ [key]) hsplit
      have hunvisited : key ∉ order₁ := by
        rw [horder] at hnodup
        exact fun hmem => (List.nodup_append.mp hnodup).2.2 key hmem key List.mem_cons_self rfl
      have hsame : (forEach update order₁ table).1.lookup key = table.lookup key :=
        lookup_forEach_of_notMem hunvisited
      rw [forEach_append]
      cases hlookup : table.lookup key with
      | none =>
          rw [forEach_cons_of_lookup_none (hsame.trans hlookup)]
          exact hbefore
      | some value =>
          rw [forEach_cons_of_lookup (hsame.trans hlookup)]
          exact hturn order₁ key order₂ value horder hlookup hbefore

theorem mem_forEach {key : α} : key ∈ (forEach update order table).1 ↔ key ∈ table := by
  apply forEach_invariant (I := fun t => key ∈ t ↔ key ∈ table)
  · intro t other value hinv hlookup
    have hmem : other ∈ t := mem_of_lookup hlookup
    rw [AList.mem_insert, ← hinv]
    constructor
    · rintro (rfl | h)
      · exact hmem
      · exact h
    · exact Or.inr
  · rfl

/-- A loop without a change made none at any turn. -/
theorem forEach_unchanged {order₁ order₂ : List α} {key : α} {value : β}
    (hnodup : (order₁ ++ key :: order₂).Nodup) (h : table.lookup key = some value)
    (hsame : (forEach update (order₁ ++ key :: order₂) table).2 = false) :
    (update (forEach update order₁ table).1 value).2 = false := by
  induction order₁ generalizing table with
  | nil =>
      rw [List.nil_append, forEach_cons_of_lookup h, Bool.or_eq_false_iff] at hsame
      exact hsame.1
  | cons other order₁ ih =>
      rw [List.cons_append, List.nodup_cons] at hnodup
      have hne : key ≠ other := fun heq => hnodup.1 (heq ▸ List.mem_append_right _ List.mem_cons_self)
      rw [List.cons_append] at hsame
      cases hlookup : table.lookup other with
      | none =>
          rw [forEach_cons_of_lookup_none hlookup] at hsame ⊢
          exact ih hnodup.2 h hsame
      | some otherValue =>
          rw [forEach_cons_of_lookup hlookup, Bool.or_eq_false_iff] at hsame
          rw [forEach_cons_of_lookup hlookup]
          apply ih hnodup.2 _ hsame.2
          rw [AList.lookup_insert_ne hne, h]

end ForEach

/-- The entries around a key, which stay when another value is filed under it. -/
theorem entries_split {table : Table α β} {key : α} {value : β}
    (h : table.lookup key = some value) :
    ∃ entries₁ entries₂, table.entries = entries₁ ++ ⟨key, value⟩ :: entries₂ ∧
      ∀ value', (table.insert key value').entries = ⟨key, value'⟩ :: (entries₁ ++ entries₂) := by
  obtain ⟨value', entries₁, entries₂, _, hentries, herase⟩ :=
    List.exists_of_kerase (AList.mem_keys.mp (mem_of_lookup h))
  have hmem : (⟨key, value'⟩ : Sigma fun _ => β) ∈ table.entries := by
    rw [hentries]
    exact List.mem_append_right _ List.mem_cons_self
  have hfound : table.lookup key = some value' := AList.mem_lookup_iff.mpr hmem
  rw [h] at hfound
  cases hfound
  refine ⟨entries₁, entries₂, hentries, fun value' => ?_⟩
  rw [AList.entries_insert, herase]

theorem Enumerates.split {order : List α} {table : Table α β} (h : Enumerates order table) {key : α}
    {value : β} (hlookup : table.lookup key = some value) :
    ∃ order₁ order₂, order = order₁ ++ key :: order₂ :=
  List.append_of_mem ((h.mem_iff key).mpr (mem_of_lookup hlookup))

end TableLoop
