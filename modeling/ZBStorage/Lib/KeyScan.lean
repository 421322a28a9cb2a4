-- SUMMARY: Ordered key-value stores: iteration over the keys that start alike, and batches of writes.
import Mathlib.Data.List.AList
import Mathlib.Data.List.Sort
import Mathlib.Data.List.TakeWhile
import ZBStorage.Lib.Bytes

/-!
# Stores ordered by key

Keys are strings over an ordered alphabet. An iterator visits them in
lexicographic order, from the first that is not below a given string to the first
that does not start with it; it thereby finds exactly the keys that do.
-/

namespace KeyScan

/-! ## Iteration -/

section Iteration

variable {α : Type} [LT α] [LE α] [Std.IsLinearOrder α] [Std.LawfulOrderLT α]

/-- Past the strings that start with `start` there are only greater ones. -/
theorem lt_of_start {start key past : List α} (hkey : start <+: key) (hle : start ≤ past)
    (hpast : ¬ start <+: past) : key < past := by
  induction start generalizing key past with
  | nil => exact absurd (List.nil_prefix) hpast
  | cons a start ih =>
      obtain ⟨rest, rfl⟩ := hkey
      cases past with
      | nil => simp at hle
      | cons b past =>
          rw [List.cons_append, List.cons_lt_cons_iff]
          rcases List.cons_le_cons_iff.mp hle with hlt | ⟨rfl, htail⟩
          · exact .inl hlt
          · refine .inr ⟨rfl, ih ⟨rest, rfl⟩ htail ?_⟩
            rintro ⟨tail, rfl⟩
            exact hpast ⟨tail, rfl⟩

variable [DecidableEq α] [DecidableLT α]

/-- `Seek(start)`, then `Next` until a key does not start with it. -/
def scan (start : List α) (keys : List (List α)) : List (List α) :=
  ((keys.insertionSort fun a b => a ≤ b).dropWhile fun key => decide (key < start)).takeWhile
    fun key => start.isPrefixOf key

omit [DecidableLT α] in
theorem mem_takeWhile_start {start key : List α} {keys : List (List α)}
    (hsorted : keys.Pairwise fun a b => a ≤ b) (hle : ∀ k ∈ keys, start ≤ k)
    (hkey : key ∈ keys) (hstart : start <+: key) :
    key ∈ keys.takeWhile fun k => start.isPrefixOf k := by
  induction keys with
  | nil => cases hkey
  | cons first keys ih =>
      obtain ⟨hfirst, hsorted⟩ := List.pairwise_cons.mp hsorted
      by_cases hpre : start <+: first
      · rw [List.takeWhile_cons_of_pos (List.isPrefixOf_iff_prefix.mpr hpre)]
        rcases List.mem_cons.mp hkey with rfl | hkey
        · exact List.mem_cons_self
        · exact List.mem_cons_of_mem _
            (ih hsorted (fun k hk => hle k (List.mem_cons_of_mem _ hk)) hkey)
      · -- the iterator stops here, and the key would lie behind
        have hlt := lt_of_start hstart (hle first List.mem_cons_self) hpre
        rcases List.mem_cons.mp hkey with rfl | hkey
        · exact absurd hstart hpre
        · exact absurd hlt (List.not_lt.mpr (hfirst key hkey))

theorem mem_dropWhile_start {start key : List α} {keys : List (List α)}
    (hsorted : keys.Pairwise fun a b => a ≤ b) :
    key ∈ keys.dropWhile (fun k => decide (k < start)) ↔ key ∈ keys ∧ start ≤ key := by
  induction keys with
  | nil => simp
  | cons first keys ih =>
      obtain ⟨hfirst, hsorted⟩ := List.pairwise_cons.mp hsorted
      by_cases hlt : first < start
      · rw [List.dropWhile_cons_of_pos (by simpa using hlt), ih hsorted]
        constructor
        · rintro ⟨hkey, hle⟩
          exact ⟨List.mem_cons_of_mem _ hkey, hle⟩
        · rintro ⟨hkey, hle⟩
          rcases List.mem_cons.mp hkey with rfl | hkey
          · exact absurd hlt (List.not_lt.mpr hle)
          · exact ⟨hkey, hle⟩
      · rw [List.dropWhile_cons_of_neg (by simpa using hlt)]
        refine ⟨fun hkey => ⟨hkey, ?_⟩, fun h => h.1⟩
        have hle := List.not_lt.mp hlt
        rcases List.mem_cons.mp hkey with rfl | hkey
        · exact hle
        · exact List.le_trans hle (hfirst key hkey)

/-- A scan finds the keys that start with the given string, and no others. -/
theorem mem_scan {start key : List α} {keys : List (List α)} :
    key ∈ scan start keys ↔ key ∈ keys ∧ start <+: key := by
  have : Std.Total (fun a b : List α => a ≤ b) := ⟨fun a b => List.le_total a b⟩
  have : IsTrans (List α) (fun a b => a ≤ b) := ⟨fun _ _ _ => List.le_trans⟩
  have hsorted := List.pairwise_insertionSort (fun a b : List α => a ≤ b) keys
  have hperm := (List.perm_insertionSort (fun a b : List α => a ≤ b) keys).mem_iff (a := key)
  constructor
  · intro h
    have hpre := List.mem_takeWhile_imp h
    have hmem := (mem_dropWhile_start hsorted).mp ((List.takeWhile_sublist _).subset h)
    exact ⟨hperm.mp hmem.1, List.isPrefixOf_iff_prefix.mp hpre⟩
  · rintro ⟨hkey, hstart⟩
    apply mem_takeWhile_start
    · exact hsorted.sublist (List.dropWhile_sublist _)
    · intro k hk
      exact ((mem_dropWhile_start hsorted).mp hk).2
    · exact (mem_dropWhile_start hsorted).mpr ⟨hperm.mpr hkey, hstart.le⟩
    · exact hstart

end Iteration

/-! ## Batches -/

section Batches

variable {K V : Type} [DecidableEq K]

inductive WriteOp (K V : Type)
  | put (key : K) (value : V)
  | delete (key : K)

def WriteOp.apply (db : AList fun _ : K => V) : WriteOp K V → AList fun _ : K => V
  | .put key value => db.insert key value
  | .delete key => db.erase key

def writeBatch (db : AList fun _ : K => V) (batch : List (WriteOp K V)) : AList fun _ : K => V :=
  batch.foldl WriteOp.apply db

theorem writeBatch_append (db : AList fun _ : K => V) (first second : List (WriteOp K V)) :
    writeBatch db (first ++ second) = writeBatch (writeBatch db first) second :=
  List.foldl_append ..

theorem lookup_deletes (db : AList fun _ : K => V) (keys : List K) (key : K) :
    (writeBatch db (keys.map .delete)).lookup key =
      if key ∈ keys then none else db.lookup key := by
  induction keys generalizing db with
  | nil => simp [writeBatch]
  | cons first keys ih =>
      have hstep : writeBatch db ((first :: keys).map .delete) =
          writeBatch (db.erase first) (keys.map .delete) := rfl
      rw [hstep, ih]
      by_cases hkey : key = first
      · subst hkey
        simp
      · rw [AList.lookup_erase_ne hkey]
        simp [hkey]

theorem lookup_puts_of_ne {db : AList fun _ : K => V} {items : List (K × V)} {key : K}
    (h : ∀ item ∈ items, item.1 ≠ key) :
    (writeBatch db (items.map fun item => .put item.1 item.2)).lookup key = db.lookup key := by
  induction items generalizing db with
  | nil => rfl
  | cons item items ih =>
      have hstep : writeBatch db ((item :: items).map fun item => .put item.1 item.2) =
          writeBatch (db.insert item.1 item.2) (items.map fun item => .put item.1 item.2) := rfl
      rw [hstep, ih fun other hother => h other (List.mem_cons_of_mem _ hother),
        AList.lookup_insert_ne fun heq => h item List.mem_cons_self heq.symm]

/-- A key that is written once has what is written. -/
theorem lookup_puts_cons {db : AList fun _ : K => V} {item : K × V} {items : List (K × V)}
    (h : ∀ other ∈ items, other.1 ≠ item.1) :
    (writeBatch db ((item :: items).map fun item => .put item.1 item.2)).lookup item.1 =
      some item.2 := by
  have hstep : writeBatch db ((item :: items).map fun item => .put item.1 item.2) =
      writeBatch (db.insert item.1 item.2) (items.map fun item => .put item.1 item.2) := rfl
  rw [hstep, lookup_puts_of_ne h, AList.lookup_insert]

theorem mem_puts {db : AList fun _ : K => V} {items : List (K × V)} {key : K} :
    key ∈ writeBatch db (items.map fun item => .put item.1 item.2) ↔
      (∃ item ∈ items, item.1 = key) ∨ key ∈ db := by
  induction items generalizing db with
  | nil => simp [writeBatch]
  | cons item items ih =>
      have hstep : writeBatch db ((item :: items).map fun item => .put item.1 item.2) =
          writeBatch (db.insert item.1 item.2) (items.map fun item => .put item.1 item.2) := rfl
      rw [hstep, ih, AList.mem_insert, List.exists_mem_cons_iff]
      constructor
      · rintro (hlater | rfl | hold)
        · exact .inl (.inr hlater)
        · exact .inl (.inl rfl)
        · exact .inr hold
      · rintro ((rfl | hlater) | hold)
        · exact .inr (.inl rfl)
        · exact .inl hlater
        · exact .inr (.inr hold)

end Batches

end KeyScan
