-- SUMMARY: The metadata store: its contents, reads, write batches, and the dentries of a directory.
import Mathlib.Data.List.AList
import Mathlib.Data.List.Sort
import ZBStorage.Mds.Storage.MetaSchema

/-!
# The metadata store

`RocksMetaStore.cpp`. The contents of the store is a finite map from keys to
values. A read that finds nothing fails with an empty error, as opposed to a read
that fails; a write batch is applied as a whole.
-/

namespace Zb.Mds

open Zb.Rpc Bytes

/-- The contents of the store. -/
abbrev MetaMap := AList MetaKey.Value

inductive BatchEntry
  | put (k : MetaKey) (v : k.Value)
  | delete (k : MetaKey)

def BatchEntry.key : BatchEntry → MetaKey
  | .put k _ => k
  | .delete k => k

def BatchEntry.apply (db : MetaMap) : BatchEntry → MetaMap
  | .put k v => db.insert k v
  | .delete k => db.erase k

/-- `rocksdb::WriteBatch`: its entries are applied in the order they were added. -/
abbrev WriteBatch := List BatchEntry

def MetaMap.write (db : MetaMap) (batch : WriteBatch) : MetaMap := batch.foldl BatchEntry.apply db

/-! ## Lookups after writes -/

@[simp] theorem MetaMap.write_nil (db : MetaMap) : db.write [] = db := rfl

@[simp] theorem MetaMap.write_cons (db : MetaMap) (e : BatchEntry) (batch : WriteBatch) :
    db.write (e :: batch) = (e.apply db).write batch := rfl

theorem MetaMap.write_append (db : MetaMap) (b₁ b₂ : WriteBatch) :
    db.write (b₁ ++ b₂) = (db.write b₁).write b₂ := List.foldl_append

@[simp] theorem BatchEntry.apply_put (db : MetaMap) (k : MetaKey) (v : k.Value) :
    (BatchEntry.put k v).apply db = db.insert k v := rfl

@[simp] theorem BatchEntry.apply_delete (db : MetaMap) (k : MetaKey) :
    (BatchEntry.delete k).apply db = db.erase k := rfl

/-- A batch touches only the keys of its entries. -/
theorem MetaMap.lookup_write_of_notMem {db : MetaMap} {batch : WriteBatch} {k : MetaKey}
    (h : ∀ e ∈ batch, e.key ≠ k) : (db.write batch).lookup k = db.lookup k := by
  induction batch generalizing db with
  | nil => rfl
  | cons e batch ih =>
      rw [write_cons, ih fun e' he' => h e' (List.mem_cons_of_mem e he')]
      have hne : k ≠ e.key := (h e List.mem_cons_self).symm
      cases e with
      | put k' v => exact AList.lookup_insert_ne hne
      | delete k' => exact AList.lookup_erase_ne hne

/-- The batch leaves `v` under `k`: its last word on the key, or one of them. -/
def Sets (batch : WriteBatch) (k : MetaKey) : Option k.Value → Prop
  | some v => .put k v ∈ batch
  | none => .delete k ∈ batch

theorem Sets.exists_key {batch : WriteBatch} {k : MetaKey} {v : Option k.Value}
    (h : Sets batch k v) : ∃ e ∈ batch, e.key = k := by
  cases v with
  | some v => exact ⟨_, h, rfl⟩
  | none => exact ⟨_, h, rfl⟩

/-- A key has the value it had before a batch, or one the batch gave it. -/
theorem MetaMap.lookup_write (db : MetaMap) (batch : WriteBatch) (k : MetaKey) :
    (db.write batch).lookup k = db.lookup k ∨ Sets batch k ((db.write batch).lookup k) := by
  induction batch using List.reverseRecOn with
  | nil => exact .inl rfl
  | append_singleton batch e ih =>
      rw [write_append, write_cons, write_nil]
      by_cases hk : k = e.key
      · subst hk
        refine .inr ?_
        cases e with
        | put k v => simp [Sets, BatchEntry.key]
        | delete k => simp [Sets, BatchEntry.key]
      · have hsame : (e.apply (db.write batch)).lookup k = (db.write batch).lookup k := by
          cases e with
          | put k' v => exact AList.lookup_insert_ne hk
          | delete k' => exact AList.lookup_erase_ne hk
        rw [hsame]
        refine ih.imp_right fun hset => ?_
        cases hv : (db.write batch).lookup k with
        | some v =>
            rw [hv] at hset
            exact List.mem_append_left _ hset
        | none =>
            rw [hv] at hset
            exact List.mem_append_left _ hset

/-! Directory entries and inodes after a write of either kind. -/

section Namespace

variable (db : MetaMap) (p q id x : UInt64) (n m v : Bytes)

@[simp] theorem MetaMap.lookup_dentry_insert_dentry :
    AList.lookup (.dentry q m) (AList.insert (.dentry p n) v db) =
      if q = p ∧ m = n then some v else db.lookup (.dentry q m) := by
  split
  · next h =>
      obtain ⟨rfl, rfl⟩ := h
      exact AList.lookup_insert db
  · next h => exact AList.lookup_insert_ne fun hk => h (by cases hk; exact ⟨rfl, rfl⟩)

@[simp] theorem MetaMap.lookup_dentry_erase_dentry :
    AList.lookup (.dentry q m) (AList.erase (.dentry p n) db) =
      if q = p ∧ m = n then none else db.lookup (.dentry q m) := by
  split
  · next h =>
      obtain ⟨rfl, rfl⟩ := h
      exact AList.lookup_erase _ db
  · next h => exact AList.lookup_erase_ne fun hk => h (by cases hk; exact ⟨rfl, rfl⟩)

@[simp] theorem MetaMap.lookup_inode_insert_inode :
    AList.lookup (.inode x) (AList.insert (.inode id) v db) =
      if x = id then some v else db.lookup (.inode x) := by
  split
  · next h =>
      subst h
      exact AList.lookup_insert db
  · next h => exact AList.lookup_insert_ne fun hk => h (by cases hk; rfl)

@[simp] theorem MetaMap.lookup_inode_erase_inode :
    AList.lookup (.inode x) (AList.erase (.inode id) db) =
      if x = id then none else db.lookup (.inode x) := by
  split
  · next h =>
      subst h
      exact AList.lookup_erase _ db
  · next h => exact AList.lookup_erase_ne fun hk => h (by cases hk; rfl)

variable {db} {k : MetaKey}

@[simp] theorem MetaMap.lookup_dentry_insert_other {w : k.Value} (h : ∀ q m, k ≠ .dentry q m) :
    AList.lookup (.dentry q m) (AList.insert k w db) = db.lookup (.dentry q m) :=
  AList.lookup_insert_ne (h q m).symm

end Namespace

/-! ## Reads -/

/-- The answer of a read of the store that does not fail. -/
def MetaMap.read (db : MetaMap) (k : MetaKey) : Except String k.Value :=
  match db.lookup k with
  | some v => .ok v
  | none => .error ""

@[simp] theorem MetaMap.read_eq_ok {db : MetaMap} {k : MetaKey} {v : k.Value} :
    db.read k = .ok v ↔ db.lookup k = some v := by
  unfold read
  split
  · next w h => rw [h, Except.ok.injEq, Option.some.injEq]
  · next h => simp [h]

theorem MetaMap.read_eq_error {db : MetaMap} {k : MetaKey} {e : String} :
    db.read k = .error e ↔ db.lookup k = none ∧ e = "" := by
  unfold read
  split
  · next w h => simp [h]
  · next h => simp [h, eq_comm]

/-- The dentries of a directory, as an iterator over its prefix meets them: in
    the order of their names. -/
def MetaMap.dentries (db : MetaMap) (parent : UInt64) : List (Bytes × Bytes) :=
  (db.entries.filterMap fun
    | ⟨.dentry p name, v⟩ => if p = parent then some (name, v) else none
    | _ => none).insertionSort fun a b => a.1 ≤ b.1

theorem MetaMap.mem_dentries {db : MetaMap} {parent : UInt64} {name v : Bytes} :
    (name, v) ∈ db.dentries parent ↔ db.lookup (.dentry parent name) = some v := by
  rw [dentries, List.mem_insertionSort, List.mem_filterMap]
  rw [show db.lookup (.dentry parent name) = some v ↔ v ∈ db.lookup (.dentry parent name) from
    Iff.rfl, AList.mem_lookup_iff]
  constructor
  · rintro ⟨⟨k, w⟩, hmem, hk⟩
    cases k with
    | dentry p n =>
        simp only at hk
        split at hk
        · next hp =>
            subst hp
            cases hk
            exact hmem
        · cases hk
    | _ => cases hk
  · intro hmem
    exact ⟨_, hmem, by simp⟩

theorem MetaMap.dentries_eq_nil {db : MetaMap} {parent : UInt64} :
    db.dentries parent = [] ↔ ∀ name, db.lookup (.dentry parent name) = none := by
  constructor
  · intro h name
    rw [Option.eq_none_iff_forall_ne_some]
    intro v hv
    have hmem := mem_dentries.mpr hv
    rw [h] at hmem
    cases hmem
  · intro h
    refine List.eq_nil_iff_forall_not_mem.mpr ?_
    rintro ⟨name, v⟩ hmem
    rw [mem_dentries, h] at hmem
    cases hmem

end Zb.Mds
