-- SUMMARY: Archive metadata within its capacity: when a change leaves a table that a start gives back.
import ZBStorage.DataNode.ArchiveMetaLog

/-!
# The capacity of the archive metadata

The files agree with the table as long as no change puts an entry in place and evicts
the same entry, whose record then stands behind that of its deletion. A start cuts the
table to its capacity, so it gives the table back only if the table is within it.
-/

namespace Zb.DataNode.MetaStore

open Bytes TextFields TableFill WalRecords

variable {ρ : Type} {format : MetaFormat ρ} {order : MetaOrder ρ} {store : MetaStore ρ}
  {norm : ρ → ρ} {metas replayed : MetaTable ρ} {payload body : Bytes} {row : ρ} {key : Bytes}

/-- The files hold the table, and the table is within its capacity. -/
structure Exact (format : MetaFormat ρ) (norm : ρ → ρ) (store : MetaStore ρ)
    (replayed : MetaTable ρ) : Prop where
  follows : Follows format norm store replayed
  agrees : Agrees norm store.metas replayed
  length_le : store.metas.entries.length ≤ store.maxEntries

/-! ## Sizes -/

theorem length_insert_of_mem (h : key ∈ metas) (row : ρ) :
    (metas.insert key row).entries.length = metas.entries.length := by
  obtain ⟨old, before, behind, -, hentries, herase⟩ := List.exists_of_kerase (AList.mem_keys.mp h)
  rw [AList.entries_insert, herase, hentries, List.length_cons, List.length_append,
    List.length_append, List.length_cons]
  omega

theorem length_insert_of_notMem (h : key ∉ metas) (row : ρ) :
    (metas.insert key row).entries.length = metas.entries.length + 1 := by
  rw [AList.entries_insert_of_notMem h, List.length_cons]

theorem record_bounds (format : MetaFormat ρ) (order : MetaOrder ρ) (store : MetaStore ρ)
    (payload : Bytes) :
    (record format order store payload).2.metas = store.metas ∧
      (record format order store payload).2.maxEntries = store.maxEntries := by
  unfold record
  split
  · exact ⟨rfl, rfl⟩
  · rename_i logged happend
    obtain ⟨hmetas, hmax⟩ := appendWalRecord_metas happend
    dsimp only
    unfold maybeSnapshot
    split
    · exact ⟨hmetas, hmax⟩
    · exact ⟨hmetas, hmax⟩

theorem evictIfNeeded_max (store : MetaStore ρ) (walOpen : Bool) :
    (evictIfNeeded format order store walOpen).maxEntries = store.maxEntries := by
  unfold evictIfNeeded
  generalize store.metas.entries.length = fuel
  induction fuel generalizing store with
  | zero => rfl
  | succ fuel ih =>
      rw [evictLoop]
      split
      · rfl
      · split
        · rfl
        · exact (ih _).trans (evict_metas _ _ _ _).2

/-! ## Changes that find room -/

/-- There is room for the entry: it is there already, or the table is not full. -/
def HasRoom (store : MetaStore ρ) (key : Bytes) : Prop :=
  key ∈ store.metas ∨ store.metas.entries.length < store.maxEntries

theorem HasRoom.length_insert (h : HasRoom store key)
    (hlength : store.metas.entries.length ≤ store.maxEntries) (row : ρ) :
    (store.metas.insert key row).entries.length ≤ store.maxEntries := by
  by_cases hmem : key ∈ store.metas
  · rw [length_insert_of_mem hmem]
    exact hlength
  · rw [length_insert_of_notMem hmem]
    exact h.resolve_left hmem

/-- Or the scan for the oldest entry finds another one. -/
def MakesRoom (format : MetaFormat ρ) (order : MetaOrder ρ) (store : MetaStore ρ) (row : ρ) : Prop :=
  HasRoom store (format.key row) ∨
    ∃ victim ∈ oldest format
      (order.arrange (store.metas.insert (format.key row) row).entries),
        victim.1 ≠ format.key row

instance (store : MetaStore ρ) (key : Bytes) : Decidable (HasRoom store key) :=
  inferInstanceAs (Decidable (_ ∨ _))

instance (format : MetaFormat ρ) (order : MetaOrder ρ) (store : MetaStore ρ) (row : ρ) :
    Decidable (MakesRoom format order store row) := inferInstanceAs (Decidable (_ ∨ _))

theorem Exact.put (h : Exact format norm store replayed) (hrow : format.Writes row (norm row))
    (hroom : HasRoom store (format.key row)) (order : MetaOrder ρ) :
    ∃ replayed', Exact format norm (put format order store row).2 replayed' := by
  obtain ⟨-, hmetas, replayed', hfollows, hagrees⟩ := h.follows.put hrow order
  refine ⟨replayed', hfollows, hagrees trivial h.agrees, ?_⟩
  have hmax : (MetaStore.put format order store row).2.maxEntries = store.maxEntries :=
    (record_bounds _ _ _ _).2
  rw [hmetas, hmax]
  exact hroom.length_insert h.length_le row

/-- The entry stays, and the table is within its capacity. -/
theorem MakesRoom.evicted (h : MakesRoom format order store row)
    (hlength : store.metas.entries.length ≤ store.maxEntries) :
    let inserted := { store with metas := store.metas.insert (format.key row) row }
    (evictIfNeeded format order inserted true).metas.lookup (format.key row) = some row ∧
      (evictIfNeeded format order inserted true).metas.entries.length ≤ store.maxEntries := by
  dsimp only
  by_cases hroom : HasRoom store (format.key row)
  · have hle := hroom.length_insert hlength row
    rw [evictIfNeeded_of_le hle]
    exact ⟨AList.lookup_insert _, hle⟩
  · obtain ⟨victim, hvictim, hne⟩ := h.resolve_left hroom
    rw [HasRoom, not_or] at hroom
    have hfull : (store.metas.insert (format.key row) row).entries.length =
        store.maxEntries + 1 := by
      rw [length_insert_of_notMem hroom.1]
      omega
    have hmem := (order.perm _).mem_iff.mp (oldest_eq_some hvictim).1
    have herase := length_erase hmem
    rw [evictIfNeeded_one hfull hvictim, (evict_metas _ _ _ victim).1]
    refine ⟨?_, Nat.le_of_succ_le_succ (herase.trans hfull).le⟩
    rw [AList.lookup_erase_ne hne.symm]
    exact AList.lookup_insert _

theorem Exact.putEvicting (h : Exact format norm store replayed)
    (hrow : format.Writes row (norm row)) (hroom : MakesRoom format order store row) :
    ∃ replayed', Exact format norm (putEvicting format order store row).2 replayed' := by
  obtain ⟨hstays, hlength⟩ := hroom.evicted h.length_le
  obtain ⟨-, replayed', hfollows, hagrees⟩ := h.follows.putEvicting hrow order
  obtain ⟨hmetas, hmax⟩ := record_bounds format order
    (evictIfNeeded format order
      { store with metas := store.metas.insert (format.key row) row } true)
    (updatePayload (format.serializeMetaLine row))
  refine ⟨replayed', hfollows, hagrees ?_ h.agrees, ?_⟩
  · rw [MetaStore.putEvicting, hmetas]
    exact hstays
  · rw [MetaStore.putEvicting, hmetas, hmax, evictIfNeeded_max]
    exact hlength

theorem Exact.remove (h : Exact format norm store replayed)
    (hkey : format.parseDeletion body = some key)
    (hsize : (deletePayload body).length ≤ kMaxWalPayloadBytes) (order : MetaOrder ρ) :
    ∃ replayed', Exact format norm (remove format order store key body) replayed' := by
  obtain ⟨hmetas, replayed', hfollows, hagrees⟩ := h.follows.remove hkey hsize order
  refine ⟨replayed', hfollows, hagrees trivial h.agrees, ?_⟩
  have hmax : (MetaStore.remove format order store key body).maxEntries = store.maxEntries :=
    (record_bounds _ _ _ _).2
  have hle : (store.metas.erase key).entries.length ≤ store.metas.entries.length :=
    (List.kerase_sublist _ _).length_le
  rw [hmetas, hmax]
  exact Nat.le_trans hle h.length_le

/-- The entries that are never evicted. -/
def lasting (format : MetaFormat ρ) (metas : MetaTable ρ) : List (Sigma fun _ : Bytes => ρ) :=
  metas.entries.filter fun entry => format.lastAccess entry.2 = maxTs

theorem Exact.setMax (h : Exact format norm store replayed) (order : MetaOrder ρ) {maxEntries : Nat}
    (hlasting : (lasting format store.metas).length ≤ max 1 maxEntries) :
    ∃ replayed', Exact format norm (setMax format order store maxEntries) replayed' := by
  have hfollows : Follows format norm { store with maxEntries := max 1 maxEntries } replayed :=
    ⟨h.follows.logged, h.follows.sound, h.follows.covers⟩
  obtain ⟨replayed', hfollows', hagrees⟩ := hfollows.evictIfNeeded order
  refine ⟨replayed', hfollows', hagrees trivial h.agrees, ?_⟩
  rw [MetaStore.setMax, evictIfNeeded_max]
  rcases length_evictLoop order true
    (Nat.le_refl (MetaStore.metas { store with maxEntries := max 1 maxEntries }).entries.length)
    with hle | hall
  · exact hle
  · refine Nat.le_trans (List.Subperm.length_le (List.subperm_of_subset
      (List.NodupKeys.nodup (AList.nodupKeys _)) fun entry hmem => ?_)) hlasting
    have hkept := (evictLoop_oldest format order true _
      { store with maxEntries := max 1 maxEntries }).1 entry.1 entry.2 (AList.mem_lookup_iff.mpr hmem)
    exact List.mem_filter.mpr ⟨AList.mem_lookup_iff.mp hkept, decide_eq_true (hall entry hmem)⟩

/-- A start with the same capacity gives the table back. -/
theorem Exact.init (h : Exact format norm store replayed) (order : MetaOrder ρ)
    (interval : UInt32) :
    ∃ reloaded,
      init format order store.maxEntries interval store.snapshot store.wal = .ok reloaded ∧
        Agrees norm store.metas reloaded.metas := by
  obtain ⟨reloaded, hinit, hmetas⟩ := h.follows.init order store.maxEntries interval
  refine ⟨reloaded, hinit, ?_⟩
  rw [hmetas (Nat.le_trans h.agrees.length_le h.length_le)]
  exact h.agrees

end Zb.DataNode.MetaStore
