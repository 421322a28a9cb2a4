-- SUMMARY: A start of the archive metadata, and when it gives back what the store held.
import ZBStorage.DataNode.ArchiveFileMetaStore
import ZBStorage.DataNode.ArchiveObjectMetaStore

/-!
# Restarts of the archive metadata

Both stores of archive metadata log what they change and start from the log. Nothing is
escaped: a tab in a text makes a record unreadable, and the replay drops it and
everything behind it; a newline makes the next snapshot unreadable, and the store does
not start. For the start to give exactly the table back, no call may have evicted the
entry that it puts in place, because the entry is logged after its own deletion, and no
call may have put an entry into a full table, because the start cuts the table.
-/

namespace Zb.DataNode

open Bytes MetaStore CallHistory

section Promises

variable {ρ : Type} (format : MetaFormat ρ) (norm : ρ → ρ) (store : MetaStore ρ)

/-- The next start succeeds and reads every entry of the table; only its capacity can cut
    off what it reads. -/
def Survives : Prop :=
  ∃ replayed, Covers norm store.metas replayed ∧
    ∀ order maxEntries interval, ∃ reloaded,
      init format order maxEntries interval store.snapshot store.wal = .ok reloaded ∧
        (replayed.entries.length ≤ maxEntries → reloaded.metas = replayed)

/-- A start with the same capacity gives the table back. -/
def Replays : Prop :=
  ∀ order interval, ∃ reloaded,
    init format order store.maxEntries interval store.snapshot store.wal = .ok reloaded ∧
      Agrees norm store.metas reloaded.metas

/-- What is evicted was accessed no later than what stays. -/
def EvictsOldest : Prop :=
  ∀ order (store : MetaStore ρ) key row key' row', store.metas.lookup key = some row →
    (evictIfNeeded format order store true).metas.lookup key = none →
      (evictIfNeeded format order store true).metas.lookup key' = some row' →
        format.lastAccess row ≤ format.lastAccess row'

variable {format norm store} {κ : Type} {serving : MetaStore ρ → κ → MetaStore ρ → Prop}
  {ok : MetaStore ρ → κ → Prop} {started : MetaStore ρ} {hist : List (Served (MetaStore ρ) κ)}
  {order : MetaOrder ρ} {maxEntries : Nat} {interval : UInt32}

theorem evictsOldest : EvictsOldest format := fun order store =>
  (evictLoop_oldest format order true store.metas.entries.length store).2

/-- The files follow the table through every history of calls that let them. -/
theorem survives_of_calls
    (hserve : ∀ store call store', (∃ replayed, Follows format norm store replayed) →
      ok store call → serving store call store' → ∃ replayed', Follows format norm store' replayed')
    (hstart : init format order maxEntries interval [] [] = .ok started)
    (h : Serves serving ok started hist store) : Survives format norm store := by
  have hempty : Follows format norm started ∅ := (init_empty hstart).1
  obtain ⟨replayed, hfollows⟩ := h.invariant hserve ⟨∅, hempty⟩
  exact ⟨replayed, hfollows.covers, fun order maxEntries interval =>
    hfollows.init order maxEntries interval⟩

theorem replays_of_calls
    (hserve : ∀ store call store', (∃ replayed, Exact format norm store replayed) →
      ok store call → serving store call store' → ∃ replayed', Exact format norm store' replayed')
    (hstart : init format order maxEntries interval [] [] = .ok started)
    (h : Serves serving ok started hist store) :
    Replays format norm store ∧ store.metas.entries.length ≤ store.maxEntries := by
  obtain ⟨-, hagrees, hmetas, -⟩ := init_empty hstart
  have hempty : Follows format norm started ∅ := (init_empty hstart).1
  have hlength : started.metas.entries.length ≤ started.maxEntries := by
    rw [hmetas]
    exact Nat.zero_le _
  obtain ⟨replayed, hexact⟩ := h.invariant hserve ⟨∅, hempty, hagrees, hlength⟩
  exact ⟨fun order interval => hexact.init order interval, hexact.length_le⟩

end Promises

/-! ## Every update survives -/

/-- In both stores, whatever calls the log can carry. -/
theorem carried_updates_survive {H : Type} (heat : ArchiveObjectMetaStore.HeatScores H) :
    (∀ order maxEntries interval started hist store,
      init ArchiveFileMetaStore.format order maxEntries interval [] [] = .ok started →
        Serves ArchiveFileMetaStore.Serving ArchiveFileMetaStore.Carried started hist store →
          Survives ArchiveFileMetaStore.format id store) ∧
    (∀ order maxEntries interval started hist store,
      init (ArchiveObjectMetaStore.format heat) order maxEntries interval [] [] = .ok started →
        Serves (ArchiveObjectMetaStore.Serving heat) (ArchiveObjectMetaStore.Carried heat) started hist
            store →
          Survives (ArchiveObjectMetaStore.format heat) (ArchiveObjectMetaStore.rounded heat)
            store) := by
  refine ⟨fun order maxEntries interval started hist store hstart h => ?_,
    fun order maxEntries interval started hist store hstart h => ?_⟩
  · refine survives_of_calls (fun store call store' hfollows hcarried hserve => ?_) hstart h
    obtain ⟨replayed, hfollows⟩ := hfollows
    rw [hserve]
    exact ArchiveFileMetaStore.serve_follows hfollows hcarried
  · refine survives_of_calls (fun store call store' hfollows hcarried hserve => ?_) hstart h
    obtain ⟨replayed, hfollows⟩ := hfollows
    rw [hserve]
    exact ArchiveObjectMetaStore.serve_follows hfollows hcarried

section Examples

open ArchiveFileMetaStore ArchiveObjectMetaStore

/-- The heat of objects that were accessed at most once. -/
def wholeHeat : HeatScores Nat where
  zero := 0
  accessed isWrite heat := heat * 95 / 100 + if isWrite then 2 else 1
  text := decimal
  stod text := if text.all isDigit then some (digitsValue text) else none
  rounded := id
  stod_text heat := by
    have hall : (decimal heat).all isDigit = true :=
      List.all_eq_true.mpr fun _ hmem => isDigit_of_mem_decimal hmem
    rw [if_pos hall, digitsValue_decimal, id]
  plain_text := plain_decimal

/-- Stores in an empty directory, with room for so many entries. -/
def emptyFiles (maxEntries : Nat) : MetaStore ArchiveFileMeta where
  maxEntries := maxEntries
  snapshotIntervalOps := 100
  wal := ofAscii "FMW1"

def emptyObjects (maxEntries : Nat) : MetaStore (ArchiveObjectMeta Nat) where
  maxEntries := maxEntries
  snapshotIntervalOps := 100
  wal := ofAscii "AMW1"

def fileStateOf (inodeId : UInt64) (diskId : String) : ArchiveFileMetaStore.Call :=
  .updateState inodeId (ofAscii diskId) .kArchived 1 (.listed _)

def objectStateOf (objectId archiveState : String) : ArchiveObjectMetaStore.Call Nat :=
  .updateState (ofAscii "disk-0") (ofAscii objectId) (ofAscii archiveState) 1 (.listed _)

def filesAfter (store : MetaStore ArchiveFileMeta) (calls : List ArchiveFileMetaStore.Call) :
    MetaStore ArchiveFileMeta := (runOf ArchiveFileMetaStore.serve store calls).2

def objectsAfter (store : MetaStore (ArchiveObjectMeta Nat))
    (calls : List (ArchiveObjectMetaStore.Call Nat)) : MetaStore (ArchiveObjectMeta Nat) :=
  (runOf (ArchiveObjectMetaStore.serve wholeHeat) store calls).2

theorem filesAfter_served {ok : MetaStore ArchiveFileMeta → ArchiveFileMetaStore.Call → Prop}
    (store : MetaStore ArchiveFileMeta) (calls : List ArchiveFileMetaStore.Call)
    (hok : ∀ e ∈ (runOf ArchiveFileMetaStore.serve store calls).1, ok e.before e.call) :
    Serves ArchiveFileMetaStore.Serving ok store (runOf ArchiveFileMetaStore.serve store calls).1
      (filesAfter store calls) := by
  have hstep : ∀ store call, ArchiveFileMetaStore.Serving store call
      (ArchiveFileMetaStore.serve store call) := fun _ _ => rfl
  exact serves_runOf hstep calls store hok

theorem objectsAfter_served
    {ok : MetaStore (ArchiveObjectMeta Nat) → ArchiveObjectMetaStore.Call Nat → Prop}
    (store : MetaStore (ArchiveObjectMeta Nat)) (calls : List (ArchiveObjectMetaStore.Call Nat))
    (hok : ∀ e ∈ (runOf (ArchiveObjectMetaStore.serve wholeHeat) store calls).1,
      ok e.before e.call) :
    Serves (ArchiveObjectMetaStore.Serving wholeHeat) ok store
      (runOf (ArchiveObjectMetaStore.serve wholeHeat) store calls).1 (objectsAfter store calls) := by
  have hstep : ∀ store call, ArchiveObjectMetaStore.Serving wholeHeat store call
      (ArchiveObjectMetaStore.serve wholeHeat store call) := fun _ _ => rfl
  exact serves_runOf hstep calls store hok

theorem carried_updates_survive_of_states :
    Survives ArchiveFileMetaStore.format id
        (filesAfter (emptyFiles 2) [fileStateOf 1 "disk-0", fileStateOf 2 "disk-1"]) ∧
      Survives (ArchiveObjectMetaStore.format wholeHeat) (ArchiveObjectMetaStore.rounded wholeHeat)
        (objectsAfter (emptyObjects 2) [objectStateOf "obj-1-0" "archived",
          objectStateOf "obj-2-0" "archiving"]) :=
  ⟨(carried_updates_survive wholeHeat).1 (.listed _) 2 100 (emptyFiles 2) _ _ rfl
      (filesAfter_served (emptyFiles 2) _ (by decide +kernel)),
    (carried_updates_survive wholeHeat).2 (.listed _) 2 100 (emptyObjects 2) _ _ rfl
      (objectsAfter_served (emptyObjects 2) _ (by decide +kernel))⟩

/-- A log of which nothing can be replayed leaves an empty table. -/
theorem init_metas_of_replay {ρ : Type} {format : MetaFormat ρ} {order : MetaOrder ρ}
    {maxEntries : Nat} {interval : UInt32} {wal : Bytes} {reloaded : MetaStore ρ}
    (hreplay : (replayWal format ∅ wal).1 = ∅)
    (h : init format order maxEntries interval [] wal = .ok reloaded) : reloaded.metas = ∅ := by
  have hload : loadSnapshot format 1 (TextFields.getLines newline [] []) ∅ = .ok ∅ := rfl
  unfold init at h
  rw [hload] at h
  dsimp only at h
  rw [hreplay, evictIfNeeded_of_le (Nat.zero_le _)] at h
  unfold ensureWalMagic at h
  dsimp only at h
  split at h
  · cases h
  · rename_i store hensured
    cases h
    split at hensured
    · cases hensured
      rfl
    · split at hensured
      · cases hensured
      · cases hensured
        rfl

/-- Nothing of such a log survives. -/
theorem not_survives {ρ : Type} {format : MetaFormat ρ} {norm : ρ → ρ} {store : MetaStore ρ}
    (key : Bytes) (hkey : (store.metas.lookup key).isSome) (hsnapshot : store.snapshot = [])
    (hreplay : (replayWal format ∅ store.wal).1 = ∅) : ¬ Survives format norm store := by
  rintro ⟨replayed, hcovers, hinit⟩
  obtain ⟨row, hrow⟩ := Option.isSome_iff_exists.mp hkey
  obtain ⟨reloaded, hstart, hmetas⟩ := hinit (.listed _) replayed.entries.length 1
  rw [hsnapshot] at hstart
  have hempty : replayed = ∅ :=
    (hmetas (Nat.le_refl _)).symm.trans (init_metas_of_replay hreplay hstart)
  have hfound := hcovers key row hrow
  rw [hempty] at hfound
  cases hfound

/-- A tab in one request takes the later updates with it. -/
theorem tab_drops_later_updates :
    ¬ (∀ order maxEntries interval started hist store,
      init ArchiveFileMetaStore.format order maxEntries interval [] [] = .ok started →
        Serves ArchiveFileMetaStore.Serving Any started hist store →
          Survives ArchiveFileMetaStore.format id store) ∧
    ¬ (∀ order maxEntries interval started hist store,
      init (ArchiveObjectMetaStore.format wholeHeat) order maxEntries interval [] [] = .ok started →
        Serves (ArchiveObjectMetaStore.Serving wholeHeat) Any started hist store →
          Survives (ArchiveObjectMetaStore.format wholeHeat)
            (ArchiveObjectMetaStore.rounded wholeHeat) store) := by
  refine ⟨fun h => ?_, fun h => ?_⟩
  · have hsurvives := h (.listed _) 2 100 (emptyFiles 2) _ _ rfl
      (filesAfter_served (emptyFiles 2) [fileStateOf 1 "a\tb", fileStateOf 2 "disk-0"]
        fun _ _ => trivial)
    exact not_survives (buildFileKey 2) (by decide +kernel) (by decide +kernel)
      (by decide +kernel) hsurvives
  · have hsurvives := h (.listed _) 2 100 (emptyObjects 2) _ _ rfl
      (objectsAfter_served (emptyObjects 2) [objectStateOf "obj-1-0" "a\tb",
        objectStateOf "obj-2-0" "archived"] fun _ _ => trivial)
    exact not_survives (buildObjectKey (ofAscii "disk-0") (ofAscii "obj-2-0"))
      (by decide +kernel) (by decide +kernel) (by decide +kernel) hsurvives

end Examples

/-! ## The table is given back -/

/-- In both stores, when every call that the log can carry also finds room: the table never
    outgrows its capacity, and evictions take the oldest entries. -/
theorem roomy_tables_replay {H : Type} (heat : ArchiveObjectMetaStore.HeatScores H) :
    ((∀ order maxEntries interval started hist store,
      init ArchiveFileMetaStore.format order maxEntries interval [] [] = .ok started →
        Serves ArchiveFileMetaStore.Serving
            (fun store call => ArchiveFileMetaStore.Carried store call ∧
              ArchiveFileMetaStore.Room store call) started hist store →
          Replays ArchiveFileMetaStore.format id store ∧
            store.metas.entries.length ≤ store.maxEntries) ∧
      EvictsOldest ArchiveFileMetaStore.format) ∧
    (∀ order maxEntries interval started hist store,
      init (ArchiveObjectMetaStore.format heat) order maxEntries interval [] [] = .ok started →
        Serves (ArchiveObjectMetaStore.Serving heat)
            (fun store call => ArchiveObjectMetaStore.Carried heat store call ∧
              ArchiveObjectMetaStore.Room heat store call) started hist store →
          Replays (ArchiveObjectMetaStore.format heat) (ArchiveObjectMetaStore.rounded heat) store ∧
            store.metas.entries.length ≤ store.maxEntries) ∧
      EvictsOldest (ArchiveObjectMetaStore.format heat) := by
  refine ⟨⟨fun order maxEntries interval started hist store hstart h => ?_, evictsOldest⟩,
    fun order maxEntries interval started hist store hstart h => ?_, evictsOldest⟩
  · refine replays_of_calls (fun store call store' hexact hok hserve => ?_) hstart h
    obtain ⟨replayed, hexact⟩ := hexact
    rw [hserve]
    exact ArchiveFileMetaStore.serve_exact hexact hok.1 hok.2
  · refine replays_of_calls (fun store call store' hexact hok hserve => ?_) hstart h
    obtain ⟨replayed, hexact⟩ := hexact
    rw [hserve]
    exact ArchiveObjectMetaStore.serve_exact hexact hok.1 hok.2

section Examples

open ArchiveFileMetaStore ArchiveObjectMetaStore

def accessOf (inodeId nowMs : UInt64) : ArchiveFileMetaStore.Call :=
  .track inodeId (ofAscii "disk-0") 8 1 false nowMs 1 (.listed _)

def objectAccessOf (objectId : String) (nowMs : UInt64) : ArchiveObjectMetaStore.Call Nat :=
  .track (ofAscii "disk-0") (ofAscii objectId) 8 true 0 nowMs (.listed _)

theorem roomy_tables_replay_of_accesses :
    Replays ArchiveFileMetaStore.format id (filesAfter (emptyFiles 1) [accessOf 1 5, accessOf 2 10]) ∧
      Replays (ArchiveObjectMetaStore.format wholeHeat) (ArchiveObjectMetaStore.rounded wholeHeat)
        (objectsAfter (emptyObjects 1) [objectAccessOf "obj-1-0" 5, objectAccessOf "obj-2-0" 10]) :=
  ⟨((roomy_tables_replay wholeHeat).1.1 (.listed _) 1 100 (emptyFiles 1) _ _ rfl
      (filesAfter_served (emptyFiles 1) _ (by decide +kernel))).1,
    ((roomy_tables_replay wholeHeat).2.1 (.listed _) 1 100 (emptyObjects 1) _ _ rfl
      (objectsAfter_served (emptyObjects 1) _ (by decide +kernel))).1⟩

/-- A file that was evicted by its own access comes back. -/
theorem evicted_access_comes_back :
    ¬ (∀ order maxEntries interval started hist store,
      init ArchiveFileMetaStore.format order maxEntries interval [] [] = .ok started →
        Serves ArchiveFileMetaStore.Serving ArchiveFileMetaStore.Carried started hist store →
          Replays ArchiveFileMetaStore.format id store) := by
  intro h
  obtain ⟨reloaded, hinit, hagrees⟩ := h (.listed _) 1 100 (emptyFiles 1) _ _ rfl
    (filesAfter_served (emptyFiles 1) [accessOf 1 10, accessOf 2 5, .remove 1 (.listed _)]
      (by decide +kernel)) (.listed _) 100
  have hback : (init ArchiveFileMetaStore.format (.listed _) 1 100
      (filesAfter (emptyFiles 1) [accessOf 1 10, accessOf 2 5, .remove 1 (.listed _)]).snapshot
      (filesAfter (emptyFiles 1) [accessOf 1 10, accessOf 2 5, .remove 1 (.listed _)]).wal).toOption.any
        (fun reloaded => (reloaded.metas.lookup (buildFileKey 2)).isSome) = true := by
    decide +kernel
  have hgone : (filesAfter (emptyFiles 1)
      [accessOf 1 10, accessOf 2 5, .remove 1 (.listed _)]).metas.lookup (buildFileKey 2) = none := by
    decide +kernel
  have hlookup := hagrees (buildFileKey 2)
  rw [hgone] at hlookup
  have hstart : init ArchiveFileMetaStore.format (.listed _) 1 100
      (filesAfter (emptyFiles 1) [accessOf 1 10, accessOf 2 5, .remove 1 (.listed _)]).snapshot
      (filesAfter (emptyFiles 1) [accessOf 1 10, accessOf 2 5, .remove 1 (.listed _)]).wal =
        .ok reloaded := hinit
  rw [hstart] at hback
  change (reloaded.metas.lookup (buildFileKey 2)).isSome = true at hback
  rw [hlookup] at hback
  cases hback

end Examples

end Zb.DataNode
