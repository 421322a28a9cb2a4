-- SUMMARY: Runs of the image table: containers in step, evictions of the oldest read image, and entries against files.
import ZBStorage.Lib.CallHistory
import ZBStorage.OpticalNode.ImageTableRebuild

/-!
# Runs of the image table

The operations of `SpaceManager` one after the other, where each `unlink` and `rename`
may fail, and a rebuild may fail to open the directory. An eviction whose rename fails
afterwards brings the entry back without its file, and an entry whose file cannot be
unlinked goes alone.
-/

namespace Zb.OpticalNode

open Bytes CallHistory

inductive TableCall
  | rebuildManagementTable (snapshot : List ImageEntry) (opened : Bool)
  | setCapacityInImages (capacityInImages : Nat)
  | moveFrom (absPath bytes : Bytes) (category : ImageCategory) (faults : MoveFaults)
  | removeSingleReadImage (unlinked : Bool)
  | removeWriteImage (volumeId : UInt64) (unlinked : Bool)
  | touch (volumeId : UInt64)

namespace ImageTable

def serve (table : ImageTable) : TableCall → TableError × ImageTable
  | .rebuildManagementTable snapshot true => (.success, (table.rebuildManagementTable snapshot).1)
  | .rebuildManagementTable _ false => (.ioError, table.cleared)
  | .setCapacityInImages capacityInImages => table.setCapacityInImages capacityInImages
  | .moveFrom absPath bytes category faults => table.moveFrom absPath bytes category faults
  | .removeSingleReadImage unlinked => table.removeSingleReadImage unlinked
  | .removeWriteImage volumeId unlinked => table.removeWriteImage volumeId unlinked
  | .touch volumeId => (.success, table.touch volumeId)

def after (table : ImageTable) (call : TableCall) : ImageTable := (table.serve call).2

variable {table : ImageTable} {volumeId : UInt64} {entry victim : TableEntry} {unlinked : Bool}
  {absPath bytes : Bytes} {category : ImageCategory} {faults : MoveFaults}

/-! ## What the operations do -/

/-- The table and the directory after the eviction of an entry. -/
def evict (table : ImageTable) (entry : TableEntry) : ImageTable :=
  { table.release entry.volumeId with imageDir := table.imageDir.erase entry.filename }

theorem deleteFileAndEntry_eq (h : table.InStep) (hentry : entry ∈ table.rows) :
    table.deleteFileAndEntry entry.volumeId unlinked =
      if entry.filename ∈ table.imageDir ∧ unlinked = false then
        (.ioError, table.release entry.volumeId)
      else (.success, table.evict entry) := by
  rw [deleteFileAndEntry, h.mem_rows.mp hentry]
  rfl

/-- The victim is a read image, and only write images were used before it. -/
theorem victim_eq_some (h : table.victim = some victim) :
    victim.category = .read ∧ ∃ newer older, table.rows = newer ++ victim :: older ∧
      ∀ entry ∈ older, entry.category ≠ .read := by
  rw [ImageTable.victim, List.find?_eq_some_iff_append] at h
  obtain ⟨hread, before, behind, hrows, hbefore⟩ := h
  refine ⟨of_decide_eq_true hread, behind.reverse, before.reverse, ?_, ?_⟩
  · have hrev := congrArg List.reverse hrows
    rw [List.reverse_reverse] at hrev
    rw [hrev]
    simp
  · intro entry hentry
    have hnot := hbefore entry (List.mem_reverse.mp hentry)
    simpa using hnot

theorem mem_of_victim (h : table.victim = some victim) : victim ∈ table.rows := by
  obtain ⟨-, newer, older, hrows, -⟩ := victim_eq_some h
  rw [hrows]
  exact List.mem_append_right _ List.mem_cons_self

/-- How `moveFrom` can end. -/
inductive Moves (table : ImageTable) (absPath bytes : Bytes) (category : ImageCategory)
    (faults : MoveFaults) : TableError × ImageTable → Prop
  /-- Nothing was done. -/
  | refused (code : TableError) : code ≠ .success →
      Moves table absPath bytes category faults (code, table)
  /-- There was room. -/
  | placed (volumeId : UInt64) : tryParseVolumeId (basenameOf absPath) = some volumeId →
      volumeId ∉ table.entries → table.entries.keys.length < table.capacityInImages →
      Moves table absPath bytes category faults
        (table.place none volumeId (basenameOf absPath) bytes category true)
  /-- The victim's file could not be unlinked. -/
  | stuck (victim : TableEntry) : table.victim = some victim →
      table.entries.keys.length ≥ table.capacityInImages → faults.unlinked = false →
      Moves table absPath bytes category faults (.ioError, table.release victim.volumeId)
  /-- The victim is gone, but the new file could not be moved. -/
  | restored (victim : TableEntry) : table.victim = some victim →
      table.entries.keys.length ≥ table.capacityInImages → faults.renamed = false →
      Moves table absPath bytes category faults
        (.ioError, (table.evict victim).insertEntryLocked victim)
  /-- The new image has the victim's place. -/
  | replaced (volumeId : UInt64) (victim : TableEntry) :
      tryParseVolumeId (basenameOf absPath) = some volumeId → volumeId ∉ table.entries →
      table.victim = some victim →
      Moves table absPath bytes category faults
        ((table.evict victim).place none volumeId (basenameOf absPath) bytes category true)

theorem moves_moveFrom (h : table.InStep) (absPath bytes : Bytes) (category : ImageCategory)
    (faults : MoveFaults) :
    Moves table absPath bytes category faults (table.moveFrom absPath bytes category faults) := by
  unfold moveFrom
  split
  · exact .refused _ nofun
  split
  · exact .refused _ nofun
  rename_i volumeId hparse
  split
  · exact .refused _ nofun
  split
  · exact .refused _ nofun
  rename_i hnew
  split
  · rename_i hfull
    split
    · exact .refused _ nofun
    rename_i victim hvictim
    rw [deleteFileAndEntry_eq h (mem_of_victim hvictim)]
    by_cases hstuck : victim.filename ∈ table.imageDir ∧ faults.unlinked = false
    · rw [if_pos hstuck]
      exact .stuck victim hvictim hfull hstuck.2
    · rw [if_neg hstuck]
      cases hrenamed : faults.renamed with
      | false => exact .restored victim hvictim hfull hrenamed
      | true => exact .replaced volumeId victim hparse hnew hvictim
  · rename_i hroom
    cases faults.renamed with
    | false => exact .refused _ nofun
    | true => exact .placed volumeId hparse hnew (Nat.lt_of_not_le hroom)

/-! ## The containers stay in step -/

theorem InStep.setDir (h : table.InStep) (imageDir : AList fun _ : Bytes => Bytes) :
    { table with imageDir := imageDir }.InStep :=
  ⟨h.nodes, h.ids, h.listed, h.index, h.fresh, h.keyed⟩

theorem InStep.evict (h : table.InStep) (hentry : entry ∈ table.rows) :
    (table.evict entry).InStep :=
  (h.release (h.mem_entries.mpr (List.mem_map_of_mem hentry))).setDir _

theorem InStep.rows_evict (h : table.InStep) (hentry : entry ∈ table.rows) :
    (table.evict entry).rows = table.rows.filter fun other => other.volumeId ≠ entry.volumeId :=
  h.rows_release (h.mem_entries.mpr (List.mem_map_of_mem hentry))

theorem InStep.notMem_evict (h : table.InStep) (hentry : entry ∈ table.rows)
    (hgone : volumeId = entry.volumeId ∨ volumeId ∉ table.entries) :
    volumeId ∉ (table.evict entry).entries := by
  intro hmem
  rw [(h.evict hentry).mem_entries, h.rows_evict hentry] at hmem
  obtain ⟨other, hother, hid⟩ := List.mem_map.mp hmem
  obtain ⟨hold, hne⟩ := List.mem_filter.mp hother
  rcases hgone with heq | hnew
  · exact of_decide_eq_true hne (hid.trans heq)
  · rw [h.mem_entries] at hnew
    exact hnew (List.mem_map.mpr ⟨other, hold, hid⟩)

theorem InStep.place (h : table.InStep) (hnew : volumeId ∉ table.entries) (basename : Bytes) :
    (table.place none volumeId basename bytes category true).2.InStep :=
  InStep.insertEntryLocked (h.setDir _) hnew

theorem InStep.rows_place (h : table.InStep) (hnew : volumeId ∉ table.entries) (basename : Bytes) :
    (table.place none volumeId basename bytes category true).2.rows =
      ⟨volumeId, category, basename⟩ :: table.rows :=
  InStep.rows_insertEntryLocked (h.setDir _) hnew

theorem InStep.moves {result : TableError × ImageTable} (h : table.InStep)
    (hmoves : Moves table absPath bytes category faults result) : result.2.InStep := by
  cases hmoves with
  | refused code hcode => exact h
  | placed volumeId hparse hnew hroom => exact h.place hnew _
  | stuck victim hvictim hfull hunlinked =>
      exact h.release (h.mem_entries.mpr (List.mem_map_of_mem (mem_of_victim hvictim)))
  | restored victim hvictim hfull hrenamed =>
      have hmem := mem_of_victim hvictim
      exact (h.evict hmem).insertEntryLocked (h.notMem_evict hmem (.inl rfl))
  | replaced volumeId victim hparse hnew hvictim =>
      have hmem := mem_of_victim hvictim
      exact (h.evict hmem).place (h.notMem_evict hmem (.inr hnew)) _

theorem InStep.deleteFileAndEntry (h : table.InStep) (hentry : entry ∈ table.rows)
    (unlinked : Bool) : (table.deleteFileAndEntry entry.volumeId unlinked).2.InStep := by
  rw [deleteFileAndEntry_eq h hentry]
  split
  · exact h.release (h.mem_entries.mpr (List.mem_map_of_mem hentry))
  · exact h.evict hentry

/-- How a removal can end: without an entry to take, or by taking one out. -/
theorem removeWriteImage_cases (h : table.InStep) (volumeId : UInt64) (unlinked : Bool) :
    table.removeWriteImage volumeId unlinked = (.volumeNotFound, table) ∨
      ∃ entry ∈ table.rows, entry.volumeId = volumeId ∧ entry.category = .write ∧
        table.removeWriteImage volumeId unlinked =
          table.deleteFileAndEntry entry.volumeId unlinked := by
  unfold removeWriteImage
  cases hlookup : table.entries.lookup volumeId with
  | none => exact .inl rfl
  | some entry =>
      have hid := h.keyed _ entry hlookup
      dsimp only
      split
      · exact .inl rfl
      · rename_i hwrite
        refine .inr ⟨entry, ?_, hid, Decidable.not_not.mp hwrite, by rw [hid]⟩
        rw [h.mem_rows, hid]
        exact hlookup

theorem removeSingleReadImage_cases (table : ImageTable) (unlinked : Bool) :
    table.removeSingleReadImage unlinked = (.volumeNotFound, table) ∨
      ∃ victim, table.victim = some victim ∧ table.removeSingleReadImage unlinked =
        table.deleteFileAndEntry victim.volumeId unlinked := by
  unfold removeSingleReadImage
  cases table.victim with
  | none => exact .inl rfl
  | some victim => exact .inr ⟨victim, rfl, rfl⟩

theorem InStep.setCapacityInImages (h : table.InStep) (capacityInImages : Nat) :
    (table.setCapacityInImages capacityInImages).2.InStep := by
  unfold ImageTable.setCapacityInImages
  split
  · exact h
  split
  · exact h
  · exact ⟨h.nodes, h.ids, h.listed, h.index, h.fresh, h.keyed⟩

theorem InStep.after (h : table.InStep) (call : TableCall) : (table.after call).InStep := by
  cases call with
  | rebuildManagementTable snapshot opened =>
      cases opened with
      | true => exact (rebuildsExactly table snapshot).inStep
      | false => exact inStep_cleared table
  | setCapacityInImages capacityInImages => exact h.setCapacityInImages capacityInImages
  | moveFrom absPath bytes category faults => exact h.moves (moves_moveFrom h _ _ _ _)
  | removeSingleReadImage unlinked =>
      show (table.removeSingleReadImage unlinked).2.InStep
      rcases removeSingleReadImage_cases table unlinked with hnone | ⟨victim, hvictim, heq⟩
      · rwa [hnone]
      · rw [heq]
        exact h.deleteFileAndEntry (mem_of_victim hvictim) unlinked
  | removeWriteImage volumeId unlinked =>
      show (table.removeWriteImage volumeId unlinked).2.InStep
      rcases removeWriteImage_cases h volumeId unlinked with hnone | ⟨entry, hentry, -, -, heq⟩
      · rwa [hnone]
      · rw [heq]
        exact h.deleteFileAndEntry hentry unlinked
  | touch volumeId => exact h.touch volumeId

/-! ## Evictions and failures -/

/-- Every entry is named after its volume. -/
def Named (table : ImageTable) : Prop :=
  ∀ entry ∈ table.rows, tryParseVolumeId entry.filename = some entry.volumeId

/-- A read image; those that were used before it are write images. -/
def IsOldestRead (table : ImageTable) (entry : TableEntry) : Prop :=
  entry.category = .read ∧ ∃ newer older, table.rows = newer ++ entry :: older ∧
    ∀ other ∈ older, other.category ≠ .read

/-- The entry or its file is gone. -/
def Loses (table later : ImageTable) (entry : TableEntry) : Prop :=
  entry ∉ later.rows ∨ entry.filename ∈ table.imageDir ∧ entry.filename ∉ later.imageDir

theorem InStep.mem_release (h : table.InStep) (hvictim : victim ∈ table.rows)
    (hentry : entry ∈ table.rows) (hne : entry ≠ victim) :
    entry ∈ table.rows.filter fun other => other.volumeId ≠ victim.volumeId := by
  refine List.mem_filter.mpr ⟨hentry, decide_eq_true fun hsame => hne ?_⟩
  exact List.inj_on_of_nodup_map h.nodup_rows hentry hvictim hsame

/-- An eviction costs nothing but the victim. -/
theorem InStep.loses_evict (h : table.InStep) (hnamed : table.Named) (hvictim : victim ∈ table.rows)
    (hentry : entry ∈ table.rows) (hlost : Loses table (table.evict victim) entry) :
    entry = victim := by
  by_contra hne
  rcases hlost with hrow | ⟨hfile, hgone⟩
  · rw [h.rows_evict hvictim] at hrow
    exact hrow (h.mem_release hvictim hentry hne)
  · refine hgone (AList.mem_erase.mpr ⟨fun hsame => hne ?_, hfile⟩)
    have hid := hnamed entry hentry
    rw [hsame, hnamed victim hvictim] at hid
    exact List.inj_on_of_nodup_map h.nodup_rows hentry hvictim (Option.some.inj hid).symm

/-- One more row and one more file do not make a loss. -/
theorem Loses.of_place {later : ImageTable} {basename : Bytes} (hlater : later.InStep)
    (hnew : volumeId ∉ later.entries)
    (h : Loses table (later.place none volumeId basename bytes category true).2 entry) :
    Loses table later entry := by
  rcases h with hrow | ⟨hfile, hgone⟩
  · rw [hlater.rows_place hnew] at hrow
    exact .inl fun hmem => hrow (List.mem_cons_of_mem _ hmem)
  · exact .inr ⟨hfile, fun hmem => hgone ((AList.mem_insert _).mpr (.inr hmem))⟩

theorem not_loses_self (hentry : entry ∈ table.rows) : ¬ Loses table table entry := by
  rintro (hrow | ⟨hfile, hgone⟩)
  · exact hrow hentry
  · exact hgone hfile

theorem loses_release (h : table.InStep) (hvictim : victim ∈ table.rows)
    (hentry : entry ∈ table.rows) (hlost : Loses table (table.release victim.volumeId) entry) :
    entry = victim := by
  by_contra hne
  have hmem := h.mem_entries.mpr (List.mem_map_of_mem hvictim)
  rcases hlost with hrow | ⟨hfile, hgone⟩
  · rw [h.rows_release hmem] at hrow
    exact hrow (h.mem_release hvictim hentry hne)
  · rw [h.release_eq hmem] at hgone
    exact hgone hfile

theorem loses_moves {result : TableError × ImageTable} (h : table.InStep) (hnamed : table.Named)
    (hmoves : Moves table absPath bytes category faults result) (hentry : entry ∈ table.rows)
    (hlost : Loses table result.2 entry) : table.IsOldestRead entry := by
  cases hmoves with
  | refused code hcode => exact absurd hlost (not_loses_self hentry)
  | placed volumeId hparse hnew hroom =>
      exact absurd (Loses.of_place h hnew hlost) (not_loses_self hentry)
  | stuck victim hvictim hfull hunlinked =>
      rw [loses_release h (mem_of_victim hvictim) hentry hlost]
      exact victim_eq_some hvictim
  | restored victim hvictim hfull hrenamed =>
      have hmem := mem_of_victim hvictim
      have hgone := h.notMem_evict hmem (.inl rfl)
      have hevicted : Loses table (table.evict victim) entry := by
        rcases hlost with hrow | hfile
        · rw [(h.evict hmem).rows_insertEntryLocked hgone] at hrow
          exact .inl fun hold => hrow (List.mem_cons_of_mem _ hold)
        · exact .inr hfile
      rw [h.loses_evict hnamed hmem hentry hevicted]
      exact victim_eq_some hvictim
  | replaced volumeId victim hparse hnew hvictim =>
      have hmem := mem_of_victim hvictim
      have hevicted := Loses.of_place (h.evict hmem) (h.notMem_evict hmem (.inr hnew)) hlost
      rw [h.loses_evict hnamed hmem hentry hevicted]
      exact victim_eq_some hvictim

theorem loses_delete (h : table.InStep) (hnamed : table.Named) (hvictim : victim ∈ table.rows)
    (hentry : entry ∈ table.rows)
    (hlost : Loses table (table.deleteFileAndEntry victim.volumeId unlinked).2 entry) :
    entry = victim := by
  rw [deleteFileAndEntry_eq h hvictim] at hlost
  split at hlost
  · exact loses_release h hvictim hentry hlost
  · exact h.loses_evict hnamed hvictim hentry hlost

/-- What a failed `moveFrom` leaves. -/
inductive FailedMove (table : ImageTable) (faults : MoveFaults) (later : ImageTable) : Prop
  | unchanged : later = table → FailedMove table faults later
  /-- The eviction could not unlink the victim's file: the entry alone is gone. -/
  | entryGone (victim : TableEntry) : faults.unlinked = false → table.IsOldestRead victim →
      table.entries.keys.length ≥ table.capacityInImages →
      later.rows = table.rows.filter (fun other => other.volumeId ≠ victim.volumeId) →
      later.imageDir = table.imageDir → FailedMove table faults later
  /-- The rename failed after the eviction: the file alone is gone. -/
  | fileGone (victim : TableEntry) : faults.renamed = false → table.IsOldestRead victim →
      table.entries.keys.length ≥ table.capacityInImages →
      (∀ entry, entry ∈ later.rows ↔ entry ∈ table.rows) →
      later.imageDir = table.imageDir.erase victim.filename → FailedMove table faults later

theorem failedMove_moves {result : TableError × ImageTable} (h : table.InStep)
    (hmoves : Moves table absPath bytes category faults result) (hcode : result.1 ≠ .success) :
    FailedMove table faults result.2 := by
  cases hmoves with
  | refused code _ => exact .unchanged rfl
  | placed volumeId hparse hnew hroom => exact absurd rfl hcode
  | stuck victim hvictim hfull hunlinked =>
      have hmem := h.mem_entries.mpr (List.mem_map_of_mem (mem_of_victim hvictim))
      refine .entryGone victim hunlinked (victim_eq_some hvictim) hfull (h.rows_release hmem) ?_
      rw [h.release_eq hmem]
  | restored victim hvictim hfull hrenamed =>
      have hmem := mem_of_victim hvictim
      refine .fileGone victim hrenamed (victim_eq_some hvictim) hfull (fun entry => ?_) rfl
      rw [(h.evict hmem).rows_insertEntryLocked (h.notMem_evict hmem (.inl rfl)),
        h.rows_evict hmem, List.mem_cons]
      constructor
      · rintro (rfl | hrest)
        · exact hmem
        · exact (List.mem_filter.mp hrest).1
      · intro hentry
        rcases eq_or_ne entry victim with rfl | hne
        · exact .inl rfl
        · exact .inr (h.mem_release hmem hentry hne)
  | replaced volumeId victim hparse hnew hvictim => exact absurd rfl hcode

/-! ## One step -/

theorem mem_rows_delete (h : table.InStep) (hvictim : victim ∈ table.rows)
    (hentry : entry ∈ (table.deleteFileAndEntry victim.volumeId unlinked).2.rows) :
    entry ∈ table.rows := by
  have hmem := h.mem_entries.mpr (List.mem_map_of_mem hvictim)
  have hrows : (table.deleteFileAndEntry victim.volumeId unlinked).2.rows =
      table.rows.filter fun other => other.volumeId ≠ victim.volumeId := by
    rw [deleteFileAndEntry_eq h hvictim]
    split
    · exact h.rows_release hmem
    · exact h.rows_evict hvictim
  rw [hrows] at hentry
  exact (List.mem_filter.mp hentry).1

theorem mem_rows_moves {result : TableError × ImageTable} (h : table.InStep)
    (hmoves : Moves table absPath bytes category faults result) (hentry : entry ∈ result.2.rows) :
    entry ∈ table.rows ∨ entry.filename = basenameOf absPath ∧
      tryParseVolumeId (basenameOf absPath) = some entry.volumeId := by
  cases hmoves with
  | refused code hcode => exact .inl hentry
  | placed volumeId hparse hnew hroom =>
      rw [h.rows_place hnew] at hentry
      rcases List.mem_cons.mp hentry with rfl | hold
      · exact .inr ⟨rfl, hparse⟩
      · exact .inl hold
  | stuck victim hvictim hfull hunlinked =>
      have hmem := h.mem_entries.mpr (List.mem_map_of_mem (mem_of_victim hvictim))
      rw [h.rows_release hmem] at hentry
      exact .inl (List.mem_filter.mp hentry).1
  | restored victim hvictim hfull hrenamed =>
      have hmem := mem_of_victim hvictim
      rw [(h.evict hmem).rows_insertEntryLocked (h.notMem_evict hmem (.inl rfl)),
        h.rows_evict hmem] at hentry
      rcases List.mem_cons.mp hentry with rfl | hold
      · exact .inl hmem
      · exact .inl (List.mem_filter.mp hold).1
  | replaced volumeId victim hparse hnew hvictim =>
      have hmem := mem_of_victim hvictim
      rw [(h.evict hmem).rows_place (h.notMem_evict hmem (.inr hnew)), h.rows_evict hmem] at hentry
      rcases List.mem_cons.mp hentry with rfl | hold
      · exact .inr ⟨rfl, hparse⟩
      · exact .inl (List.mem_filter.mp hold).1

theorem mem_rows_touch (h : table.InStep) (volumeId : UInt64) :
    entry ∈ (table.touch volumeId).rows ↔ entry ∈ table.rows := by
  rw [(h.touch volumeId).mem_rows, h.mem_rows]
  unfold touch
  split <;> rfl

theorem Named.after (h : table.InStep) (hnamed : table.Named) (call : TableCall) :
    (table.after call).Named := by
  intro entry hentry
  cases call with
  | rebuildManagementTable snapshot opened =>
      cases opened
      · cases hentry
      have hfound := List.find?_some ((rebuildsExactly table snapshot).filenames entry hentry)
      exact of_decide_eq_true hfound
  | setCapacityInImages capacityInImages =>
      apply hnamed entry
      have hsame : (table.setCapacityInImages capacityInImages).2.rows = table.rows := by
        unfold setCapacityInImages
        split
        · rfl
        split <;> rfl
      rw [← hsame]
      exact hentry
  | moveFrom absPath bytes category faults =>
      rcases mem_rows_moves h (moves_moveFrom h absPath bytes category faults) hentry with hold | hnew
      · exact hnamed entry hold
      · rw [hnew.1]
        exact hnew.2
  | removeSingleReadImage unlinked =>
      rcases removeSingleReadImage_cases table unlinked with hnone | ⟨victim, hvictim, heq⟩
      · rw [ImageTable.after, serve, hnone] at hentry
        exact hnamed entry hentry
      · rw [ImageTable.after, serve, heq] at hentry
        exact hnamed entry (mem_rows_delete h (mem_of_victim hvictim) hentry)
  | removeWriteImage volumeId unlinked =>
      rcases removeWriteImage_cases h volumeId unlinked with hnone | ⟨removed, hremoved, -, -, heq⟩
      · rw [ImageTable.after, serve, hnone] at hentry
        exact hnamed entry hentry
      · rw [ImageTable.after, serve, heq] at hentry
        exact hnamed entry (mem_rows_delete h hremoved hentry)
  | touch volumeId => exact hnamed entry ((mem_rows_touch h volumeId).mp hentry)

/-- What one step keeps, whatever fails: evictions take the read image used longest
    ago, and a failed `moveFrom` has changed nothing but its victim. -/
structure StepSound (table : ImageTable) (call : TableCall) : Prop where
  moved : ∀ absPath bytes category faults, call = .moveFrom absPath bytes category faults →
    ∀ entry ∈ table.rows, Loses table (table.after call) entry → table.IsOldestRead entry
  removed : ∀ unlinked, call = .removeSingleReadImage unlinked →
    ∀ entry ∈ table.rows, Loses table (table.after call) entry → table.IsOldestRead entry
  failed : ∀ absPath bytes category faults, call = .moveFrom absPath bytes category faults →
    (table.serve call).1 ≠ .success → FailedMove table faults (table.after call)

theorem stepSound (h : table.InStep) (hnamed : table.Named) (call : TableCall) :
    StepSound table call where
  moved := by
    rintro absPath bytes category faults rfl entry hentry hlost
    exact loses_moves h hnamed (moves_moveFrom h absPath bytes category faults) hentry hlost
  removed := by
    rintro unlinked rfl entry hentry hlost
    rcases removeSingleReadImage_cases table unlinked with hnone | ⟨victim, hvictim, heq⟩
    · rw [ImageTable.after, serve, hnone] at hlost
      exact absurd hlost (not_loses_self hentry)
    · rw [ImageTable.after, serve, heq] at hlost
      rw [loses_delete h hnamed (mem_of_victim hvictim) hentry hlost]
      exact victim_eq_some hvictim
  failed := by
    rintro absPath bytes category faults rfl hcode
    exact failedMove_moves h (moves_moveFrom h absPath bytes category faults) hcode

/-! ## The capacity -/

def count (table : ImageTable) : Nat := table.entries.keys.length

theorem InStep.count_eq (h : table.InStep) : table.count = table.rows.length := by
  have hperm : table.entries.keys.Perm (table.rows.map TableEntry.volumeId) := by
    rw [List.perm_ext_iff_of_nodup table.entries.keys_nodup h.nodup_rows]
    intro volumeId
    rw [← h.mem_entries, AList.mem_keys]
  rw [count, hperm.length_eq, List.length_map]

theorem InStep.count_evicted (h : table.InStep) (hvictim : victim ∈ table.rows) :
    (table.rows.filter fun other => other.volumeId ≠ victim.volumeId).length < table.count := by
  rw [h.count_eq]
  apply List.length_filter_lt_length_iff_exists.mpr
  exact ⟨victim, hvictim, by simp⟩

theorem count_moves {result : TableError × ImageTable} (h : table.InStep)
    (hmoves : Moves table absPath bytes category faults result)
    (hcount : table.count ≤ table.capacityInImages) :
    result.2.count ≤ result.2.capacityInImages := by
  have hlater := h.moves hmoves
  rw [hlater.count_eq]
  have hlength := h.count_eq
  cases hmoves with
  | refused code hcode => rwa [← h.count_eq]
  | placed volumeId hparse hnew hroom =>
      rw [h.rows_place hnew, List.length_cons, ← h.count_eq]
      exact hroom
  | stuck victim hvictim hfull hunlinked =>
      have hmem := mem_of_victim hvictim
      have hin := h.mem_entries.mpr (List.mem_map_of_mem hmem)
      have hfewer := h.count_evicted hmem
      rw [h.rows_release hin, h.release_eq hin]
      exact Nat.le_trans (Nat.le_of_lt hfewer) hcount
  | restored victim hvictim hfull hrenamed =>
      have hmem := mem_of_victim hvictim
      have hin := h.mem_entries.mpr (List.mem_map_of_mem hmem)
      have hfewer := h.count_evicted hmem
      rw [(h.evict hmem).rows_insertEntryLocked (h.notMem_evict hmem (.inl rfl)),
        h.rows_evict hmem, List.length_cons]
      unfold insertEntryLocked ImageTable.evict
      rw [h.release_eq hin]
      exact Nat.le_trans hfewer hcount
  | replaced volumeId victim hparse hnew hvictim =>
      have hmem := mem_of_victim hvictim
      have hin := h.mem_entries.mpr (List.mem_map_of_mem hmem)
      have hfewer := h.count_evicted hmem
      rw [(h.evict hmem).rows_place (h.notMem_evict hmem (.inr hnew)), h.rows_evict hmem,
        List.length_cons]
      have hcapacity : ((table.evict victim).place none volumeId (basenameOf absPath) bytes category
          true).2.capacityInImages = table.capacityInImages := by
        show (table.release victim.volumeId).capacityInImages = _
        rw [h.release_eq hin]
      rw [hcapacity]
      exact Nat.le_trans hfewer hcount

theorem count_delete (h : table.InStep) (hentry : entry ∈ table.rows)
    (hcount : table.count ≤ table.capacityInImages) :
    (table.deleteFileAndEntry entry.volumeId unlinked).2.count ≤
      (table.deleteFileAndEntry entry.volumeId unlinked).2.capacityInImages := by
  have hin := h.mem_entries.mpr (List.mem_map_of_mem hentry)
  have hfewer := h.count_evicted hentry
  have hle := Nat.le_trans (Nat.le_of_lt hfewer) hcount
  rw [(h.deleteFileAndEntry hentry unlinked).count_eq, deleteFileAndEntry_eq h hentry]
  split
  · rw [h.rows_release hin, h.release_eq hin]
    exact hle
  · rw [h.rows_evict hentry]
    show _ ≤ (table.release entry.volumeId).capacityInImages
    rw [h.release_eq hin]
    exact hle

/-- The capacity and the images come from outside with these calls. -/
def resetsCapacity : TableCall → Bool
  | .rebuildManagementTable _ _ => true
  | .setCapacityInImages _ => true
  | _ => false

theorem count_after (h : table.InStep) (call : TableCall) (hcall : resetsCapacity call = false)
    (hcount : table.count ≤ table.capacityInImages) :
    (table.after call).count ≤ (table.after call).capacityInImages := by
  cases call with
  | rebuildManagementTable snapshot opened => cases hcall
  | setCapacityInImages capacityInImages => cases hcall
  | moveFrom absPath bytes category faults =>
      exact count_moves h (moves_moveFrom h absPath bytes category faults) hcount
  | removeSingleReadImage unlinked =>
      rcases removeSingleReadImage_cases table unlinked with hnone | ⟨victim, hvictim, heq⟩
      · rwa [ImageTable.after, serve, hnone]
      · rw [ImageTable.after, serve, heq]
        exact count_delete h (mem_of_victim hvictim) hcount
  | removeWriteImage volumeId unlinked =>
      rcases removeWriteImage_cases h volumeId unlinked with hnone | ⟨removed, hremoved, -, -, heq⟩
      · rwa [ImageTable.after, serve, hnone]
      · rw [ImageTable.after, serve, heq]
        exact count_delete h hremoved hcount
  | touch volumeId =>
      show (table.touch volumeId).count ≤ (table.touch volumeId).capacityInImages
      unfold touch
      split
      · exact hcount
      · exact hcount

/-! ## Files -/

/-- No volume has two files. -/
def NamesDistinct (imageDir : AList fun _ : Bytes => Bytes) : Prop :=
  ∀ name ∈ imageDir, ∀ other ∈ imageDir, ∀ volumeId, tryParseVolumeId name = some volumeId →
    tryParseVolumeId other = some volumeId → name = other

/-- Every entry has its file. -/
def Backed (table : ImageTable) : Prop :=
  ∀ entry ∈ table.rows, entry.filename ∈ table.imageDir ∧
    tryParseVolumeId entry.filename = some entry.volumeId

/-- Every image file has its entry. -/
def Listed (table : ImageTable) : Prop :=
  ∀ name ∈ table.imageDir, ∀ volumeId, tryParseVolumeId name = some volumeId →
    ∃ entry ∈ table.rows, entry.volumeId = volumeId ∧ entry.filename = name

/-- One direction or both, as `backed` and `listed` ask for. -/
structure Filed (backed listed : Prop) (table : ImageTable) : Prop where
  inStep : table.InStep
  files : backed → table.Backed
  names : listed → table.Listed

variable {backed listed : Prop}

theorem Listed.namesDistinct (h : table.Listed) (hinStep : table.InStep) :
    NamesDistinct table.imageDir := by
  intro name hname other hother volumeId hparse hparse'
  obtain ⟨entry, hentry, hid, rfl⟩ := h name hname volumeId hparse
  obtain ⟨entry', hentry', hid', rfl⟩ := h other hother volumeId hparse'
  rw [List.inj_on_of_nodup_map hinStep.nodup_rows hentry hentry' (hid.trans hid'.symm)]

theorem filed_rebuild (hdistinct : listed → NamesDistinct table.imageDir)
    (snapshot : List ImageEntry) :
    (table.rebuildManagementTable snapshot).1.Filed backed listed := by
  have h := rebuildsExactly table snapshot
  have hfiles : ∀ entry ∈ (table.rebuildManagementTable snapshot).1.rows,
      entry.filename ∈ table.imageDir ∧ tryParseVolumeId entry.filename = some entry.volumeId := by
    intro entry hentry
    have hfind := h.filenames entry hentry
    have hfound := List.find?_some hfind
    exact ⟨AList.mem_keys.mpr (List.mem_of_find?_eq_some hfind), of_decide_eq_true hfound⟩
  refine ⟨h.inStep, fun _ => ?_, fun hlisted => ?_⟩
  · rw [Backed, h.imageDir]
    exact hfiles
  · rw [Listed, h.imageDir]
    intro name hname volumeId hparse
    have hmem := (h.listed volumeId).mpr ⟨name, AList.mem_keys.mp hname, hparse⟩
    obtain ⟨entry, hentry, hid⟩ := List.mem_map.mp (h.inStep.mem_entries.mp hmem)
    obtain ⟨hfile, hparse'⟩ := hfiles entry hentry
    rw [hid] at hparse'
    exact ⟨entry, hentry, hid, hdistinct hlisted _ hfile _ hname volumeId hparse' hparse⟩

theorem Filed.evict (h : table.Filed backed listed) (hvictim : victim ∈ table.rows) :
    (table.evict victim).Filed backed listed := by
  have hrows := h.inStep.rows_evict hvictim
  refine ⟨h.inStep.evict hvictim, fun hbacked => ?_, fun hlisted => ?_⟩
  · intro entry hentry
    rw [hrows] at hentry
    obtain ⟨hold, hne⟩ := List.mem_filter.mp hentry
    obtain ⟨hfile, hparse⟩ := h.files hbacked entry hold
    refine ⟨AList.mem_erase.mpr ⟨fun hsame => ?_, hfile⟩, hparse⟩
    rw [hsame, (h.files hbacked victim hvictim).2] at hparse
    exact of_decide_eq_true hne (Option.some.inj hparse).symm
  · intro name hname volumeId hparse
    obtain ⟨hne, hold⟩ := AList.mem_erase.mp hname
    obtain ⟨entry, hentry, hid, hfile⟩ := h.names hlisted name hold volumeId hparse
    refine ⟨entry, ?_, hid, hfile⟩
    rw [hrows]
    apply h.inStep.mem_release hvictim hentry
    rintro rfl
    exact hne hfile.symm

theorem Filed.place (h : table.Filed backed listed) (hnew : volumeId ∉ table.entries)
    {basename : Bytes} (hparse : tryParseVolumeId basename = some volumeId) :
    (table.place none volumeId basename bytes category true).2.Filed backed listed := by
  have hrows : (table.place none volumeId basename bytes category true).2.rows = _ :=
    h.inStep.rows_place hnew basename
  refine ⟨h.inStep.place hnew basename, fun hbacked => ?_, fun hlisted => ?_⟩
  · intro entry hentry
    rw [hrows] at hentry
    rcases List.mem_cons.mp hentry with rfl | hold
    · exact ⟨(AList.mem_insert _).mpr (.inl rfl), hparse⟩
    · obtain ⟨hfile, hid⟩ := h.files hbacked entry hold
      exact ⟨(AList.mem_insert _).mpr (.inr hfile), hid⟩
  · intro name hname other hother
    rw [hrows]
    rcases (AList.mem_insert _).mp hname with rfl | hold
    · rw [hparse] at hother
      exact ⟨_, List.mem_cons_self, Option.some.inj hother, rfl⟩
    · obtain ⟨entry, hentry, hid, hfile⟩ := h.names hlisted name hold other hother
      exact ⟨entry, List.mem_cons_of_mem _ hentry, hid, hfile⟩

/-- No rename fails after an eviction. -/
def KeepsFiles (table : ImageTable) : TableCall → Prop
  | .moveFrom _ _ _ faults => faults.renamed = true ∨ table.count < table.capacityInImages
  | _ => True

/-- No unlink fails, and the directory can be opened. -/
def KeepsNames : TableCall → Prop
  | .rebuildManagementTable _ opened => opened = true
  | .moveFrom _ _ _ faults => faults.unlinked = true
  | .removeSingleReadImage unlinked => unlinked = true
  | .removeWriteImage _ unlinked => unlinked = true
  | _ => True

theorem Filed.release (h : table.Filed backed listed) (hentry : entry ∈ table.rows)
    (hlisted : ¬ listed) : (table.release entry.volumeId).Filed backed listed := by
  have hin := h.inStep.mem_entries.mpr (List.mem_map_of_mem hentry)
  refine ⟨h.inStep.release hin, fun hbacked other hother => ?_, fun hyes => absurd hyes hlisted⟩
  rw [h.inStep.rows_release hin] at hother
  rw [h.inStep.release_eq hin]
  exact h.files hbacked other (List.mem_filter.mp hother).1

theorem Filed.delete (h : table.Filed backed listed) (hentry : entry ∈ table.rows)
    (hunlinked : listed → unlinked = true) :
    (table.deleteFileAndEntry entry.volumeId unlinked).2.Filed backed listed := by
  rw [deleteFileAndEntry_eq h.inStep hentry]
  split
  · rename_i hstuck
    refine h.release hentry fun hlisted => ?_
    rw [hunlinked hlisted] at hstuck
    cases hstuck.2
  · exact h.evict hentry

theorem Filed.after (h : table.Filed backed listed) (call : TableCall)
    (hfiles : backed → table.KeepsFiles call) (hnames : listed → KeepsNames call) :
    (table.after call).Filed backed listed := by
  cases call with
  | rebuildManagementTable snapshot opened =>
      cases opened with
      | true => exact filed_rebuild (fun hlisted => (h.names hlisted).namesDistinct h.inStep) snapshot
      | false =>
          refine ⟨inStep_cleared table, fun _ entry hentry => ?_, fun hlisted => ?_⟩
          · cases hentry
          · cases hnames hlisted
  | setCapacityInImages capacityInImages =>
      show (table.setCapacityInImages capacityInImages).2.Filed backed listed
      have hinStep := h.inStep.setCapacityInImages capacityInImages
      unfold setCapacityInImages at hinStep ⊢
      split
      · exact h
      split
      · exact h
      · rename_i hzero hset
        rw [if_neg hzero, if_neg hset] at hinStep
        exact ⟨hinStep, h.files, h.names⟩
  | moveFrom absPath bytes category faults =>
      have hmoves := moves_moveFrom h.inStep absPath bytes category faults
      show (table.moveFrom absPath bytes category faults).2.Filed backed listed
      generalize table.moveFrom absPath bytes category faults = result at hmoves ⊢
      cases hmoves with
      | refused code hcode => exact h
      | placed volumeId hparse hnew hroom => exact h.place hnew hparse
      | stuck victim hvictim hfull hnot =>
          refine h.release (mem_of_victim hvictim) fun hlisted => ?_
          have hunlinked : faults.unlinked = true := hnames hlisted
          rw [hunlinked] at hnot
          cases hnot
      | restored victim hvictim hfull hnot =>
          have hmem := mem_of_victim hvictim
          have hevicted := h.evict hmem
          have hrows := hevicted.inStep.rows_insertEntryLocked
            (h.inStep.notMem_evict hmem (.inl rfl))
          refine ⟨hevicted.inStep.insertEntryLocked (h.inStep.notMem_evict hmem (.inl rfl)),
            fun hbacked => ?_, fun hlisted name hname other hother => ?_⟩
          · rcases hfiles hbacked with hyes | hroom
            · rw [hyes] at hnot
              cases hnot
            · exact absurd hroom (Nat.not_lt.mpr hfull)
          · obtain ⟨entry, hentry, hrest⟩ := hevicted.names hlisted name hname other hother
            rw [hrows]
            exact ⟨entry, List.mem_cons_of_mem _ hentry, hrest⟩
      | replaced volumeId victim hparse hnew hvictim =>
          have hmem := mem_of_victim hvictim
          exact (h.evict hmem).place (h.inStep.notMem_evict hmem (.inr hnew)) hparse
  | removeSingleReadImage unlinked =>
      rcases removeSingleReadImage_cases table unlinked with hnone | ⟨victim, hvictim, heq⟩
      · rwa [ImageTable.after, serve, hnone]
      · rw [ImageTable.after, serve, heq]
        exact h.delete (mem_of_victim hvictim) hnames
  | removeWriteImage volumeId unlinked =>
      rcases removeWriteImage_cases h.inStep volumeId unlinked with hnone | ⟨removed, hremoved, -, -, heq⟩
      · rwa [ImageTable.after, serve, hnone]
      · rw [ImageTable.after, serve, heq]
        exact h.delete hremoved hnames
  | touch volumeId =>
      have hdir : (table.touch volumeId).imageDir = table.imageDir := by
        unfold touch
        split <;> rfl
      refine ⟨h.inStep.touch volumeId, fun hbacked => ?_, fun hlisted => ?_⟩
      · intro entry hentry
        show _ ∈ (table.touch volumeId).imageDir ∧ _
        rw [hdir]
        exact h.files hbacked entry ((mem_rows_touch h.inStep volumeId).mp hentry)
      · intro name hname other hother
        have hold : name ∈ table.imageDir := hdir ▸ hname
        obtain ⟨entry, hentry, hrest⟩ := h.names hlisted name hold other hother
        exact ⟨entry, (mem_rows_touch h.inStep volumeId).mpr hentry, hrest⟩

/-! ## Runs -/

/-- The table that a start finds: no entry yet, whatever the directory holds. -/
def initial (imageDir : AList fun _ : Bytes => Bytes) : ImageTable := { imageDir := imageDir }

theorem inStep_initial (imageDir : AList fun _ : Bytes => Bytes) : (initial imageDir).InStep :=
  (inStep_cleared (initial imageDir)).setDir imageDir

def Steps (table : ImageTable) (call : TableCall) (later : ImageTable) : Prop :=
  later = table.after call

theorem sound_runOf (h : table.InStep) (hnamed : table.Named) (calls : List TableCall) :
    ((runOf after table calls).2.InStep ∧ (runOf after table calls).2.Named) ∧
      ∀ e ∈ (runOf after table calls).1, e.after.InStep ∧ StepSound e.before e.call ∧
        e.after = e.before.after e.call := by
  induction calls generalizing table with
  | nil => exact ⟨⟨h, hnamed⟩, fun _ hmem => nomatch hmem⟩
  | cons call calls ih =>
      have hrest := ih (h.after call) (hnamed.after h call)
      refine ⟨hrest.1, fun e hmem => ?_⟩
      rcases List.mem_cons.mp hmem with rfl | hlater
      · exact ⟨h.after call, stepSound h hnamed call, rfl⟩
      · exact hrest.2 e hlater

theorem count_runOf (h : table.InStep) (calls : List TableCall)
    (hcalls : ∀ call ∈ calls, resetsCapacity call = false)
    (hcount : table.count ≤ table.capacityInImages) :
    (runOf after table calls).2.count ≤ (runOf after table calls).2.capacityInImages := by
  induction calls generalizing table with
  | nil => exact hcount
  | cons call calls ih =>
      apply ih (h.after call) (fun other hother => hcalls other (List.mem_cons_of_mem _ hother))
      exact count_after h call (hcalls call List.mem_cons_self) hcount

theorem filed_runOf (h : table.Filed backed listed) (calls : List TableCall)
    (hfiles : backed → ∀ e ∈ (runOf after table calls).1, KeepsFiles e.before e.call)
    (hnames : listed → ∀ e ∈ (runOf after table calls).1, KeepsNames e.call) :
    (runOf after table calls).2.Filed backed listed := by
  have hstep : ∀ table call, Steps table call (after table call) := fun _ _ => rfl
  have hrun : Serves Steps (fun table call => (backed → KeepsFiles table call) ∧
      (listed → KeepsNames call)) table _ _ :=
    serves_runOf hstep calls table fun e he =>
      ⟨fun hbacked => hfiles hbacked e he, fun hlisted => hnames hlisted e he⟩
  refine hrun.invariant (fun s call t hs hok ht => ?_) h
  rw [ht]
  exact hs.after call hok.1 hok.2

/-- In every run the containers stay in step, evictions take the read image used longest
    ago and a failed `moveFrom` costs at most its victim; between rebuilds the table
    keeps to its capacity; and from a rebuild on entries have files and files entries, each
    while nothing fails that would cost one. -/
theorem table_runs_sound (imageDir : AList fun _ : Bytes => Bytes) (calls : List TableCall) :
    let run := runOf after (initial imageDir) calls
    (∀ e ∈ run.1, e.after.InStep ∧ StepSound e.before e.call ∧ e.after = e.before.after e.call) ∧
      (∀ later, (∀ call ∈ later, resetsCapacity call = false) →
        run.2.count ≤ run.2.capacityInImages →
        (runOf after run.2 later).2.count ≤ (runOf after run.2 later).2.capacityInImages) ∧
      ∀ snapshot later,
        let filed := runOf after (run.2.rebuildManagementTable snapshot).1 later
        ((∀ e ∈ filed.1, KeepsFiles e.before e.call) → filed.2.Backed) ∧
          (NamesDistinct run.2.imageDir → (∀ e ∈ filed.1, KeepsNames e.call) →
            filed.2.Listed) := by
  intro run
  have hnamed : (initial imageDir).Named := fun entry hentry => nomatch hentry
  obtain ⟨⟨hinStep, -⟩, hsteps⟩ := sound_runOf (inStep_initial imageDir) hnamed calls
  refine ⟨hsteps, ?_, fun snapshot later => ⟨fun hfiles => ?_, fun hdistinct hnames => ?_⟩⟩
  · intro later hlater hcount
    exact count_runOf hinStep later hlater hcount
  · have hfiled : (run.2.rebuildManagementTable snapshot).1.Filed True False :=
      filed_rebuild False.elim snapshot
    exact (filed_runOf hfiled later (fun _ => hfiles) False.elim).files trivial
  · have hfiled : (run.2.rebuildManagementTable snapshot).1.Filed False True :=
      filed_rebuild (fun _ => hdistinct) snapshot
    exact (filed_runOf hfiled later False.elim fun _ => hnames).names trivial

/-- A failed unlink leaves no entry without its file, and a failed rename no file without
    its entry. -/
theorem table_runs_sound_of_failures :
    let start := (runOf after (initial ∅)
      [.setCapacityInImages 1, .moveFrom (volumeFileName 1) [7] .read {}]).2
    let rebuilt := (start.rebuildManagementTable []).1
    (rebuilt.after (.removeSingleReadImage false)).Backed ∧
      ((rebuilt.after (.setCapacityInImages 1)).after
        (.moveFrom (volumeFileName 2) [8] .read { renamed := false })).Listed := by
  have hsound := (table_runs_sound ∅
    [.setCapacityInImages 1, .moveFrom (volumeFileName 1) [7] .read {}]).2.2 []
  refine ⟨(hsound [.removeSingleReadImage false]).1 ?_, (hsound [.setCapacityInImages 1,
    .moveFrom (volumeFileName 2) [8] .read { renamed := false }]).2 ?_ ?_⟩
  · intro e he
    rw [List.mem_singleton.mp he]
    trivial
  · intro name hname other hother _ _ _
    have hone : ∀ name ∈ (runOf after (initial ∅) [.setCapacityInImages 1,
        .moveFrom (volumeFileName 1) [7] .read {}]).2.imageDir.keys, name = volumeFileName 1 := by
      decide
    exact (hone name hname).trans (hone other hother).symm
  · intro e he
    rcases List.mem_cons.mp he with rfl | he
    · trivial
    · rw [List.mem_singleton.mp he]
      rfl

/-- Capacity one, and the second image cannot be moved: the first entry comes back, but
    its file is gone. -/
theorem failed_move_loses_file :
    let full := (runOf after (initial ∅)
      [.setCapacityInImages 1, .moveFrom (volumeFileName 1) [7] .read {}]).2
    let failing := full.moveFrom (volumeFileName 2) [8] .read { renamed := false }
    failing.1 = .ioError ∧ (1 : UInt64) ∈ failing.2.entries ∧
      volumeFileName 1 ∈ full.imageDir ∧ volumeFileName 1 ∉ failing.2.imageDir := by
  decide

end ImageTable

end Zb.OpticalNode
