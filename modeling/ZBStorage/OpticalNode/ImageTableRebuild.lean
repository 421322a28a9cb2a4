-- SUMMARY: Rebuilding the image table from directory and snapshot: what comes out, and that again nothing changes.
import ZBStorage.OpticalNode.ImageTable

/-!
# Rebuilding the image table

`RebuildManagementTable` of `space_manager.cpp`. The directory says which images
there are, the snapshot gives their category and their order of use.
-/

namespace Zb.OpticalNode.ImageTable

open Bytes

variable {table : ImageTable} {volumeId : UInt64} {snapshot : List ImageEntry}
  {names : List Bytes}

/-! ## The directory -/

theorem lookup_scanEntry (onDisk : AList fun _ : UInt64 => Bytes) (name : Bytes)
    (volumeId : UInt64) : (scanEntry onDisk name).lookup volumeId =
      (onDisk.lookup volumeId).or
        (if tryParseVolumeId name = some volumeId then some name else none) := by
  unfold scanEntry
  cases hparse : tryParseVolumeId name with
  | none => rw [if_neg nofun, Option.or_none]
  | some parsed =>
      dsimp only
      rcases eq_or_ne volumeId parsed with rfl | hne
      · rw [if_pos rfl]
        split
        · rename_i hmem
          obtain ⟨first, hfirst⟩ := Option.isSome_iff_exists.mp (AList.lookup_isSome.mpr hmem)
          rw [hfirst, Option.some_or]
        · rename_i hnew
          rw [AList.lookup_insert, AList.lookup_eq_none.mpr hnew, Option.none_or]
      · rw [if_neg fun hsame => hne (Option.some.inj hsame).symm, Option.or_none]
        split
        · rfl
        · exact AList.lookup_insert_ne hne

theorem lookup_scan (names : List Bytes) (volumeId : UInt64) :
    (scan names).lookup volumeId =
      names.find? fun name => tryParseVolumeId name = some volumeId := by
  have hfold : ∀ onDisk : AList fun _ : UInt64 => Bytes,
      (names.foldl scanEntry onDisk).lookup volumeId = (onDisk.lookup volumeId).or
        (names.find? fun name => tryParseVolumeId name = some volumeId) := by
    induction names with
    | nil => exact fun onDisk => (Option.or_none).symm
    | cons name names ih =>
        intro onDisk
        rw [List.foldl_cons, ih, lookup_scanEntry, List.find?_cons, Option.or_assoc]
        split <;> split <;> simp_all
  rw [scan, hfold]
  exact Option.none_or

/-- The volumes with a file. -/
def OnDisk (names : List Bytes) (volumeId : UInt64) : Prop :=
  ∃ name ∈ names, tryParseVolumeId name = some volumeId

theorem mem_scan : volumeId ∈ scan names ↔ OnDisk names volumeId := by
  rw [← AList.lookup_isSome, lookup_scan, List.find?_isSome]
  simp only [decide_eq_true_eq]
  rfl

/-! ## The first occurrences -/

/-- The rows of a snapshot without those whose volume came before. -/
def firstOfEach : List ImageEntry → List ImageEntry
  | [] => []
  | row :: rows => row :: (firstOfEach rows).filter fun other => other.volumeId ≠ row.volumeId

theorem mem_map_firstOfEach (rows : List ImageEntry) :
    volumeId ∈ (firstOfEach rows).map ImageEntry.volumeId ↔
      volumeId ∈ rows.map ImageEntry.volumeId := by
  induction rows with
  | nil => rfl
  | cons row rows ih =>
      rw [firstOfEach, List.map_cons, List.map_cons, List.mem_cons, List.mem_cons, ← ih]
      rcases eq_or_ne volumeId row.volumeId with heq | hne
      · simp [heq]
      · rw [or_iff_right hne, or_iff_right hne, List.mem_map, List.mem_map]
        constructor
        · rintro ⟨other, hother, hid⟩
          exact ⟨other, (List.mem_filter.mp hother).1, hid⟩
        · rintro ⟨other, hother, rfl⟩
          exact ⟨other, List.mem_filter.mpr ⟨hother, decide_eq_true hne⟩, rfl⟩

/-- One more row at the end. -/
theorem firstOfEach_append (rows : List ImageEntry) (row : ImageEntry) :
    firstOfEach (rows ++ [row]) =
      if row.volumeId ∈ rows.map ImageEntry.volumeId then firstOfEach rows
      else firstOfEach rows ++ [row] := by
  induction rows with
  | nil => rfl
  | cons first rows ih =>
      rw [List.cons_append, firstOfEach, ih, firstOfEach, List.map_cons]
      rcases eq_or_ne row.volumeId first.volumeId with heq | hne
      · rw [if_pos (List.mem_cons.mpr (.inl heq))]
        split
        · rfl
        · rw [List.filter_append, List.filter_singleton, decide_eq_false (not_not_intro heq),
            cond_false, List.append_nil]
      · by_cases hmem : row.volumeId ∈ rows.map ImageEntry.volumeId
        · rw [if_pos hmem, if_pos (List.mem_cons_of_mem _ hmem)]
        · rw [if_neg hmem, if_neg fun h => (List.mem_cons.mp h).elim hne hmem, List.filter_append,
            List.filter_singleton, decide_eq_true hne, cond_true, List.cons_append]

theorem firstOfEach_eq_self {rows : List ImageEntry}
    (h : (rows.map ImageEntry.volumeId).Nodup) : firstOfEach rows = rows := by
  induction rows with
  | nil => rfl
  | cons row rows ih =>
      rw [List.map_cons, List.nodup_cons] at h
      rw [firstOfEach, ih h.2, List.filter_eq_self.mpr]
      intro other hother
      exact decide_eq_true fun hsame => h.1 (hsame ▸ List.mem_map_of_mem hother)

/-! ## The loop over the snapshot -/

/-- Where the loop stands after some rows of the snapshot. -/
structure Restores (imageDir : AList fun _ : Bytes => Bytes) (onDisk : AList fun _ : UInt64 => Bytes)
    (seen : List ImageEntry) (state : Restoring) : Prop where
  inStep : state.table.InStep
  rows : state.table.snapshotImageEntries = firstOfEach (seen.filter (·.volumeId ∈ onDisk))
  filenames : ∀ entry ∈ state.table.rows, onDisk.lookup entry.volumeId = some entry.filename
  rest : ∀ volumeId, state.onDisk.lookup volumeId =
    if volumeId ∈ state.table.entries then none else onDisk.lookup volumeId
  missing : state.snapshotOnly =
    (seen.filter (·.volumeId ∉ onDisk)).map ImageEntry.volumeId
  imageDir : state.table.imageDir = imageDir

theorem snapshot_insertEntryLocked (h : table.InStep) {entry : TableEntry}
    (hnew : entry.volumeId ∉ table.entries) :
    (table.insertEntryLocked entry).snapshotImageEntries =
      table.snapshotImageEntries ++ [⟨entry.volumeId, entry.category⟩] := by
  rw [snapshotImageEntries, h.rows_insertEntryLocked hnew, List.reverse_cons, List.map_append]
  rfl

theorem mem_entries_snapshot (h : table.InStep) :
    volumeId ∈ table.entries ↔
      volumeId ∈ table.snapshotImageEntries.map ImageEntry.volumeId := by
  rw [h.mem_entries, snapshotImageEntries, List.map_map, List.map_reverse, List.mem_reverse]
  rfl

variable {imageDir : AList fun _ : Bytes => Bytes} {onDisk : AList fun _ : UInt64 => Bytes}
  {seen : List ImageEntry} {state : Restoring}

theorem Restores.mem_entries (h : Restores imageDir onDisk seen state) :
    volumeId ∈ state.table.entries ↔
      volumeId ∈ seen.map ImageEntry.volumeId ∧ volumeId ∈ onDisk := by
  rw [mem_entries_snapshot h.inStep, h.rows, mem_map_firstOfEach, List.mem_map, List.mem_map]
  constructor
  · rintro ⟨row, hrow, rfl⟩
    obtain ⟨hseen, hdisk⟩ := List.mem_filter.mp hrow
    exact ⟨⟨row, hseen, rfl⟩, of_decide_eq_true hdisk⟩
  · rintro ⟨⟨row, hseen, rfl⟩, hdisk⟩
    exact ⟨row, List.mem_filter.mpr ⟨hseen, decide_eq_true hdisk⟩, rfl⟩

theorem Restores.restoreRow (h : Restores imageDir onDisk seen state) (row : ImageEntry) :
    Restores imageDir onDisk (seen ++ [row]) (ImageTable.restoreRow state row) := by
  unfold ImageTable.restoreRow
  split
  · -- the volume came before
    rename_i hmem
    obtain ⟨hseen, hdisk⟩ := h.mem_entries.mp hmem
    refine { h with rows := ?_, missing := ?_ }
    · have hfirst : row.volumeId ∈
          (seen.filter (·.volumeId ∈ onDisk)).map ImageEntry.volumeId := by
        rw [← mem_map_firstOfEach, ← h.rows, ← mem_entries_snapshot h.inStep]
        exact hmem
      rw [List.filter_append, List.filter_singleton, decide_eq_true hdisk, cond_true,
        firstOfEach_append, if_pos hfirst, h.rows]
    · rw [List.filter_append, List.filter_singleton, decide_eq_false (not_not_intro hdisk),
        cond_false, List.append_nil, h.missing]
  · rename_i hnew
    have hrest := h.rest row.volumeId
    rw [if_neg hnew] at hrest
    rw [hrest]
    cases hfile : onDisk.lookup row.volumeId with
    | none =>
        have hdisk : row.volumeId ∉ onDisk := AList.lookup_eq_none.mp hfile
        refine { h with rows := ?_, missing := ?_ }
        · rw [List.filter_append, List.filter_singleton, decide_eq_false hdisk, cond_false,
            List.append_nil]
          exact h.rows
        · rw [List.filter_append, List.filter_singleton, decide_eq_true hdisk, cond_true,
            List.map_append, ← h.missing]
          rfl
    | some name =>
        have hdisk : row.volumeId ∈ onDisk := by
          rw [← AList.lookup_isSome, hfile]
          rfl
        have hfirst : row.volumeId ∉
            (seen.filter (·.volumeId ∈ onDisk)).map ImageEntry.volumeId := by
          rw [← mem_map_firstOfEach, ← h.rows, ← mem_entries_snapshot h.inStep]
          exact hnew
        refine ⟨h.inStep.insertEntryLocked hnew, ?_, ?_, ?_, ?_, h.imageDir⟩
        · rw [snapshot_insertEntryLocked h.inStep hnew, List.filter_append, List.filter_singleton,
            decide_eq_true hdisk, cond_true, firstOfEach_append, if_neg hfirst, h.rows]
        · intro entry hentry
          rw [h.inStep.rows_insertEntryLocked hnew] at hentry
          rcases List.mem_cons.mp hentry with rfl | hold
          · exact hfile
          · exact h.filenames entry hold
        · intro volumeId
          have hentries : volumeId ∈ (state.table.insertEntryLocked
              ⟨row.volumeId, row.category, name⟩).entries ↔
                volumeId = row.volumeId ∨ volumeId ∈ state.table.entries := by
            rw [← AList.lookup_isSome, InStep.lookup_insertEntryLocked hnew]
            split
            · rename_i heq
              exact ⟨fun _ => .inl heq, fun _ => rfl⟩
            · rename_i hne
              rw [AList.lookup_isSome]
              exact (or_iff_right hne).symm
          rcases eq_or_ne volumeId row.volumeId with heq | hne
          · rw [if_pos (hentries.mpr (.inl heq)), heq, AList.lookup_erase]
          · rw [AList.lookup_erase_ne hne, h.rest]
            by_cases hold : volumeId ∈ state.table.entries
            · rw [if_pos hold, if_pos (hentries.mpr (.inr hold))]
            · rw [if_neg hold, if_neg fun hmem => (hentries.mp hmem).elim hne hold]
        · rw [List.filter_append, List.filter_singleton, decide_eq_false (not_not_intro hdisk),
            cond_false, List.append_nil]
          exact h.missing

theorem restores_foldl (table : ImageTable) (snapshot : List ImageEntry) :
    Restores table.imageDir (scan table.imageDir.keys) snapshot
      (snapshot.foldl ImageTable.restoreRow
        { table := table.cleared, onDisk := scan table.imageDir.keys }) := by
  induction snapshot using List.reverseRecOn with
  | nil =>
      refine ⟨inStep_cleared table, rfl, fun _ hmem => (nomatch hmem), fun volumeId => ?_, rfl, rfl⟩
      exact (if_neg fun hmem => nomatch hmem).symm
  | append_singleton seen row ih =>
      rw [List.foldl_append]
      exact ih.restoreRow row

/-! ## The images that only the directory knows -/

/-- Pushes some images of the directory, all new. -/
theorem restoreDiskOnly_foldl (ids : List UInt64) (hnodup : ids.Nodup)
    (hfiles : ∀ volumeId ∈ ids, volumeId ∈ onDisk) (h : table.InStep)
    (hnew : ∀ volumeId ∈ ids, volumeId ∉ table.entries) :
    let rebuilt := ids.foldl (restoreDiskOnly onDisk) table
    rebuilt.InStep ∧ rebuilt.imageDir = table.imageDir ∧
      rebuilt.snapshotImageEntries =
        table.snapshotImageEntries ++ ids.map (fun volumeId => ⟨volumeId, .read⟩) ∧
      ∀ entry ∈ rebuilt.rows, entry ∈ table.rows ∨
        entry.volumeId ∈ ids ∧ onDisk.lookup entry.volumeId = some entry.filename := by
  induction ids generalizing table with
  | nil => exact ⟨h, rfl, (List.append_nil _).symm, fun entry hentry => .inl hentry⟩
  | cons id ids ih =>
      have hid : id ∉ table.entries := hnew id List.mem_cons_self
      obtain ⟨name, hname⟩ :=
        Option.isSome_iff_exists.mp (AList.lookup_isSome.mpr (hfiles id List.mem_cons_self))
      have hstep : restoreDiskOnly onDisk table id =
          table.insertEntryLocked ⟨id, .read, name⟩ := by
        rw [restoreDiskOnly, hname]
      rw [List.nodup_cons] at hnodup
      have hinserted : (table.insertEntryLocked ⟨id, .read, name⟩).InStep :=
        h.insertEntryLocked hid
      have hrest := ih hnodup.2 (fun other hother => hfiles other (List.mem_cons_of_mem _ hother))
        hinserted (by
          intro other hother hmem
          rw [← AList.lookup_isSome, InStep.lookup_insertEntryLocked hid, if_neg,
            AList.lookup_isSome] at hmem
          · exact hnew other (List.mem_cons_of_mem _ hother) hmem
          · rintro rfl
            exact hnodup.1 hother)
      obtain ⟨hinStep, hdir, hsnapshot, hrows⟩ := hrest
      dsimp only
      rw [List.foldl_cons, hstep]
      refine ⟨hinStep, hdir, ?_, fun entry hentry => ?_⟩
      · rw [hsnapshot, snapshot_insertEntryLocked h hid, List.append_assoc]
        rfl
      · rcases hrows entry hentry with hold | ⟨hmem, hfile⟩
        · rw [h.rows_insertEntryLocked hid] at hold
          rcases List.mem_cons.mp hold with rfl | hbefore
          · exact .inr ⟨List.mem_cons_self, hname⟩
          · exact .inl hbefore
        · exact .inr ⟨List.mem_cons_of_mem _ hmem, hfile⟩

theorem pairwise_sorted {ids : List UInt64} (hnodup : ids.Nodup) :
    (ids.insertionSort (· ≤ ·)).Pairwise (· < ·) := by
  have htotal : Std.Total fun a b : UInt64 => a ≤ b := ⟨UInt64.le_total⟩
  have htrans : IsTrans UInt64 fun a b => a ≤ b := ⟨fun _ _ _ => UInt64.le_trans⟩
  have hsorted := List.pairwise_insertionSort (fun a b : UInt64 => a ≤ b) ids
  have hdistinct := (List.perm_insertionSort (fun a b : UInt64 => a ≤ b) ids).nodup_iff.mpr hnodup
  refine hsorted.imp₂ (fun a b hle hne => ?_) hdistinct
  exact UInt64.lt_of_le_of_ne hle hne

/-! ## The result -/

instance (names : List Bytes) (volumeId : UInt64) : Decidable (OnDisk names volumeId) := by
  unfold OnDisk
  infer_instance

/-- What `rebuildManagementTable` answers: the entries are the images of the directory,
    in the order of the snapshot's first rows and then by their ids. -/
structure RebuildsExactly (table : ImageTable) (snapshot : List ImageEntry)
    (rebuilt : ImageTable × RebuildReport) : Prop where
  inStep : rebuilt.1.InStep
  imageDir : rebuilt.1.imageDir = table.imageDir
  listed : ∀ volumeId, volumeId ∈ rebuilt.1.entries ↔ OnDisk table.imageDir.keys volumeId
  filenames : ∀ entry ∈ rebuilt.1.rows, table.imageDir.keys.find?
    (fun name => tryParseVolumeId name = some entry.volumeId) = some entry.filename
  order : rebuilt.1.snapshotImageEntries =
    firstOfEach (snapshot.filter fun row => OnDisk table.imageDir.keys row.volumeId) ++
      rebuilt.2.diskOnly.map fun volumeId => ⟨volumeId, .read⟩
  ascending : rebuilt.2.diskOnly.Pairwise (· < ·)
  diskOnly : ∀ volumeId, volumeId ∈ rebuilt.2.diskOnly ↔
    OnDisk table.imageDir.keys volumeId ∧ volumeId ∉ snapshot.map ImageEntry.volumeId
  snapshotOnly : ∀ volumeId, volumeId ∈ rebuilt.2.snapshotOnly ↔
    volumeId ∈ snapshot.map ImageEntry.volumeId ∧ ¬ OnDisk table.imageDir.keys volumeId

theorem rebuildsExactly (table : ImageTable) (snapshot : List ImageEntry) :
    RebuildsExactly table snapshot (table.rebuildManagementTable snapshot) := by
  have hstate := restores_foldl table snapshot
  rw [rebuildManagementTable]
  generalize snapshot.foldl ImageTable.restoreRow
    { table := table.cleared, onDisk := scan table.imageDir.keys } = state at hstate ⊢
  have hkeys : ∀ volumeId, volumeId ∈ state.onDisk.keys.insertionSort (· ≤ ·) ↔
      OnDisk table.imageDir.keys volumeId ∧ volumeId ∉ snapshot.map ImageEntry.volumeId := by
    intro volumeId
    rw [List.mem_insertionSort, ← AList.mem_keys, ← AList.lookup_isSome, hstate.rest]
    split
    · rename_i hmem
      have hseen := (hstate.mem_entries.mp hmem).1
      exact ⟨nofun, fun h => absurd hseen h.2⟩
    · rename_i hnew
      rw [AList.lookup_isSome, mem_scan]
      refine ⟨fun hdisk => ⟨hdisk, fun hseen => ?_⟩, And.left⟩
      exact hnew (hstate.mem_entries.mpr ⟨hseen, mem_scan.mpr hdisk⟩)
  have hsorted := pairwise_sorted state.onDisk.keys_nodup
  have hnodup : (state.onDisk.keys.insertionSort (· ≤ ·)).Nodup :=
    (List.perm_insertionSort _ _).nodup_iff.mpr state.onDisk.keys_nodup
  obtain ⟨hinStep, hdir, hsnapshot, hrows⟩ := restoreDiskOnly_foldl _ hnodup
    (fun volumeId hmem => AList.mem_keys.mpr ((List.mem_insertionSort _).mp hmem)) hstate.inStep
    (fun volumeId hmem hentry => ((hkeys volumeId).mp hmem).2 (hstate.mem_entries.mp hentry).1)
  have hfilter : snapshot.filter (fun row => row.volumeId ∈ scan table.imageDir.keys) =
      snapshot.filter fun row => OnDisk table.imageDir.keys row.volumeId :=
    List.filter_congr fun row _ => decide_eq_decide.mpr mem_scan
  have horder := hsnapshot
  rw [hstate.rows, hfilter] at horder
  refine ⟨hinStep, hdir.trans hstate.imageDir, ?_, ?_, horder, hsorted, hkeys, ?_⟩
  · intro volumeId
    rw [mem_entries_snapshot hinStep, hsnapshot, List.map_append, List.mem_append, List.map_map,
      ← mem_entries_snapshot hstate.inStep, hstate.mem_entries, mem_scan]
    show _ ∨ volumeId ∈ List.map id _ ↔ _
    rw [List.map_id, hkeys]
    by_cases hseen : volumeId ∈ snapshot.map ImageEntry.volumeId
    · simp [hseen]
    · simp [hseen]
  · intro entry hentry
    rw [← lookup_scan]
    rcases hrows entry hentry with hold | ⟨hmem, hfile⟩
    · exact hstate.filenames entry hold
    · rw [hstate.rest] at hfile
      split at hfile
      · cases hfile
      · exact hfile
  · intro volumeId
    rw [hstate.missing, List.mem_map, List.mem_map]
    constructor
    · rintro ⟨row, hrow, rfl⟩
      obtain ⟨hseen, hdisk⟩ := List.mem_filter.mp hrow
      exact ⟨⟨row, hseen, rfl⟩, fun h => of_decide_eq_true hdisk (mem_scan.mpr h)⟩
    · rintro ⟨⟨row, hseen, rfl⟩, hdisk⟩
      refine ⟨row, List.mem_filter.mpr ⟨hseen, decide_eq_true fun h => ?_⟩, rfl⟩
      exact hdisk (mem_scan.mp h)

/-- The rows of a rebuilt table are its snapshot with the names of the files. -/
theorem RebuildsExactly.rows_eq {rebuilt : ImageTable × RebuildReport}
    (h : RebuildsExactly table snapshot rebuilt) :
    rebuilt.1.rows = rebuilt.1.snapshotImageEntries.reverse.map fun row =>
      ⟨row.volumeId, row.category, (table.imageDir.keys.find? fun name =>
        tryParseVolumeId name = some row.volumeId).getD []⟩ := by
  rw [snapshotImageEntries, ← List.map_reverse, List.reverse_reverse, List.map_map]
  symm
  apply List.map_congr_left (g := id) _ |>.trans (List.map_id _)
  intro entry hentry
  simp [h.filenames entry hentry]

theorem lookup_eq_of_rows_eq {table other : ImageTable} (h : table.InStep) (hother : other.InStep)
    (hrows : table.rows = other.rows) (volumeId : UInt64) :
    table.entries.lookup volumeId = other.entries.lookup volumeId := by
  have hiff : ∀ {table : ImageTable}, table.InStep → ∀ entry,
      table.entries.lookup volumeId = some entry ↔ entry ∈ table.rows ∧ entry.volumeId = volumeId := by
    intro table h entry
    rw [h.mem_rows]
    constructor
    · intro hentry
      have hid := h.keyed _ entry hentry
      exact ⟨by rwa [hid], hid⟩
    · rintro ⟨hentry, rfl⟩
      exact hentry
  apply Option.ext
  intro entry
  rw [hiff h, hiff hother, hrows]

/-- Rebuilding is exact, and rebuilding from the snapshot of the result gives the same
    table without differences. -/
theorem rebuild_exact (table : ImageTable) (snapshot : List ImageEntry) :
    let rebuilt := table.rebuildManagementTable snapshot
    let again := rebuilt.1.rebuildManagementTable rebuilt.1.snapshotImageEntries
    RebuildsExactly table snapshot rebuilt ∧
      again.1.rows = rebuilt.1.rows ∧
      (∀ volumeId, again.1.entries.lookup volumeId = rebuilt.1.entries.lookup volumeId) ∧
      again.2.snapshotOnly = [] ∧ again.2.diskOnly = [] := by
  intro rebuilt again
  have h : RebuildsExactly table snapshot rebuilt := rebuildsExactly table snapshot
  have hagain : RebuildsExactly rebuilt.1 rebuilt.1.snapshotImageEntries again :=
    rebuildsExactly _ _
  have hondisk : ∀ row ∈ rebuilt.1.snapshotImageEntries,
      OnDisk rebuilt.1.imageDir.keys row.volumeId := by
    intro row hrow
    rw [h.imageDir, ← h.listed, mem_entries_snapshot h.inStep]
    exact List.mem_map_of_mem hrow
  have hdiskOnly : again.2.diskOnly = [] := by
    apply List.eq_nil_iff_forall_not_mem.mpr
    intro volumeId hmem
    obtain ⟨hdisk, hnew⟩ := (hagain.diskOnly volumeId).mp hmem
    apply hnew
    rw [← mem_entries_snapshot h.inStep, h.listed, ← h.imageDir]
    exact hdisk
  have hsnapshotOnly : again.2.snapshotOnly = [] := by
    apply List.eq_nil_iff_forall_not_mem.mpr
    intro volumeId hmem
    obtain ⟨hseen, hdisk⟩ := (hagain.snapshotOnly volumeId).mp hmem
    obtain ⟨row, hrow, rfl⟩ := List.mem_map.mp hseen
    exact hdisk (hondisk row hrow)
  have hnodup : (rebuilt.1.snapshotImageEntries.map ImageEntry.volumeId).Nodup := by
    rw [snapshotImageEntries, List.map_map, List.map_reverse, List.nodup_reverse]
    exact h.inStep.nodup_rows
  have hsame : again.1.snapshotImageEntries = rebuilt.1.snapshotImageEntries := by
    rw [hagain.order, hdiskOnly, List.map_nil, List.append_nil,
      List.filter_eq_self.mpr fun row hrow => decide_eq_true (hondisk row hrow),
      firstOfEach_eq_self hnodup]
  have hrows : again.1.rows = rebuilt.1.rows := by
    rw [hagain.rows_eq, h.rows_eq, hsame, h.imageDir]
  exact ⟨h, hrows, lookup_eq_of_rows_eq hagain.inStep h.inStep hrows, hsnapshotOnly, hdiskOnly⟩

end Zb.OpticalNode.ImageTable
