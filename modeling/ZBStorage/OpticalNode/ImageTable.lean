-- SUMMARY: The image table with its hash table, list of use and index: each operation as a change of one list of rows.
import ZBStorage.Lib.TextFields
import ZBStorage.OpticalNode.SpaceManager

/-!
# The image table

`space_manager.cpp` with its three containers and the names of the files. The nodes
of the list of use are numbered, so that the index can point at them. Under the
invariant of the containers the table is one list of rows, with the image that was
used last in front.
-/

namespace Zb.OpticalNode

open Bytes TextFields

/-! ## File names -/

/-- `volume_` -/
def kVolumeFilePrefix : Bytes := [118, 111, 108, 117, 109, 101, 95]

/-- `.vimg` -/
def kVolumeFileSuffix : Bytes := [46, 118, 105, 109, 103]

def tryParseVolumeId (basename : Bytes) : Option UInt64 :=
  if basename.length ≤ kVolumeFilePrefix.length + kVolumeFileSuffix.length then none
  else if basename.take kVolumeFilePrefix.length ≠ kVolumeFilePrefix then none
  else
    let suffixBegin := basename.length - kVolumeFileSuffix.length
    if basename.drop suffixBegin ≠ kVolumeFileSuffix then none
    else
      let idStr := (basename.drop kVolumeFilePrefix.length).take
        (suffixBegin - kVolumeFilePrefix.length)
      if idStr = [] then none
      else if idStr.all isDigit = false then none
      else stoull idStr

def basenameOf (absPath : Bytes) : Bytes := absPath.rtakeWhile (· ≠ 47)

/-- The name that `PackVolume` gives to an image. -/
def volumeFileName (volumeId : UInt64) : Bytes :=
  kVolumeFilePrefix ++ decimal volumeId.toNat ++ kVolumeFileSuffix

/-! ## The table -/

/-- `ImageEntry` with the name of its file. -/
structure TableEntry where
  volumeId : UInt64
  category : ImageCategory
  filename : Bytes
  deriving DecidableEq

/-- A node of the list of use; it holds an iterator of the hash table. -/
structure LruNode where
  node : Nat
  volumeId : UInt64
  deriving DecidableEq

inductive TableError
  | success
  | invalidParameter
  | invalidPath
  | invalidVolumeFormat
  | volumeNotFound
  | volumeAlreadyExists
  | volumeFullNoReadable
  | ioError
  deriving DecidableEq

structure ImageTable where
  imageDir : AList (fun _ : Bytes => Bytes) := ∅
  capacityInImages : Nat := 0
  capacitySet : Bool := false
  entries : AList (fun _ : UInt64 => TableEntry) := ∅
  lruList : List LruNode := []
  lruIndex : AList (fun _ : UInt64 => Nat) := ∅
  nextNode : Nat := 0

namespace ImageTable

def setCapacityInImages (table : ImageTable) (capacityInImages : Nat) : TableError × ImageTable :=
  if capacityInImages = 0 then (.invalidParameter, table)
  else if table.capacitySet then (.invalidParameter, table)
  else (.success, { table with capacityInImages := capacityInImages, capacitySet := true })

def touch (table : ImageTable) (volumeId : UInt64) : ImageTable :=
  match table.lruIndex.lookup volumeId with
  | none => table
  | some node =>
      { table with
        lruList := table.lruList.filter (fun other => other.node = node) ++
          table.lruList.filter fun other => other.node ≠ node }

def removeLRU (table : ImageTable) (volumeId : UInt64) : ImageTable :=
  match table.lruIndex.lookup volumeId with
  | none => table
  | some node =>
      { table with
        lruList := table.lruList.filter fun other => other.node ≠ node
        lruIndex := table.lruIndex.erase volumeId }

/-- The entry goes first, and stays away if the file cannot be unlinked. -/
def deleteFileAndEntry (table : ImageTable) (volumeId : UInt64) (unlinked : Bool) :
    TableError × ImageTable :=
  match table.entries.lookup volumeId with
  | none => (.volumeNotFound, table)
  | some entry =>
      let released := { table.removeLRU volumeId with entries := table.entries.erase volumeId }
      if entry.filename ∈ table.imageDir ∧ unlinked = false then (.ioError, released)
      else (.success, { released with imageDir := table.imageDir.erase entry.filename })

def insertEntryLocked (table : ImageTable) (entry : TableEntry) : ImageTable :=
  { table with
    entries := if entry.volumeId ∈ table.entries then table.entries
      else table.entries.insert entry.volumeId entry
    lruList := ⟨table.nextNode, entry.volumeId⟩ :: table.lruList
    lruIndex := if entry.volumeId ∈ table.lruIndex then table.lruIndex
      else table.lruIndex.insert entry.volumeId table.nextNode
    nextNode := table.nextNode + 1 }

/-- The entries from the most to the least recently used. -/
def rows (table : ImageTable) : List TableEntry :=
  table.lruList.filterMap fun node => table.entries.lookup node.volumeId

/-- The read image that was used longest ago. -/
def victim (table : ImageTable) : Option TableEntry :=
  table.rows.reverse.find? fun entry => entry.category = .read

/-- The rename of `MoveFrom`, after the victim has been taken out. -/
def place (table : ImageTable) (evicted : Option TableEntry) (volumeId : UInt64)
    (basename bytes : Bytes) (category : ImageCategory) (renamed : Bool) :
    TableError × ImageTable :=
  if renamed = false then
    match evicted with
    | none => (.ioError, table)
    | some entry => (.ioError, table.insertEntryLocked entry)
  else
    (.success,
      { table with imageDir := table.imageDir.insert basename bytes }.insertEntryLocked
        ⟨volumeId, category, basename⟩)

def moveFrom (table : ImageTable) (absPath bytes : Bytes) (category : ImageCategory)
    (faults : MoveFaults) : TableError × ImageTable :=
  if absPath = [] then (.invalidPath, table)
  else
    match tryParseVolumeId (basenameOf absPath) with
    | none => (.invalidVolumeFormat, table)
    | some volumeId =>
        if table.capacitySet = false then (.invalidParameter, table)
        else if volumeId ∈ table.entries then (.volumeAlreadyExists, table)
        else if table.entries.keys.length ≥ table.capacityInImages then
          match table.victim with
          | none => (.volumeFullNoReadable, table)
          | some victim =>
              match table.deleteFileAndEntry victim.volumeId faults.unlinked with
              | (.success, released) =>
                  released.place victim volumeId (basenameOf absPath) bytes category faults.renamed
              | (code, released) => (code, released)
        else table.place none volumeId (basenameOf absPath) bytes category faults.renamed

def removeSingleReadImage (table : ImageTable) (unlinked : Bool) : TableError × ImageTable :=
  match table.victim with
  | none => (.volumeNotFound, table)
  | some victim => table.deleteFileAndEntry victim.volumeId unlinked

def removeWriteImage (table : ImageTable) (volumeId : UInt64) (unlinked : Bool) :
    TableError × ImageTable :=
  match table.entries.lookup volumeId with
  | none => (.volumeNotFound, table)
  | some entry =>
      if entry.category ≠ .write then (.volumeNotFound, table)
      else table.deleteFileAndEntry volumeId unlinked

/-- From the least to the most recently used. -/
def snapshotImageEntries (table : ImageTable) : List ImageEntry :=
  table.rows.reverse.map fun entry => ⟨entry.volumeId, entry.category⟩

/-! ## Rebuilding -/

/-- `RebuildReport`. -/
structure RebuildReport where
  snapshotOnly : List UInt64 := []
  diskOnly : List UInt64 := []

/-- One directory entry; a volume id keeps the first name that is read. -/
def scanEntry (onDisk : AList fun _ : UInt64 => Bytes) (name : Bytes) :
    AList fun _ : UInt64 => Bytes :=
  match tryParseVolumeId name with
  | none => onDisk
  | some volumeId => if volumeId ∈ onDisk then onDisk else onDisk.insert volumeId name

/-- The images of the directory, whose entries come in the order of the listing. -/
def scan (names : List Bytes) : AList fun _ : UInt64 => Bytes := names.foldl scanEntry ∅

/-- Where the loop over the snapshot stands. -/
structure Restoring where
  table : ImageTable
  onDisk : AList (fun _ : UInt64 => Bytes)
  snapshotOnly : List UInt64 := []

def restoreRow (state : Restoring) (row : ImageEntry) : Restoring :=
  if row.volumeId ∈ state.table.entries then state
  else
    match state.onDisk.lookup row.volumeId with
    | none => { state with snapshotOnly := state.snapshotOnly ++ [row.volumeId] }
    | some name =>
        { state with
          table := state.table.insertEntryLocked ⟨row.volumeId, row.category, name⟩
          onDisk := state.onDisk.erase row.volumeId }

/-- An image that only the directory knows. -/
def restoreDiskOnly (onDisk : AList fun _ : UInt64 => Bytes) (table : ImageTable)
    (volumeId : UInt64) : ImageTable :=
  match onDisk.lookup volumeId with
  | none => table
  | some name => table.insertEntryLocked ⟨volumeId, .read, name⟩

/-- The table that the rebuilding starts from. -/
def cleared (table : ImageTable) : ImageTable :=
  { table with capacitySet := false, entries := ∅, lruList := [], lruIndex := ∅ }

def rebuildManagementTable (table : ImageTable) (snapshot : List ImageEntry) :
    ImageTable × RebuildReport :=
  let state := snapshot.foldl restoreRow
    { table := table.cleared, onDisk := scan table.imageDir.keys }
  let diskOnly := state.onDisk.keys.insertionSort (· ≤ ·)
  (diskOnly.foldl (restoreDiskOnly state.onDisk) state.table,
    { snapshotOnly := state.snapshotOnly, diskOnly := diskOnly })

/-! ## The three containers -/

variable {table : ImageTable} {volumeId other : UInt64} {entry : TableEntry} {unlinked : Bool}

/-- The hash table, the list of use and the index speak of the same images, each
    once. -/
structure InStep (table : ImageTable) : Prop where
  nodes : (table.lruList.map LruNode.node).Nodup
  ids : (table.lruList.map LruNode.volumeId).Nodup
  listed : ∀ volumeId, volumeId ∈ table.entries ↔ volumeId ∈ table.lruList.map LruNode.volumeId
  index : ∀ volumeId node, table.lruIndex.lookup volumeId = some node ↔
    ⟨node, volumeId⟩ ∈ table.lruList
  fresh : ∀ node ∈ table.lruList, node.node < table.nextNode
  keyed : ∀ volumeId, ∀ entry ∈ table.entries.lookup volumeId, entry.volumeId = volumeId

theorem InStep.exists_row (h : table.InStep) {node : LruNode} (hnode : node ∈ table.lruList) :
    ∃ entry, table.entries.lookup node.volumeId = some entry ∧ entry.volumeId = node.volumeId := by
  have hmem : node.volumeId ∈ table.entries := (h.listed _).mpr (List.mem_map_of_mem hnode)
  obtain ⟨entry, hentry⟩ := Option.isSome_iff_exists.mp (AList.lookup_isSome.mpr hmem)
  exact ⟨entry, hentry, h.keyed _ entry hentry⟩

theorem InStep.map_rows (h : table.InStep) :
    table.rows.map TableEntry.volumeId = table.lruList.map LruNode.volumeId := by
  have hall : ∀ node ∈ table.lruList, ((table.entries.lookup node.volumeId).map
      TableEntry.volumeId) = some node.volumeId := by
    intro node hnode
    obtain ⟨entry, hentry, hid⟩ := h.exists_row hnode
    rw [hentry, Option.map_some, hid]
  rw [rows, List.map_filterMap, List.filterMap_congr hall]
  exact congrFun List.filterMap_eq_map' _

theorem InStep.mem_rows (h : table.InStep) :
    entry ∈ table.rows ↔ table.entries.lookup entry.volumeId = some entry := by
  rw [rows, List.mem_filterMap]
  constructor
  · rintro ⟨node, -, hentry⟩
    rwa [h.keyed _ entry hentry]
  · intro hentry
    have hmem : entry.volumeId ∈ table.entries := by
      rw [← AList.lookup_isSome, hentry]
      rfl
    obtain ⟨node, hnode, hid⟩ := List.mem_map.mp ((h.listed _).mp hmem)
    exact ⟨node, hnode, by rwa [hid]⟩

theorem InStep.nodup_rows (h : table.InStep) : (table.rows.map TableEntry.volumeId).Nodup := by
  rw [h.map_rows]
  exact h.ids

theorem InStep.mem_entries (h : table.InStep) :
    volumeId ∈ table.entries ↔ volumeId ∈ table.rows.map TableEntry.volumeId := by
  rw [h.map_rows, h.listed]

theorem inStep_cleared (table : ImageTable) : table.cleared.InStep where
  nodes := List.nodup_nil
  ids := List.nodup_nil
  listed _ := Iff.intro (fun hmem => (nomatch hmem)) (fun hmem => (nomatch hmem))
  index _ _ := Iff.intro (fun hmem => (nomatch hmem)) (fun hmem => (nomatch hmem))
  fresh _ hmem := nomatch hmem
  keyed _ _ hmem := nomatch hmem

/-! ## Inserting -/

theorem InStep.notMem_index (h : table.InStep) (hnew : volumeId ∉ table.entries) :
    volumeId ∉ table.lruIndex := by
  intro hmem
  obtain ⟨node, hnode⟩ := Option.isSome_iff_exists.mp (AList.lookup_isSome.mpr hmem)
  apply hnew
  rw [h.listed]
  exact List.mem_map_of_mem ((h.index _ _).mp hnode)

theorem InStep.insertEntryLocked (h : table.InStep) (hnew : entry.volumeId ∉ table.entries) :
    (table.insertEntryLocked entry).InStep := by
  have hindex := h.notMem_index hnew
  unfold ImageTable.insertEntryLocked
  rw [if_neg hnew, if_neg hindex]
  refine ⟨?_, ?_, ?_, ?_, ?_, ?_⟩
  · refine List.nodup_cons.mpr ⟨fun hmem => ?_, h.nodes⟩
    obtain ⟨node, hnode, hsame⟩ := List.mem_map.mp hmem
    have hlt := h.fresh node hnode
    dsimp only at hsame
    omega
  · exact List.nodup_cons.mpr ⟨fun hmem => hnew ((h.listed _).mpr hmem), h.ids⟩
  · intro volumeId
    rw [AList.mem_insert, List.map_cons, List.mem_cons, h.listed]
  · intro volumeId node
    rw [List.mem_cons]
    rcases eq_or_ne volumeId entry.volumeId with rfl | hne
    · rw [AList.lookup_insert, Option.some.injEq]
      constructor
      · rintro rfl
        exact .inl rfl
      · rintro (hsame | hold)
        · exact (congrArg LruNode.node hsame).symm
        · exact absurd ((h.listed _).mpr (List.mem_map_of_mem hold)) hnew
    · rw [AList.lookup_insert_ne hne, h.index]
      constructor
      · exact .inr
      · rintro (hsame | hold)
        · exact absurd (congrArg LruNode.volumeId hsame) hne
        · exact hold
  · intro node hnode
    rcases List.mem_cons.mp hnode with rfl | hold
    · exact Nat.lt_succ_self _
    · exact Nat.lt_succ_of_lt (h.fresh node hold)
  · intro volumeId found hfound
    rcases eq_or_ne volumeId entry.volumeId with rfl | hne
    · rw [AList.lookup_insert] at hfound
      rw [← Option.some.inj hfound]
    · rw [AList.lookup_insert_ne hne] at hfound
      exact h.keyed _ found hfound

theorem InStep.lookup_insertEntryLocked (hnew : entry.volumeId ∉ table.entries)
    (volumeId : UInt64) : (table.insertEntryLocked entry).entries.lookup volumeId =
      if volumeId = entry.volumeId then some entry else table.entries.lookup volumeId := by
  have hentries : (table.insertEntryLocked entry).entries =
      table.entries.insert entry.volumeId entry := if_neg hnew
  rw [hentries]
  split
  · rename_i heq
    rw [heq]
    exact AList.lookup_insert _
  · rename_i hne
    exact AList.lookup_insert_ne hne

theorem InStep.rows_insertEntryLocked (h : table.InStep) (hnew : entry.volumeId ∉ table.entries) :
    (table.insertEntryLocked entry).rows = entry :: table.rows := by
  have hlookup := InStep.lookup_insertEntryLocked hnew
  have hrest : ∀ node ∈ table.lruList, (table.insertEntryLocked entry).entries.lookup
      node.volumeId = table.entries.lookup node.volumeId := by
    intro node hnode
    rw [hlookup, if_neg]
    intro hsame
    apply hnew
    rw [← hsame, h.listed]
    exact List.mem_map_of_mem hnode
  show List.filterMap _ (_ :: table.lruList) = _
  rw [List.filterMap_cons_some (b := entry) (by rw [hlookup, if_pos rfl]), rows,
    List.filterMap_congr hrest]

/-! ## Taking out and moving to the front -/

theorem InStep.filter_node (h : table.InStep) {node : Nat}
    (hnode : table.lruIndex.lookup volumeId = some node) :
    ∀ other ∈ table.lruList, (other.node = node ↔ other.volumeId = volumeId) := by
  have hmem := (h.index _ _).mp hnode
  intro other hother
  constructor
  · intro hsame
    have heq := List.inj_on_of_nodup_map h.nodes hother hmem hsame
    rw [heq]
  · intro hsame
    have heq := List.inj_on_of_nodup_map h.ids hother hmem hsame
    rw [heq]

theorem InStep.exists_node (h : table.InStep) (hmem : volumeId ∈ table.entries) :
    ∃ node, table.lruIndex.lookup volumeId = some node := by
  obtain ⟨node, hnode, rfl⟩ := List.mem_map.mp ((h.listed _).mp hmem)
  exact ⟨node.node, (h.index _ _).mpr hnode⟩

/-- The table without the entry of a volume. -/
def release (table : ImageTable) (volumeId : UInt64) : ImageTable :=
  { table.removeLRU volumeId with entries := table.entries.erase volumeId }

theorem InStep.release_eq (h : table.InStep) (hmem : volumeId ∈ table.entries) :
    table.release volumeId =
      { table with
        entries := table.entries.erase volumeId
        lruList := table.lruList.filter fun other => other.volumeId ≠ volumeId
        lruIndex := table.lruIndex.erase volumeId } := by
  obtain ⟨node, hnode⟩ := h.exists_node hmem
  have hfilter : table.lruList.filter (fun other => other.node ≠ node) =
      table.lruList.filter fun other => other.volumeId ≠ volumeId := by
    apply List.filter_congr
    intro other hother
    rw [decide_eq_decide]
    exact not_congr (h.filter_node hnode other hother)
  rw [release, removeLRU, hnode]
  dsimp only
  rw [hfilter]

theorem InStep.release (h : table.InStep) (hmem : volumeId ∈ table.entries) :
    (table.release volumeId).InStep := by
  rw [h.release_eq hmem]
  refine ⟨?_, ?_, ?_, ?_, ?_, ?_⟩
  · exact h.nodes.sublist (List.filter_sublist.map _)
  · exact h.ids.sublist (List.filter_sublist.map _)
  · intro other
    rw [AList.mem_erase, h.listed, List.mem_map, List.mem_map]
    constructor
    · rintro ⟨hne, node, hnode, rfl⟩
      exact ⟨node, List.mem_filter.mpr ⟨hnode, decide_eq_true hne⟩, rfl⟩
    · rintro ⟨node, hnode, rfl⟩
      obtain ⟨hold, hne⟩ := List.mem_filter.mp hnode
      exact ⟨of_decide_eq_true hne, node, hold, rfl⟩
  · intro other node
    rw [List.mem_filter]
    rcases eq_or_ne other volumeId with rfl | hne
    · rw [AList.lookup_erase]
      exact ⟨nofun, fun hnode => absurd rfl (of_decide_eq_true hnode.2)⟩
    · rw [AList.lookup_erase_ne hne, h.index]
      exact ⟨fun hnode => ⟨hnode, decide_eq_true hne⟩, fun hnode => hnode.1⟩
  · exact fun node hnode => h.fresh node (List.mem_filter.mp hnode).1
  · intro other found hfound
    rcases eq_or_ne other volumeId with rfl | hne
    · rw [AList.lookup_erase] at hfound
      cases hfound
    · rw [AList.lookup_erase_ne hne] at hfound
      exact h.keyed _ found hfound

theorem filterMap_filter_lookup {entries : AList fun _ : UInt64 => TableEntry}
    {p : UInt64 → Bool} (hkeyed : ∀ volumeId, ∀ entry ∈ entries.lookup volumeId,
      entry.volumeId = volumeId) (nodes : List LruNode) :
    (nodes.filter fun node => p node.volumeId).filterMap
        (fun node => entries.lookup node.volumeId) =
      (nodes.filterMap fun node => entries.lookup node.volumeId).filter
        fun entry => p entry.volumeId := by
  rw [List.filterMap_filter, List.filter_filterMap]
  apply List.filterMap_congr
  intro node _
  cases hlookup : entries.lookup node.volumeId with
  | none => split <;> rfl
  | some entry =>
      rw [Option.filter_some, hkeyed _ entry hlookup]

theorem InStep.rows_release (h : table.InStep) (hmem : volumeId ∈ table.entries) :
    (table.release volumeId).rows = table.rows.filter fun entry => entry.volumeId ≠ volumeId := by
  rw [rows, h.release_eq hmem]
  dsimp only
  rw [rows, ← filterMap_filter_lookup (p := fun id => decide (id ≠ volumeId)) h.keyed]
  apply List.filterMap_congr
  intro node hnode
  have hne := of_decide_eq_true (List.mem_filter.mp hnode).2
  exact AList.lookup_erase_ne hne

theorem InStep.touch_eq (h : table.InStep) (hmem : volumeId ∈ table.entries) :
    table.touch volumeId =
      { table with
        lruList := table.lruList.filter (fun other => other.volumeId = volumeId) ++
          table.lruList.filter fun other => other.volumeId ≠ volumeId } := by
  obtain ⟨node, hnode⟩ := h.exists_node hmem
  have hfilter : table.lruList.filter (fun other => other.node ≠ node) =
      table.lruList.filter fun other => other.volumeId ≠ volumeId := by
    apply List.filter_congr
    intro other hother
    rw [decide_eq_decide]
    exact not_congr (h.filter_node hnode other hother)
  have hfound : table.lruList.filter (fun other => other.node = node) =
      table.lruList.filter fun other => other.volumeId = volumeId := by
    apply List.filter_congr
    intro other hother
    rw [decide_eq_decide]
    exact h.filter_node hnode other hother
  rw [touch, hnode]
  dsimp only
  rw [hfilter, hfound]

theorem touch_of_notMem (h : table.InStep) (hmem : volumeId ∉ table.entries) :
    table.touch volumeId = table := by
  rw [touch, AList.lookup_eq_none.mpr (h.notMem_index hmem)]

theorem perm_touched (volumeId : UInt64) (nodes : List LruNode) :
    (nodes.filter (fun other => other.volumeId = volumeId) ++
      nodes.filter fun other => other.volumeId ≠ volumeId).Perm nodes := by
  have hperm := List.filter_append_perm (fun other : LruNode => other.volumeId = volumeId) nodes
  simpa using hperm

theorem InStep.touch (h : table.InStep) (volumeId : UInt64) : (table.touch volumeId).InStep := by
  by_cases hmem : volumeId ∈ table.entries
  · have hperm := perm_touched volumeId table.lruList
    rw [h.touch_eq hmem]
    refine ⟨?_, ?_, ?_, ?_, ?_, h.keyed⟩
    · exact (hperm.map _).nodup_iff.mpr h.nodes
    · exact (hperm.map _).nodup_iff.mpr h.ids
    · intro other
      rw [h.listed]
      exact (hperm.map _).mem_iff.symm
    · intro other node
      rw [h.index]
      exact hperm.mem_iff.symm
    · exact fun node hnode => h.fresh node (hperm.mem_iff.mp hnode)
  · rwa [touch_of_notMem h hmem]

end ImageTable

end Zb.OpticalNode
