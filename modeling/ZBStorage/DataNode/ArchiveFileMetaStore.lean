-- SUMMARY: The archive metadata of files: the format of an entry, and what each call leaves in table and log.
import ZBStorage.DataNode.ArchiveMetaCapacity
import ZBStorage.Lib.CallHistory

/-!
# Archive metadata of files

For every file the store keeps where it lies, how large it is, when it was accessed
last and how far its archiving is. An entry is one line of fields between tabs; the
disk id among them is the text of the request.
-/

namespace Zb.DataNode.ArchiveFileMetaStore

open Bytes TextFields TableFill MetaStore CallHistory

inductive FileArchiveState
  | kPending
  | kArchiving
  | kArchived
  deriving DecidableEq

structure ArchiveFileMeta where
  inodeId : UInt64 := 0
  diskId : Bytes := []
  fileSize : UInt64 := 0
  objectCount : UInt32 := 0
  lastAccessTsMs : UInt64 := 0
  archiveState : FileArchiveState := .kPending
  version : UInt64 := 0
  deriving DecidableEq

/-! ## Lines -/

def buildFileKey (inodeId : UInt64) : Bytes := decimal inodeId.toNat

def stateToString : FileArchiveState → Bytes
  | .kArchiving => ofAscii "archiving"
  | .kArchived => ofAscii "archived"
  | .kPending => ofAscii "pending"

def parseState (text : Bytes) : Option FileArchiveState :=
  if text = ofAscii "pending" then some .kPending
  else if text = ofAscii "archiving" then some .kArchiving
  else if text = ofAscii "archived" then some .kArchived
  else none

def serializeMetaLine (fileMeta : ArchiveFileMeta) : Bytes :=
  [decimal fileMeta.inodeId.toNat, fileMeta.diskId, decimal fileMeta.fileSize.toNat,
    decimal fileMeta.objectCount.toNat, decimal fileMeta.lastAccessTsMs.toNat,
    stateToString fileMeta.archiveState].flatMap (· ++ [tab]) ++ decimal fileMeta.version.toNat

/-- The object count is cut to 32 bits. -/
def parseMetaLine (line : Bytes) : Option ArchiveFileMeta :=
  match getLines tab [] line with
  | [inode, diskId, size, count, access, state, version] => do
      let inodeId ← stoull inode
      let fileSize ← stoull size
      let objectCount ← stoull count
      let lastAccessTsMs ← stoull access
      let archiveState ← parseState state
      let version ← stoull version
      if inodeId = 0 then none
      else
        some
          { inodeId, diskId, fileSize, objectCount := UInt32.ofNat objectCount.toNat,
            lastAccessTsMs, archiveState, version }
  | _ => none

def parseDeletion (body : Bytes) : Option Bytes := do
  let inodeId ← stoull body
  if inodeId = 0 then none else some (buildFileKey inodeId)

def format : MetaFormat ArchiveFileMeta where
  noun := "archive file"
  kArchiveWalMagic := ofAscii "FMW1"
  length_magic := by decide +kernel
  key fileMeta := buildFileKey fileMeta.inodeId
  lastAccess := ArchiveFileMeta.lastAccessTsMs
  serializeMetaLine := serializeMetaLine
  parseMetaLine := parseMetaLine
  parse_nil := rfl
  deletion fileMeta := decimal fileMeta.inodeId.toNat
  parseDeletion := parseDeletion

/-! ## Calls -/

abbrev Store := MetaStore ArchiveFileMeta

abbrev Order := MetaOrder ArchiveFileMeta

variable (store : Store) (order : Order)

/-- The entry of the file, or a new one. -/
def entryOf (inodeId : UInt64) : ArchiveFileMeta :=
  (store.metas.lookup (buildFileKey inodeId)).getD { inodeId := inodeId }

/-- The table is cut to its capacity before it takes a new file. -/
def evictForNew (inodeId : UInt64) : Store :=
  if (store.metas.lookup (buildFileKey inodeId)).isSome then store
  else evictIfNeeded format order store true

def accessed (fileMeta : ArchiveFileMeta) (diskId : Bytes) (fileSize : UInt64)
    (objectCount : UInt32) (isWrite : Bool) (nowMs version : UInt64) : ArchiveFileMeta :=
  { fileMeta with
    diskId := if diskId ≠ [] then diskId else fileMeta.diskId
    fileSize := if fileSize > 0 then max fileMeta.fileSize fileSize else fileMeta.fileSize
    objectCount :=
      if objectCount > 0 then max fileMeta.objectCount objectCount else fileMeta.objectCount
    lastAccessTsMs := nowMs
    version := max fileMeta.version version
    archiveState :=
      if isWrite ∧ fileMeta.archiveState = .kArchived then .kPending else fileMeta.archiveState }

def trackFileAccess (inodeId : UInt64) (diskId : Bytes) (fileSize : UInt64)
    (objectCount : UInt32) (isWrite : Bool) (nowMs version : UInt64) : Store :=
  if inodeId = 0 then store
  else
    (putEvicting format order (evictForNew store order inodeId)
      (accessed (entryOf store inodeId) diskId fileSize objectCount isWrite nowMs version)).2

def upserted (fileMeta : ArchiveFileMeta) (diskId : Bytes) (fileSize : UInt64)
    (objectCount : UInt32) (version : UInt64) (resetToPending : Bool) : ArchiveFileMeta :=
  { fileMeta with
    diskId := if diskId ≠ [] then diskId else fileMeta.diskId
    fileSize := fileSize
    objectCount := objectCount
    version := max fileMeta.version version
    archiveState := if resetToPending then .kPending else fileMeta.archiveState }

def upsertFile (inodeId : UInt64) (diskId : Bytes) (fileSize : UInt64) (objectCount : UInt32)
    (version : UInt64) (resetToPending : Bool) : Bool × Store :=
  if inodeId = 0 then (false, store)
  else
    put format order (evictForNew store order inodeId)
      (upserted (entryOf store inodeId) diskId fileSize objectCount version resetToPending)

/-- The entry with another state; a new one takes the disk and the version as they are. -/
def stated (inodeId : UInt64) (diskId : Bytes) (archiveState : FileArchiveState)
    (version : UInt64) : ArchiveFileMeta :=
  match store.metas.lookup (buildFileKey inodeId) with
  | none =>
      { inodeId := inodeId, diskId := diskId, archiveState := archiveState,
        version := if version > 0 then version else 1 }
  | some fileMeta =>
      { fileMeta with
        diskId := if diskId ≠ [] then diskId else fileMeta.diskId
        archiveState := archiveState
        version := if version > 0 then max fileMeta.version version else fileMeta.version }

def updateFileArchiveState (inodeId : UInt64) (diskId : Bytes) (archiveState : FileArchiveState)
    (version : UInt64) : Bool × Store :=
  if inodeId = 0 then (false, store)
  else put format order store (stated store inodeId diskId archiveState version)

def removeFile (inodeId : UInt64) : Store :=
  if inodeId = 0 ∨ store.metas.lookup (buildFileKey inodeId) = none then store
  else remove format order store (buildFileKey inodeId) (decimal inodeId.toNat)

def setMaxFiles (maxFiles : Nat) : Store := setMax format order store maxFiles

/-- A call with the order in which the table is gone through. -/
inductive Call
  | track (inodeId : UInt64) (diskId : Bytes) (fileSize : UInt64) (objectCount : UInt32)
      (isWrite : Bool) (nowMs version : UInt64) (order : Order)
  | upsert (inodeId : UInt64) (diskId : Bytes) (fileSize : UInt64) (objectCount : UInt32)
      (version : UInt64) (resetToPending : Bool) (order : Order)
  | updateState (inodeId : UInt64) (diskId : Bytes) (archiveState : FileArchiveState)
      (version : UInt64) (order : Order)
  | remove (inodeId : UInt64) (order : Order)
  | setMaxFiles (maxFiles : Nat) (order : Order)

def serve : Call → Store
  | .track inodeId diskId fileSize objectCount isWrite nowMs version order =>
      trackFileAccess store order inodeId diskId fileSize objectCount isWrite nowMs version
  | .upsert inodeId diskId fileSize objectCount version resetToPending order =>
      (upsertFile store order inodeId diskId fileSize objectCount version resetToPending).2
  | .updateState inodeId diskId archiveState version order =>
      (updateFileArchiveState store order inodeId diskId archiveState version).2
  | .remove inodeId order => removeFile store order inodeId
  | .setMaxFiles maxFiles order => ArchiveFileMetaStore.setMaxFiles store order maxFiles

def Serving (store : Store) (call : Call) (store' : Store) : Prop := store' = serve store call

/-- The entry that a call puts in place, and the disk id that it brings. -/
def written : Call → Option (Bytes × ArchiveFileMeta)
  | .track inodeId diskId fileSize objectCount isWrite nowMs version _ =>
      if inodeId = 0 then none
      else
        some (diskId,
          accessed (entryOf store inodeId) diskId fileSize objectCount isWrite nowMs version)
  | .upsert inodeId diskId fileSize objectCount version resetToPending _ =>
      if inodeId = 0 then none
      else
        some (diskId,
          upserted (entryOf store inodeId) diskId fileSize objectCount version resetToPending)
  | .updateState inodeId diskId archiveState version _ =>
      if inodeId = 0 then none
      else some (diskId, stated store inodeId diskId archiveState version)
  | .remove _ _ => none
  | .setMaxFiles _ _ => none

/-- The log can carry what the call writes: the disk id has no tab and no newline, and the
    record is not too long. -/
def Carried (store : Store) (call : Call) : Prop :=
  ∀ entry ∈ written store call,
    Plain entry.1 ∧ (updatePayload (serializeMetaLine entry.2)).length ≤ kMaxWalPayloadBytes

instance (store : Store) (call : Call) : Decidable (Carried store call) :=
  inferInstanceAs (Decidable (∀ entry ∈ written store call, _))

/-- The table has room for what the call puts in place. -/
def Room (store : Store) : Call → Prop
  | .track inodeId diskId fileSize objectCount isWrite nowMs version order =>
      inodeId ≠ 0 → MakesRoom format order store
        (accessed (entryOf store inodeId) diskId fileSize objectCount isWrite nowMs version)
  | .upsert inodeId _ _ _ _ _ _ => inodeId ≠ 0 → HasRoom store (buildFileKey inodeId)
  | .updateState inodeId _ _ _ _ => inodeId ≠ 0 → HasRoom store (buildFileKey inodeId)
  | .remove _ _ => True
  | .setMaxFiles maxFiles _ => (lasting format store.metas).length ≤ max 1 maxFiles

instance (store : Store) : (call : Call) → Decidable (Room store call)
  | .track .. => inferInstanceAs (Decidable (_ → MakesRoom _ _ _ _))
  | .upsert .. => inferInstanceAs (Decidable (_ → HasRoom _ _))
  | .updateState .. => inferInstanceAs (Decidable (_ → HasRoom _ _))
  | .remove .. => .isTrue trivial
  | .setMaxFiles .. => inferInstanceAs (Decidable (_ ≤ _))

/-! ## A line is read back -/

variable {store store' : Store} {fileMeta : ArchiveFileMeta} {replayed : MetaTable ArchiveFileMeta}
  {call : Call} {inodeId : UInt64} {hist : List (Served Store Call)}

theorem parseState_stateToString (state : FileArchiveState) :
    parseState (stateToString state) = some state := by
  cases state <;> decide +kernel

theorem plain_stateToString (state : FileArchiveState) : Plain (stateToString state) := by
  cases state <;> decide +kernel

theorem plain_fields (h : Plain fileMeta.diskId) :
    ∀ field ∈ [decimal fileMeta.inodeId.toNat, fileMeta.diskId, decimal fileMeta.fileSize.toNat,
      decimal fileMeta.objectCount.toNat, decimal fileMeta.lastAccessTsMs.toNat,
      stateToString fileMeta.archiveState], Plain field := by
  simp only [List.forall_mem_cons]
  exact ⟨plain_decimal _, h, plain_decimal _, plain_decimal _, plain_decimal _,
    plain_stateToString _, nofun⟩

theorem getLines_serializeMetaLine (h : Plain fileMeta.diskId) :
    getLines tab [] (serializeMetaLine fileMeta) =
      [decimal fileMeta.inodeId.toNat, fileMeta.diskId, decimal fileMeta.fileSize.toNat,
        decimal fileMeta.objectCount.toNat, decimal fileMeta.lastAccessTsMs.toNat,
        stateToString fileMeta.archiveState, decimal fileMeta.version.toNat] :=
  getLines_fields (plain_fields h) (plain_decimal _) (decimal_ne_nil _)

theorem parseMetaLine_serializeMetaLine (hinode : fileMeta.inodeId ≠ 0)
    (hplain : Plain fileMeta.diskId) :
    parseMetaLine (serializeMetaLine fileMeta) = some fileMeta := by
  have hcount : stoull (decimal fileMeta.objectCount.toNat) = some fileMeta.objectCount.toUInt64 := by
    rw [← UInt32.toNat_toUInt64, stoull_decimal]
  rw [parseMetaLine, getLines_serializeMetaLine hplain]
  dsimp only
  simp only [stoull_decimal, hcount, parseState_stateToString, Option.bind_eq_bind,
    Option.bind_some]
  rw [if_neg hinode, UInt32.toNat_toUInt64, UInt32.ofNat_toNat]

theorem parseDeletion_decimal (hinode : inodeId ≠ 0) :
    parseDeletion (decimal inodeId.toNat) = some (buildFileKey inodeId) := by
  rw [parseDeletion, stoull_decimal]
  exact if_neg hinode

theorem writes (hinode : fileMeta.inodeId ≠ 0) (hplain : Plain fileMeta.diskId)
    (hsize : (updatePayload (serializeMetaLine fileMeta)).length ≤ kMaxWalPayloadBytes) :
    format.Writes fileMeta (id fileMeta) where
  parse := parseMetaLine_serializeMetaLine hinode hplain
  key := rfl
  line := newline_notMem_fields (plain_fields hplain) (plain_decimal _)
  size := hsize
  deletion := parseDeletion_decimal hinode
  deletion_size := by
    have hlength : (decimal fileMeta.inodeId.toNat).length ≤ (serializeMetaLine fileMeta).length := by
      rw [serializeMetaLine, List.flatMap_cons, List.append_assoc, List.append_assoc,
        List.length_append]
      exact Nat.le_add_right _ _
    exact Nat.le_trans (Nat.succ_le_succ (Nat.succ_le_succ hlength)) hsize

/-! ## One call -/

theorem buildFileKey_injective {inodeId inodeId' : UInt64}
    (h : buildFileKey inodeId = buildFileKey inodeId') : inodeId = inodeId' :=
  UInt64.toNat_inj.mp (decimal_injective h)

/-- The entry under the key of a file is that of the file. -/
theorem inodeId_of_lookup (h : Sound format id store.metas)
    (hlookup : store.metas.lookup (buildFileKey inodeId) = some fileMeta) :
    fileMeta.inodeId = inodeId := buildFileKey_injective (h _ _ hlookup).1

/-- A disk id that is read back has no separator. -/
theorem plain_of_writes (h : format.Writes fileMeta (id fileMeta)) : Plain fileMeta.diskId := by
  refine ⟨?_, fun hmem => h.line ?_⟩
  · have hparse : parseMetaLine (serializeMetaLine fileMeta) = some fileMeta := h.parse
    unfold parseMetaLine at hparse
    split at hparse
    · rename_i inode diskId size count access state version hfields
      simp only [Option.bind_eq_bind, Option.bind_eq_some_iff] at hparse
      obtain ⟨_, -, _, -, _, -, _, -, _, -, _, -, hrow⟩ := hparse
      split at hrow
      · cases hrow
      · cases hrow
        have hmem : diskId ∈ getLines tab [] _ := hfields ▸ List.mem_cons_of_mem _ List.mem_cons_self
        exact notMem_of_mem_getLines List.not_mem_nil hmem
    · cases hparse
  · show newline ∈ serializeMetaLine fileMeta
    rw [serializeMetaLine]
    refine List.mem_append_left _ (List.mem_flatMap.mpr ⟨fileMeta.diskId, ?_, ?_⟩)
    · exact List.mem_cons_of_mem _ List.mem_cons_self
    · exact List.mem_append_left _ hmem

/-- What holds of every entry that a call can start from. -/
theorem entryOf_sound (h : Sound format id store.metas) (inodeId : UInt64) :
    (entryOf store inodeId).inodeId = inodeId ∧ Plain (entryOf store inodeId).diskId := by
  unfold entryOf
  cases hlookup : store.metas.lookup (buildFileKey inodeId) with
  | none => exact ⟨rfl, List.not_mem_nil, List.not_mem_nil⟩
  | some fileMeta => exact ⟨inodeId_of_lookup h hlookup, plain_of_writes (h _ _ hlookup).2⟩

theorem stated_sound (h : Sound format id store.metas) (inodeId : UInt64) {diskId : Bytes}
    (hdisk : Plain diskId) (archiveState : FileArchiveState) (version : UInt64) :
    (stated store inodeId diskId archiveState version).inodeId = inodeId ∧
      Plain (stated store inodeId diskId archiveState version).diskId := by
  unfold stated
  split
  · exact ⟨rfl, hdisk⟩
  · rename_i fileMeta hlookup
    have hinode : fileMeta.inodeId = inodeId := inodeId_of_lookup h hlookup
    refine ⟨hinode, ?_⟩
    dsimp only
    split
    · exact hdisk
    · exact plain_of_writes (h _ _ hlookup).2

/-- What a call puts in place can be written, and stands under the key of its file. -/
theorem writes_written (h : Sound format id store.metas) (hcarried : Carried store call)
    {diskId : Bytes} (hwritten : written store call = some (diskId, fileMeta)) :
    format.Writes fileMeta (id fileMeta) := by
  obtain ⟨hdisk, hsize⟩ := hcarried (diskId, fileMeta) hwritten
  have hkept (entry : ArchiveFileMeta) (hentry : Plain entry.diskId) :
      Plain (if diskId ≠ [] then diskId else entry.diskId) := by
    split
    · exact hdisk
    · exact hentry
  cases call with
  | track inodeId _ fileSize objectCount isWrite nowMs version order =>
      rw [written] at hwritten
      split at hwritten
      · cases hwritten
      · rename_i hinode
        cases hwritten
        obtain ⟨hentry, hplain⟩ := entryOf_sound h inodeId
        exact writes (by rwa [accessed, hentry]) (hkept _ hplain) hsize
  | upsert inodeId _ fileSize objectCount version resetToPending order =>
      rw [written] at hwritten
      split at hwritten
      · cases hwritten
      · rename_i hinode
        cases hwritten
        obtain ⟨hentry, hplain⟩ := entryOf_sound h inodeId
        exact writes (by rwa [upserted, hentry]) (hkept _ hplain) hsize
  | updateState inodeId _ archiveState version order =>
      rw [written] at hwritten
      split at hwritten
      · cases hwritten
      · rename_i hinode
        cases hwritten
        obtain ⟨hentry, hplain⟩ := stated_sound h inodeId hdisk archiveState version
        exact writes (by rwa [hentry]) hplain hsize
  | remove inodeId order => cases hwritten
  | setMaxFiles maxFiles order => cases hwritten

theorem evictForNew_steps (h : Follows format id store replayed) (order : Order)
    (inodeId : UInt64) :
    Steps format id store replayed (evictForNew store order inodeId) True := by
  unfold evictForNew
  split
  · exact .same h True
  · exact h.evictIfNeeded order

/-- The entry of a removed file is the one that the log deletes. -/
theorem removed_writes (h : Sound format id store.metas)
    (hlookup : store.metas.lookup (buildFileKey inodeId) ≠ none) :
    parseDeletion (decimal inodeId.toNat) = some (buildFileKey inodeId) ∧
      (deletePayload (decimal inodeId.toNat)).length ≤ kMaxWalPayloadBytes := by
  obtain ⟨fileMeta, hfound⟩ := Option.ne_none_iff_exists'.mp hlookup
  obtain ⟨-, hwrites⟩ := h _ _ hfound
  have hinode := inodeId_of_lookup h hfound
  exact hinode ▸ ⟨hwrites.deletion, hwrites.deletion_size⟩

/-- Every call that the log can carry keeps the files up with the table. -/
theorem serve_follows (h : Follows format id store replayed) (hcarried : Carried store call) :
    ∃ replayed', Follows format id (serve store call) replayed' := by
  have hwrites (diskId : Bytes) (fileMeta : ArchiveFileMeta)
      (hwritten : written store call = some (diskId, fileMeta)) :
      format.Writes fileMeta (id fileMeta) := writes_written h.sound hcarried hwritten
  have hsame : ∃ replayed', Follows format id store replayed' := ⟨replayed, h⟩
  cases call with
  | track inodeId diskId fileSize objectCount isWrite nowMs version order =>
      rw [serve, trackFileAccess]
      split
      · exact hsame
      · rename_i hinode
        have hrow := hwrites diskId _ (if_neg hinode)
        obtain ⟨next, hnext, -⟩ := evictForNew_steps h order inodeId
        obtain ⟨-, replayed', hfollows, -⟩ := hnext.putEvicting hrow order
        exact ⟨replayed', hfollows⟩
  | upsert inodeId diskId fileSize objectCount version resetToPending order =>
      rw [serve, upsertFile]
      split
      · exact hsame
      · rename_i hinode
        have hrow := hwrites diskId _ (if_neg hinode)
        obtain ⟨next, hnext, -⟩ := evictForNew_steps h order inodeId
        obtain ⟨-, -, replayed', hfollows, -⟩ := hnext.put hrow order
        exact ⟨replayed', hfollows⟩
  | updateState inodeId diskId archiveState version order =>
      rw [serve, updateFileArchiveState]
      split
      · exact hsame
      · rename_i hinode
        have hrow := hwrites diskId _ (if_neg hinode)
        obtain ⟨-, -, replayed', hfollows, -⟩ := h.put hrow order
        exact ⟨replayed', hfollows⟩
  | remove inodeId order =>
      rw [serve, removeFile]
      split
      · exact hsame
      · rename_i hfound
        rw [not_or] at hfound
        obtain ⟨hkey, hsize⟩ := removed_writes h.sound hfound.2
        obtain ⟨-, replayed', hfollows, -⟩ := h.remove hkey hsize order
        exact ⟨replayed', hfollows⟩
  | setMaxFiles maxFiles order =>
      have hmax : Follows format id { store with maxEntries := max 1 maxFiles } replayed :=
        ⟨h.logged, h.sound, h.covers⟩
      obtain ⟨replayed', hfollows, -⟩ := hmax.evictIfNeeded order
      exact ⟨replayed', hfollows⟩

/-- Nothing is evicted before a new file while the table is within its capacity. -/
theorem evictForNew_of_le (h : store.metas.entries.length ≤ store.maxEntries) (order : Order)
    (inodeId : UInt64) : evictForNew store order inodeId = store := by
  unfold evictForNew
  split
  · rfl
  · exact evictIfNeeded_of_le h

/-- And every call that finds room keeps them equal. -/
theorem serve_exact (h : Exact format id store replayed) (hcarried : Carried store call)
    (hroom : Room store call) : ∃ replayed', Exact format id (serve store call) replayed' := by
  have hwrites (diskId : Bytes) (fileMeta : ArchiveFileMeta)
      (hwritten : written store call = some (diskId, fileMeta)) :
      format.Writes fileMeta (id fileMeta) := writes_written h.follows.sound hcarried hwritten
  have hsame : ∃ replayed', Exact format id store replayed' := ⟨replayed, h⟩
  have hkey (inodeId : UInt64) : (entryOf store inodeId).inodeId = inodeId :=
    (entryOf_sound h.follows.sound inodeId).1
  cases call with
  | track inodeId diskId fileSize objectCount isWrite nowMs version order =>
      rw [serve, trackFileAccess]
      split
      · exact hsame
      · rename_i hinode
        have hrow := hwrites diskId _ (if_neg hinode)
        rw [evictForNew_of_le h.length_le]
        exact h.putEvicting hrow (hroom hinode)
  | upsert inodeId diskId fileSize objectCount version resetToPending order =>
      rw [serve, upsertFile]
      split
      · exact hsame
      · rename_i hinode
        have hrow := hwrites diskId _ (if_neg hinode)
        have hfile : HasRoom store (format.key (upserted (entryOf store inodeId) diskId fileSize
            objectCount version resetToPending)) := by
          show HasRoom store (buildFileKey (entryOf store inodeId).inodeId)
          rw [hkey]
          exact hroom hinode
        rw [evictForNew_of_le h.length_le]
        exact h.put hrow hfile order
  | updateState inodeId diskId archiveState version order =>
      rw [serve, updateFileArchiveState]
      split
      · exact hsame
      · rename_i hinode
        have hwritten : written store (.updateState inodeId diskId archiveState version order) =
          some (diskId, stated store inodeId diskId archiveState version) := if_neg hinode
        have hrow := hwrites diskId _ hwritten
        have hdisk := (hcarried _ hwritten).1
        have hfile : HasRoom store
            (format.key (stated store inodeId diskId archiveState version)) := by
          show HasRoom store (buildFileKey (stated store inodeId diskId archiveState version).inodeId)
          rw [(stated_sound h.follows.sound inodeId hdisk archiveState version).1]
          exact hroom hinode
        exact h.put hrow hfile order
  | remove inodeId order =>
      rw [serve, removeFile]
      split
      · exact hsame
      · rename_i hfound
        rw [not_or] at hfound
        obtain ⟨hkey, hsize⟩ := removed_writes h.follows.sound hfound.2
        exact h.remove hkey hsize order
  | setMaxFiles maxFiles order => exact h.setMax order hroom

end Zb.DataNode.ArchiveFileMetaStore
