-- SUMMARY: The archive metadata of objects: the format of an entry, and what each call leaves in table and log.
import ZBStorage.DataNode.ArchiveMetaCapacity
import ZBStorage.Lib.CallHistory

/-!
# Archive metadata of objects

For every object the store keeps its size, its checksum, how often and when it was
accessed, how hot that makes it, and how far its archiving is. The disk, the object and
the archive state are texts of the requests. The heat is a floating-point number that is
written with few digits, so it is read back rounded.
-/

namespace Zb.DataNode.ArchiveObjectMetaStore

open Bytes TextFields TableFill MetaStore CallHistory

/-- The heat of an object: what an access makes of it, how a stream writes it, and how it
    is read back. -/
structure HeatScores (H : Type) where
  zero : H
  accessed : Bool → H → H
  text : H → Bytes
  stod : Bytes → Option H
  rounded : H → H
  stod_text : ∀ heat, stod (text heat) = some (rounded heat)
  plain_text : ∀ heat, Plain (text heat)

structure ArchiveObjectMeta (H : Type) where
  diskId : Bytes
  objectId : Bytes
  sizeBytes : UInt64 := 0
  checksum : UInt64 := 0
  lastAccessTsMs : UInt64 := 0
  heatScore : H
  archiveState : Bytes := ofAscii "pending"
  version : UInt64 := 0
  readOps : UInt64 := 0
  writeOps : UInt64 := 0
  deriving DecidableEq

section Lines

variable {H : Type} (heat : HeatScores H)

/-! ## Lines -/

def buildObjectKey (diskId objectId : Bytes) : Bytes := diskId ++ ofAscii "|" ++ objectId

def serializeMetaLine (objectMeta : ArchiveObjectMeta H) : Bytes :=
  [objectMeta.diskId, objectMeta.objectId, decimal objectMeta.sizeBytes.toNat,
    decimal objectMeta.checksum.toNat, decimal objectMeta.lastAccessTsMs.toNat,
    heat.text objectMeta.heatScore, objectMeta.archiveState, decimal objectMeta.version.toNat,
    decimal objectMeta.readOps.toNat].flatMap (· ++ [tab]) ++ decimal objectMeta.writeOps.toNat

def parseMetaLine (line : Bytes) : Option (ArchiveObjectMeta H) :=
  match getLines tab [] line with
  | [diskId, objectId, size, checksum, access, heatText, archiveState, version, reads, writes] => do
      let sizeBytes ← stoull size
      let checksum ← stoull checksum
      let lastAccessTsMs ← stoull access
      let heatScore ← heat.stod heatText
      let version ← stoull version
      let readOps ← stoull reads
      let writeOps ← stoull writes
      if diskId = [] ∨ objectId = [] then none
      else
        some
          { diskId, objectId, sizeBytes, checksum, lastAccessTsMs, heatScore, archiveState, version,
            readOps, writeOps }
  | _ => none

def deletionBody (diskId objectId : Bytes) : Bytes := diskId ++ [tab] ++ objectId

def parseDeletion (body : Bytes) : Option Bytes :=
  match getLines tab [] body with
  | [diskId, objectId] =>
      if diskId = [] ∨ objectId = [] then none else some (buildObjectKey diskId objectId)
  | _ => none

def format : MetaFormat (ArchiveObjectMeta H) where
  noun := "archive"
  kArchiveWalMagic := ofAscii "AMW1"
  length_magic := by decide +kernel
  key objectMeta := buildObjectKey objectMeta.diskId objectMeta.objectId
  lastAccess := ArchiveObjectMeta.lastAccessTsMs
  serializeMetaLine := serializeMetaLine heat
  parseMetaLine := parseMetaLine heat
  parse_nil := rfl
  deletion objectMeta := deletionBody objectMeta.diskId objectMeta.objectId
  parseDeletion := parseDeletion

/-- What is read back of an entry. -/
def rounded (objectMeta : ArchiveObjectMeta H) : ArchiveObjectMeta H :=
  { objectMeta with heatScore := heat.rounded objectMeta.heatScore }

/-! ## Calls -/

variable (store : MetaStore (ArchiveObjectMeta H)) (order : MetaOrder (ArchiveObjectMeta H))

/-- The entry of the object, or a new one. -/
def entryOf (diskId objectId : Bytes) : ArchiveObjectMeta H :=
  (store.metas.lookup (buildObjectKey diskId objectId)).getD
    { diskId := diskId, objectId := objectId, heatScore := heat.zero }

/-- The table is cut to its capacity before it takes a new object. -/
def evictForNew (diskId objectId : Bytes) : MetaStore (ArchiveObjectMeta H) :=
  if (store.metas.lookup (buildObjectKey diskId objectId)).isSome then store
  else evictIfNeeded (format heat) order store true

def accessed (objectMeta : ArchiveObjectMeta H) (endOffset : UInt64) (isWrite : Bool)
    (checksum nowMs : UInt64) : ArchiveObjectMeta H :=
  { objectMeta with
    lastAccessTsMs := nowMs
    sizeBytes := max objectMeta.sizeBytes endOffset
    checksum := if checksum ≠ 0 then checksum else objectMeta.checksum
    heatScore := heat.accessed isWrite objectMeta.heatScore
    writeOps := if isWrite then objectMeta.writeOps + 1 else objectMeta.writeOps
    readOps := if isWrite then objectMeta.readOps else objectMeta.readOps + 1
    archiveState :=
      if isWrite ∧ objectMeta.archiveState = ofAscii "archived" then ofAscii "pending"
      else objectMeta.archiveState
    version := objectMeta.version + 1 }

def trackObjectAccess (diskId objectId : Bytes) (endOffset : UInt64) (isWrite : Bool)
    (checksum nowMs : UInt64) : MetaStore (ArchiveObjectMeta H) :=
  if diskId = [] ∨ objectId = [] then store
  else
    (putEvicting (format heat) order (evictForNew heat store order diskId objectId)
      (accessed heat (entryOf heat store diskId objectId) endOffset isWrite checksum nowMs)).2

def removeObject (diskId objectId : Bytes) : MetaStore (ArchiveObjectMeta H) :=
  if (diskId = [] ∨ objectId = []) ∨ store.metas.lookup (buildObjectKey diskId objectId) = none then
    store
  else
    remove (format heat) order store (buildObjectKey diskId objectId)
      (deletionBody diskId objectId)

/-- The entry with another state; the version is that of the request, or the next one. -/
def stated (diskId objectId archiveState : Bytes) (version : UInt64) : ArchiveObjectMeta H :=
  let objectMeta := entryOf heat store diskId objectId
  { objectMeta with
    archiveState := archiveState
    version :=
      if version > 0 then version
      else if (store.metas.lookup (buildObjectKey diskId objectId)).isSome then
        objectMeta.version + 1
      else 1 }

def updateObjectArchiveState (diskId objectId archiveState : Bytes) (version : UInt64) :
    Bool × MetaStore (ArchiveObjectMeta H) :=
  if diskId = [] ∨ objectId = [] ∨ archiveState = [] then (false, store)
  else put (format heat) order store (stated heat store diskId objectId archiveState version)

def setMaxObjects (maxObjects : Nat) : MetaStore (ArchiveObjectMeta H) :=
  setMax (format heat) order store maxObjects

/-- A call with the order in which the table is gone through. -/
inductive Call (H : Type)
  | track (diskId objectId : Bytes) (endOffset : UInt64) (isWrite : Bool) (checksum nowMs : UInt64)
      (order : MetaOrder (ArchiveObjectMeta H))
  | remove (diskId objectId : Bytes) (order : MetaOrder (ArchiveObjectMeta H))
  | updateState (diskId objectId archiveState : Bytes) (version : UInt64)
      (order : MetaOrder (ArchiveObjectMeta H))
  | setMaxObjects (maxObjects : Nat) (order : MetaOrder (ArchiveObjectMeta H))

def serve : Call H → MetaStore (ArchiveObjectMeta H)
  | .track diskId objectId endOffset isWrite checksum nowMs order =>
      trackObjectAccess heat store order diskId objectId endOffset isWrite checksum nowMs
  | .remove diskId objectId order => removeObject heat store order diskId objectId
  | .updateState diskId objectId archiveState version order =>
      (updateObjectArchiveState heat store order diskId objectId archiveState version).2
  | .setMaxObjects maxObjects order =>
      ArchiveObjectMetaStore.setMaxObjects heat store order maxObjects

def Serving (store : MetaStore (ArchiveObjectMeta H)) (call : Call H)
    (store' : MetaStore (ArchiveObjectMeta H)) : Prop := store' = serve heat store call

/-- The entry that a call puts in place, and the texts that it brings. -/
def written : Call H → Option (List Bytes × ArchiveObjectMeta H)
  | .track diskId objectId endOffset isWrite checksum nowMs _ =>
      if diskId = [] ∨ objectId = [] then none
      else
        some ([diskId, objectId],
          accessed heat (entryOf heat store diskId objectId) endOffset isWrite checksum nowMs)
  | .remove _ _ _ => none
  | .updateState diskId objectId archiveState version _ =>
      if diskId = [] ∨ objectId = [] ∨ archiveState = [] then none
      else
        some ([diskId, objectId, archiveState],
          stated heat store diskId objectId archiveState version)
  | .setMaxObjects _ _ => none

/-- The log can carry what the call writes: its texts have no tab and no newline, and the
    record is not too long. -/
def Carried (call : Call H) : Prop :=
  ∀ entry ∈ written heat store call,
    (∀ text ∈ entry.1, Plain text) ∧
      (updatePayload (serializeMetaLine heat entry.2)).length ≤ kMaxWalPayloadBytes

instance (call : Call H) : Decidable (Carried heat store call) :=
  inferInstanceAs (Decidable (∀ entry ∈ written heat store call, _))

/-- The table has room for what the call puts in place. -/
def Room : Call H → Prop
  | .track diskId objectId endOffset isWrite checksum nowMs order =>
      ¬(diskId = [] ∨ objectId = []) → MakesRoom (format heat) order store
        (accessed heat (entryOf heat store diskId objectId) endOffset isWrite checksum nowMs)
  | .remove _ _ _ => True
  | .updateState diskId objectId archiveState _ _ =>
      ¬(diskId = [] ∨ objectId = [] ∨ archiveState = []) →
        HasRoom store (buildObjectKey diskId objectId)
  | .setMaxObjects maxObjects _ => (lasting (format heat) store.metas).length ≤ max 1 maxObjects

instance : (call : Call H) → Decidable (Room heat store call)
  | .track .. => inferInstanceAs (Decidable (_ → MakesRoom _ _ _ _))
  | .remove .. => .isTrue trivial
  | .updateState .. => inferInstanceAs (Decidable (_ → HasRoom _ _))
  | .setMaxObjects .. => inferInstanceAs (Decidable (_ ≤ _))

end Lines

section Kept

variable {H : Type} {heat : HeatScores H} {store : MetaStore (ArchiveObjectMeta H)}
  {objectMeta : ArchiveObjectMeta H} {replayed : MetaTable (ArchiveObjectMeta H)} {call : Call H}
  {diskId objectId : Bytes} {order : MetaOrder (ArchiveObjectMeta H)}

/-! ## A line is read back -/

/-- An entry whose texts a line can carry. -/
structure Good (objectMeta : ArchiveObjectMeta H) : Prop where
  diskId_ne : objectMeta.diskId ≠ []
  objectId_ne : objectMeta.objectId ≠ []
  diskId : Plain objectMeta.diskId
  objectId : Plain objectMeta.objectId
  archiveState : Plain objectMeta.archiveState

theorem Good.fields (h : Good objectMeta) (heat : HeatScores H) :
    ∀ field ∈ [objectMeta.diskId, objectMeta.objectId, decimal objectMeta.sizeBytes.toNat,
      decimal objectMeta.checksum.toNat, decimal objectMeta.lastAccessTsMs.toNat,
      heat.text objectMeta.heatScore, objectMeta.archiveState, decimal objectMeta.version.toNat,
      decimal objectMeta.readOps.toNat], Plain field := by
  simp only [List.forall_mem_cons]
  exact ⟨h.diskId, h.objectId, plain_decimal _, plain_decimal _, plain_decimal _,
    heat.plain_text _, h.archiveState, plain_decimal _, plain_decimal _, nofun⟩

theorem Good.parse (h : Good objectMeta) (heat : HeatScores H) :
    parseMetaLine heat (serializeMetaLine heat objectMeta) = some (rounded heat objectMeta) := by
  rw [parseMetaLine, serializeMetaLine,
    getLines_fields (h.fields heat) (plain_decimal _) (decimal_ne_nil _)]
  dsimp only [List.cons_append, List.nil_append]
  simp only [stoull_decimal, heat.stod_text, Option.bind_eq_bind, Option.bind_some]
  rw [if_neg (not_or.mpr ⟨h.diskId_ne, h.objectId_ne⟩)]
  rfl

theorem parseDeletion_deletionBody (hdisk : diskId ≠ []) (hobject : objectId ≠ [])
    (hplainDisk : Plain diskId) (hplainObject : Plain objectId) :
    parseDeletion (deletionBody diskId objectId) = some (buildObjectKey diskId objectId) := by
  have hfields := @getLines_fields [diskId] objectId
    (List.forall_mem_singleton.mpr hplainDisk) hplainObject hobject
  rw [List.flatMap_singleton] at hfields
  rw [parseDeletion, deletionBody, hfields]
  exact if_neg (not_or.mpr ⟨hdisk, hobject⟩)

theorem Good.writes (h : Good objectMeta)
    (hsize : (updatePayload (serializeMetaLine heat objectMeta)).length ≤ kMaxWalPayloadBytes) :
    (format heat).Writes objectMeta (rounded heat objectMeta) where
  parse := h.parse heat
  key := rfl
  line := newline_notMem_fields (h.fields heat) (plain_decimal _)
  size := hsize
  deletion := parseDeletion_deletionBody h.diskId_ne h.objectId_ne h.diskId h.objectId
  deletion_size := by
    have hlength : (deletionBody objectMeta.diskId objectMeta.objectId).length ≤
        (serializeMetaLine heat objectMeta).length := by
      simp only [deletionBody, serializeMetaLine, List.flatMap_cons, List.length_append]
      omega
    exact Nat.le_trans (Nat.succ_le_succ (Nat.succ_le_succ hlength)) hsize

/-- And only such entries are read back. -/
theorem good_of_writes (h : (format heat).Writes objectMeta (rounded heat objectMeta)) :
    Good objectMeta := by
  have hline : newline ∉ serializeMetaLine heat objectMeta := h.line
  have hfield (field : Bytes)
      (hmem : field ∈ [objectMeta.diskId, objectMeta.objectId, objectMeta.archiveState]) :
      newline ∉ field := by
    intro hbyte
    refine hline (List.mem_append_left _ (List.mem_flatMap.mpr
      ⟨field, ?_, List.mem_append_left _ hbyte⟩))
    simp only [List.mem_cons, List.not_mem_nil, or_false] at hmem ⊢
    rcases hmem with rfl | rfl | rfl
    · exact .inl rfl
    · exact .inr (.inl rfl)
    · exact .inr (.inr (.inr (.inr (.inr (.inr (.inl rfl))))))
  have hparse : parseMetaLine heat (serializeMetaLine heat objectMeta) =
      some (rounded heat objectMeta) := h.parse
  unfold parseMetaLine at hparse
  split at hparse
  · rename_i disk object size checksum access heatText state version reads writes hlines
    simp only [Option.bind_eq_bind, Option.bind_eq_some_iff] at hparse
    obtain ⟨_, -, _, -, _, -, _, -, _, -, _, -, _, -, hrow⟩ := hparse
    split at hrow
    · cases hrow
    · rename_i hempty
      rw [not_or] at hempty
      have hread := Option.some.inj hrow
      have hdisk : disk = objectMeta.diskId := congrArg ArchiveObjectMeta.diskId hread
      have hobject : object = objectMeta.objectId := congrArg ArchiveObjectMeta.objectId hread
      have hstate : state = objectMeta.archiveState :=
        congrArg ArchiveObjectMeta.archiveState hread
      have htab (field : Bytes) (hmem : field ∈ [disk, object, size, checksum, access, heatText,
          state, version, reads, writes]) : tab ∉ field :=
        notMem_of_mem_getLines List.not_mem_nil (hlines ▸ hmem)
      subst hdisk hobject hstate
      exact ⟨hempty.1, hempty.2, ⟨htab _ (by simp), hfield _ (by simp)⟩,
        ⟨htab _ (by simp), hfield _ (by simp)⟩, ⟨htab _ (by simp), hfield _ (by simp)⟩⟩
  · cases hparse

/-! ## One call -/

/-- The tables of the store, and what a start reads of them. -/
abbrev Known (heat : HeatScores H) (metas : MetaTable (ArchiveObjectMeta H)) : Prop :=
  Sound (format heat) (rounded heat) metas

theorem plain_pending : Plain (ofAscii "pending") := by decide +kernel

/-- What holds of every entry that a call can start from. -/
theorem entryOf_sound (h : Known heat store.metas) (hdisk : diskId ≠ []) (hobject : objectId ≠ [])
    (hplainDisk : Plain diskId) (hplainObject : Plain objectId) :
    Good (entryOf heat store diskId objectId) ∧
      buildObjectKey (entryOf heat store diskId objectId).diskId
        (entryOf heat store diskId objectId).objectId = buildObjectKey diskId objectId := by
  unfold entryOf
  cases hlookup : store.metas.lookup (buildObjectKey diskId objectId) with
  | none => exact ⟨⟨hdisk, hobject, hplainDisk, hplainObject, plain_pending⟩, rfl⟩
  | some objectMeta => exact ⟨good_of_writes (h _ _ hlookup).2, (h _ _ hlookup).1⟩

theorem Good.accessed (h : Good objectMeta) (endOffset : UInt64) (isWrite : Bool)
    (checksum nowMs : UInt64) : Good (accessed heat objectMeta endOffset isWrite checksum nowMs) := by
  refine ⟨h.diskId_ne, h.objectId_ne, h.diskId, h.objectId, ?_⟩
  unfold ArchiveObjectMetaStore.accessed
  dsimp only
  split
  · exact plain_pending
  · exact h.archiveState

/-- What a call puts in place can be written, and stands under the key of its object. -/
theorem writes_written (h : Known heat store.metas) (hcarried : Carried heat store call)
    {texts : List Bytes} (hwritten : written heat store call = some (texts, objectMeta)) :
    (format heat).Writes objectMeta (rounded heat objectMeta) := by
  obtain ⟨hplain, hsize⟩ := hcarried (texts, objectMeta) hwritten
  cases call with
  | track diskId objectId endOffset isWrite checksum nowMs order =>
      rw [written] at hwritten
      split at hwritten
      · cases hwritten
      · rename_i hempty
        cases hwritten
        rw [not_or] at hempty
        simp only [List.forall_mem_cons] at hplain
        have hentry := (entryOf_sound h hempty.1 hempty.2 hplain.1 hplain.2.1).1
        exact (hentry.accessed endOffset isWrite checksum nowMs).writes hsize
  | remove diskId objectId order => cases hwritten
  | updateState diskId objectId archiveState version order =>
      rw [written] at hwritten
      split at hwritten
      · cases hwritten
      · rename_i hempty
        cases hwritten
        rw [not_or, not_or] at hempty
        simp only [List.forall_mem_cons] at hplain
        have hentry := (entryOf_sound h hempty.1 hempty.2.1 hplain.1 hplain.2.1).1
        exact Good.writes ⟨hentry.diskId_ne, hentry.objectId_ne, hentry.diskId, hentry.objectId,
          hplain.2.2.1⟩ hsize
  | setMaxObjects maxObjects order => cases hwritten

theorem evictForNew_steps (h : Follows (format heat) (rounded heat) store replayed)
    (order : MetaOrder (ArchiveObjectMeta H)) (diskId objectId : Bytes) :
    Steps (format heat) (rounded heat) store replayed
      (evictForNew heat store order diskId objectId) True := by
  unfold evictForNew
  split
  · exact .same h True
  · exact h.evictIfNeeded order

/-- The record of a removed object deletes its entry, however the key is cut in two. -/
theorem removed_writes (h : Known heat store.metas) (hdisk : diskId ≠ []) (hobject : objectId ≠ [])
    (hlookup : store.metas.lookup (buildObjectKey diskId objectId) ≠ none) :
    parseDeletion (deletionBody diskId objectId) = some (buildObjectKey diskId objectId) ∧
      (deletePayload (deletionBody diskId objectId)).length ≤ kMaxWalPayloadBytes := by
  obtain ⟨objectMeta, hfound⟩ := Option.ne_none_iff_exists'.mp hlookup
  obtain ⟨hkey, hwrites⟩ := h _ _ hfound
  have hsame : buildObjectKey objectMeta.diskId objectMeta.objectId =
      buildObjectKey diskId objectId := hkey
  have hgood := good_of_writes hwrites
  have hplainKey : Plain (buildObjectKey diskId objectId) := by
    have hbar : Plain (ofAscii "|") := by decide +kernel
    rw [← hsame]
    refine ⟨fun hmem => ?_, fun hmem => ?_⟩
    · rcases List.mem_append.mp hmem with hmem | hmem
      · exact (List.mem_append.mp hmem).elim hgood.diskId.1 hbar.1
      · exact hgood.objectId.1 hmem
    · rcases List.mem_append.mp hmem with hmem | hmem
      · exact (List.mem_append.mp hmem).elim hgood.diskId.2 hbar.2
      · exact hgood.objectId.2 hmem
  have hplainDisk : Plain diskId :=
    ⟨fun hmem => hplainKey.1 (List.mem_append_left _ (List.mem_append_left _ hmem)),
      fun hmem => hplainKey.2 (List.mem_append_left _ (List.mem_append_left _ hmem))⟩
  have hplainObject : Plain objectId :=
    ⟨fun hmem => hplainKey.1 (List.mem_append_right _ hmem),
      fun hmem => hplainKey.2 (List.mem_append_right _ hmem)⟩
  refine ⟨parseDeletion_deletionBody hdisk hobject hplainDisk hplainObject, ?_⟩
  have hlength (diskId objectId : Bytes) :
      (deletePayload (deletionBody diskId objectId)).length =
        (buildObjectKey diskId objectId).length + 2 := by
    simp only [deletePayload, deletionBody, buildObjectKey, List.length_cons, List.length_append]
    rfl
  have hsize := hwrites.deletion_size
  rw [show (format heat).deletion objectMeta =
    deletionBody objectMeta.diskId objectMeta.objectId from rfl, hlength, hsame] at hsize
  rwa [hlength]

/-- Every call that the log can carry keeps the files up with the table. -/
theorem serve_follows (h : Follows (format heat) (rounded heat) store replayed)
    (hcarried : Carried heat store call) :
    ∃ replayed', Follows (format heat) (rounded heat) (serve heat store call) replayed' := by
  have hwrites (texts : List Bytes) (objectMeta : ArchiveObjectMeta H)
      (hwritten : written heat store call = some (texts, objectMeta)) :
      (format heat).Writes objectMeta (rounded heat objectMeta) :=
    writes_written h.sound hcarried hwritten
  have hsame : ∃ replayed', Follows (format heat) (rounded heat) store replayed' := ⟨replayed, h⟩
  cases call with
  | track diskId objectId endOffset isWrite checksum nowMs order =>
      rw [serve, trackObjectAccess]
      split
      · exact hsame
      · rename_i hempty
        have hrow := hwrites [diskId, objectId] _ (if_neg hempty)
        obtain ⟨next, hnext, -⟩ := evictForNew_steps h order diskId objectId
        obtain ⟨-, replayed', hfollows, -⟩ := hnext.putEvicting hrow order
        exact ⟨replayed', hfollows⟩
  | remove diskId objectId order =>
      rw [serve, removeObject]
      split
      · exact hsame
      · rename_i hfound
        rw [not_or, not_or] at hfound
        obtain ⟨hkey, hsize⟩ := removed_writes h.sound hfound.1.1 hfound.1.2 hfound.2
        obtain ⟨-, replayed', hfollows, -⟩ := h.remove hkey hsize order
        exact ⟨replayed', hfollows⟩
  | updateState diskId objectId archiveState version order =>
      rw [serve, updateObjectArchiveState]
      split
      · exact hsame
      · rename_i hempty
        have hrow := hwrites [diskId, objectId, archiveState] _ (if_neg hempty)
        obtain ⟨-, -, replayed', hfollows, -⟩ := h.put hrow order
        exact ⟨replayed', hfollows⟩
  | setMaxObjects maxObjects order =>
      have hmax : Follows (format heat) (rounded heat)
          { store with maxEntries := max 1 maxObjects } replayed := ⟨h.logged, h.sound, h.covers⟩
      obtain ⟨replayed', hfollows, -⟩ := hmax.evictIfNeeded order
      exact ⟨replayed', hfollows⟩

/-- And every call that finds room keeps them equal. -/
theorem serve_exact (h : Exact (format heat) (rounded heat) store replayed)
    (hcarried : Carried heat store call) (hroom : Room heat store call) :
    ∃ replayed', Exact (format heat) (rounded heat) (serve heat store call) replayed' := by
  have hwrites (texts : List Bytes) (objectMeta : ArchiveObjectMeta H)
      (hwritten : written heat store call = some (texts, objectMeta)) :
      (format heat).Writes objectMeta (rounded heat objectMeta) :=
    writes_written h.follows.sound hcarried hwritten
  have hsame : ∃ replayed', Exact (format heat) (rounded heat) store replayed' := ⟨replayed, h⟩
  cases call with
  | track diskId objectId endOffset isWrite checksum nowMs order =>
      rw [serve, trackObjectAccess]
      split
      · exact hsame
      · rename_i hempty
        have hrow := hwrites [diskId, objectId] _ (if_neg hempty)
        have hnew : evictForNew heat store order diskId objectId = store := by
          unfold evictForNew
          split
          · rfl
          · exact evictIfNeeded_of_le h.length_le
        rw [hnew]
        exact h.putEvicting hrow (hroom hempty)
  | remove diskId objectId order =>
      rw [serve, removeObject]
      split
      · exact hsame
      · rename_i hfound
        rw [not_or, not_or] at hfound
        obtain ⟨hkey, hsize⟩ := removed_writes h.follows.sound hfound.1.1 hfound.1.2 hfound.2
        exact h.remove hkey hsize order
  | updateState diskId objectId archiveState version order =>
      rw [serve, updateObjectArchiveState]
      split
      · exact hsame
      · rename_i hempty
        have hwritten : written heat store (.updateState diskId objectId archiveState version order) =
          some ([diskId, objectId, archiveState],
            stated heat store diskId objectId archiveState version) := if_neg hempty
        have hrow := hwrites _ _ hwritten
        have hplain := (hcarried _ hwritten).1
        simp only [List.forall_mem_cons] at hplain
        have hplace := hroom hempty
        rw [not_or, not_or] at hempty
        have hkey := (entryOf_sound h.follows.sound hempty.1 hempty.2.1 hplain.1 hplain.2.1).2
        rw [← hkey] at hplace
        exact h.put hrow hplace order
  | setMaxObjects maxObjects order => exact h.setMax order hroom

end Kept

end Zb.DataNode.ArchiveObjectMetaStore
