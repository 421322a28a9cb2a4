-- SUMMARY: What each namespace operation does when it runs alone, and that a failure changes nothing.
import ZBStorage.Lib.LabelledGraph
import ZBStorage.Mds.Storage.RocksNamespaceStore

/-!
# Sequential specifications of the namespace operations

The directory entries of a store form a labelled graph `dentryOf` over inode
ids. An operation that answers OK has found its paths in that graph and applied
one write batch; any other answer leaves the store as it was, whichever store
call failed.
-/

namespace Zb.Mds

open Zb.Rpc Bytes Handler LabelledGraph

/-- The inode a directory entry points to. -/
def dentryOf (db : MetaMap) (parent : UInt64) (name : Bytes) : Option UInt64 :=
  (db.lookup (.dentry parent name)).bind decodeUInt64

/-- The record of an inode. -/
def recordOf (db : MetaMap) (id : UInt64) : Option UnifiedInodeRecord :=
  (db.lookup (.inode id)).bind fun data => (decodeUnifiedInodeRecord data).toOption

/-- The directory of a path: all its components but the last. -/
def parentParts (path : Bytes) : List Bytes := (splitPath path).dropLast

def IsDir (record : UnifiedInodeRecord) : Prop := record.inodeType = 1

instance (record : UnifiedInodeRecord) : Decidable (IsDir record) :=
  inferInstanceAs (Decidable (record.inodeType = 1))

theorem recordOf_eq_some {db : MetaMap} {id : UInt64} {record : UnifiedInodeRecord} :
    recordOf db id = some record ↔
      ∃ data, db.lookup (.inode id) = some data ∧ decodeUnifiedInodeRecord data = .ok record := by
  simp only [recordOf, Option.bind_eq_some_iff]
  constructor
  · rintro ⟨data, hdata, hrec⟩
    cases hdec : decodeUnifiedInodeRecord data with
    | error e => simp [hdec, Except.toOption] at hrec
    | ok r =>
        simp only [hdec, Except.toOption, Option.some.injEq] at hrec
        exact ⟨data, hdata, hrec ▸ hdec⟩
  · rintro ⟨data, hdata, hrec⟩
    exact ⟨data, hdata, by simp [hrec, Except.toOption]⟩

@[simp] theorem recordOf_insert_inode {db : MetaMap} {id x : UInt64} {payload : Bytes} :
    recordOf (db.insert (.inode id) payload) x =
      if x = id then (decodeUnifiedInodeRecord payload).toOption else recordOf db x := by
  simp [recordOf]
  split <;> simp

/-- A payload that does not decode is reported with a message. -/
theorem decodeUnifiedInodeAttr_error {data : Bytes} {e : String}
    (h : decodeUnifiedInodeAttr data = .error e) : e ≠ "" := by
  rintro rfl
  have hrec : decodeUnifiedInodeRecord data = .error "" := by
    cases hdec : decodeUnifiedInodeRecord data with
    | error e => simpa [decodeUnifiedInodeAttr, hdec, Except.map] using h
    | ok record => simp [decodeUnifiedInodeAttr, hdec, Except.map] at h
  unfold decodeUnifiedInodeRecord decodeV3UnifiedInodeRecord at hrec
  split_ifs at hrec <;> simp at hrec

variable {ι : Type} {i : ι} {s s' : MdsState ι}

/-! ## Reads -/

/-- A store read either found the value, found nothing, or failed. -/
theorem read_cases {k : MetaKey} {r : Except String k.Value}
    (h : r = s.db.read k ∨ IoError r) :
    (∃ v, r = .ok v ∧ s.db.lookup k = some v) ∨ (r = .error "" ∧ s.db.lookup k = none) ∨
      ∃ e, e ≠ "" ∧ r = .error e := by
  rcases h with rfl | ⟨e, he, rfl⟩
  · cases hlook : s.db.lookup k with
    | some v => exact .inl ⟨v, MetaMap.read_eq_ok.mpr hlook, rfl⟩
    | none => exact .inr (.inl ⟨MetaMap.read_eq_error.mpr ⟨hlook, rfl⟩, rfl⟩)
  · exact .inr (.inr ⟨e, he, rfl⟩)

theorem runs_getDentry {parent : UInt64} {name : Bytes} {r : Except String UInt64}
    (h : (getDentry parent name).Runs i s r s') :
    s' = s ∧ (∀ id, r = .ok id → dentryOf s.db parent name = some id) ∧
      (r = .error "" → s.db.lookup (.dentry parent name) = none) := by
  unfold getDentry at h
  split at h
  · obtain ⟨rfl, rfl⟩ := Prog.runs_ret.mp h
    exact ⟨rfl, by simp, by simp⟩
  obtain ⟨data, hread, h⟩ := runs_get.mp h
  rcases read_cases hread with ⟨v, rfl, hlook⟩ | ⟨rfl, hlook⟩ | ⟨e, he, rfl⟩
  · cases hdec : decodeUInt64 v with
    | none =>
        simp only [hdec] at h
        obtain ⟨rfl, rfl⟩ := Prog.runs_ret.mp h
        exact ⟨rfl, by simp, by simp⟩
    | some id =>
        simp only [hdec] at h
        obtain ⟨rfl, rfl⟩ := Prog.runs_ret.mp h
        refine ⟨rfl, ?_, by simp⟩
        rintro id' hid
        cases hid
        rw [dentryOf, hlook, Option.bind_some, hdec]
  · obtain ⟨rfl, rfl⟩ := Prog.runs_ret.mp h
    exact ⟨rfl, by simp, fun _ => hlook⟩
  · obtain ⟨rfl, rfl⟩ := Prog.runs_ret.mp h
    exact ⟨rfl, by simp, fun hempty => absurd (Except.error.inj hempty) he⟩

theorem runs_getInode {id : UInt64} {r : Except String InodeAttr}
    (h : (getInode id).Runs i s r s') :
    s' = s ∧ ∀ attr, r = .ok attr →
      ∃ record, recordOf s.db id = some record ∧ attr = unifiedInodeRecordToAttr record := by
  unfold getInode at h
  split at h
  · obtain ⟨rfl, rfl⟩ := Prog.runs_ret.mp h
    exact ⟨rfl, by simp⟩
  obtain ⟨data, hread, h⟩ := runs_get.mp h
  rcases read_cases hread with ⟨v, rfl, hlook⟩ | ⟨rfl, -⟩ | ⟨e, -, rfl⟩
  · obtain ⟨rfl, rfl⟩ := Prog.runs_ret.mp h
    refine ⟨rfl, fun attr hattr => ?_⟩
    unfold decodeUnifiedInodeAttr at hattr
    cases hdec : decodeUnifiedInodeRecord v with
    | error e => simp [hdec, Except.map] at hattr
    | ok record =>
        simp only [hdec, Except.map, Except.ok.injEq] at hattr
        exact ⟨record, recordOf_eq_some.mpr ⟨v, hlook, hdec⟩, hattr.symm⟩
  · obtain ⟨rfl, rfl⟩ := Prog.runs_ret.mp h
    exact ⟨rfl, by simp⟩
  · obtain ⟨rfl, rfl⟩ := Prog.runs_ret.mp h
    exact ⟨rfl, by simp⟩

theorem runs_walkDentries {current : UInt64} {parts : List Bytes} {r : Except String UInt64}
    (h : (walkDentries current parts).Runs i s r s') :
    s' = s ∧ ∀ id, r = .ok id → walk (dentryOf s.db) current parts = some id := by
  induction parts generalizing current with
  | nil =>
      obtain ⟨rfl, rfl⟩ := Prog.runs_ret.mp h
      exact ⟨rfl, fun id hid => by cases hid; rfl⟩
  | cons part parts ih =>
      obtain ⟨data, hread, h⟩ := runs_get.mp h
      rcases read_cases hread with ⟨v, rfl, hlook⟩ | ⟨rfl, -⟩ | ⟨e, -, rfl⟩
      · cases hdec : decodeUInt64 v with
        | none =>
            simp only [hdec] at h
            obtain ⟨rfl, rfl⟩ := Prog.runs_ret.mp h
            exact ⟨rfl, by simp⟩
        | some next =>
            simp only [hdec] at h
            obtain ⟨hs, hwalk⟩ := ih h
            refine ⟨hs, fun id hid => ?_⟩
            have hedge : dentryOf s.db current part = some next := by
              rw [dentryOf, hlook, Option.bind_some, hdec]
            rw [walk_cons, hedge]
            exact hwalk id hid
      · obtain ⟨rfl, rfl⟩ := Prog.runs_ret.mp h
        exact ⟨rfl, by simp⟩
      · obtain ⟨rfl, rfl⟩ := Prog.runs_ret.mp h
        exact ⟨rfl, by simp⟩

/-- The path resolves to `name` in the directory `parent`. -/
structure ResolvesTo (db : MetaMap) (path : Bytes) (parent : UInt64) (name : Bytes) : Prop where
  parts : splitPath path = parentParts path ++ [name]
  parent : walk (dentryOf db) kRootInodeId (parentParts path) = some parent

theorem runs_resolveParent {path : Bytes} {r : Except String (UInt64 × Bytes)}
    (h : (resolveParent path).Runs i s r s') :
    s' = s ∧ ∀ parent name, r = .ok (parent, name) → ResolvesTo s.db path parent name := by
  unfold resolveParent at h
  cases hlast : (splitPath path).getLast? with
  | none =>
      simp only [hlast] at h
      obtain ⟨rfl, rfl⟩ := Prog.runs_ret.mp h
      exact ⟨rfl, by simp⟩
  | some last =>
      simp only [hlast] at h
      obtain ⟨r₁, s₁, hwalk, h⟩ := Prog.runs_bind.mp h
      obtain ⟨rfl, hwalk⟩ := runs_walkDentries hwalk
      cases r₁ with
      | error e =>
          obtain ⟨rfl, rfl⟩ := Prog.runs_ret.mp h
          exact ⟨rfl, by simp⟩
      | ok parent =>
          obtain ⟨rfl, rfl⟩ := Prog.runs_ret.mp h
          refine ⟨rfl, ?_⟩
          rintro parent' name' hres
          cases hres
          refine ⟨?_, hwalk parent rfl⟩
          obtain ⟨ys, hys⟩ := List.getLast?_eq_some_iff.mp hlast
          rw [parentParts, hys, List.dropLast_concat]

/-! ## Inodes and ids -/

theorem runs_putInode {id : UInt64} {attr : InodeAttr} {r : Except String Unit}
    (h : (putInode id attr).Runs i s r s') :
    ((∃ e, r = .error e) ∧ s' = s) ∨
      (r = .ok () ∧ ∃ payload, putInodePayload attr (s.db.read (.inode id)) = .ok payload ∧
        s' = { s with db := s.db.insert (.inode id) payload }) := by
  obtain ⟨existing, hread, h⟩ := runs_get.mp h
  cases hpay : putInodePayload attr existing with
  | error e =>
      simp only [hpay] at h
      obtain ⟨rfl, rfl⟩ := Prog.runs_ret.mp h
      exact .inl ⟨⟨e, rfl⟩, rfl⟩
  | ok payload =>
      simp only [hpay] at h
      rcases hread with rfl | ⟨e, he, rfl⟩
      · rcases runs_put.mp h with ⟨rfl, rfl⟩ | ⟨⟨e, -, rfl⟩, rfl⟩
        · exact .inr ⟨rfl, payload, hpay, rfl⟩
        · exact .inl ⟨⟨e, rfl⟩, rfl⟩
      · -- a failed read is reported and not taken for an absent inode
        rw [putInodePayload, if_pos he] at hpay
        cases hpay

/-- The payload written over an existing inode. -/
theorem putInodePayload_existing {attr : InodeAttr} {data payload : Bytes}
    (h : putInodePayload attr (.ok data) = .ok payload) :
    ∃ record, decodeUnifiedInodeRecord data = .ok record ∧
      decodeUnifiedInodeRecord payload = .ok (storedForm (updatedRecord attr record)) := by
  cases hdec : decodeUnifiedInodeRecord data with
  | error e => simp [putInodePayload, hdec, bind, Except.bind] at h
  | ok record =>
      simp only [putInodePayload, hdec, bind, Except.bind] at h
      exact ⟨record, rfl, decode_encode h⟩

theorem normalizeDirectorySize_file (size : UInt64) :
    normalizeDirectorySize InodeType.file.toUInt32.toUInt8 size = size :=
  if_neg fun h => absurd h.1 (by decide)

/-- The attributes of the payload `PutInode` writes. -/
theorem putInodePayload_ok {attr : InodeAttr} {existing : Except String Bytes} {payload : Bytes}
    (h : putInodePayload attr existing = .ok payload) :
    ∃ record, decodeUnifiedInodeRecord payload = .ok record ∧ record.versionNo = attr.version ∧
      record.fileArchiveState = attr.fileArchiveState.toUInt32 ∧
      (attr.type = .file → record.sizeBytes = attr.size) := by
  cases existing with
  | ok data =>
      obtain ⟨record, -, hdec⟩ := putInodePayload_existing h
      refine ⟨_, hdec, rfl, rfl, fun hfile => ?_⟩
      show normalizeDirectorySize attr.type.toUInt32.toUInt8 attr.size = attr.size
      rw [hfile, normalizeDirectorySize_file]
  | error e =>
      by_cases he : e = ""
      · rw [putInodePayload, if_neg (not_not.mpr he)] at h
        cases hrec : attrToUnifiedInodeRecord attr 0 UnifiedStorageTier.kNone with
        | error e => simp [hrec, bind, Except.bind] at h
        | ok record =>
            simp only [hrec, bind, Except.bind] at h
            obtain ⟨-, -, htype, hversion, hstate, hsize, -⟩ := attrToUnifiedInodeRecord_ok hrec
            refine ⟨_, decode_encode h, hversion, hstate, fun hfile => ?_⟩
            show normalizeDirectorySize record.inodeType record.sizeBytes = attr.size
            rw [hsize, htype, hfile, normalizeDirectorySize_file, normalizeDirectorySize_file]
      · rw [putInodePayload, if_pos he] at h
        cases h

theorem runs_allocateInodeId {type : InodeType} {r : Except String UInt64}
    (h : (allocateInodeId type).Runs i s r s') :
    ((∃ e, r = .error e) ∧ s' = s) ∨
      ∃ next, r = .ok next ∧ nextInodeId (s.db.read .nextInode) = .ok next ∧
        s' = { s with db := s.db.insert .nextInode (encodeUInt64 (next + 1)) } := by
  unfold allocateInodeId at h
  split at h
  · obtain ⟨rfl, rfl⟩ := Prog.runs_ret.mp h
    exact .inl ⟨⟨_, rfl⟩, rfl⟩
  obtain ⟨hfree, s₁, hbody, -, rfl⟩ := runs_withLock h
  have hunlock : Function.update s.owner .inodeId none = s.owner := by
    rw [← hfree, Function.update_eq_self]
  obtain ⟨value, hread, hbody⟩ := runs_get.mp hbody
  cases hnext : nextInodeId value with
  | error e =>
      simp only [hnext] at hbody
      obtain ⟨rfl, rfl⟩ := Prog.runs_ret.mp hbody
      exact .inl ⟨⟨e, rfl⟩, by simp [hunlock]⟩
  | ok next =>
      simp only [hnext] at hbody
      rcases hread with rfl | ⟨e, he, rfl⟩
      · obtain ⟨r₁, s₂, hput, hbody⟩ := Prog.runs_bind.mp hbody
        rcases runs_put.mp hput with ⟨rfl, rfl⟩ | ⟨⟨e, -, rfl⟩, rfl⟩
        · obtain ⟨rfl, rfl⟩ := Prog.runs_ret.mp hbody
          exact .inr ⟨next, rfl, hnext, by simp [hunlock]⟩
        · obtain ⟨rfl, rfl⟩ := Prog.runs_ret.mp hbody
          exact .inl ⟨⟨e, rfl⟩, by simp [hunlock]⟩
      · rw [nextInodeId, if_neg he] at hnext
        cases hnext

/-! ## Changes of the tree -/

/-- An answer other than OK comes with no effect, an OK with that of `effect`. -/
def Outcome (status : NamespaceStatus) (s s' : MdsState ι) (effect : WriteBatch → Prop) : Prop :=
  (status.isOk = false ∧ s' = s) ∨
    (status.isOk = true ∧ ∃ batch, effect batch ∧ s' = { s with db := s.db.write batch })

theorem Outcome.failed {status : NamespaceStatus} {effect : WriteBatch → Prop}
    (h : status.isOk = false) : Outcome status s s effect := .inl ⟨h, rfl⟩

theorem runs_finish {batch : WriteBatch} {status : NamespaceStatus} {effect : WriteBatch → Prop}
    (heffect : effect batch) (h : (do return finish (← writeBatch batch)).Runs i s status s') :
    Outcome status s s' effect := by
  obtain ⟨r, s₁, hbatch, h⟩ := Prog.runs_bind.mp h
  obtain ⟨rfl, rfl⟩ := Prog.runs_ret.mp h
  rcases runs_writeBatch.mp hbatch with ⟨rfl, rfl⟩ | ⟨⟨e, -, rfl⟩, rfl⟩
  · exact .inr ⟨rfl, batch, heffect, rfl⟩
  · exact .failed rfl

/-- What an OK of `create` found, and its batch. -/
def CreateEffect (db : MetaMap) (path : Bytes) (attr : InodeAttr) (batch : WriteBatch) : Prop :=
  ∃ parent name payload, ResolvesTo db path parent name ∧
    db.lookup (.dentry parent name) = none ∧
    (∃ record, recordOf db parent = some record ∧ IsDir record) ∧
    kRootInodeId < attr.inodeId ∧
    createPayload attr parent name = .ok payload ∧
    batch = createBatch parent name attr.inodeId payload

theorem isDir_of_type_eq_dir {record : UnifiedInodeRecord}
    (h : (unifiedInodeRecordToAttr record).type = .dir) : IsDir record := by
  have hcast : record.inodeType.toUInt32 = 1 := by
    simp only [unifiedInodeRecordToAttr, InodeType.ofUInt32] at h
    split at h
    · cases h
    · split at h
      · assumption
      · split at h <;> cases h
  exact UInt8.toNat_inj.mp (by simpa using congrArg UInt32.toNat hcast)

theorem type_eq_dir_of_isDir {record : UnifiedInodeRecord} (h : IsDir record) :
    (unifiedInodeRecordToAttr record).type = .dir := by
  rw [IsDir] at h
  simp only [unifiedInodeRecordToAttr, h]
  decide

theorem runs_create {path : Bytes} {attr : InodeAttr} {status : NamespaceStatus}
    (h : (create path attr).Runs i s status s') :
    Outcome status s s' (CreateEffect s.db path attr) := by
  obtain ⟨r₁, s₁, hres, h⟩ := Prog.runs_bind.mp h
  obtain ⟨rfl, hres⟩ := runs_resolveParent hres
  cases r₁ with
  | error e =>
      obtain ⟨rfl, rfl⟩ := Prog.runs_ret.mp h
      exact .failed (readFailure_isOk _ _)
  | ok parentName =>
  obtain ⟨parent, name⟩ := parentName
  obtain ⟨r₂, s₂, hdentry, h⟩ := Prog.runs_bind.mp h
  obtain ⟨rfl, -, habsent⟩ := runs_getDentry hdentry
  cases r₂ with
  | ok existing =>
      obtain ⟨rfl, rfl⟩ := Prog.runs_ret.mp h
      exact .failed rfl
  | error e =>
  by_cases he : e = ""
  · subst he
    simp only [ne_eq, not_true_eq_false, if_false] at h
    obtain ⟨r₃, s₃, hparent, h⟩ := Prog.runs_bind.mp h
    obtain ⟨rfl, hparent⟩ := runs_getInode hparent
    cases r₃ with
    | error e =>
        obtain ⟨rfl, rfl⟩ := Prog.runs_ret.mp h
        exact .failed (readFailure_isOk _ _)
    | ok parentAttr =>
    obtain ⟨record, hrecord, rfl⟩ := hparent parentAttr rfl
    simp only at h
    split at h
    · obtain ⟨rfl, rfl⟩ := Prog.runs_ret.mp h
      exact .failed rfl
    · next hdir =>
        split at h
        · obtain ⟨rfl, rfl⟩ := Prog.runs_ret.mp h
          exact .failed rfl
        · next hid =>
            cases hpay : createPayload attr parent name with
            | error e =>
                simp only [hpay] at h
                obtain ⟨rfl, rfl⟩ := Prog.runs_ret.mp h
                exact .failed rfl
            | ok payload =>
                simp only [hpay] at h
                exact runs_finish ⟨parent, name, payload, hres parent name rfl, habsent rfl,
                  ⟨record, hrecord, isDir_of_type_eq_dir (not_not.mp hdir)⟩,
                  UInt64.not_le.mp hid, hpay, rfl⟩ h
  · simp only [ne_eq, he, not_false_eq_true, if_true] at h
    obtain ⟨rfl, rfl⟩ := Prog.runs_ret.mp h
    exact .failed rfl

/-- What an OK of `rename` found, and its batch. -/
def RenameEffect (db : MetaMap) (oldPath newPath : Bytes) (batch : WriteBatch) : Prop :=
  ∃ oldParent oldName newParent newName inode data payload,
    ResolvesTo db oldPath oldParent oldName ∧ ResolvesTo db newPath newParent newName ∧
    dentryOf db oldParent oldName = some inode ∧
    db.lookup (.dentry newParent newName) = none ∧
    db.lookup (.inode inode) = some data ∧
    renamePayload data newParent newName = .ok payload ∧
    batch = renameBatch oldParent oldName newParent newName inode payload

theorem runs_rename {oldPath newPath : Bytes} {status : NamespaceStatus}
    (h : (rename oldPath newPath).Runs i s status s') :
    Outcome status s s' (RenameEffect s.db oldPath newPath) := by
  obtain ⟨r₁, s₁, hold, h⟩ := Prog.runs_bind.mp h
  obtain ⟨rfl, hold⟩ := runs_resolveParent hold
  cases r₁ with
  | error e =>
      obtain ⟨rfl, rfl⟩ := Prog.runs_ret.mp h
      exact .failed (readFailure_isOk _ _)
  | ok old =>
  obtain ⟨oldParent, oldName⟩ := old
  obtain ⟨r₂, s₂, hnew, h⟩ := Prog.runs_bind.mp h
  obtain ⟨rfl, hnew⟩ := runs_resolveParent hnew
  cases r₂ with
  | error e =>
      obtain ⟨rfl, rfl⟩ := Prog.runs_ret.mp h
      exact .failed (readFailure_isOk _ _)
  | ok new =>
  obtain ⟨newParent, newName⟩ := new
  obtain ⟨r₃, s₃, hsource, h⟩ := Prog.runs_bind.mp h
  obtain ⟨rfl, hsource, -⟩ := runs_getDentry hsource
  cases r₃ with
  | error e =>
      obtain ⟨rfl, rfl⟩ := Prog.runs_ret.mp h
      exact .failed (readFailure_isOk _ _)
  | ok inode =>
  obtain ⟨r₄, s₄, htarget, h⟩ := Prog.runs_bind.mp h
  obtain ⟨rfl, -, habsent⟩ := runs_getDentry htarget
  cases r₄ with
  | ok target =>
      obtain ⟨rfl, rfl⟩ := Prog.runs_ret.mp h
      exact .failed rfl
  | error e =>
  by_cases he : e = ""
  · subst he
    simp only [ne_eq, not_true_eq_false, if_false] at h
    obtain ⟨r₅, hread, h⟩ := runs_get.mp h
    rcases read_cases hread with ⟨data, rfl, hlook⟩ | ⟨rfl, -⟩ | ⟨e, -, rfl⟩
    · cases hpay : renamePayload data newParent newName with
      | error e =>
          simp only [hpay] at h
          obtain ⟨rfl, rfl⟩ := Prog.runs_ret.mp h
          exact .failed rfl
      | ok payload =>
          simp only [hpay] at h
          exact runs_finish ⟨oldParent, oldName, newParent, newName, inode, data, payload,
            hold oldParent oldName rfl, hnew newParent newName rfl, hsource inode rfl,
            habsent rfl, hlook, hpay, rfl⟩ h
    · obtain ⟨rfl, rfl⟩ := Prog.runs_ret.mp h
      exact .failed (readFailure_isOk _ _)
    · obtain ⟨rfl, rfl⟩ := Prog.runs_ret.mp h
      exact .failed (readFailure_isOk _ _)
  · simp only [ne_eq, he, not_false_eq_true, if_true] at h
    obtain ⟨rfl, rfl⟩ := Prog.runs_ret.mp h
    exact .failed rfl

/-- What an OK of `remove` found, and its batch. A directory had no entry left. -/
def RemoveEffect (db : MetaMap) (path : Bytes) (batch : WriteBatch) : Prop :=
  ∃ parent name inode record, ResolvesTo db path parent name ∧
    dentryOf db parent name = some inode ∧ recordOf db inode = some record ∧
    (IsDir record → ∀ name, db.lookup (.dentry inode name) = none) ∧
    batch = removeBatch parent name inode

theorem runs_checkEmpty {expectedType : InodeType} {inode : UInt64} {r : Option NamespaceStatus}
    (h : (checkEmpty expectedType inode).Runs i s r s') :
    s' = s ∧ (∀ status, r = some status → status.isOk = false) ∧
      (r = none → expectedType = .dir → ∀ name, s.db.lookup (.dentry inode name) = none) := by
  unfold checkEmpty at h
  split at h
  · obtain ⟨entries, hread, h⟩ := runs_iterate.mp h
    rcases hread with rfl | ⟨e, -, rfl⟩
    · obtain ⟨rfl, rfl⟩ := Prog.runs_ret.mp h
      split
      · next hnil => exact ⟨rfl, by simp, fun _ _ => MetaMap.dentries_eq_nil.mp hnil⟩
      · exact ⟨rfl, by rintro status ⟨⟩; rfl, by simp⟩
    · obtain ⟨rfl, rfl⟩ := Prog.runs_ret.mp h
      exact ⟨rfl, by rintro status ⟨⟩; rfl, by simp⟩
  · next hfile =>
      obtain ⟨rfl, rfl⟩ := Prog.runs_ret.mp h
      exact ⟨rfl, by simp, fun _ hdir => absurd hdir hfile⟩

theorem runs_remove {path : Bytes} {expectedType : InodeType} {status : NamespaceStatus}
    (h : (remove path expectedType).Runs i s status s') :
    Outcome status s s' (RemoveEffect s.db path) := by
  unfold remove at h
  split at h
  · obtain ⟨rfl, rfl⟩ := Prog.runs_ret.mp h
    exact .failed rfl
  obtain ⟨r₁, s₁, hres, h⟩ := Prog.runs_bind.mp h
  obtain ⟨rfl, hres⟩ := runs_resolveParent hres
  cases r₁ with
  | error e =>
      obtain ⟨rfl, rfl⟩ := Prog.runs_ret.mp h
      exact .failed (readFailure_isOk _ _)
  | ok parentName =>
  obtain ⟨parent, name⟩ := parentName
  obtain ⟨r₂, s₂, hdentry, h⟩ := Prog.runs_bind.mp h
  obtain ⟨rfl, hdentry, -⟩ := runs_getDentry hdentry
  cases r₂ with
  | error e =>
      obtain ⟨rfl, rfl⟩ := Prog.runs_ret.mp h
      exact .failed (readFailure_isOk _ _)
  | ok inode =>
  obtain ⟨r₃, s₃, hinode, h⟩ := Prog.runs_bind.mp h
  obtain ⟨rfl, hinode⟩ := runs_getInode hinode
  cases r₃ with
  | error e =>
      obtain ⟨rfl, rfl⟩ := Prog.runs_ret.mp h
      exact .failed (readFailure_isOk _ _)
  | ok attr =>
  obtain ⟨record, hrecord, rfl⟩ := hinode attr rfl
  simp only at h
  split at h
  · obtain ⟨rfl, rfl⟩ := Prog.runs_ret.mp h
    exact .failed rfl
  · next htype =>
      obtain ⟨r₄, s₄, hempty, h⟩ := Prog.runs_bind.mp h
      obtain ⟨rfl, hstatus, hempty⟩ := runs_checkEmpty hempty
      cases r₄ with
      | some status' =>
          obtain ⟨rfl, rfl⟩ := Prog.runs_ret.mp h
          exact .failed (hstatus _ rfl)
      | none =>
          refine runs_finish ⟨parent, name, inode, record, hres parent name rfl,
            hdentry inode rfl, hrecord, fun hdir => hempty rfl ?_, rfl⟩ h
          rw [← not_not.mp htype]
          exact type_eq_dir_of_isDir hdir

end Zb.Mds
