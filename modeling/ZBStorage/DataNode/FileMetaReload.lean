-- SUMMARY: The stored file metadata over runs: when a restart reads back what was in memory.
import ZBStorage.DataNode.FileMetaStore

/-!
# Reloading the file metadata

A node starts from whatever file it finds and serves changes, each of which writes the
table again. A transaction comes from the client, who may send any text that is not
empty. A tab ends the transaction early, a newline starts another row, and the virtual
node may then not read its table at all.
-/

namespace Zb.DataNode

open Bytes TextFields TableFill

deriving instance DecidableEq for FileMetaTable

/-! ## Deletions and migrations -/

structure DeleteFileMetaRequest where
  inodeId : UInt64
  purgeObjects : Bool := false
  diskId : Bytes := []

/-- What the environment contributes to a deletion: the objects that cannot be deleted,
    and the error of the store, if any. -/
structure DeleteEnv where
  purgeError : Option Status := none
  persistError : Option String := none

def Status.noDisk : Status :=
  { code := .invalidArgument, message := "disk_id is empty when purge_objects=true" }

def Status.noFileMeta : Status := { code := .notFound, message := "file meta not found" }

/-- What the environment contributes to an installed migration: how the node is set up,
    the disk and the objects on it, and the errors of the two stores, if any. -/
structure InstallEnv where
  configured : Bool := true
  admissionNodeId : Bytes
  mounted : Bool := true
  geometry : Bool := true
  persistError : Option String := none
  archived : Bool := true

def objectCountOf (fileMeta : FileMeta) : UInt64 :=
  fileMeta.fileSize / fileMeta.objectUnitSize +
    (if fileMeta.fileSize % fileMeta.objectUnitSize ≠ 0 then 1 else 0)

/-- The characters that a migration id must not hold. -/
def breaksRow (ch : UInt8) : Bool := ch = tab || ch = 13 || ch = newline

namespace StorageServiceImpl

/-- When the table cannot be written, the file is put back. -/
def deleteFileMeta (service : StorageServiceImpl) (request : DeleteFileMetaRequest)
    (env : DeleteEnv) : Status × StorageServiceImpl :=
  if request.inodeId = 0 then (.noInode, service)
  else if request.purgeObjects ∧ request.diskId = [] then (.noDisk, service)
  else
    match service.table.fileMetaByInode.lookup request.inodeId with
    | none => (.noFileMeta, service)
    | some _ =>
        match if request.purgeObjects then env.purgeError else none with
        | some status => (status, service)
        | none =>
            match env.persistError with
            | some error => (persistStatus error, service)
            | none =>
                ({}, { service with table :=
                  { service.table with
                    fileMetaByInode := service.table.fileMetaByInode.erase request.inodeId
                    lastCommitTxidByInode :=
                      service.table.lastCommitTxidByInode.erase request.inodeId } })

/-- A file that is there already must be the same; else it is put in place with the
    migration as its transaction. -/
def installMigratedFile (service : StorageServiceImpl) (nodeId migrationId diskId : Bytes)
    (fileMeta : FileMeta) (env : InstallEnv) : Status × StorageServiceImpl :=
  let archive (installed : StorageServiceImpl) : Status × StorageServiceImpl :=
    if env.archived then ({}, installed)
    else (⟨.ioError, "cannot persist migrated archive metadata"⟩, installed)
  if service.writeAdmissionClosed then (⟨.ioError, "NODE_DRAINING"⟩, service)
  else if env.configured = false ∨ nodeId = [] ∨ nodeId ≠ env.admissionNodeId ∨
      migrationId = [] ∨ 256 < migrationId.length ∨ migrationId.any breaksRow ∨ diskId = [] ∨
        fileMeta.inodeId = 0 ∨ fileMeta.version = 0 ∨ fileMeta.objectUnitSize = 0 then
    (⟨.invalidArgument, "invalid migrated file identity or metadata"⟩, service)
  else if env.mounted = false then (⟨.notFound, "migration disk not found"⟩, service)
  else if objectCountOf fileMeta > 2 ^ 32 - 1 then
    (⟨.invalidArgument, "too many migrated objects"⟩, service)
  else if env.geometry = false then (⟨.ioError, "migrated object geometry mismatch"⟩, service)
  else
    match service.table.fileMetaByInode.lookup fileMeta.inodeId with
    | some old =>
        if old.version ≠ fileMeta.version ∨ old.fileSize ≠ fileMeta.fileSize ∨
            old.objectUnitSize ≠ fileMeta.objectUnitSize ∨ old.mtimeSec ≠ fileMeta.mtimeSec then
          (⟨.ioError, "migration target already has conflicting file metadata"⟩, service)
        else archive service
    | none =>
        match env.persistError with
        | some error => (⟨.ioError, error⟩, service)
        | none =>
            archive { service with table :=
              { service.table with
                fileMetaByInode := service.table.fileMetaByInode.insert fileMeta.inodeId fileMeta
                lastCommitTxidByInode := service.table.lastCommitTxidByInode.insert
                  fileMeta.inodeId (ofAscii "migration:" ++ migrationId) } }

end StorageServiceImpl

/-! ## Runs -/

section Runs

variable {σ κ : Type}

/-- A run of calls that all succeed. -/
def runOk (serve : σ → κ → Status × σ) : σ → List κ → Option σ
  | s, [] => some s
  | s, call :: calls =>
      if (serve s call).1.code = .ok then runOk serve (serve s call).2 calls else none

/-- What every call that succeeds preserves holds at the end of the run. -/
theorem runOk_invariant {serve : σ → κ → Status × σ} {I : σ → Prop} {ok : κ → Prop}
    (hstep : ∀ s call, I s → ok call → (serve s call).1.code = .ok → I (serve s call).2)
    {s t : σ} {calls : List κ} (hs : I s) (hok : ∀ call ∈ calls, ok call)
    (h : runOk serve s calls = some t) : I t := by
  induction calls generalizing s with
  | nil =>
      cases h
      exact hs
  | cons call calls ih =>
      rw [runOk] at h
      split at h
      · rename_i hcode
        have hnext := hstep s call hs (hok call List.mem_cons_self) hcode
        exact ih hnext (fun other hmem => hok other (List.mem_cons_of_mem _ hmem)) h
      · cases h

end Runs

/-- A real node and its `file_meta.tsv`. -/
structure RealFiles where
  service : StorageServiceImpl
  stored : Option Bytes

namespace RealFiles

inductive Call
  | commit (request : CommitFileWriteRequest) (env : CommitEnv) (order : FileOrder)
  | delete (request : DeleteFileMetaRequest) (env : DeleteEnv) (order : FileOrder)
  | install (nodeId migrationId diskId : Bytes) (fileMeta : FileMeta) (env : InstallEnv)
      (order : FileOrder)

def files (node : RealFiles) : StoredFiles := node.service.table.files ∅

/-- The table as it is read when the node starts. -/
def start (service : StorageServiceImpl) (stored : Option Bytes) : RealFiles :=
  let loaded := StorageServiceImpl.loadFileMetaStore stored
  { service :=
      { service with table :=
          { fileMetaByInode := loaded.fileMetaByInode
            lastCommitTxidByInode := loaded.lastCommitTxidByInode } }
    stored := stored }

/-- Every change of the table writes it. -/
def write (node : RealFiles) (order : FileOrder) (service : StorageServiceImpl) : RealFiles :=
  { service := service
    stored :=
      if service.table = node.service.table then node.stored
      else some (StorageServiceImpl.persistFileMetaStore service.table order) }

def serve (node : RealFiles) : Call → Status × RealFiles
  | .commit request env order =>
      let committed := node.service.commitFileWrite request env
      (committed.1.status, node.write order committed.2)
  | .delete request env order =>
      let deleted := node.service.deleteFileMeta request env
      (deleted.1, node.write order deleted.2)
  | .install nodeId migrationId diskId fileMeta env order =>
      let installed := node.service.installMigratedFile nodeId migrationId diskId fileMeta env
      (installed.1, node.write order installed.2)

/-- A restart reads what the node has in memory. -/
def Reloads (node : RealFiles) : Prop :=
  (StorageServiceImpl.loadFileMetaStore node.stored).Same node.files

end RealFiles

/-- A virtual node without a store of its own, and its `file_meta.tsv`. -/
structure VirtualFiles where
  service : VirtualStorageServiceImpl
  preloaded : AList (fun _ : UInt64 => PreloadedFileObjectInfo)
  stored : Option Bytes

namespace VirtualStorageServiceImpl

def deleteFileMeta (service : VirtualStorageServiceImpl)
    (preloaded : AList fun _ : UInt64 => PreloadedFileObjectInfo)
    (request : DeleteFileMetaRequest) (env : DeleteEnv) :
    Status × VirtualStorageServiceImpl × AList (fun _ : UInt64 => PreloadedFileObjectInfo) :=
  if request.inodeId = 0 then (.noInode, service, preloaded)
  else if request.purgeObjects ∧ request.diskId = [] then (.noDisk, service, preloaded)
  else
    match service.table.fileMetaByInode.lookup request.inodeId with
    | none => (.noFileMeta, service, preloaded)
    | some _ =>
        match env.persistError with
        | some error => (persistStatus error, service, preloaded)
        | none =>
            ({}, { service with table :=
                { fileMetaByInode := service.table.fileMetaByInode.erase request.inodeId
                  lastCommitTxidByInode :=
                    service.table.lastCommitTxidByInode.erase request.inodeId
                  lastCommitSignatureByInode :=
                    service.table.lastCommitSignatureByInode.erase request.inodeId } },
              preloaded.erase request.inodeId)

end VirtualStorageServiceImpl

namespace VirtualFiles

inductive Call
  | commit (request : CommitFileWriteRequest) (env : CommitEnv) (order : FileOrder)
  | delete (request : DeleteFileMetaRequest) (env : DeleteEnv) (order : FileOrder)

def files (node : VirtualFiles) : StoredFiles := node.service.table.files node.preloaded

/-- The table as it is read when the node starts, if it can be read. -/
def start (path : String) (stored : Option Bytes) : Except String VirtualFiles := do
  let loaded ← VirtualStorageServiceImpl.loadFileMetaStore path stored
  pure
    { service :=
        { table :=
            { fileMetaByInode := loaded.fileMetaByInode
              lastCommitTxidByInode := loaded.lastCommitTxidByInode } }
      preloaded := loaded.preloadedFileObjects
      stored := stored }

def write (node : VirtualFiles) (order : FileOrder) (service : VirtualStorageServiceImpl)
    (preloaded : AList fun _ : UInt64 => PreloadedFileObjectInfo) : VirtualFiles :=
  { service := service
    preloaded := preloaded
    stored :=
      if service.table = node.service.table ∧ preloaded = node.preloaded then node.stored
      else
        some (VirtualStorageServiceImpl.persistFileMetaStore service.table preloaded order) }

def serve (node : VirtualFiles) : Call → Status × VirtualFiles
  | .commit request env order =>
      let committed := node.service.commitFileWrite request env
      (committed.1.status, node.write order committed.2 node.preloaded)
  | .delete request env order =>
      let deleted := node.service.deleteFileMeta node.preloaded request env
      (deleted.1, node.write order deleted.2.1 deleted.2.2)

def Reloads (path : String) (node : VirtualFiles) : Prop :=
  ∃ loaded, VirtualStorageServiceImpl.loadFileMetaStore path node.stored = .ok loaded ∧
    loaded.Same node.files

end VirtualFiles

/-! ## One change -/

section Change

variable {table : FileMetaTable} {preloaded : AList fun _ : UInt64 => PreloadedFileObjectInfo}
  {signed : Bool} {request : ApplyFileMetaRequest} {txid signature : Bytes} {env : CommitEnv}
  {commit : CommitFileWriteRequest} {inode : UInt64} {order : FileOrder}

/-- What a commit that succeeds puts in place, if it puts anything. -/
structure PutInPlace (table : FileMetaTable) (inode : UInt64) (next : FileMeta) : Prop where
  inode_ne : inode ≠ 0
  unit_ne : next.objectUnitSize ≠ 0
  identity : next.inodeId = inode ∨
    ∃ old, table.fileMetaByInode.lookup inode = some old ∧ next.inodeId = old.inodeId

theorem FileMetaTable.applyFileMeta_ok
    (h : (table.applyFileMeta signed request txid signature env).1.status.code = .ok) :
    (table.applyFileMeta signed request txid signature env).2 = table ∨
      ∃ next, PutInPlace table request.fileMeta.inodeId next ∧
        (table.applyFileMeta signed request txid signature env).2 =
          table.put signed request.fileMeta.inodeId txid signature next := by
  revert h
  unfold FileMetaTable.applyFileMeta
  dsimp only
  split
  · exact nofun
  · rename_i hinode
    split
    · exact nofun
    · rename_i hunit
      split
      · -- the transaction committed last
        split
        · exact nofun
        · exact fun _ => .inl rfl
      · split
        · split
          · exact nofun
          · split
            · exact nofun
            · split
              · exact fun _ => .inr ⟨createdMeta request env.nowMs, ⟨hinode, hunit, .inl rfl⟩, rfl⟩
              · exact nofun
        · rename_i old hold
          split
          · exact nofun
          · split
            · exact fun _ => .inr
                ⟨nextMeta old request env.nowMs, ⟨hinode, hunit, .inr ⟨old, hold, rfl⟩⟩, rfl⟩
            · exact nofun

theorem FileMetaTable.commitFileWrite_ok
    (h : (table.commitFileWrite signed commit env).1.status.code = .ok) :
    (table.commitFileWrite signed commit env).2 = table ∨
      ∃ next, PutInPlace table commit.inodeId next ∧
        (table.commitFileWrite signed commit env).2 =
          table.put signed commit.inodeId commit.txid (commitSignature commit) next := by
  revert h
  unfold FileMetaTable.commitFileWrite
  dsimp only
  split
  · exact nofun
  · exact FileMetaTable.applyFileMeta_ok

/-- What a call that succeeds does to the files: nothing, or the metadata of one file is
    put in place together with the transaction that was sent, or a file is taken away. -/
inductive Changes (files : StoredFiles) (sent : Bytes) : StoredFiles → Prop
  | same : Changes files sent files
  | put (row : FileRow) (good : row.Good) (unit_ne : row.fileMeta.objectUnitSize ≠ 0)
      (txid : row.txid = some sent) : Changes files sent (files.add row)
  | erase (inode : UInt64) :
      Changes files sent
        { fileMetaByInode := files.fileMetaByInode.erase inode
          lastCommitTxidByInode := files.lastCommitTxidByInode.erase inode
          preloadedFileObjects := files.preloadedFileObjects.erase inode }

variable {files after : StoredFiles} {sent : Bytes}

theorem Changes.sound (h : Changes files sent after) (hsound : files.Sound) : after.Sound := by
  cases h with
  | same => exact hsound
  | put row hgood _ _ => exact hsound.add hgood
  | erase inode => exact hsound.erase inode

theorem Changes.sized (h : Changes files sent after) (hsized : files.Sized) : after.Sized := by
  cases h with
  | same => exact hsized
  | put row _ hunit _ => exact hsized.add hunit
  | erase inode =>
      exact fun other fileMeta hlookup =>
        hsized other fileMeta (StoredFiles.lookup_erase_eq_some hlookup).2

theorem Changes.plainTxids (h : Changes files sent after) (hplain : files.PlainTxids)
    (hsent : Plain sent) : after.PlainTxids := by
  cases h with
  | same => exact hplain
  | put row _ _ htxid =>
      refine hplain.add fun txid heq => ?_
      rwa [← Option.some.inj (htxid.symm.trans heq)]
  | erase inode =>
      exact fun other txid hlookup =>
        hplain other txid (StoredFiles.lookup_erase_eq_some hlookup).2

theorem FileMetaTable.files_put {next : FileMeta} (htxid : txid ≠ [])
    (hidentity : next.inodeId = inode) :
    (table.put signed inode txid signature next).files preloaded =
      (table.files preloaded).add { fileMeta := next, txid := some txid, preload := none } := by
  subst hidentity
  rw [FileMetaTable.put, if_neg htxid]
  rfl

theorem FileMetaTable.commit_changes (hsound : (table.files preloaded).Sound)
    (htxid : commit.txid ≠ [])
    (h : (table.commitFileWrite signed commit env).1.status.code = .ok) :
    Changes (table.files preloaded) commit.txid
      ((table.commitFileWrite signed commit env).2.files preloaded) := by
  rcases FileMetaTable.commitFileWrite_ok h with hsame | ⟨next, hput, hafter⟩
  · rw [hsame]
    exact .same
  · have hidentity : next.inodeId = commit.inodeId := by
      rcases hput.identity with heq | ⟨old, hold, heq⟩
      · exact heq
      · exact heq.trans (hsound.identity commit.inodeId old hold).1
    rw [hafter, FileMetaTable.files_put htxid hidentity]
    refine .put _ ⟨?_, fun txid heq => Option.some.inj heq ▸ htxid, nofun⟩ hput.unit_ne rfl
    exact hidentity.symm ▸ hput.inode_ne

namespace StorageServiceImpl

variable {service : StorageServiceImpl} {delete : DeleteFileMetaRequest} {deleteEnv : DeleteEnv}
  {nodeId migrationId diskId : Bytes} {fileMeta : FileMeta} {installEnv : InstallEnv}

theorem commit_changes (hsound : (service.table.files ∅).Sound)
    (h : (service.commitFileWrite commit env).1.status.code = .ok) :
    Changes (service.table.files ∅) commit.txid
      ((service.commitFileWrite commit env).2.table.files ∅) := by
  revert h
  unfold commitFileWrite
  split
  · exact nofun
  · split
    · exact nofun
    · split
      · exact nofun
      · rename_i htxid
        split
        · exact nofun
        · exact FileMetaTable.commit_changes hsound htxid

theorem delete_changes (h : (service.deleteFileMeta delete deleteEnv).1.code = .ok)
    (sent : Bytes) :
    Changes (service.table.files ∅) sent
      ((service.deleteFileMeta delete deleteEnv).2.table.files ∅) := by
  revert h
  unfold deleteFileMeta
  split
  · exact nofun
  · split
    · exact nofun
    · split
      · exact nofun
      · split
        · exact fun _ => .same
        · split
          · exact nofun
          · exact fun _ => .erase delete.inodeId

/-- The transaction of an installed migration never breaks a row. -/
theorem plain_migration (h : ¬ migrationId.any breaksRow) :
    Plain (ofAscii "migration:" ++ migrationId) := by
  have hstart : Plain (ofAscii "migration:") := by decide +kernel
  have hnone (ch : UInt8) (hbreaks : breaksRow ch = true) : ch ∉ migrationId := fun hmem =>
    h (List.any_eq_true.mpr ⟨ch, hmem, hbreaks⟩)
  refine ⟨fun hmem => ?_, fun hmem => ?_⟩
  · exact (List.mem_append.mp hmem).elim hstart.1 (hnone tab (by decide))
  · exact (List.mem_append.mp hmem).elim hstart.2 (hnone newline (by decide))

theorem install_changes
    (h : (service.installMigratedFile nodeId migrationId diskId fileMeta installEnv).1.code = .ok) :
    Plain (ofAscii "migration:" ++ migrationId) ∧
      Changes (service.table.files ∅) (ofAscii "migration:" ++ migrationId)
        ((service.installMigratedFile nodeId migrationId diskId fileMeta installEnv).2.table.files
          ∅) := by
  revert h
  unfold installMigratedFile
  dsimp only
  split
  · exact nofun
  · split
    · exact nofun
    · rename_i hchecks
      simp only [not_or] at hchecks
      obtain ⟨-, -, -, -, -, hplain, -, hinode, -, hunit⟩ := hchecks
      have hsent := plain_migration hplain
      split
      · exact nofun
      · split
        · exact nofun
        · split
          · exact nofun
          · split
            · split
              · exact nofun
              · split
                · exact fun _ => ⟨hsent, .same⟩
                · exact nofun
            · split
              · exact nofun
              · split
                · refine fun _ => ⟨hsent, .put ⟨fileMeta, some _, none⟩ ⟨hinode, ?_, nofun⟩ hunit rfl⟩
                  exact fun txid heq => Option.some.inj heq ▸ List.cons_ne_nil _ _
                · exact nofun

end StorageServiceImpl

namespace VirtualStorageServiceImpl

variable {service : VirtualStorageServiceImpl} {delete : DeleteFileMetaRequest}
  {deleteEnv : DeleteEnv}

theorem commit_changes (hsound : (service.table.files preloaded).Sound)
    (h : (service.commitFileWrite commit env).1.status.code = .ok) :
    Changes (service.table.files preloaded) commit.txid
      ((service.commitFileWrite commit env).2.table.files preloaded) := by
  revert h
  unfold commitFileWrite
  split
  · exact nofun
  · split
    · exact nofun
    · rename_i htxid
      split
      · exact nofun
      · split
        · exact nofun
        · exact FileMetaTable.commit_changes hsound htxid

theorem delete_changes (h : (service.deleteFileMeta preloaded delete deleteEnv).1.code = .ok)
    (sent : Bytes) :
    Changes (service.table.files preloaded) sent
      ((service.deleteFileMeta preloaded delete deleteEnv).2.1.table.files
        (service.deleteFileMeta preloaded delete deleteEnv).2.2) := by
  revert h
  unfold deleteFileMeta
  split
  · exact nofun
  · split
    · exact nofun
    · split
      · exact nofun
      · split
        · exact nofun
        · exact fun _ => .erase delete.inodeId

end VirtualStorageServiceImpl

end Change

/-! ## Any number of changes -/

namespace RealFiles

variable {node : RealFiles} {call : Call} {calls : List Call} {service : StorageServiceImpl}
  {stored : Option Bytes}

/-- The stored table was read or written by the node. -/
structure Kept (node : RealFiles) : Prop where
  sound : node.files.Sound
  stored : node.Reloads ∨
    ∃ order, node.stored = some (StorageServiceImpl.persistFileMetaStore node.service.table order)

/-- The transaction of the change. -/
def Call.txid : Call → Bytes
  | .commit request _ _ => request.txid
  | .delete _ _ _ => []
  | .install _ migrationId _ _ _ _ => ofAscii "migration:" ++ migrationId

/-- The only texts that a client chooses are those of its commits. -/
def Call.PlainTxid : Call → Prop
  | .commit request _ _ => Plain request.txid
  | _ => True

theorem serve_changes (hsound : node.files.Sound) (h : (node.serve call).1.code = .ok) :
    Changes node.files call.txid (node.serve call).2.files ∧
      (call.PlainTxid → Plain call.txid) := by
  cases call with
  | commit request env order => exact ⟨StorageServiceImpl.commit_changes hsound h, id⟩
  | delete request env order =>
      exact ⟨StorageServiceImpl.delete_changes h [], fun _ => ⟨List.not_mem_nil, List.not_mem_nil⟩⟩
  | install nodeId migrationId diskId fileMeta env order =>
      obtain ⟨hplain, hchanges⟩ := StorageServiceImpl.install_changes h
      exact ⟨hchanges, fun _ => hplain⟩

theorem Kept.write (h : node.Kept) (hsound : (service.table.files ∅).Sound) (order : FileOrder) :
    (node.write order service).Kept := by
  refine ⟨hsound, ?_⟩
  by_cases htable : service.table = node.service.table
  · have hstored : (node.write order service).stored = node.stored := if_pos htable
    rw [Reloads, hstored, files, RealFiles.write, htable]
    exact h.stored
  · exact .inr ⟨order, if_neg htable⟩

theorem Kept.serve (h : node.Kept) (hok : (node.serve call).1.code = .ok) :
    (node.serve call).2.Kept := by
  have hsound := (serve_changes h.sound hok).1.sound h.sound
  cases call with
  | commit request env order => exact h.write hsound order
  | delete request env order => exact h.write hsound order
  | install nodeId migrationId diskId fileMeta env order => exact h.write hsound order

theorem Kept.reloads_iff (h : node.Kept) : node.Reloads ↔ node.files.PlainTxids := by
  refine ⟨fun hreloads => ?_, fun hplain => ?_⟩
  · exact hreloads.symm_plainTxids (StorageServiceImpl.load_sound node.stored).2.1
  · rcases h.stored with hreloads | ⟨order, hstored⟩
    · exact hreloads
    · rw [Reloads, hstored]
      exact StorageServiceImpl.load_persist h.sound hplain

theorem start_kept (service : StorageServiceImpl) (stored : Option Bytes) :
    (start service stored).Kept ∧ (start service stored).files.PlainTxids := by
  obtain ⟨hsound, hplain, hnone⟩ := StorageServiceImpl.load_sound stored
  have hfiles : (start service stored).files = StorageServiceImpl.loadFileMetaStore stored := by
    rw [files, start, FileMetaTable.files]
    dsimp only
    rw [← hnone]
  refine ⟨⟨hfiles ▸ hsound, .inl ?_⟩, hfiles ▸ hplain⟩
  rw [Reloads, hfiles]
  exact .refl _

/-- After any changes the table reads back exactly when no transaction in it breaks a row. -/
theorem run_reloads (h : runOk serve (start service stored) calls = some node) :
    (node.Reloads ↔ node.files.PlainTxids) ∧
      ((∀ call ∈ calls, call.PlainTxid) → node.Reloads) := by
  obtain ⟨hkept, hplain⟩ := start_kept service stored
  have hrun := runOk_invariant
    (fun _ _ hnode (_ : True) hok => Kept.serve hnode hok) hkept (fun _ _ => trivial) h
  refine ⟨hrun.reloads_iff, fun hcalls => hrun.reloads_iff.mpr ?_⟩
  have hstep (node : RealFiles) (call : Call) (hnode : node.Kept ∧ node.files.PlainTxids)
      (hcall : call.PlainTxid) (hok : (node.serve call).1.code = .ok) :
      (node.serve call).2.Kept ∧ (node.serve call).2.files.PlainTxids := by
    obtain ⟨hchanges, hsent⟩ := serve_changes hnode.1.sound hok
    exact ⟨hnode.1.serve hok, hchanges.plainTxids hnode.2 (hsent hcall)⟩
  exact (runOk_invariant hstep ⟨hkept, hplain⟩ hcalls h).2

end RealFiles

namespace VirtualFiles

variable {node started : VirtualFiles} {call : Call} {calls : List Call}
  {service : VirtualStorageServiceImpl} {stored : Option Bytes} {path : String}
  {preloaded : AList fun _ : UInt64 => PreloadedFileObjectInfo}

structure Kept (path : String) (node : VirtualFiles) : Prop where
  sound : node.files.Sound
  sized : node.files.Sized
  stored : node.Reloads path ∨ ∃ order, node.stored = some
    (VirtualStorageServiceImpl.persistFileMetaStore node.service.table node.preloaded order)

def Call.txid : Call → Bytes
  | .commit request _ _ => request.txid
  | .delete _ _ _ => []

theorem serve_changes (hsound : node.files.Sound) (h : (node.serve call).1.code = .ok) :
    Changes node.files call.txid (node.serve call).2.files := by
  cases call with
  | commit request env order => exact VirtualStorageServiceImpl.commit_changes hsound h
  | delete request env order => exact VirtualStorageServiceImpl.delete_changes h []

theorem Kept.write (h : node.Kept path) (hsound : (service.table.files preloaded).Sound)
    (hsized : (service.table.files preloaded).Sized) (order : FileOrder) :
    (node.write order service preloaded).Kept path := by
  refine ⟨hsound, hsized, ?_⟩
  by_cases hsame : service.table = node.service.table ∧ preloaded = node.preloaded
  · have hstored : (node.write order service preloaded).stored = node.stored := if_pos hsame
    rw [Reloads, hstored, files, VirtualFiles.write, hsame.1, hsame.2]
    exact h.stored
  · exact .inr ⟨order, if_neg hsame⟩

theorem Kept.serve (h : node.Kept path) (hok : (node.serve call).1.code = .ok) :
    (node.serve call).2.Kept path := by
  have hchanges := serve_changes h.sound hok
  have hsound := hchanges.sound h.sound
  have hsized := hchanges.sized h.sized
  cases call with
  | commit request env order => exact h.write hsound hsized order
  | delete request env order => exact h.write hsound hsized order

theorem Kept.reloads_iff (h : node.Kept path) : node.Reloads path ↔ node.files.PlainTxids := by
  refine ⟨fun ⟨loaded, hload, hsame⟩ => ?_, fun hplain => ?_⟩
  · exact hsame.symm_plainTxids (VirtualStorageServiceImpl.load_sound hload).2.1
  · rcases h.stored with hreloads | ⟨order, hstored⟩
    · exact hreloads
    · rw [Reloads, hstored]
      exact VirtualStorageServiceImpl.load_persist h.sound h.sized hplain

theorem start_kept (h : start path stored = .ok started) :
    started.Kept path ∧ started.files.PlainTxids := by
  unfold start at h
  cases hload : VirtualStorageServiceImpl.loadFileMetaStore path stored with
  | error message =>
      rw [hload] at h
      cases h
  | ok loaded =>
      obtain ⟨hsound, hplain, hsized⟩ := VirtualStorageServiceImpl.load_sound hload
      rw [hload] at h
      cases h
      exact ⟨⟨hsound, hsized, .inl ⟨loaded, hload, .refl loaded⟩⟩, hplain⟩

theorem run_reloads (hstart : start path stored = .ok started)
    (h : runOk serve started calls = some node) :
    (node.Reloads path ↔ node.files.PlainTxids) ∧
      ((∀ call ∈ calls, Plain call.txid) → node.Reloads path) := by
  obtain ⟨hkept, hplain⟩ := start_kept hstart
  have hrun := runOk_invariant
    (fun _ _ hnode (_ : True) hok => Kept.serve hnode hok) hkept (fun _ _ => trivial) h
  refine ⟨hrun.reloads_iff, fun hcalls => hrun.reloads_iff.mpr ?_⟩
  have hstep (node : VirtualFiles) (call : Call)
      (hnode : node.Kept path ∧ node.files.PlainTxids) (hcall : Plain call.txid)
      (hok : (node.serve call).1.code = .ok) :
      (node.serve call).2.Kept path ∧ (node.serve call).2.files.PlainTxids :=
    ⟨hnode.1.serve hok, (serve_changes hnode.1.sound hok).plainTxids hnode.2 hcall⟩
  exact (runOk_invariant hstep ⟨hkept, hplain⟩ hcalls h).2

end VirtualFiles

/-- On both nodes. -/
theorem table_reloads_iff_plain (service : StorageServiceImpl) (path : String) :
    (∀ stored calls (node : RealFiles),
      runOk RealFiles.serve (.start service stored) calls = some node →
        (node.Reloads ↔ node.files.PlainTxids) ∧
          ((∀ call ∈ calls, call.PlainTxid) → node.Reloads)) ∧
    (∀ stored started calls (node : VirtualFiles),
      VirtualFiles.start path stored = .ok started →
        runOk VirtualFiles.serve started calls = some node →
          (node.Reloads path ↔ node.files.PlainTxids) ∧
            ((∀ call ∈ calls, Plain call.txid) → node.Reloads path)) :=
  ⟨fun _ _ _ h => RealFiles.run_reloads h,
    fun _ _ _ _ hstart h => VirtualFiles.run_reloads hstart h⟩

def asListed : FileOrder := .listed _

def commitOfText (inode : UInt64) (txid : String) : CommitFileWriteRequest :=
  { inodeId := inode, txid := ofAscii txid, fileSize := 9, objectUnitSize := 4,
    expectedVersion := 0, allowCreate := true, mtimeSec := 5 }

/-- The table of a node with one commit. -/
def realWith (txid : String) : RealFiles :=
  (RealFiles.serve (.start {} none) (.commit (commitOfText 1 txid) { nowMs := 6 } asListed)).2

def virtualWith (started : VirtualFiles) (txid : String) : VirtualFiles :=
  (started.serve (.commit (commitOfText 1 txid) { nowMs := 6 } asListed)).2

/-- A virtual node whose table lists a preloaded file. -/
def preloadedNode : VirtualFiles where
  service := { table := { fileMetaByInode := (∅ : AList _).insert 3 ⟨3, 8, 4, 1, 2, 2⟩ } }
  preloaded := (∅ : AList _).insert 3 ⟨ofAscii "disk-0", 12⟩
  stored := some (ofAscii "3\t8\t4\t1\t2\t2\t\tdisk-0\t12\n")

theorem table_reloads_iff_plain_of_commits :
    (realWith "tx-1-6-0-1").Reloads ∧
      (virtualWith preloadedNode "tx-1-6-0-9").Reloads "file_meta.tsv" :=
  ⟨((table_reloads_iff_plain {} "file_meta.tsv").1 none
      [.commit (commitOfText 1 "tx-1-6-0-1") { nowMs := 6 } asListed]
      (realWith "tx-1-6-0-1") (if_pos (by decide +kernel))).2
        (List.forall_mem_singleton.mpr (by decide : Plain _)),
    ((table_reloads_iff_plain {} "file_meta.tsv").2
      (some (ofAscii "3\t8\t4\t1\t2\t2\t\tdisk-0\t12\n")) preloadedNode
      [.commit (commitOfText 1 "tx-1-6-0-9") { nowMs := 6 } asListed]
      (virtualWith preloadedNode "tx-1-6-0-9") rfl (if_pos (by decide +kernel))).2
        (List.forall_mem_singleton.mpr (by decide))⟩

/-- A newline in the transaction of a file invents a file on the real node, and leaves the
    virtual node without its table. -/
theorem committed_newline_breaks_table :
    ¬ (∀ service stored calls (node : RealFiles),
      runOk RealFiles.serve (.start service stored) calls = some node → node.Reloads) ∧
    ¬ (∀ path stored started calls (node : VirtualFiles),
      VirtualFiles.start path stored = .ok started →
        runOk VirtualFiles.serve started calls = some node → node.Reloads path) := by
  refine ⟨fun h => ?_, fun h => ?_⟩
  · have hreloads := h {} none
      [.commit (commitOfText 1 "t\n7\t0\t1\t1\t1\t1") { nowMs := 6 } asListed]
      (realWith "t\n7\t0\t1\t1\t1\t1") (if_pos (by decide +kernel))
    exact absurd (hreloads.metas 7) (by decide +kernel)
  · obtain ⟨loaded, hload, -⟩ := h "file_meta.tsv" none
      { service := {}, preloaded := ∅, stored := none }
      [.commit (commitOfText 1 "t\nu") { nowMs := 6 } asListed]
      (virtualWith { service := {}, preloaded := ∅, stored := none } "t\nu") rfl
      (if_pos (by decide +kernel))
    have herror : VirtualStorageServiceImpl.loadFileMetaStore "file_meta.tsv"
        (virtualWith { service := {}, preloaded := ∅, stored := none } "t\nu").stored =
          .error "invalid file meta row 2 in file_meta.tsv" := by rfl
    cases herror.symm.trans hload

end Zb.DataNode
