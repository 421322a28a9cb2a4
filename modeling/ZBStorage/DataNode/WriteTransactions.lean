-- SUMMARY: Write transactions of one file: at most one effect each and one for each version, in every interleaving.
import ZBStorage.DataNode.FileMetaTable
import ZBStorage.Lib.CallHistory

/-!
# Write transactions

Every commit belongs to an allocation and expects the version that the allocation
answered with. An effective commit raises the version by one, so that no other
transaction that was allocated against the same version can take effect after it.
-/

namespace Zb.DataNode

open Bytes CallHistory

/-! ## Nodes -/

inductive DiskNode
  | real (service : StorageServiceImpl)
  | virtual (service : VirtualStorageServiceImpl)

namespace DiskNode

def table : DiskNode → FileMetaTable
  | .real service => service.table
  | .virtual service => service.table

def allocateFileWrite (node : DiskNode) (request : AllocateFileWriteRequest) (nowMs : UInt64) :
    AllocateFileWriteReply × DiskNode :=
  match node with
  | .real service =>
      let allocated := service.allocateFileWrite request nowMs
      (allocated.1, .real allocated.2)
  | .virtual service =>
      let allocated := service.allocateFileWrite request nowMs
      (allocated.1, .virtual allocated.2)

def commitFileWrite (node : DiskNode) (request : CommitFileWriteRequest) (env : CommitEnv) :
    CommitFileWriteReply × DiskNode :=
  match node with
  | .real service =>
      let committed := service.commitFileWrite request env
      (committed.1, .real committed.2)
  | .virtual service =>
      let committed := service.commitFileWrite request env
      (committed.1, .virtual committed.2)

def entry (node : DiskNode) (inodeId : UInt64) : Option FileMeta :=
  node.table.fileMetaByInode.lookup inodeId

def lastTxid (node : DiskNode) (inodeId : UInt64) : Option Bytes :=
  node.table.lastCommitTxidByInode.lookup inodeId

/-- The version of the file; a file without an entry has the version zero. -/
def version (node : DiskNode) (inodeId : UInt64) : Nat :=
  ((node.entry inodeId).map fun fileMeta => fileMeta.version.toNat).getD 0

end DiskNode

/-- What tells the allocations of one file apart: the time, the offset, and on a real
    node the counter, on a virtual node the size. -/
structure Stamp where
  nowMs : UInt64
  offset : UInt64
  mark : UInt64
  deriving DecidableEq

def DiskNode.stamp (node : DiskNode) (request : AllocateFileWriteRequest) (nowMs : UInt64) :
    Stamp :=
  { nowMs := nowMs
    offset := request.offset
    mark :=
      match node with
      | .real service => service.nextTxid
      | .virtual _ => request.size }

def Stamp.txid (stamp : Stamp) (inodeId : UInt64) : Bytes :=
  ofAscii "tx-" ++ decimal inodeId.toNat ++ ofAscii "-" ++ decimal stamp.nowMs.toNat ++
    ofAscii "-" ++ decimal stamp.offset.toNat ++ ofAscii "-" ++ decimal stamp.mark.toNat

/-! ## Histories -/

/-- A node with the transactions that it has allocated, each with the version that it
    answered with, and their stamps. -/
structure WriteState where
  node : DiskNode
  allocated : List (Bytes × UInt64) := []
  stamps : List Stamp := []

inductive WriteCall
  | allocate (request : AllocateFileWriteRequest) (nowMs : UInt64)
  | commit (request : CommitFileWriteRequest) (env : CommitEnv)

def WriteState.allocate (state : WriteState) (request : AllocateFileWriteRequest)
    (nowMs : UInt64) : WriteState :=
  let answered := state.node.allocateFileWrite request nowMs
  if answered.1.status.code = .ok then
    { node := answered.2
      allocated := (answered.1.txid, answered.1.fileMeta.version) :: state.allocated
      stamps := state.node.stamp request nowMs :: state.stamps }
  else { state with node := answered.2 }

def WriteState.serve (state : WriteState) : WriteCall → WriteState
  | .allocate request nowMs => state.allocate request nowMs
  | .commit request env => { state with node := (state.node.commitFileWrite request env).2 }

/-- The calls are on one file, and a commit carries a transaction that was allocated,
    with the version of the allocation. -/
def Allocated (inodeId : UInt64) (state : WriteState) : WriteCall → Prop
  | .allocate request _ => request.inodeId = inodeId
  | .commit request _ =>
      request.inodeId = inodeId ∧ (request.txid, request.expectedVersion) ∈ state.allocated

abbrev WriteServed := Served WriteState WriteCall

def Serving (state : WriteState) (call : WriteCall) (state' : WriteState) : Prop :=
  state.serve call = state'

/-- The call allocates the transaction. -/
def Allocates (e : WriteServed) (txid : Bytes) : Prop :=
  ∃ request nowMs, e.call = .allocate request nowMs ∧
    (e.before.node.allocateFileWrite request nowMs).1.status.code = .ok ∧
      (e.before.node.allocateFileWrite request nowMs).1.txid = txid

def Effective (inodeId : UInt64) (e : WriteServed) : Prop :=
  e.after.node.entry inodeId ≠ e.before.node.entry inodeId

/-- The commit has applied the metadata of its reply, with its own size, as the next
    version. -/
def Applies (inodeId : UInt64) (e : WriteServed) (request : CommitFileWriteRequest)
    (reply : CommitFileWriteReply) : Prop :=
  Effective inodeId e ∧ e.after.node.entry inodeId = some reply.fileMeta ∧
    reply.fileMeta.fileSize = request.fileSize ∧
      reply.fileMeta.version.toNat = e.before.node.version inodeId + 1

/-- The commit has changed nothing and repeats what an earlier commit of its
    transaction has applied. -/
def Repeats (inodeId : UInt64) (hist : List WriteServed) (e : WriteServed)
    (request : CommitFileWriteRequest) (reply : CommitFileWriteReply) : Prop :=
  ¬ Effective inodeId e ∧ ∃ e' ∈ hist, ∃ request' env', e'.call = .commit request' env' ∧
    request'.txid = request.txid ∧
      Applies inodeId e' request' (e'.before.node.commitFileWrite request' env').1 ∧
        reply.fileMeta = (e'.before.node.commitFileWrite request' env').1.fileMeta

/-- Two commits do not both take effect. -/
def NotBoth (inodeId : UInt64) (e e' : WriteServed) : Prop :=
  ¬ (Effective inodeId e ∧ Effective inodeId e')

/-- Transactions are exactly-once and lose no update. -/
structure ExactlyOnce (inodeId : UInt64) (hist : List WriteServed) : Prop where
  txids : hist.Pairwise fun e e' => ∀ txid, Allocates e txid → ¬ Allocates e' txid
  once : hist.Pairwise fun e e' => ∀ request env request' env', e.call = .commit request env →
    e'.call = .commit request' env' → request.txid = request'.txid → NotBoth inodeId e e'
  oneOfVersion : hist.Pairwise fun e e' => ∀ request env request' env',
    e.call = .commit request env → e'.call = .commit request' env' →
      request.expectedVersion = request'.expectedVersion → NotBoth inodeId e e'
  answered : ∀ hist₁ e hist₂ request env, hist = hist₁ ++ e :: hist₂ →
    e.call = .commit request env →
      (e.before.node.commitFileWrite request env).1.status.code = .ok →
        Applies inodeId e request (e.before.node.commitFileWrite request env).1 ∨
          Repeats inodeId hist₁ e request (e.before.node.commitFileWrite request env).1
  versions : ∀ e ∈ hist, Effective inodeId e → (∃ request env, e.call = .commit request env) ∧
    e.after.node.version inodeId = e.before.node.version inodeId + 1

/-- No transaction is pending, and none but those with a stamp is remembered. -/
structure Started (inodeId : UInt64) (state : WriteState) : Prop where
  none_allocated : state.allocated = []
  remembered : ∀ stamp : Stamp, state.node.lastTxid inodeId = some (stamp.txid inodeId) →
    stamp ∈ state.stamps

/-- No two allocations have the same stamp. A commit that expects the version zero finds
    no entry, or the entry that it has made itself. The versions are not exhausted. -/
def Distinguished (inodeId : UInt64) (state : WriteState) : WriteCall → Prop
  | .allocate request nowMs => state.node.stamp request nowMs ∉ state.stamps
  | .commit request _ =>
      (request.expectedVersion = 0 →
        state.node.entry inodeId = none ∨ state.node.lastTxid inodeId = some request.txid) ∧
      state.node.version inodeId + 1 < 2 ^ 64

def Distinct (inodeId : UInt64) (state : WriteState) (call : WriteCall) : Prop :=
  Allocated inodeId state call ∧ Distinguished inodeId state call

/-! ## Transaction ids -/

theorem Stamp.txid_injective (inodeId : UInt64) {stamp stamp' : Stamp}
    (h : stamp.txid inodeId = stamp'.txid inodeId) : stamp = stamp' := by
  have hdash : isDigit 45 = false := by decide
  simp only [Stamp.txid, List.append_assoc] at h
  have htimes := List.append_cancel_left (List.append_cancel_left (List.append_cancel_left h))
  obtain ⟨hms, hoffsets⟩ := decimal_append_inj hdash htimes
  obtain ⟨hoffset, hmarks⟩ := decimal_append_inj hdash hoffsets
  cases stamp
  cases stamp'
  rw [Stamp.mk.injEq]
  exact ⟨UInt64.toNat_inj.mp hms, UInt64.toNat_inj.mp hoffset,
    UInt64.toNat_inj.mp (decimal_injective hmarks)⟩

variable {inodeId : UInt64} {node : DiskNode} {request : AllocateFileWriteRequest}
  {nowMs : UInt64}

/-- An allocation leaves the table alone, and answers with the version of the file. -/
theorem DiskNode.allocate_spec (node : DiskNode) (nowMs : UInt64)
    (hinode : request.inodeId = inodeId) :
    (node.allocateFileWrite request nowMs).2.table = node.table ∧
      ((node.allocateFileWrite request nowMs).1.status.code = .ok →
        (node.allocateFileWrite request nowMs).1.txid =
            (node.stamp request nowMs).txid inodeId ∧
          (node.allocateFileWrite request nowMs).1.fileMeta.version.toNat =
            node.version inodeId) := by
  have hplan : (node.table.planMeta request nowMs).version.toNat = node.version inodeId := by
    unfold FileMetaTable.planMeta DiskNode.version DiskNode.entry
    rw [hinode]
    cases node.table.fileMetaByInode.lookup inodeId with
    | none => rfl
    | some fileMeta => rfl
  subst hinode
  cases node with
  | real service =>
      simp only [allocateFileWrite, StorageServiceImpl.allocateFileWrite]
      split
      · exact ⟨rfl, fun h => by cases h⟩
      · split
        · exact ⟨rfl, fun h => by cases h⟩
        · split
          · exact ⟨rfl, fun h => by cases h⟩
          · exact ⟨rfl, fun _ => ⟨rfl, hplan⟩⟩
  | virtual service =>
      simp only [allocateFileWrite, VirtualStorageServiceImpl.allocateFileWrite]
      split
      · exact ⟨rfl, fun h => by cases h⟩
      · split
        · exact ⟨rfl, fun h => by cases h⟩
        · split
          · exact ⟨rfl, fun h => by cases h⟩
          · exact ⟨rfl, fun _ => ⟨rfl, hplan⟩⟩

/-! ## Commits -/

/-- The metadata that a commit puts in place: of a file that has no entry, or after the
    version that it expects, unless it expects none. -/
structure Puts (table : FileMetaTable) (inodeId : UInt64) (txid : Bytes)
    (fileSize expectedVersion : UInt64) (fileMeta : FileMeta) : Prop where
  txid_ne : txid ≠ []
  not_repeated : table.repeated inodeId txid = none
  size : fileMeta.fileSize = fileSize
  version : (table.fileMetaByInode.lookup inodeId = none ∧ expectedVersion = 0 ∧
      fileMeta.version = 1) ∨
    ∃ old, table.fileMetaByInode.lookup inodeId = some old ∧
      (expectedVersion = 0 ∨ expectedVersion = old.version) ∧ fileMeta.version = old.version + 1

/-- What a commit does to the entry of the file and to the transaction remembered for it. -/
def Commits (before after : FileMetaTable) (inodeId : UInt64) (txid : Bytes)
    (fileSize expectedVersion : UInt64) (ok : Prop) (fileMeta : FileMeta) : Prop :=
  (after.fileMetaByInode = before.fileMetaByInode ∧
    after.lastCommitTxidByInode = before.lastCommitTxidByInode ∧
      (ok → before.repeated inodeId txid = some fileMeta)) ∨
  (after.fileMetaByInode = before.fileMetaByInode.insert inodeId fileMeta ∧
    after.lastCommitTxidByInode = before.lastCommitTxidByInode.insert inodeId txid ∧
      Puts before inodeId txid fileSize expectedVersion fileMeta)

theorem Commits.refused {before after : FileMetaTable} {txid : Bytes}
    {fileSize expectedVersion : UInt64} {status : Status} {fileMeta : FileMeta}
    (hmetas : after.fileMetaByInode = before.fileMetaByInode)
    (htxids : after.lastCommitTxidByInode = before.lastCommitTxidByInode)
    (h : status.code ≠ .ok) :
    Commits before after inodeId txid fileSize expectedVersion (status.code = .ok) fileMeta :=
  .inl ⟨hmetas, htxids, fun hok => absurd hok h⟩

theorem FileMetaTable.apply_commits {table after : FileMetaTable} {signed : Bool}
    {request : ApplyFileMetaRequest} {txid signature : Bytes} {env : CommitEnv}
    {reply : ApplyFileMetaReply} (hinode : request.fileMeta.inodeId = inodeId)
    (hsame : request.fileMeta.version = request.expectedVersion) (htxid : txid ≠ [])
    (h : table.applyFileMeta signed request txid signature env = (reply, after)) :
    Commits table after inodeId txid request.fileMeta.fileSize request.expectedVersion
      (reply.status.code = .ok) reply.fileMeta := by
  have hput (fileMeta : FileMeta)
      (hputs : Puts table inodeId txid request.fileMeta.fileSize request.expectedVersion fileMeta)
      (ok : Prop) :
      Commits table (table.put signed inodeId txid signature fileMeta) inodeId txid
        request.fileMeta.fileSize request.expectedVersion ok fileMeta :=
    .inr ⟨rfl, by simp only [FileMetaTable.put, if_neg htxid], hputs⟩
  subst hinode
  unfold FileMetaTable.applyFileMeta at h
  dsimp only at h
  split at h
  · cases h
    exact .refused rfl rfl (by simp)
  · split at h
    · cases h
      exact .refused rfl rfl (by simp)
    · split at h
      · rename_i hrepeated
        split at h
        · cases h
          exact .refused rfl rfl (by simp)
        · cases h
          exact .inl ⟨rfl, rfl, fun _ => hrepeated⟩
      · rename_i hrepeated
        split at h
        · rename_i hnone
          split at h
          · cases h
            exact .refused rfl rfl (by simp)
          · split at h
            · cases h
              exact .refused rfl rfl (by simp)
            · rename_i hversion
              have hzero : request.expectedVersion = 0 :=
                UInt64.toNat_inj.mp (Nat.eq_zero_of_not_pos hversion)
              split at h
              · cases h
                have hone : (createdMeta request env.nowMs).version = 1 :=
                  if_neg (by rwa [hsame])
                exact hput (createdMeta request env.nowMs)
                  ⟨htxid, hrepeated, rfl, .inl ⟨hnone, hzero, hone⟩⟩ _
              · cases h
                exact .refused rfl rfl (by simp [persistStatus])
        · rename_i old hold
          split at h
          · cases h
            exact .refused rfl rfl (by simp)
          · rename_i hversion
            split at h
            · cases h
              refine hput (nextMeta old request env.nowMs)
                ⟨htxid, hrepeated, rfl, .inr ⟨old, hold, ?_, rfl⟩⟩ _
              by_cases hzero : request.expectedVersion = 0
              · exact .inl hzero
              · have hpos : request.expectedVersion > 0 :=
                  Nat.pos_of_ne_zero fun h => hzero (UInt64.toNat_inj.mp h)
                exact .inr (by_contra fun hne => hversion ⟨hpos, hne⟩)
            · cases h
              exact .refused rfl rfl (by simp [persistStatus])

theorem FileMetaTable.commit_commits {table after : FileMetaTable} {signed : Bool}
    {request : CommitFileWriteRequest} {env : CommitEnv} {reply : CommitFileWriteReply}
    (hinode : request.inodeId = inodeId) (htxid : request.txid ≠ [])
    (h : table.commitFileWrite signed request env = (reply, after)) :
    Commits table after inodeId request.txid request.fileSize request.expectedVersion
      (reply.status.code = .ok) reply.fileMeta := by
  unfold FileMetaTable.commitFileWrite at h
  dsimp only at h
  generalize happlied : table.applyFileMeta signed (commitRequest request env.nowMs) request.txid
    (commitSignature request) env = applied at h
  have happly : Commits table applied.2 inodeId request.txid request.fileSize
      request.expectedVersion (applied.1.status.code = .ok) applied.1.fileMeta :=
    FileMetaTable.apply_commits hinode rfl htxid happlied
  split at h
  · -- the table has changed or not, and the failure is reported
    cases h
    rcases happly with ⟨hmetas, htxids, -⟩ | hput
    · exact .refused hmetas htxids (by simp)
    · exact .inr hput
  · cases h
    exact happly

/-- The commit on either node. -/
theorem DiskNode.commit_commits {node after : DiskNode} {request : CommitFileWriteRequest}
    {env : CommitEnv} {reply : CommitFileWriteReply} (hinode : request.inodeId = inodeId)
    (h : node.commitFileWrite request env = (reply, after)) :
    Commits node.table after.table inodeId request.txid request.fileSize request.expectedVersion
      (reply.status.code = .ok) reply.fileMeta := by
  cases node with
  | real service =>
      cases h
      unfold StorageServiceImpl.commitFileWrite
      split
      · exact .refused rfl rfl (by simp [Status.admission])
      · split
        · exact .refused rfl rfl (by simp [Status.noInode])
        · split
          · exact .refused rfl rfl (by simp)
          · rename_i htxid
            split
            · exact .refused rfl rfl (by simp)
            · exact FileMetaTable.commit_commits hinode htxid rfl
  | virtual service =>
      cases h
      unfold VirtualStorageServiceImpl.commitFileWrite
      split
      · exact .refused rfl rfl (by simp [Status.noInode])
      · split
        · exact .refused rfl rfl (by simp)
        · rename_i htxid
          split
          · exact .refused rfl rfl (by simp)
          · split
            · exact .refused rfl rfl (by simp)
            · exact FileMetaTable.commit_commits hinode htxid rfl

variable {state state' : WriteState} {request' : CommitFileWriteRequest} {env : CommitEnv}
  {call : WriteCall} {hist : List WriteServed} {reply : CommitFileWriteReply} {txid : Bytes}
  {fileMeta : FileMeta}

theorem repeated_eq (h : state.node.table.repeated inodeId txid = some fileMeta) :
    state.node.lastTxid inodeId = some txid ∧ state.node.entry inodeId = some fileMeta := by
  unfold FileMetaTable.repeated at h
  split at h
  · rename_i hlast
    exact ⟨hlast.2, h⟩
  · cases h

theorem Puts.version_eq {fileSize expectedVersion : UInt64}
    (hputs : Puts state.node.table inodeId txid fileSize expectedVersion fileMeta)
    (hzero : expectedVersion = 0 →
      state.node.entry inodeId = none ∨ state.node.lastTxid inodeId = some txid)
    (hroom : state.node.version inodeId + 1 < 2 ^ 64) :
    state.node.version inodeId = expectedVersion.toNat ∧
      fileMeta.version.toNat = state.node.version inodeId + 1 := by
  rcases hputs.version with ⟨hnone, rfl, hone⟩ | ⟨old, hold, hexpected, hnext⟩
  · have hversion : state.node.version inodeId = 0 := by
      simp only [DiskNode.version, DiskNode.entry, hnone]
      rfl
    rw [hversion, hone]
    exact ⟨rfl, rfl⟩
  · have hversion : state.node.version inodeId = old.version.toNat := by
      simp only [DiskNode.version, DiskNode.entry, hold]
      rfl
    have hsame : expectedVersion = old.version := by
      rcases hexpected with rfl | hsame
      · -- an entry, but the transaction is not the one that made it
        rcases hzero rfl with hnone | hlast
        · exact absurd (hnone.symm.trans hold) nofun
        · have hrepeated : state.node.table.repeated inodeId txid = some old := by
            unfold FileMetaTable.repeated
            rw [if_pos ⟨hputs.txid_ne, hlast⟩]
            exact hold
          exact absurd (hputs.not_repeated.symm.trans hrepeated) nofun
      · exact hsame
    rw [hversion] at hroom ⊢
    rw [hnext, hsame]
    refine ⟨rfl, ?_⟩
    rw [UInt64.toNat_add]
    exact Nat.mod_eq_of_lt hroom

/-- A commit leaves the entry and the remembered transaction alone, and answers with the
    entry when the transaction is the remembered one; or it takes effect. -/
theorem Distinct.commit (h : Distinct inodeId state (.commit request' env))
    (hserve : state.serve (.commit request' env) = state')
    (hreply : (state.node.commitFileWrite request' env).1 = reply) :
    (state'.node.entry inodeId = state.node.entry inodeId ∧
      state'.node.lastTxid inodeId = state.node.lastTxid inodeId ∧
        (reply.status.code = .ok → state.node.lastTxid inodeId = some request'.txid ∧
          state.node.entry inodeId = some reply.fileMeta)) ∨
    (Applies inodeId ⟨state, .commit request' env, state'⟩ request' reply ∧
      state'.node.lastTxid inodeId = some request'.txid ∧
        state.node.version inodeId = request'.expectedVersion.toNat ∧
          state'.node.version inodeId = state.node.version inodeId + 1) := by
  have hnode : (state.node.commitFileWrite request' env).2 = state'.node := by
    rw [← hserve]
    rfl
  rcases DiskNode.commit_commits h.1.1 (Prod.ext hreply hnode) with
    ⟨hmetas, htxids, hok⟩ | ⟨hmetas, htxids, hputs⟩
  · refine .inl ⟨?_, ?_, fun hanswered => repeated_eq (hok hanswered)⟩
    · simp only [DiskNode.entry, hmetas]
    · simp only [DiskNode.lastTxid, htxids]
  · obtain ⟨hexpected, hnext⟩ := hputs.version_eq h.2.1 h.2.2
    have hentry : state'.node.entry inodeId = some reply.fileMeta := by
      simp only [DiskNode.entry, hmetas, AList.lookup_insert]
    have hversion : state'.node.version inodeId = state.node.version inodeId + 1 := by
      simp only [DiskNode.version, hentry, Option.map_some, Option.getD_some]
      exact hnext
    have heffective : state'.node.entry inodeId ≠ state.node.entry inodeId := by
      intro hsame
      have hsameVersion : state'.node.version inodeId = state.node.version inodeId := by
        unfold DiskNode.version
        rw [hsame]
      omega
    refine .inr ⟨⟨heffective, hentry, hputs.size, hnext⟩, ?_, hexpected, hversion⟩
    simp only [DiskNode.lastTxid, htxids, AList.lookup_insert]

/-! ## Runs -/

/-- The allocated transactions have stamps and are different; only they, and those from
    before the run, are remembered. -/
structure Tracked (inodeId : UInt64) (state : WriteState) : Prop where
  stamped : ∀ pair ∈ state.allocated, ∃ stamp ∈ state.stamps, pair.1 = stamp.txid inodeId
  nodup : (state.allocated.map Prod.fst).Nodup
  remembered : ∀ stamp : Stamp, state.node.lastTxid inodeId = some (stamp.txid inodeId) →
    stamp ∈ state.stamps

/-- What the history has left in the state. -/
structure Recorded (inodeId : UInt64) (hist : List WriteServed) (state : WriteState) : Prop where
  allocates : ∀ e ∈ hist, ∀ txid, Allocates e txid → txid ∈ state.allocated.map Prod.fst
  commits : ∀ e ∈ hist, ∀ request env, e.call = .commit request env →
    (request.txid, request.expectedVersion) ∈ state.allocated
  effective : ∀ e ∈ hist, ∀ request env, e.call = .commit request env → Effective inodeId e →
    request.expectedVersion.toNat < state.node.version inodeId
  last : ∀ txid, state.node.lastTxid inodeId = some txid → txid ∈ state.allocated.map Prod.fst →
    ∃ e ∈ hist, ∃ request env, e.call = .commit request env ∧ request.txid = txid ∧
      Applies inodeId e request (e.before.node.commitFileWrite request env).1 ∧
        state.node.entry inodeId = some (e.before.node.commitFileWrite request env).1.fileMeta

theorem Tracked.allocate (htracked : Tracked inodeId state)
    (hok : Distinct inodeId state (.allocate request nowMs)) :
    Tracked inodeId (state.allocate request nowMs) := by
  obtain ⟨htable, hanswer⟩ := state.node.allocate_spec nowMs hok.1
  unfold WriteState.allocate
  dsimp only
  have hlast : (state.node.allocateFileWrite request nowMs).2.lastTxid inodeId =
      state.node.lastTxid inodeId := by
    simp only [DiskNode.lastTxid, htable]
  split
  · rename_i hstatus
    obtain ⟨htxid, -⟩ := hanswer hstatus
    constructor
    · intro pair hmem
      rcases List.mem_cons.mp hmem with rfl | hmem
      · exact ⟨_, List.mem_cons_self, htxid⟩
      · obtain ⟨stamp, hstamp, heq⟩ := htracked.stamped pair hmem
        exact ⟨stamp, List.mem_cons_of_mem _ hstamp, heq⟩
    · rw [List.map_cons, List.nodup_cons]
      refine ⟨fun hmem => ?_, htracked.nodup⟩
      obtain ⟨pair, hpair, heq⟩ := List.mem_map.mp hmem
      obtain ⟨stamp, hstamp, htext⟩ := htracked.stamped pair hpair
      have hsame := Stamp.txid_injective inodeId (htxid.symm.trans (heq.symm.trans htext))
      exact hok.2 (hsame ▸ hstamp)
    · intro stamp hremembered
      exact List.mem_cons_of_mem _ (htracked.remembered stamp (hlast ▸ hremembered))
  · exact ⟨htracked.stamped, htracked.nodup, fun stamp hremembered =>
      htracked.remembered stamp (hlast ▸ hremembered)⟩

theorem Tracked.commit (htracked : Tracked inodeId state)
    (hok : Distinct inodeId state (.commit request' env)) :
    Tracked inodeId (state.serve (.commit request' env)) := by
  refine ⟨htracked.stamped, htracked.nodup, fun stamp hremembered => ?_⟩
  rcases hok.commit rfl rfl with
    ⟨-, hlast, -⟩ | ⟨-, hlast, -⟩
  · exact htracked.remembered stamp (hlast ▸ hremembered)
  · rw [hlast, Option.some.injEq] at hremembered
    obtain ⟨stamp', hstamp, htext⟩ := htracked.stamped _ hok.1.2
    exact Stamp.txid_injective inodeId (hremembered.symm.trans htext) ▸ hstamp

theorem Tracked.start (h : Started inodeId state) : Tracked inodeId state :=
  ⟨fun _ hmem => absurd (h.none_allocated ▸ hmem) List.not_mem_nil,
    h.none_allocated ▸ List.nodup_nil, h.remembered⟩

theorem Recorded.start (h : Started inodeId state) : Recorded inodeId [] state :=
  ⟨nofun, nofun, nofun, fun _ _ hmem => absurd (h.none_allocated ▸ hmem) List.not_mem_nil⟩

/-- An allocation adds a transaction and leaves the table alone. -/
theorem Distinct.allocate (htracked : Tracked inodeId state)
    (hok : Distinct inodeId state (.allocate request nowMs)) :
    (state.allocate request nowMs).node.table = state.node.table ∧
      state.allocated ⊆ (state.allocate request nowMs).allocated ∧
        ∀ txid ∈ (state.allocate request nowMs).allocated.map Prod.fst,
          txid ∈ state.allocated.map Prod.fst ∨ state.node.lastTxid inodeId ≠ some txid := by
  obtain ⟨htable, hanswer⟩ := state.node.allocate_spec nowMs hok.1
  unfold WriteState.allocate
  dsimp only
  split
  · rename_i hstatus
    refine ⟨htable, List.subset_cons_self _ _, fun txid hmem => ?_⟩
    rcases List.mem_cons.mp hmem with rfl | hmem
    · rw [(hanswer hstatus).1]
      exact .inr fun hlast => hok.2 (htracked.remembered _ hlast)
    · exact .inl hmem
  · exact ⟨htable, List.Subset.refl _, fun txid hmem => .inl hmem⟩

theorem Recorded.allocate (h : Recorded inodeId hist state) (htracked : Tracked inodeId state)
    (hok : Distinct inodeId state (.allocate request nowMs)) :
    Recorded inodeId
      (hist ++ [⟨state, .allocate request nowMs, state.allocate request nowMs⟩])
      (state.allocate request nowMs) := by
  obtain ⟨htable, hsub, hlast⟩ := hok.allocate htracked
  constructor
  · intro e hmem txid hallocates
    rcases List.mem_append.mp hmem with hmem | hmem
    · exact List.map_subset Prod.fst hsub (h.allocates e hmem txid hallocates)
    · rw [List.mem_singleton.mp hmem] at hallocates
      obtain ⟨request', nowMs', heq, hstatus, rfl⟩ := hallocates
      cases heq
      unfold WriteState.allocate
      dsimp only
      rw [if_pos hstatus]
      exact List.mem_cons_self
  · intro e hmem request' env heq
    rcases List.mem_append.mp hmem with hmem | hmem
    · exact hsub (h.commits e hmem request' env heq)
    · rw [List.mem_singleton.mp hmem] at heq
      cases heq
  · intro e hmem request' env heq heffective
    rcases List.mem_append.mp hmem with hmem | hmem
    · simp only [DiskNode.version, DiskNode.entry, htable]
      exact h.effective e hmem request' env heq heffective
    · rw [List.mem_singleton.mp hmem] at heq
      cases heq
  · intro txid hremembered hmem
    simp only [DiskNode.lastTxid, htable] at hremembered
    rcases hlast txid hmem with hmem | hne
    · obtain ⟨e, he, request', env, hcall, htxid, happlies, hentry⟩ :=
        h.last txid hremembered hmem
      refine ⟨e, List.mem_append_left _ he, request', env, hcall, htxid, happlies, ?_⟩
      simp only [DiskNode.entry, htable]
      exact hentry
    · exact absurd hremembered hne

theorem Recorded.commit (h : Recorded inodeId hist state)
    (hok : Distinct inodeId state (.commit request' env)) :
    Recorded inodeId
      (hist ++ [⟨state, .commit request' env, state.serve (.commit request' env)⟩])
      (state.serve (.commit request' env)) := by
  have hstep := hok.commit rfl rfl
  have hversion : state.node.version inodeId ≤
      (state.serve (.commit request' env)).node.version inodeId := by
    rcases hstep with ⟨hentry, -, -⟩ | ⟨-, -, -, hnext⟩
    · unfold DiskNode.version
      rw [hentry]
    · omega
  constructor
  · intro e hmem txid hallocates
    rcases List.mem_append.mp hmem with hmem | hmem
    · exact h.allocates e hmem txid hallocates
    · rw [List.mem_singleton.mp hmem] at hallocates
      obtain ⟨_, _, heq, -⟩ := hallocates
      cases heq
  · intro e hmem request env' heq
    rcases List.mem_append.mp hmem with hmem | hmem
    · exact h.commits e hmem request env' heq
    · rw [List.mem_singleton.mp hmem] at heq
      cases heq
      exact hok.1.2
  · intro e hmem request env' heq heffective
    rcases List.mem_append.mp hmem with hmem | hmem
    · exact lt_of_lt_of_le (h.effective e hmem request env' heq heffective) hversion
    · rw [List.mem_singleton.mp hmem] at heq heffective
      cases heq
      rcases hstep with ⟨hentry, -, -⟩ | ⟨-, -, hexpected, hnext⟩
      · exact absurd hentry heffective
      · omega
  · intro txid hremembered hmem
    rcases hstep with ⟨hentry, hlast, -⟩ | ⟨happlies, hlast, -, -⟩
    · obtain ⟨e, he, request, env', hcall, htxid, happlies, hsame⟩ :=
        h.last txid (hlast ▸ hremembered) hmem
      exact ⟨e, List.mem_append_left _ he, request, env', hcall, htxid, happlies,
        hentry.trans hsame⟩
    · rw [hlast, Option.some.injEq] at hremembered
      exact ⟨_, List.mem_append_right _ List.mem_cons_self, request', env, rfl, hremembered,
        happlies, happlies.2.1⟩

theorem recorded (hstart : Started inodeId state)
    (h : Serves Serving (Distinct inodeId) state hist state') :
    Tracked inodeId state' ∧ Recorded inodeId hist state' := by
  induction h with
  | nil => exact ⟨.start hstart, .start hstart⟩
  | @snoc hist t u call hrun hok hstep ih =>
      cases hstep
      cases call with
      | allocate request nowMs => exact ⟨ih.1.allocate hok, ih.2.allocate ih.1 hok⟩
      | commit request env => exact ⟨ih.1.commit hok, ih.2.commit hok⟩

theorem Effective.not_allocate {nowMs : UInt64} (htracked : Tracked inodeId state)
    (hok : Distinct inodeId state (.allocate request nowMs)) :
    ¬ Effective inodeId ⟨state, .allocate request nowMs, state.allocate request nowMs⟩ := by
  intro heffective
  apply heffective
  simp only [DiskNode.entry, (hok.allocate htracked).1]

/-- A transaction id is not allocated again. -/
theorem Distinct.not_allocates (htracked : Tracked inodeId state)
    (hrecorded : Recorded inodeId hist state) (hok : Distinct inodeId state call) :
    ∀ e ∈ hist, ∀ txid, Allocates e txid → ¬ Allocates ⟨state, call, state'⟩ txid := by
  intro e hmem txid hallocates hagain
  obtain ⟨request, nowMs, rfl, hstatus, rfl⟩ := hagain
  obtain ⟨pair, hpair, heq⟩ := List.mem_map.mp (hrecorded.allocates e hmem _ hallocates)
  obtain ⟨stamp, hstamp, htext⟩ := htracked.stamped pair hpair
  have htxid := ((state.node.allocate_spec nowMs hok.1).2 hstatus).1
  have hsame := Stamp.txid_injective inodeId (htxid.symm.trans (heq.symm.trans htext))
  exact hok.2 (hsame ▸ hstamp)

/-- An effective commit expects a version that no effective commit before it expected. -/
theorem Distinct.not_both (hrecorded : Recorded inodeId hist state)
    (hok : Distinct inodeId state call) (hserve : state.serve call = state') :
    ∀ e ∈ hist, ∀ request env request' env', e.call = .commit request env →
      call = .commit request' env' → request.expectedVersion = request'.expectedVersion →
        NotBoth inodeId e ⟨state, call, state'⟩ := by
  rintro e hmem request env request' env' hcall rfl hsame ⟨hearlier, hlater⟩
  have hlt := hrecorded.effective e hmem request env hcall hearlier
  rcases hok.commit hserve rfl with ⟨hentry, -, -⟩ | ⟨-, -, hexpected, -⟩
  · exact hlater hentry
  · rw [hexpected, hsame] at hlt
    exact lt_irrefl _ hlt

/-- In every run whose allocations have different stamps, and whose commits that expect
    the version zero find no entry but their own, transactions are exactly-once. -/
theorem transactions_exactly_once (hstart : Started inodeId state)
    (h : Serves Serving (Distinct inodeId) state hist state') : ExactlyOnce inodeId hist := by
  constructor
  · refine h.pairwise fun hist t call u hrun hok _ => ?_
    obtain ⟨htracked, hrecorded⟩ := recorded hstart hrun
    exact hok.not_allocates htracked hrecorded
  · refine h.pairwise fun hist t call u hrun hok hserve => ?_
    obtain ⟨htracked, hrecorded⟩ := recorded hstart hrun
    intro e hmem request env request' env' hcall hcall' htxid
    -- the transaction was allocated once, and so with one version
    have hearlier := hrecorded.commits e hmem request env hcall
    dsimp only at hcall'
    subst hcall'
    have hpair := List.inj_on_of_nodup_map htracked.nodup hearlier hok.1.2 htxid
    exact hok.not_both hrecorded hserve e hmem request env request' env' hcall rfl
      (congrArg Prod.snd hpair)
  · refine h.pairwise fun hist t call u hrun hok hserve => ?_
    exact hok.not_both (recorded hstart hrun).2 hserve
  · intro hist₁ e hist₂ request env heq hcall hanswered
    subst heq
    obtain ⟨hrun, hok, hserve, -⟩ := h.split
    obtain ⟨-, hrecorded⟩ := recorded hstart hrun
    rcases e with ⟨before, call, after⟩
    dsimp only at hcall hanswered hrun hok hserve hrecorded ⊢
    subst hcall
    rcases hok.commit hserve rfl with ⟨hentry, -, hlast⟩ | ⟨happlies, -, -, -⟩
    · obtain ⟨hlast, hreply⟩ := hlast hanswered
      obtain ⟨e', hmem, request', env', hcall, htxid, happlies, hsame⟩ :=
        hrecorded.last _ hlast (List.mem_map_of_mem hok.1.2)
      exact .inr ⟨fun heffective => heffective hentry, e', hmem, request', env', hcall, htxid,
        happlies, Option.some.inj (hreply.symm.trans hsame)⟩
    · exact .inl happlies
  · intro e hmem heffective
    obtain ⟨hist₁, hist₂, rfl⟩ := List.append_of_mem hmem
    obtain ⟨hrun, hok, hserve, -⟩ := h.split
    rcases e with ⟨before, call, after⟩
    dsimp only at heffective hrun hok hserve ⊢
    cases call with
    | allocate request nowMs =>
        cases hserve
        exact absurd heffective (Effective.not_allocate (recorded hstart hrun).1 hok)
    | commit request env =>
        rcases hok.commit hserve rfl with ⟨hentry, -, -⟩ | ⟨-, -, -, hnext⟩
        · exact absurd hentry heffective
        · exact ⟨⟨request, env, rfl⟩, hnext⟩

/-! ## First writers -/

instance : Decidable (Allocated inodeId state call) :=
  match call with
  | .allocate _ _ => inferInstanceAs (Decidable (_ = _))
  | .commit _ _ => inferInstanceAs (Decidable (_ ∧ _))

instance : Decidable (Distinguished inodeId state call) :=
  match call with
  | .allocate _ _ => inferInstanceAs (Decidable (_ ∉ _))
  | .commit _ _ => inferInstanceAs (Decidable (_ ∧ _))

instance : Decidable (Distinct inodeId state call) := inferInstanceAs (Decidable (_ ∧ _))

instance {e : WriteServed} : Decidable (Effective inodeId e) := inferInstanceAs (Decidable (_ ≠ _))

def emptyNode : WriteState := { node := .real {} }

theorem emptyNode_started : Started 1 emptyNode := ⟨rfl, nofun⟩

def allocateOf (offset : UInt64) : WriteCall :=
  .allocate { inodeId := 1, offset := offset, size := 1, diskId := [], objectUnitSizeHint := 1 } 0

def commitOf (stamp : Stamp) (fileSize expectedVersion : UInt64) : WriteCall :=
  .commit
    { inodeId := 1
      txid := stamp.txid 1
      fileSize := fileSize
      objectUnitSize := 1
      expectedVersion := expectedVersion
      allowCreate := true
      mtimeSec := 1 }
    { nowMs := 0 }

/-- A transaction that commits twice, between two others. -/
def retriedCalls : List WriteCall :=
  [allocateOf 0, commitOf ⟨0, 0, 1⟩ 5 0, commitOf ⟨0, 0, 1⟩ 5 0, allocateOf 5,
    commitOf ⟨0, 5, 2⟩ 6 1]

theorem transactions_exactly_once_retried :
    ExactlyOnce 1 (runOf WriteState.serve emptyNode retriedCalls).1 :=
  transactions_exactly_once emptyNode_started
    (serves_runOf (fun _ _ => rfl) retriedCalls emptyNode (by decide +kernel))

/-- Two transactions are allocated before the file has an entry. -/
def firstWriters : List WriteCall :=
  [allocateOf 0, allocateOf 5, commitOf ⟨0, 0, 1⟩ 5 0, commitOf ⟨0, 5, 2⟩ 6 0]

theorem first_writers_both_commit : ¬ ∀ inodeId state hist state', Started inodeId state →
    Serves Serving (Allocated inodeId) state hist state' → ExactlyOnce inodeId hist := by
  intro h
  have hrun : Serves Serving (Allocated 1) emptyNode
      (runOf WriteState.serve emptyNode firstWriters).1
      (runOf WriteState.serve emptyNode firstWriters).2 :=
    serves_runOf (fun _ _ => rfl) firstWriters emptyNode (by decide +kernel)
  have honce := (h 1 emptyNode _ _ emptyNode_started hrun).oneOfVersion
  have hcommits := (List.pairwise_cons.mp (List.pairwise_cons.mp honce).2).2
  exact (List.pairwise_cons.mp hcommits).1 _ List.mem_cons_self _ _ _ _ rfl rfl rfl
    ⟨by decide +kernel, by decide +kernel⟩

end Zb.DataNode
