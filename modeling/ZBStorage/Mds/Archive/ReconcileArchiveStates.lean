-- SUMMARY: The reconciliation of archive states: the scan over the lease records, the batch and the states pushed.
import ZBStorage.Lib.WeakestPrecondition
import ZBStorage.Mds.Archive.LeaseExclusion
import ZBStorage.Mds.Storage.NamespaceRuns

/-!
# Reconciling archive states

`ReconcileArchiveStates` of `OpticalArchiveManager.cpp` and the functions it calls. The
pass iterates over a snapshot of the lease records, but reads inodes as they are now. It
holds no mutex of the lease manager.
-/

namespace Zb.Mds

open Zb.Rpc Bytes

/-! ## Operations -/

inductive FileArchiveState
  | pending
  | archiving
  | archived
  deriving DecidableEq

def toInodeArchiveState : FileArchiveState → InodeArchiveState
  | .archiving => .archiving
  | .archived => .archived
  | .pending => .pending

structure UpdateFileArchiveStateRequest where
  inodeId : UInt64
  diskId : Bytes
  archiveState : FileArchiveState
  version : UInt64

inductive ReconcileOp
  /-- the system clock, in milliseconds -/
  | now
  /-- the lease records that the iterator finds -/
  | newIterator
  | get (inodeId : UInt64)
  | put (inodeId : UInt64) (payload : Bytes)
  | writeBatch (batch : WriteBatch)
  | resolveDiskId (nodeId : Bytes) (diskId : UInt32)
  | resolveNodeAddress (nodeId : Bytes)
  | updateFileArchiveState (nodeAddress : Bytes) (request : UpdateFileArchiveStateRequest)

abbrev ReconcileOp.Res : ReconcileOp → Type
  | .now => UInt64
  | .newIterator => List (UInt64 × ArchiveLeaseRecord)
  | .get _ => Except String Bytes
  | .put _ _ | .writeBatch _ | .updateFileArchiveState _ _ => Except String Unit
  | .resolveDiskId _ _ | .resolveNodeAddress _ => Option Bytes

abbrev Reconciler (α : Type) := Prog ReconcileOp ReconcileOp.Res α

namespace Reconciler

def op (o : ReconcileOp) : Reconciler o.Res := .call o .ret

/-! ## Inodes -/

def loadInodeAttr (inodeId : UInt64) : Reconciler (Except String InodeAttr) := do
  match ← op (.get inodeId) with
  | .error e => return .error e
  | .ok data => return decodeUnifiedInodeAttr data

/-- A resolved text, if it is one. -/
def knownOr (known : Option Bytes) (otherwise : Bytes) : Bytes :=
  match known with
  | some text => if text = [] then otherwise else text
  | none => otherwise

/-- The disk and the address that the node cache knows. -/
def resolveLocation (location : OpticalFileLocation) (opticalDiskId : UInt64) :
    Reconciler OpticalFileLocation := do
  let diskId ←
    if opticalDiskId ≤ 0xFFFFFFFF then
      op (.resolveDiskId location.nodeId opticalDiskId.toUInt32)
    else pure none
  let nodeAddress ← op (.resolveNodeAddress location.nodeId)
  return { location with
    diskId := knownOr diskId location.diskId
    nodeAddress := knownOr nodeAddress location.nodeAddress }

def buildOpticalFileLocationFromAttr (attr : InodeAttr) (inodeId : UInt64) :
    Reconciler (Option OpticalFileLocation) :=
  match populateOpticalFileLocationFromInodeAttr attr inodeId with
  | none => return none
  | some location => do return some (← resolveLocation location attr.opticalDiskId)

def populateOpticalFileLocationFromUnifiedRecord (record : UnifiedInodeRecord) :
    Option OpticalFileLocation :=
  if record.storageTier ≠ UnifiedStorageTier.kOptical ∨ record.opticalNodeId = 0 then none
  else some
    { nodeId := formatOpticalNodeId record.opticalNodeId
      diskId := formatOpticalDiskId record.opticalDiskId
      imageId := formatOpticalImageId record.opticalNodeId record.opticalDiskId
        record.opticalImageId }

/-- Failures of the read are taken for a file without a location. -/
def loadOpticalFileLocation (inodeId : UInt64) : Reconciler (Option OpticalFileLocation) := do
  match ← op (.get inodeId) with
  | .error _ => return none
  | .ok payload =>
      match decodeUnifiedInodeRecord payload with
      | .error _ => return none
      | .ok record =>
          match populateOpticalFileLocationFromUnifiedRecord record with
          | none => return none
          | some location => return some (← resolveLocation location record.opticalDiskId)

def isUsable (location : OpticalFileLocation) : Bool :=
  location.nodeId ≠ [] ∧ location.diskId ≠ []

def hasUsableOpticalLocation (inodeId : UInt64) : Reconciler (Except String Bool) :=
  if inodeId = 0 then return .error "invalid file archive check args"
  else do
    match ← loadInodeAttr inodeId with
    | .error e => return .error e
    | .ok attr =>
        match ← buildOpticalFileLocationFromAttr attr inodeId with
        | some location => return .ok (isUsable location)
        | none =>
            match ← loadOpticalFileLocation inodeId with
            | none => return .ok false
            | some location => return .ok (isUsable location)

/-! ## The scan -/

/-- The owner of the record and the state to push. -/
structure FileStateUpdate where
  inodeId : UInt64
  nodeAddress : Bytes
  diskId : Bytes
  archiveState : FileArchiveState
  version : UInt64

structure Collected where
  batch : WriteBatch := []
  sourceUpdates : List FileStateUpdate := []

def resetRecord (now : UInt64) (record : ArchiveLeaseRecord) : ArchiveLeaseRecord :=
  { record with
    state := .pending
    leaseId := []
    leaseExpireTsMs := 0
    updateTsMs := now
    version := record.version + 1 }

def isExpired (now : UInt64) (record : ArchiveLeaseRecord) : Bool :=
  record.state = .archiving ∧ 0 < record.leaseExpireTsMs ∧ record.leaseExpireTsMs ≤ now

/-- The entry of the batch for a record, the state to push and its version. -/
def decideRecord (now : UInt64) (record : ArchiveLeaseRecord) (fileArchived : Bool) :
    Option (BatchEntry × FileArchiveState × UInt64) :=
  if fileArchived then
    some (.delete (.fileArchiveState record.inodeId), .archived, record.version + 1)
  else if isExpired now record ∨ (record.state ≠ .pending ∧ record.state ≠ .archiving) then
    some (.put (.fileArchiveState record.inodeId) (resetRecord now record), .pending,
      (resetRecord now record).version)
  else none

/-- One round of the loop. -/
def visit (now : UInt64) (collected : Collected) (key : UInt64) (record : ArchiveLeaseRecord) :
    Reconciler Collected :=
  if record.inodeId = 0 then
    return { collected with batch := collected.batch ++ [.delete (.fileArchiveState key)] }
  else do
    match ← loadInodeAttr record.inodeId with
    | .error _ => return collected
    | .ok _ =>
        match ← hasUsableOpticalLocation record.inodeId with
        | .error _ => return collected
        | .ok fileArchived =>
            match decideRecord now record fileArchived with
            | none => return collected
            | some (entry, archiveState, version) =>
                let nodeAddress ← op (.resolveNodeAddress record.ownerNodeId)
                return {
                  batch := collected.batch ++ [entry]
                  sourceUpdates := collected.sourceUpdates ++
                    [{ inodeId := record.inodeId
                       nodeAddress := nodeAddress.getD []
                       diskId := record.ownerDiskId
                       archiveState
                       version }] }

def visitAll (now : UInt64) (collected : Collected) :
    List (UInt64 × ArchiveLeaseRecord) → Reconciler Collected
  | [] => return collected
  | (key, record) :: entries => do
      let collected ← visit now collected key record
      visitAll now collected entries

/-! ## The states pushed -/

/-- What is written for an inode with a new state, from what is stored. -/
def archiveStatePayload (inode : InodeAttr) (current : Except String Bytes) :
    Except String Bytes :=
  match current.toOption.bind fun payload => (decodeUnifiedInodeRecord payload).toOption with
  | some record => encodeUnifiedInodeRecord (applyAttrToUnifiedRecord inode record)
  | none =>
      match attrToUnifiedInodeRecord inode 0 UnifiedStorageTier.kNone with
      | .error e => .error e
      | .ok record => encodeUnifiedInodeRecord record

def updateInodeArchiveState (inodeId : UInt64) (archiveState : InodeArchiveState) :
    Reconciler (Except String Unit) :=
  if inodeId = 0 then return .error "invalid inode archive state update args"
  else do
    match ← loadInodeAttr inodeId with
    | .error e =>
        return .error (if e = "" then "failed to load inode for archive state update" else e)
    | .ok inode =>
        if inode.type ≠ .file then return .error "inode is not a file"
        else if inode.fileArchiveState = archiveState then return .ok ()
        else
          match archiveStatePayload { inode with fileArchiveState := archiveState }
              (← op (.get inodeId)) with
          | .error e => return .error (if e = "" then "failed to persist inode archive state" else e)
          | .ok payload => op (.put inodeId payload)

def updateSourceFileArchiveState (update : FileStateUpdate) : Reconciler (Except String Unit) :=
  if update.inodeId = 0 then return .error "invalid file archive state update args"
  else do
    match ← updateInodeArchiveState update.inodeId (toInodeArchiveState update.archiveState) with
    | .error e => return .error e
    | .ok () =>
        if update.nodeAddress = [] ∨ update.diskId = [] then return .ok ()
        else
          op (.updateFileArchiveState update.nodeAddress
            { inodeId := update.inodeId
              diskId := update.diskId
              archiveState := update.archiveState
              version := update.version })

/-- The first error stays; the others are passed over. -/
def pushAll (error : String) : List FileStateUpdate → Reconciler String
  | [] => return error
  | update :: updates => do
      match ← updateSourceFileArchiveState update with
      | .error e => pushAll (if error = "" then e else error) updates
      | .ok () => pushAll error updates

/-- Answers whether the pass went through, and an error. -/
def reconcileArchiveStates (maxRecords : UInt32) : Reconciler (Bool × String) :=
  if maxRecords = 0 then return (true, "")
  else do
    let now ← op .now
    let entries ← op .newIterator
    let collected ← visitAll now {} (entries.take maxRecords.toNat)
    match ← (if collected.batch = [] then pure (.ok ()) else op (.writeBatch collected.batch) :
        Reconciler (Except String Unit)) with
    | .error e => return (false, e)
    | .ok () => return (true, ← pushAll "" collected.sourceUpdates)

end Reconciler

/-! ## The store under the operations -/

def leaseEntry : (Σ k : MetaKey, k.Value) → Option (UInt64 × ArchiveLeaseRecord)
  | ⟨.fileArchiveState inodeId, record⟩ => some (inodeId, record)
  | _ => none

/-- The lease records in the order of their keys. -/
def MetaMap.leases (db : MetaMap) : List (UInt64 × ArchiveLeaseRecord) :=
  (db.entries.filterMap leaseEntry).insertionSort fun a b =>
    (MetaKey.fileArchiveState a.1).render ≤ (MetaKey.fileArchiveState b.1).render

theorem MetaMap.mem_leases {db : MetaMap} {inodeId : UInt64} {record : ArchiveLeaseRecord} :
    (inodeId, record) ∈ db.leases ↔ db.lookup (.fileArchiveState inodeId) = some record := by
  rw [leases, List.mem_insertionSort, List.mem_filterMap]
  rw [show db.lookup (.fileArchiveState inodeId) = some record ↔
    record ∈ db.lookup (.fileArchiveState inodeId) from Iff.rfl, AList.mem_lookup_iff]
  constructor
  · rintro ⟨⟨k, w⟩, hmem, hk⟩
    cases k with
    | fileArchiveState id =>
        cases hk
        exact hmem
    | _ => cases hk
  · intro hmem
    exact ⟨_, hmem, rfl⟩

variable {ι : Type}

/-- An iterator that fails ends early; the pass does not ask for its status. -/
def ReconcileOp.Sem : (o : ReconcileOp) → TimedState ι → o.Res → TimedState ι → Prop
  | .now, s, r, s' => s.clock ≤ r ∧ r.toNat < 2 ^ 63 ∧ s' = { s with clock := r }
  | .newIterator, s, r, s' => r <+: s.db.leases ∧ s' = s
  | .get inodeId, s, r, s' => (r = s.db.read (.inode inodeId) ∨ IoError r) ∧ s' = s
  | .put inodeId payload, s, r, s' =>
      (r = .ok () ∧ s' = { s with db := s.db.insert (.inode inodeId) payload }) ∨
      (IoError r ∧ s' = s)
  | .writeBatch batch, s, r, s' =>
      (r = .ok () ∧ s' = { s with db := s.db.write batch }) ∨ (IoError r ∧ s' = s)
  | .resolveDiskId _ _, s, _, s' | .resolveNodeAddress _, s, _, s'
  | .updateFileArchiveState _ _, s, _, s' => s' = s

end Zb.Mds
