-- SUMMARY: Archive leases: claiming, renewing and committing them, and the fenced commit of an optical archive.
import ZBStorage.Mds.Runtime

/-!
# Archive leases

`ArchiveLeaseManager.cpp`. The lease of a file is one record under its archive
key. Every call reads it, decides and writes it back under one mutex; an absent
record stands for a pending one.
-/

namespace Zb.Mds

open Zb.Rpc Bytes Handler

namespace ArchiveLeaseManager

structure Options where
  defaultLeaseMs : UInt64 := 30000
  minLeaseMs : UInt64 := 1000
  maxLeaseMs : UInt64 := 300000

/-- The adjustments of the constructor. -/
def Options.adjusted (options : Options) : Options :=
  let minLeaseMs := if options.minLeaseMs = 0 then 1 else options.minLeaseMs
  let defaultLeaseMs := if options.defaultLeaseMs < minLeaseMs then minLeaseMs else options.defaultLeaseMs
  let maxLeaseMs := if options.maxLeaseMs < defaultLeaseMs then defaultLeaseMs else options.maxLeaseMs
  { defaultLeaseMs, minLeaseMs, maxLeaseMs }

/-- `NormalizeLeaseMs`, with the adjusted options. -/
def normalizeLeaseMs (options : Options) (requestedLeaseMs : UInt64) : UInt64 :=
  let leaseMs := if requestedLeaseMs > 0 then requestedLeaseMs else options.adjusted.defaultLeaseMs
  min (max leaseMs options.adjusted.minLeaseMs) options.adjusted.maxLeaseMs

def loadOrInitRecordLocked (inodeId : UInt64) : Handler (Except String ArchiveLeaseRecord) := do
  match ← get (.fileArchiveState inodeId) with
  | .ok record => return .ok record
  | .error e =>
      if e ≠ "" then return .error e
      else
        let now ← nowMilliseconds
        return .ok { inodeId, state := .pending, version := 1, updateTsMs := now }

/-- The key is the one of the inode named in the record. -/
def persistRecordLocked (record : ArchiveLeaseRecord) : Handler (Except String Unit) :=
  if record.inodeId = 0 then return .error "archive lease record missing inode_id"
  else put (.fileArchiveState record.inodeId) record

/-- Gives a record in an unknown state back to `PENDING`. -/
def repairState (now : UInt64) (record : ArchiveLeaseRecord) :
    Handler (Except String ArchiveLeaseRecord) :=
  if record.state ≠ .pending ∧ record.state ≠ .archiving then do
    let record := { record with
      state := .pending
      leaseId := []
      leaseExpireTsMs := 0
      updateTsMs := now
      version := record.version + 1 }
    match ← persistRecordLocked record with
    | .error e => return .error e
    | .ok () => return .ok record
  else return .ok record

def claim (options : Options) (request : ClaimArchiveTaskRequest) :
    Handler (Except String ClaimArchiveTaskReply) :=
  if request.inodeId = 0 then return .error "archive inode_id is empty"
  else withLock .lease do
    match ← loadOrInitRecordLocked request.inodeId with
    | .error e => return .error e
    | .ok record =>
        let now ← nowMilliseconds
        match ← repairState now record with
        | .error e => return .error e
        | .ok record =>
            if record.state = .archiving ∧ record.leaseExpireTsMs > now then
              return .ok
                { granted := decide (record.ownerNodeId = request.nodeId ∧
                    record.ownerDiskId = request.diskId)
                  record }
            else
              let leaseId ← generateLeaseId
              let record := { record with
                state := .archiving
                ownerNodeId := request.nodeId
                ownerDiskId := request.diskId
                leaseId
                leaseExpireTsMs := now + normalizeLeaseMs options request.requestedLeaseMs
                updateTsMs := now
                version := record.version + 1 }
              match ← persistRecordLocked record with
              | .error e => return .error e
              | .ok () => return .ok { granted := true, record }

def renew (options : Options) (request : RenewArchiveLeaseRequest) :
    Handler (Except String RenewArchiveLeaseReply) :=
  if request.inodeId = 0 ∨ request.leaseId = [] then
    return .error "archive inode_id or lease_id is empty"
  else withLock .lease do
    match ← loadOrInitRecordLocked request.inodeId with
    | .error e => return .error e
    | .ok record =>
        let now ← nowMilliseconds
        if record.state ≠ .archiving ∨ record.leaseId ≠ request.leaseId ∨
            (request.nodeId ≠ [] ∧ record.ownerNodeId ≠ request.nodeId) ∨
            record.leaseExpireTsMs ≤ now then
          return .ok { renewed := false, record }
        else
          let record := { record with
            leaseExpireTsMs := now + normalizeLeaseMs options request.requestedLeaseMs
            updateTsMs := now
            version := record.version + 1 }
          match ← persistRecordLocked record with
          | .error e => return .error e
          | .ok () => return .ok { renewed := true, record }

/-- Both outcomes give the lease up; a success also drops the record. Expiry is
    not checked here. -/
def commit (request : CommitArchiveTaskRequest) : Handler (Except String CommitArchiveTaskReply) :=
  if request.inodeId = 0 then return .error "archive inode_id is empty"
  else withLock .lease do
    match ← loadOrInitRecordLocked request.inodeId with
    | .error e => return .error e
    | .ok record =>
        let now ← nowMilliseconds
        if record.state ≠ .archiving ∨ record.leaseId ≠ request.leaseId ∨
            (request.nodeId ≠ [] ∧ record.ownerNodeId ≠ request.nodeId) then
          return .ok { committed := false, record }
        else
          let record := { record with
            state := .pending
            lastOpId := if request.opId ≠ [] then request.opId else record.leaseId
            leaseId := []
            leaseExpireTsMs := 0
            updateTsMs := now
            version := record.version + 1 }
          if request.success then
            let record := { record with archiveTsMs := now }
            match ← writeBatch [.delete (.fileArchiveState request.inodeId)] with
            | .error e => return .error e
            | .ok () => return .ok { committed := true, record }
          else
            match ← persistRecordLocked record with
            | .error e => return .error e
            | .ok () => return .ok { committed := true, record }

/-! ## Leases of optical archives -/

/-- Whether the lease is held as the manifest says, but for its expiry. -/
def heldBy (record : ArchiveLeaseRecord) (nodeId diskId leaseId : Bytes) : Bool :=
  decide (record.state = .archiving ∧ record.ownerNodeId = nodeId ∧ record.ownerDiskId = diskId ∧
    record.leaseId = leaseId)

/-- The check both calls below make under the mutex. The clock is read last. -/
def checkLeaseLocked (inodeId : UInt64) (nodeId diskId leaseId : Bytes) :
    Handler (Except String Unit) := do
  match ← get (.fileArchiveState inodeId) with
  | .error e => return .error (if e = "" then "archive lease not found" else e)
  | .ok record =>
      if !heldBy record nodeId diskId leaseId then return .error "archive lease changed or expired"
      else
        let now ← nowMilliseconds
        if record.leaseExpireTsMs ≤ now then return .error "archive lease changed or expired"
        else return .ok ()

def validateModelLease (inodeId : UInt64) (nodeId diskId leaseId : Bytes) :
    Handler (Except String Unit) :=
  if inodeId = 0 ∨ nodeId = [] ∨ diskId = [] ∨ leaseId = [] then
    return .error "incomplete modeled archive lease"
  else withLock .lease (checkLeaseLocked inodeId nodeId diskId leaseId)

/-- Adds the deletion of the lease to the batch; answers whether the inode still
    had the expected payload. -/
def commitModelLeaseWithInodeCas (inodeId : UInt64) (nodeId diskId leaseId : Bytes)
    (expectedInodePayload : Bytes) (batch : WriteBatch) : Handler (Except String Bool) :=
  if inodeId = 0 ∨ nodeId = [] ∨ diskId = [] ∨ leaseId = [] then
    return .error "incomplete modeled archive commit"
  else withLock .lease do
    match ← checkLeaseLocked inodeId nodeId diskId leaseId with
    | .error e => return .error e
    | .ok () =>
        writeBatchIfValueEquals (.inode inodeId) expectedInodePayload
          (batch ++ [.delete (.fileArchiveState inodeId)])

end ArchiveLeaseManager

end Zb.Mds
