-- SUMMARY: The handlers that change attributes and locations of a file: updates, migration and archive commits.
import ZBStorage.Mds.Archive.ArchiveLeaseManager
import ZBStorage.Mds.Location.FileLocationResolver

/-!
# The metadata service

The parts of `MdsServiceImpl.cpp` that rewrite the inode of a file. An attribute
update reads and writes the inode without a lock; a migration and an archive
commit hold `file_migration_mu_` and write a batch only if the inode still has
the payload they read.
-/

namespace Zb.Mds

open Zb.Rpc Bytes Handler

/-! ## Attribute updates -/

def kDefaultDirectorySizeBytes : UInt64 := 4096

def kDefaultPosixBlockSize : UInt32 := 4096

def kReadOnlyOpticalMessage : String := "READ_ONLY_OPTICAL"

def computeBlocks512 (sizeBytes : UInt64) : UInt64 :=
  if sizeBytes = 0 then 0 else (sizeBytes + 511) / 512

def fillPosixInodeDefaults (attr : InodeAttr) : InodeAttr :=
  let size := if attr.type = .dir ∧ attr.size = 0 then kDefaultDirectorySizeBytes else attr.size
  { attr with
    size
    blksize := if attr.blksize = 0 then kDefaultPosixBlockSize else attr.blksize
    blocks512 := computeBlocks512 size
    rdevMajor := 0
    rdevMinor := 0 }

/-- The attributes an accepted update stores. -/
def updatedAttr (request : UpdateInodeStatRequest) (now : UInt64) (attr : InodeAttr) : InodeAttr :=
  fillPosixInodeDefaults { attr with
    size := request.fileSize
    objectUnitSize :=
      if request.objectUnitSize > 0 then request.objectUnitSize else attr.objectUnitSize
    version := request.version
    fileArchiveState := .pending
    mtime := if request.mtime > 0 then request.mtime else now
    ctime := now }

/-- Answers the status and, when it is OK, the attributes stored. -/
def updateInodeStat (request : UpdateInodeStatRequest) :
    Handler (NamespaceStatus × Option InodeAttr) :=
  if request.inodeId = 0 then return (⟨.invalidArgument, "inode_id is empty"⟩, none)
  else if request.version = 0 then return (⟨.invalidArgument, "version is empty"⟩, none)
  else do
    match ← MetaStoreRouter.getInode request.inodeId with
    | .error e => return (readFailure e "inode not found", none)
    | .ok attr =>
        if attr.type ≠ .file then return (⟨.invalidArgument, "inode is not file"⟩, none)
        else if request.version < attr.version then
          return (⟨.staleEpoch, "stale inode stat version"⟩, none)
        else if attr.fileArchiveState = .archived then
          return (⟨.invalidArgument, kReadOnlyOpticalMessage⟩, none)
        else
          let now ← nowSeconds
          let attr := updatedAttr request now attr
          match ← putInode request.inodeId attr with
          | .error e =>
              return (⟨.internalError, if e = "" then "failed to persist inode stat" else e⟩, none)
          | .ok () => return ({}, some attr)

/-! ## Locations -/

/-- An absent location is an empty error. -/
def loadDiskFileLocation (inodeId : UInt64) : Handler (Except String DiskFileLocation) := do
  match ← FileLocationResolver.resolve inodeId with
  | .error status => return .error (if status.code ≠ .notFound then status.message else "")
  | .ok view =>
      match view.diskLocation with
      | none => return .error ""
      | some location => return .ok location

def diskLocationBatch (inodeId : UInt64) (encoded : Bytes) (location : DiskFileLocation) :
    WriteBatch :=
  [.put (.inode inodeId) encoded, .put (.diskFileLocation inodeId) location,
    .delete (.opticalFileLocation inodeId)]

def opticalLocationBatch (inodeId : UInt64) (encoded : Bytes) (location : OpticalFileLocation) :
    WriteBatch :=
  [.put (.inode inodeId) encoded, .put (.opticalFileLocation inodeId) location,
    .delete (.diskFileLocation inodeId)]

/-- The entries that move a file to a disk; `none` when they cannot be built. An
    inode that is gone leaves the batch empty. -/
def saveDiskFileLocation (inodeId : UInt64) (location : DiskFileLocation) :
    Handler (Option WriteBatch) :=
  if inodeId = 0 then return none
  else do
    match ← get (.inode inodeId) with
    | .error e => return if e ≠ "" then none else some []
    | .ok payload =>
        match decodeUnifiedInodeRecord payload with
        | .error _ => return none
        | .ok record =>
            match encodeUnifiedInodeRecord (applyDiskLocationToUnifiedRecord location record) with
            | .error _ => return none
            | .ok encoded => return some (diskLocationBatch inodeId encoded location)

/-- The record of a file moved to optical storage. A committed node replaces the
    number parsed from the name of the node. -/
def archivedRecord (location : OpticalFileLocation) (entry : Option CmsNodeCatalogEntry)
    (record : UnifiedInodeRecord) : UnifiedInodeRecord :=
  let record := applyOpticalLocationToUnifiedRecord location record
  let record :=
    match entry with
    | some entry =>
        { record with
          opticalNodeId := entry.compactId.toUInt64
          storageLoc0 := entry.compactId.toUInt64 }
    | none => record
  { record with fileArchiveState := InodeArchiveState.archived.toUInt32 }

/-- The entries that move a file to optical storage. Here a read that fails, too,
    leaves the batch empty. -/
def saveOpticalFileLocation (inodeId : UInt64) (location : OpticalFileLocation) :
    Handler (Option WriteBatch) :=
  if inodeId = 0 then return none
  else do
    match ← get (.inode inodeId) with
    | .error _ => return some []
    | .ok payload =>
        match decodeUnifiedInodeRecord payload with
        | .error _ => return none
        | .ok record =>
            let entry ← ask (.getCommittedNode location.nodeId)
            match encodeUnifiedInodeRecord (archivedRecord location entry record) with
            | .error _ => return none
            | .ok encoded => return some (opticalLocationBatch inodeId encoded location)

/-! ## Migrations -/

structure CommitFileMigrationReply where
  status : NamespaceStatus
  location : Option DiskFileLocation := none
  alreadyCommitted : Bool := false

def staleMigration (message : String) : CommitFileMigrationReply :=
  { status := ⟨.staleEpoch, message⟩ }

def kMigrationNotPersisted : String := "failed to persist migrated file location"

def sameLocation (lhs rhs : DiskFileLocation) : Bool :=
  decide (lhs.nodeId = rhs.nodeId ∧ lhs.diskId = rhs.diskId)

/-- An instance generation of zero means the first one. -/
def firstGeneration (generation : UInt64) : UInt64 := if generation = 0 then 1 else generation

/-- Whether the inode has the version a migration expects; zero expects nothing. -/
def versionMatches (request : CommitFileMigrationRequest) (payload : Bytes) : Bool :=
  if request.expectedInodeVersion = 0 then true
  else
    match decodeUnifiedInodeAttr payload with
    | .error _ => false
    | .ok attr => decide (attr.version = request.expectedInodeVersion)

/-- The commit of a migration under `file_migration_mu_`. -/
def commitFileMigrationLocked (request : CommitFileMigrationRequest)
    (source target : DiskFileLocation) : Handler CommitFileMigrationReply := do
  match ← get (.inode request.inodeId) with
  | .error e => return { status := readFailure e "inode not found" }
  | .ok expectedInodePayload =>
      if !versionMatches request expectedInodePayload then
        return staleMigration "inode version changed while migration was in progress"
      else
        match ← loadDiskFileLocation request.inodeId with
        | .error e => return { status := readFailure e "disk file location not found" }
        | .ok current =>
            match ← ask (.getCommittedNode target.nodeId) with
            | none => return staleMigration "migration target is not a committed CMS node"
            | some targetEntry =>
                let targetGeneration := firstGeneration targetEntry.instanceGeneration
                if (targetEntry.executionMode = .virtual ∧
                      target.instanceGeneration ≠ targetGeneration) ∨
                    (target.instanceGeneration ≠ 0 ∧
                      target.instanceGeneration ≠ targetGeneration) then
                  return staleMigration "migration target instance generation changed"
                else if source.instanceGeneration ≠ 0 ∧
                    current.instanceGeneration ≠ source.instanceGeneration then
                  return staleMigration "migration source instance generation changed"
                else if sameLocation current target then
                  return ⟨⟨.ok, "already committed"⟩, some current, true⟩
                else if !sameLocation current source then
                  return { staleMigration "file location changed while migration was in progress" with
                    location := some current }
                else
                  match ← saveDiskFileLocation request.inodeId target with
                  | none => return ⟨⟨.internalError, kMigrationNotPersisted⟩, none, false⟩
                  | some batch =>
                      match ← writeBatchIfValueEquals (.inode request.inodeId)
                        expectedInodePayload batch with
                      | .error e =>
                          return ⟨⟨.internalError, if e = "" then kMigrationNotPersisted else e⟩,
                            none, false⟩
                      | .ok false =>
                          return staleMigration "inode changed while migration commit was in progress"
                      | .ok true => return ⟨{}, some target, false⟩

def commitFileMigration (request : CommitFileMigrationRequest) :
    Handler CommitFileMigrationReply :=
  match request.expectedSource, request.target with
  | some source, some target =>
      if request.migrationId = [] ∨ request.inodeId = 0 ∨ target.nodeId = [] ∨
          target.diskId = [] then
        return ⟨⟨.invalidArgument, "invalid file migration commit request"⟩, none, false⟩
      else do
        if !(← ask (.isWriteAdmitted target.nodeId)) then
          return staleMigration "migration target is no longer admitted by CMS"
        else withLock .fileMigration (commitFileMigrationLocked request source target)
  | _, _ => return ⟨⟨.invalidArgument, "invalid file migration commit request"⟩, none, false⟩

/-! ## Optical archives -/

structure ModelOpticalArchiveReply where
  status : NamespaceStatus
  alreadyCommitted : Bool := false
  deriving DecidableEq

def kArchiveSourceDiffers : String :=
  "optical archive source backend differs from requested protocol"

def kArchiveTargetNotReady : String :=
  "modeled optical target is not CMS-ready at this generation"

def staleArchive (message : String) : ModelOpticalArchiveReply :=
  { status := ⟨.staleEpoch, message⟩ }

/-- Whether the manifest is complete. An operation id has at most 256 bytes, and
    no slash, carriage return or line feed. -/
def completeManifest (request : ModelOpticalArchiveRequest) (source : DiskFileLocation)
    (target : OpticalFileLocation) : Bool :=
  decide (request.operationId ≠ [] ∧ request.operationId.length ≤ 256 ∧
    (∀ b ∈ request.operationId, b ∉ ofAscii "/\r\n") ∧
    request.sourceLeaseId ≠ [] ∧ request.inodeId ≠ 0 ∧ request.sourceVersion ≠ 0 ∧
    source.nodeId ≠ [] ∧ source.diskId ≠ [] ∧ target.nodeId ≠ [] ∧ target.diskId ≠ [] ∧
    target.imageId ≠ [])

/-- Whether a recorded operation is the one of the request. -/
def sameManifest (previous request : ModelOpticalArchiveRequest) : Bool :=
  let previousSource := previous.expectedSource.getD {}
  let source := request.expectedSource.getD {}
  let previousTarget := previous.target.getD {}
  let target := request.target.getD {}
  decide (previous.inodeId = request.inodeId ∧ previous.sourceLeaseId = request.sourceLeaseId ∧
    previous.sourceVersion = request.sourceVersion ∧ previous.size = request.size ∧
    previousSource.nodeId = source.nodeId ∧ previousSource.diskId = source.diskId ∧
    previousTarget.nodeId = target.nodeId ∧ previousTarget.diskId = target.diskId ∧
    previousTarget.imageId = target.imageId ∧
    previousTarget.instanceGeneration = target.instanceGeneration)

def archiveMode (physical : Bool) : ManagedExecutionMode :=
  if physical then .physical else .virtual

def sourceReady (physical : Bool) (entry : CmsNodeCatalogEntry) : Bool :=
  decide (entry.kind = .storage ∧ entry.executionMode = archiveMode physical)

def targetReady (physical : Bool) (target : OpticalFileLocation) (entry : CmsNodeCatalogEntry) :
    Bool :=
  decide (entry.kind = .opticalLibrary ∧ entry.executionMode = archiveMode physical ∧
    entry.lifecycle = .working ∧ entry.readiness = some true ∧ entry.serviceAddress ≠ [] ∧
    entry.serviceAddress = target.nodeAddress ∧
    entry.instanceGeneration = target.instanceGeneration)

/-- Whether the inode has the version and size of the manifest. -/
def manifestMatches (request : ModelOpticalArchiveRequest) (attr : InodeAttr) : Bool :=
  decide (attr.version = request.sourceVersion ∧ attr.size = request.size)

/-- Whether the file is still where the manifest found it. -/
def sourceMatches (source current : DiskFileLocation) (entry : CmsNodeCatalogEntry) : Bool :=
  decide (current.nodeId = source.nodeId ∧ current.diskId = source.diskId ∧
    (current.instanceGeneration = 0 ∨
      current.instanceGeneration = firstGeneration entry.instanceGeneration))

/-- The verification of a physical archive; the error of a failure. -/
def checkPhysical (physical : Bool) (request : ModelOpticalArchiveRequest)
    (source : DiskFileLocation) (entry : CmsNodeCatalogEntry) : Handler (Option String) :=
  if !physical then return none
  else do
    match ← ask (.verifyPhysicalArchive request) with
    | .error e => return some (if e = "" then "physical source identity changed" else e)
    | .ok () =>
        return if source.instanceGeneration ≠ entry.instanceGeneration ∨
            source.nodeAddress ≠ entry.serviceAddress then
          some "physical source identity changed"
        else none

/-- The end of an archive: build the batch and commit it under the lease. -/
def commitOpticalArchive (request : ModelOpticalArchiveRequest) (source : DiskFileLocation)
    (target : OpticalFileLocation) (expectedInodePayload : Bytes) :
    Handler ModelOpticalArchiveReply := do
  match ← saveOpticalFileLocation request.inodeId target with
  | none => return { status := ⟨.internalError, "cannot encode optical location"⟩ }
  | some batch =>
      let committed := { request with commit := true }
      match ← ArchiveLeaseManager.commitModelLeaseWithInodeCas request.inodeId source.nodeId
        source.diskId request.sourceLeaseId expectedInodePayload
        (batch ++ [.put (.modelOpticalArchiveCommit request.operationId) committed]) with
      | .error e =>
          return staleArchive (if e = "" then "archive lease or inode CAS failed" else e)
      | .ok true => return { status := ⟨.ok, "committed"⟩ }
      | .ok false => return staleArchive "inode changed during optical commit"

/-- The checks of an archive and, if the request asks for it, its commit. -/
def validateOpticalArchive (request : ModelOpticalArchiveRequest) (source : DiskFileLocation)
    (target : OpticalFileLocation) (physical : Bool) (sourceEntry : CmsNodeCatalogEntry) :
    Handler ModelOpticalArchiveReply := do
  match ← get (.inode request.inodeId) with
  | .error e => return { status := ⟨.notFound, if e = "" then "inode not found" else e⟩ }
  | .ok expectedInodePayload =>
      match decodeUnifiedInodeAttr expectedInodePayload with
      | .error _ => return staleArchive "archive source location, size or version changed"
      | .ok attr =>
          match ← loadDiskFileLocation request.inodeId with
          | .error _ => return staleArchive "archive source location, size or version changed"
          | .ok current =>
              if !manifestMatches request attr ∨ !sourceMatches source current sourceEntry then
                return staleArchive "archive source location, size or version changed"
              else
                match ← ArchiveLeaseManager.validateModelLease request.inodeId source.nodeId
                  source.diskId request.sourceLeaseId with
                | .error e => return staleArchive e
                | .ok () =>
                    match ← checkPhysical physical request source sourceEntry with
                    | some e => return staleArchive e
                    | none =>
                        if !request.commit then return { status := ⟨.ok, "validated"⟩ }
                        else commitOpticalArchive request source target expectedInodePayload

/-- `HandleOpticalArchive` under `file_migration_mu_`. -/
def handleOpticalArchiveLocked (request : ModelOpticalArchiveRequest) (source : DiskFileLocation)
    (target : OpticalFileLocation) (physical : Bool) : Handler ModelOpticalArchiveReply := do
  match ← get (.modelOpticalArchiveCommit request.operationId) with
  | .ok previous =>
      if !sameManifest previous request then
        return staleArchive "archive operation ID reused with a different manifest"
      else return ⟨⟨.ok, "already committed"⟩, true⟩
  | .error e =>
      if e ≠ "" then return { status := ⟨.internalError, e⟩ }
      else
        match ← ask (.getCommittedNode source.nodeId) with
        | none => return { status := ⟨.invalidArgument, kArchiveSourceDiffers⟩ }
        | some sourceEntry =>
            if !sourceReady physical sourceEntry then
              return { status := ⟨.invalidArgument, kArchiveSourceDiffers⟩ }
            else
              match ← ask (.getCommittedNode target.nodeId) with
              | none => return staleArchive kArchiveTargetNotReady
              | some targetEntry =>
                  if !targetReady physical target targetEntry then
                    return staleArchive kArchiveTargetNotReady
                  else validateOpticalArchive request source target physical sourceEntry

def handleOpticalArchive (request : ModelOpticalArchiveRequest) (physical : Bool) :
    Handler ModelOpticalArchiveReply :=
  match request.expectedSource, request.target with
  | some source, some target =>
      if !completeManifest request source target then
        return { status := ⟨.invalidArgument, "incomplete modeled optical archive manifest"⟩ }
      else withLock .fileMigration (handleOpticalArchiveLocked request source target physical)
  | _, _ => return { status := ⟨.invalidArgument, "incomplete modeled optical archive manifest"⟩ }

end Zb.Mds
