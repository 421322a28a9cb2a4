-- SUMMARY: Opening, creating and releasing files through the client, and the tables of open handles.
import ZBStorage.Client.OpticalReadClient
import ZBStorage.Lib.Ledger
import ZBStorage.Mds.Storage.UnifiedInodeLocation

/-!
# Open handles of a mount

`OpenRequest`, `FuseCreate` and `ReleaseRequest` of `zb_fuse_client.cpp` with the parts of
`MdsClient` and `OpticalReadClient` that hand out and give back handles. A call is a program;
its operations are one remote call, one lookup of caches and helper tables, or one critical
section over the tables of open handles, and remote calls may fail.
-/

namespace Zb.Client.Handles

open Bytes Optical Prog
open Zb.Mds (formatVirtualNodeId formatRealNodeId formatDiskIdForTier formatOpticalNodeId
  formatOpticalDiskId)

/-! ## Locations -/

inductive StorageTier
  | disk
  | optical
  deriving DecidableEq

structure ReplicaLocation where
  nodeId : Bytes
  nodeAddress : Bytes := []
  diskId : Bytes
  storageTier : StorageTier
  deriving DecidableEq

def hasDiskLocationInAttr (attr : Rpc.InodeAttr) : Bool :=
  attr.storageTier = .disk && attr.diskNodeId ≠ 0

def hasOpticalLocationInAttr (attr : Rpc.InodeAttr) : Bool :=
  attr.storageTier = .optical && attr.opticalNodeId ≠ 0

/-- A location that is not set reads as empty. -/
def hasLegacyDiskLocation (view : Rpc.FileLocationView) : Bool :=
  let location := view.diskLocation.getD {}
  location.nodeId ≠ [] && location.diskId ≠ []

def hasLegacyOpticalLocation (view : Rpc.FileLocationView) : Bool :=
  let location := view.opticalLocation.getD {}
  location.nodeId ≠ [] && location.diskId ≠ []

def attrLocation (attr : Rpc.InodeAttr) : Option ReplicaLocation :=
  match attr.storageTier with
  | .disk => some
      { nodeId :=
          if attr.diskNodeIsVirtual then formatVirtualNodeId attr.diskNodeId
          else formatRealNodeId attr.diskNodeId
        diskId := formatDiskIdForTier attr.diskId attr.diskNodeIsVirtual
        storageTier := .disk }
  | .optical => some
      { nodeId := formatOpticalNodeId attr.opticalNodeId
        diskId := formatOpticalDiskId attr.opticalDiskId
        storageTier := .optical }
  | _ => none

def diskReplica (view : Rpc.FileLocationView) : ReplicaLocation :=
  let location := view.diskLocation.getD {}
  { nodeId := location.nodeId, nodeAddress := location.nodeAddress, diskId := location.diskId
    storageTier := .disk }

def opticalReplica (view : Rpc.FileLocationView) : ReplicaLocation :=
  let location := view.opticalLocation.getD {}
  { nodeId := location.nodeId, nodeAddress := location.nodeAddress, diskId := location.diskId
    storageTier := .optical }

def selectLocationForIo (view : Rpc.FileLocationView) : Option ReplicaLocation :=
  if view.attr.storageTier = .disk && hasLegacyDiskLocation view then some (diskReplica view)
  else if view.attr.storageTier = .optical && hasLegacyOpticalLocation view then
    some (opticalReplica view)
  else if hasDiskLocationInAttr view.attr || hasOpticalLocationInAttr view.attr then
    (attrLocation view.attr).filter fun anchor => anchor.nodeId ≠ [] && anchor.diskId ≠ []
  else if hasLegacyDiskLocation view then some (diskReplica view)
  else if hasLegacyOpticalLocation view then some (opticalReplica view)
  else none

def isWriteOpenFlags (flags : UInt32) : Bool :=
  let accessMode := flags &&& 3
  accessMode == 1 || accessMode == 2 || flags &&& 0x200 != 0 || flags &&& 0x400 != 0

def opticalVersion (attr : Rpc.InodeAttr) : Option UInt64 :=
  if attr.version = 0 then none else some attr.version

/-! ## Operations -/

/-- What a call answers instead of a handle. -/
inductive OpenError
  | status (errno : Int)
  | emptyLocation
  | EROFS
  | EBADF
  | optical (code : ErrorCode)
  | node (errno : Int)
  deriving DecidableEq

/-- How a call of the metadata server ends: not at all or with a status that is not OK, or
    with a reply. -/
inductive MdsEnd (α : Type)
  | failed (errno : Int)
  | ok (reply : α)

structure OpenReply where
  handleId : UInt64
  location : Rpc.FileLocationView

structure OpenSession where
  inodeId : UInt64
  version : Option UInt64
  readHandle : UInt64
  fileSize : UInt64
  maxReadBytes : UInt32
  deriving DecidableEq

/-- A session as the node knows it. -/
abbrev SessionKey := UInt64 × Option UInt64 × UInt64

def OpenSession.key (session : OpenSession) : SessionKey :=
  (session.inodeId, session.version, session.readHandle)

inductive FuseOp
  | mdsOpen (path : Bytes) (flags : UInt32)
  | mdsClose (handle : UInt64)
  | mdsCreate (path : Bytes) (mode : UInt32)
  | getOrFetchAnchor (inodeId : UInt64)
  | ensureReplicaNodeAddress (anchor : ReplicaLocation)
  | getOrFetchNodeFileMeta (inodeId : UInt64) (anchor : ReplicaLocation)
  /-- whether the mount has an optical client -/
  | opticalReads
  /-- the file of the record that is ready, under the key of the file -/
  | findReady (inodeId : UInt64) (version : Option UInt64)
  /-- for a ready record of a file of that size -/
  | acquireReadSession (inodeId : UInt64) (version : Option UInt64) (fileSize : UInt64)
  | closeSession (session : OpenSession)
  /-- `RegisterOpenHandle` -/
  | register (inodeId mdsHandle : UInt64) (session : Option OpenSession)
  /-- the critical section of `ReleaseRequest` -/
  | take (handle : UInt64)

/-- What the operations answer; `findReady` answers the size of the file. -/
@[reducible]
def FuseOp.Res : FuseOp → Type
  | .mdsOpen _ _ => MdsEnd OpenReply
  | .mdsClose _ => Option Int
  | .mdsCreate _ _ => MdsEnd Rpc.FileLocationView
  | .getOrFetchAnchor _ => Except Int ReplicaLocation
  | .ensureReplicaNodeAddress _ => Except Int Bytes
  | .getOrFetchNodeFileMeta _ _ => Option Int
  | .opticalReads => Bool
  | .findReady _ _ => Except ErrorCode UInt64
  | .acquireReadSession _ _ _ => RpcEnd AcquireReadSessionReply
  | .closeSession _ => Option ErrorCode
  | .register _ _ _ => UInt64
  | .take _ => Option (UInt64 × Option OpenSession)

abbrev FuseProg := Prog FuseOp FuseOp.Res

def mdsOpen (path : Bytes) (flags : UInt32) : FuseProg (MdsEnd OpenReply) :=
  perform (FuseOp.mdsOpen path flags)

def mdsCreate (path : Bytes) (mode : UInt32) : FuseProg (MdsEnd Rpc.FileLocationView) :=
  perform (FuseOp.mdsCreate path mode)

/-- `MdsClient::Close`. -/
def mdsClose (handle : UInt64) : FuseProg (Option Int) := perform (FuseOp.mdsClose handle)

def getOrFetchAnchor (inodeId : UInt64) : FuseProg (Except Int ReplicaLocation) :=
  perform (FuseOp.getOrFetchAnchor inodeId)

def ensureReplicaNodeAddress (anchor : ReplicaLocation) : FuseProg (Except Int Bytes) :=
  perform (FuseOp.ensureReplicaNodeAddress anchor)

def getOrFetchNodeFileMeta (inodeId : UInt64) (anchor : ReplicaLocation) : FuseProg (Option Int) :=
  perform (FuseOp.getOrFetchNodeFileMeta inodeId anchor)

def opticalReads : FuseProg Bool := perform FuseOp.opticalReads

def findReady (inodeId : UInt64) (version : Option UInt64) : FuseProg (Except ErrorCode UInt64) :=
  perform (FuseOp.findReady inodeId version)

def acquireReadSession (inodeId : UInt64) (version : Option UInt64) (fileSize : UInt64) :
    FuseProg (RpcEnd AcquireReadSessionReply) :=
  perform (FuseOp.acquireReadSession inodeId version fileSize)

/-- `OpticalReadClient::Close`. -/
def closeSession (session : OpenSession) : FuseProg (Option ErrorCode) :=
  perform (FuseOp.closeSession session)

def registerOpenHandle (inodeId mdsHandle : UInt64) (session : Option OpenSession) :
    FuseProg UInt64 :=
  perform (FuseOp.register inodeId mdsHandle session)

def takeOpenHandle (handle : UInt64) : FuseProg (Option (UInt64 × Option OpenSession)) :=
  perform (FuseOp.take handle)

/-! ## Calls -/

/-- `MdsClient::Open`. A reply without a location is an error. -/
def mdsClientOpen (path : Bytes) (flags : UInt32) :
    FuseProg (Except OpenError (UInt64 × Rpc.FileLocationView × ReplicaLocation)) := do
  match ← mdsOpen path flags with
  | .failed errno => return .error (.status errno)
  | .ok reply =>
      match selectLocationForIo reply.location with
      | none => return .error .emptyLocation
      | some anchor => return .ok (reply.handleId, reply.location, anchor)

/-- `OpticalReadClient::Open`. -/
def opticalOpen (readChunkBytes : UInt32) (inodeId : UInt64) (version : Option UInt64) :
    FuseProg (Except ErrorCode OpenSession) := do
  match ← findReady inodeId version with
  | .error code => return .error code
  | .ok fileSize =>
      match ← acquireReadSession inodeId version fileSize with
      | .replied .NOT_FOUND _ => return .error .EAGAIN
      | rpc =>
          match check rpc with
          | .error code => return .error code
          | .ok reply =>
              if reply.readHandle = 0 ∨ reply.maxReadBytes = 0 ∨ reply.fileSize ≠ fileSize then
                return .error .EInputOutput
              else
                return .ok
                  { inodeId, version
                    readHandle := reply.readHandle
                    fileSize := reply.fileSize
                    maxReadBytes :=
                      if readChunkBytes ≠ 0 then min readChunkBytes reply.maxReadBytes
                      else reply.maxReadBytes }

/-- `MdsOpenRollback`: the handle is given back unless the call ends well. -/
def withRollback (handle : UInt64) (body : FuseProg (Except OpenError UInt64)) :
    FuseProg (Except OpenError UInt64) := do
  match ← body with
  | .ok localHandle => return .ok localHandle
  | .error error => do
      let _ ← mdsClose handle
      return .error error

/-- The anchor of an open file with an address. -/
def openAnchor (inodeId : UInt64) (anchor : ReplicaLocation) :
    FuseProg (Except OpenError ReplicaLocation) := do
  if anchor.nodeId = [] ∨ anchor.diskId = [] then
    match ← getOrFetchAnchor inodeId with
    | .error errno => return .error (.status errno)
    | .ok anchor =>
        if anchor.nodeId = [] ∨ anchor.diskId = [] then return .error (.status 0)
        else return .ok anchor
  else
    match ← ensureReplicaNodeAddress anchor with
    | .error errno => return .error (.status errno)
    | .ok nodeAddress => return .ok { anchor with nodeAddress }

def registerOnNode (inodeId handle : UInt64) (anchor : ReplicaLocation) :
    FuseProg (Except OpenError UInt64) := do
  match ← getOrFetchNodeFileMeta inodeId anchor with
  | some errno => return .error (.node errno)
  | none => return .ok (← registerOpenHandle inodeId handle none)

def registerOptical (readChunkBytes flags : UInt32) (attr : Rpc.InodeAttr) (handle : UInt64) :
    FuseProg (Except OpenError UInt64) := do
  if isWriteOpenFlags flags then return .error .EROFS
  else if ← opticalReads then
    match ← opticalOpen readChunkBytes attr.inodeId (opticalVersion attr) with
    | .error code => return .error (.optical code)
    | .ok session => return .ok (← registerOpenHandle attr.inodeId handle (some session))
  else return .ok (← registerOpenHandle attr.inodeId handle none)

def openRequest (readChunkBytes : UInt32) (path : Bytes) (flags : UInt32) :
    FuseProg (Except OpenError UInt64) := do
  match ← mdsClientOpen path flags with
  | .error error => return .error error
  | .ok (handle, location, anchor) =>
      withRollback handle do
        let attr := location.attr
        if attr.type = .file then
          match ← openAnchor attr.inodeId anchor with
          | .error error => return .error error
          | .ok anchor =>
              if anchor.storageTier = .optical then registerOptical readChunkBytes flags attr handle
              else registerOnNode attr.inodeId handle anchor
        else return .ok (← registerOpenHandle attr.inodeId handle none)

def fuseCreate (path : Bytes) (mode flags : UInt32) : FuseProg (Except OpenError UInt64) := do
  match ← mdsCreate path mode with
  | .failed errno => return .error (.status errno)
  | .ok created =>
      match selectLocationForIo created with
      | none => return .error .emptyLocation
      | some createAnchor =>
          match ← mdsClientOpen path flags with
          | .error error => return .error error
          | .ok (handle, location, anchor) =>
              withRollback handle do
                let attr := location.attr
                let anchor :=
                  if anchor.nodeId = [] ∨ anchor.diskId = [] then createAnchor else anchor
                match ← openAnchor attr.inodeId anchor with
                | .error error => return .error error
                | .ok anchor => registerOnNode attr.inodeId handle anchor

/-- The session is closed before the handle of the metadata server, whatever that gives. -/
def releaseRequest (handle : UInt64) : FuseProg (Except OpenError UInt64) := do
  match ← takeOpenHandle handle with
  | none => return .error .EBADF
  | some (mdsHandle, session) =>
      let closed : Option ErrorCode ←
        match session with
        | none => pure none
        | some session => closeSession session
      let answer : Option Int ← mdsClose mdsHandle
      match closed, answer with
      | some code, _ => return .error (.optical code)
      | none, some errno => return .error (.status errno)
      | none, none => return .ok 0

end Zb.Client.Handles
