-- SUMMARY: Reads, writes and truncations through the FUSE client, with the array that the file should be.
import ZBStorage.DataNode.FileObjects
import ZBStorage.Lib.CallHistory

/-!
# A file through the FUSE client

A write asks the node for a transaction and slices, writes the objects, and commits
the size. A truncation commits a size, and nothing else. A read asks for the slices
below the length and reads the objects; when the node has no metadata of the file,
the attributes of the metadata server take its place. What the cache of the client
contributes are hints, which may be anything.
-/

namespace Zb.Client

open Bytes BlockBytes Zb.DataNode CallHistory

inductive Errno
  | EINVAL
  | EInputOutput
  | ENOENT
  | EAGAIN
  | EOVERFLOW
  | ESTALE
  | ENODEV
  | ETIMEDOUT
  deriving DecidableEq

def statusToErrno (status : Status) : Errno :=
  if status.message = "stale logical node generation" then .ESTALE
  else if status.message.startsWith "logical node not found:" ∨
      status.message = "logical node is not registered or was retired" then .ENODEV
  else if status.message = "MODEL_IO_QUEUE_FULL" ∨
      status.message = "MODEL_CATALOG_NOT_CONFIRMED" then .EAGAIN
  else if status.message = "MODEL_IO_INJECTED_TIMEOUT" ∨ status.message = "RPC_TIMEOUT" then
    .ETIMEDOUT
  else
    match status.code with
    | .invalidArgument => .EINVAL
    | .notFound => .ENOENT
    | .busy => .EAGAIN
    | .ioError => if status.message = "VERSION_MISMATCH" then .EAGAIN else .EInputOutput
    | _ => .EInputOutput

def isMissingFileMeta (status : Status) : Bool :=
  status.code = .notFound && status.message = "file meta not found"

def intMax : Nat := 2 ^ 31 - 1

/-! ## The system -/

/-- The attributes that the metadata server keeps of the file. -/
structure InodeAttr where
  size : UInt64
  objectUnitSize : UInt64
  version : UInt64

/-- A file with the disk that it is stored on; `updateInodeStat` is what the metadata
    server makes of its attributes after a commit. -/
structure StoredFile where
  inodeId : UInt64
  diskId : Bytes
  updateInodeStat : InodeAttr → FileMeta → InodeAttr
  inodeId_ne : inodeId ≠ 0
  diskId_ne : diskId ≠ []

structure FuseSystem where
  node : RealNode
  attr : InodeAttr

/-- The clock, and what the client knows about the file. -/
structure ClientEnv where
  nowMs : UInt64
  timeSec : UInt64
  hintFileSize : UInt64
  hintObjectUnitSize : UInt64
  defaultObjectUnitSize : UInt64

/-- The slices with their positions in the buffer, if they fill it. -/
def positions : List FileObjectSlice → Nat → Nat → Option (List (FileObjectSlice × Nat))
  | [], cursor, size => if cursor = size then some [] else none
  | s :: slices, cursor, size =>
      if size < cursor + s.length then none
      else (positions slices (cursor + s.length) size).map ((s, cursor) :: ·)

/-- All the parts are written, and the first error counts. -/
def writeParts (diskId data : Bytes) :
    List (FileObjectSlice × Nat) → RealNode → Option Errno × RealNode
  | [], node => (none, node)
  | (s, position) :: parts, node =>
      if s.length = 0 then writeParts diskId data parts node
      else
        let written := node.writeObject diskId s.objectId s.objectOffset
          (slice data position s.length)
        let later := writeParts diskId data parts written.2
        (if written.1.code = .ok then later.1 else some (statusToErrno written.1), later.2)

/-- The parts of a read, one after the other. -/
def readParts (node : RealNode) (diskId : Bytes) : List (FileObjectSlice × Nat) →
    Except Errno Bytes
  | [] => .ok []
  | (s, _) :: parts =>
      if s.length = 0 then readParts node diskId parts
      else
        match node.readObject diskId s.objectId s.objectOffset s.length with
        | .error status => .error (statusToErrno status)
        | .ok data =>
            if data.length ≠ s.length then .error .EInputOutput
            else
              match readParts node diskId parts with
              | .error errno => .error errno
              | .ok output => .ok (data ++ output)

/-! ## Reads -/

/-- `BuildObjectSlices` of the client. -/
def buildObjectSlices (inodeId : UInt64) (offset length unit : Nat) (diskId : Bytes) :
    List FileObjectSlice :=
  if unit = 0 ∨ length = 0 then []
  else objectSlices inodeId offset length unit diskId fun i => (i * unit + unit) % 2 ^ 64

/-- The metadata and the slices of a read: from the node, or, only when the node has no
    metadata of the file, from the attributes. -/
def resolveRead (file : StoredFile) (system : FuseSystem) (offset size : Nat) :
    Except Errno (FileMeta × List FileObjectSlice) :=
  let request : ResolveFileReadRequest :=
    { inodeId := file.inodeId
      offset := UInt64.ofNat offset
      size := UInt64.ofNat size
      diskId := file.diskId }
  match system.node.service.resolveFileRead request with
  | .ok resolved => .ok resolved
  | .error status =>
      if isMissingFileMeta status = false then .error (statusToErrno status)
      else if system.attr.objectUnitSize = 0 then .error .EInputOutput
      else
        .ok
          ({ inodeId := file.inodeId
             fileSize := system.attr.size
             objectUnitSize := system.attr.objectUnitSize
             version := system.attr.version },
            buildObjectSlices file.inodeId offset (min size (system.attr.size.toNat - offset))
              system.attr.objectUnitSize.toNat file.diskId)

def fuseRead (file : StoredFile) (system : FuseSystem) (offset : Int) (size : Nat) :
    Except Errno Bytes :=
  if offset < 0 then .error .EINVAL
  else if size = 0 then .ok []
  else
    let requestOffset := offset.toNat
    match resolveRead file system requestOffset size with
    | .error errno => .error errno
    | .ok (resolvedMeta, slices) =>
        let fileSize := resolvedMeta.fileSize.toNat
        if fileSize ≤ requestOffset then .ok []
        else
          let readSize := min size (fileSize - requestOffset)
          if intMax < readSize then .error .EOVERFLOW
          else
            match positions slices 0 readSize with
            | none => .error .EInputOutput
            | some parts => readParts system.node file.diskId parts

/-! ## Writes -/

/-- A commit on the node, and what it leaves in the attributes. -/
def commitFileWrite (file : StoredFile) (system : FuseSystem) (env : ClientEnv)
    (txid : Bytes) (fileSize objectUnitSize expectedVersion : UInt64) :
    Except Errno FileMeta × FuseSystem :=
  let request : CommitFileWriteRequest :=
    { inodeId := file.inodeId
      txid := txid
      fileSize := fileSize
      objectUnitSize := objectUnitSize
      expectedVersion := expectedVersion
      allowCreate := true
      mtimeSec := env.timeSec }
  let committed := system.node.service.commitFileWrite request { nowMs := env.nowMs }
  let node := { system.node with service := committed.2 }
  if committed.1.status.code = .ok then (.ok committed.1.fileMeta, { system with node := node })
  else (.error (statusToErrno committed.1.status), { system with node := node })

def updateInodeStat (file : StoredFile) (system : FuseSystem) (committed : FileMeta) :
    FuseSystem :=
  { system with attr := file.updateInodeStat system.attr committed }

/-- The objects and the commit of a write, after the allocation. -/
def writeAllocated (file : StoredFile) (system : FuseSystem) (env : ClientEnv)
    (requestStart : Nat) (data : Bytes) (plan : AllocateFileWriteReply) :
    Except Errno Nat × FuseSystem :=
  let objectUnitSize :=
    if plan.fileMeta.objectUnitSize > 0 then plan.fileMeta.objectUnitSize
    else env.hintObjectUnitSize
  if objectUnitSize = 0 ∨ plan.txid = [] then (.error .EInputOutput, system)
  else
    match positions plan.slices 0 data.length with
    | none => (.error .EInputOutput, system)
    | some parts =>
        if intMax < data.length then (.error .EInputOutput, system)
        else
          let written := writeParts file.diskId data parts system.node
          let system := { system with node := written.2 }
          match written.1 with
          | some errno => (.error errno, system)
          | none =>
              let newSize := max plan.fileMeta.fileSize.toNat (requestStart + data.length)
              let committed := commitFileWrite file system env plan.txid (UInt64.ofNat newSize)
                objectUnitSize plan.fileMeta.version
              match committed.1 with
              | .error errno => (.error errno, committed.2)
              | .ok fileMeta => (.ok data.length, updateInodeStat file committed.2 fileMeta)

def fuseWrite (file : StoredFile) (system : FuseSystem) (env : ClientEnv) (offset : Int)
    (data : Bytes) : Except Errno Nat × FuseSystem :=
  if offset < 0 then (.error .EINVAL, system)
  else if data = [] then (.ok 0, system)
  else
    let locked := system.node.acquireFileWriteLock
    let requestStart := offset.toNat
    if 2 ^ 64 ≤ requestStart + data.length then
      (.error .EOVERFLOW, { system with node := locked.2 })
    else
      let request : AllocateFileWriteRequest :=
        { inodeId := file.inodeId
          offset := UInt64.ofNat requestStart
          size := UInt64.ofNat data.length
          diskId := file.diskId
          objectUnitSizeHint := env.hintObjectUnitSize }
      let allocated := locked.2.service.allocateFileWrite request env.nowMs
      let system := { system with node := { locked.2 with service := allocated.2 } }
      if allocated.1.status.code = .ok then
        writeAllocated file system env requestStart data allocated.1
      else (.error (statusToErrno allocated.1.status), system)

/-! ## Truncations -/

def bootstrapTxid (file : StoredFile) (token : Bytes) (nowMs : UInt64) : Bytes :=
  ofAscii "bootstrap-" ++ decimal file.inodeId.toNat ++ ofAscii "-" ++ token ++ ofAscii "-" ++
    decimal nowMs.toNat

def metaTxid (file : StoredFile) (token : Bytes) (nowMs : UInt64) : Bytes :=
  ofAscii "meta-" ++ decimal file.inodeId.toNat ++ ofAscii "-" ++ token ++ ofAscii "-" ++
    decimal nowMs.toNat

def ClientEnv.unit (env : ClientEnv) : UInt64 :=
  if env.hintObjectUnitSize > 0 then env.hintObjectUnitSize else env.defaultObjectUnitSize

/-- `GetOrFetchNodeFileMeta` under the write lock: the metadata of the node, which is
    made up from the hints if there is none. -/
def fetchNodeFileMeta (file : StoredFile) (system : FuseSystem) (env : ClientEnv)
    (token : Bytes) : Except Errno FileMeta × FuseSystem :=
  let request : ResolveFileReadRequest :=
    { inodeId := file.inodeId, offset := 0, size := 0, diskId := file.diskId }
  match system.node.service.resolveFileRead request with
  | .ok resolved => (.ok resolved.1, system)
  | .error status =>
      if isMissingFileMeta status = false then (.error (statusToErrno status), system)
      else
        commitFileWrite file system env (bootstrapTxid file token env.nowMs) env.hintFileSize
          env.unit 0

def fuseTruncate (file : StoredFile) (system : FuseSystem) (env : ClientEnv) (size : Int) :
    Except Errno Unit × FuseSystem :=
  if size < 0 then (.error .EINVAL, system)
  else
    let locked := system.node.acquireFileWriteLock
    let fetched := fetchNodeFileMeta file { system with node := locked.2 } env locked.1
    match fetched.1 with
    | .error errno => (.error errno, fetched.2)
    | .ok fileMeta =>
        let objectUnitSize :=
          if fileMeta.objectUnitSize > 0 then fileMeta.objectUnitSize else env.unit
        if objectUnitSize = 0 then (.error .EINVAL, fetched.2)
        else
          let committed := commitFileWrite file fetched.2 env
            (metaTxid file locked.1 env.nowMs) (UInt64.ofNat size.toNat) objectUnitSize
            fileMeta.version
          match committed.1 with
          | .error errno => (.error errno, committed.2)
          | .ok fileMeta => (.ok (), updateInodeStat file committed.2 fileMeta)

/-! ## Calls -/

inductive FuseCall
  | write (env : ClientEnv) (offset : Int) (data : Bytes)
  | truncate (env : ClientEnv) (size : Int)
  | read (env : ClientEnv) (offset : Int) (size : Nat)

/-- A read changes nothing; what it leaves in the caches are hints. -/
def FuseSystem.serve (file : StoredFile) (system : FuseSystem) : FuseCall → FuseSystem
  | .write env offset data => (fuseWrite file system env offset data).2
  | .truncate env size => (fuseTruncate file system env size).2
  | .read _ _ _ => system

/-- The array that the file should be. A write of nothing changes nothing. -/
def arrayAfter (array : Bytes) : FuseCall → Bytes
  | .write _ offset data => if data = [] then array else patch array offset.toNat data
  | .truncate _ size => resize array size.toNat
  | .read _ _ _ => array

end Zb.Client
