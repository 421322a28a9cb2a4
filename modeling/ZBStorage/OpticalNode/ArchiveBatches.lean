-- SUMMARY: Batches of files sent for archiving: their encoding in the snapshot, and the thread that downloads the files.
import ZBStorage.Lib.BlockBytes
import ZBStorage.Lib.ByteReader
import ZBStorage.Lib.CallHistory

/-!
# Archive batches

`SendArchiveMetadata`, `ArchiveTaskProcessor` and `DownloadArchiveFile` of
`optical_node_manager.cpp`, with the part of the runtime snapshot that holds the queue
of batches and the breakpoint in the batch at hand. The thread moves from one point to
the next at which it looks whether a shutdown has been requested; what other nodes
answer and whether the archive is throttled comes from outside.
-/

namespace Zb.OpticalNode.Archive

open Bytes CallHistory

/-! ## Requests and their encoding -/

structure ArchiveFileInfo where
  inodeId : UInt64 := 0
  size : UInt64 := 0
  objectUnitSize : UInt64 := 0
  targetNodeId : Bytes := []
  targetDiskId : Bytes := []
  deriving DecidableEq

structure SendArchiveMetadataRequest where
  batchId : UInt64 := 0
  files : List ArchiveFileInfo := []
  endOfBatch : Bool := false
  deriving DecidableEq

def serializeFile (file : ArchiveFileInfo) : Bytes :=
  putU64 file.inodeId ++ (putU64 file.size ++ (putU64 file.objectUnitSize ++
    (putString file.targetNodeId ++ putString file.targetDiskId)))

def serializeArchiveRequestBlob (request : SendArchiveMetadataRequest) : Bytes :=
  putU64 request.batchId ++ (putU32 (UInt32.ofNat request.files.length) ++
    request.files.flatMap serializeFile)

def parseFile : Reader ArchiveFileInfo := do
  let inodeId ← nextU64
  let size ← nextU64
  let objectUnitSize ← nextU64
  let targetNodeId ← nextString
  return {
    inodeId := inodeId
    size := size
    objectUnitSize := objectUnitSize
    targetNodeId := targetNodeId
    targetDiskId := ← nextString }

def parseRequest : Reader SendArchiveMetadataRequest := do
  let batchId ← nextU64
  let fileCount ← nextU32
  checkRemaining fun remaining => fileCount.toNat ≤ remaining / 32
  return { batchId := batchId, files := ← nextMany parseFile fileCount.toNat }

def parseArchiveRequestBlob (data : Bytes) : Option SendArchiveMetadataRequest :=
  readAll parseRequest data

/-- A blob with its length in front. -/
def putBlob (request : SendArchiveMetadataRequest) : Bytes :=
  putString (serializeArchiveRequestBlob request)

def nextBlob : Reader SendArchiveMetadataRequest := do
  let blob ← nextString
  StateT.lift (parseArchiveRequestBlob blob)

def serializePending : Option SendArchiveMetadataRequest → Bytes
  | none => putU8 0
  | some request => putU8 1 ++ putBlob request

/-- The section `kArchiveQueue`, written by `PersistRuntimeState`. -/
def archiveQueueSection (batches : List SendArchiveMetadataRequest)
    (pending : Option SendArchiveMetadataRequest) (fileIndex : Nat) : Bytes :=
  putU32 (UInt32.ofNat batches.length) ++ (batches.flatMap putBlob ++
    (serializePending pending ++ putU64 (UInt64.ofNat fileIndex)))

def parsePending : Reader (Option SendArchiveMetadataRequest) := do
  let hasPending ← nextU8
  if hasPending = 0 then return none else return some (← nextBlob)

/-- The same section in `LoadRuntimeState`, which ignores what stands after it. -/
def parseArchiveQueueSection : Reader
    (List SendArchiveMetadataRequest × Option SendArchiveMetadataRequest × Nat) := do
  let count ← nextU32
  checkRemaining fun remaining => count.toNat ≤ remaining / 4
  let batches ← nextMany nextBlob count.toNat
  let pending ← parsePending
  return (batches, pending, (← nextU64).toNat)

/-! ## The download -/

/-- Why the thread goes on without a file. -/
inductive Refusal
  | nodeNotFound
  | inputDirEmpty
  | nodeAddressEmpty
  | dataChannelInitFailed
  | resolveFileReadFailed
  | resolveFileReadStatus
  | sizeMismatch
  | objectUnitSizeZero
  | sliceNotContiguous
  | sliceTotalMismatch
  | openFailed
  | stopped
  | readObjectFailed
  | readObjectBadResponse
  | pwriteFailed
  | verifySizeFailed
  deriving DecidableEq

structure FileObjectSlice where
  objectIndex : UInt32
  objectOffset : UInt64
  length : UInt64
  deriving DecidableEq

/-- A reply to `ResolveFileRead`. -/
structure ResolveFileReadReply where
  ok : Bool := true
  fileSize : UInt64
  objectUnitSize : UInt64
  slices : List FileObjectSlice

/-- What the first part of a download meets: the channel, the reply or none, the file
    in `input/`. -/
structure Fetch where
  inputDir : Bool := true
  channel : Bool := true
  reply : Option ResolveFileReadReply
  opened : Bool := true

def FileObjectSlice.start (slice : FileObjectSlice) (objectUnitSize : UInt64) : UInt64 :=
  slice.objectIndex.toUInt64 * objectUnitSize + slice.objectOffset

/-- The offset after the slices, if each one starts where the one before it ends. -/
def contiguous (objectUnitSize : UInt64) : UInt64 → List FileObjectSlice → Option UInt64
  | expected, [] => some expected
  | expected, slice :: slices =>
      if slice.start objectUnitSize = expected then
        contiguous objectUnitSize (expected + slice.length) slices
      else none

/-- `DownloadArchiveFile` up to its loop over the slices. -/
def beginDownload (file : ArchiveFileInfo) (address : Bytes) (fetch : Fetch) :
    Except Refusal (UInt64 × List FileObjectSlice) :=
  if !fetch.inputDir then .error .inputDirEmpty
  else if address.isEmpty then .error .nodeAddressEmpty
  else if !fetch.channel then .error .dataChannelInitFailed
  else
    match fetch.reply with
    | none => .error .resolveFileReadFailed
    | some reply =>
        if !reply.ok then .error .resolveFileReadStatus
        else if reply.fileSize ≠ file.size then .error .sizeMismatch
        else if reply.objectUnitSize = 0 ∧ file.size > 0 then .error .objectUnitSizeZero
        else
          match contiguous reply.objectUnitSize 0 reply.slices with
          | none => .error .sliceNotContiguous
          | some total =>
              if total ≠ file.size then .error .sliceTotalMismatch
              else if !fetch.opened then .error .openFailed
              else .ok (reply.objectUnitSize, reply.slices)

/-- What a `ReadObject` of the loop and the write after it come to. -/
inductive SliceAnswer
  | failed
  | bad
  | data (bytes : Bytes) (written : Bool)

/-- The object of a slice is read and written at its place. -/
def fetchSlice (objectUnitSize : UInt64) (slice : FileObjectSlice) (content : Bytes) :
    SliceAnswer → Except Refusal Bytes
  | .failed => .error .readObjectFailed
  | .bad => .error .readObjectBadResponse
  | .data bytes written =>
      if bytes.length ≠ slice.length.toNat then .error .readObjectBadResponse
      else if !written then .error .pwriteFailed
      else .ok (BlockBytes.patch content (slice.start objectUnitSize).toNat bytes)

/-- The addresses of the nodes, with an empty one for a node that is listed without. -/
abbrev NodeAddressMap := List (Bytes × Bytes)

def NodeAddressMap.find (map : NodeAddressMap) (nodeId : Bytes) : Option Bytes :=
  (map.find? fun entry => entry.1 = nodeId && !entry.2.isEmpty).map Prod.snd

/-- The text before the last `-v`. -/
def virtualBase (nodeId : Bytes) : Option Bytes :=
  ((List.range nodeId.length).reverse.find? fun pos =>
    (nodeId.drop pos).take 2 = ofAscii "-v").map fun pos => nodeId.take pos

def resolveNodeAddressFromMap (map : NodeAddressMap) (nodeId : Bytes) : Option Bytes :=
  match map.find nodeId with
  | some address => some address
  | none =>
      match virtualBase nodeId with
      | none => none
      | some base => if base.isEmpty then none else map.find base

/-! ## The thread -/

/-- What becomes of a file, of the rest of a batch, and of a batch at its end. -/
inductive Entry
  | write (inodeId : UInt64) (relativePath : Bytes)
  | refused (file : ArchiveFileInfo) (reason : Refusal)
  | discarded (files : List ArchiveFileInfo)
  | flush
  deriving DecidableEq

/-- Where the thread is. -/
inductive Point
  | top
  | mapping
  | files (map : NodeAddressMap)
  | slices (map : NodeAddressMap) (file : ArchiveFileInfo) (objectUnitSize : UInt64)
      (rest : List FileObjectSlice) (content : Bytes)
  | downloaded (map : NodeAddressMap) (file : ArchiveFileInfo)
  | exited

structure ArchiveState where
  archiveTaskQueue : List SendArchiveMetadataRequest := []
  pendingArchiveRequest : Option SendArchiveMetadataRequest := none
  pendingArchiveFileIndex : Nat := 0
  stopRequested : Bool := false
  point : Point := .top

/-- What the thread meets in its next step. -/
structure Answer where
  nodeAddressMap : Option NodeAddressMap := some []
  throttled : Bool := false
  fetch : Fetch := { reply := none }
  slice : SliceAnswer := .failed
  statted : Bool := true

def relativePath (file : ArchiveFileInfo) : Bytes :=
  decimal file.inodeId.toNat ++ ofAscii ".archive"

namespace ArchiveState

/-- The thread goes on with the next file. -/
def skip (state : ArchiveState) (map : NodeAddressMap) : ArchiveState :=
  { state with
    pendingArchiveFileIndex := state.pendingArchiveFileIndex + 1
    point := .files map }

def exit (state : ArchiveState) : ArchiveState := { state with point := .exited }

/-- The batch at hand is done or given up. -/
def drop (state : ArchiveState) : ArchiveState :=
  { state with
    pendingArchiveRequest := none
    pendingArchiveFileIndex := 0
    point := .top }

/-- The head of the outer loop, with `Pop`, which waits for a batch or for the shutdown. -/
def takeBatch (state : ArchiveState) : ArchiveState :=
  if state.stopRequested then state.exit
  else
    match state.pendingArchiveRequest with
    | some _ => { state with point := .mapping }
    | none =>
        match state.archiveTaskQueue with
        | [] => state
        | request :: rest =>
            { state with
              archiveTaskQueue := rest
              pendingArchiveRequest := some request
              pendingArchiveFileIndex := 0
              point := .mapping }

def mapNodes (state : ArchiveState) (request : SendArchiveMetadataRequest) (answer : Answer) :
    ArchiveState × List Entry :=
  if request.files.isEmpty && request.endOfBatch then
    ({ state with pendingArchiveRequest := none, point := .top }, [.flush])
  else
    match answer.nodeAddressMap with
    | none => (state.drop, [.discarded (request.files.drop state.pendingArchiveFileIndex)])
    | some map => ({ state with point := .files map }, [])

/-- The head of the inner loop: a shutdown, the throttle, the next file or the end. -/
def nextFile (state : ArchiveState) (request : SendArchiveMetadataRequest) (map : NodeAddressMap)
    (answer : Answer) : ArchiveState × List Entry :=
  match request.files[state.pendingArchiveFileIndex]? with
  | none => (state.drop, if request.endOfBatch then [.flush] else [])
  | some file =>
      if state.stopRequested then (state.exit, [])
      else if answer.throttled then (state, [])
      else
        match resolveNodeAddressFromMap map file.targetNodeId with
        | none => (state.skip map, [.refused file .nodeNotFound])
        | some address =>
            match beginDownload file address answer.fetch with
            | .error reason => (state.skip map, [.refused file reason])
            | .ok (objectUnitSize, slices) =>
                ({ state with point := .slices map file objectUnitSize slices [] }, [])

def nextSlice (state : ArchiveState) (map : NodeAddressMap) (file : ArchiveFileInfo)
    (objectUnitSize : UInt64) (rest : List FileObjectSlice) (content : Bytes) (answer : Answer) :
    ArchiveState × List Entry :=
  match rest with
  | [] =>
      if answer.statted && content.length = file.size.toNat then
        ({ state with point := .downloaded map file }, [])
      else (state.skip map, [.refused file .verifySizeFailed])
  | slice :: rest =>
      -- the caller takes this for one more failed download
      if state.stopRequested then (state.skip map, [.refused file .stopped])
      else
        match fetchSlice objectUnitSize slice content answer.slice with
        | .error reason => (state.skip map, [.refused file reason])
        | .ok content => ({ state with point := .slices map file objectUnitSize rest content }, [])

/-- `SubmitWriteTaskForArchive`; the queue of the packing thread is closed after this
    thread has been joined. -/
def submitWriteTaskForArchive (state : ArchiveState) (map : NodeAddressMap)
    (file : ArchiveFileInfo) : ArchiveState × List Entry :=
  if state.stopRequested then (state.exit, [])
  else (state.skip map, [.write file.inodeId (relativePath file)])

/-- The thread goes from its point to the next one. -/
def advance (state : ArchiveState) (answer : Answer) : ArchiveState × List Entry :=
  match state.point, state.pendingArchiveRequest with
  | .top, _ => (state.takeBatch, [])
  | .mapping, some request => state.mapNodes request answer
  | .files map, some request => state.nextFile request map answer
  | .slices map file objectUnitSize rest content, some _ =>
      state.nextSlice map file objectUnitSize rest content answer
  | .downloaded map file, some _ => state.submitWriteTaskForArchive map file
  | _, _ => (state, [])

/-! ## The node -/

/-- The state of a new engine after `LoadRuntimeState` has read the section. -/
def load (data : Bytes) : ArchiveState :=
  match parseArchiveQueueSection data with
  | none => {}
  | some ((batches, pending, fileIndex), _) =>
      { archiveTaskQueue := batches
        pendingArchiveRequest := pending
        pendingArchiveFileIndex := fileIndex }

def persist (state : ArchiveState) : Bytes :=
  archiveQueueSection state.archiveTaskQueue state.pendingArchiveRequest
    state.pendingArchiveFileIndex

/-- `SendArchiveMetadata` takes the request. -/
def accepts (state : ArchiveState) (request : SendArchiveMetadataRequest) : Bool :=
  !state.stopRequested && !(request.files.isEmpty && !request.endOfBatch)

end ArchiveState

inductive ArchiveCall
  | sendArchiveMetadata (request : SendArchiveMetadataRequest)
  | advance (answer : Answer)
  /-- `Shutdown` asks the threads to stop and closes the queue. -/
  | stop
  /-- `Shutdown` has joined the thread and written the snapshot, and a new engine runs. -/
  | restart

namespace ArchiveState

def step (state : ArchiveState) : ArchiveCall → ArchiveState × List Entry
  | .sendArchiveMetadata request =>
      if state.accepts request then
        ({ state with archiveTaskQueue := state.archiveTaskQueue ++ [request] }, [])
      else (state, [])
  | .advance answer => state.advance answer
  | .stop => ({ state with stopRequested := true }, [])
  | .restart =>
      match state.point with
      | .exited => (load state.persist, [])
      | _ => (state, [])

def serve (state : ArchiveState) (call : ArchiveCall) : ArchiveState := (state.step call).1

def Serve (state : ArchiveState) (call : ArchiveCall) (state' : ArchiveState) : Prop :=
  state' = state.serve call

end ArchiveState

end Zb.OpticalNode.Archive
