-- SUMMARY: The optical read client, with a step for each critical section and each reply.
import ZBStorage.Lib.Bytes
import ZBStorage.Lib.CallHistory
import ZBStorage.Lib.TableSum

/-!
# The optical read client

`OpticalReadClient` of one mount. Its maps of records are changed under one mutex,
and a step of the model is one critical section. Between them a call waits for a
reply, for the mutex of a record, or to invoke its callbacks. Records live on a
heap, since a call keeps its record when the maps forget it. That brpc
closes a stream after its messages is assumed.
-/

namespace Zb.Client.Optical

open Bytes CallHistory TableSum

/-! ## Replies -/

inductive ErrorCode
  | EINVAL
  | EInputOutput
  | ENOENT
  | EAGAIN
  | EBADF
  | EEXIST
  | ESTALE
  | ESHUTDOWN
  | ETIMEDOUT
  deriving DecidableEq

/-- `INTERNAL_ERROR` stands for every code without an errno of its own. -/
inductive OpticalStatusCode
  | OK
  | INVALID_ARGUMENT
  | NOT_FOUND
  | NOT_READY
  | STALE_GENERATION
  | CONFLICT
  | INTERNAL_ERROR
  deriving DecidableEq

def statusErrno (handle : Bool) : OpticalStatusCode → Option ErrorCode
  | .OK => none
  | .INVALID_ARGUMENT => some .EINVAL
  | .NOT_FOUND => some (if handle then .EBADF else .ENOENT)
  | .NOT_READY => some .EAGAIN
  | .STALE_GENERATION => some .ESTALE
  | .CONFLICT => some .EAGAIN
  | .INTERNAL_ERROR => some .EInputOutput

/-- How a call of the node ends. -/
inductive RpcEnd (α : Type)
  | failed (timedOut : Bool)
  | noStatus
  | replied (code : OpticalStatusCode) (reply : α)
  deriving DecidableEq

def check {α : Type} (rpc : RpcEnd α) : Except ErrorCode α :=
  match rpc with
  | .failed timedOut => .error (if timedOut then .ETIMEDOUT else .EInputOutput)
  | .noStatus => .error .EInputOutput
  | .replied code reply =>
      match statusErrno false code with
      | some error => .error error
      | none => .ok reply

structure PrepareReadReply where
  requestId : Bytes
  taskId : UInt64
  deriving DecidableEq

structure AcquireReadSessionReply where
  readHandle : UInt64
  fileSize : UInt64
  maxReadBytes : UInt32
  deriving DecidableEq

structure ReadReadyEvent where
  requestId : Bytes
  taskId : UInt64
  inodeId : UInt64
  fileSize : UInt64
  hasFileVersion : Bool
  fileVersion : UInt64
  deriving DecidableEq

/-! ## Records -/

structure FileInfo where
  nodeAddress : Bytes
  inodeId : UInt64
  diskId : Bytes
  imageId : Bytes
  fileSize : UInt64
  fileVersion : Option UInt64
  nodeId : Bytes
  instanceGeneration : UInt64
  deriving DecidableEq

structure PreparedFile where
  handle : Bytes := []
  path : Bytes := []
  size : UInt64 := 0
  deriving DecidableEq

/-- A result is a success if it has no error. -/
structure Completion where
  file : PreparedFile
  error : Option ErrorCode
  message : Bytes
  deriving DecidableEq

/-- A callback is known by the number of the `Watch` that gave it, and keeps the record
    that it was given for. -/
structure ReadyCallback where
  number : Nat
  record : Nat
  deriving DecidableEq

inductive RecordState
  | Submitting
  | Accepted
  | Ready
  | Releasing
  | Released
  | Failed
  deriving DecidableEq

/-- What tells connections apart. -/
structure ConnectionKey where
  address : Bytes
  nodeId : Bytes
  generation : UInt64
  deriving DecidableEq

def FileInfo.connection (file : FileInfo) : ConnectionKey :=
  ⟨file.nodeAddress, file.nodeId, file.instanceGeneration⟩

structure Record where
  file : FileInfo
  result : PreparedFile
  taskId : UInt64 := 0
  state : RecordState := .Submitting
  error : Option ErrorCode := none
  message : Bytes := []
  watchers : List ReadyCallback := []
  deriving DecidableEq

def fileKey (inodeId : UInt64) (version : Option UInt64) : Bytes :=
  decimal inodeId.toNat ++ ofAscii ":" ++
    match version with
    | some version => decimal version.toNat
    | none => ofAscii "none"

namespace Record

def key (record : Record) : Bytes := fileKey record.file.inodeId record.file.fileVersion

def handle (record : Record) : Bytes := record.result.handle

/-- The result is still to come. -/
def Waiting (record : Record) : Prop :=
  record.state = .Submitting ∨ record.state = .Accepted

instance (record : Record) : Decidable record.Waiting :=
  inferInstanceAs (Decidable (_ ∨ _))

def completion (record : Record) : Completion :=
  ⟨record.result, record.error, record.message⟩

/-- The message is the one that the record waits for. -/
def Answers (record : Record) (address : Bytes) (event : ReadReadyEvent) : Prop :=
  address = record.file.nodeAddress ∧ event.taskId ≠ 0 ∧
    (record.taskId = 0 ∨ record.taskId = event.taskId) ∧
    event.inodeId = record.file.inodeId ∧ event.fileSize = record.file.fileSize ∧
    event.hasFileVersion = record.file.fileVersion.isSome ∧
    ∀ version ∈ record.file.fileVersion, event.fileVersion = version

instance (record : Record) (address : Bytes) (event : ReadReadyEvent) :
    Decidable (record.Answers address event) :=
  inferInstanceAs (Decidable (_ ∧ _ ∧ _ ∧ _ ∧ _ ∧ _ ∧ _))

/-- `PrepareRead` has been answered. An error comes after what was changed. -/
def accept (record : Record) (rpc : RpcEnd PrepareReadReply) : Record × Option ErrorCode :=
  match check rpc with
  | .error error => (record, some error)
  | .ok reply =>
      if reply.requestId ≠ record.handle ∨ reply.taskId = 0 ∨
          record.taskId ≠ 0 ∧ record.taskId ≠ reply.taskId then
        (record, some .EInputOutput)
      else
        ({ record with
            taskId := if record.taskId = 0 then reply.taskId else record.taskId
            state := if record.state = .Submitting then .Accepted else record.state },
          -- a failed record has an error
          if record.state = .Failed then some (record.error.getD .EInputOutput) else none)

/-- A record that a message has come for, with its watchers taken out. -/
def onReady (record : Record) (address : Bytes) (event : ReadReadyEvent) : Record :=
  if record.Answers address event then
    { record with
      taskId := if record.taskId = 0 then event.taskId else record.taskId
      state := .Ready
      watchers := [] }
  else
    { record with
      state := .Failed
      error := some .EInputOutput
      message := ofAscii "ReadReady does not match the submitted file"
      watchers := [] }

/-- The same file in the same place. -/
def Reusable (record : Record) (file : FileInfo) : Prop :=
  (record.state = .Accepted ∨ record.state = .Ready) ∧
    record.file.nodeAddress = file.nodeAddress ∧ record.file.diskId = file.diskId ∧
    record.file.imageId = file.imageId ∧ record.file.fileSize = file.fileSize ∧
    record.file.nodeId = file.nodeId ∧
    record.file.instanceGeneration = file.instanceGeneration

instance (record : Record) (file : FileInfo) : Decidable (record.Reusable file) :=
  inferInstanceAs (Decidable (_ ∧ _ ∧ _ ∧ _ ∧ _ ∧ _ ∧ _))

end Record

/-! ## The client -/

structure ReadSession where
  record : Nat
  readHandle : UInt64
  fileSize : UInt64
  maxReadBytes : UInt32
  deriving DecidableEq

/-- Where a call stands between two critical sections. -/
inductive PendingCall
  /-- `Prepare` subscribes to the messages of the node, and then goes on -/
  | connecting (file : FileInfo) (path : Bytes)
  | connected (file : FileInfo) (path : Bytes)
  /-- `Prepare` waits for its reply, or is about to drop its record -/
  | submitting (record : Nat)
  | refused (record : Nat)
  /-- `Open` waits for the mutex of the record, then for the reply -/
  | opening (record : Nat)
  | acquiring (record : Nat)
  /-- `Release` waits for the mutex of the record, then for the reply -/
  | leaving (record : Nat)
  | releasing (record : Nat)
  deriving DecidableEq

/-- The call holds the mutex of the record. -/
def PendingCall.operates (ref : Nat) : PendingCall → Bool
  | .acquiring id => id = ref
  | .releasing id => id = ref
  | _ => false

inductive Deliverer
  | stream (connection : ConnectionKey)
  | watch
  | stop
  deriving DecidableEq

/-- Callbacks that are being invoked. -/
structure Delivery where
  deliverer : Deliverer
  callbacks : List ReadyCallback
  completion : Completion
  deriving DecidableEq

/-- The call of `Stop` that stops the client. -/
inductive StopCall
  | none
  | closing (connections : List ConnectionKey) (callbacks : List ReadyCallback)
  | delivering
  | returned
  deriving DecidableEq

/-- `created` counts the records. `accepted`, `invoked`, `received` and `refusals` keep
    what happened: the callbacks taken, the results they were given, the messages, and
    the requests whose preparation failed. -/
structure OpticalReadClient where
  instanceId : Bytes
  readChunkBytes : UInt32 := 0
  stopped : Bool := false
  nextRequest : UInt64 := 1
  connections : AList (fun _ : ConnectionKey => UInt64) := ∅
  heap : AList (fun _ : Nat => Record) := ∅
  records : AList (fun _ : Bytes => Nat) := ∅
  active : AList (fun _ : Bytes => Nat) := ∅
  created : Nat := 0
  sessions : List ReadSession := []
  pending : List PendingCall := []
  deliveries : List Delivery := []
  stopCall : StopCall := .none
  accepted : List ReadyCallback := []
  invoked : List (ReadyCallback × Completion) := []
  received : List (ConnectionKey × ReadReadyEvent) := []
  refusals : List Bytes := []
  /-- some call of `Stop` has returned -/
  stopReturned : Bool := false

/-- What `Prepare` finds under the key of its file. -/
inductive PrepareAnswer
  | refused (error : ErrorCode)
  | reused (handle : Bytes)
  | fresh
  deriving DecidableEq

inductive ClientCall
  | prepare (file : FileInfo) (path : Bytes)
  | subscribed (file : FileInfo) (path : Bytes) (rpc : RpcEnd UInt64)
  | submit (file : FileInfo) (path : Bytes)
  | prepared (record : Nat) (rpc : RpcEnd PrepareReadReply)
  | forget (record : Nat)
  | watch (handle : Bytes)
  | open_ (inodeId : UInt64) (version : Option UInt64)
  | acquire (record : Nat)
  | acquired (record : Nat) (rpc : RpcEnd AcquireReadSessionReply)
  | release (handle : Bytes)
  | sendRelease (record : Nat)
  | released (record : Nat) (rpc : RpcEnd Unit)
  | onReady (connection : ConnectionKey) (event : ReadReadyEvent)
  /-- the first callback of a delivery -/
  | invoke (delivery : Delivery)
  | stop
  | closeStream
  | deliverStopped
  | stopReturns
  deriving DecidableEq

def emplace {α β : Type} [DecidableEq α] (map : AList fun _ : α => β) (key : α) (value : β) :
    AList fun _ : α => β :=
  if key ∈ map then map else map.insert key value

def requestId (instanceId : Bytes) (number : UInt64) : Bytes :=
  instanceId ++ ofAscii ":" ++ decimal number.toNat

def delivery (deliverer : Deliverer) (callbacks : List ReadyCallback) (completion : Completion) :
    List Delivery :=
  if callbacks = [] then [] else [⟨deliverer, callbacks, completion⟩]

/-- Take the watchers out of some records. -/
def takeWatchers (heap : AList fun _ : Nat => Record) :
    List Nat → (AList fun _ : Nat => Record) × List ReadyCallback
  | [] => (heap, [])
  | ref :: refs =>
      match heap.lookup ref with
      | none => takeWatchers heap refs
      | some record =>
          let taken := takeWatchers (heap.insert ref { record with watchers := [] }) refs
          (taken.1, record.watchers ++ taken.2)

def stoppedCompletion : Completion := ⟨{}, some .ESHUTDOWN, ofAscii "optical client stopped"⟩

namespace OpticalReadClient

def setRecord (client : OpticalReadClient) (ref : Nat) (record : Record) : OpticalReadClient :=
  { client with heap := client.heap.insert ref record }

/-- The maps forget a record. -/
def forget (client : OpticalReadClient) (record : Record) : OpticalReadClient :=
  { client with
    active := client.active.erase record.key
    records := client.records.erase record.handle }

def after (client : OpticalReadClient) (call : PendingCall) (next : List PendingCall) :
    OpticalReadClient :=
  { client with pending := next ++ client.pending.erase call }

def delivers (client : OpticalReadClient) (deliverer : Deliverer) : Bool :=
  client.deliveries.any fun delivery => delivery.deliverer = deliverer

/-- The session of a connection, which is asked for once. -/
def subscribe (client : OpticalReadClient) (file : FileInfo) (rpc : RpcEnd UInt64) :
    Except ErrorCode UInt64 :=
  let session := (client.connections.lookup file.connection).getD 0
  if session ≠ 0 then .ok session
  else
    match check rpc with
    | .error error => .error error
    | .ok session => if session = 0 then .error .EInputOutput else .ok session

def prepareAnswer (client : OpticalReadClient) (file : FileInfo) : PrepareAnswer :=
  if client.stopped then .refused .ESHUTDOWN
  else
    match client.active.lookup (fileKey file.inodeId file.fileVersion) with
    | none => .fresh
    | some ref =>
        match client.heap.lookup ref with
        | none => .refused .EEXIST
        | some record =>
            if record.Reusable file then .reused record.handle else .refused .EEXIST

/-- `Prepare` puts a new record into both maps. -/
def insertRecord (client : OpticalReadClient) (file : FileInfo) (path : Bytes) :
    OpticalReadClient :=
  let record : Record :=
    { file := file
      result := ⟨requestId client.instanceId client.nextRequest, path, file.fileSize⟩ }
  { client with
    nextRequest := client.nextRequest + 1
    heap := client.heap.insert client.created record
    records := emplace client.records record.handle client.created
    active := emplace client.active record.key client.created
    created := client.created + 1 }

def readSession (client : OpticalReadClient) (ref : Nat) (record : Record)
    (rpc : RpcEnd AcquireReadSessionReply) : List ReadSession :=
  match check rpc with
  | .error _ => []
  | .ok reply =>
      if reply.readHandle = 0 ∨ reply.maxReadBytes = 0 ∨
          reply.fileSize ≠ record.file.fileSize then []
      else
        [{ record := ref
           readHandle := reply.readHandle
           fileSize := reply.fileSize
           maxReadBytes :=
            if client.readChunkBytes = 0 ∨ reply.maxReadBytes < client.readChunkBytes then
              reply.maxReadBytes
            else client.readChunkBytes }]

/-- The step of a call, if it can be made and does not throw at once. -/
def serve (client : OpticalReadClient) : ClientCall → Option OpticalReadClient
  | .prepare file path =>
      if file.inodeId = 0 ∨ file.nodeAddress = [] ∨ file.diskId = [] ∨ file.imageId = [] ∨
          path = [] ∨ file.nodeId ≠ [] ∧ file.instanceGeneration = 0 ∨ client.stopped then none
      else some { client with
        connections := emplace client.connections file.connection 0
        pending := .connecting file path :: client.pending }
  | .subscribed file path rpc =>
      if .connecting file path ∉ client.pending then none
      else
        match client.subscribe file rpc with
        | .error _ => some (client.after (.connecting file path) [])
        | .ok session => some ({ client with
            connections := client.connections.insert file.connection session }.after
              (.connecting file path) [.connected file path])
  | .submit file path =>
      if .connected file path ∉ client.pending then none
      else
        match client.prepareAnswer file with
        | .fresh => some ((client.insertRecord file path).after (.connected file path)
            [.submitting client.created])
        | _ => some (client.after (.connected file path) [])
  | .prepared ref rpc =>
      match client.heap.lookup ref with
      | none => none
      | some record =>
          if .submitting ref ∉ client.pending then none
          else
            let accepted := record.accept rpc
            some ((client.setRecord ref accepted.1).after (.submitting ref)
              (if accepted.2.isSome then [.refused ref] else []))
  | .forget ref =>
      match client.heap.lookup ref with
      | none => none
      | some record =>
          if .refused ref ∉ client.pending then none
          else some ({ client.forget record with
            refusals := record.handle :: client.refusals }.after (.refused ref) [])
  | .watch handle =>
      match client.records.lookup handle with
      | none => none
      | some ref =>
          match client.heap.lookup ref with
          | none => none
          | some record =>
              let callback : ReadyCallback := ⟨client.accepted.length, ref⟩
              if client.stopped then none
              else if record.Waiting then
                some { client.setRecord ref
                    { record with watchers := record.watchers ++ [callback] } with
                  accepted := callback :: client.accepted }
              else if record.state = .Ready ∨ record.state = .Failed then
                some { client with
                  accepted := callback :: client.accepted
                  deliveries := delivery .watch [callback] record.completion ++ client.deliveries }
              else none
  | .open_ inodeId version =>
      match client.active.lookup (fileKey inodeId version) with
      | none => none
      | some ref =>
          if client.stopped then none
          else some { client with pending := .opening ref :: client.pending }
  | .acquire ref =>
      match client.heap.lookup ref with
      | none => none
      | some record =>
          if .opening ref ∉ client.pending ∨ client.pending.any (·.operates ref) then none
          else some (client.after (.opening ref)
            (if record.state = .Ready then [.acquiring ref] else []))
  | .acquired ref rpc =>
      match client.heap.lookup ref with
      | none => none
      | some record =>
          if .acquiring ref ∉ client.pending then none
          else
            match rpc with
            | .replied .NOT_FOUND _ => some (((client.setRecord ref
                { record with state := .Released }).forget record).after (.acquiring ref) [])
            | rpc => some ({ client with
                sessions := client.readSession ref record rpc ++ client.sessions }.after
                  (.acquiring ref) [])
  | .release handle =>
      match client.records.lookup handle with
      | none => none
      | some ref => some { client with pending := .leaving ref :: client.pending }
  | .sendRelease ref =>
      match client.heap.lookup ref with
      | none => none
      | some record =>
          if .leaving ref ∉ client.pending ∨ client.pending.any (·.operates ref) then none
          else if record.state = .Ready then
            some ((client.setRecord ref { record with state := .Releasing }).after
              (.leaving ref) [.releasing ref])
          else some (client.after (.leaving ref) [])
  | .released ref rpc =>
      match client.heap.lookup ref with
      | none => none
      | some record =>
          if .releasing ref ∉ client.pending then none
          else
            match check rpc with
            | .error _ => some (client.after (.releasing ref) [])
            | .ok _ => some (((client.setRecord ref
                { record with state := .Released }).forget record).after (.releasing ref) [])
  | .onReady connection event =>
      if connection ∉ client.connections then none
      else
        let received := { client with received := (connection, event) :: client.received }
        match client.records.lookup event.requestId with
        | none => some received
        | some ref =>
            match client.heap.lookup ref with
            | none => some received
            | some record =>
                if client.stopped ∨ ¬record.Waiting then some received
                else
                  let answered := record.onReady connection.address event
                  some { received.setRecord ref answered with
                    deliveries := delivery (.stream connection) record.watchers
                      answered.completion ++ client.deliveries }
  | .invoke now =>
      match now.callbacks with
      | [] => none
      | callback :: callbacks =>
          if now ∉ client.deliveries then none
          else some { client with
            deliveries := delivery now.deliverer callbacks now.completion ++ client.deliveries.erase now
            invoked := (callback, now.completion) :: client.invoked }
  | .stop =>
      if client.stopped then some { client with stopReturned := true }
      else
        let taken := takeWatchers client.heap (client.records.entries.map (·.2))
        some { client with
          stopped := true
          heap := taken.1
          stopCall := .closing client.connections.keys taken.2 }
  | .closeStream =>
      match client.stopCall with
      | .closing (connection :: connections) callbacks =>
          -- the stream is closed once no message of it is being handled
          if client.delivers (.stream connection) then none
          else some { client with stopCall := .closing connections callbacks }
      | _ => none
  | .deliverStopped =>
      match client.stopCall with
      | .closing [] callbacks => some { client with
          stopCall := .delivering
          deliveries := delivery .stop callbacks stoppedCompletion ++ client.deliveries }
      | _ => none
  | .stopReturns =>
      if client.stopCall ≠ .delivering ∨ client.delivers .stop then none
      else some { client with stopCall := .returned, stopReturned := true }

def Serve (client : OpticalReadClient) (call : ClientCall) (client' : OpticalReadClient) : Prop :=
  client.serve call = some client'

end OpticalReadClient

end Zb.Client.Optical
