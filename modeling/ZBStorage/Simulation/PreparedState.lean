-- SUMMARY: Prepared reads of modelled libraries: subscriptions, preparations, handles and the notification thread.
import ZBStorage.Simulation.OpticalReadModel

/-!
# Prepared reads

The critical sections of `scheduler/simulation/service/InProcessOpticalPrepared.cpp`.
A preparation is held by the request that made it, and read through handles; when
neither is left its task is released in the model. Preparations are shared, so they
live in a heap of their own, and the tables refer to them.
-/

namespace Zb.Simulation

open Bytes

inductive OpticalStatusCode
  | ok
  | invalidArgument
  | notFound
  | notReady
  | internalError
  deriving DecidableEq

def statusOf : OpticalModelCode → OpticalStatusCode
  | .ok => .ok
  | .invalid => .invalidArgument
  | .notFound => .notFound
  | .busy => .notReady
  | .notReady => .notReady
  | .noSpace => .internalError
  | .ioError => .internalError

structure PrepareReadRequest where
  sessionId : Nat := 0
  requestId : Bytes := []
  inodeId : UInt64 := 0
  diskId : Bytes := []
  imageId : Bytes := []
  fileSize : UInt64 := 0
  fileVersion : Option UInt64 := none
  deriving DecidableEq

structure Subscription where
  nodeId : Bytes
  stream : Nat

structure Preparation where
  request : PrepareReadRequest := {}
  nodeId : Bytes := []
  taskId : UInt64 := 0
  readers : Int := 0
  held : Bool := true
  notified : Bool := false
  removed : Bool := false
  readySince : Nat := 0
  removedAt : Nat := 0

/-- A task of a node. -/
abbrev TaskKey : Type := Bytes × UInt64

/-- A request of a session. -/
abbrev RequestKey : Type := Nat × Bytes

def Preparation.taskKey (task : Preparation) : TaskKey := (task.nodeId, task.taskId)

def Preparation.requestKey (task : Preparation) : RequestKey :=
  (task.request.sessionId, task.request.requestId)

structure PreparedState where
  models : Bytes → OpticalReadModel
  subscriptions : AList (fun _ : Nat => Subscription) := ∅
  tasks : AList (fun _ : TaskKey => Nat) := ∅
  requests : AList (fun _ : RequestKey => Nat) := ∅
  handles : AList (fun _ : Nat => Nat) := ∅
  nextSession : Nat := 1
  nextHandle : Nat := 1
  preparations : Nat → Preparation := fun _ => {}
  nextPreparation : Nat := 0
  /-- the tasks that were released in their models -/
  releases : List TaskKey := []

/-- What a reply says besides its status. -/
structure Reply where
  code : OpticalStatusCode
  value : Nat := 0
  deriving DecidableEq

namespace PreparedState

def maxSessions : Nat := 4096
def maxHandles : Nat := 65536
def maxReadBytes : UInt64 := 4 * 1024 * 1024

def setModel (nodeId : Bytes) (model : OpticalReadModel) (s : PreparedState) : PreparedState :=
  { s with models := Function.update s.models nodeId model }

def setPreparation (p : Nat) (task : Preparation) (s : PreparedState) : PreparedState :=
  { s with preparations := Function.update s.preparations p task }

/-- Releases the task in the model once nothing refers to the preparation. -/
def cleanup (p now : Nat) (stored : Bool) (s : PreparedState) :
    OpticalModelCode × PreparedState :=
  let task := s.preparations p
  if task.held ∨ task.readers ≠ 0 ∨ task.removed then (.ok, s)
  else
    let answer := (s.models task.nodeId).releasePrepared task.taskId stored
    let s := s.setModel task.nodeId answer.2
    let s := { s with releases := if answer.1 = .ok then task.taskKey :: s.releases else s.releases }
    if answer.1 = .ok ∨ answer.1 = .notFound then
      (.ok, s.setPreparation p { task with removed := true, removedAt := now })
    else (answer.1, s)

/-- Gives the reference of the request up. -/
def unhold (p now : Nat) (stored : Bool) (s : PreparedState) : OpticalModelCode × PreparedState :=
  (s.setPreparation p { s.preparations p with held := false }).cleanup p now stored

/-- Gives one handle up, without a clean-up. -/
def dropHandle (handle p : Nat) (s : PreparedState) : PreparedState :=
  let task := s.preparations p
  { s.setPreparation p { task with readers := task.readers - 1 } with
    handles := s.handles.erase handle }

/-! ## Calls -/

/-- `accepted` says that the node is there and the stream was accepted. -/
def subscribeReadEvents (nodeId clientId : Bytes) (stream : Nat) (accepted : Bool)
    (s : PreparedState) : Reply × PreparedState :=
  if clientId = [] ∨ clientId.length > 256 then (⟨.invalidArgument, 0⟩, s)
  else if s.subscriptions.entries.length ≥ maxSessions then (⟨.notReady, 0⟩, s)
  else if !accepted then (⟨.invalidArgument, 0⟩, s)
  else
    (⟨.ok, s.nextSession⟩, { s with
      nextSession := s.nextSession + 1
      subscriptions := s.subscriptions.insert s.nextSession ⟨nodeId, stream⟩ })

def prepareRead (config : OpticalReadConfig) (nodeId : Bytes) (request : PrepareReadRequest)
    (now : Nat) (answers : OpticalReadModel.ReadAnswers) (s : PreparedState) :
    Reply × PreparedState :=
  if request.requestId = [] ∨ request.requestId.length > 256 ∨ request.fileVersion = some 0 then
    (⟨.invalidArgument, 0⟩, s)
  else if !(s.subscriptions.lookup request.sessionId).any fun subscription =>
      subscription.nodeId = nodeId then
    (⟨.notFound, 0⟩, s)
  else
    match s.requests.lookup (request.sessionId, request.requestId) with
    | some p =>
        if (s.preparations p).request ≠ request then (⟨.invalidArgument, 0⟩, s)
        else if !(s.preparations p).held then (⟨.notFound, 0⟩, s)
        else (⟨.ok, (s.preparations p).taskId.toNat⟩, s)
    | none =>
        if s.tasks.entries.length ≥ maxHandles then (⟨.notReady, 0⟩, s)
        else
          let answer := (s.models nodeId).requestRead config request.inodeId request.diskId
            request.imageId true (some (request.fileSize, request.fileVersion.getD 0)) now answers
          let s := s.setModel nodeId answer.2.2
          if answer.1 ≠ .ok then (⟨statusOf answer.1, 0⟩, s)
          else
            let task : Preparation :=
              { request := request, nodeId := nodeId, taskId := answer.2.1 }
            let p := s.nextPreparation
            (⟨.ok, task.taskId.toNat⟩, { s.setPreparation p task with
              nextPreparation := p + 1
              tasks := s.tasks.insert task.taskKey p
              requests := s.requests.insert task.requestKey p })

def acquireReadSession (nodeId : Bytes) (taskId : UInt64) (now : Nat) (s : PreparedState) :
    Reply × PreparedState :=
  match s.tasks.lookup (nodeId, taskId) with
  | none => (⟨.notFound, 0⟩, s)
  | some p =>
      let task := s.preparations p
      if !task.held then (⟨.notFound, 0⟩, s)
      else
        match (s.models nodeId).inspectPrepared task.taskId now with
        | .error code => (⟨statusOf code, 0⟩, s)
        | .ok info =>
            if !info.ready ∨ s.handles.entries.length ≥ maxHandles then (⟨.notReady, 0⟩, s)
            else
              (⟨.ok, s.nextHandle⟩,
                { s.setPreparation p { task with readers := task.readers + 1 } with
                  nextHandle := s.nextHandle + 1
                  handles := s.handles.insert s.nextHandle p })

/-- The preparation that a handle of the node reads. -/
def openHandle (nodeId : Bytes) (handle : Nat) (s : PreparedState) : Option Nat :=
  (s.handles.lookup handle).filter fun p => (s.preparations p).nodeId = nodeId

/-- `ReadTask` prunes the table of tasks first. -/
def readPreparedFile (config : OpticalReadConfig) (nodeId : Bytes) (handle : Nat)
    (offset size : UInt64) (now : Nat) (stored : Bool) (deleted : UInt64 → Bool)
    (s : PreparedState) : Reply × PreparedState :=
  match s.openHandle nodeId handle with
  | none => (⟨.notFound, 0⟩, s)
  | some p =>
      if size > maxReadBytes then (⟨.invalidArgument, 0⟩, s)
      else
        let answer := ((s.models nodeId).prune config now deleted).readTask config
          (s.preparations p).taskId offset size now stored
        (⟨statusOf answer.1, answer.2.1.toNat⟩, s.setModel nodeId answer.2.2)

def releaseReadSession (nodeId : Bytes) (handle now : Nat) (stored : Bool) (s : PreparedState) :
    Reply × PreparedState :=
  match s.openHandle nodeId handle with
  | none => (⟨.notFound, 0⟩, s)
  | some p =>
      let answer := (s.dropHandle handle p).cleanup p now stored
      (⟨statusOf answer.1, 0⟩, answer.2)

def releasePreparedRead (nodeId : Bytes) (taskId : UInt64) (now : Nat) (stored : Bool)
    (s : PreparedState) : Reply × PreparedState :=
  match s.tasks.lookup (nodeId, taskId) with
  | none => (⟨.notFound, 0⟩, s)
  | some p =>
      let answer := s.unhold p now stored
      (⟨statusOf answer.1, 0⟩, answer.2)

/-! ## Streams and the notification thread -/

/-- The handles of a session that is gone. -/
def dropHandles (sessionId : Nat) (s : PreparedState) : PreparedState :=
  s.handles.entries.foldl
    (fun s entry =>
      if (s.preparations entry.2).request.sessionId = sessionId then s.dropHandle entry.1 entry.2
      else s) s

/-- The requests of a session that is gone. -/
def unholdRequests (sessionId now : Nat) (stored : Nat → Bool) (s : PreparedState) :
    PreparedState :=
  s.requests.entries.foldl
    (fun s entry =>
      if entry.1.1 = sessionId then (s.unhold entry.2 now (stored entry.2)).2 else s) s

def onClosed (stream now : Nat) (stored : Nat → Bool) (s : PreparedState) : PreparedState :=
  match s.subscriptions.entries.find? fun entry => entry.2.stream = stream with
  | none => s
  | some entry =>
      let s := (s.dropHandles entry.1).unholdRequests entry.1 now stored
      { s with subscriptions := s.subscriptions.erase entry.1 }

/-- The turn of a task in a pass of the notification thread. `available` says that the
    node may notify; the message itself is sent without the lock. -/
def runTask (config : OpticalReadConfig) (key : TaskKey) (now : Nat) (available stored : Bool)
    (s : PreparedState) : PreparedState :=
  match s.tasks.lookup key with
  | none => s
  | some p =>
      let task := s.preparations p
      if task.removed && now - task.removedAt > config.retryRetention then
        { s with requests := s.requests.erase task.requestKey, tasks := s.tasks.erase key }
      else if !task.held then (s.cleanup p now stored).2
      else if task.notified && task.readers = 0 &&
          now - task.readySince > config.retryRetention then
        (s.unhold p now stored).2
      else if !available then s
      else
        match (s.models task.nodeId).inspectPrepared task.taskId now with
        | .error _ => s
        | .ok info =>
            if info.ready && task.readySince = 0 then
              s.setPreparation p { task with readySince := now }
            else s

/-! ## Steps -/

/-- What happens at the service and at the models behind it, one critical section at a
    time. -/
inductive Event
  | subscribe (nodeId clientId : Bytes) (stream : Nat) (accepted : Bool)
  | prepare (nodeId : Bytes) (request : PrepareReadRequest) (now : Nat)
      (answers : OpticalReadModel.ReadAnswers)
  | acquire (nodeId : Bytes) (taskId : UInt64) (now : Nat)
  | read (nodeId : Bytes) (handle : Nat) (offset size : UInt64) (now : Nat) (stored : Bool)
      (deleted : UInt64 → Bool)
  | releaseSession (nodeId : Bytes) (handle now : Nat) (stored : Bool)
  | releasePrepared (nodeId : Bytes) (taskId : UInt64) (now : Nat) (stored : Bool)
  | close (stream now : Nat) (stored : Nat → Bool)
  | turn (key : TaskKey) (now : Nat) (available stored : Bool)
  /-- the message about a preparation was written -/
  | notified (p : Nat)
  | emplaceFile (nodeId : Bytes) (inodeId : UInt64) (file : OpticalFile)
  | removeFile (nodeId : Bytes) (inodeId version : UInt64) (discId imageId : Bytes)
      (stored : Bool)
  /-- a read that no preparation retains -/
  | requestRead (nodeId : Bytes) (inodeId : UInt64) (discId imageId : Bytes) (now : Nat)
      (answers : OpticalReadModel.ReadAnswers)
  | readTask (nodeId : Bytes) (taskId offset size : UInt64) (now : Nat) (stored : Bool)
      (deleted : UInt64 → Bool)
  | setArchives (nodeId : Bytes) (inodes : List UInt64)
  | setPaused (nodeId : Bytes) (paused : Bool)

def step (config : OpticalReadConfig) (s : PreparedState) : Event → PreparedState
  | .subscribe nodeId clientId stream accepted =>
      (s.subscribeReadEvents nodeId clientId stream accepted).2
  | .prepare nodeId request now answers => (s.prepareRead config nodeId request now answers).2
  | .acquire nodeId taskId now => (s.acquireReadSession nodeId taskId now).2
  | .read nodeId handle offset size now stored deleted =>
      (s.readPreparedFile config nodeId handle offset size now stored deleted).2
  | .releaseSession nodeId handle now stored => (s.releaseReadSession nodeId handle now stored).2
  | .releasePrepared nodeId taskId now stored =>
      (s.releasePreparedRead nodeId taskId now stored).2
  | .close stream now stored => s.onClosed stream now stored
  | .turn key now available stored => s.runTask config key now available stored
  | .notified p => s.setPreparation p { s.preparations p with notified := true }
  | .emplaceFile nodeId inodeId file =>
      s.setModel nodeId ((s.models nodeId).emplaceFile inodeId file)
  | .removeFile nodeId inodeId version discId imageId stored =>
      s.setModel nodeId ((s.models nodeId).removeFile inodeId version discId imageId stored).2
  | .requestRead nodeId inodeId discId imageId now answers =>
      s.setModel nodeId
        ((s.models nodeId).requestRead config inodeId discId imageId false none now answers).2.2
  | .readTask nodeId taskId offset size now stored deleted =>
      s.setModel nodeId (((s.models nodeId).prune config now deleted).readTask config taskId offset
        size now stored).2.2
  | .setArchives nodeId inodes =>
      s.setModel nodeId { s.models nodeId with pendingArchives := inodes }
  | .setPaused nodeId paused => s.setModel nodeId { s.models nodeId with paused := paused }

def run (config : OpticalReadConfig) (s : PreparedState) (events : List Event) : PreparedState :=
  events.foldl (step config) s

end PreparedState

end Zb.Simulation
