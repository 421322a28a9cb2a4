-- SUMMARY: The modelled optical library: files, read tasks with their retention, and the removal of files.
import Mathlib.Data.List.AList
import ZBStorage.Lib.Bytes

/-!
# The optical read model

`scheduler/simulation/optical/OpticalReadModel.cpp` keeps the files of a modelled
library and a table of read tasks. A task that a preparation retains stays until it
is released; other tasks are dropped some time after they were ready or read. Here
the durations of drives and cache, the faults and the answers of the state store
are given from outside.
-/

namespace Zb.Simulation

open Bytes

inductive OpticalModelCode
  | ok
  | invalid
  | notFound
  | busy
  | noSpace
  | notReady
  | ioError
  deriving DecidableEq

structure OpticalReadConfig where
  retryRetention : Nat
  maxReadTasks : Nat

structure OpticalFile where
  version : UInt64
  size : UInt64
  discId : Bytes
  imageId : Bytes
  deriving DecidableEq

structure ReadTask where
  inodeId : UInt64
  version : UInt64
  size : UInt64
  readyAt : Nat
  released : Bool := false
  releasedAt : Nat := 0
  retained : Bool := false
  deriving DecidableEq

structure OpticalReadModel where
  files : AList (fun _ : UInt64 => OpticalFile) := ∅
  tasks : AList (fun _ : UInt64 => ReadTask) := ∅
  latestTask : AList (fun _ : UInt64 => UInt64) := ∅
  nextTaskId : UInt64 := 1
  /-- the inodes of the archives that are not acknowledged -/
  pendingArchives : List UInt64 := []
  paused : Bool := false

/-- What a preparation is told of its task. -/
structure OpticalPreparedInfo where
  inodeId : UInt64
  version : UInt64
  size : UInt64
  ready : Bool

namespace OpticalReadModel

/-! ## Files -/

/-- `InstallFile` and `AdvanceArchives` file an inode that is not there. -/
def emplaceFile (inodeId : UInt64) (file : OpticalFile) (model : OpticalReadModel) :
    OpticalReadModel :=
  if inodeId ∈ model.files then model
  else { model with files := model.files.insert inodeId file }

/-- The table without the tasks of the inode. -/
def tasksWithout (inodeId : UInt64) (tasks : AList (fun _ : UInt64 => ReadTask)) :
    AList (fun _ : UInt64 => ReadTask) :=
  tasks.entries.foldl
    (fun tasks entry => if entry.2.inodeId = inodeId then tasks.erase entry.1 else tasks) tasks

def removeFile (inodeId version : UInt64) (discId imageId : Bytes) (stored : Bool)
    (model : OpticalReadModel) : OpticalModelCode × OpticalReadModel :=
  if inodeId = 0 ∨ version = 0 ∨ discId = [] ∨ imageId = [] then (.invalid, model)
  else
    match model.files.lookup inodeId with
    | none => (.notFound, model)
    | some file =>
        if file.version ≠ version ∨ file.discId ≠ discId ∨ file.imageId ≠ imageId then
          (.invalid, model)
        else if model.tasks.entries.any fun entry =>
            entry.2.inodeId = inodeId && !entry.2.released then
          (.busy, model)
        else if inodeId ∈ model.pendingArchives then (.busy, model)
        else if !stored then (.ioError, model)
        else (.ok, { model with
          files := model.files.erase inodeId
          latestTask := model.latestTask.erase inodeId
          tasks := tasksWithout inodeId model.tasks })

/-! ## Tasks -/

def dropTask (taskId inodeId : UInt64) (model : OpticalReadModel) : OpticalReadModel :=
  { model with
    tasks := model.tasks.erase taskId
    latestTask :=
      if model.latestTask.lookup inodeId = some taskId then model.latestTask.erase inodeId
      else model.latestTask }

/-- The task is not retained and its retention is over. -/
def expired (config : OpticalReadConfig) (now : Nat) (task : ReadTask) : Bool :=
  !task.retained &&
    (if task.released then now - task.releasedAt > config.retryRetention
      else now - task.readyAt > config.retryRetention)

/-- Expired tasks go, as far as the store deletes them. -/
def prune (config : OpticalReadConfig) (now : Nat) (deleted : UInt64 → Bool)
    (model : OpticalReadModel) : OpticalReadModel :=
  if model.paused then model
  else
    model.tasks.entries.foldl
      (fun model entry =>
        if expired config now entry.2 && deleted entry.1 then
          model.dropTask entry.1 entry.2.inodeId
        else model) model

/-- What a request to read cannot tell from the model: an injected fault, when drive or
    cache will have it ready, if in time, and what the store answers. -/
structure ReadAnswers where
  fault : OpticalModelCode := .ok
  readyAt : Option Nat
  stored : Bool := true
  deleted : UInt64 → Bool := fun _ => true

def requestRead (config : OpticalReadConfig) (inodeId : UInt64) (discId imageId : Bytes)
    (retained : Bool) (expected : Option (UInt64 × UInt64)) (now : Nat) (answers : ReadAnswers)
    (model : OpticalReadModel) : OpticalModelCode × UInt64 × OpticalReadModel :=
  if inodeId = 0 ∨ discId = [] ∨ imageId = [] then (.invalid, 0, model)
  else if answers.fault ≠ .ok then (answers.fault, 0, model)
  else if model.paused then (.notReady, 0, model)
  else
    let model := model.prune config now answers.deleted
    match model.files.lookup inodeId with
    | none => (.notFound, 0, model)
    | some file =>
        if file.discId ≠ discId ∨ file.imageId ≠ imageId then (.notFound, 0, model)
        else if expected.any fun expected =>
            expected.1 ≠ file.size || (expected.2 ≠ 0 && expected.2 ≠ file.version) then
          (.invalid, 0, model)
        else if model.tasks.entries.length ≥ config.maxReadTasks ∨ model.nextTaskId = 0 ∨
            model.nextTaskId = 0xffffffffffffffff then
          (.busy, 0, model)
        else
          match answers.readyAt with
          | none => (.invalid, 0, model)
          | some readyAt =>
              if !answers.stored then (.ioError, 0, model)
              else
                let id := model.nextTaskId
                (.ok, id, { model with
                  nextTaskId := id + 1
                  tasks := model.tasks.insert id
                    { inodeId := inodeId
                      version := file.version
                      size := file.size
                      readyAt := readyAt
                      retained := retained }
                  latestTask := model.latestTask.insert inodeId id })

/-- The bytes a read would get, and whether it is the last one. -/
def readExtent (offset size : UInt64) (task : ReadTask) : UInt64 × Bool :=
  let count := if offset ≥ task.size then 0 else min size (task.size - offset)
  (count, offset ≥ task.size || count = task.size - offset)

/-- `ReadTaskLocked`. The last read of a task that is not retained releases it. -/
def readTask (config : OpticalReadConfig) (taskId offset size : UInt64) (now : Nat)
    (stored : Bool) (model : OpticalReadModel) : OpticalModelCode × UInt64 × OpticalReadModel :=
  if model.paused then (.notReady, 0, model)
  else
    match model.tasks.lookup taskId with
    | none => (.notFound, 0, model)
    | some task =>
        if expired config now task || (task.released && now - task.releasedAt > config.retryRetention)
        then (.notFound, 0, model)
        else if now < task.readyAt then (.notReady, 0, model)
        else if size > 4 * 1024 * 1024 then (.invalid, 0, model)
        else
          let extent := readExtent offset size task
          if !task.retained && extent.2 then
            if !task.released && !stored then (.ioError, 0, model)
            else
              (.ok, extent.1, { model with
                tasks := model.tasks.insert taskId { task with
                  released := true
                  releasedAt := if task.releasedAt = 0 then now else task.releasedAt } })
          else (.ok, extent.1, model)

def inspectPrepared (taskId : UInt64) (now : Nat) (model : OpticalReadModel) :
    Except OpticalModelCode OpticalPreparedInfo :=
  match model.tasks.lookup taskId with
  | none => .error .notFound
  | some task =>
      if !task.retained then .error .notFound
      else
        .ok { inodeId := task.inodeId
              version := task.version
              size := task.size
              ready := !model.paused && now ≥ task.readyAt }

def releasePrepared (taskId : UInt64) (stored : Bool) (model : OpticalReadModel) :
    OpticalModelCode × OpticalReadModel :=
  match model.tasks.lookup taskId with
  | none => (.notFound, model)
  | some task =>
      if !stored then (.ioError, model)
      else (.ok, model.dropTask taskId task.inodeId)

end OpticalReadModel

end Zb.Simulation
