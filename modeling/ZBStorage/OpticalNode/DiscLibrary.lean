-- SUMMARY: The disc library: tasks, drives and arms, and the schedule that every submission rebuilds from scratch.
import ZBStorage.Lib.Bookings
import ZBStorage.Lib.PriorityQueue
import ZBStorage.Lib.TableLoop

/-!
# The disc library

`CDManager`, with the durations as natural numbers that a task brings along. A schedule
keeps the spans in which the loop has used the drives and the arms.
-/

namespace Zb.OpticalNode

open TableLoop Bookings

/-! ## Tasks -/

inductive DiscTaskType
  | read
  | burn
  deriving DecidableEq

/-- `ActiveTask`, with the durations that follow from the place of its disc and its size.
    `loadStart` is a local variable of the schedule. -/
structure ActiveTask where
  type : DiscTaskType
  arrivalTime : Nat
  armMove : Nat
  inboundMove : Nat
  operation : Nat
  loadStart : Nat := 0
  predictedCompleteAt : Nat := 0
  predictedUnloadCompleteAt : Nat := 0
  completeNotified : Bool := false
  assignedDriveIndex : Option Nat := none
  assignedLoadArmIndex : Option Nat := none
  assignedUnloadArmIndex : Option Nat := none
  deriving DecidableEq

/-- A task with the time it is due or ready at. -/
structure Deadline where
  dueTime : Nat
  taskId : UInt64
  deriving DecidableEq

/-- `operator>` of the deadlines, and the order of the load and unload queues. -/
def Deadline.later (a b : Deadline) : Bool :=
  decide (a.dueTime > b.dueTime) || (decide (a.dueTime = b.dueTime) && decide (a.taskId > b.taskId))

theorem Deadline.later_eq_false {a b : Deadline} : a.later b = false ↔
    a.dueTime < b.dueTime ∨ a.dueTime = b.dueTime ∧ a.taskId.toNat ≤ b.taskId.toNat := by
  rw [later, Bool.or_eq_false_iff, decide_eq_false_iff_not, Bool.and_eq_false_iff,
    decide_eq_false_iff_not, decide_eq_false_iff_not, gt_iff_lt, gt_iff_lt, UInt64.lt_iff_toNat_lt]
  omega

instance : Comparator Deadline.later where
  asymm := by
    intro a b h
    have hnot : ¬a.later b = false := fun hfalse => Bool.false_ne_true (hfalse.symm.trans h)
    rw [Deadline.later_eq_false] at hnot ⊢
    omega
  trans := by
    intro a b c hab hbc
    rw [Deadline.later_eq_false] at hab hbc ⊢
    omega

abbrev DeadlineQueue := PriorityQueue Deadline Deadline.later

structure LibraryConfig where
  numDrives : Nat
  numArms : Nat
  driveLoad : Nat
  driveEject : Nat

/-- The active tasks, their deadlines, and the spans of the last schedule that are theirs. -/
structure CDManager where
  activeTasks : Table UInt64 ActiveTask := ∅
  readCompleteHeap : DeadlineQueue := .empty
  burnCompleteHeap : DeadlineQueue := .empty
  usedDiscCount : Nat := 0
  armUses : List (Use UInt64) := []
  driveUses : List (Use UInt64) := []

/-! ## The schedule -/

/-- The local variables of `RebuildScheduleLocked`. -/
structure Scheduling where
  tasks : Table UInt64 ActiveTask
  loadQueue : DeadlineQueue
  unloadQueue : DeadlineQueue := .empty
  driveAvailableAt : List Nat
  armAvailableAt : List Nat
  readHeap : DeadlineQueue := .empty
  burnHeap : DeadlineQueue := .empty
  armUses : List (Use UInt64) := []
  driveUses : List (Use UInt64) := []

/-- `IndexOfEarliestTime`. -/
def indexOfEarliestTime (times : List Nat) : Nat := times.idxOf (times.min?.getD 0)

def earliestTime (times : List Nat) : Nat := times.getD (indexOfEarliestTime times) 0

namespace Scheduling

variable (config : LibraryConfig) (s : Scheduling) (task : ActiveTask)

def loadStart : Nat :=
  max (max task.arrivalTime (earliestTime s.driveAvailableAt)) (earliestTime s.armAvailableAt)

def loadComplete : Nat := s.loadStart task + task.armMove + task.inboundMove

def complete : Nat := s.loadComplete task + config.driveLoad + task.operation

def unloadStart : Nat := max (earliestTime s.armAvailableAt) task.predictedCompleteAt

def unloadComplete : Nat := s.unloadStart task + config.driveEject + task.armMove

/-- The task with its load, by the arm and into the drive that are free first. -/
def loaded : ActiveTask :=
  { task with
    assignedDriveIndex := some (indexOfEarliestTime s.driveAvailableAt)
    assignedLoadArmIndex := some (indexOfEarliestTime s.armAvailableAt)
    assignedUnloadArmIndex := none
    loadStart := s.loadStart task
    predictedCompleteAt := s.complete config task
    predictedUnloadCompleteAt := s.complete config task }

/-- The task with its unload, by the arm that is free first. -/
def unloaded : ActiveTask :=
  { task with
    assignedUnloadArmIndex := some (indexOfEarliestTime s.armAvailableAt)
    predictedUnloadCompleteAt := s.unloadComplete config task }

def unload (taskId : UInt64) : Scheduling :=
  match s.tasks.lookup taskId with
  | none => s
  | some task =>
      let arm := indexOfEarliestTime s.armAvailableAt
      let unloadComplete := s.unloadComplete config task
      let unloading : Use UInt64 := ⟨arm, s.unloadStart task, unloadComplete, taskId⟩
      let placed : Scheduling := { s with
        tasks := s.tasks.insert taskId (s.unloaded config task)
        armAvailableAt := s.armAvailableAt.set arm unloadComplete
        armUses := s.armUses ++ [unloading] }
      match task.assignedDriveIndex with
      | none => placed
      | some drive =>
          { placed with
            driveAvailableAt := s.driveAvailableAt.set drive unloadComplete
            driveUses := s.driveUses ++ [⟨drive, task.loadStart, unloadComplete, taskId⟩] }

def load (taskId : UInt64) : Scheduling :=
  match s.tasks.lookup taskId with
  | none => s
  | some task =>
      let arm := indexOfEarliestTime s.armAvailableAt
      let drive := indexOfEarliestTime s.driveAvailableAt
      let complete := s.complete config task
      let loading : Use UInt64 := ⟨arm, s.loadStart task, s.loadComplete task, taskId⟩
      { s with
        tasks := s.tasks.insert taskId (s.loaded config task)
        armAvailableAt := s.armAvailableAt.set arm (s.loadComplete task)
        driveAvailableAt := s.driveAvailableAt.set drive complete
        readHeap := if task.type = .read then s.readHeap.push ⟨complete, taskId⟩ else s.readHeap
        burnHeap := if task.type = .burn then s.burnHeap.push ⟨complete, taskId⟩ else s.burnHeap
        unloadQueue := s.unloadQueue.push ⟨complete, taskId⟩
        armUses := s.armUses ++ [loading] }

/-- What the next turn of the loop does. -/
inductive Turn
  | unload (taskId : UInt64)
  | load (taskId : UInt64)
  | finished

/-- A disc is unloaded if it is ready when an arm is, or if there is nothing to load. -/
def turn : Turn :=
  match s.unloadQueue.top?, s.loadQueue.top? with
  | some unloading, some loading =>
      if unloading.dueTime ≤ earliestTime s.armAvailableAt then .unload unloading.taskId
      else .load loading.taskId
  | some unloading, none => .unload unloading.taskId
  | none, some loading => .load loading.taskId
  | none, none => .finished

def iterate : Scheduling :=
  match s.turn with
  | .unload taskId => { s with unloadQueue := s.unloadQueue.pop }.unload config taskId
  | .load taskId => { s with loadQueue := s.loadQueue.pop }.load config taskId
  | .finished => s

def run (config : LibraryConfig) : Nat → Scheduling → Scheduling
  | 0, s => s
  | fuel + 1, s => run config fuel (s.iterate config)

end Scheduling

namespace CDManager

/-- The tasks that wait for a notification, in the order of the load queue. -/
def loadQueue (tasks : Table UInt64 ActiveTask) : DeadlineQueue :=
  (tasks.entries.filter fun entry => !entry.2.completeNotified).foldl
    (fun queue entry => queue.push ⟨entry.2.arrivalTime, entry.1⟩) .empty

/-- Whether the span belongs to a task that has been notified and is not released. -/
def kept (manager : CDManager) (span : Use UInt64) : Bool :=
  match manager.activeTasks.lookup span.owner with
  | some task => task.completeNotified
  | none => false

/-- The schedule before the first turn. All drives and arms count as free now. -/
def scheduling (config : LibraryConfig) (manager : CDManager) (now : Nat) : Scheduling where
  tasks := manager.activeTasks
  loadQueue := loadQueue manager.activeTasks
  driveAvailableAt := List.replicate (max 1 config.numDrives) now
  armAvailableAt := List.replicate (max 1 config.numArms) now
  armUses := manager.armUses.filter manager.kept
  driveUses := manager.driveUses.filter manager.kept

/-- Every task is loaded once and unloaded once. -/
def turns (manager : CDManager) : Nat := 2 * (loadQueue manager.activeTasks).entries.length

/-- `RebuildScheduleLocked`. -/
def rebuildSchedule (config : LibraryConfig) (manager : CDManager) (now : Nat) : CDManager :=
  let s := (manager.scheduling config now).run config manager.turns
  { manager with
    activeTasks := s.tasks
    readCompleteHeap := s.readHeap
    burnCompleteHeap := s.burnHeap
    armUses := s.armUses
    driveUses := s.driveUses }

/-- `SubmitReadTask` and `SubmitBurnTask`. -/
def submit (manager : CDManager) (taskId : UInt64) (task : ActiveTask) : CDManager :=
  if taskId ∈ manager.activeTasks then manager
  else { manager with activeTasks := manager.activeTasks.insert taskId task }

/-- `NotifyReadCompleteLocked` and `NotifyBurnCompleteLocked`. -/
def notifyComplete (manager : CDManager) (taskId : UInt64) (now : Nat) : CDManager :=
  match manager.activeTasks.lookup taskId with
  | none => manager
  | some task =>
      if task.completeNotified ∨ now < task.predictedCompleteAt then manager
      else
        { manager with
          activeTasks := manager.activeTasks.insert taskId { task with completeNotified := true }
          usedDiscCount := manager.usedDiscCount + if task.type = .burn then 1 else 0 }

def completeRead (manager : CDManager) (now : Nat) : CDManager :=
  match manager.readCompleteHeap.top? with
  | none => manager
  | some deadline =>
      if deadline.dueTime ≤ now then
        { manager with
          readCompleteHeap := manager.readCompleteHeap.pop
        }.notifyComplete deadline.taskId now
      else manager

def completeBurn (manager : CDManager) (now : Nat) : CDManager :=
  match manager.burnCompleteHeap.top? with
  | none => manager
  | some deadline =>
      if deadline.dueTime ≤ now then
        { manager with
          burnCompleteHeap := manager.burnCompleteHeap.pop
        }.notifyComplete deadline.taskId now
      else manager

/-- `ReleaseCompletedResourcesLocked`, with the spans of the tasks that leave. -/
def releaseTask (now : Nat) (tasks : Table UInt64 ActiveTask) (taskId : UInt64) :
    Table UInt64 ActiveTask :=
  match tasks.lookup taskId with
  | some task =>
      if task.completeNotified ∧ task.predictedUnloadCompleteAt ≤ now then tasks.erase taskId
      else tasks
  | none => tasks

def releaseCompletedResources (manager : CDManager) (now : Nat) : CDManager :=
  let tasks := manager.activeTasks.keys.foldl (releaseTask now) manager.activeTasks
  { manager with
    activeTasks := tasks
    armUses := manager.armUses.filter fun span => decide (span.owner ∈ tasks)
    driveUses := manager.driveUses.filter fun span => decide (span.owner ∈ tasks) }

/-- Whether a deadline on the heap of a type is still that of its task. -/
def current (manager : CDManager) (type : DiscTaskType) (deadline : Deadline) : Bool :=
  match manager.activeTasks.lookup deadline.taskId with
  | none => false
  | some task =>
      !task.completeNotified && decide (task.type = type) &&
        decide (task.predictedCompleteAt = deadline.dueTime)

/-- `DiscardStaleDeadlinesLocked`. -/
def discardStaleDeadlines (manager : CDManager) : CDManager :=
  { manager with
    readCompleteHeap := manager.readCompleteHeap.prune (manager.current .read)
    burnCompleteHeap := manager.burnCompleteHeap.prune (manager.current .burn) }

inductive Call
  | submit (taskId : UInt64) (type : DiscTaskType) (armMove inboundMove operation : Nat)
  | rebuildSchedule
  | completeRead
  | completeBurn
  | releaseCompletedResources
  | discardStaleDeadlines

/-- A call at some time. -/
def serve (config : LibraryConfig) (manager : CDManager) (call : Nat × Call) : CDManager :=
  match call.2 with
  | .submit taskId type armMove inboundMove operation =>
      manager.submit taskId
        { type := type, arrivalTime := call.1, armMove := armMove
          inboundMove := inboundMove, operation := operation }
  | .rebuildSchedule => manager.rebuildSchedule config call.1
  | .completeRead => manager.completeRead call.1
  | .completeBurn => manager.completeBurn call.1
  | .releaseCompletedResources => manager.releaseCompletedResources call.1
  | .discardStaleDeadlines => manager.discardStaleDeadlines

/-- How many tasks wait for a notification. -/
def pendingCount (manager : CDManager) : Nat :=
  (manager.activeTasks.entries.filter fun entry => !entry.2.completeNotified).length

/-- Whether a task that waits for a notification has begun its load. -/
def underway (manager : CDManager) (now : Nat) : Bool :=
  manager.activeTasks.entries.any fun entry =>
    !entry.2.completeNotified && entry.2.assignedDriveIndex.isSome &&
      decide (entry.2.loadStart < now)

/-- Whether each task that has been notified is unloaded, or is being unloaded from a drive
    and by an arm that the schedule of the waiting tasks does not come to: the loop takes
    drives and arms in the order of their numbers. -/
def outOfTheWay (manager : CDManager) (now : Nat) : Bool :=
  manager.activeTasks.entries.all fun entry =>
    !entry.2.completeNotified || decide (entry.2.predictedUnloadCompleteAt ≤ now) ||
      decide (entry.2.predictedCompleteAt ≤ now) &&
        decide (manager.pendingCount ≤ entry.2.assignedDriveIndex.getD 0) &&
          decide (2 * manager.pendingCount ≤ entry.2.assignedUnloadArmIndex.getD 0)

/-- The rebuilds that plan no more tasks than there are drives, none of them begun, and whose
    drives and arms no other task holds. -/
def Harmless (config : LibraryConfig) (manager : CDManager) (call : Nat × Call) : Prop :=
  match call.2 with
  | .rebuildSchedule => manager.pendingCount ≤ max 1 config.numDrives ∧
      manager.outOfTheWay call.1 = true ∧ manager.underway call.1 = false
  | _ => True

end CDManager

end Zb.OpticalNode
