-- SUMMARY: Lifecycle operations with their records, and what a failed start, stop or reboot puts back.
import ZBStorage.Lib.TextFields
import ZBStorage.Scheduler.LifecycleManager
import ZBStorage.Scheduler.PowerReplay

/-!
# Failed lifecycle operations

An operation is entered into a table, and closed there when the actuator has answered.
When the actuator fails, the operation sets the node back to what it had read of it. It
had read the legacy view: three administrative states, and a power that is on or off.
-/

namespace Zb.Scheduler

open Zb.StorageModel Bytes TableLoop TextFields CallHistory
open NodePowerManager (afterAll field_eq serves_afterAll historyOf)

/-! ## The table of operations -/

inductive NodeOperationStatus
  | pending
  | running
  | succeeded
  | failed
  deriving DecidableEq, Repr

structure NodeOperationState where
  operationId : Bytes
  nodeId : Bytes
  operationType : NodeOperationType
  status : NodeOperationStatus
  message : Bytes
  startTsMs : UInt64
  finishTsMs : UInt64 := 0

structure OperationTable where
  operations : AList (fun _ : Bytes => NodeOperationState) := ∅
  nextOperationId : UInt64 := 1

def operationId (number : Nat) : Bytes := ofAscii "op-" ++ decimal number

/-- The number of an id of a snapshot, which `std::stoull` must read to the end. -/
def operationNumber (id : Bytes) : Option UInt64 :=
  let suffix := id.drop 3
  let number := suffix.dropWhile isSpace
  let unsigned := if number.head? = some 43 ∨ number.head? = some 45 then number.tail else number
  if (ofAscii "op-").isPrefixOf id ∧ unsigned.all isDigit then
    (stoull suffix).filter fun number => number ≠ 0 ∧ number ≠ Saturating.largest
  else none

namespace OperationTable

/-- `CreateOperation`, for a node that is there. -/
def createOperation (table : OperationTable) (nodeId : Bytes) (type : NodeOperationType)
    (message : Bytes) (nowMs : UInt64) : Except Bytes (NodeOperationState × OperationTable) :=
  if table.nextOperationId = Saturating.largest then
    .error (ofAscii "lifecycle operation sequence exhausted")
  else
    match table.operations.entries.find? fun entry =>
        entry.2.nodeId = nodeId ∧ entry.2.status = .running with
    | some entry => .error (ofAscii "node lifecycle operation already running: " ++ entry.1)
    | none =>
        let operation : NodeOperationState :=
          { operationId := operationId table.nextOperationId.toNat
            nodeId := nodeId
            operationType := type
            status := .running
            message := message
            startTsMs := nowMs }
        .ok (operation,
          { operations := table.operations.insert operation.operationId operation
            nextOperationId := table.nextOperationId + 1 })

def closed (operation : NodeOperationState) (status : NodeOperationStatus) (message : Bytes)
    (nowMs : UInt64) : NodeOperationState :=
  { operation with
    status := status
    message := message
    finishTsMs :=
      if status = .succeeded ∨ status = .failed then nowMs else operation.finishTsMs }

def updateOperation (table : OperationTable) (id : Bytes) (status : NodeOperationStatus)
    (message : Bytes) (nowMs : UInt64) : OperationTable :=
  match table.operations.lookup id with
  | none => table
  | some operation =>
      { table with operations := table.operations.insert id (closed operation status message nowMs) }

/-- What a restart makes of an operation: nobody will close it any more. -/
def restoredOperation (operation : NodeOperationState) (nowMs : UInt64) : NodeOperationState :=
  if operation.status = .running ∨ operation.status = .pending then
    { operation with
      status := .failed
      finishTsMs := nowMs
      message :=
        ofAscii "Scheduler restarted during operation; query node/CMS state before retry" }
  else operation

/-- The loop of `RestoreOperations`, with the least number that may come next. -/
def restoreLoop (nowMs : UInt64) :
    List NodeOperationState → OperationTable → Except Bytes OperationTable
  | [], restored => .ok restored
  | operation :: input, restored =>
      match operationNumber operation.operationId with
      | none => .error (ofAscii "invalid persisted lifecycle operation ID")
      | some number =>
          if operation.nodeId = [] ∨ operation.operationId ∈ restored.operations then
            .error (ofAscii "invalid or duplicate persisted lifecycle operation")
          else
            restoreLoop nowMs input
              { operations := restored.operations.insert operation.operationId
                  (restoredOperation operation nowMs)
                nextOperationId := max restored.nextOperationId (number + 1) }

def restoreOperations (input : List NodeOperationState) (nextId nowMs : UInt64) :
    Except Bytes OperationTable := do
  let restored ← restoreLoop nowMs input {}
  if nextId = Saturating.largest ∨ (nextId ≠ 0 ∧ nextId < restored.nextOperationId) then
    .error (ofAscii "invalid persisted lifecycle operation sequence")
  else return { restored with nextOperationId := max nextId restored.nextOperationId }

end OperationTable

/-! ## Operations -/

structure ActuatorResult where
  success : Bool
  message : Bytes

/-- The nodes, and the operations on them. -/
structure Cluster where
  manager : NodePowerManager := {}
  operations : OperationTable := {}

namespace Cluster

open ClusterState LifecycleManager

/-- Why a stop without force is refused. -/
def stopRefusal (node : NodeState) : Bytes :=
  if node.opticalLocalDiscCount ≠ 0 then
    ofAscii "safe stop rejected: optical library still has local discs"
  else ofAscii "safe stop rejected: node still has resident data"

section RunOperation

variable (policy : PowerPolicy) (num : Numerics)

def serve (manager : NodePowerManager) (nodeId : Bytes) (calls : List NodeCall) :
    NodePowerManager :=
  manager.afterAll policy num (calls.map (.node nodeId))

/-- `RunOperation` without anything in between, with the readings of the clock and the
    answer of the actuator. It returns the record of the operation, too. -/
def runOperation (cluster : Cluster) (clock : Nat → UInt64) (startMs finishMs : UInt64)
    (result : ActuatorResult) (nodeId : Bytes) (type : NodeOperationType) (force : Bool)
    (reason : Bytes) : Except Bytes Unit × Option NodeOperationState × Cluster :=
  match cluster.manager.nodes.lookup nodeId with
  | none => (.error (ofAscii "node not found: " ++ nodeId), none, cluster)
  | some node =>
      let state := buildNodeState node
      if refusesStop type force state then (.error (stopRefusal state), none, cluster)
      else
        match cluster.operations.createOperation nodeId type reason startMs with
        | .error error => (.error error, none, cluster)
        | .ok (operation, operations) =>
            let calls := prepareCalls clock type ++
              if result.success then confirmCalls clock type else revertCalls clock state
            let operations := operations.updateOperation operation.operationId
              (if result.success then .succeeded else .failed) result.message finishMs
            (if result.success then .ok () else .error result.message,
              operations.operations.lookup operation.operationId,
              { manager := serve policy num cluster.manager nodeId calls
                operations := operations })

end RunOperation

end Cluster

/-- What can happen to the nodes and the operations. A restart reads a snapshot file. -/
inductive ClusterCall
  | manager (call : ManagerCall)
  | create (nodeId : Bytes) (type : NodeOperationType) (message : Bytes) (nowMs : UInt64)
  | update (id : Bytes) (status : NodeOperationStatus) (message : Bytes) (nowMs : UInt64)
  | restart (input : List NodeOperationState) (nextId nowMs : UInt64)

inductive Cluster.Serve (policy : PowerPolicy) (num : Numerics) :
    Cluster → ClusterCall → Cluster → Prop
  | manager {manager manager' : NodePowerManager} {operations : OperationTable}
      {call : ManagerCall} :
      manager.Serve policy num call manager' →
      Serve policy num ⟨manager, operations⟩ (.manager call) ⟨manager', operations⟩
  | create {manager : NodePowerManager} {operations operations' : OperationTable}
      {operation : NodeOperationState} {nodeId message : Bytes} {type : NodeOperationType}
      {nowMs : UInt64} :
      operations.createOperation nodeId type message nowMs = .ok (operation, operations') →
      Serve policy num ⟨manager, operations⟩ (.create nodeId type message nowMs)
        ⟨manager, operations'⟩
  | update {manager : NodePowerManager} {operations : OperationTable}
      {id message : Bytes} {status : NodeOperationStatus} {nowMs : UInt64} :
      Serve policy num ⟨manager, operations⟩ (.update id status message nowMs)
        ⟨manager, operations.updateOperation id status message nowMs⟩
  | restart {manager : NodePowerManager} {operations operations' : OperationTable}
      {input : List NodeOperationState} {nextId nowMs : UInt64} :
      OperationTable.restoreOperations input nextId nowMs = .ok operations' →
      Serve policy num ⟨manager, operations⟩ (.restart input nextId nowMs)
        ⟨manager, operations'⟩

/-! ## New operations have new ids -/

theorem operationNumber_operationId {n : UInt64} (hzero : n ≠ 0) (hmax : n ≠ Saturating.largest) :
    operationNumber (operationId n.toNat) = some n := by
  have hpre : (ofAscii "op-").isPrefixOf (operationId n.toNat) = true :=
    List.isPrefixOf_iff_prefix.mpr (List.prefix_append _ _)
  have hdrop : (operationId n.toNat).drop 3 = decimal n.toNat := List.drop_left' rfl
  have hdigits : (decimal n.toNat).all isDigit = true :=
    List.all_eq_true.mpr fun _ hmem => isDigit_of_mem_decimal hmem
  unfold operationNumber
  rw [hdrop]
  dsimp only
  rw [dropWhile_isSpace_decimal, if_neg (head?_decimal_ne _), if_pos ⟨hpre, hdigits⟩,
    stoull_decimal, Option.filter_some, if_pos (by simpa using ⟨hzero, hmax⟩)]

/-- Every id has a number, below the one that comes next. -/
structure OperationTable.Numbered (table : OperationTable) : Prop where
  pos : table.nextOperationId ≠ 0
  below : ∀ id ∈ table.operations, ∃ number, operationNumber id = some number ∧
    number < table.nextOperationId

namespace OperationTable

variable {table table' : OperationTable} {operation : NodeOperationState}
  {nodeId message id : Bytes} {type : NodeOperationType} {status : NodeOperationStatus}
  {nowMs : UInt64}

theorem createOperation_ok
    (h : table.createOperation nodeId type message nowMs = .ok (operation, table')) :
    table.nextOperationId ≠ Saturating.largest ∧
      operation.operationId = operationId table.nextOperationId.toNat ∧
      table' =
        { operations := table.operations.insert operation.operationId operation
          nextOperationId := table.nextOperationId + 1 } := by
  unfold createOperation at h
  split at h
  · cases h
  rename_i hmax
  split at h
  · cases h
  · obtain ⟨rfl, rfl⟩ := Prod.mk.inj (Except.ok.inj h)
    exact ⟨hmax, rfl, rfl⟩

theorem ne_zero_of_le {a b : UInt64} (hle : a ≤ b) (h : a ≠ 0) : b ≠ 0 := fun hzero =>
  h (UInt64.toNat_inj.mp (Nat.le_zero.mp (UInt64.le_iff_toNat_le.mp (hzero ▸ hle))))

theorem operationNumber_ne {n : UInt64} (h : operationNumber id = some n) :
    n ≠ Saturating.largest := by
  unfold operationNumber at h
  have hfilter := (Option.filter_eq_some_iff.mp (Option.ite_none_right_eq_some.mp h).2).2
  exact (of_decide_eq_true hfilter).2

theorem lt_next_of_ne_largest {n : UInt64} (h : n ≠ Saturating.largest) : n < n + 1 := by
  have hlt := n.toNat_lt
  have hne : n.toNat ≠ 2 ^ 64 - 1 := fun heq => h (UInt64.toNat_inj.mp heq)
  rw [UInt64.lt_iff_toNat_lt, UInt64.toNat_add]
  change n.toNat < (n.toNat + 1) % 2 ^ 64
  omega

/-- The id of a new operation was not there. -/
theorem Numbered.fresh (h : table.Numbered)
    (hcreate : table.createOperation nodeId type message nowMs = .ok (operation, table')) :
    operation.operationId ∉ table.operations := by
  obtain ⟨hmax, hid, -⟩ := createOperation_ok hcreate
  intro hmem
  obtain ⟨number, hnumber, hlt⟩ := h.below _ hmem
  rw [hid, operationNumber_operationId h.pos hmax] at hnumber
  obtain rfl := Option.some.inj hnumber
  exact Std.lt_irrefl hlt

theorem Numbered.create (h : table.Numbered)
    (hcreate : table.createOperation nodeId type message nowMs = .ok (operation, table')) :
    table'.Numbered := by
  obtain ⟨hmax, hid, rfl⟩ := createOperation_ok hcreate
  have hlt := lt_next_of_ne_largest hmax
  refine ⟨fun hzero => ?_, fun id hmem => ?_⟩
  · dsimp only at hzero
    rw [hzero] at hlt
    exact absurd hlt (by simp [UInt64.lt_iff_toNat_lt])
  · rcases (AList.mem_insert _).mp hmem with rfl | hmem
    · exact ⟨_, hid ▸ operationNumber_operationId h.pos hmax, hlt⟩
    · obtain ⟨number, hnumber, hbelow⟩ := h.below id hmem
      exact ⟨number, hnumber, Std.lt_trans hbelow hlt⟩

theorem Numbered.update (h : table.Numbered) :
    (table.updateOperation id status message nowMs).Numbered := by
  unfold updateOperation
  split
  · exact h
  · rename_i hlookup
    refine ⟨h.pos, fun other hmem => h.below other ?_⟩
    rcases (AList.mem_insert _).mp hmem with rfl | hmem
    · exact mem_of_lookup hlookup
    · exact hmem

theorem Numbered.restoreLoop {input : List NodeOperationState} (h : table.Numbered)
    (hrestore : OperationTable.restoreLoop nowMs input table = .ok table') :
    table'.Numbered := by
  induction input generalizing table with
  | nil => exact Except.ok.inj hrestore ▸ h
  | cons operation input ih =>
      unfold OperationTable.restoreLoop at hrestore
      split at hrestore
      · cases hrestore
      rename_i number hnumber
      split at hrestore
      · cases hrestore
      have hmax := Saturating.le_max table.nextOperationId (number + 1)
      refine ih ⟨ne_zero_of_le hmax.1 h.pos, fun id hmem => ?_⟩ hrestore
      rcases (AList.mem_insert _).mp hmem with rfl | hmem
      · exact ⟨number, hnumber, Std.lt_of_lt_of_le
          (lt_next_of_ne_largest (operationNumber_ne hnumber)) hmax.2⟩
      · obtain ⟨other, hother, hbelow⟩ := h.below id hmem
        exact ⟨other, hother, Std.lt_of_lt_of_le hbelow hmax.1⟩

theorem numbered_new : Numbered {} := ⟨by decide, fun _ hmem => absurd hmem (AList.notMem_empty _)⟩

theorem Numbered.restoreOperations {input : List NodeOperationState} {nextId : UInt64}
    (hrestore : OperationTable.restoreOperations input nextId nowMs = .ok table') :
    table'.Numbered := by
  unfold OperationTable.restoreOperations at hrestore
  cases hloop : OperationTable.restoreLoop nowMs input {} with
  | error error =>
      rw [hloop] at hrestore
      cases hrestore
  | ok restored =>
      have h := numbered_new.restoreLoop hloop
      simp only [hloop, bind, Except.bind] at hrestore
      split at hrestore
      · cases hrestore
      obtain rfl := Except.ok.inj hrestore
      have hmax := Saturating.le_max nextId restored.nextOperationId
      refine ⟨ne_zero_of_le hmax.2 h.pos, fun id hmem => ?_⟩
      obtain ⟨number, hnumber, hbelow⟩ := h.below id hmem
      exact ⟨number, hnumber, Std.lt_of_lt_of_le hbelow hmax.2⟩

end OperationTable

section Calls

variable (policy : PowerPolicy) (num : Numerics) (canOff : Bool) (nodeId : Bytes)

/-- The record after a call about it: a call that is refused leaves it. -/
def NodeCall.after (node : NodeRecord) (call : NodeCall) : NodeRecord :=
  match call.run policy num canOff nodeId node with
  | .ok (node', _) => node'
  | .error _ => node

variable {policy num canOff nodeId} {node node' : NodeRecord} {call : NodeCall}
  {calls : List NodeCall} {manager : NodePowerManager} {clock : Nat → UInt64}
  {type : NodeOperationType} {nowMs : UInt64}

/-- The last access that a request of a level leaves. -/
def touched (level : PowerLevel) (lastAccessMs nowMs : UInt64) : UInt64 :=
  if PowerLevel.medium.toNat ≤ level.toNat ∧ nowMs > lastAccessMs then nowMs else lastAccessMs

/-- The state that the node has after it was asked to take one. -/
def adminAfter (node : NodeRecord) (state : AdministrativeState) : AdministrativeState :=
  if (node.lifecycle = .retired ∧ state ≠ .disabled) ∨
      ((node.lifecycle = .draining ∨ node.lifecycle = .exiting) ∧ state = .enabled) then
    node.administrativeState
  else state

/-- What the calls before the actuator leave alone. -/
structure Prepared (node node' : NodeRecord) : Prop where
  same : node' = { node with
    toPowerAccount := node'.toPowerAccount
    actuatedPowerLevel := node'.actuatedPowerLevel
    transition := node'.transition
    administrativeState := node'.administrativeState
    lastAccessMs := node'.lastAccessMs }
  physical : node.profile.executionMode = .physical →
    node'.actuatedPowerLevel = node.actuatedPowerLevel
  account : node.lastEnergyUpdateMs ≤ node'.lastEnergyUpdateMs

theorem Prepared.profile (h : Prepared node node') : node'.profile = node.profile := by
  rw [h.same]

theorem Prepared.lifecycle (h : Prepared node node') : node'.lifecycle = node.lifecycle := by
  rw [h.same]

theorem Prepared.adminAfter (h : Prepared node node')
    (hsame : node'.administrativeState = node.administrativeState) (state : AdministrativeState) :
    Scheduler.adminAfter node' state = Scheduler.adminAfter node state := by
  rw [Scheduler.adminAfter, Scheduler.adminAfter, h.lifecycle, hsame]

theorem Prepared.trans {a b c : NodeRecord} (hab : Prepared a b) (hbc : Prepared b c) :
    Prepared a c where
  same := by
    obtain ⟨hab, -, -⟩ := hab
    obtain ⟨hbc, -, -⟩ := hbc
    rw [hbc, hab]
  physical hphysical :=
    (hbc.physical (hab.profile ▸ hphysical)).trans (hab.physical hphysical)
  account := Std.le_trans hab.account hbc.account

open ClusterState LifecycleManager

/-- The level that an operation asks for first. -/
def firstLevel (type : NodeOperationType) : PowerLevel := if type = .stop then .off else .medium

/-- The level that the legacy view of a level comes back as. -/
def legacyLevel (level : PowerLevel) : PowerLevel := if level = .off then .off else .medium

/-- The node as the policy sees it when the transition is set again. -/
def seenAgain (clock : Nat → UInt64) (type : NodeOperationType) (node : NodeRecord) : NodeRecord :=
  { node with
    administrativeState := adminAfter node (if type = .start then .enabled else .draining)
    lastAccessMs := touched (legacyLevel node.powerLevel)
      (touched (firstLevel type) node.lastAccessMs (clock 0)) (clock 2) }

variable (policy num canOff) in
/-- The record in front of the last two calls. -/
structure RequestedAgain (clock : Nat → UInt64) (type : NodeOperationType)
    (node node' : NodeRecord) : Prop where
  profile : node'.profile = node.profile
  lifecycle : node'.lifecycle = node.lifecycle
  level : node'.powerLevel = legacyLevel node.powerLevel
  actuated : node'.actuatedPowerLevel =
    actuatedUnlessPhysical node (legacyLevel node.powerLevel)
  account : node.lastEnergyUpdateMs ≤ node'.lastEnergyUpdateMs ∧
    clock 1 ≤ node'.lastEnergyUpdateMs
  wanted : ∀ t, safeDesiredPowerLevel policy num canOff node' t =
    safeDesiredPowerLevel policy num canOff (seenAgain clock type node) t

variable (policy num canOff) in
/-- A transition is under way, and at some time between the readings of the clock for its
    two settings, after the last account, the policy wants another level than the one that
    is requested again. -/
def PolicyActs (clock : Nat → UInt64) (type : NodeOperationType) (node : NodeRecord) : Prop :=
  node.transition ≠ .stable ∧ node.lastEnergyUpdateMs < clock 3 ∧ clock 1 < clock 3 ∧
    ∃ t, node.lastEnergyUpdateMs ≤ t ∧ clock 1 ≤ t ∧ t ≤ clock 3 ∧
      safeDesiredPowerLevel policy num canOff (seenAgain clock type node) t ≠
        legacyLevel node.powerLevel

/-- Unless the policy acts, the replay leaves the level that was requested. -/
theorem RequestedAgain.replayed {clock : Nat → UInt64} {type : NodeOperationType}
    (h : RequestedAgain policy num canOff clock type node node')
    (hunderway : node.transition ≠ .stable) (hquiet : ¬ PolicyActs policy num canOff clock type node) :
    (advancePowerPolicy policy num canOff node' (clock 3)).1.powerLevel =
      legacyLevel node.powerLevel := by
  have hkept : Quiet policy num canOff node' (clock 3) := by
    intro t hlater hle hnow
    rw [h.wanted, h.level]
    by_contra hother
    exact hquiet ⟨hunderway, Std.lt_of_le_of_lt h.account.1 hlater,
      Std.lt_of_le_of_lt h.account.2 hlater, t, Std.le_trans h.account.1 hle,
      Std.le_trans h.account.2 hle, hnow, fun hsame => hother (.inl hsame)⟩
  exact (advancePowerPolicy_unchanged (advancePowerPolicy_of_quiet hkept)).powerLevel.trans h.level

end Calls

end Zb.Scheduler
