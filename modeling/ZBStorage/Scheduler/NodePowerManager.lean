-- SUMMARY: The power manager of the scheduler: its table of nodes and the calls it serves.
import ZBStorage.Scheduler.NodeOperations

/-!
# The power manager

The public part of `scheduler/power/NodePowerManager.cpp`. Every operation holds
one mutex, so the manager serves one call at a time. A tick and the heartbeat
detector visit every node in the order of the hash table.
-/

namespace Zb.Scheduler

open Zb.StorageModel Bytes TableLoop

/-! ## The manager -/

structure NodePowerManager where
  nodes : NodeTable := ∅
  generation : UInt64 := 1

/-- The operations that concern one registered node. -/
inductive NodeCall
  | activateNode (nowMs : UInt64)
  | beginRemoveNode (nowMs : UInt64)
  | finalizeRemoveNode (nowMs : UInt64) (force : Bool)
  | markNodeFailed (nowMs : UInt64) (reason : Bytes)
  | repairNode (nowMs : UInt64)
  | reportHeartbeat (serviceAddress : Bytes) (inventory : NodeInventorySnapshot) (nowMs : UInt64)
  | reportReadiness (readiness : NodeReadinessStatus) (instanceGeneration : UInt64)
  | reportOpticalLibraryStatus (status : OpticalLibraryStatus) (instanceGeneration : UInt64)
  | setAdministrativeState (state : AdministrativeState)
  | setServiceMode (mode : NodeServiceMode)
  | assignCmsCompactId (compactId : UInt32)
  | setTransitionState (state : TransitionState) (nowMs : UInt64)
  | requestPowerLevel (level : PowerLevel) (nowMs : UInt64) (force : Bool)
  | setResidentDataBytes (bytes : UInt64)
  | reportMetrics (metrics : NodeAccessMetrics)
  | reportAccessEvent (event : NodeAccessEvent)
  | reportDrainProgress (reportTsMs remainingObjects remainingBytes : UInt64)
      (activeRequests : UInt32)
  | reportPowerActuation (appliedLevel : PowerLevel) (nowMs : UInt64) (success : Bool)
      (message : Bytes)

/-- What is checked before the node is looked up. -/
def NodeCall.validate : NodeCall → Except Bytes Unit
  | .reportMetrics metrics =>
      if metrics.windowEndMs < metrics.windowStartMs then
        .error (ofAscii "metrics window end precedes start")
      else .ok ()
  | .reportOpticalLibraryStatus status _ => validateOpticalLibraryStatus status
  | .assignCmsCompactId compactId =>
      if compactId = 0 then .error (ofAscii "CMS compact id must be non-zero") else .ok ()
  | _ => .ok ()

def NodeCall.run (policy : PowerPolicy) (num : Numerics) (canOff : Bool) (nodeId : Bytes)
    (call : NodeCall) (node : NodeRecord) : NodeResult :=
  match call with
  | .activateNode nowMs => Scheduler.activateNode policy num canOff nowMs node
  | .beginRemoveNode nowMs => Scheduler.beginRemoveNode policy num canOff nowMs node
  | .finalizeRemoveNode nowMs force =>
      Scheduler.finalizeRemoveNode policy num canOff nowMs force node
  | .markNodeFailed nowMs reason => Scheduler.markNodeFailed policy num canOff nowMs reason node
  | .repairNode nowMs => Scheduler.repairNode policy num canOff nowMs node
  | .reportHeartbeat serviceAddress inventory nowMs =>
      Scheduler.reportHeartbeat policy num canOff nodeId serviceAddress inventory nowMs node
  | .reportReadiness readiness instanceGeneration =>
      Scheduler.reportReadiness readiness instanceGeneration node
  | .reportOpticalLibraryStatus status instanceGeneration =>
      Scheduler.reportOpticalLibraryStatus policy num canOff status instanceGeneration node
  | .setAdministrativeState state => Scheduler.setAdministrativeState state node
  | .setServiceMode mode => Scheduler.setServiceMode mode node
  | .assignCmsCompactId compactId => Scheduler.assignCmsCompactId compactId node
  | .setTransitionState state nowMs =>
      Scheduler.setTransitionState policy num canOff state nowMs node
  | .requestPowerLevel level nowMs force =>
      Scheduler.requestPowerLevel policy canOff level nowMs force node
  | .setResidentDataBytes bytes => Scheduler.setResidentDataBytes bytes node
  | .reportMetrics metrics => Scheduler.reportMetrics policy num canOff metrics node
  | .reportAccessEvent event => Scheduler.reportAccessEvent policy num canOff event node
  | .reportDrainProgress reportTsMs remainingObjects remainingBytes activeRequests =>
      Scheduler.reportDrainProgress policy num canOff reportTsMs remainingObjects remainingBytes
        activeRequests node
  | .reportPowerActuation appliedLevel nowMs success message =>
      Scheduler.reportPowerActuation appliedLevel nowMs success message node

structure NodeCatalogSnapshot where
  formatVersion : UInt32 := 2
  generation : UInt64 := 1
  nodes : List NodeRecord := []

/-- What a snapshot of an older version left out is filled in. -/
def restoredNode (node : NodeRecord) : NodeRecord :=
  { node with
    identity :=
      if node.identity.nodeId = [] then
        { node.identity with
          nodeId := node.profile.nodeId
          kind := node.profile.kind
          executionMode := node.profile.executionMode }
      else node.identity
    inventory :=
      if node.inventory.nodeId = [] then { node.inventory with nodeId := node.profile.nodeId }
      else node.inventory
    lastActuatedEnergyUpdateMs :=
      if node.lastActuatedEnergyUpdateMs = 0 then node.lastEnergyUpdateMs
      else node.lastActuatedEnergyUpdateMs }

/-- The loop of `Restore` over the nodes of a snapshot. -/
def restoreNodes : NodeTable → List NodeRecord → Except Bytes NodeTable
  | restored, [] => .ok restored
  | restored, node :: nodes => do
      (validateNodeHardwareProfile node.profile).mapError
        (ofAscii "invalid node in managed snapshot: " ++ ·)
      let node := restoredNode node
      if node.inventory.devices ≠ [] then
        (validateNodeInventorySnapshot node.inventory).mapError
          (ofAscii "invalid inventory in managed snapshot: " ++ ·)
      if node.profile.kind = .opticalLibrary then
        (validateOpticalLibraryStatus node.opticalLibrary).mapError
          (ofAscii "invalid optical status in managed snapshot: " ++ ·)
      if node.profile.nodeId ∈ restored then
        .error (ofAscii "duplicate node in managed snapshot: " ++ node.profile.nodeId)
      restoreNodes (restored.insert node.profile.nodeId node) nodes

namespace NodePowerManager

def bumped (manager : NodePowerManager) (nodes : NodeTable) (changed : Bool) : NodePowerManager where
  nodes := nodes
  generation := if changed then manager.generation + 1 else manager.generation

section Calls

variable (policy : PowerPolicy) (num : Numerics)

def callNode (manager : NodePowerManager) (nodeId : Bytes) (call : NodeCall) :
    Except Bytes NodePowerManager := do
  call.validate
  match manager.nodes.lookup nodeId with
  | none => .error (ofAscii "node not found: " ++ nodeId)
  | some node =>
      let canOff := canPowerOff policy manager.nodes node
      let (node, changed) ← call.run policy num canOff nodeId node
      return manager.bumped (manager.nodes.insert nodeId node) changed

def registerNode (manager : NodePowerManager) (profile : NodeHardwareProfile)
    (joinTimeMs lifetimeSeed : UInt64) : Except Bytes NodePowerManager := do
  validateNodeHardwareProfile profile
  match manager.nodes.lookup profile.nodeId with
  | some existing =>
      .error (if existing.lifecycle = .retired then
          ofAscii "node_id is retired and protected by a tombstone: " ++ profile.nodeId
        else ofAscii "node already exists: " ++ profile.nodeId)
  | none =>
      return manager.bumped (manager.nodes.insert profile.nodeId
        (registeredNode num profile joinTimeMs lifetimeSeed)) true

/-- The last part of `RegisterReplacementNode`, which takes the mutex once more. -/
def linkReplacement (manager : NodePowerManager) (nodeId predecessorNodeId : Bytes) :
    Except Bytes NodePowerManager :=
  match manager.nodes.lookup predecessorNodeId, manager.nodes.lookup nodeId with
  | some _, some replacement =>
      let nodes := manager.nodes.insert nodeId
        { replacement with predecessorNodeId := predecessorNodeId }
      match nodes.lookup predecessorNodeId with
      | some predecessor =>
          .ok (manager.bumped (nodes.insert predecessorNodeId
            { predecessor with replacementCount := predecessor.replacementCount + 1 }) true)
      | none => .error (ofAscii "replacement registration lost catalog state")
  | _, _ => .error (ofAscii "replacement registration lost catalog state")

def evaluateHeartbeatHealth (manager : NodePowerManager) (order : List Bytes)
    (nowMs suspectTimeoutMs deadTimeoutMs : UInt64) : NodePowerManager :=
  let looped := forEach
    (fun _ node => evaluateNode policy nowMs suspectTimeoutMs deadTimeoutMs node)
    order manager.nodes
  manager.bumped looped.1 looped.2

/-- The turn of a node in `TickMatchingLocked`, in the table as it is then. -/
def tickTurn (filter : ExecutionFilter) (nowMs : UInt64) (nodes : NodeTable) (node : NodeRecord) :
    NodeRecord × Bool :=
  if filter.skips node then (node, false)
  else tickNode policy num (canPowerOff policy nodes node) nowMs node

def tickMatching (manager : NodePowerManager) (order : List Bytes) (filter : ExecutionFilter)
    (nowMs : UInt64) : NodePowerManager :=
  let looped := forEach (tickTurn policy num filter nowMs) order manager.nodes
  manager.bumped looped.1 looped.2

def snapshot (manager : NodePowerManager) : NodeCatalogSnapshot where
  generation := manager.generation
  nodes := (manager.nodes.entries.map fun entry => entry.2).mergeSort
    fun lhs rhs => lhs.profile.nodeId ≤ rhs.profile.nodeId

def restore (snapshot : NodeCatalogSnapshot) : Except Bytes NodePowerManager :=
  if snapshot.formatVersion = 0 ∨ snapshot.formatVersion > 2 then
    .error (ofAscii "unsupported managed snapshot version")
  else do
    let nodes ← restoreNodes ∅ snapshot.nodes
    return { nodes := nodes, generation := max 1 snapshot.generation }

end Calls

end NodePowerManager

/-! ## Calls of the manager -/

/-- What the manager does while it holds its mutex. The loops carry the order in
    which the hash table is visited. -/
inductive ManagerCall
  | registerNode (profile : NodeHardwareProfile) (joinTimeMs lifetimeSeed : UInt64)
  | linkReplacement (nodeId predecessorNodeId : Bytes)
  | node (nodeId : Bytes) (call : NodeCall)
  | evaluateHeartbeatHealth (order : List Bytes) (nowMs suspectTimeoutMs deadTimeoutMs : UInt64)
  | tick (order : List Bytes) (filter : ExecutionFilter) (nowMs : UInt64)
  /-- `Snapshot`, then `Restore` of what it returned -/
  | restart

namespace NodePowerManager

section Serve

variable (policy : PowerPolicy) (num : Numerics)

def answer (manager : NodePowerManager) : ManagerCall → Except Bytes NodePowerManager
  | .registerNode profile joinTimeMs lifetimeSeed =>
      manager.registerNode num profile joinTimeMs lifetimeSeed
  | .linkReplacement nodeId predecessorNodeId => manager.linkReplacement nodeId predecessorNodeId
  | .node nodeId call => manager.callNode policy num nodeId call
  | .evaluateHeartbeatHealth order nowMs suspectTimeoutMs deadTimeoutMs =>
      .ok (manager.evaluateHeartbeatHealth policy order nowMs suspectTimeoutMs deadTimeoutMs)
  | .tick order filter nowMs => .ok (manager.tickMatching policy num order filter nowMs)
  | .restart => restore manager.snapshot

end Serve

/-- The loops visit every node of the table once. -/
def Visits (manager : NodePowerManager) : ManagerCall → Prop
  | .evaluateHeartbeatHealth order _ _ _ => Enumerates order manager.nodes
  | .tick order _ _ => Enumerates order manager.nodes
  | _ => True

/-- The manager serves a call: an error leaves it as it was. -/
def Serve (policy : PowerPolicy) (num : Numerics) (manager : NodePowerManager) (call : ManagerCall)
    (manager' : NodePowerManager) : Prop :=
  manager.Visits call ∧
    (manager.answer policy num call = .ok manager' ∨
      (∃ error, manager.answer policy num call = .error error) ∧ manager' = manager)

end NodePowerManager

end Zb.Scheduler
