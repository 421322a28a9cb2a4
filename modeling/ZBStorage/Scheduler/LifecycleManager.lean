-- SUMMARY: The legacy start, stop and reboot of a node, as the calls of the power manager that they are made of.
import ZBStorage.Scheduler.PowerHistory

/-!
# The lifecycle manager

`scheduler/lifecycle/LifecycleManager.cpp` over the setters of
`scheduler/model/ClusterState.cpp`. An operation reads the node once and then
calls the power manager several times, without a lock around the calls and
without looking at their errors: other calls may come between any two of them.
So an operation is a list of calls, and the histories of the manager contain all
its interleavings.
-/

namespace Zb.Scheduler

open Zb.StorageModel Bytes CallHistory

inductive NodeOperationType
  | start
  | stop
  | reboot
  deriving DecidableEq, Repr

inductive NodeAdminState
  | enabled
  | draining
  | disabled
  deriving DecidableEq, Repr

inductive NodePowerState
  | unknown
  | on
  | off
  | starting
  | stopping
  deriving DecidableEq, Repr

namespace ClusterState

/-- What an operation keeps of the node that it read. -/
structure NodeState where
  adminState : NodeAdminState
  powerState : NodePowerState
  desiredPowerState : NodePowerState
  residentDataBytes : UInt64
  opticalLocalDiscCount : UInt32

def legacyAdmin (node : NodeRecord) : NodeAdminState :=
  if node.lifecycle = .retired ∨ node.administrativeState = .disabled then .disabled
  else if node.lifecycle = .draining ∨ node.lifecycle = .exiting ∨
      node.administrativeState = .draining ∨ !node.profile.participatesInPlacement ∨
      node.serviceMode = .readOnly then .draining
  else .enabled

def legacyPower (node : NodeRecord) : NodePowerState :=
  if node.transition = .starting ∨ node.transition = .rebooting then .starting
  else if node.transition = .stopping then .stopping
  else if node.actuatedPowerLevel = .off then .off
  else .on

def buildNodeState (node : NodeRecord) : NodeState where
  adminState := legacyAdmin node
  powerState := legacyPower node
  desiredPowerState := if node.powerLevel = .off then .off else .on
  residentDataBytes := node.residentDataBytes
  opticalLocalDiscCount := node.opticalLibrary.localDiscCount

def setNodeAdminState : NodeAdminState → NodeCall
  | .enabled => .setAdministrativeState .enabled
  | .draining => .setAdministrativeState .draining
  | .disabled => .setAdministrativeState .disabled

def setDesiredPowerState (state : NodePowerState) (nowMs : UInt64) : NodeCall :=
  .requestPowerLevel (if state = .off then .off else .medium) nowMs true

def setCurrentPowerState (state : NodePowerState) (nowMs : UInt64) : List NodeCall :=
  match state with
  | .starting => [.setTransitionState .starting nowMs]
  | .stopping => [.setTransitionState .stopping nowMs]
  | state =>
      [.reportPowerActuation (if state = .off then .off else .medium) nowMs true
        (ofAscii "legacy lifecycle confirmation"),
        .setTransitionState .stable nowMs]

end ClusterState

namespace LifecycleManager

open ClusterState

/-- A stop without force is refused while the node holds data or discs. -/
def refusesStop (type : NodeOperationType) (force : Bool) (node : NodeState) : Bool :=
  type = .stop && !force && (node.residentDataBytes ≠ 0 || node.opticalLocalDiscCount ≠ 0)

/-- The calls before the actuator, with the readings of the clock. -/
def prepareCalls (clock : Nat → UInt64) : NodeOperationType → List NodeCall
  | .stop =>
      setNodeAdminState .draining :: setDesiredPowerState .off (clock 0) ::
        setCurrentPowerState .stopping (clock 1)
  | .start =>
      setDesiredPowerState .on (clock 0) :: setCurrentPowerState .starting (clock 1) ++
        [setNodeAdminState .enabled]
  | .reboot =>
      setDesiredPowerState .on (clock 0) :: setCurrentPowerState .stopping (clock 1) ++
        [setNodeAdminState .draining]

/-- The calls after an actuator that succeeded. -/
def confirmCalls (clock : Nat → UInt64) : NodeOperationType → List NodeCall
  | .stop => setCurrentPowerState .off (clock 2) ++ [setNodeAdminState .disabled]
  | .start => setCurrentPowerState .starting (clock 2)
  | .reboot => setCurrentPowerState .starting (clock 2) ++ [setNodeAdminState .enabled]

/-- The calls after an actuator that failed: back to what the operation read. -/
def revertCalls (clock : Nat → UInt64) (node : NodeState) : List NodeCall :=
  setDesiredPowerState node.desiredPowerState (clock 2) ::
    setCurrentPowerState node.powerState (clock 3) ++ [setNodeAdminState node.adminState]

/-- `RunOperation` on a node that was found: `created` is whether the operation was
    entered into the list of operations, `actuated` whether the actuator succeeded. -/
def runOperation (clock : Nat → UInt64) (created actuated : Bool) (type : NodeOperationType)
    (force : Bool) (node : NodeRecord) : List NodeCall :=
  let state := buildNodeState node
  if refusesStop type force state ∨ !created then []
  else prepareCalls clock type ++
    if actuated then confirmCalls clock type else revertCalls clock state

end LifecycleManager

end Zb.Scheduler
