-- SUMMARY: Retired nodes: lifecycles only move forward, and what keeps a retired node disabled, off and without energy.
import ZBStorage.Scheduler.LifecycleManager

/-!
# Retirement

A lifecycle only moves forward, whatever is called. A retired node is disabled
and off when it retires; it stays so as long as nobody asks for its power, and
adds no energy as long as being off costs none.
-/

namespace Zb.Scheduler

open Zb.StorageModel Bytes TableLoop CallHistory
open NodePowerManager (afterAll field_eq serves_afterAll historyOf)

variable {policy : PowerPolicy} {num : Numerics} {canOff changed : Bool} {nodeId : Bytes}
  {node node' : NodeRecord} {manager manager' : NodePowerManager} {call : ManagerCall}
  {nodeCall : NodeCall} {nowMs : UInt64}

/-! ## Lifecycles -/

theorem NodeCall.Effect.forward (h : nodeCall.Effect num canOff nodeId node node' changed) :
    node.lifecycle.rank ≤ node'.lifecycle.rank := by
  cases h with
  | activateNode hjoining => simp [hjoining, LifecycleState.rank]
  | beginRemoveNode hearly =>
      rcases hearly with hlife | hlife
      · simp [hlife, LifecycleState.rank]
      · simp [hlife, LifecycleState.rank]
  | finalizeRemoveNode => cases node.lifecycle <;> simp [LifecycleState.rank]
  | reportAccessEvent hserving =>
      dsimp only
      split
      · rename_i hexits
        simp [hexits.1, LifecycleState.rank]
      · exact Nat.le_refl _
  | reportDrainProgress hdraining =>
      dsimp only
      split
      · rcases hdraining with hlife | hlife
        · simp [hlife, LifecycleState.rank]
        · simp [hlife, LifecycleState.rank]
      · exact Nat.le_refl _
  | _ => exact Nat.le_refl _

theorem Ticked.forward (h : Ticked canOff nowMs node node') :
    node.lifecycle.rank ≤ node'.lifecycle.rank := by
  cases h
  dsimp only
  split
  · rename_i hexits
    simp only [exitDue, Bool.and_eq_true, decide_eq_true_eq] at hexits
    simp [hexits.1, LifecycleState.rank]
  · exact Nat.le_refl _

/-- The lifecycle of a node only moves forward. -/
theorem NodeStep.forward (h : NodeStep policy num manager nodeId node call node') :
    node.lifecycle.rank ≤ node'.lifecycle.rank := by
  cases h with
  | same => exact Nat.le_refl _
  | called _ hrun => exact (NodeCall.effect_of_run hrun).forward
  | linked => exact Nat.le_refl _
  | evaluated =>
      cases hevaluated : evaluateNode _ _ _ _ node with
      | mk node' changed =>
          cases evaluateNode_evaluated hevaluated <;> exact Nat.le_refl _
  | ticked => exact (tickNode_ticked ..).forward
  | restored => exact Nat.le_refl _

theorem rank_retired_le {state : LifecycleState} (h : LifecycleState.retired.rank ≤ state.rank) :
    state = .retired := by
  cases state with
  | retired => rfl
  | joining => exact absurd h (by decide)
  | working => exact absurd h (by decide)
  | draining => exact absurd h (by decide)
  | exiting => exact absurd h (by decide)

/-! ## Nodes at rest -/

/-- The node is retired, disabled and off. -/
structure AtRest (node : NodeRecord) : Prop where
  retired : node.lifecycle = .retired
  disabled : node.administrativeState = .disabled
  off : node.powerLevel = .off
  actuatedOff : node.actuatedPowerLevel = .off

/-- Nothing was added to the energy of the node. -/
structure SameEnergy (node node' : NodeRecord) : Prop where
  energy : node'.energyMicrojoules = node.energyMicrojoules
  actuated : node'.actuatedEnergyMicrojoules = node.actuatedEnergyMicrojoules

/-- Being off costs the node nothing, or its account is already past this time. -/
def Settled (node : NodeRecord) (nowMs : UInt64) : Prop :=
  node.profile.power.offMilliwatts = 0 ∨
    nowMs ≤ node.lastEnergyUpdateMs ∧ nowMs ≤ node.lastActuatedEnergyUpdateMs

theorem AtRest.mustBeOff (h : AtRest node) : mustBeOff node = true := by
  simp [Scheduler.mustBeOff, h.retired]

theorem AtRest.safeDesired (h : AtRest node) :
    safeDesiredPowerLevel policy num canOff node nowMs = .off := by
  simp only [safeDesiredPowerLevel, desiredPowerLevel_of_mustBeOff h.mustBeOff, h.retired]
  rfl

theorem AtRest.setPowerLevel (h : AtRest node) {force : Bool} :
    setPowerLevel policy node .off nowMs force = (node, false) := setPowerLevel_same h.off

theorem AtRest.integrateEnergy (h : AtRest node) : AtRest (integrateEnergy node nowMs) :=
  ⟨h.retired, h.disabled, h.off, h.actuatedOff⟩

theorem sameEnergy_integrateEnergy (nowMs : UInt64) (h : AtRest node) (hsettled : Settled node nowMs) :
    SameEnergy node (integrateEnergy node nowMs) := by
  rcases hsettled with hfree | ⟨hpast, hpastActuated⟩
  · constructor
    · simp [Scheduler.integrateEnergy, h.off, powerMilliwatts, hfree]
    · simp [Scheduler.integrateEnergy, h.actuatedOff, powerMilliwatts, hfree]
  · constructor
    · exact if_neg (Std.not_lt.mpr hpast)
    · exact if_neg (Std.not_lt.mpr hpastActuated)

/-- The replay of the policy leaves a node at rest alone. -/
theorem AtRest.advancePowerPolicy (policy : PowerPolicy) (num : Numerics) (canOff : Bool)
    (h : AtRest node) (hsettled : Settled node nowMs) :
    AtRest (advancePowerPolicy policy num canOff node nowMs).1 ∧
      SameEnergy node (advancePowerPolicy policy num canOff node nowMs).1 := by
  rcases hsettled with hfree | ⟨hpast, -⟩
  · refine advancePowerPolicy_preserves
      (P := fun node' => AtRest node' ∧ SameEnergy node node' ∧
        node'.profile.power.offMilliwatts = 0) ?_ ?_ ⟨h, ⟨rfl, rfl⟩, hfree⟩ |>.imp_right And.left
    · rintro node' cursorMs ⟨hrest, hsame, hfree⟩
      rw [hrest.safeDesired, hrest.setPowerLevel]
      exact ⟨hrest, hsame, hfree⟩
    · rintro node' cursorMs ⟨hrest, hsame, hfree⟩
      have hsame' := sameEnergy_integrateEnergy cursorMs hrest (.inl hfree)
      exact ⟨hrest.integrateEnergy, ⟨hsame'.energy.trans hsame.energy,
        hsame'.actuated.trans hsame.actuated⟩, hfree⟩
  · rw [Scheduler.advancePowerPolicy, if_pos hpast]
    exact ⟨h, rfl, rfl⟩

theorem AtRest.tickNode (h : AtRest node) (hsettled : Settled node nowMs) :
    AtRest (tickNode policy num canOff nowMs node).1 ∧
      SameEnergy node (tickNode policy num canOff nowMs node).1 := by
  obtain ⟨hrest, hsame⟩ := h.advancePowerPolicy policy num canOff hsettled
  simp only [Scheduler.tickNode]
  generalize (Scheduler.advancePowerPolicy policy num canOff node nowMs).1 = node' at hrest hsame ⊢
  have hrepair : repairDue nowMs node' = false := by simp [repairDue, hrest.retired]
  have hfailure : failureDue nowMs node' = false := by simp [failureDue, hrest.retired]
  have hexit : exitDue nowMs node' = false := by simp [exitDue, hrest.retired]
  simp only [hrepair, hfailure, hexit, Bool.false_eq_true, if_false, hrest.safeDesired,
    hrest.setPowerLevel, actuateUnlessPhysical_eq, actuatedUnlessPhysical, hrest.off,
    hrest.actuatedOff, ite_self]
  exact ⟨⟨hrest.retired, hrest.disabled, hrest.off, rfl⟩, hsame.energy, hsame.actuated⟩

/-! ## Calls that spare retired nodes -/

/-- The call does not ask a retired node for power, and does not move its account
    while being off costs it something. -/
def NodeCall.Spares (node : NodeRecord) : NodeCall → Prop
  | .requestPowerLevel level _ _ => level = .off
  | .reportPowerActuation appliedLevel nowMs success _ =>
      (success = true → appliedLevel = .off) ∧ Settled node nowMs
  | .setTransitionState _ nowMs => Settled node nowMs
  | .finalizeRemoveNode nowMs _ => Settled node nowMs
  | _ => True

def SparesRetired (manager : NodePowerManager) : ManagerCall → Prop
  | .node nodeId call => ∀ node, manager.nodes.lookup nodeId = some node →
      node.lifecycle = .retired → call.Spares node
  | .tick _ filter nowMs => ∀ nodeId node, manager.nodes.lookup nodeId = some node →
      node.lifecycle = .retired → filter.skips node = false → Settled node nowMs
  | _ => True

theorem AtRest.finalizeRemoveNode {force : Bool} (h : AtRest node) (hsettled : Settled node nowMs)
    (hrun : finalizeRemoveNode policy num canOff nowMs force node = .ok (node', changed)) :
    AtRest node' ∧ SameEnergy node node' := by
  obtain ⟨hrest, hsame⟩ := h.advancePowerPolicy policy num canOff hsettled
  unfold Scheduler.finalizeRemoveNode at hrun
  split at hrun
  · cases hrun
  split at hrun
  · cases hrun
  split at hrun
  · cases hrun
  split at hrun
  · cases hrun
  generalize (Scheduler.advancePowerPolicy policy num canOff node nowMs).1 = advanced at *
  dsimp only at hrun
  rw [setPowerLevel_same (by exact hrest.off)] at hrun
  cases hrun
  exact ⟨⟨rfl, rfl, hrest.off, rfl⟩, hsame.energy, hsame.actuated⟩

theorem AtRest.setTransitionState {state : TransitionState} (h : AtRest node)
    (hsettled : Settled node nowMs)
    (hrun : setTransitionState policy num canOff state nowMs node = .ok (node', changed)) :
    AtRest node' ∧ SameEnergy node node' := by
  obtain ⟨hrest, hsame⟩ := h.advancePowerPolicy policy num canOff hsettled
  cases hrun
  exact ⟨⟨hrest.retired, hrest.disabled, hrest.off, hrest.actuatedOff⟩, hsame.energy,
    hsame.actuated⟩

theorem AtRest.requestPowerOff {force : Bool} (h : AtRest node)
    (hrun : requestPowerLevel policy canOff .off nowMs force node = .ok (node', changed)) :
    AtRest node' ∧ SameEnergy node node' := by
  unfold Scheduler.requestPowerLevel at hrun
  split at hrun
  · cases hrun
  · have htouched : ¬(force = true ∧ PowerLevel.medium.toNat ≤ PowerLevel.off.toNat ∧
        nowMs > node.lastAccessMs) := fun htouched => absurd htouched.2.1 (by decide)
    simp only [h.setPowerLevel, htouched, if_false, actuateUnlessPhysical_eq,
      actuatedUnlessPhysical, h.actuatedOff, ite_self] at hrun
    cases hrun
    exact ⟨⟨h.retired, h.disabled, h.off, rfl⟩, rfl, rfl⟩

theorem AtRest.called (h : AtRest node) (hspares : nodeCall.Spares node)
    (hrun : nodeCall.run policy num canOff nodeId node = .ok (node', changed)) :
    AtRest node' ∧ SameEnergy node node' := by
  have heffect := NodeCall.effect_of_run hrun
  have hserving : isServingLifecycle node.lifecycle = false := by rw [h.retired]; rfl
  cases heffect with
  | finalizeRemoveNode => exact h.finalizeRemoveNode hspares hrun
  | setTransitionState => exact h.setTransitionState hspares hrun
  | requestPowerLevel =>
      cases hspares
      exact h.requestPowerOff hrun
  | reportPowerActuation =>
      have hsame := sameEnergy_integrateEnergy _ h hspares.2
      refine ⟨⟨h.retired, h.disabled, h.off, ?_⟩, hsame.energy, hsame.actuated⟩
      dsimp only
      split
      · rename_i hsuccess
        exact hspares.1 hsuccess
      · exact h.actuatedOff
  | setAdministrativeState hretired _ =>
      exact ⟨⟨h.retired, hretired h.retired, h.off, h.actuatedOff⟩, rfl, rfl⟩
  | activateNode hjoining => exact absurd (h.retired.symm.trans hjoining) (by decide)
  | alreadyDraining hdraining => exact absurd (h.retired.symm.trans hdraining) (by decide)
  | beginRemoveNode hearly =>
      rcases hearly with hlife | hlife
      · exact absurd (h.retired.symm.trans hlife) (by decide)
      · exact absurd (h.retired.symm.trans hlife) (by decide)
  | markNodeFailed hretired => exact absurd h.retired hretired
  | repairNode _ hretired => exact absurd h.retired hretired
  | reportHeartbeat hretired => exact absurd h.retired hretired
  | reportReadiness hretired => exact absurd h.retired hretired
  | reportOpticalLibraryStatus hretired => exact absurd h.retired hretired
  | setServiceMode hretired => exact absurd h.retired hretired
  | assignCmsCompactId => exact ⟨⟨h.retired, h.disabled, h.off, h.actuatedOff⟩, rfl, rfl⟩
  | setResidentDataBytes => exact ⟨⟨h.retired, h.disabled, h.off, h.actuatedOff⟩, rfl, rfl⟩
  | repeatedMetrics => exact ⟨h, rfl, rfl⟩
  | reportMetrics hserves => exact absurd hserves (by rw [hserving]; decide)
  | reportAccessEvent hserves => exact absurd hserves (by rw [hserving]; decide)
  | reportDrainProgress hleaving =>
      rcases hleaving with hlife | hlife
      · exact absurd (h.retired.symm.trans hlife) (by decide)
      · exact absurd (h.retired.symm.trans hlife) (by decide)

/-- A node at rest stays at rest when the call spares it. -/
theorem AtRest.step (h : AtRest node) (hlookup : manager.nodes.lookup nodeId = some node)
    (hspares : SparesRetired manager call)
    (hstep : NodeStep policy num manager nodeId node call node') :
    AtRest node' ∧ SameEnergy node node' := by
  cases hstep with
  | same => exact ⟨h, rfl, rfl⟩
  | called _ hrun => exact h.called (hspares node hlookup h.retired) hrun
  | linked => exact ⟨⟨h.retired, h.disabled, h.off, h.actuatedOff⟩, rfl, rfl⟩
  | evaluated =>
      have hexpected : heartbeatExpected node = false := by simp [heartbeatExpected, h.retired]
      simp only [evaluateNode, hexpected, Bool.not_false, if_true]
      exact ⟨h, rfl, rfl⟩
  | ticked hskips => exact h.tickNode (hspares nodeId node hlookup h.retired hskips)
  | restored => exact ⟨⟨h.retired, h.disabled, h.off, h.actuatedOff⟩, rfl, rfl⟩

/-- A node that retires is at rest. -/
theorem NodeCall.Effect.retires (h : nodeCall.Effect num canOff nodeId node node' changed)
    (hbefore : node.lifecycle ≠ .retired) (hafter : node'.lifecycle = .retired) : AtRest node' := by
  cases h with
  | finalizeRemoveNode _ _ hoff => exact ⟨rfl, rfl, hoff, rfl⟩
  | activateNode => cases hafter
  | beginRemoveNode => cases hafter
  | reportAccessEvent =>
      dsimp only at hafter
      split at hafter
      · cases hafter
      · exact absurd hafter hbefore
  | reportDrainProgress =>
      dsimp only at hafter
      split at hafter
      · cases hafter
      · exact absurd hafter hbefore
  | _ => exact absurd hafter hbefore

theorem NodeStep.retires (h : NodeStep policy num manager nodeId node call node')
    (hbefore : node.lifecycle ≠ .retired) (hafter : node'.lifecycle = .retired) : AtRest node' := by
  cases h with
  | called _ hrun => exact (NodeCall.effect_of_run hrun).retires hbefore hafter
  | evaluated =>
      cases hevaluated : evaluateNode _ _ _ _ node with
      | mk node' changed =>
          rw [hevaluated] at hafter
          cases evaluateNode_evaluated hevaluated <;> exact absurd hafter hbefore
  | @ticked order filter nowMs nodes =>
      have hticked := tickNode_ticked policy num (canPowerOff policy nodes node) nowMs node
      generalize (Scheduler.tickNode policy num (canPowerOff policy nodes node) nowMs node).1 =
        node' at *
      cases hticked
      dsimp only at hafter
      split at hafter
      · cases hafter
      · exact absurd hafter hbefore
  | _ => exact absurd hafter hbefore

/-! ## The law of retirement -/

/-- The record of a node at some moment and at a later one. -/
structure Tombstone (node node' : NodeRecord) : Prop where
  forward : node.lifecycle.rank ≤ node'.lifecycle.rank
  atRest : node.lifecycle = .retired → AtRest node'
  energy : node.lifecycle = .retired → node'.energyMicrojoules ≤ node.energyMicrojoules ∧
    node'.actuatedEnergyMicrojoules ≤ node.actuatedEnergyMicrojoules

/-- In every history of such calls a node stays in the table, moves forward and is a
    tombstone once it is retired, and no node is registered under a retired id. -/
def RetirementLaw (policy : PowerPolicy) (num : Numerics)
    (ok : NodePowerManager → ManagerCall → Prop) : Prop :=
  ∀ hist manager hist' manager' nodeId node, Reaches policy num ok hist manager →
    Serves (NodePowerManager.Serve policy num) ok manager hist' manager' →
    manager.nodes.lookup nodeId = some node →
    ∃ node', manager'.nodes.lookup nodeId = some node' ∧ Tombstone node node' ∧
      (node.lifecycle = .retired → ∀ profile joinTimeMs lifetimeSeed, profile.nodeId = nodeId →
        ∃ error, manager'.registerNode num profile joinTimeMs lifetimeSeed = .error error)

theorem registerNode_taken {profile : NodeHardwareProfile} (joinTimeMs lifetimeSeed : UInt64)
    (hlookup : manager.nodes.lookup profile.nodeId = some node) :
    ∃ error, manager.registerNode num profile joinTimeMs lifetimeSeed = .error error := by
  cases hregister : manager.registerNode num profile joinTimeMs lifetimeSeed with
  | error error => exact ⟨error, rfl⟩
  | ok manager' =>
      rw [(registerNode_ok hregister).2.1] at hlookup
      cases hlookup

/-- Retirement is a tombstone as long as nobody asks a retired node for power and its
    account does not move while being off costs it something. -/
theorem retirement_tombstone (policy : PowerPolicy) (num : Numerics) :
    RetirementLaw policy num SparesRetired := by
  intro hist manager hist' manager' nodeId node hreaches hserves hlookup
  have hrest : node.lifecycle = .retired → AtRest node := by
    refine hreaches.nodes (P := fun node => node.lifecycle = .retired → AtRest node) ?_ ?_ hlookup
    · intro s profile joinTimeMs lifetimeSeed _ _ hretired
      cases hretired
    · intro s call id node node' hlookup hspares hrest hstep hafter
      by_cases hbefore : node.lifecycle = .retired
      · exact ((hrest hbefore).step hlookup hspares hstep).1
      · exact hstep.retires hbefore hafter
  obtain ⟨node', hlookup', hforward, hkept⟩ := Serves.node_related
    (R := fun a b => a.lifecycle.rank ≤ b.lifecycle.rank ∧
      (AtRest a → AtRest b ∧ SameEnergy a b))
    (fun node => ⟨Nat.le_refl _, fun h => ⟨h, rfl, rfl⟩⟩)
    (fun a b c hab hbc => ⟨Nat.le_trans hab.1 hbc.1, fun h =>
      ⟨(hbc.2 (hab.2 h).1).1, (hbc.2 (hab.2 h).1).2.energy.trans (hab.2 h).2.energy,
        (hbc.2 (hab.2 h).1).2.actuated.trans (hab.2 h).2.actuated⟩⟩)
    (fun s call node node' hlookup hspares hstep =>
      ⟨hstep.forward, fun h => h.step hlookup hspares hstep⟩)
    hreaches.keyed hserves hlookup
  refine ⟨node', hlookup', ⟨hforward, ?_, ?_⟩, ?_⟩
  · intro hretired
    exact (hkept (hrest hretired)).1
  · intro hretired
    obtain ⟨-, hsame⟩ := hkept (hrest hretired)
    rw [hsame.energy, hsame.actuated]
    exact ⟨Std.le_refl _, Std.le_refl _⟩
  · rintro - profile joinTimeMs lifetimeSeed rfl
    exact registerNode_taken joinTimeMs lifetimeSeed hlookup'

/-- A node is registered and, before it ever works, removed by force. -/
def retiringCalls : List ManagerCall :=
  [.registerNode simulatedDisk 0 0, .node simulatedDisk.nodeId (.finalizeRemoveNode 1 true)]

def retiredManager : NodePowerManager :=
  afterAll { standbyBeforeOff := standby_before_off } plainNumerics {} retiringCalls

theorem reaches_retiredManager (ok : NodePowerManager → ManagerCall → Prop)
    (hregister : ok {} (.registerNode simulatedDisk 0 0))
    (hfinalize : ok (NodePowerManager.after {} plainNumerics {} (.registerNode simulatedDisk 0 0))
      (.node simulatedDisk.nodeId (.finalizeRemoveNode 1 true))) :
    Reaches {} plainNumerics ok
      (historyOf {} plainNumerics {} retiringCalls) retiredManager :=
  serves_afterAll retiringCalls ⟨trivial, hregister, trivial, hfinalize, trivial⟩

def powerOffCalls : List ManagerCall :=
  [.node simulatedDisk.nodeId (.requestPowerLevel .off 5 true)]

theorem retirement_tombstone_power_off : ∃ node node',
    retiredManager.nodes.lookup simulatedDisk.nodeId = some node ∧ node.lifecycle = .retired ∧
    (retiredManager.afterAll {} plainNumerics powerOffCalls).nodes.lookup simulatedDisk.nodeId =
      some node' ∧ Tombstone node node' := by
  cases hlookup : retiredManager.nodes.lookup simulatedDisk.nodeId with
  | none => exact absurd hlookup (by decide +kernel)
  | some node =>
      have hfinalize : SparesRetired
          (NodePowerManager.after {} plainNumerics {} (.registerNode simulatedDisk 0 0))
          (.node simulatedDisk.nodeId (.finalizeRemoveNode 1 true)) := by
        intro node hlookup hretired
        have hjoining : node.lifecycle = .joining :=
          field_eq (f := NodeRecord.lifecycle) (by decide +kernel) hlookup
        rw [hjoining] at hretired
        cases hretired
      obtain ⟨node', hlookup', htombstone, -⟩ := retirement_tombstone {} plainNumerics _ _ _ _ _
        node (reaches_retiredManager SparesRetired trivial hfinalize)
        (serves_afterAll powerOffCalls ⟨trivial, fun _ _ _ => rfl, trivial⟩)
        hlookup
      exact ⟨node, node', rfl,
        field_eq (f := NodeRecord.lifecycle) (by decide +kernel) hlookup,
        hlookup', htombstone⟩

/-- Starting a retired node switches it on. -/
theorem retired_node_started : ¬ RetirementLaw {} plainNumerics Any := by
  intro hlaw
  cases hlookup : retiredManager.nodes.lookup simulatedDisk.nodeId with
  | none => exact absurd hlookup (by decide +kernel)
  | some node =>
      -- the calls of a start do not depend on what it reads of the node
      have hstart : LifecycleManager.runOperation (fun _ => 2) true true .start false node =
          LifecycleManager.prepareCalls (fun _ => 2) .start ++
            LifecycleManager.confirmCalls (fun _ => 2) .start := rfl
      obtain ⟨node', hlookup', htombstone, -⟩ := hlaw _ _ _ _ _ node
        (reaches_retiredManager Any trivial trivial)
        (serves_afterAll
          ((LifecycleManager.runOperation (fun _ => 2) true true .start false node).map
            (.node simulatedDisk.nodeId)) ⟨trivial, trivial, trivial, trivial, trivial, trivial,
              trivial, trivial, trivial⟩) hlookup
      rw [hstart] at hlookup'
      have hmedium : node'.powerLevel = .medium :=
        field_eq (f := fun node => node.powerLevel) (by decide +kernel) hlookup'
      have hoff := (htombstone.atRest (field_eq (f := NodeRecord.lifecycle)
        (by decide +kernel) hlookup)).off
      rw [hmedium] at hoff
      cases hoff

end Zb.Scheduler
