-- SUMMARY: Failed nodes: health against failure source, and that the heartbeat detector misses no dead node.
import ZBStorage.Scheduler.Retirement

/-!
# Failures

Health and failure source are written together by every operation but one: the
activation of a node makes it healthy and keeps the source. As long as no failed
node is activated the two agree, and the heartbeat detector, which looks at the
source, fails every node that has been silent for too long.
-/

namespace Zb.Scheduler

open Zb.StorageModel Bytes TableLoop CallHistory
open NodePowerManager (afterAll field_eq serves_afterAll historyOf)

variable {policy : PowerPolicy} {num : Numerics} {canOff changed : Bool} {nodeId : Bytes}
  {node node' : NodeRecord} {manager manager' : NodePowerManager} {call : ManagerCall}
  {nodeCall : NodeCall} {nowMs suspectTimeoutMs deadTimeoutMs : UInt64}

/-! ## Health and source -/

/-- The node is failed exactly if its failure has a source. -/
def FailureAgrees (health : HealthState) (source : FailureSource) : Prop :=
  health = .failed ↔ source ≠ .none

theorem FailureAgrees.failed {source : FailureSource} (h : source ≠ .none) :
    FailureAgrees .failed source :=
  ⟨fun _ => h, fun _ => rfl⟩

theorem FailureAgrees.none {health : HealthState} (h : health ≠ .failed) :
    FailureAgrees health .none :=
  ⟨fun hfailed => absurd hfailed h, fun hsource => absurd rfl hsource⟩

theorem FailureAgrees.source_eq_none {health : HealthState} {source : FailureSource}
    (h : FailureAgrees health source) (hhealth : health ≠ .failed) : source = .none := by
  by_contra hsource
  exact hhealth (h.mpr hsource)

/-- The bookkeeping of a node that is not retired is consistent. -/
def FailureConsistent (node : NodeRecord) : Prop :=
  node.lifecycle ≠ .retired → FailureAgrees node.health node.failureSource

/-- A node that can be activated is not failed. -/
def ActivatesUnfailed (manager : NodePowerManager) : ManagerCall → Prop
  | .node nodeId (.activateNode _) =>
      ∀ node, manager.nodes.lookup nodeId = some node → node.lifecycle = .joining →
        node.readiness.ready = true ∨ node.readiness.observed = false → node.health ≠ .failed
  | _ => True

theorem NodeCall.Effect.failureConsistent
    (h : nodeCall.Effect num canOff nodeId node node' changed)
    (hactivates : ∀ nowMs, nodeCall = .activateNode nowMs → node.health ≠ .failed)
    (hbefore : FailureConsistent node) : FailureConsistent node' := by
  cases h with
  | activateNode hjoining =>
      intro _
      have hagrees := hbefore (by rw [hjoining]; exact fun hretired => nomatch hretired)
      dsimp only
      rw [hagrees.source_eq_none (hactivates _ rfl)]
      exact .none (fun hfailed => nomatch hfailed)
  | beginRemoveNode hearly =>
      intro _
      refine hbefore ?_
      rcases hearly with hlife | hlife
      · rw [hlife]
        exact fun hretired => nomatch hretired
      · rw [hlife]
        exact fun hretired => nomatch hretired
  | finalizeRemoveNode => exact fun hretired => absurd rfl hretired
  | markNodeFailed => exact fun _ => .failed (fun hsource => nomatch hsource)
  | repairNode => exact fun _ => .none (fun hfailed => nomatch hfailed)
  | reportHeartbeat hretired =>
      intro _
      dsimp only
      split
      · exact .none (fun hfailed => nomatch hfailed)
      · exact hbefore hretired
  | reportAccessEvent hserves =>
      refine fun _ => hbefore fun hretired => ?_
      rw [hretired] at hserves
      cases hserves
  | reportDrainProgress hdraining =>
      refine fun _ => hbefore fun hretired => ?_
      rw [hretired] at hdraining
      rcases hdraining with hlife | hlife
      · cases hlife
      · cases hlife
  | _ => exact hbefore

theorem Evaluated.failureConsistent (h : Evaluated nowMs deadTimeoutMs node node' changed)
    (hbefore : FailureConsistent node) : FailureConsistent node' := by
  cases h with
  | same => exact hbefore
  | timedOut => exact fun _ => .failed (fun hsource => nomatch hsource)
  | suspected _ hsource =>
      intro _
      dsimp only
      rw [hsource]
      exact .none (fun hfailed => nomatch hfailed)
  | recovered hretired hsuspect =>
      intro _
      have hsource := (hbefore hretired).source_eq_none (by rw [hsuspect]; decide)
      dsimp only
      rw [hsource]
      exact .none (fun hfailed => nomatch hfailed)

theorem TickedHealth.agrees {health : HealthState} {source : FailureSource}
    (h : TickedHealth node health source) (hretired : node.lifecycle ≠ .retired)
    (hbefore : FailureConsistent node) : FailureAgrees health source := by
  cases h with
  | same => exact hbefore hretired
  | repaired => exact .none (fun hfailed => nomatch hfailed)
  | failed => exact .failed (fun hsource => nomatch hsource)

theorem Ticked.failureConsistent (h : Ticked canOff nowMs node node')
    (hbefore : FailureConsistent node) : FailureConsistent node' := by
  have hretires : node.lifecycle = .retired → node'.lifecycle = .retired := by
    intro hretired
    apply rank_retired_le
    rw [← hretired]
    exact h.forward
  cases h with
  | intro hhealth _ =>
      intro hafter
      exact hhealth.agrees (fun hretired => hafter (hretires hretired)) hbefore

theorem activateNode_ready (h : activateNode policy num canOff nowMs node = .ok (node', changed)) :
    node.lifecycle = .joining ∧ (node.readiness.ready = true ∨ node.readiness.observed = false) := by
  unfold activateNode at h
  split at h
  · cases h
  · rename_i hjoining
    split at h
    · cases h
    · rename_i hready
      refine ⟨not_not.mp hjoining, ?_⟩
      rw [not_and_or] at hready
      simpa using hready

/-- The bookkeeping stays consistent when no failed node is activated. -/
theorem NodeStep.failureConsistent (h : NodeStep policy num manager nodeId node call node')
    (hlookup : manager.nodes.lookup nodeId = some node) (hok : ActivatesUnfailed manager call)
    (hbefore : FailureConsistent node) : FailureConsistent node' := by
  cases h with
  | called _ hrun =>
      refine (NodeCall.effect_of_run hrun).failureConsistent ?_ hbefore
      rintro nowMs rfl
      obtain ⟨hjoining, hready⟩ := activateNode_ready hrun
      exact hok node hlookup hjoining hready
  | evaluated => exact (evaluateNode_evaluated rfl).failureConsistent hbefore
  | ticked => exact (tickNode_ticked ..).failureConsistent hbefore
  | _ => exact hbefore

theorem failureConsistent_of_reaches {hist : List (Served NodePowerManager ManagerCall)}
    (h : Reaches policy num ActivatesUnfailed hist manager)
    (hlookup : manager.nodes.lookup nodeId = some node) : FailureConsistent node := by
  refine h.nodes (P := FailureConsistent) ?_ ?_ hlookup
  · exact fun _ _ _ _ _ _ _ => .none (fun hfailed => nomatch hfailed)
  · exact fun _ _ _ _ _ hlookup hok hbefore hstep => hstep.failureConsistent hlookup hok hbefore

/-! ## The detector -/

/-- A node that should have been heard of is failed after its round. -/
theorem evaluateNode_detects (policy : PowerPolicy) (suspectTimeoutMs : UInt64)
    (hagrees : FailureAgrees node.health node.failureSource)
    (hexpected : heartbeatExpected node = true) (hdead : deadTimeoutMs > 0)
    (hage : heartbeatAge nowMs node ≥ deadTimeoutMs) :
    (evaluateNode policy nowMs suspectTimeoutMs deadTimeoutMs node).1.health = .failed := by
  have hdead' : deadTimeoutMs ≠ 0 ∧ heartbeatAge nowMs node ≥ deadTimeoutMs :=
    ⟨(Std.ne_of_lt hdead).symm, hage⟩
  simp only [evaluateNode, hexpected, Bool.not_true, Bool.false_eq_true, if_false, if_pos hdead']
  split
  · simp only [heartbeatTimedOut, setPowerLevel_fst]
  · rename_i hknown
    -- the detector passes over a failure that something else reported
    by_contra hhealth
    exact hknown ⟨.inl (hagrees.source_eq_none hhealth), .inl hhealth⟩

/-- A node that the detector would watch after its round was watched in it. -/
theorem heartbeatExpected_of_evaluated (h : Evaluated nowMs deadTimeoutMs node node' changed)
    (hexpected : heartbeatExpected node' = true) : heartbeatExpected node = true := by
  cases h with
  | timedOut hretired hoff =>
      simp only [heartbeatExpected, hoff] at hexpected ⊢
      simp_all
  | _ => exact hexpected

/-- In every history of such calls the bookkeeping of failures is consistent, and after
    an evaluation every node is failed that has power, before or after it, and was
    silent for the timeout. -/
def FailureLaw (policy : PowerPolicy) (num : Numerics)
    (ok : NodePowerManager → ManagerCall → Prop) : Prop :=
  ∀ hist manager, Reaches policy num ok hist manager →
    (∀ nodeId node, manager.nodes.lookup nodeId = some node → node.lifecycle ≠ .retired →
      (node.health = .failed ↔ node.failureSource ≠ .none)) ∧
    (∀ order nowMs suspectTimeoutMs deadTimeoutMs, Enumerates order manager.nodes →
      deadTimeoutMs > 0 → ∀ nodeId node node', manager.nodes.lookup nodeId = some node →
      (manager.evaluateHeartbeatHealth policy order nowMs suspectTimeoutMs
        deadTimeoutMs).nodes.lookup nodeId = some node' →
      heartbeatExpected node = true ∨ heartbeatExpected node' = true →
      heartbeatAge nowMs node ≥ deadTimeoutMs → node'.health = .failed)

/-- Dead nodes are detected as long as no failed node is activated. -/
theorem failures_detected (policy : PowerPolicy) (num : Numerics) :
    FailureLaw policy num ActivatesUnfailed := by
  intro hist manager hreaches
  constructor
  · intro nodeId node hlookup hretired
    exact failureConsistent_of_reaches hreaches hlookup hretired
  · intro order nowMs suspectTimeoutMs deadTimeoutMs henumerates hdead nodeId node node' hlookup
      hlookup' hpowered hage
    obtain ⟨order₁, order₂, rfl⟩ := Enumerates.split henumerates hlookup
    cases hlookup'.symm.trans (lookup_forEach henumerates.nodup hlookup)
    have hexpected : heartbeatExpected node = true :=
      hpowered.elim id (heartbeatExpected_of_evaluated (evaluateNode_evaluated rfl))
    exact evaluateNode_detects policy suspectTimeoutMs (failureConsistent_of_reaches hreaches
      hlookup (heartbeatExpected_ne_retired hexpected)) hexpected hdead hage

def virtualDisk : NodeHardwareProfile := { simulatedDisk with executionMode := .virtual }

/-- A virtual node works and is not heard of. -/
def silentCalls : List ManagerCall :=
  [.registerNode virtualDisk 0 0, .node virtualDisk.nodeId (.activateNode 1)]

theorem failures_detected_silent :
    ∃ node', ((afterAll {} plainNumerics {} silentCalls).evaluateHeartbeatHealth {}
        [virtualDisk.nodeId] 100 20 50).nodes.lookup virtualDisk.nodeId = some node' ∧
      node'.health = .failed := by
  have hactivates : ActivatesUnfailed
      (NodePowerManager.after {} plainNumerics {} (.registerNode virtualDisk 0 0))
      (.node virtualDisk.nodeId (.activateNode 1)) := by
    intro node hlookup _ _
    rw [field_eq (f := NodeRecord.health) (a := .healthy) (by decide +kernel)
      hlookup]
    decide
  have hreaches : Reaches {} plainNumerics ActivatesUnfailed
      (historyOf {} plainNumerics {} silentCalls)
      (afterAll {} plainNumerics {} silentCalls) :=
    serves_afterAll silentCalls ⟨trivial, trivial, trivial, hactivates, trivial⟩
  have henumerates : Enumerates [virtualDisk.nodeId]
      (afterAll {} plainNumerics {} silentCalls).nodes := by
    have hkeys : (afterAll {} plainNumerics {} silentCalls).nodes.keys =
      [virtualDisk.nodeId] := by decide +kernel
    exact hkeys ▸ enumerates_keys _
  cases hlookup : (afterAll {} plainNumerics {} silentCalls).nodes.lookup
      virtualDisk.nodeId with
  | none => exact absurd hlookup (by decide +kernel)
  | some node =>
      cases hlookup' : ((afterAll {} plainNumerics {}
          silentCalls).evaluateHeartbeatHealth {} [virtualDisk.nodeId] 100 20 50).nodes.lookup
          virtualDisk.nodeId with
      | none => exact absurd hlookup' (by decide +kernel)
      | some node' =>
          have hexpected : heartbeatExpected node = true :=
            field_eq (f := heartbeatExpected) (by decide +kernel) hlookup
          have hage : heartbeatAge 100 node = 100 :=
            field_eq (f := heartbeatAge 100) (by decide +kernel) hlookup
          exact ⟨node', rfl, (failures_detected {} plainNumerics _ _ hreaches).2 _ _ _ _ henumerates
            (by decide) _ _ _ hlookup hlookup' (.inl hexpected) (by rw [hage]; decide)⟩

/-- A node fails while it joins and is activated. -/
def activatedFailedCalls : List ManagerCall :=
  [.registerNode simulatedDisk 0 0, .node simulatedDisk.nodeId (.markNodeFailed 1 []),
    .node simulatedDisk.nodeId (.activateNode 2)]

theorem activated_node_keeps_source : ¬ FailureLaw {} plainNumerics Any := by
  intro hlaw
  have hreaches : Reaches {} plainNumerics Any
      (historyOf {} plainNumerics {} activatedFailedCalls)
      (afterAll {} plainNumerics {} activatedFailedCalls) :=
    serves_afterAll activatedFailedCalls ⟨trivial, trivial, trivial, trivial,
      trivial, trivial, trivial⟩
  cases hlookup : (afterAll {} plainNumerics {}
      activatedFailedCalls).nodes.lookup simulatedDisk.nodeId with
  | none => exact absurd hlookup (by decide +kernel)
  | some node =>
      have hworking : node.lifecycle = .working :=
        field_eq (f := NodeRecord.lifecycle) (by decide +kernel) hlookup
      have hhealthy : node.health = .healthy :=
        field_eq (f := NodeRecord.health) (by decide +kernel) hlookup
      have hsource : node.failureSource = .injected :=
        field_eq (f := NodeRecord.failureSource) (by decide +kernel) hlookup
      have hagrees := (hlaw _ _ hreaches).1 _ node hlookup (by rw [hworking]; decide)
      rw [hhealthy, hsource] at hagrees
      exact absurd hagrees (by decide)

end Zb.Scheduler
