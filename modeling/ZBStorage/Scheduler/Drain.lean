-- SUMMARY: Leaving nodes: what keeps them drained until they are finalised, and closed for writes.
import ZBStorage.Scheduler.Retirement

/-!
# Draining and leaving

A node exits when a drain report carries three zeros. It stays drained as long as
the later reports about it carry zeros too; finalisation looks at the resident
bytes only. A node that drains is not enabled, except when an access event was
what found its planned exit.
-/

namespace Zb.Scheduler

open Zb.StorageModel Bytes TableLoop CallHistory
open NodePowerManager (afterAll field_eq serves_afterAll historyOf)

variable {policy : PowerPolicy} {num : Numerics} {canOff changed : Bool} {nodeId : Bytes}
  {node node' : NodeRecord} {manager manager' : NodePowerManager} {call : ManagerCall}
  {nodeCall : NodeCall} {nowMs : UInt64} {hist : List (Served NodePowerManager ManagerCall)}

/-! ## Drained nodes -/

/-- What a drain report says: objects, bytes and requests that are left. -/
structure DrainReport where
  remainingObjects : UInt64
  remainingBytes : UInt64
  activeRequests : UInt32
  deriving DecidableEq

def DrainReport.zero : DrainReport := ⟨0, 0, 0⟩

/-- What the record keeps of the last drain report. -/
def drainReportOf (node : NodeRecord) : DrainReport :=
  ⟨node.drainRemainingObjects, node.drainRemainingBytes, node.drainActiveRequests⟩

/-- The drain report about a node that was accepted by this call. -/
def acceptedDrainReport (policy : PowerPolicy) (num : Numerics) (nodeId : Bytes)
    (served : Served NodePowerManager ManagerCall) : Option DrainReport :=
  match served.call with
  | .node id (.reportDrainProgress _ remainingObjects remainingBytes activeRequests) =>
      if id = nodeId ∧ (served.before.answer policy num served.call).isOk then
        some ⟨remainingObjects, remainingBytes, activeRequests⟩
      else none
  | _ => none

/-- The latest drain report about a node that a history accepted. -/
def latestDrainReport (policy : PowerPolicy) (num : Numerics) (nodeId : Bytes)
    (hist : List (Served NodePowerManager ManagerCall)) : Option DrainReport :=
  hist.foldl (fun latest served => (acceptedDrainReport policy num nodeId served).or latest) none

theorem latestDrainReport_snoc (served : Served NodePowerManager ManagerCall) :
    latestDrainReport policy num nodeId (hist ++ [served]) =
      (acceptedDrainReport policy num nodeId served).or
        (latestDrainReport policy num nodeId hist) := by
  rw [latestDrainReport, List.foldl_append]
  rfl

/-- A drain report about an exiting node that is not stale carries three zeros. -/
def ReportsStayZero (manager : NodePowerManager) : ManagerCall → Prop
  | .node nodeId (.reportDrainProgress reportTsMs remainingObjects remainingBytes activeRequests) =>
      ∀ node, manager.nodes.lookup nodeId = some node → node.lifecycle = .exiting →
        node.drainLastReportMs ≤ reportTsMs →
        remainingObjects = 0 ∧ remainingBytes = 0 ∧ activeRequests = 0
  | _ => True

/-- Only a drain report lets a node exit or changes what an exiting node keeps of it. -/
theorem NodeCall.Effect.exits (h : nodeCall.Effect num canOff nodeId node node' changed)
    (hreport : ∀ ts objects bytes requests,
      nodeCall ≠ .reportDrainProgress ts objects bytes requests)
    (hexiting : node'.lifecycle = .exiting) :
    node.lifecycle = .exiting ∧ drainReportOf node' = drainReportOf node := by
  cases h with
  | activateNode => cases hexiting
  | beginRemoveNode => cases hexiting
  | finalizeRemoveNode => cases hexiting
  | reportAccessEvent hserves =>
      dsimp only at hexiting
      split at hexiting
      · cases hexiting
      · rw [hexiting] at hserves
        cases hserves
  | reportDrainProgress => exact absurd rfl (hreport _ _ _ _)
  | _ => exact ⟨hexiting, rfl⟩

theorem Ticked.exits (h : Ticked canOff nowMs node node') (hexiting : node'.lifecycle = .exiting) :
    node.lifecycle = .exiting ∧ drainReportOf node' = drainReportOf node := by
  cases h
  dsimp only at hexiting
  split at hexiting
  · cases hexiting
  · rename_i hstays
    refine ⟨hexiting, ?_⟩
    simp only [drainReportOf, if_neg hstays]

theorem NodeStep.exits (h : NodeStep policy num manager nodeId node call node')
    (hreport : ∀ ts objects bytes requests,
      call ≠ .node nodeId (.reportDrainProgress ts objects bytes requests))
    (hexiting : node'.lifecycle = .exiting) :
    node.lifecycle = .exiting ∧ drainReportOf node' = drainReportOf node := by
  cases h with
  | called _ hrun =>
      refine (NodeCall.effect_of_run hrun).exits ?_ hexiting
      rintro ts objects bytes requests rfl
      exact hreport ts objects bytes requests rfl
  | evaluated =>
      cases hevaluated : evaluateNode _ _ _ _ node with
      | mk node' changed =>
          rw [hevaluated] at hexiting
          cases evaluateNode_evaluated hevaluated <;> exact ⟨hexiting, rfl⟩
  | ticked => exact (tickNode_ticked ..).exits hexiting
  | _ => exact ⟨hexiting, rfl⟩

theorem acceptedDrainReport_none {served : Served NodePowerManager ManagerCall}
    (h : ∀ ts objects bytes requests,
      served.call ≠ .node nodeId (.reportDrainProgress ts objects bytes requests)) :
    acceptedDrainReport policy num nodeId served = none := by
  unfold acceptedDrainReport
  split
  · rename_i ts objects bytes requests hcall
    apply if_neg
    rintro ⟨rfl, -⟩
    exact h ts objects bytes requests hcall
  · rfl

/-- The node is exiting with an empty drain report, and the latest report that was
    accepted about it was empty. -/
structure Drained (policy : PowerPolicy) (num : Numerics)
    (hist : List (Served NodePowerManager ManagerCall)) (nodeId : Bytes) (node : NodeRecord) :
    Prop where
  kept : drainReportOf node = .zero
  latest : latestDrainReport policy num nodeId hist = some .zero

/-- A drain report that is answered leaves an exiting node drained. -/
theorem Drained.of_report {ts objects bytes : UInt64} {requests : UInt32}
    (hlookup : manager.nodes.lookup nodeId = some node)
    (hok : ReportsStayZero manager (.node nodeId (.reportDrainProgress ts objects bytes requests)))
    (hvalid : (NodeCall.reportDrainProgress ts objects bytes requests).validate = .ok ())
    (hrun : (NodeCall.reportDrainProgress ts objects bytes requests).run policy num
      (canPowerOff policy manager.nodes node) nodeId node = .ok (node', changed))
    (hexiting : node'.lifecycle = .exiting) :
    Drained policy num (hist ++
      [⟨manager, .node nodeId (.reportDrainProgress ts objects bytes requests), manager'⟩])
      nodeId node' := by
  have hanswer := callNode_eq_ok hlookup hvalid hrun
  cases NodeCall.effect_of_run hrun with
  | reportDrainProgress _ hfresh _ =>
      have hzero : objects = 0 ∧ bytes = 0 ∧ requests = 0 := by
        by_contra hnot
        dsimp only at hexiting
        rw [if_neg hnot] at hexiting
        exact hnot (hok node hlookup hexiting hfresh)
      obtain ⟨rfl, rfl, rfl⟩ := hzero
      refine ⟨rfl, ?_⟩
      rw [latestDrainReport_snoc]
      simp only [acceptedDrainReport, NodePowerManager.answer, hanswer, Except.isOk, Except.toBool,
        and_self, if_true, Option.some_or]
      rfl

/-- A drain report that is refused is not counted. -/
theorem acceptedDrainReport_refused {ts objects bytes : UInt64} {requests : UInt32} {error : Bytes}
    (h : manager.callNode policy num nodeId (.reportDrainProgress ts objects bytes requests) =
      .error error) :
    acceptedDrainReport policy num nodeId
      ⟨manager, .node nodeId (.reportDrainProgress ts objects bytes requests), manager'⟩ = none := by
  simp only [acceptedDrainReport, NodePowerManager.answer, h, Except.isOk, Except.toBool]
  rfl

/-- In a history whose reports stay empty, the nodes that exit are drained. -/
theorem drained_of_exiting (h : Reaches policy num ReportsStayZero hist manager)
    (hlookup : manager.nodes.lookup nodeId = some node) (hexiting : node.lifecycle = .exiting) :
    Drained policy num hist nodeId node := by
  -- the history decides what the latest report is, so the induction is over it
  induction h generalizing node with
  | nil => cases hlookup
  | @snoc hist s t call hbefore hok hserve ih =>
      have hkeyed := Reaches.keyed hbefore
      cases hfound : s.nodes.lookup nodeId with
      | none =>
          obtain ⟨profile, joinTimeMs, lifetimeSeed, -, -, -, rfl⟩ :=
            registered_of_new hkeyed hserve hfound hlookup
          cases hexiting
      | some before =>
          obtain ⟨after, hafter, hstep⟩ := exists_nodeStep hkeyed hserve hfound
          cases hlookup.symm.trans hafter
          by_cases hreport : ∃ ts objects bytes requests,
              call = .node nodeId (.reportDrainProgress ts objects bytes requests)
          · obtain ⟨ts, objects, bytes, requests, rfl⟩ := hreport
            cases hstep with
            | called hvalid hrun => exact Drained.of_report hfound hok hvalid hrun hexiting
            | same hrefused =>
                obtain ⟨error, herror⟩ := hrefused _ rfl
                obtain ⟨hkept, hlatest⟩ := ih hfound hexiting
                refine ⟨hkept, ?_⟩
                rw [latestDrainReport_snoc, acceptedDrainReport_refused herror]
                exact hlatest
          · have hother : ∀ ts objects bytes requests,
                call ≠ .node nodeId (.reportDrainProgress ts objects bytes requests) := by
              rintro ts objects bytes requests rfl
              exact hreport ⟨ts, objects, bytes, requests, rfl⟩
            obtain ⟨hbeforeExits, hsame⟩ := hstep.exits hother hexiting
            obtain ⟨hkept, hlatest⟩ := ih hfound hbeforeExits
            refine ⟨hsame.trans hkept, ?_⟩
            rw [latestDrainReport_snoc, acceptedDrainReport_none hother]
            exact hlatest

/-- In every history of such calls the nodes that exit are drained, and a node that
    is removed without force was: its latest report was empty, and so is the node. -/
def DrainLaw (policy : PowerPolicy) (num : Numerics)
    (ok : NodePowerManager → ManagerCall → Prop) : Prop :=
  ∀ hist manager, Reaches policy num ok hist manager →
    (∀ nodeId node, manager.nodes.lookup nodeId = some node → node.lifecycle = .exiting →
      drainReportOf node = .zero) ∧
    (∀ nodeId nowMs manager',
      manager.answer policy num (.node nodeId (.finalizeRemoveNode nowMs false)) = .ok manager' →
      latestDrainReport policy num nodeId hist = some .zero ∧
        ∃ node, manager.nodes.lookup nodeId = some node ∧ node.residentDataBytes = 0)

/-- Nodes are removed drained as long as the reports about nodes that exit stay empty. -/
theorem drain_law (policy : PowerPolicy) (num : Numerics) :
    DrainLaw policy num ReportsStayZero := by
  intro hist manager hreaches
  constructor
  · intro nodeId node hlookup hexiting
    exact (drained_of_exiting hreaches hlookup hexiting).kept
  · intro nodeId nowMs manager' hanswer
    obtain ⟨node, node', changed, hlookup, -, hrun, -⟩ := callNode_ok hanswer
    cases NodeCall.effect_of_run hrun with
    | finalizeRemoveNode hexiting hresident _ =>
        exact ⟨(drained_of_exiting hreaches hlookup (hexiting rfl)).latest, node, hlookup, hresident⟩

/-- A node works, is asked to leave and reports that it is empty. -/
def drainingCalls : List ManagerCall :=
  [.registerNode simulatedDisk 0 0, .node simulatedDisk.nodeId (.activateNode 1),
    .node simulatedDisk.nodeId (.beginRemoveNode 2),
    .node simulatedDisk.nodeId (.reportDrainProgress 3 0 0 0)]

theorem drain_law_removed :
    ((afterAll {} plainNumerics {} drainingCalls).answer {} plainNumerics
      (.node simulatedDisk.nodeId (.finalizeRemoveNode 4 false))).isOk = true ∧
    latestDrainReport {} plainNumerics simulatedDisk.nodeId
      (historyOf {} plainNumerics {} drainingCalls) = some .zero := by
  have hreaches : Reaches {} plainNumerics ReportsStayZero
      (historyOf {} plainNumerics {} drainingCalls)
      (afterAll {} plainNumerics {} drainingCalls) :=
    serves_afterAll drainingCalls ⟨trivial, trivial, trivial, trivial, trivial,
      trivial, trivial, fun _ _ _ _ => ⟨rfl, rfl, rfl⟩, trivial⟩
  have hok : ((afterAll {} plainNumerics {} drainingCalls).answer {} plainNumerics
      (.node simulatedDisk.nodeId (.finalizeRemoveNode 4 false))).isOk = true := by decide +kernel
  cases hanswer : (afterAll {} plainNumerics {} drainingCalls).answer {}
      plainNumerics (.node simulatedDisk.nodeId (.finalizeRemoveNode 4 false)) with
  | error error => rw [hanswer] at hok; cases hok
  | ok manager' => exact ⟨rfl, ((drain_law {} plainNumerics _ _ hreaches).2 _ _ _ hanswer).1⟩

/-- After the node exits it reports five objects, and is removed all the same. -/
def regressingCalls : List ManagerCall :=
  drainingCalls ++ [.node simulatedDisk.nodeId (.reportDrainProgress 4 5 0 0)]

theorem regressed_node_removed : ¬ DrainLaw {} plainNumerics Any := by
  intro hlaw
  have hreaches : Reaches {} plainNumerics Any
      (historyOf {} plainNumerics {} regressingCalls)
      (afterAll {} plainNumerics {} regressingCalls) :=
    serves_afterAll regressingCalls ⟨trivial, trivial, trivial, trivial, trivial,
      trivial, trivial, trivial, trivial, trivial, trivial⟩
  have hok : ((afterAll {} plainNumerics {} regressingCalls).answer {}
      plainNumerics (.node simulatedDisk.nodeId (.finalizeRemoveNode 5 false))).isOk = true := by
    decide +kernel
  cases hanswer : (afterAll {} plainNumerics {} regressingCalls).answer {}
      plainNumerics (.node simulatedDisk.nodeId (.finalizeRemoveNode 5 false)) with
  | error error => rw [hanswer] at hok; cases hok
  | ok manager' =>
      have hlatest := ((hlaw _ _ hreaches).2 _ _ _ hanswer).1
      exact absurd hlatest (by decide +kernel)

/-! ## Closed for writes -/

/-- The node drains, exits or is retired. -/
def leaving (node : NodeRecord) : Prop :=
  node.lifecycle = .draining ∨ node.lifecycle = .exiting ∨ node.lifecycle = .retired

/-- A node that leaves is not enabled. -/
def Closed (node : NodeRecord) : Prop := leaving node → node.administrativeState ≠ .enabled

/-- An access event that counts does not come at the planned exit of a node that works
    and is enabled. -/
def EventsBeforeExit (manager : NodePowerManager) : ManagerCall → Prop
  | .node nodeId (.reportAccessEvent event) =>
      ∀ node, manager.nodes.lookup nodeId = some node → node.lifecycle = .working →
        node.administrativeState = .enabled → node.health ≠ .failed →
        node.lastMetricsEndMs ≤ event.timeMs → event.timeMs < node.plannedExitTimeMs
  | _ => True

theorem NodeCall.Effect.closed (h : nodeCall.Effect num canOff nodeId node node' changed)
    (hlookup : manager.nodes.lookup nodeId = some node)
    (hok : EventsBeforeExit manager (.node nodeId nodeCall)) (hclosed : Closed node) :
    Closed node' := by
  cases h with
  | activateNode =>
      rintro (hlife | hlife | hlife)
      · cases hlife
      · cases hlife
      · cases hlife
  | beginRemoveNode => exact fun _ henabled => nomatch henabled
  | finalizeRemoveNode => exact fun _ henabled => nomatch henabled
  | setAdministrativeState hretired hleaving =>
      rintro (hlife | hlife | hlife)
      · exact hleaving (.inl hlife)
      · exact hleaving (.inr hlife)
      · rw [hretired hlife]
        exact fun henabled => nomatch henabled
  | @reportAccessEvent event _ _ _ _ _ _ _ _ _ _ hhealth _ hfresh _ =>
      intro hleaving henabled
      by_cases hexits : node.lifecycle = .working ∧ event.timeMs ≥ node.plannedExitTimeMs
      · exact absurd (hok node hlookup hexits.1 henabled hhealth hfresh)
          (Std.not_lt.mpr hexits.2)
      · refine hclosed ?_ henabled
        simpa only [leaving, if_neg hexits] using hleaving
  | reportDrainProgress hdraining => exact fun _ => hclosed (hdraining.imp_right .inl)
  | _ => exact hclosed

theorem Ticked.closed (h : Ticked canOff nowMs node node') (hclosed : Closed node) :
    Closed node' := by
  cases h
  intro hleaving henabled
  dsimp only at henabled
  split at henabled
  · cases henabled
  · rename_i hstays
    refine hclosed ?_ henabled
    simpa only [leaving, if_neg hstays] using hleaving

theorem NodeStep.closed (h : NodeStep policy num manager nodeId node call node')
    (hlookup : manager.nodes.lookup nodeId = some node) (hok : EventsBeforeExit manager call)
    (hclosed : Closed node) : Closed node' := by
  cases h with
  | called _ hrun => exact (NodeCall.effect_of_run hrun).closed hlookup hok hclosed
  | evaluated =>
      cases hevaluated : evaluateNode _ _ _ _ node with
      | mk node' changed => cases evaluateNode_evaluated hevaluated <;> exact hclosed
  | ticked => exact (tickNode_ticked ..).closed hclosed
  | _ => exact hclosed

/-- In every history of such calls the nodes that leave are closed for writes. -/
def ClosedLaw (policy : PowerPolicy) (num : Numerics)
    (ok : NodePowerManager → ManagerCall → Prop) : Prop :=
  ∀ hist manager, Reaches policy num ok hist manager →
    ∀ nodeId node, manager.nodes.lookup nodeId = some node → Closed node

/-- Nodes that leave are closed as long as access events come before the planned exit. -/
theorem leaving_closed (policy : PowerPolicy) (num : Numerics) :
    ClosedLaw policy num EventsBeforeExit := by
  intro hist manager hreaches nodeId node hlookup
  refine hreaches.nodes (P := Closed) ?_ ?_ hlookup
  · rintro s profile joinTimeMs lifetimeSeed - - (hlife | hlife | hlife)
    · cases hlife
    · cases hlife
    · cases hlife
  · intro s call nodeId node node' hlookup hok hclosed hstep
    exact hstep.closed hlookup hok hclosed

theorem leaving_closed_draining :
    ∃ node, (afterAll {} plainNumerics {} drainingCalls).nodes.lookup
        simulatedDisk.nodeId = some node ∧
      node.lifecycle = .exiting ∧ node.administrativeState ≠ .enabled := by
  have hreaches : Reaches {} plainNumerics EventsBeforeExit
      (historyOf {} plainNumerics {} drainingCalls)
      (afterAll {} plainNumerics {} drainingCalls) :=
    serves_afterAll drainingCalls ⟨trivial, trivial, trivial, trivial, trivial,
      trivial, trivial, trivial, trivial⟩
  cases hlookup : (afterAll {} plainNumerics {} drainingCalls).nodes.lookup
      simulatedDisk.nodeId with
  | none => exact absurd hlookup (by decide +kernel)
  | some node =>
      have hexiting : node.lifecycle = .exiting :=
        field_eq (f := NodeRecord.lifecycle) (by decide +kernel) hlookup
      exact ⟨node, rfl, hexiting, leaving_closed {} plainNumerics _ _ hreaches _ node hlookup
        (.inr (.inl hexiting))⟩

/-- A node works until an access event finds its planned exit. -/
def overdueCalls : List ManagerCall :=
  [.registerNode simulatedDisk 0 0, .node simulatedDisk.nodeId (.activateNode 1),
    .node simulatedDisk.nodeId (.reportAccessEvent { eventTimeUs := 2000000 })]

theorem overdue_node_enabled : ¬ ClosedLaw {} plainNumerics Any := by
  intro hlaw
  have hreaches : Reaches {} plainNumerics Any
      (historyOf {} plainNumerics {} overdueCalls)
      (afterAll {} plainNumerics {} overdueCalls) :=
    serves_afterAll overdueCalls ⟨trivial, trivial, trivial, trivial, trivial,
      trivial, trivial⟩
  cases hlookup : (afterAll {} plainNumerics {} overdueCalls).nodes.lookup
      simulatedDisk.nodeId with
  | none => exact absurd hlookup (by decide +kernel)
  | some node =>
      have hdraining : node.lifecycle = .draining :=
        field_eq (f := NodeRecord.lifecycle) (by decide +kernel) hlookup
      have henabled : node.administrativeState = .enabled :=
        field_eq (f := NodeRecord.administrativeState) (by decide +kernel) hlookup
      exact hlaw _ _ hreaches _ node hlookup (.inl hdraining) henabled

end Zb.Scheduler
