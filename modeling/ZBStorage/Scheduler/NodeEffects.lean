-- SUMMARY: What each operation of the power manager can do to the record of a node, and a node's turn in the two loops.
import ZBStorage.Scheduler.NodePowerManager

/-!
# Effects of the operations

An operation that succeeds leaves a record that differs from the one before in
the fields listed here and in the power account, whose level is known where the
operation forces one.
-/

namespace Zb.Scheduler

open Zb.StorageModel Bytes

variable {policy : PowerPolicy} {num : Numerics} {canOff : Bool} {nodeId : Bytes}
  {node node' : NodeRecord} {call : NodeCall} {changed : Bool}

/-- The level that a physical node keeps until it confirms another one. -/
def actuatedUnlessPhysical (node : NodeRecord) (level : PowerLevel) : PowerLevel :=
  if node.profile.executionMode = .physical then node.actuatedPowerLevel else level

theorem actuateUnlessPhysical_eq (node : NodeRecord) (level : PowerLevel) :
    actuateUnlessPhysical node level =
      { node with actuatedPowerLevel := actuatedUnlessPhysical node level } := by
  by_cases h : node.profile.executionMode = .physical
  · simp only [actuateUnlessPhysical, actuatedUnlessPhysical, h, ne_eq, not_true_eq_false,
      if_false, if_true]
  · simp only [actuateUnlessPhysical, actuatedUnlessPhysical, h, ne_eq, not_false_eq_true,
      if_false, if_true]

/-- What a node confirms by a heartbeat. -/
structure ConfirmsRunning (node : NodeRecord) (actuated : PowerLevel)
    (transition : TransitionState) : Prop where
  /-- a physical node runs -/
  physical : node.profile.executionMode = .physical → actuated ≠ .off
  other : node.profile.executionMode ≠ .physical → actuated = node.actuatedPowerLevel
  transition : transition = node.transition ∨ transition = .stable

/-- `call.Effect num canOff nodeId node node' changed`: what the operation may make of the
    record `node`, and whether the generation grows. -/
inductive NodeCall.Effect (num : Numerics) (canOff : Bool) (nodeId : Bytes) (node : NodeRecord) :
    NodeCall → NodeRecord → Bool → Prop
  | activateNode {nowMs : UInt64} {account : PowerAccount} {readiness : NodeReadinessStatus} :
      node.lifecycle = .joining → account.powerLevel = .medium →
      Effect num canOff nodeId node (.activateNode nowMs)
        { node with
          toPowerAccount := account
          readiness := readiness
          lifecycle := .working
          health := .healthy
          administrativeState := .enabled
          lastAccessMs := max node.lastAccessMs nowMs
          actuatedPowerLevel := actuatedUnlessPhysical node .medium } true
  | alreadyDraining {nowMs : UInt64} :
      node.lifecycle = .draining → Effect num canOff nodeId node (.beginRemoveNode nowMs) node false
  | beginRemoveNode {nowMs : UInt64} {account : PowerAccount} :
      node.lifecycle = .joining ∨ node.lifecycle = .working → Replayed canOff node account →
      Effect num canOff nodeId node (.beginRemoveNode nowMs)
        { node with
          toPowerAccount := account
          lifecycle := .draining
          administrativeState := .draining
          drainRemainingBytes := node.residentDataBytes
          drainLastReportMs := nowMs } true
  | finalizeRemoveNode {nowMs : UInt64} {force : Bool} {account : PowerAccount} :
      (force = false → node.lifecycle = .exiting) → node.residentDataBytes = 0 →
      account.powerLevel = .off →
      Effect num canOff nodeId node (.finalizeRemoveNode nowMs force)
        { node with
          toPowerAccount := account
          lifecycle := .retired
          administrativeState := .disabled
          actualExitTimeMs := nowMs
          transition := .stable
          actuatedPowerLevel := .off } true
  | markNodeFailed {nowMs : UInt64} {reason : Bytes} {account : PowerAccount} :
      node.lifecycle ≠ .retired → account.powerLevel = .off →
      Effect num canOff nodeId node (.markNodeFailed nowMs reason)
        { node with
          toPowerAccount := account
          health := .failed
          failureReason := reason
          failureSource := .injected
          failureCount := node.failureCount + 1
          repairDueTimeMs := repairDueTime node nowMs } true
  | repairNode {nowMs nextFailureTimeMs : UInt64} {account : PowerAccount} :
      node.health = .failed → node.lifecycle ≠ .retired → account.powerLevel = .medium →
      Effect num canOff nodeId node (.repairNode nowMs)
        { node with
          toPowerAccount := account
          health := .healthy
          failureReason := []
          failureSource := .none
          repairDueTimeMs := 0
          nextFailureTimeMs := nextFailureTimeMs
          actuatedPowerLevel := actuatedUnlessPhysical node .medium } true
  | reportHeartbeat {serviceAddress : Bytes} {inventory : NodeInventorySnapshot} {nowMs : UInt64}
      {account : PowerAccount} {identity : NodeIdentity} {accumulatedWriteBytes : UInt64}
      {failureReason : Bytes} {actuated : PowerLevel} {transition : TransitionState} :
      node.lifecycle ≠ .retired → Replayed canOff node account →
      ConfirmsRunning node actuated transition →
      Effect num canOff nodeId node (.reportHeartbeat serviceAddress inventory nowMs)
        { node with
          toPowerAccount := account
          identity := identity
          inventory := completedInventory nodeId inventory nowMs node
          lastHeartbeatMs := nowMs
          residentDataBytes := inventoryUsedBytes (completedInventory nodeId inventory nowMs node)
          accumulatedWriteBytes := accumulatedWriteBytes
          health :=
            if node.health = .suspect ∨ node.failureSource = .heartbeatTimeout then .healthy
            else node.health
          failureSource :=
            if node.health = .suspect ∨ node.failureSource = .heartbeatTimeout then .none
            else node.failureSource
          failureReason := failureReason
          actuatedPowerLevel := actuated
          transition := transition } true
  | reportReadiness {readiness : NodeReadinessStatus} {instanceGeneration : UInt64} :
      node.lifecycle ≠ .retired →
      Effect num canOff nodeId node (.reportReadiness readiness instanceGeneration)
        { node with readiness := readiness } true
  | reportOpticalLibraryStatus {status : OpticalLibraryStatus} {instanceGeneration : UInt64}
      {account : PowerAccount} {serviceMode : NodeServiceMode} :
      node.lifecycle ≠ .retired → Replayed canOff node account →
      Effect num canOff nodeId node (.reportOpticalLibraryStatus status instanceGeneration)
        { node with
          toPowerAccount := account
          opticalLibrary := status
          serviceMode := serviceMode } true
  | setAdministrativeState {state : AdministrativeState} :
      (node.lifecycle = .retired → state = .disabled) →
      (node.lifecycle = .draining ∨ node.lifecycle = .exiting → state ≠ .enabled) →
      Effect num canOff nodeId node (.setAdministrativeState state)
        { node with administrativeState := state } (node.administrativeState ≠ state)
  | setServiceMode {mode : NodeServiceMode} :
      node.lifecycle ≠ .retired →
      Effect num canOff nodeId node (.setServiceMode mode)
        { node with serviceMode := mode } (node.serviceMode ≠ mode)
  | assignCmsCompactId {compactId : UInt32} :
      Effect num canOff nodeId node (.assignCmsCompactId compactId)
        { node with identity := { node.identity with compactId := compactId } }
        (node.identity.compactId ≠ compactId)
  | setTransitionState {state : TransitionState} {nowMs : UInt64} {account : PowerAccount} :
      Replayed canOff node account →
      Effect num canOff nodeId node (.setTransitionState state nowMs)
        { node with toPowerAccount := account, transition := state } (node.transition ≠ state)
  | requestPowerLevel {level : PowerLevel} {nowMs lastAccessMs : UInt64} {force changed : Bool}
      {account : PowerAccount} :
      (level = .off → force = false → canOff = true) →
      account.powerLevel = node.powerLevel ∨ account.powerLevel = level →
      Effect num canOff nodeId node (.requestPowerLevel level nowMs force)
        { node with
          toPowerAccount := account
          lastAccessMs := lastAccessMs
          actuatedPowerLevel := actuatedUnlessPhysical node level } changed
  | setResidentDataBytes {bytes : UInt64} :
      Effect num canOff nodeId node (.setResidentDataBytes bytes)
        { node with residentDataBytes := bytes } (node.residentDataBytes ≠ bytes)
  | repeatedMetrics {metrics : NodeAccessMetrics} :
      repeatsReport metrics (previousStream metrics node) = true →
      Effect num canOff nodeId node (.reportMetrics metrics) node false
  | reportMetrics {metrics : NodeAccessMetrics} {account : PowerAccount}
      {lastUtilization : Double} {lastQueueDepth : UInt32}
      {lastMetricsEndMs lastMetricsSequence lastMetricsReporterEpoch accumulatedWriteBytes
        lastAccessMs : UInt64} :
      isServingLifecycle node.lifecycle = true → node.health ≠ .failed →
      repeatsReport metrics (previousStream metrics node) = false →
      staleReport metrics node = false → Replayed canOff node account →
      Effect num canOff nodeId node (.reportMetrics metrics)
        { node with
          toPowerAccount := account
          metricsStreams := putStream metrics (nextStream num metrics node)
            (node.metricsStreams.map (retireOthers metrics))
          lastUtilization := lastUtilization
          lastQueueDepth := lastQueueDepth
          lastMetricsEndMs := lastMetricsEndMs
          lastMetricsSequence := lastMetricsSequence
          lastMetricsReporterEpoch := lastMetricsReporterEpoch
          accessOperationCount :=
            Saturating.add node.accessOperationCount (metricsOperations metrics)
          accumulatedWriteBytes := accumulatedWriteBytes
          lastAccessMs := lastAccessMs } true
  | reportAccessEvent {event : NodeAccessEvent} {account : PowerAccount}
      {lastUtilization : Double} {lastQueueDepth : UInt32}
      {lastMetricsEndMs lastAccessMs accessOperationCount accumulatedWriteBytes
        drainRemainingBytes drainLastReportMs : UInt64} :
      isServingLifecycle node.lifecycle = true → node.health ≠ .failed →
      node.administrativeState ≠ .disabled → node.lastMetricsEndMs ≤ event.timeMs →
      account.powerLevel ≠ .off →
      Effect num canOff nodeId node (.reportAccessEvent event)
        { node with
          toPowerAccount := account
          lastUtilization := lastUtilization
          lastQueueDepth := lastQueueDepth
          lastMetricsEndMs := lastMetricsEndMs
          lastAccessMs := lastAccessMs
          accessOperationCount := accessOperationCount
          accumulatedWriteBytes := accumulatedWriteBytes
          lifecycle :=
            if node.lifecycle = .working ∧ event.timeMs ≥ node.plannedExitTimeMs then .draining
            else node.lifecycle
          drainRemainingBytes := drainRemainingBytes
          drainLastReportMs := drainLastReportMs } true
  | reportDrainProgress {reportTsMs remainingObjects remainingBytes : UInt64}
      {activeRequests : UInt32} {account : PowerAccount} :
      node.lifecycle = .draining ∨ node.lifecycle = .exiting →
      node.drainLastReportMs ≤ reportTsMs → Replayed canOff node account →
      Effect num canOff nodeId node
        (.reportDrainProgress reportTsMs remainingObjects remainingBytes activeRequests)
        { node with
          toPowerAccount := account
          drainRemainingObjects := remainingObjects
          drainRemainingBytes := remainingBytes
          drainActiveRequests := activeRequests
          drainLastReportMs := reportTsMs
          residentDataBytes := remainingBytes
          lifecycle :=
            if remainingObjects = 0 ∧ remainingBytes = 0 ∧ activeRequests = 0 then .exiting
            else node.lifecycle } true
  | reportPowerActuation {appliedLevel : PowerLevel} {nowMs : UInt64} {success : Bool}
      {message error : Bytes} :
      Effect num canOff nodeId node (.reportPowerActuation appliedLevel nowMs success message)
        { integrateEnergy node nowMs with
          lastPowerActuationMs := nowMs
          lastPowerActuationError := error
          actuatedPowerLevel := if success then appliedLevel else node.actuatedPowerLevel } true

/-! ## The operations have these effects -/

theorem activateNode_effect {nowMs : UInt64}
    (h : activateNode policy num canOff nowMs node = .ok (node', changed)) :
    NodeCall.Effect num canOff nodeId node (.activateNode nowMs) node' changed := by
  unfold activateNode at h
  split at h
  · cases h
  · rename_i hjoining
    split at h
    · cases h
    · have hready : ∃ readiness, (if node.readiness.ready then node
          else { node with readiness := assertedReadiness nowMs }) =
          { node with readiness := readiness } := by
        split
        · exact ⟨node.readiness, rfl⟩
        · exact ⟨_, rfl⟩
      obtain ⟨readiness, hready⟩ := hready
      simp only [hready, advancePowerPolicy_fst, setPowerLevel_fst, actuateUnlessPhysical_eq] at h
      cases h
      exact .activateNode (not_not.mp hjoining) (powerLevel_levelAccount_force ..)

theorem beginRemoveNode_effect {nowMs : UInt64}
    (h : beginRemoveNode policy num canOff nowMs node = .ok (node', changed)) :
    NodeCall.Effect num canOff nodeId node (.beginRemoveNode nowMs) node' changed := by
  unfold beginRemoveNode at h
  split at h
  · rename_i hdraining
    cases h
    exact .alreadyDraining hdraining
  · rename_i hnot
    split at h
    · cases h
    · rename_i hleft
      simp only [advancePowerPolicy_fst] at h
      cases h
      refine .beginRemoveNode ?_ (replayed_replayedAccount policy num canOff node nowMs)
      cases hlife : node.lifecycle <;> simp_all

theorem finalizeRemoveNode_effect {nowMs : UInt64} {force : Bool}
    (h : finalizeRemoveNode policy num canOff nowMs force node = .ok (node', changed)) :
    NodeCall.Effect num canOff nodeId node (.finalizeRemoveNode nowMs force) node' changed := by
  unfold finalizeRemoveNode at h
  split at h
  · cases h
  · rename_i hdrained
    split at h
    · cases h
    · rename_i hresident
      split at h
      · cases h
      · split at h
        · cases h
        · simp only [advancePowerPolicy_fst, setPowerLevel_fst] at h
          cases h
          refine .finalizeRemoveNode ?_ (not_not.mp hresident) (powerLevel_levelAccount_force ..)
          intro hforce
          by_contra hne
          exact hdrained ⟨by rw [hforce]; rfl, hne⟩

theorem markNodeFailed_effect {nowMs : UInt64} {reason : Bytes}
    (h : markNodeFailed policy num canOff nowMs reason node = .ok (node', changed)) :
    NodeCall.Effect num canOff nodeId node (.markNodeFailed nowMs reason) node' changed := by
  unfold markNodeFailed at h
  split at h
  · cases h
  · rename_i hretired
    simp only [advancePowerPolicy_fst, failNode, setPowerLevel_fst] at h
    cases h
    exact .markNodeFailed hretired (powerLevel_levelAccount_force ..)

theorem repairNode_effect {nowMs : UInt64}
    (h : repairNode policy num canOff nowMs node = .ok (node', changed)) :
    NodeCall.Effect num canOff nodeId node (.repairNode nowMs) node' changed := by
  unfold repairNode at h
  split at h
  · cases h
  · rename_i hrepairable
    rw [not_or, not_not] at hrepairable
    simp only [advancePowerPolicy_fst, recoverNode, setPowerLevel_fst, actuateUnlessPhysical_eq] at h
    cases h
    exact .repairNode hrepairable.1 hrepairable.2 (powerLevel_levelAccount_force ..)

theorem confirmRunning_eq (node : NodeRecord) :
    ∃ actuated transition, confirmRunning node =
        { node with actuatedPowerLevel := actuated, transition := transition } ∧
      ConfirmsRunning node actuated transition := by
  by_cases hphysical : node.profile.executionMode = .physical
  · refine ⟨_, _, by rw [confirmRunning, if_pos hphysical], fun _ => ?_,
      fun hother => absurd hphysical hother, ?_⟩
    · split
      · simp
      · rename_i hon
        exact hon
    · split
      · exact .inr rfl
      · exact .inl rfl
  · exact ⟨node.actuatedPowerLevel, node.transition, by rw [confirmRunning, if_neg hphysical],
      fun h => absurd h hphysical, fun _ => rfl, .inl rfl⟩

theorem reportHeartbeat_effect {serviceAddress : Bytes} {inventory : NodeInventorySnapshot}
    {nowMs : UInt64}
    (h : reportHeartbeat policy num canOff nodeId serviceAddress inventory nowMs node =
      .ok (node', changed)) :
    NodeCall.Effect num canOff nodeId node (.reportHeartbeat serviceAddress inventory nowMs) node'
      changed := by
  unfold reportHeartbeat at h
  split at h
  · cases h
  · rename_i hretired
    split at h
    · cases h
    · cases hvalid : validateNodeInventorySnapshot (completedInventory nodeId inventory nowMs node) with
      | error error =>
          simp only [hvalid, bind, Except.bind] at h
          cases h
      | ok _ =>
          simp only [hvalid, bind, Except.bind, pure, Except.pure] at h
          split at h
          · cases h
          · simp only [advancePowerPolicy_fst] at h
            cases h
            generalize hreplay : replayedAccount policy num canOff node nowMs = account
            have hreplayed := hreplay ▸ replayed_replayedAccount policy num canOff node nowMs
            generalize hbase : NodeRecord.mk .. = base
            obtain ⟨actuated, transition, heq, hconfirms⟩ := confirmRunning_eq base
            rw [heq]
            subst hbase
            exact .reportHeartbeat hretired hreplayed
              ⟨hconfirms.physical, hconfirms.other, hconfirms.transition⟩

theorem reportReadiness_effect {readiness : NodeReadinessStatus} {instanceGeneration : UInt64}
    (h : reportReadiness readiness instanceGeneration node = .ok (node', changed)) :
    NodeCall.Effect num canOff nodeId node (.reportReadiness readiness instanceGeneration) node'
      changed := by
  unfold reportReadiness at h
  split at h
  · cases h
  · rename_i hretired
    split at h
    · cases h
    · split at h
      · cases h
      · split at h
        · cases h
        · cases h
          exact .reportReadiness hretired

theorem reportOpticalLibraryStatus_effect {status : OpticalLibraryStatus}
    {instanceGeneration : UInt64}
    (h : reportOpticalLibraryStatus policy num canOff status instanceGeneration node =
      .ok (node', changed)) :
    NodeCall.Effect num canOff nodeId node (.reportOpticalLibraryStatus status instanceGeneration)
      node' changed := by
  unfold reportOpticalLibraryStatus at h
  split at h
  · cases h
  · split at h
    · cases h
    · split at h
      · cases h
      · split at h
        · cases h
        · rename_i hretired
          split at h
          · cases h
          · have hreplayed := replayed_replayedAccount policy num canOff node status.observedAtMs
            simp only [advancePowerPolicy_fst, setPowerLevel_fst] at h
            split at h
            · cases h
              refine .reportOpticalLibraryStatus hretired ?_
              intro hoff
              rw [powerLevel_levelAccount_force] at hoff
              cases hoff
            · cases h
              exact .reportOpticalLibraryStatus hretired hreplayed

theorem setAdministrativeState_effect {state : AdministrativeState}
    (h : setAdministrativeState state node = .ok (node', changed)) :
    NodeCall.Effect num canOff nodeId node (.setAdministrativeState state) node' changed := by
  unfold setAdministrativeState at h
  split at h
  · cases h
  · rename_i hretired
    split at h
    · cases h
    · rename_i hleaving
      cases h
      refine .setAdministrativeState ?_ ?_
      · intro hlife
        by_contra hstate
        exact hretired ⟨hlife, hstate⟩
      · intro hlife henabled
        exact hleaving ⟨hlife, henabled⟩

theorem setServiceMode_effect {mode : NodeServiceMode}
    (h : setServiceMode mode node = .ok (node', changed)) :
    NodeCall.Effect num canOff nodeId node (.setServiceMode mode) node' changed := by
  unfold setServiceMode at h
  split at h
  · cases h
  · rename_i hretired
    split at h
    · cases h
    · split at h
      · cases h
      · cases h
        exact .setServiceMode hretired

theorem assignCmsCompactId_effect {compactId : UInt32}
    (h : assignCmsCompactId compactId node = .ok (node', changed)) :
    NodeCall.Effect num canOff nodeId node (.assignCmsCompactId compactId) node' changed := by
  dsimp only [assignCmsCompactId] at h
  generalize (if node.profile.kind = .opticalLibrary then 0x00ffffff else 0x0000ffff : UInt32) =
    maximum at h
  split at h
  · cases h
  · split at h
    · cases h
    · cases h
      exact .assignCmsCompactId

theorem setTransitionState_effect {state : TransitionState} {nowMs : UInt64}
    (h : setTransitionState policy num canOff state nowMs node = .ok (node', changed)) :
    NodeCall.Effect num canOff nodeId node (.setTransitionState state nowMs) node' changed := by
  simp only [setTransitionState, advancePowerPolicy_fst] at h
  cases h
  exact .setTransitionState (replayed_replayedAccount policy num canOff node nowMs)

theorem requestPowerLevel_effect {level : PowerLevel} {nowMs : UInt64} {force : Bool}
    (h : requestPowerLevel policy canOff level nowMs force node = .ok (node', changed)) :
    NodeCall.Effect num canOff nodeId node (.requestPowerLevel level nowMs force) node' changed := by
  unfold requestPowerLevel at h
  split at h
  · cases h
  · rename_i hallowed
    simp only [setPowerLevel_fst, actuateUnlessPhysical_eq] at h
    cases h
    refine .requestPowerLevel ?_ powerLevel_setPowerLevel
    intro hoff hforce
    by_contra hcan
    exact hallowed ⟨hoff, by rw [hforce]; rfl, by simpa using hcan⟩

theorem reportDrainProgress_effect {reportTsMs remainingObjects remainingBytes : UInt64}
    {activeRequests : UInt32}
    (h : reportDrainProgress policy num canOff reportTsMs remainingObjects remainingBytes
      activeRequests node = .ok (node', changed)) :
    NodeCall.Effect num canOff nodeId node
      (.reportDrainProgress reportTsMs remainingObjects remainingBytes activeRequests) node'
      changed := by
  unfold reportDrainProgress at h
  split at h
  · cases h
  · rename_i hdraining
    split at h
    · cases h
    · rename_i hfresh
      simp only [advancePowerPolicy_fst] at h
      cases h
      refine .reportDrainProgress ?_ (Std.not_lt.mp hfresh)
        (replayed_replayedAccount policy num canOff node reportTsMs)
      rw [not_and_or, not_not, not_not] at hdraining
      exact hdraining

theorem acceptsAccess_iff :
    acceptsAccess node = true ↔ isServingLifecycle node.lifecycle = true ∧ node.health ≠ .failed ∧
      node.administrativeState ≠ .disabled := by
  simp [acceptsAccess, and_assoc]

theorem usedLevel_ne_off : usedLevel policy num node ≠ .off := by
  unfold usedLevel
  split
  · simp
  · simp

/-- A report of any use changes the time of the last access and the account, which
    is on after it if it was on before. -/
theorem useReported_eq (policy : PowerPolicy) (num : Numerics) (metrics : NodeAccessMetrics)
    (accountingMs : UInt64) (node : NodeRecord) :
    ∃ account lastAccessMs, useReported policy num metrics accountingMs node =
        { node with toPowerAccount := account, lastAccessMs := lastAccessMs } ∧
      (account.powerLevel = .off → account = node.toPowerAccount) := by
  dsimp only [useReported]
  split
  · refine ⟨_, _, setPowerLevel_fst .., fun hoff => ?_⟩
    rw [powerLevel_levelAccount_force] at hoff
    exact absurd hoff usedLevel_ne_off
  · exact ⟨node.toPowerAccount, _, rfl, fun _ => rfl⟩

theorem reportMetrics_effect {metrics : NodeAccessMetrics}
    (h : reportMetrics policy num canOff metrics node = .ok (node', changed)) :
    NodeCall.Effect num canOff nodeId node (.reportMetrics metrics) node' changed := by
  unfold reportMetrics at h
  split at h
  · cases h
  · rename_i hserves
    rw [Bool.not_eq_true', Bool.not_eq_false, acceptsAccess_iff] at hserves
    split at h
    · cases h
    · split at h
      · rename_i hrepeats
        cases h
        exact .repeatedMetrics hrepeats
      · rename_i hnew
        split at h
        · cases h
        · rename_i hstale
          simp only [advancePowerPolicy_fst, countReport] at h
          generalize hnow : max metrics.windowEndMs
            (max node.lastMetricsEndMs node.lastEnergyUpdateMs) = accountingMs at h
          generalize hreplay : replayedAccount policy num canOff node accountingMs = account at h
          have hreplayed := hreplay ▸ replayed_replayedAccount policy num canOff node accountingMs
          generalize hbase : NodeRecord.mk .. = base at h
          obtain ⟨account', lastAccessMs, heq, hon⟩ :=
            useReported_eq policy num metrics accountingMs base
          rw [heq] at h
          subst hbase
          cases h
          refine .reportMetrics hserves.1 hserves.2.1 (by simpa using hnew)
            (by simpa using hstale) ?_
          intro hoff
          have haccount : account' = account := hon hoff
          rw [haccount] at hoff
          exact hreplayed hoff

theorem reportAccessEvent_effect {event : NodeAccessEvent}
    (h : reportAccessEvent policy num canOff event node = .ok (node', changed)) :
    NodeCall.Effect num canOff nodeId node (.reportAccessEvent event) node' changed := by
  unfold reportAccessEvent at h
  dsimp only at h
  split at h
  · cases h
  · rename_i hserves
    rw [Bool.not_eq_true', Bool.not_eq_false, acceptsAccess_iff] at hserves
    split at h
    · cases h
    · rename_i hfresh
      simp only [advancePowerPolicy_fst, countEvent, setPowerLevel_fst] at h
      cases h
      refine .reportAccessEvent hserves.1 hserves.2.1 hserves.2.2 (Std.not_lt.mp hfresh) ?_
      rw [powerLevel_levelAccount_force]
      exact usedLevel_ne_off

/-- An operation that succeeds has its effect. -/
theorem NodeCall.effect_of_run (h : call.run policy num canOff nodeId node = .ok (node', changed)) :
    call.Effect num canOff nodeId node node' changed := by
  cases call with
  | activateNode nowMs => exact activateNode_effect h
  | beginRemoveNode nowMs => exact beginRemoveNode_effect h
  | finalizeRemoveNode nowMs force => exact finalizeRemoveNode_effect h
  | markNodeFailed nowMs reason => exact markNodeFailed_effect h
  | repairNode nowMs => exact repairNode_effect h
  | reportHeartbeat serviceAddress inventory nowMs => exact reportHeartbeat_effect h
  | reportReadiness readiness instanceGeneration => exact reportReadiness_effect h
  | reportOpticalLibraryStatus status instanceGeneration =>
      exact reportOpticalLibraryStatus_effect h
  | setAdministrativeState state => exact setAdministrativeState_effect h
  | setServiceMode mode => exact setServiceMode_effect h
  | assignCmsCompactId compactId => exact assignCmsCompactId_effect h
  | setTransitionState state nowMs => exact setTransitionState_effect h
  | requestPowerLevel level nowMs force => exact requestPowerLevel_effect h
  | setResidentDataBytes bytes =>
      cases h
      exact .setResidentDataBytes
  | reportMetrics metrics => exact reportMetrics_effect h
  | reportAccessEvent event => exact reportAccessEvent_effect h
  | reportDrainProgress reportTsMs remainingObjects remainingBytes activeRequests =>
      exact reportDrainProgress_effect h
  | reportPowerActuation appliedLevel nowMs success message =>
      cases h
      exact .reportPowerActuation

/-! ## Turns in the loops -/

/-- What the heartbeat detector may make of a record. -/
inductive Evaluated (nowMs deadTimeoutMs : UInt64) (node : NodeRecord) : NodeRecord → Bool → Prop
  | same : Evaluated nowMs deadTimeoutMs node node false
  | timedOut {account : PowerAccount} :
      node.lifecycle ≠ .retired → account.powerLevel = .off →
      Evaluated nowMs deadTimeoutMs node
        { node with
          toPowerAccount := account
          health := .failed
          failureSource := .heartbeatTimeout
          failureReason := ofAscii "heartbeat timeout"
          failureCount := node.failureCount + 1 } true
  | suspected :
      node.lifecycle ≠ .retired → node.failureSource = .none →
      Evaluated nowMs deadTimeoutMs node { node with health := .suspect } true
  | recovered :
      node.lifecycle ≠ .retired → node.health = .suspect →
      Evaluated nowMs deadTimeoutMs node { node with health := .healthy } true

theorem heartbeatExpected_ne_retired (h : heartbeatExpected node = true) :
    node.lifecycle ≠ .retired := by
  simp only [heartbeatExpected, Bool.and_eq_true, decide_eq_true_eq] at h
  exact h.1.2

theorem evaluateNode_evaluated {nowMs suspectTimeoutMs deadTimeoutMs : UInt64}
    (h : evaluateNode policy nowMs suspectTimeoutMs deadTimeoutMs node = (node', changed)) :
    Evaluated nowMs deadTimeoutMs node node' changed := by
  unfold evaluateNode at h
  dsimp only at h
  split at h
  · cases h
    exact .same
  · rename_i hexpected
    rw [Bool.not_eq_true', Bool.not_eq_false] at hexpected
    have hretired := heartbeatExpected_ne_retired hexpected
    split at h
    · split at h
      · simp only [heartbeatTimedOut, setPowerLevel_fst] at h
        cases h
        exact .timedOut hretired (powerLevel_levelAccount_force ..)
      · cases h
        exact .same
    · split at h
      · split at h
        · rename_i hsource
          cases h
          exact .suspected hretired hsource.1
        · cases h
          exact .same
      · split at h
        · rename_i hsuspect
          cases h
          exact .recovered hretired hsuspect
        · cases h
          exact .same

/-- What a tick may make of the health of a node. -/
inductive TickedHealth (node : NodeRecord) : HealthState → FailureSource → Prop
  | same : TickedHealth node node.health node.failureSource
  | repaired : node.lifecycle ≠ .retired → TickedHealth node .healthy .none
  | failed : node.lifecycle = .working → TickedHealth node .failed .reliabilityModel

/-- What a tick may make of a record. -/
inductive Ticked (canOff : Bool) (nowMs : UInt64) (node : NodeRecord) : NodeRecord → Prop
  | intro {account : PowerAccount} {health : HealthState} {failureSource : FailureSource}
      {failureReason : Bytes} {failureCount repairDueTimeMs nextFailureTimeMs : UInt64} :
      TickedHealth node health failureSource →
      (account.powerLevel = .off → node.powerLevel = .off ∨ node.lifecycle ≠ .working ∨
        health = .failed ∨ exitDue nowMs node = true ∨ canOff = true) →
      Ticked canOff nowMs node
        { node with
          toPowerAccount := account
          health := health
          failureSource := failureSource
          failureReason := failureReason
          failureCount := failureCount
          repairDueTimeMs := repairDueTimeMs
          nextFailureTimeMs := nextFailureTimeMs
          lifecycle := if exitDue nowMs node then .draining else node.lifecycle
          administrativeState :=
            if exitDue nowMs node then .draining else node.administrativeState
          drainRemainingBytes :=
            if exitDue nowMs node then node.residentDataBytes else node.drainRemainingBytes
          drainLastReportMs := if exitDue nowMs node then nowMs else node.drainLastReportMs
          actuatedPowerLevel := actuatedUnlessPhysical node account.powerLevel }

/-- The repair of a tick, due or not. -/
theorem tickRepair_eq (policy : PowerPolicy) (num : Numerics) (nowMs : UInt64) (node : NodeRecord) :
    ∃ account health failureSource failureReason repairDueTimeMs nextFailureTimeMs,
      (if repairDue nowMs node then recoverNode policy num nowMs node else node) =
        { node with
          toPowerAccount := account
          health := health
          failureSource := failureSource
          failureReason := failureReason
          repairDueTimeMs := repairDueTimeMs
          nextFailureTimeMs := nextFailureTimeMs } ∧
      TickedHealth node health failureSource ∧
      (account.powerLevel = .off → account = node.toPowerAccount) := by
  split
  · rename_i hdue
    simp only [repairDue, Bool.and_eq_true, decide_eq_true_eq] at hdue
    refine ⟨_, _, _, _, _, _, setPowerLevel_fst .., .repaired hdue.2, fun hoff => ?_⟩
    rw [powerLevel_levelAccount_force] at hoff
    cases hoff
  · exact ⟨_, _, _, _, _, _, rfl, .same, fun _ => rfl⟩

/-- The failure of a tick, due or not. -/
theorem tickFailure_eq (policy : PowerPolicy) (nowMs : UInt64) (reason : Bytes)
    (node : NodeRecord) :
    ∃ account health failureSource failureReason failureCount repairDueTimeMs,
      (if failureDue nowMs node then failNode policy nowMs reason .reliabilityModel node
        else node) =
        { node with
          toPowerAccount := account
          health := health
          failureSource := failureSource
          failureReason := failureReason
          failureCount := failureCount
          repairDueTimeMs := repairDueTimeMs } ∧
      ((health = node.health ∧ failureSource = node.failureSource ∧
          account = node.toPowerAccount) ∨
        (node.lifecycle = .working ∧ health = .failed ∧ failureSource = .reliabilityModel)) := by
  split
  · rename_i hdue
    simp only [failureDue, Bool.and_eq_true, decide_eq_true_eq] at hdue
    exact ⟨_, _, _, _, _, _, setPowerLevel_fst .., .inr ⟨hdue.1.1.2, rfl, rfl⟩⟩
  · exact ⟨_, _, _, _, _, _, rfl, .inl ⟨rfl, rfl, rfl⟩⟩

theorem startDraining_ite_eq (nowMs : UInt64) (exits : Bool) (node : NodeRecord) :
    (if exits then startDraining nowMs node else node) =
      { node with
        lifecycle := if exits then .draining else node.lifecycle
        administrativeState := if exits then .draining else node.administrativeState
        drainRemainingBytes := if exits then node.residentDataBytes else node.drainRemainingBytes
        drainLastReportMs := if exits then nowMs else node.drainLastReportMs } := by
  cases exits with
  | true => rfl
  | false => rfl

theorem tickNode_ticked (policy : PowerPolicy) (num : Numerics) (canOff : Bool) (nowMs : UInt64)
    (node : NodeRecord) : Ticked canOff nowMs node (tickNode policy num canOff nowMs node).1 := by
  have hreplayed := replayed_replayedAccount policy num canOff node nowMs
  simp only [tickNode, advancePowerPolicy_fst]
  generalize replayedAccount policy num canOff node nowMs = account at hreplayed ⊢
  obtain ⟨account₁, health₁, source₁, reason₁, due₁, next₁, hrepair, hhealth₁, hon₁⟩ :=
    tickRepair_eq policy num nowMs { node with toPowerAccount := account }
  rw [hrepair]
  obtain ⟨account₂, health₂, source₂, reason₂, count₂, due₂, hfail, hhealth₂⟩ :=
    tickFailure_eq policy nowMs (ofAscii "stochastic reliability failure")
      { node with
        toPowerAccount := account₁
        health := health₁
        failureSource := source₁
        failureReason := reason₁
        repairDueTimeMs := due₁
        nextFailureTimeMs := next₁ }
  rw [hfail, startDraining_ite_eq]
  simp only [setPowerLevel_fst, actuateUnlessPhysical_eq]
  refine .intro ?_ ?_
  · rcases hhealth₂ with ⟨hsame, hsource, -⟩ | ⟨hworking, hfailed, hsource⟩
    · rw [hsame, hsource]
      cases hhealth₁ with
      | same => exact .same
      | repaired hretired => exact .repaired hretired
      | failed hworking => exact .failed hworking
    · rw [hfailed, hsource]
      exact .failed hworking
  · intro hoff
    rcases levelAccount_off hoff with hkept | htaken
    · rcases hhealth₂ with ⟨-, -, haccount₂⟩ | ⟨-, hfailed, -⟩
      · rw [haccount₂] at hkept
        have haccount₁ : account₁ = account := hon₁ hkept
        rw [haccount₁] at hkept
        rcases hreplayed hkept with hbefore | hlife | hcan
        · exact .inl hbefore
        · exact .inr (.inl hlife)
        · exact .inr (.inr (.inr (.inr hcan)))
      · exact .inr (.inr (.inl hfailed))
    · rcases safeDesiredPowerLevel_off htaken with hlife | hcan
      · cases hexits : exitDue nowMs node with
        | true => exact .inr (.inr (.inr (.inl rfl)))
        | false =>
            refine .inr (.inl fun hworking => hlife ?_)
            change (if exitDue nowMs node then LifecycleState.draining else node.lifecycle) = .working
            rw [hexits]
            exact hworking
      · exact .inr (.inr (.inr (.inr hcan)))

end Zb.Scheduler
