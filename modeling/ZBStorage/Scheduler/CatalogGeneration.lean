-- SUMMARY: What the scheduler proposes to the catalog of nodes, and when a change of it always comes with a new generation.
import ZBStorage.Mds.Messages
import ZBStorage.Scheduler.Retirement

/-!
# The generation of the catalog

`FillManagedNodeView` of `scheduler/service/ManagedNodeProtoAdapter.cpp`, and the
generation of the power manager. The operations count the generation up by hand.
None of them counts energy, which grows with every replay. Three of them change more
of what is proposed and may leave the generation as it was: the replay before a
change of the transition, and the levels that a tick or a request notes as actuated.
-/

namespace Zb.Scheduler

open Zb.StorageModel Bytes TableLoop CallHistory

/-! ## The proposed view -/

section Conversions

open Rpc

def nodeKindToProto : NodeKind → ManagedNodeKind
  | .storage => .storage
  | .metadata => .metadata
  | .opticalLibrary => .opticalLibrary

def executionModeToProto : ExecutionMode → ManagedExecutionMode
  | .physical => .physical
  | .virtual => .virtual
  | .simulated => .simulated

def deviceKindToProto : DeviceKind → ManagedDeviceKind
  | .hdd => .hdd
  | .ssd => .ssd
  | .disc => .disc
  | .opticalDrive => .opticalDrive

def lifecycleToProto : LifecycleState → ManagedLifecycleState
  | .joining => .joining
  | .working => .working
  | .draining => .draining
  | .exiting => .exiting
  | .retired => .retired

def healthToProto : HealthState → ManagedHealthState
  | .healthy => .healthy
  | .suspect => .suspect
  | .failed => .failed

def powerToProto : PowerLevel → ManagedPowerLevel
  | .off => .off
  | .standby => .standby
  | .medium => .medium
  | .peak => .peak

def administrativeStateToProto : AdministrativeState → ManagedAdministrativeState
  | .enabled => .enabled
  | .draining => .draining
  | .disabled => .disabled

def serviceModeToProto : NodeServiceMode → ManagedServiceMode
  | .readOnly => .readOnly
  | .readWrite => .readWrite

def failureSourceToProto : FailureSource → ManagedFailureSource
  | .none => .none
  | .heartbeatTimeout => .heartbeatTimeout
  | .reliabilityModel => .reliabilityModel
  | .injected => .injected

/-- Both enumerations have the same numbers. -/
def accessPathToProto : AccessPath → ManagedAccessPath
  | .default => .default
  | .opticalCacheHit => .opticalCacheHit
  | .opticalDisc => .opticalDisc
  | .archive => .archive
  | .migration => .migration

def fillDeviceGroup (group : DeviceGroup) : ManagedDeviceGroup where
  name := group.name
  kind := deviceKindToProto group.kind
  deviceCapacityBytes := group.deviceCapacityBytes
  deviceCount := group.deviceCount
  perDeviceBandwidthBytesPerSec := group.perDeviceBandwidthBytesPerSec
  maxConcurrency := group.maxConcurrency
  perDeviceReadBandwidthBytesPerSec := group.perDeviceReadBandwidthBytesPerSec
  perDeviceWriteBandwidthBytesPerSec := group.perDeviceWriteBandwidthBytesPerSec

def fillReliability (reliability : ReliabilityProfile) : ManagedReliabilityProfile where
  meanLifetimeMs := reliability.meanLifetimeMs
  lifetimeStddevMs := reliability.lifetimeStddevMs
  minimumLifetimeMs := reliability.minimumLifetimeMs
  meanTimeBetweenFailuresMs := reliability.meanTimeBetweenFailuresMs
  meanRepairTimeMs := reliability.meanRepairTimeMs
  model := if reliability.model = .bathtubCurve then .bathtubCurve else .normalLifetime
  earlyFailureWindowMs := reliability.earlyFailureWindowMs
  wearoutStartAgeMs := reliability.wearoutStartAgeMs
  earlyFailureRateFit := reliability.earlyFailureRateFit
  usefulLifeFailureRateFit := reliability.usefulLifeFailureRateFit
  wearoutFailureRateFit := reliability.wearoutFailureRateFit

def fillSpec (profile : NodeHardwareProfile) : ManagedNodeSpec where
  nodeId := profile.nodeId
  kind := nodeKindToProto profile.kind
  executionMode := executionModeToProto profile.executionMode
  logicalNodeCount := profile.logicalNodeCount
  technologyGeneration := profile.technologyGeneration
  instanceGeneration := profile.instanceGeneration
  participatesInPlacement := profile.participatesInPlacement
  participatesInPlacementSet := true
  externalNetworkBandwidthBytesPerSec := profile.externalNetworkBandwidthBytesPerSec
  fixedAccessLatencyUs := profile.fixedAccessLatencyUs
  opticalLoadLatencyUs := profile.opticalLoadLatencyUs
  opticalSeekLatencyUs := profile.opticalSeekLatencyUs
  deviceGroups := profile.deviceGroups.map fillDeviceGroup
  power :=
    { peakMilliwatts := profile.power.peakMilliwatts
      mediumMilliwatts := profile.power.mediumMilliwatts
      standbyMilliwatts := profile.power.standbyMilliwatts
      offMilliwatts := profile.power.offMilliwatts }
  reliability := fillReliability profile.reliability

def fillDevice (device : DeviceInventory) : ManagedDeviceInventory where
  deviceId := device.diskId
  kind := deviceKindToProto device.kind
  capacityBytes := device.capacityBytes
  freeBytes := device.freeBytes
  usedBytes := deviceUsedBytes device
  isHealthy := device.isHealthy
  readBandwidthBytesPerSec := device.readBandwidthBytesPerSec
  writeBandwidthBytesPerSec := device.writeBandwidthBytesPerSec
  accumulatedWriteBytes := device.accumulatedWriteBytes
  lastUpdateMs := device.lastUpdateMs
  healthSource := device.healthSource

def fillOptical (optical : OpticalLibraryStatus) : ManagedOpticalLibraryStatus where
  observed := optical.observed
  totalSlots := optical.totalSlots
  localDiscCount := optical.localDiscCount
  blankDiscCount := optical.blankDiscCount
  recordingDiscCount := optical.recordingDiscCount
  recordedDiscCount := optical.recordedDiscCount
  defectiveDiscCount := optical.defectiveDiscCount
  stagingCapacityBytes := optical.stagingCapacityBytes
  stagingUsedBytes := optical.stagingUsedBytes
  pendingWriteTasks := optical.pendingWriteTasks
  pendingReadTasks := optical.pendingReadTasks
  busyDrives := optical.busyDrives
  observedAtMs := optical.observedAtMs
  telemetryVersion := optical.telemetryVersion
  inventoryValid := optical.inventoryValid
  stagingValid := optical.stagingValid
  backgroundValid := optical.backgroundValid
  physicalHealthObserved := optical.physicalHealthObserved
  observationSource := optical.observationSource
  collectionError := optical.collectionError
  pendingArchiveBatches := optical.pendingArchiveBatches
  backgroundTasks := optical.backgroundTasks
  stagingReadReservedBytes := optical.stagingReadReservedBytes
  stagingWriteReservedBytes := optical.stagingWriteReservedBytes
  configuredDiscCount := optical.configuredDiscCount
  validUntilMs := optical.validUntilMs
  acceptsArchiveWrites := optical.acceptsArchiveWrites

def fillStream (stream : NodeMetricsStreamState) : ManagedMetricsStreamState where
  accessPath := accessPathToProto stream.accessPath
  reporterEpoch := stream.reporterEpoch
  reportSequence := stream.reportSequence
  windowEndMs := stream.windowEndMs
  utilization := stream.utilization
  queueDepth := stream.queueDepth
  retired := stream.retired
  readOperations := stream.readOperations
  writeOperations := stream.writeOperations
  readBytes := stream.readBytes
  writeBytes := stream.writeBytes

def fillReadiness (readiness : NodeReadinessStatus) : ManagedNodeReadiness where
  observed := readiness.observed
  initializationComplete := readiness.initializationComplete
  inventoryReady := readiness.inventoryReady
  metadataReady := readiness.metadataReady
  observedAtMs := readiness.observedAtMs
  message := readiness.message

def fillManagedNodeView (node : NodeRecord) : ManagedNodeView where
  spec? := some (fillSpec node.profile)
  lifecycle := lifecycleToProto node.lifecycle
  health := healthToProto node.health
  powerLevel := powerToProto node.powerLevel
  joinTimeMs := node.joinTimeMs
  sampledLifetimeMs := node.sampledLifetimeMs
  plannedExitTimeMs := node.plannedExitTimeMs
  actualExitTimeMs := node.actualExitTimeMs
  lastAccessMs := node.lastAccessMs
  energyMicrojoules := node.energyMicrojoules
  residentDataBytes := node.residentDataBytes
  lastUtilization := node.lastUtilization
  lastQueueDepth := node.lastQueueDepth
  accessOperationCount := node.accessOperationCount
  failureReason := node.failureReason
  capacityBytes := calculateCapacityBytes node.profile
  drainRemainingObjects := node.drainRemainingObjects
  drainRemainingBytes := node.drainRemainingBytes
  drainActiveRequests := node.drainActiveRequests
  drainLastReportMs := node.drainLastReportMs
  actuatedPowerLevel := powerToProto node.actuatedPowerLevel
  lastPowerActuationMs := node.lastPowerActuationMs
  lastPowerActuationError := node.lastPowerActuationError
  nextFailureTimeMs := node.nextFailureTimeMs
  repairDueTimeMs := node.repairDueTimeMs
  failureCount := node.failureCount
  compactId := node.identity.compactId.toUInt64
  serviceAddress := node.identity.serviceAddress
  administrativeState := administrativeStateToProto node.administrativeState
  serviceMode := serviceModeToProto node.serviceMode
  lastHeartbeatMs := node.lastHeartbeatMs
  inventoryGeneration := node.inventory.generation
  inventoryObservedAtMs := node.inventory.observedAtMs
  inventoryDevices := node.inventory.devices.map fillDevice
  accumulatedWriteBytes := node.accumulatedWriteBytes
  failureSource := failureSourceToProto node.failureSource
  opticalLibrary := fillOptical node.opticalLibrary
  metricsStreams := node.metricsStreams.map fillStream
  wakeCount := node.wakeCount
  standbyTransitionCount := node.standbyTransitionCount
  powerOffCount := node.powerOffCount
  replacementCount := node.replacementCount
  predecessorNodeId := node.predecessorNodeId
  observedCapacityBytes := inventoryCapacityBytes node.inventory
  observedFreeBytes := inventoryFreeBytes node.inventory
  observedUsedBytes := inventoryUsedBytes node.inventory
  actuatedEnergyMicrojoules := node.actuatedEnergyMicrojoules
  lastActuatedEnergyUpdateMs := node.lastActuatedEnergyUpdateMs
  readiness := fillReadiness node.readiness

/-- The view but for the accounts of energy, which grow without a new generation. -/
def withoutEnergy (view : ManagedNodeView) : ManagedNodeView :=
  { view with
    energyMicrojoules := 0
    actuatedEnergyMicrojoules := 0
    lastActuatedEnergyUpdateMs := 0 }

/-- What a proposal says about a node but for its energy, with the transition that the
    placement view shows. -/
structure CatalogFields where
  view : ManagedNodeView
  transition : TransitionState
  deriving DecidableEq

def catalogFields (node : NodeRecord) : CatalogFields where
  view := withoutEnergy (fillManagedNodeView node)
  transition := node.transition

/-- What a proposal says about the node of an id, if there is one. -/
def proposedFields (nodeId : Bytes) (manager : NodePowerManager) : Option CatalogFields :=
  (manager.nodes.lookup nodeId).map catalogFields

end Conversions

variable {policy : PowerPolicy} {num : Numerics} {canOff changed : Bool} {nodeId : Bytes}
  {node node' : NodeRecord} {manager manager' : NodePowerManager} {call : ManagerCall}
  {nodeCall : NodeCall} {level : PowerLevel} {nowMs : UInt64}

/-! ## Calls that count -/

/-- The level of the node is what a node that is not physical has confirmed. -/
def Confirmed (node : NodeRecord) (level : PowerLevel) : Prop :=
  node.profile.executionMode = .physical ∨ node.actuatedPowerLevel = level

/-- The operation does not change what is proposed on a path that leaves the generation
    as it was. -/
def NodeCall.Counts (policy : PowerPolicy) (num : Numerics) (canOff : Bool) (node : NodeRecord) :
    NodeCall → Prop
  | .setTransitionState state nowMs => node.transition = state →
      Quiet policy num canOff node nowMs
  | .requestPowerLevel level nowMs force =>
      ¬(level = .off ∧ force = false ∧ canOff = false) →
      (node.powerLevel = level ∨
        force = false ∧ level.toNat < node.powerLevel.toNat ∧ settling policy node nowMs = true) →
      ¬(force = true ∧ PowerLevel.medium.toNat ≤ level.toNat ∧ nowMs > node.lastAccessMs) →
      Confirmed node level
  | _ => True

/-- The generation is not the last one, and the call does not change what is proposed on
    a path that leaves the generation as it was. -/
def Counts (policy : PowerPolicy) (num : Numerics) (manager : NodePowerManager) (call : ManagerCall) :
    Prop :=
  manager.generation ≠ Saturating.largest ∧
  match call with
  | .node nodeId nodeCall => ∀ node, manager.nodes.lookup nodeId = some node →
      nodeCall.Counts policy num (canPowerOff policy manager.nodes node) node
  | .tick _ filter _ => ∀ nodeId node, manager.nodes.lookup nodeId = some node →
      filter.skips node = false → Confirmed node node.powerLevel
  | _ => True

theorem Confirmed.actuated (h : Confirmed node level) :
    (if node.profile.executionMode = .physical then node.actuatedPowerLevel else level) =
      node.actuatedPowerLevel := by
  split
  · rfl
  · rename_i hphysical
    exact (h.resolve_left hphysical).symm

/-- The catalog does not see energy. -/
theorem SameButEnergy.catalogFields (h : SameButEnergy node node') :
    Scheduler.catalogFields node' = Scheduler.catalogFields node := by
  rw [SameButEnergy] at h
  rw [h]
  rfl

theorem setTransitionState_counts {state : TransitionState}
    (hcounts : (NodeCall.setTransitionState state nowMs).Counts policy num canOff node)
    (h : setTransitionState policy num canOff state nowMs node = .ok (node', false)) :
    catalogFields node' = catalogFields node := by
  simp only [setTransitionState, Except.ok.injEq, Prod.mk.injEq, decide_eq_false_iff_not,
    not_not] at h
  obtain ⟨rfl, hsame⟩ := h
  have hkept : (advancePowerPolicy policy num canOff node nowMs).1.transition = node.transition := by
    rw [advancePowerPolicy_fst]
  have hadvanced := advancePowerPolicy_unchanged
    (advancePowerPolicy_of_quiet (hcounts (hkept.symm.trans hsame)))
  rw [← hsame]
  exact hadvanced.catalogFields

theorem requestPowerLevel_counts {force : Bool}
    (hcounts : (NodeCall.requestPowerLevel level nowMs force).Counts policy num canOff node)
    (h : requestPowerLevel policy canOff level nowMs force node = .ok (node', false)) :
    catalogFields node' = catalogFields node := by
  unfold requestPowerLevel at h
  split at h
  · cases h
  · rename_i hallowed
    have hallowed' : ¬(level = .off ∧ force = false ∧ canOff = false) := by simpa using hallowed
    simp only [Except.ok.injEq, Prod.mk.injEq, Bool.or_eq_false_iff, decide_eq_false_iff_not] at h
    obtain ⟨rfl, hset, htouched⟩ := h
    rcases setPowerLevel_cases policy node level nowMs force with ⟨heq, hkept⟩ | ⟨heq, -⟩
    · have hactuated := (hcounts hallowed' hkept htouched).actuated
      simp only [heq, if_neg htouched, actuateUnlessPhysical_eq, actuatedUnlessPhysical, hactuated]
    · rw [heq] at hset
      cases hset

/-- The other operations tell of every change. -/
theorem NodeCall.Effect.unchanged (h : nodeCall.Effect num canOff nodeId node node' changed)
    (hsame : changed = false)
    (htransition : ∀ state nowMs, nodeCall ≠ .setTransitionState state nowMs)
    (hrequest : ∀ level nowMs force, nodeCall ≠ .requestPowerLevel level nowMs force) :
    catalogFields node' = catalogFields node := by
  cases h with
  | alreadyDraining => rfl
  | repeatedMetrics => rfl
  | setAdministrativeState =>
      simp only [ne_eq, decide_eq_false_iff_not, not_not] at hsame
      simp only [catalogFields, fillManagedNodeView, hsame]
  | setServiceMode =>
      simp only [ne_eq, decide_eq_false_iff_not, not_not] at hsame
      simp only [catalogFields, fillManagedNodeView, hsame]
  | assignCmsCompactId =>
      simp only [ne_eq, decide_eq_false_iff_not, not_not] at hsame
      simp only [catalogFields, fillManagedNodeView, hsame]
  | setResidentDataBytes =>
      simp only [ne_eq, decide_eq_false_iff_not, not_not] at hsame
      simp only [catalogFields, fillManagedNodeView, hsame]
  | setTransitionState => exact absurd rfl (htransition _ _)
  | requestPowerLevel => exact absurd rfl (hrequest _ _ _)
  | _ => cases hsame

/-- An operation that counts and leaves the generation leaves what is proposed. -/
theorem NodeCall.Counts.unchanged (hcounts : nodeCall.Counts policy num canOff node)
    (hrun : nodeCall.run policy num canOff nodeId node = .ok (node', false)) :
    catalogFields node' = catalogFields node := by
  by_cases htransition : ∃ state nowMs, nodeCall = .setTransitionState state nowMs
  · obtain ⟨state, nowMs, rfl⟩ := htransition
    exact setTransitionState_counts hcounts hrun
  by_cases hrequest : ∃ level nowMs force, nodeCall = .requestPowerLevel level nowMs force
  · obtain ⟨level, nowMs, force, rfl⟩ := hrequest
    exact requestPowerLevel_counts hcounts hrun
  refine (NodeCall.effect_of_run hrun).unchanged rfl ?_ ?_
  · exact fun state nowMs heq => htransition ⟨state, nowMs, heq⟩
  · exact fun level nowMs force heq => hrequest ⟨level, nowMs, force, heq⟩

/-- A tick that tells of no change leaves what is proposed, if what it notes as actuated
    was confirmed. -/
theorem tickNode_unchanged (hconfirmed : Confirmed node node.powerLevel)
    (h : (tickNode policy num canOff nowMs node).2 = false) :
    catalogFields (tickNode policy num canOff nowMs node).1 = catalogFields node := by
  simp only [tickNode, Bool.or_eq_false_iff] at h ⊢
  obtain ⟨⟨⟨⟨hadvanced, hrepaired⟩, hfails⟩, hexits⟩, hset⟩ := h
  simp only [hrepaired, Bool.false_eq_true, if_false] at hfails hexits hset ⊢
  simp only [hfails, Bool.false_eq_true, if_false] at hexits hset ⊢
  simp only [hexits, Bool.false_eq_true, if_false] at hset ⊢
  rw [setPowerLevel_unchanged hset, actuateUnlessPhysical_eq]
  have hsame := advancePowerPolicy_unchanged hadvanced
  have hactuated : actuatedUnlessPhysical (advancePowerPolicy policy num canOff node nowMs).1
      (advancePowerPolicy policy num canOff node nowMs).1.powerLevel =
        (advancePowerPolicy policy num canOff node nowMs).1.actuatedPowerLevel := by
    rw [hsame.powerLevel, advancePowerPolicy_fst]
    exact hconfirmed.actuated
  rw [hactuated]
  exact hsame.catalogFields

/-! ## Steps of the generation -/

/-- The generation does not go back, and what is proposed is the same where the
    generation is. -/
structure Tells (manager manager' : NodePowerManager) : Prop where
  le : manager.generation ≤ manager'.generation
  same : manager'.generation ≤ manager.generation →
    ∀ nodeId, proposedFields nodeId manager' = proposedFields nodeId manager

theorem Tells.refl (manager : NodePowerManager) : Tells manager manager :=
  ⟨Std.le_refl _, fun _ _ => rfl⟩

theorem Tells.trans {a b c : NodePowerManager} (hab : Tells a b) (hbc : Tells b c) : Tells a c where
  le := Std.le_trans hab.le hbc.le
  same hle nodeId := by
    have hbc' := hbc.same (Std.le_trans hle hab.le) nodeId
    have hab' := hab.same (Std.le_trans hbc.le hle) nodeId
    rw [hbc', hab']

theorem lt_add_one (h : manager.generation ≠ Saturating.largest) :
    manager.generation < manager.generation + 1 := by
  have hlt := manager.generation.toNat_lt
  have hne : manager.generation.toNat ≠ Saturating.largest.toNat :=
    fun heq => h (UInt64.toNat_inj.mp heq)
  rw [Saturating.toNat_largest] at hne
  rw [UInt64.lt_iff_toNat_lt, UInt64.toNat_add, UInt64.toNat_one, Nat.mod_eq_of_lt (by omega)]
  omega

/-- A change that is told makes a new generation. -/
theorem Tells.bumped (nodes : NodeTable) (h : manager.generation ≠ Saturating.largest)
    (hsame : changed = false → ∀ nodeId,
      (nodes.lookup nodeId).map catalogFields = proposedFields nodeId manager) :
    Tells manager (manager.bumped nodes changed) := by
  cases changed with
  | true =>
      have hlt := lt_add_one h
      exact ⟨Std.le_of_lt hlt, fun hle => absurd hlt (Std.not_lt.mpr hle)⟩
  | false => exact ⟨Std.le_refl _, fun _ => hsame rfl⟩

theorem callNode_tells (hcounts : Counts policy num manager (.node nodeId nodeCall))
    (h : manager.callNode policy num nodeId nodeCall = .ok manager') : Tells manager manager' := by
  obtain ⟨node, node', changed, hlookup, -, hrun, rfl⟩ := callNode_ok h
  refine .bumped _ hcounts.1 ?_
  rintro rfl id
  by_cases hid : id = nodeId
  · subst hid
    rw [AList.lookup_insert, proposedFields, hlookup]
    exact congrArg some ((hcounts.2 node hlookup).unchanged hrun)
  · rw [AList.lookup_insert_ne hid]
    rfl

/-- A loop that tells of no change leaves what is proposed. -/
theorem loop_tells {order : List Bytes} {update : NodeTable → NodeRecord → NodeRecord × Bool}
    (hgeneration : manager.generation ≠ Saturating.largest)
    (henumerates : Enumerates order manager.nodes)
    (hturn : ∀ nodes nodeId node, manager.nodes.lookup nodeId = some node →
      (update nodes node).2 = false → catalogFields (update nodes node).1 = catalogFields node) :
    Tells manager (manager.bumped (forEach update order manager.nodes).1
      (forEach update order manager.nodes).2) := by
  refine .bumped _ hgeneration fun hsame nodeId => ?_
  cases hlookup : manager.nodes.lookup nodeId with
  | none =>
      have hout : nodeId ∉ (forEach update order manager.nodes).1 :=
        fun hin => AList.lookup_eq_none.mp hlookup (mem_forEach.mp hin)
      rw [AList.lookup_eq_none.mpr hout, proposedFields, hlookup]
  | some node =>
      obtain ⟨order₁, order₂, rfl⟩ := Enumerates.split henumerates hlookup
      rw [lookup_forEach henumerates.nodup hlookup, proposedFields, hlookup]
      exact congrArg some (hturn _ nodeId node hlookup
        (forEach_unchanged henumerates.nodup hlookup hsame))

theorem catalogFields_restoredNode (node : NodeRecord) :
    catalogFields (restoredNode node) = catalogFields node := by
  by_cases hidentity : node.identity.nodeId = []
  · by_cases hinventory : node.inventory.nodeId = []
    · simp only [restoredNode, hidentity, hinventory, if_true]
      rfl
    · simp only [restoredNode, hidentity, hinventory, if_true, if_false]
      rfl
  · by_cases hinventory : node.inventory.nodeId = []
    · simp only [restoredNode, hidentity, hinventory, if_true, if_false]
      rfl
    · simp only [restoredNode, hidentity, hinventory, if_false]
      rfl

theorem restart_tells (hkeyed : Keyed manager.nodes)
    (h : NodePowerManager.restore manager.snapshot = .ok manager') : Tells manager manager' := by
  obtain ⟨hgeneration, hnodes⟩ := restart_ok hkeyed h
  constructor
  · rw [hgeneration]
    change manager.generation ≤ if 1 ≤ manager.generation then manager.generation else 1
    split
    · exact Std.le_refl _
    · rename_i hzero
      exact Std.le_of_lt (Std.not_le.mp hzero)
  · intro _ nodeId
    unfold proposedFields
    cases hlookup : manager.nodes.lookup nodeId with
    | some node =>
        rw [(hnodes nodeId _).mpr ⟨node, hlookup, rfl⟩]
        exact congrArg some (catalogFields_restoredNode node)
    | none =>
        cases hlookup' : manager'.nodes.lookup nodeId with
        | none => rfl
        | some node' =>
            obtain ⟨node, hfound, -⟩ := (hnodes nodeId node').mp hlookup'
            rw [hlookup] at hfound
            cases hfound

/-- A call that counts tells of what it changes. -/
theorem serve_tells (hkeyed : Keyed manager.nodes) (hcounts : Counts policy num manager call)
    (h : manager.Serve policy num call manager') : Tells manager manager' := by
  obtain ⟨hvisits, hok | ⟨-, rfl⟩⟩ := h
  swap
  · exact .refl _
  cases call with
  | registerNode profile joinTimeMs lifetimeSeed =>
      obtain ⟨-, -, rfl⟩ := registerNode_ok hok
      exact .bumped _ hcounts.1 fun hfalse => nomatch hfalse
  | linkReplacement id predecessorId =>
      obtain ⟨_, _, -, -, rfl⟩ := linkReplacement_ok hok
      exact .bumped _ hcounts.1 fun hfalse => nomatch hfalse
  | node nodeId nodeCall => exact callNode_tells hcounts hok
  | evaluateHeartbeatHealth order nowMs suspectTimeoutMs deadTimeoutMs =>
      cases hok
      refine loop_tells hcounts.1 hvisits fun nodes nodeId node _ hsame => ?_
      cases hevaluated : evaluateNode policy nowMs suspectTimeoutMs deadTimeoutMs node with
      | mk node' changed =>
          rw [hevaluated] at hsame
          dsimp only at hsame
          cases hsame
          cases evaluateNode_evaluated hevaluated
          rfl
  | tick order filter nowMs =>
      cases hok
      refine loop_tells hcounts.1 hvisits fun nodes nodeId node hlookup hsame => ?_
      unfold NodePowerManager.tickTurn at hsame ⊢
      cases hskips : filter.skips node with
      | true => rfl
      | false =>
          rw [hskips] at hsame
          exact tickNode_unchanged (hcounts.2 nodeId node hlookup hskips) hsame
  | restart => exact restart_tells hkeyed hok

end Zb.Scheduler
