-- SUMMARY: The operations of the power manager on one record, and a node's turn in the loops over all nodes.
import ZBStorage.Scheduler.PowerPolicy

/-!
# Operations on a node

What the public operations of `scheduler/power/NodePowerManager.cpp` make of a
node's record. An operation checks the record, replays the power policy up to its
own time and changes the record; one that answers an error changed nothing.
-/

namespace Zb.Scheduler

open Zb.StorageModel Bytes

structure NodeAccessMetrics where
  reporterEpoch : UInt64 := 0
  reportSequence : UInt64 := 0
  windowStartMs : UInt64 := 0
  windowEndMs : UInt64 := 0
  readOperations : UInt64 := 0
  writeOperations : UInt64 := 0
  otherOperations : UInt64 := 0
  readBytes : UInt64 := 0
  writeBytes : UInt64 := 0
  activeRequests : UInt32 := 0
  maxQueueDepth : UInt32 := 0
  busyTimeMs : UInt64 := 0
  lastAccessMs : UInt64 := 0
  accessPath : AccessPath := .default
  instanceGeneration : UInt64 := 0

structure NodeAccessEvent where
  eventTimeUs : UInt64 := 0
  isRead : Bool := false
  isWrite : Bool := false
  bytes : UInt64 := 0
  queueDepth : UInt32 := 0
  accessPath : AccessPath := .default

/-! ## Operations on one node -/

/-- What an operation makes of a node: an error, or the record and whether the
    generation of the manager grows. -/
abbrev NodeResult := Except Bytes (NodeRecord × Bool)

section NodeOperations

variable (policy : PowerPolicy) (num : Numerics)

def registeredNode (profile : NodeHardwareProfile) (joinTimeMs lifetimeSeed : UInt64) : NodeRecord :=
  let sampled := sampleLifetimeMs num profile.reliability lifetimeSeed
  let node : NodeRecord :=
    { profile := profile
      identity :=
        { nodeId := profile.nodeId
          kind := profile.kind
          executionMode := profile.executionMode }
      inventory := { nodeId := profile.nodeId }
      joinTimeMs := joinTimeMs
      sampledLifetimeMs := sampled
      plannedExitTimeMs := Saturating.add joinTimeMs sampled
      reliabilitySeed := lifetimeSeed
      lastAccessMs := joinTimeMs
      powerStateEnterMs := joinTimeMs
      lastEnergyUpdateMs := joinTimeMs
      lastActuatedEnergyUpdateMs := joinTimeMs
      lastPowerActuationMs := joinTimeMs }
  { node with nextFailureTimeMs := scheduleNextFailureTime num node joinTimeMs }

/-- The readiness that an operator asserts by activating a silent node. -/
def assertedReadiness (nowMs : UInt64) : NodeReadinessStatus where
  observed := true
  initializationComplete := true
  inventoryReady := true
  metadataReady := true
  observedAtMs := nowMs
  message := ofAscii "explicit activation readiness assertion"

/-- Only physical nodes wait for a confirmation of their level. -/
def actuateUnlessPhysical (node : NodeRecord) (level : PowerLevel) : NodeRecord :=
  if node.profile.executionMode ≠ .physical then { node with actuatedPowerLevel := level } else node

def activateNode (canOff : Bool) (nowMs : UInt64) (node : NodeRecord) : NodeResult :=
  if node.lifecycle ≠ .joining then .error (ofAscii "only a joining node can be activated")
  else if !node.readiness.ready ∧ node.readiness.observed then
    .error (ofAscii
      "joining node has not completed initialization, inventory, and metadata readiness")
  else
    let node :=
      if node.readiness.ready then node else { node with readiness := assertedReadiness nowMs }
    let node := (advancePowerPolicy policy num canOff node nowMs).1
    let node := { node with
      lifecycle := .working
      health := .healthy
      administrativeState := .enabled
      lastAccessMs := max node.lastAccessMs nowMs }
    let node := (setPowerLevel policy node .medium nowMs true).1
    .ok (actuateUnlessPhysical node .medium, true)

def beginRemoveNode (canOff : Bool) (nowMs : UInt64) (node : NodeRecord) : NodeResult :=
  if node.lifecycle = .draining then .ok (node, false)
  else if node.lifecycle = .retired ∨ node.lifecycle = .exiting then
    .error (ofAscii "node is already exiting or retired")
  else
    let node := (advancePowerPolicy policy num canOff node nowMs).1
    .ok ({ node with
      lifecycle := .draining
      administrativeState := .draining
      drainRemainingBytes := node.residentDataBytes
      drainLastReportMs := nowMs }, true)

/-- A virtual library whose discs are all blank and whose drives are idle. -/
def emptyVirtualOptical (node : NodeRecord) : Bool :=
  let optical := node.opticalLibrary
  node.profile.kind = .opticalLibrary && node.profile.executionMode ≠ .physical &&
  optical.observed && optical.blankDiscCount = optical.localDiscCount &&
  optical.recordingDiscCount = 0 && optical.pendingWriteTasks = 0 &&
  optical.pendingReadTasks = 0 && optical.busyDrives = 0

/-- An optical library that cannot retire at this time. -/
def opticalBlocksRetirement (nowMs : UInt64) (node : NodeRecord) : Bool :=
  let optical := node.opticalLibrary
  node.profile.kind = .opticalLibrary &&
  (!optical.observed ||
    (optical.telemetryVersion ≠ 0 &&
      (!optical.inventoryValid || !optical.backgroundValid || nowMs > optical.validUntilMs ||
        optical.pendingArchiveBatches ≠ 0 || optical.backgroundTasks ≠ 0)) ||
    (optical.localDiscCount ≠ 0 && !emptyVirtualOptical node))

def finalizeRemoveNode (canOff : Bool) (nowMs : UInt64) (force : Bool) (node : NodeRecord) :
    NodeResult :=
  if !force ∧ node.lifecycle ≠ .exiting then .error (ofAscii "node drain is not complete")
  else if node.residentDataBytes ≠ 0 then .error (ofAscii "node still has resident data")
  else if opticalBlocksRetirement nowMs node then
    .error (if !node.opticalLibrary.observed then
        ofAscii "optical inventory must be observed before retirement"
      else ofAscii "optical library still has occupied discs or active tasks")
  else if node.profile.executionMode = .physical ∧ node.actuatedPowerLevel ≠ .off then
    .error (ofAscii "physical node must be confirmed powered off before retirement")
  else
    let node := (advancePowerPolicy policy num canOff node nowMs).1
    let node := { node with
      lifecycle := .retired
      administrativeState := .disabled
      actualExitTimeMs := nowMs
      transition := .stable }
    let node := (setPowerLevel policy node .off nowMs true).1
    .ok ({ node with actuatedPowerLevel := .off }, true)

/-- The node fails, for this reason and from this source. -/
def failNode (nowMs : UInt64) (reason : Bytes) (source : FailureSource) (node : NodeRecord) :
    NodeRecord :=
  let node := { node with
    health := .failed
    failureReason := reason
    failureSource := source
    failureCount := node.failureCount + 1
    repairDueTimeMs := repairDueTime node nowMs }
  (setPowerLevel policy node .off nowMs true).1

def markNodeFailed (canOff : Bool) (nowMs : UInt64) (reason : Bytes) (node : NodeRecord) :
    NodeResult :=
  if node.lifecycle = .retired then .error (ofAscii "retired node cannot fail")
  else
    let node := (advancePowerPolicy policy num canOff node nowMs).1
    .ok (failNode policy nowMs reason .injected node, true)

/-- The node is healthy again and at medium power. -/
def recoverNode (nowMs : UInt64) (node : NodeRecord) : NodeRecord :=
  let node := { node with
    health := .healthy
    failureReason := []
    failureSource := .none
    repairDueTimeMs := 0
    nextFailureTimeMs := scheduleNextFailureTime num node nowMs }
  (setPowerLevel policy node .medium nowMs true).1

def repairNode (canOff : Bool) (nowMs : UInt64) (node : NodeRecord) : NodeResult :=
  if node.health ≠ .failed ∨ node.lifecycle = .retired then
    .error (ofAscii "node is not repairable in its current state")
  else
    let node := (advancePowerPolicy policy num canOff node nowMs).1
    .ok (actuateUnlessPhysical (recoverNode policy num nowMs node) .medium, true)

/-- The inventory of a heartbeat, with what it left open filled in. -/
def completedInventory (nodeId : Bytes) (inventory : NodeInventorySnapshot) (nowMs : UInt64)
    (node : NodeRecord) : NodeInventorySnapshot where
  nodeId := nodeId
  observedAtMs := if inventory.observedAtMs = 0 then nowMs else inventory.observedAtMs
  generation := if inventory.generation = 0 then node.inventory.generation + 1
    else inventory.generation
  devices := inventory.devices

/-- A physical node that sends a heartbeat runs, and has come up. -/
def confirmRunning (node : NodeRecord) : NodeRecord :=
  if node.profile.executionMode = .physical then
    { node with
      actuatedPowerLevel := if node.powerLevel = .off then .medium else node.powerLevel
      transition :=
        if node.transition = .starting ∨ node.transition = .rebooting then .stable
        else node.transition }
  else node

def reportHeartbeat (canOff : Bool) (nodeId serviceAddress : Bytes)
    (inventory : NodeInventorySnapshot) (nowMs : UInt64) (node : NodeRecord) : NodeResult :=
  if node.lifecycle = .retired then
    .error (ofAscii "retired node heartbeat rejected: " ++ nodeId)
  else if nowMs < node.lastHeartbeatMs then .error (ofAscii "stale heartbeat")
  else do
    let inventory := completedInventory nodeId inventory nowMs node
    validateNodeInventorySnapshot inventory
    if node.inventory.generation ≠ 0 ∧ inventory.generation < node.inventory.generation then
      .error (ofAscii "stale inventory generation")
    let node := (advancePowerPolicy policy num canOff node nowMs).1
    let written := Saturating.sum (inventory.devices.map fun device => device.accumulatedWriteBytes)
    let recovers := node.health = .suspect ∨ node.failureSource = .heartbeatTimeout
    return (confirmRunning { node with
      identity := { node.identity with
        nodeId := node.profile.nodeId
        kind := node.profile.kind
        executionMode := node.profile.executionMode
        serviceAddress := serviceAddress }
      inventory := inventory
      lastHeartbeatMs := nowMs
      residentDataBytes := inventoryUsedBytes inventory
      accumulatedWriteBytes := max node.accumulatedWriteBytes written
      health := if recovers then .healthy else node.health
      failureSource := if recovers then .none else node.failureSource
      failureReason := if recovers then [] else node.failureReason }, true)

/-- The report is of another incarnation, or of none although the library has the
    new telemetry. -/
def generationMismatch (node : NodeRecord) (instanceGeneration : UInt64) : Bool :=
  (node.profile.kind = .opticalLibrary && node.opticalLibrary.telemetryVersion ≠ 0 &&
    instanceGeneration = 0) ||
  (instanceGeneration ≠ 0 && instanceGeneration ≠ node.profile.instanceGeneration)

def reportReadiness (readiness : NodeReadinessStatus) (instanceGeneration : UInt64)
    (node : NodeRecord) : NodeResult :=
  if node.lifecycle = .retired then .error (ofAscii "retired node cannot report readiness")
  else if generationMismatch node instanceGeneration then
    .error (ofAscii "readiness instance generation mismatch")
  else if !readiness.observed ∨ readiness.observedAtMs = 0 then
    .error (ofAscii "readiness report must be observed and timestamped")
  else if readiness.observedAtMs < node.readiness.observedAtMs then
    .error (ofAscii "stale readiness report")
  else .ok ({ node with readiness := readiness }, true)

/-- Every disc of the library is recorded and nothing is left to write. -/
def fullyRecorded (status : OpticalLibraryStatus) : Bool :=
  status.observed && status.localDiscCount > 0 &&
  status.recordedDiscCount = status.localDiscCount && status.pendingWriteTasks = 0

def reportOpticalLibraryStatus (canOff : Bool) (status : OpticalLibraryStatus)
    (instanceGeneration : UInt64) (node : NodeRecord) : NodeResult :=
  if ((node.opticalLibrary.telemetryVersion ≠ 0 ∨ status.telemetryVersion ≠ 0) ∧
        instanceGeneration = 0) ∨
      (instanceGeneration ≠ 0 ∧ instanceGeneration ≠ node.profile.instanceGeneration) then
    .error (ofAscii "optical status instance generation mismatch")
  else if node.opticalLibrary.telemetryVersion ≠ 0 ∧ status.telemetryVersion = 0 then
    .error (ofAscii "optical telemetry cannot downgrade to an unqualified report")
  else if node.profile.kind ≠ .opticalLibrary then
    .error (ofAscii "node is not an optical library")
  else if node.lifecycle = .retired then
    .error (ofAscii "retired optical library cannot report inventory")
  else if status.observedAtMs < node.opticalLibrary.observedAtMs then
    .error (ofAscii "stale optical library status")
  else
    let node := (advancePowerPolicy policy num canOff node status.observedAtMs).1
    let node := { node with opticalLibrary := status }
    let needed := status.observed ∧ status.busy ∧ isServingLifecycle node.lifecycle ∧
      node.health = .healthy ∧ node.administrativeState = .enabled ∧
      node.powerLevel.toNat < PowerLevel.medium.toNat
    let node :=
      if needed then (setPowerLevel policy node .medium status.observedAtMs true).1 else node
    .ok ({ node with
      serviceMode :=
        if fullyRecorded status ∧ (status.telemetryVersion = 0 ∨ status.inventoryValid) then
          .readOnly
        else node.serviceMode }, true)

def setAdministrativeState (state : AdministrativeState) (node : NodeRecord) : NodeResult :=
  if node.lifecycle = .retired ∧ state ≠ .disabled then
    .error (ofAscii "retired node must remain disabled")
  else if (node.lifecycle = .draining ∨ node.lifecycle = .exiting) ∧ state = .enabled then
    .error (ofAscii "draining or exiting node cannot be administratively enabled")
  else .ok ({ node with administrativeState := state }, node.administrativeState ≠ state)

def setServiceMode (mode : NodeServiceMode) (node : NodeRecord) : NodeResult :=
  if node.lifecycle = .retired then .error (ofAscii "retired node service mode cannot change")
  else if node.profile.kind ≠ .opticalLibrary then
    .error (ofAscii "service mode is only configurable for optical libraries")
  else if mode = .readWrite ∧ fullyRecorded node.opticalLibrary then
    .error (ofAscii "fully recorded optical library cannot return to read-write mode")
  else .ok ({ node with serviceMode := mode }, node.serviceMode ≠ mode)

def assignCmsCompactId (compactId : UInt32) (node : NodeRecord) : NodeResult :=
  let maximum := if node.profile.kind = .opticalLibrary then 0x00ffffff else 0x0000ffff
  if compactId > maximum then .error (ofAscii "CMS compact id exceeds node-kind width")
  else if node.identity.compactId ≠ 0 ∧ node.identity.compactId ≠ compactId then
    .error (ofAscii "CMS compact id is immutable")
  else .ok ({ node with identity := { node.identity with compactId := compactId } },
    node.identity.compactId ≠ compactId)

def setTransitionState (canOff : Bool) (state : TransitionState) (nowMs : UInt64)
    (node : NodeRecord) : NodeResult :=
  let node := (advancePowerPolicy policy num canOff node nowMs).1
  .ok ({ node with transition := state }, node.transition ≠ state)

def requestPowerLevel (canOff : Bool) (level : PowerLevel) (nowMs : UInt64) (force : Bool)
    (node : NodeRecord) : NodeResult :=
  if level = .off ∧ !force ∧ !canOff then
    .error (ofAscii "power-off violates online node or capacity safety policy")
  else
    let set := setPowerLevel policy node level nowMs force
    let touched := force ∧ PowerLevel.medium.toNat ≤ level.toNat ∧ nowMs > node.lastAccessMs
    let node := { set.1 with lastAccessMs := if touched then nowMs else node.lastAccessMs }
    .ok (actuateUnlessPhysical node level, set.2 || decide touched)

def setResidentDataBytes (bytes : UInt64) (node : NodeRecord) : NodeResult :=
  .ok ({ node with residentDataBytes := bytes }, node.residentDataBytes ≠ bytes)

def reportDrainProgress (canOff : Bool) (reportTsMs remainingObjects remainingBytes : UInt64)
    (activeRequests : UInt32) (node : NodeRecord) : NodeResult :=
  if node.lifecycle ≠ .draining ∧ node.lifecycle ≠ .exiting then
    .error (ofAscii "node is not draining")
  else if reportTsMs < node.drainLastReportMs then .error (ofAscii "stale drain progress report")
  else
    let node := (advancePowerPolicy policy num canOff node reportTsMs).1
    .ok ({ node with
      drainRemainingObjects := remainingObjects
      drainRemainingBytes := remainingBytes
      drainActiveRequests := activeRequests
      drainLastReportMs := reportTsMs
      residentDataBytes := remainingBytes
      lifecycle :=
        if remainingObjects = 0 ∧ remainingBytes = 0 ∧ activeRequests = 0 then .exiting
        else node.lifecycle }, true)

def reportPowerActuation (appliedLevel : PowerLevel) (nowMs : UInt64) (success : Bool)
    (message : Bytes) (node : NodeRecord) : NodeResult :=
  .ok ({ integrateEnergy node nowMs with
    lastPowerActuationMs := nowMs
    lastPowerActuationError := if success then [] else message
    actuatedPowerLevel := if success then appliedLevel else node.actuatedPowerLevel }, true)

end NodeOperations

/-! ## Metrics and access events -/

def ofStream (metrics : NodeAccessMetrics) (stream : NodeMetricsStreamState) : Bool :=
  stream.accessPath = metrics.accessPath && stream.reporterEpoch = metrics.reporterEpoch

/-- The stream as it was left by the reports before. A snapshot from before there
    were streams has one set of marks for the default path. -/
def previousStream (metrics : NodeAccessMetrics) (node : NodeRecord) : NodeMetricsStreamState :=
  match node.metricsStreams.find? (ofStream metrics) with
  | some stream => stream
  | none =>
      if metrics.accessPath = .default ∧ node.metricsStreams = [] then
        { reporterEpoch := node.lastMetricsReporterEpoch
          reportSequence := node.lastMetricsSequence
          windowEndMs := node.lastMetricsEndMs }
      else {}

def sameReporter (metrics : NodeAccessMetrics) (previous : NodeMetricsStreamState) : Bool :=
  metrics.reporterEpoch = 0 || metrics.reporterEpoch = previous.reporterEpoch

/-- The latest window of the access path. -/
def pathEndMs (metrics : NodeAccessMetrics) (node : NodeRecord) : UInt64 :=
  (node.metricsStreams.filter fun stream => stream.accessPath = metrics.accessPath).foldl
    (fun endMs stream => max endMs stream.windowEndMs) (previousStream metrics node).windowEndMs

/-- A report that repeats the last one of its stream. -/
def repeatsReport (metrics : NodeAccessMetrics) (previous : NodeMetricsStreamState) : Bool :=
  sameReporter metrics previous && metrics.reportSequence ≠ 0 &&
  metrics.reportSequence = previous.reportSequence

def staleReport (metrics : NodeAccessMetrics) (node : NodeRecord) : Bool :=
  let previous := previousStream metrics node
  previous.retired || metrics.windowEndMs < pathEndMs metrics node ||
  (sameReporter metrics previous && metrics.reportSequence ≠ 0 &&
    metrics.reportSequence < previous.reportSequence) ||
  (metrics.reportSequence = 0 && metrics.windowEndMs ≤ previous.windowEndMs &&
    previous.windowEndMs ≠ 0)

/-- One path has one active reporter. -/
def retireOthers (metrics : NodeAccessMetrics) (stream : NodeMetricsStreamState) :
    NodeMetricsStreamState :=
  if stream.accessPath = metrics.accessPath ∧ stream.reporterEpoch ≠ metrics.reporterEpoch then
    { stream with retired := true }
  else stream

/-- Replace the stream of the report, or add it. -/
def putStream (metrics : NodeAccessMetrics) (stream : NodeMetricsStreamState) :
    List NodeMetricsStreamState → List NodeMetricsStreamState
  | [] => [stream]
  | old :: streams =>
      if ofStream metrics old then stream :: streams else old :: putStream metrics stream streams

def metricsOperations (metrics : NodeAccessMetrics) : UInt64 :=
  Saturating.add (Saturating.add metrics.readOperations metrics.writeOperations)
    metrics.otherOperations

section MetricsReports

variable (policy : PowerPolicy) (num : Numerics)

/-- The node serves and may be written about. -/
def acceptsAccess (node : NodeRecord) : Bool :=
  isServingLifecycle node.lifecycle && node.health ≠ .failed && node.administrativeState ≠ .disabled

/-- What the network and the devices of the node carry on a path. -/
def effectiveBandwidth (profile : NodeHardwareProfile) (path : AccessPath)
    (direction : IoDirection) : UInt64 :=
  min profile.externalNetworkBandwidthBytesPerSec
    (calculateInternalBandwidthBytesPerSecond profile path direction)

/-- The stream with the report added to its counters. -/
def nextStream (metrics : NodeAccessMetrics) (node : NodeRecord) : NodeMetricsStreamState :=
  let previous := previousStream metrics node
  let windowMs := max 1 (metrics.windowEndMs - metrics.windowStartMs)
  let counted := fun value => if sameReporter metrics previous then value else 0
  { accessPath := metrics.accessPath
    reporterEpoch := metrics.reporterEpoch
    reportSequence := metrics.reportSequence
    windowEndMs := metrics.windowEndMs
    utilization := num.windowUtilization metrics.readBytes metrics.writeBytes metrics.busyTimeMs
      windowMs (effectiveBandwidth node.profile metrics.accessPath .read)
      (effectiveBandwidth node.profile metrics.accessPath .write)
    queueDepth := metrics.maxQueueDepth
    readOperations := Saturating.add (counted previous.readOperations) metrics.readOperations
    writeOperations := Saturating.add (counted previous.writeOperations) metrics.writeOperations
    readBytes := Saturating.add (counted previous.readBytes) metrics.readBytes
    writeBytes := Saturating.add (counted previous.writeBytes) metrics.writeBytes }

/-- The streams that count for the load of the node at this time. -/
def freshStreams (accountingMs : UInt64) (streams : List NodeMetricsStreamState) :
    List NodeMetricsStreamState :=
  streams.filter fun stream =>
    !stream.retired && accountingMs - stream.windowEndMs < policy.metricsFreshnessMs

def addQueueDepths (depth other : UInt32) : UInt32 :=
  UInt32.ofNat (min 0xffffffff (depth.toNat + other.toNat))

def showsPeak (node : NodeRecord) : Bool :=
  num.atLeast node.lastUtilization policy.peakUtilization ||
  node.lastQueueDepth ≥ policy.peakQueueDepth

/-- The level that a use of the node asks for. -/
def usedLevel (node : NodeRecord) : PowerLevel :=
  if showsPeak policy num node then .peak else .medium

/-- The record of a node whose new report is counted. -/
def countReport (metrics : NodeAccessMetrics) (accountingMs : UInt64) (node : NodeRecord) :
    NodeRecord :=
  let streams := putStream metrics (nextStream num metrics node)
    (node.metricsStreams.map (retireOthers metrics))
  let fresh := freshStreams policy accountingMs streams
  { node with
    metricsStreams := streams
    lastUtilization := fresh.foldl (fun most stream => num.max most stream.utilization) 0
    lastQueueDepth := fresh.foldl (fun depth stream => addQueueDepths depth stream.queueDepth) 0
    lastMetricsEndMs := max node.lastMetricsEndMs metrics.windowEndMs
    lastMetricsSequence :=
      if metrics.reportSequence = 0 then node.lastMetricsSequence else metrics.reportSequence
    lastMetricsReporterEpoch :=
      if metrics.reporterEpoch ≠ 0 then metrics.reporterEpoch else node.lastMetricsReporterEpoch
    accessOperationCount :=
      Saturating.add node.accessOperationCount (metricsOperations metrics)
    accumulatedWriteBytes := Saturating.add node.accumulatedWriteBytes metrics.writeBytes }

/-- A report of any use keeps the node awake. -/
def useReported (metrics : NodeAccessMetrics) (accountingMs : UInt64) (node : NodeRecord) :
    NodeRecord :=
  let used := metricsOperations metrics ≠ 0 ∨ metrics.readBytes ≠ 0 ∨ metrics.writeBytes ≠ 0 ∨
    metrics.activeRequests ≠ 0
  let reportedAccess :=
    if metrics.lastAccessMs = 0 then metrics.windowEndMs else metrics.lastAccessMs
  let node := { node with
    lastAccessMs := if used then max node.lastAccessMs reportedAccess else node.lastAccessMs }
  if used ∧ accountingMs - metrics.windowEndMs < policy.metricsFreshnessMs then
    (setPowerLevel policy node (usedLevel policy num node) accountingMs true).1
  else node

def reportMetrics (canOff : Bool) (metrics : NodeAccessMetrics) (node : NodeRecord) : NodeResult :=
  if !acceptsAccess node then .error (ofAscii "node is not available for metrics")
  else if generationMismatch node metrics.instanceGeneration then
    .error (ofAscii "metrics instance generation mismatch")
  else if repeatsReport metrics (previousStream metrics node) then .ok (node, false)
  else if staleReport metrics node then .error (ofAscii "stale or duplicate metrics window")
  else
    let accountingMs := max metrics.windowEndMs (max node.lastMetricsEndMs node.lastEnergyUpdateMs)
    let node := (advancePowerPolicy policy num canOff node accountingMs).1
    let node := countReport policy num metrics accountingMs node
    .ok (useReported policy num metrics accountingMs node, true)

/-- The record of a node that an event was counted for. -/
def countEvent (event : NodeAccessEvent) (eventMs : UInt64) (node : NodeRecord) : NodeRecord :=
  let intervalMs :=
    if node.lastMetricsEndMs = 0 ∨ eventMs ≤ node.lastMetricsEndMs then 1
    else eventMs - node.lastMetricsEndMs
  let effective := effectiveBandwidth node.profile event.accessPath
    (if event.isWrite then .write else .read)
  { node with
    lastUtilization :=
      if effective = 0 then 0 else num.eventUtilization event.bytes intervalMs effective
    lastQueueDepth := event.queueDepth
    lastMetricsEndMs := max node.lastMetricsEndMs eventMs
    lastAccessMs := max node.lastAccessMs eventMs
    accessOperationCount := Saturating.add node.accessOperationCount 1
    accumulatedWriteBytes :=
      if event.isWrite then Saturating.add node.accumulatedWriteBytes event.bytes
      else node.accumulatedWriteBytes }

def NodeAccessEvent.timeMs (event : NodeAccessEvent) : UInt64 := event.eventTimeUs / 1000

def reportAccessEvent (canOff : Bool) (event : NodeAccessEvent) (node : NodeRecord) : NodeResult :=
  let eventMs := event.timeMs
  if !acceptsAccess node then .error (ofAscii "node is not available for access events")
  else if eventMs < node.lastMetricsEndMs then
    .error (ofAscii "late access event would move managed time backwards")
  else
    let node := (advancePowerPolicy policy num canOff node eventMs).1
    let node := countEvent num event eventMs node
    let node := (setPowerLevel policy node (usedLevel policy num node) eventMs true).1
    -- unlike a tick, the event leaves the administrative state alone
    let exits := node.lifecycle = .working ∧ eventMs ≥ node.plannedExitTimeMs
    .ok ({ node with
      lifecycle := if exits then .draining else node.lifecycle
      drainRemainingBytes := if exits then node.residentDataBytes else node.drainRemainingBytes
      drainLastReportMs := if exits then eventMs else node.drainLastReportMs }, true)

end MetricsReports

/-! ## Loops over all nodes -/

section Loops

variable (policy : PowerPolicy) (num : Numerics)

/-- The age of the last sign of life. -/
def heartbeatAge (nowMs : UInt64) (node : NodeRecord) : UInt64 :=
  let reference := if node.lastHeartbeatMs = 0 then node.joinTimeMs else node.lastHeartbeatMs
  if nowMs > reference then nowMs - reference else 0

/-- The detector watches nodes that exist, are not retired and have power. -/
def heartbeatExpected (node : NodeRecord) : Bool :=
  node.profile.executionMode ≠ .simulated && node.lifecycle ≠ .retired &&
  (node.powerLevel ≠ .off ||
    (node.profile.executionMode = .physical && node.actuatedPowerLevel ≠ .off))

def heartbeatTimedOut (nowMs : UInt64) (node : NodeRecord) : NodeRecord :=
  let node := { node with
    health := .failed
    failureSource := .heartbeatTimeout
    failureReason := ofAscii "heartbeat timeout"
    failureCount := node.failureCount + 1 }
  (setPowerLevel policy node .off nowMs true).1

/-- One round of `EvaluateHeartbeatHealth`. -/
def evaluateNode (nowMs suspectTimeoutMs deadTimeoutMs : UInt64) (node : NodeRecord) :
    NodeRecord × Bool :=
  let elapsed := heartbeatAge nowMs node
  if !heartbeatExpected node then (node, false)
  else if deadTimeoutMs ≠ 0 ∧ elapsed ≥ deadTimeoutMs then
    if (node.failureSource = .none ∨ node.failureSource = .heartbeatTimeout) ∧
        (node.health ≠ .failed ∨ node.failureSource ≠ .heartbeatTimeout) then
      (heartbeatTimedOut policy nowMs node, true)
    else (node, false)
  else if suspectTimeoutMs ≠ 0 ∧ elapsed ≥ suspectTimeoutMs then
    if node.failureSource = .none ∧ node.health ≠ .suspect then
      ({ node with health := .suspect }, true)
    else (node, false)
  else if node.health = .suspect then ({ node with health := .healthy }, true)
  else (node, false)

inductive ExecutionFilter
  | all
  | realTime
  | simulated
  deriving DecidableEq, Repr

def ExecutionFilter.skips (filter : ExecutionFilter) (node : NodeRecord) : Bool :=
  match filter with
  | .all => false
  | .realTime => node.profile.executionMode = .simulated
  | .simulated => node.profile.executionMode ≠ .simulated

def repairDue (nowMs : UInt64) (node : NodeRecord) : Bool :=
  node.health = .failed && node.repairDueTimeMs ≠ 0 && nowMs ≥ node.repairDueTimeMs &&
  node.lifecycle ≠ .retired

def failureDue (nowMs : UInt64) (node : NodeRecord) : Bool :=
  node.health = .healthy && node.lifecycle = .working && node.nextFailureTimeMs ≠ 0 &&
  nowMs ≥ node.nextFailureTimeMs

def exitDue (nowMs : UInt64) (node : NodeRecord) : Bool :=
  node.lifecycle = .working && nowMs ≥ node.plannedExitTimeMs

def startDraining (nowMs : UInt64) (node : NodeRecord) : NodeRecord :=
  { node with
    lifecycle := .draining
    administrativeState := .draining
    drainRemainingBytes := node.residentDataBytes
    drainLastReportMs := nowMs }

/-- One round of `TickMatchingLocked`. -/
def tickNode (canOff : Bool) (nowMs : UInt64) (node : NodeRecord) : NodeRecord × Bool :=
  let advanced := advancePowerPolicy policy num canOff node nowMs
  let node := advanced.1
  let repaired := repairDue nowMs node
  let node := if repaired then recoverNode policy num nowMs node else node
  let fails := failureDue nowMs node
  let node :=
    if fails then
      failNode policy nowMs (ofAscii "stochastic reliability failure") .reliabilityModel node
    else node
  let exits := exitDue nowMs node
  let node := if exits then startDraining nowMs node else node
  let set := setPowerLevel policy node (safeDesiredPowerLevel policy num canOff node nowMs) nowMs
    false
  (actuateUnlessPhysical set.1 set.1.powerLevel,
    advanced.2 || repaired || fails || exits || set.2)

end Loops

end Zb.Scheduler
