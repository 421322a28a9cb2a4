-- SUMMARY: The metrics collector of a node, and its world: an unreliable network and the power manager.
import ZBStorage.Scheduler.MetricsReports

/-!
# Collecting metrics

`common/metrics/NodeMetricsCollector.cpp` adds the finished requests of a node up
in a pending window. A window that is reported is frozen until the scheduler has
acknowledged it, and is sent again as it is. Here one collector reports on one
access path of one node; requests and replies are lost, delayed and repeated, and
the manager serves all its other callers in between.
-/

namespace Zb.Metrics

open Zb.Scheduler Zb.StorageModel Bytes CallHistory

/-! ## The collector -/

inductive OperationKind
  | read
  | write
  | other
  deriving DecidableEq

structure NodeMetricsSnapshot where
  reporterEpoch : UInt64 := 0
  reportSequence : UInt64 := 0
  windowStartMs : UInt64 := 0
  windowEndMs : UInt64 := 0
  readOperations : UInt64 := 0
  writeOperations : UInt64 := 0
  otherOperations : UInt64 := 0
  readBytes : UInt64 := 0
  writeBytes : UInt64 := 0
  activeRequests : UInt32 := 0
  maxQueueDepth : UInt32 := 0
  busyTimeMs : UInt64 := 0
  lastAccessMs : UInt64 := 0

def NodeMetricsSnapshot.hasActivity (snapshot : NodeMetricsSnapshot) : Bool :=
  snapshot.readOperations ≠ 0 || snapshot.writeOperations ≠ 0 || snapshot.otherOperations ≠ 0 ||
  snapshot.readBytes ≠ 0 || snapshot.writeBytes ≠ 0 || snapshot.activeRequests ≠ 0

structure NodeMetricsCollector where
  pending : NodeMetricsSnapshot := {}
  inFlight : NodeMetricsSnapshot := {}
  nextReportSequence : UInt64 := 1
  reporterEpoch : UInt64 := 0
  hasInFlight : Bool := false
  activeRequests : UInt32 := 0

namespace NodeMetricsCollector

/-- The constructor, which reads the clock for the window and for the epoch, and the
    counter of reporters of the process. -/
def create (initialTimeMs windowClockMs epochClockMs reporterCounter : UInt64) :
    NodeMetricsCollector where
  pending := { windowStartMs := if initialTimeMs = 0 then windowClockMs else initialTimeMs }
  reporterEpoch := Saturating.add (epochClockMs * 1000) reporterCounter

def beginRequest (collector : NodeMetricsCollector) : NodeMetricsCollector :=
  let activeRequests := collector.activeRequests + 1
  { collector with
    activeRequests := activeRequests
    pending := { collector.pending with
      maxQueueDepth := max collector.pending.maxQueueDepth activeRequests } }

/-- The operation in the counters of its kind. -/
def countOperation (kind : OperationKind) (bytes : UInt64) (pending : NodeMetricsSnapshot) :
    NodeMetricsSnapshot :=
  match kind with
  | .read => { pending with
      readOperations := pending.readOperations + 1
      readBytes := Saturating.add pending.readBytes bytes }
  | .write => { pending with
      writeOperations := pending.writeOperations + 1
      writeBytes := Saturating.add pending.writeBytes bytes }
  | .other => { pending with otherOperations := pending.otherOperations + 1 }

def finishRequest (kind : OperationKind) (bytes busyTimeUs nowMs : UInt64)
    (collector : NodeMetricsCollector) : NodeMetricsCollector :=
  let pending := countOperation kind bytes collector.pending
  { collector with
    activeRequests :=
      if collector.activeRequests ≠ 0 then collector.activeRequests - 1
      else collector.activeRequests
    pending := { pending with
      busyTimeMs := Saturating.add pending.busyTimeMs ((busyTimeUs + 999) / 1000)
      lastAccessMs := max pending.lastAccessMs nowMs } }

/-- The pending window, closed. -/
def closedWindow (windowEndMs : UInt64) (collector : NodeMetricsCollector) : NodeMetricsSnapshot :=
  { collector.pending with
    reporterEpoch := collector.reporterEpoch
    windowEndMs := max windowEndMs collector.pending.windowStartMs
    activeRequests := collector.activeRequests }

/-- The report that is in flight, or the pending window, which is in flight from now
    on if there is anything in it. -/
def takeForReport (windowEndMs : UInt64) (collector : NodeMetricsCollector) :
    NodeMetricsSnapshot × NodeMetricsCollector :=
  if collector.hasInFlight then (collector.inFlight, collector)
  else
    let result := collector.closedWindow windowEndMs
    let collector := { collector with
      pending :=
        { windowStartMs := result.windowEndMs
          maxQueueDepth := collector.activeRequests } }
    if result.hasActivity then
      let result := { result with reportSequence := collector.nextReportSequence }
      (result, { collector with
        nextReportSequence := collector.nextReportSequence + 1
        inFlight := result
        hasInFlight := true })
    else (result, collector)

def acknowledgeReport (reportSequence : UInt64) (collector : NodeMetricsCollector) :
    NodeMetricsCollector :=
  if collector.hasInFlight && collector.inFlight.reportSequence = reportSequence then
    { collector with inFlight := {}, hasInFlight := false }
  else collector

end NodeMetricsCollector

/-! ## Reports -/

/-- The fields of the request that `ReportCollectedMetrics` sends. -/
def reportRequest (accessPath : AccessPath) (instanceGeneration : UInt64)
    (snapshot : NodeMetricsSnapshot) : NodeAccessMetrics where
  reporterEpoch := snapshot.reporterEpoch
  reportSequence := snapshot.reportSequence
  windowStartMs := snapshot.windowStartMs
  windowEndMs := snapshot.windowEndMs
  readOperations := snapshot.readOperations
  writeOperations := snapshot.writeOperations
  otherOperations := snapshot.otherOperations
  readBytes := snapshot.readBytes
  writeBytes := snapshot.writeBytes
  activeRequests := snapshot.activeRequests
  maxQueueDepth := snapshot.maxQueueDepth
  busyTimeMs := snapshot.busyTimeMs
  lastAccessMs := snapshot.lastAccessMs
  accessPath := accessPath
  instanceGeneration := instanceGeneration

/-- What the service makes of a request: a window without an end ends now. -/
def requestedMetrics (nowMs : UInt64) (request : NodeAccessMetrics) : NodeAccessMetrics :=
  { request with windowEndMs := if request.windowEndMs = 0 then nowMs else request.windowEndMs }

/-- The service reports the metrics of a request to the manager. -/
def reportNodeMetrics (policy : PowerPolicy) (num : Numerics) (nodeId : Bytes) (nowMs : UInt64)
    (request : NodeAccessMetrics) (manager : NodePowerManager) : Except Bytes NodePowerManager :=
  manager.callNode policy num nodeId (.reportMetrics (requestedMetrics nowMs request))

/-! ## The quantities that are conserved -/

/-- What a stream counts. -/
inductive Quantity
  | readOperations
  | writeOperations
  | readBytes
  | writeBytes
  deriving DecidableEq

/-- What one finished operation adds to a quantity. -/
def Quantity.ofOperation (kind : OperationKind) (bytes : UInt64) : Quantity → Nat
  | .readOperations => if kind = .read then 1 else 0
  | .writeOperations => if kind = .write then 1 else 0
  | .readBytes => if kind = .read then bytes.toNat else 0
  | .writeBytes => if kind = .write then bytes.toNat else 0

def NodeMetricsSnapshot.amount (snapshot : NodeMetricsSnapshot) : Quantity → UInt64
  | .readOperations => snapshot.readOperations
  | .writeOperations => snapshot.writeOperations
  | .readBytes => snapshot.readBytes
  | .writeBytes => snapshot.writeBytes

/-- What the stream of a reporter has counted: nothing before its first report. -/
def countedAmount (stream : Option NodeMetricsStreamState) (quantity : Quantity) : UInt64 :=
  match stream, quantity with
  | none, _ => 0
  | some stream, .readOperations => stream.readOperations
  | some stream, .writeOperations => stream.writeOperations
  | some stream, .readBytes => stream.readBytes
  | some stream, .writeBytes => stream.writeBytes

/-- The stream of a reporter of the node. -/
def reporterStream (nodeId : Bytes) (key : StreamKey) (manager : NodePowerManager) :
    Option NodeMetricsStreamState :=
  (manager.nodes.lookup nodeId).bind fun node =>
    node.metricsStreams.find? fun stream => streamKey stream = key

/-- The stream has counted the report that is in flight. -/
def inFlightCounted (stream : Option NodeMetricsStreamState) (collector : NodeMetricsCollector) :
    Bool :=
  stream.any fun stream => stream.reportSequence = collector.inFlight.reportSequence

/-- What is in flight and not counted yet. -/
def uncountedAmount (stream : Option NodeMetricsStreamState) (collector : NodeMetricsCollector)
    (quantity : Quantity) : UInt64 :=
  if collector.hasInFlight && !inFlightCounted stream collector then
    collector.inFlight.amount quantity
  else 0

/-! ## Collector, network and manager -/

structure ReportingWorld where
  collector : NodeMetricsCollector
  manager : NodePowerManager := {}
  /-- the requests that were sent, each of which the network may deliver at any time and
      any number of times, or never -/
  requests : List NodeAccessMetrics := []
  /-- the sequence numbers of the reports that were answered with success -/
  answered : List UInt64 := []
  /-- what the collector was told of finished operations -/
  finished : Quantity → Nat := fun _ => 0

inductive ReportingEvent
  | beginRequest
  | finishRequest (kind : OperationKind) (bytes busyTimeUs nowMs : UInt64)
  /-- `ReportCollectedMetrics` up to its request -/
  | report (windowEndMs instanceGeneration : UInt64)
  | deliver (request : NodeAccessMetrics) (nowMs : UInt64)
  /-- a successful reply arrives -/
  | acknowledge (reportSequence : UInt64)
  /-- the manager serves another caller -/
  | served (call : ManagerCall)

def ReportingWorld.key (accessPath : AccessPath) (world : ReportingWorld) : StreamKey :=
  ⟨accessPath, world.collector.reporterEpoch⟩

/-- The call is not a report of this reporter. -/
def ofOthers (nodeId : Bytes) (key : StreamKey) : ManagerCall → Prop
  | .node id (.reportMetrics metrics) => id = nodeId → metrics.streamKey ≠ key
  | _ => True

section World

variable (policy : PowerPolicy) (num : Numerics) (nodeId : Bytes) (accessPath : AccessPath)

inductive Happens (world : ReportingWorld) : ReportingEvent → ReportingWorld → Prop
  | beginRequest :
      Happens world .beginRequest { world with collector := world.collector.beginRequest }
  | finishRequest {kind : OperationKind} {bytes busyTimeUs nowMs : UInt64} :
      Happens world (.finishRequest kind bytes busyTimeUs nowMs)
        { world with
          collector := world.collector.finishRequest kind bytes busyTimeUs nowMs
          finished := fun quantity =>
            world.finished quantity + quantity.ofOperation kind bytes }
  | reported {windowEndMs instanceGeneration : UInt64} {snapshot : NodeMetricsSnapshot}
      {collector : NodeMetricsCollector} :
      world.collector.takeForReport windowEndMs = (snapshot, collector) →
      snapshot.hasActivity = true →
      Happens world (.report windowEndMs instanceGeneration)
        { world with
          collector := collector
          requests := reportRequest accessPath instanceGeneration snapshot :: world.requests }
  | idle {windowEndMs instanceGeneration : UInt64} {snapshot : NodeMetricsSnapshot}
      {collector : NodeMetricsCollector} :
      world.collector.takeForReport windowEndMs = (snapshot, collector) →
      snapshot.hasActivity = false →
      Happens world (.report windowEndMs instanceGeneration) { world with collector := collector }
  | delivered {request : NodeAccessMetrics} {nowMs : UInt64} {manager : NodePowerManager} :
      request ∈ world.requests →
      reportNodeMetrics policy num nodeId nowMs request world.manager = .ok manager →
      Happens world (.deliver request nowMs)
        { world with
          manager := manager
          answered := request.reportSequence :: world.answered }
  | refused {request : NodeAccessMetrics} {nowMs : UInt64} {error : Bytes} :
      request ∈ world.requests →
      reportNodeMetrics policy num nodeId nowMs request world.manager = .error error →
      Happens world (.deliver request nowMs) world
  | acknowledge {reportSequence : UInt64} :
      reportSequence ∈ world.answered →
      Happens world (.acknowledge reportSequence)
        { world with collector := world.collector.acknowledgeReport reportSequence }
  | served {call : ManagerCall} {manager : NodePowerManager} :
      ofOthers nodeId (world.key accessPath) call →
      world.manager.Serve policy num call manager →
      Happens world (.served call) { world with manager := manager }

end World

/-- No quantity and no sequence number passes the largest number. -/
def Unsaturated (world : ReportingWorld) : ReportingEvent → Prop
  | .finishRequest kind bytes _ _ => ∀ quantity,
      world.finished quantity + Quantity.ofOperation kind bytes quantity < 2 ^ 64
  | .report _ _ => world.collector.nextReportSequence.toNat + 1 < 2 ^ 64
  | _ => True

/-- The histories of a collector from its construction on, when no report about the
    node was made under its epoch. The manager is empty in the beginning, so what
    earlier reporters do is part of the history. -/
def RunsFrom (policy : PowerPolicy) (num : Numerics) (nodeId : Bytes) (accessPath : AccessPath)
    (collector : NodeMetricsCollector) (hist : List (Served ReportingWorld ReportingEvent))
    (world : ReportingWorld) : Prop :=
  Serves (Happens policy num nodeId accessPath) Unsaturated { collector := collector } hist world

end Zb.Metrics
