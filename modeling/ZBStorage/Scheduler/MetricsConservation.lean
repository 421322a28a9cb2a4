-- SUMMARY: Finished operations are counted, pending or in flight in every history of a collector.
import ZBStorage.Scheduler.NodeMetricsCollector

/-!
# Conservation of reported operations

The manager has counted all reports of the collector, or all but the one in
flight (`Agrees`). That report alone can change the counters of the stream, and
it adds exactly what it carries. Other reporters only retire the stream, so what
is compared is the stream without that mark.
-/

namespace Zb.Metrics

open Zb.Scheduler Zb.StorageModel Bytes CallHistory

variable {policy : PowerPolicy} {num : Numerics} {nodeId : Bytes} {accessPath : AccessPath}
  {key : StreamKey} {node node' : NodeRecord} {manager manager' : NodePowerManager}
  {metrics : NodeAccessMetrics} {stream next : NodeMetricsStreamState}
  {streams : List NodeMetricsStreamState} {collector : NodeMetricsCollector}

/-! ## The stream of a reporter -/

def findStream (key : StreamKey) (streams : List NodeMetricsStreamState) :
    Option NodeMetricsStreamState :=
  streams.find? fun stream => streamKey stream = key

theorem findStream_cons (key : StreamKey) (stream : NodeMetricsStreamState)
    (streams : List NodeMetricsStreamState) :
    findStream key (stream :: streams) =
      if streamKey stream = key then some stream else findStream key streams := by
  unfold findStream
  rw [List.find?_cons]
  split <;> simp_all

theorem findStream_mem (h : findStream key streams = some stream) :
    stream ∈ streams ∧ streamKey stream = key := by
  unfold findStream at h
  exact ⟨List.mem_of_find?_eq_some h, by simpa using List.find?_some h⟩

theorem reporterStream_eq (hlookup : manager.nodes.lookup nodeId = some node) :
    reporterStream nodeId key manager = findStream key node.metricsStreams := by
  rw [reporterStream, hlookup]
  rfl

theorem reporterStream_of_none (hlookup : manager.nodes.lookup nodeId = none) :
    reporterStream nodeId key manager = none := by
  rw [reporterStream, hlookup]
  rfl

/-- The stream without the mark that another reporter has taken over. -/
def unretired (stream : NodeMetricsStreamState) : NodeMetricsStreamState :=
  { stream with retired := false }

theorem unretired_retireOthers (metrics : NodeAccessMetrics) (stream : NodeMetricsStreamState) :
    unretired (retireOthers metrics stream) = unretired stream := by
  unfold retireOthers
  split
  · rfl
  · rfl

theorem findStream_retireOthers (metrics : NodeAccessMetrics)
    (streams : List NodeMetricsStreamState) :
    (findStream key (streams.map (retireOthers metrics))).map unretired =
      (findStream key streams).map unretired := by
  induction streams with
  | nil => rfl
  | cons stream streams ih =>
      rw [List.map_cons, findStream_cons, findStream_cons, streamKey_retireOthers]
      split
      · rw [Option.map_some, Option.map_some, unretired_retireOthers]
      · exact ih

theorem findStream_putStream (hkey : streamKey next = metrics.streamKey)
    (streams : List NodeMetricsStreamState) :
    findStream metrics.streamKey (putStream metrics next streams) = some next := by
  induction streams with
  | nil => rw [putStream, findStream_cons, if_pos hkey]
  | cons stream streams ih =>
      unfold putStream
      split
      · rw [findStream_cons, if_pos hkey]
      · rename_i hother
        rw [findStream_cons, if_neg fun h => hother (ofStream_iff.mpr h)]
        exact ih

theorem findStream_putStream_of_ne (hkey : streamKey next = metrics.streamKey)
    (hne : metrics.streamKey ≠ key) (streams : List NodeMetricsStreamState) :
    findStream key (putStream metrics next streams) = findStream key streams := by
  induction streams with
  | nil => rw [putStream, findStream_cons, if_neg (hkey ▸ hne)]
  | cons stream streams ih =>
      unfold putStream
      split
      · rename_i hsame
        rw [findStream_cons, if_neg (hkey ▸ hne), findStream_cons,
          if_neg (ofStream_iff.mp hsame ▸ hne)]
      · rw [findStream_cons, findStream_cons, ih]

/-! ## What other callers do to it -/

theorem unretired_of_step {call : ManagerCall}
    (h : NodeStep policy num manager nodeId node call node') (hothers : ofOthers nodeId key call) :
    (findStream key node'.metricsStreams).map unretired =
      (findStream key node.metricsStreams).map unretired := by
  rcases h.reporters with ⟨_, _, rfl, hrun⟩ | ⟨hsame, -⟩
  · cases NodeCall.effect_of_run hrun with
    | reportMetrics =>
        rw [findStream_putStream_of_ne rfl (hothers rfl)]
        exact findStream_retireOthers ..
    | _ => rfl
  · rw [hsame]

/-- Other callers leave the stream as it is, except that they may retire it. -/
theorem reporterStream_served {call : ManagerCall} (hkeyed : Keyed manager.nodes)
    (hothers : ofOthers nodeId key call) (hserve : manager.Serve policy num call manager') :
    (reporterStream nodeId key manager').map unretired =
      (reporterStream nodeId key manager).map unretired := by
  cases hlookup : manager.nodes.lookup nodeId with
  | none =>
      rw [reporterStream_of_none hlookup]
      cases hlookup' : manager'.nodes.lookup nodeId with
      | none => rw [reporterStream_of_none hlookup']
      | some node' =>
          obtain ⟨_, _, _, -, -, -, rfl⟩ := registered_of_new hkeyed hserve hlookup hlookup'
          rw [reporterStream_eq hlookup']
          rfl
  | some node =>
      obtain ⟨node', hlookup', hstep⟩ := exists_nodeStep hkeyed hserve hlookup
      rw [reporterStream_eq hlookup, reporterStream_eq hlookup']
      exact unretired_of_step hstep hothers

/-- Without streams there was no reporter. -/
def NoReporter (node : NodeRecord) : Prop :=
  node.metricsStreams = [] → node.lastMetricsReporterEpoch = 0

theorem putStream_ne_nil (metrics : NodeAccessMetrics) (next : NodeMetricsStreamState)
    (streams : List NodeMetricsStreamState) : putStream metrics next streams ≠ [] :=
  List.ne_nil_of_mem (mem_putStream_self ..)

theorem noReporter_of_step {call : ManagerCall}
    (h : NodeStep policy num manager nodeId node call node') (hnone : NoReporter node) :
    NoReporter node' := by
  rcases h.reporters with ⟨_, _, rfl, hrun⟩ | ⟨hsame, hepoch⟩
  · cases NodeCall.effect_of_run hrun with
    | reportMetrics => exact fun hnil => absurd hnil (putStream_ne_nil _ _ _)
    | _ => exact hnone
  · rw [NoReporter, hsame, hepoch]
    exact hnone

theorem noReporter_of_reaches {ok : NodePowerManager → ManagerCall → Prop}
    {hist : List (Served NodePowerManager ManagerCall)} (h : Reaches policy num ok hist manager)
    (hlookup : manager.nodes.lookup nodeId = some node) : NoReporter node := by
  refine h.nodes (P := NoReporter) ?_ ?_ hlookup
  · exact fun _ _ _ _ _ _ _ => rfl
  · exact fun _ _ _ _ _ _ _ hnone hstep => noReporter_of_step hstep hnone

/-! ## What a report finds -/

theorem find_ofStream (metrics : NodeAccessMetrics) (streams : List NodeMetricsStreamState) :
    streams.find? (ofStream metrics) = findStream metrics.streamKey streams := by
  unfold findStream
  congr 1
  funext stream
  rw [Bool.eq_iff_iff, ofStream_iff, decide_eq_true_iff]

theorem previousStream_of_find
    (h : findStream metrics.streamKey node.metricsStreams = some stream) :
    previousStream metrics node = stream := by
  rw [previousStream, find_ofStream, h]

/-- The end of the window that a first report must not come before. -/
def firstMarkMs (accessPath : AccessPath) (node : NodeRecord) : UInt64 :=
  if accessPath = .default ∧ node.metricsStreams = [] then node.lastMetricsEndMs else 0

/-- A reporter without a stream is not taken for an earlier one. -/
theorem previousStream_of_new (hnone : NoReporter node) (hepoch : metrics.reporterEpoch ≠ 0)
    (h : findStream metrics.streamKey node.metricsStreams = none) :
    sameReporter metrics (previousStream metrics node) = false ∧
      (previousStream metrics node).retired = false ∧
      (previousStream metrics node).windowEndMs = firstMarkMs metrics.accessPath node := by
  simp only [previousStream, find_ofStream, h, firstMarkMs]
  split
  · rename_i hfirst
    simp [sameReporter, hepoch, hnone hfirst.2]
  · simp [sameReporter, hepoch]

/-- What a delivered report does: the manager has counted it last, or counts it now. -/
theorem reportNodeMetrics_ok {nowMs : UInt64} {request : NodeAccessMetrics}
    (h : reportNodeMetrics policy num nodeId nowMs request manager = .ok manager') :
    ∃ node, manager.nodes.lookup nodeId = some node ∧
      (repeatsReport (requestedMetrics nowMs request)
            (previousStream (requestedMetrics nowMs request) node) = true ∧
          reporterStream nodeId key manager' = reporterStream nodeId key manager ∨
        repeatsReport (requestedMetrics nowMs request)
            (previousStream (requestedMetrics nowMs request) node) = false ∧
          staleReport (requestedMetrics nowMs request) node = false ∧
          reporterStream nodeId (requestedMetrics nowMs request).streamKey manager' =
            some (nextStream num (requestedMetrics nowMs request) node)) := by
  obtain ⟨node, node', changed, hlookup, -, hrun, rfl⟩ := callNode_ok h
  have hlookup' : (manager.bumped (manager.nodes.insert nodeId node') changed).nodes.lookup nodeId =
      some node' := AList.lookup_insert _
  refine ⟨node, hlookup, ?_⟩
  rw [reporterStream_eq hlookup', reporterStream_eq hlookup', reporterStream_eq hlookup]
  cases NodeCall.effect_of_run hrun with
  | repeatedMetrics hrepeats => exact .inl ⟨hrepeats, rfl⟩
  | reportMetrics _ _ hnew hfresh _ => exact .inr ⟨hnew, hfresh, findStream_putStream rfl _⟩

/-! ## Amounts -/

@[simp] theorem countedAmount_unretired (stream : Option NodeMetricsStreamState)
    (quantity : Quantity) :
    countedAmount (stream.map unretired) quantity = countedAmount stream quantity := by
  cases stream <;> cases quantity <;> rfl

@[simp] theorem inFlightCounted_unretired (stream : Option NodeMetricsStreamState)
    (collector : NodeMetricsCollector) :
    inFlightCounted (stream.map unretired) collector = inFlightCounted stream collector := by
  cases stream <;> rfl

@[simp] theorem uncountedAmount_unretired (stream : Option NodeMetricsStreamState)
    (collector : NodeMetricsCollector) (quantity : Quantity) :
    uncountedAmount (stream.map unretired) collector quantity =
      uncountedAmount stream collector quantity := by
  rw [uncountedAmount, uncountedAmount, inFlightCounted_unretired]

/-- A counted report adds what it carries. -/
theorem countedAmount_nextStream (num : Numerics) (node : NodeRecord) (accessPath : AccessPath)
    (instanceGeneration : UInt64) (snapshot : NodeMetricsSnapshot) (quantity : Quantity) :
    countedAmount
        (some (nextStream num (reportRequest accessPath instanceGeneration snapshot) node))
        quantity =
      Saturating.add
        (if sameReporter (reportRequest accessPath instanceGeneration snapshot)
            (previousStream (reportRequest accessPath instanceGeneration snapshot) node) then
          countedAmount
            (some (previousStream (reportRequest accessPath instanceGeneration snapshot) node))
            quantity
        else 0) (snapshot.amount quantity) := by
  cases quantity <;>
    simp only [countedAmount, nextStream, NodeMetricsSnapshot.amount, reportRequest]

theorem toNat_saturating {a b : UInt64} (h : a.toNat + b.toNat < 2 ^ 64) :
    (Saturating.add a b).toNat = a.toNat + b.toNat := by
  rw [Saturating.toNat_add]
  omega

theorem toNat_succ {a : UInt64} (h : a.toNat + 1 < 2 ^ 64) : (a + 1).toNat = a.toNat + 1 := by
  rw [UInt64.toNat_add, UInt64.toNat_one, Nat.mod_eq_of_lt h]

section CountOperation

open NodeMetricsCollector

variable {kind : OperationKind} {bytes : UInt64} {quantity : Quantity}
  {pending : NodeMetricsSnapshot}

theorem readOperations_countOperation :
    (countOperation .read bytes pending).amount .readOperations =
      pending.amount .readOperations + 1 := by
  rw [countOperation, NodeMetricsSnapshot.amount, NodeMetricsSnapshot.amount]

theorem readBytes_countOperation :
    (countOperation .read bytes pending).amount .readBytes =
      Saturating.add (pending.amount .readBytes) bytes := by
  rw [countOperation, NodeMetricsSnapshot.amount, NodeMetricsSnapshot.amount]

theorem writeOperations_countOperation :
    (countOperation .write bytes pending).amount .writeOperations =
      pending.amount .writeOperations + 1 := by
  rw [countOperation, NodeMetricsSnapshot.amount, NodeMetricsSnapshot.amount]

theorem writeBytes_countOperation :
    (countOperation .write bytes pending).amount .writeBytes =
      Saturating.add (pending.amount .writeBytes) bytes := by
  rw [countOperation, NodeMetricsSnapshot.amount, NodeMetricsSnapshot.amount]

theorem amount_countOperation
    (h : (pending.amount quantity).toNat + quantity.ofOperation kind bytes < 2 ^ 64) :
    ((countOperation kind bytes pending).amount quantity).toNat =
      (pending.amount quantity).toNat + quantity.ofOperation kind bytes := by
  cases kind with
  | read =>
      cases quantity with
      | readOperations => rw [readOperations_countOperation, toNat_succ h]; rfl
      | readBytes => rw [readBytes_countOperation, toNat_saturating h]; rfl
      | _ => rfl
  | write =>
      cases quantity with
      | writeOperations => rw [writeOperations_countOperation, toNat_succ h]; rfl
      | writeBytes => rw [writeBytes_countOperation, toNat_saturating h]; rfl
      | _ => rfl
  | other => cases quantity <;> rfl

end CountOperation

theorem amount_with_times (snapshot : NodeMetricsSnapshot) (busyTimeMs lastAccessMs : UInt64)
    (quantity : Quantity) :
    NodeMetricsSnapshot.amount
        { snapshot with busyTimeMs := busyTimeMs, lastAccessMs := lastAccessMs } quantity =
      snapshot.amount quantity := by
  cases quantity <;> rfl

/-- A finished request adds its amount to the pending window. -/
theorem amount_finishRequest {kind : OperationKind} {bytes busyTimeUs nowMs : UInt64}
    {quantity : Quantity}
    (h : (collector.pending.amount quantity).toNat + quantity.ofOperation kind bytes < 2 ^ 64) :
    ((collector.finishRequest kind bytes busyTimeUs nowMs).pending.amount quantity).toNat =
      (collector.pending.amount quantity).toNat + quantity.ofOperation kind bytes := by
  rw [← amount_countOperation h, NodeMetricsCollector.finishRequest, amount_with_times]

/-! ## The invariant -/

/-- The sequence number up to which a reporter's reports are counted. -/
def countedSequence (stream : Option NodeMetricsStreamState) : UInt64 :=
  match stream with
  | none => 0
  | some stream => stream.reportSequence

/-- The report in flight is the last that was taken. -/
structure LastTaken (collector : NodeMetricsCollector) : Prop where
  numbered : collector.inFlight.reportSequence ≠ 0
  last : collector.inFlight.reportSequence.toNat + 1 = collector.nextReportSequence.toNat
  epoch : collector.inFlight.reporterEpoch = collector.reporterEpoch
  active : collector.inFlight.hasActivity = true
  ordered : collector.inFlight.windowStartMs ≤ collector.inFlight.windowEndMs
  ended : collector.inFlight.windowEndMs ≠ 0
  before : collector.inFlight.windowEndMs ≤ collector.pending.windowStartMs

/-- A request of the collector that was sent, and is that of the report in flight if
    it has its number. -/
structure Sent (accessPath : AccessPath) (collector : NodeMetricsCollector)
    (request : NodeAccessMetrics) : Prop where
  key : request.streamKey = ⟨accessPath, collector.reporterEpoch⟩
  numbered : request.reportSequence ≠ 0
  taken : request.reportSequence.toNat < collector.nextReportSequence.toNat
  ended : request.windowEndMs ≠ 0
  same : collector.hasInFlight = true →
    request.reportSequence = collector.inFlight.reportSequence →
    ∃ instanceGeneration, request = reportRequest accessPath instanceGeneration collector.inFlight

/-- The world of a collector when its reports are counted in `stream`. -/
structure Agrees (accessPath : AccessPath) (world : ReportingWorld)
    (stream : Option NodeMetricsStreamState) : Prop where
  epoch : world.collector.reporterEpoch ≠ 0
  windowStart : world.collector.pending.windowStartMs ≠ 0
  inFlight : world.collector.hasInFlight = true → LastTaken world.collector
  requests : ∀ request ∈ world.requests, Sent accessPath world.collector request
  counted : (countedSequence stream).toNat + 1 = world.collector.nextReportSequence.toNat ∨
    world.collector.hasInFlight = true ∧
      (countedSequence stream).toNat + 2 = world.collector.nextReportSequence.toNat
  answered : ∀ reportSequence ∈ world.answered, reportSequence ≤ countedSequence stream
  window : ∀ recorded, stream = some recorded →
    recorded.windowEndMs ≤ world.collector.pending.windowStartMs ∧
      (world.collector.hasInFlight = true →
        recorded.windowEndMs ≤ world.collector.inFlight.windowEndMs)
  conserved : ∀ quantity, world.finished quantity =
    (countedAmount stream quantity).toNat +
      (world.collector.pending.amount quantity).toNat +
      (uncountedAmount stream world.collector quantity).toNat
  bounded : ∀ quantity, world.finished quantity < 2 ^ 64

section Steps

variable {world : ReportingWorld} {recorded : Option NodeMetricsStreamState}

/-- The report in flight is counted, or is the next to be counted. -/
theorem LastTaken.counted_iff (h : LastTaken collector) :
    inFlightCounted recorded collector = true ↔
      countedSequence recorded = collector.inFlight.reportSequence := by
  cases recorded with
  | none => simpa [inFlightCounted, countedSequence] using Ne.symm h.numbered
  | some stream => simp [inFlightCounted, countedSequence]

theorem uncountedAmount_of_idle (h : collector.hasInFlight = false) (quantity : Quantity) :
    uncountedAmount recorded collector quantity = 0 := by
  simp [uncountedAmount, h]

theorem uncountedAmount_of_counted (h : inFlightCounted recorded collector = true)
    (quantity : Quantity) : uncountedAmount recorded collector quantity = 0 := by
  simp [uncountedAmount, h]

theorem uncountedAmount_of_new (hin : collector.hasInFlight = true)
    (h : inFlightCounted recorded collector = false) (quantity : Quantity) :
    uncountedAmount recorded collector quantity = collector.inFlight.amount quantity := by
  simp [uncountedAmount, hin, h]

theorem Agrees.idle_counted (h : Agrees accessPath world recorded)
    (hidle : world.collector.hasInFlight = false) :
    (countedSequence recorded).toNat + 1 = world.collector.nextReportSequence.toNat := by
  rcases h.counted with hlast | ⟨hin, -⟩
  · exact hlast
  · rw [hidle] at hin
    cases hin

/-- Requests of the collector keep their form while it takes nothing. -/
theorem Sent.of_same {collector' : NodeMetricsCollector} {request : NodeAccessMetrics}
    (h : Sent accessPath collector request)
    (hepoch : collector'.reporterEpoch = collector.reporterEpoch)
    (hnext : collector'.nextReportSequence = collector.nextReportSequence)
    (hin : collector'.hasInFlight = true →
      collector.hasInFlight = true ∧ collector'.inFlight = collector.inFlight) :
    Sent accessPath collector' request where
  key := by rw [h.key, hepoch]
  numbered := h.numbered
  taken := by rw [hnext]; exact h.taken
  ended := h.ended
  same := by
    intro hin' hnumber
    obtain ⟨hbefore, hsame⟩ := hin hin'
    rw [hsame] at hnumber ⊢
    exact h.same hbefore hnumber

/-- The pending window may change while nothing is taken. -/
theorem Agrees.pending (h : Agrees accessPath world recorded) {pending : NodeMetricsSnapshot}
    {activeRequests : UInt32} {finished : Quantity → Nat}
    (hstart : world.collector.pending.windowStartMs ≤ pending.windowStartMs)
    (hconserved : ∀ quantity, finished quantity =
      (countedAmount recorded quantity).toNat + (pending.amount quantity).toNat +
        (uncountedAmount recorded world.collector quantity).toNat)
    (hbounded : ∀ quantity, finished quantity < 2 ^ 64) :
    Agrees accessPath
      { world with
        collector := { world.collector with pending := pending, activeRequests := activeRequests }
        finished := finished } recorded where
  epoch := h.epoch
  windowStart := by
    intro hzero
    rw [hzero] at hstart
    exact h.windowStart (UInt64.le_zero_iff.mp hstart)
  inFlight hin :=
    have hlast := h.inFlight hin
    ⟨hlast.numbered, hlast.last, hlast.epoch, hlast.active, hlast.ordered, hlast.ended,
      UInt64.le_trans hlast.before hstart⟩
  requests request hmem := (h.requests request hmem).of_same rfl rfl fun hin => ⟨hin, rfl⟩
  counted := h.counted
  answered := h.answered
  window stream hstream :=
    ⟨UInt64.le_trans (h.window stream hstream).1 hstart, (h.window stream hstream).2⟩
  conserved := hconserved
  bounded := hbounded

theorem Agrees.beginRequest (h : Agrees accessPath world recorded) :
    Agrees accessPath { world with collector := world.collector.beginRequest } recorded := by
  refine h.pending (UInt64.le_refl _) (fun quantity => ?_) h.bounded
  rw [h.conserved quantity]
  cases quantity <;> rfl

theorem Agrees.pending_lt (h : Agrees accessPath world recorded) (quantity : Quantity) :
    (world.collector.pending.amount quantity).toNat ≤ world.finished quantity := by
  rw [h.conserved quantity]
  omega

theorem Agrees.finishRequest (h : Agrees accessPath world recorded) {kind : OperationKind}
    {bytes busyTimeUs nowMs : UInt64}
    (hfits : ∀ quantity,
      world.finished quantity + Quantity.ofOperation kind bytes quantity < 2 ^ 64) :
    Agrees accessPath
      { world with
        collector := world.collector.finishRequest kind bytes busyTimeUs nowMs
        finished := fun quantity => world.finished quantity + quantity.ofOperation kind bytes }
      recorded := by
  have hstart : (world.collector.finishRequest kind bytes busyTimeUs nowMs).pending.windowStartMs =
      world.collector.pending.windowStartMs := by cases kind <;> rfl
  refine h.pending (UInt64.le_of_eq hstart.symm) (fun quantity => ?_) hfits
  have hpending := h.pending_lt quantity
  have hadded := @amount_finishRequest world.collector kind bytes busyTimeUs nowMs quantity
    (Nat.lt_of_le_of_lt (Nat.add_le_add_right hpending _) (hfits quantity))
  have hbefore := h.conserved quantity
  rw [NodeMetricsCollector.finishRequest] at hadded
  rw [hadded, hbefore]
  omega

/-- A request for the report in flight is sent once more. -/
theorem Agrees.resend (h : Agrees accessPath world recorded)
    (hin : world.collector.hasInFlight = true) (instanceGeneration : UInt64) :
    Agrees accessPath
      { world with
        requests :=
          reportRequest accessPath instanceGeneration world.collector.inFlight :: world.requests }
      recorded where
  epoch := h.epoch
  windowStart := h.windowStart
  inFlight := h.inFlight
  requests := by
    intro request hmem
    rcases List.mem_cons.mp hmem with rfl | hmem
    · have hlast := h.inFlight hin
      have htaken := hlast.last
      exact ⟨congrArg (StreamKey.mk accessPath) hlast.epoch, hlast.numbered,
        show _ < world.collector.nextReportSequence.toNat from htaken ▸ Nat.lt_succ_self _,
        hlast.ended, fun _ _ => ⟨instanceGeneration, rfl⟩⟩
    · exact h.requests request hmem
  counted := h.counted
  answered := h.answered
  window := h.window
  conserved := h.conserved
  bounded := h.bounded

theorem amount_of_inactive {snapshot : NodeMetricsSnapshot} (h : snapshot.hasActivity = false)
    (quantity : Quantity) : snapshot.amount quantity = 0 := by
  simp only [NodeMetricsSnapshot.hasActivity, Bool.or_eq_false_iff, ne_eq, decide_not,
    Bool.not_eq_false', decide_eq_true_eq] at h
  obtain ⟨⟨⟨⟨⟨hread, hwrite⟩, -⟩, hreadBytes⟩, hwriteBytes⟩, -⟩ := h
  cases quantity with
  | readOperations => exact hread
  | writeOperations => exact hwrite
  | readBytes => exact hreadBytes
  | writeBytes => exact hwriteBytes

/-- The collector after an empty window was taken. -/
def skipWindow (windowEndMs : UInt64) (collector : NodeMetricsCollector) : NodeMetricsCollector :=
  { collector with
    pending :=
      { windowStartMs := (collector.closedWindow windowEndMs).windowEndMs
        maxQueueDepth := collector.activeRequests } }

/-- The collector after a window with activity was taken. -/
def freezeWindow (windowEndMs : UInt64) (collector : NodeMetricsCollector) :
    NodeMetricsCollector :=
  { skipWindow windowEndMs collector with
    nextReportSequence := collector.nextReportSequence + 1
    inFlight := { collector.closedWindow windowEndMs with
      reportSequence := collector.nextReportSequence }
    hasInFlight := true }

/-- What `TakeForReport` does: send again, freeze the window, or skip it. -/
theorem takeForReport_cases (windowEndMs : UInt64) (collector : NodeMetricsCollector) :
    collector.hasInFlight = true ∧
        collector.takeForReport windowEndMs = (collector.inFlight, collector) ∨
      collector.hasInFlight = false ∧ (collector.closedWindow windowEndMs).hasActivity = true ∧
        collector.takeForReport windowEndMs =
          ((freezeWindow windowEndMs collector).inFlight, freezeWindow windowEndMs collector) ∨
      collector.hasInFlight = false ∧ (collector.closedWindow windowEndMs).hasActivity = false ∧
        collector.takeForReport windowEndMs =
          (collector.closedWindow windowEndMs, skipWindow windowEndMs collector) := by
  unfold NodeMetricsCollector.takeForReport
  split
  · rename_i hin
    exact .inl ⟨hin, rfl⟩
  · rename_i hidle
    rw [Bool.not_eq_true] at hidle
    dsimp only
    split
    · rename_i hactive
      exact .inr (.inl ⟨hidle, hactive, rfl⟩)
    · rename_i hinactive
      exact .inr (.inr ⟨hidle, Bool.eq_false_iff.mpr hinactive, rfl⟩)

theorem start_le_closedWindow (windowEndMs : UInt64) (collector : NodeMetricsCollector) :
    collector.pending.windowStartMs ≤ (collector.closedWindow windowEndMs).windowEndMs :=
  (Saturating.le_max windowEndMs collector.pending.windowStartMs).2

/-- What leaves the pending window without activity is nothing. -/
theorem Agrees.skipWindow (h : Agrees accessPath world recorded) {windowEndMs : UInt64}
    (hinactive : (world.collector.closedWindow windowEndMs).hasActivity = false) :
    Agrees accessPath { world with collector := skipWindow windowEndMs world.collector }
      recorded := by
  refine h.pending (start_le_closedWindow windowEndMs world.collector) (fun quantity => ?_)
    h.bounded
  have hnothing : world.collector.pending.amount quantity = 0 := by
    rw [← amount_of_inactive hinactive quantity]
    cases quantity <;> rfl
  rw [h.conserved quantity, hnothing]
  cases quantity <;> rfl

theorem amount_closedWindow (windowEndMs : UInt64) (collector : NodeMetricsCollector)
    (quantity : Quantity) :
    (freezeWindow windowEndMs collector).inFlight.amount quantity =
      collector.pending.amount quantity := by
  cases quantity <;> rfl

/-- The pending window is in flight, and not counted. -/
theorem Agrees.freezeWindow (h : Agrees accessPath world recorded) {windowEndMs : UInt64}
    (hidle : world.collector.hasInFlight = false)
    (hactive : (world.collector.closedWindow windowEndMs).hasActivity = true)
    (hfits : world.collector.nextReportSequence.toNat + 1 < 2 ^ 64) :
    Agrees accessPath { world with collector := freezeWindow windowEndMs world.collector }
      recorded := by
  have hcounted := h.idle_counted hidle
  have hnext := toNat_succ hfits
  have hstart := start_le_closedWindow windowEndMs world.collector
  have hnonzero : (world.collector.closedWindow windowEndMs).windowEndMs ≠ 0 := by
    intro hzero
    rw [hzero] at hstart
    exact h.windowStart (UInt64.le_zero_iff.mp hstart)
  have hlast : LastTaken (Metrics.freezeWindow windowEndMs world.collector) :=
    { numbered := by
        intro hzero
        have hzero : world.collector.nextReportSequence = 0 := hzero
        rw [hzero] at hcounted
        cases hcounted
      last := hnext.symm
      epoch := rfl
      active := hactive
      ordered := hstart
      ended := hnonzero
      before := UInt64.le_refl _ }
  have hnew : inFlightCounted recorded (Metrics.freezeWindow windowEndMs world.collector) =
      false := by
    rw [← Bool.not_eq_true, hlast.counted_iff]
    intro heq
    have heq : countedSequence recorded = world.collector.nextReportSequence := heq
    rw [heq] at hcounted
    omega
  exact
    { epoch := h.epoch
      windowStart := hnonzero
      inFlight := fun _ => hlast
      requests := by
        intro request hmem
        have hsent := h.requests request hmem
        have htaken := hsent.taken
        refine ⟨hsent.key, hsent.numbered, ?_, hsent.ended, ?_⟩
        · exact Nat.lt_trans htaken (hlast.last ▸ Nat.lt_succ_self _)
        · intro _ hnumber
          have hnumber : request.reportSequence = world.collector.nextReportSequence := hnumber
          rw [hnumber] at htaken
          exact absurd htaken (Nat.lt_irrefl _)
      counted := by
        refine .inr ⟨rfl, ?_⟩
        change _ = (world.collector.nextReportSequence + 1).toNat
        omega
      answered := h.answered
      window := fun stream hstream =>
        have hbefore := UInt64.le_trans (h.window stream hstream).1 hstart
        ⟨hbefore, fun _ => hbefore⟩
      conserved := by
        intro quantity
        rw [uncountedAmount_of_new rfl hnew, amount_closedWindow]
        have hbefore := h.conserved quantity
        rw [uncountedAmount_of_idle hidle] at hbefore
        have hnone :
            (Metrics.freezeWindow windowEndMs world.collector).pending.amount quantity = 0 := by
          cases quantity <;> rfl
        rw [hnone]
        simpa using hbefore
      bounded := h.bounded }

/-- The reply to a counted report takes it out of flight. -/
theorem Agrees.acknowledge (h : Agrees accessPath world recorded) {reportSequence : UInt64}
    (hanswered : reportSequence ∈ world.answered) :
    Agrees accessPath
      { world with collector := world.collector.acknowledgeReport reportSequence } recorded := by
  unfold NodeMetricsCollector.acknowledgeReport
  split
  · rename_i hacknowledged
    rw [Bool.and_eq_true, decide_eq_true_eq] at hacknowledged
    obtain ⟨hin, rfl⟩ := hacknowledged
    have hlast := h.inFlight hin
    have hle := UInt64.le_iff_toNat_le.mp (h.answered _ hanswered)
    have hnumber := hlast.last
    have hcounted : (countedSequence recorded).toNat + 1 =
        world.collector.nextReportSequence.toNat := by
      rcases h.counted with hlast | ⟨-, hbefore⟩
      · exact hlast
      · omega
    have hknown : inFlightCounted recorded world.collector = true :=
      hlast.counted_iff.mpr (UInt64.toNat_inj.mp (by omega))
    exact
      { epoch := h.epoch
        windowStart := h.windowStart
        inFlight := fun hin => nomatch hin
        requests := fun request hmem =>
          (h.requests request hmem).of_same rfl rfl fun hin => nomatch hin
        counted := .inl hcounted
        answered := h.answered
        window := fun stream hstream => ⟨(h.window stream hstream).1, fun hin => nomatch hin⟩
        conserved := fun quantity => by
          rw [h.conserved quantity, uncountedAmount_of_counted hknown, uncountedAmount_of_idle rfl]
        bounded := h.bounded }
  · exact h

/-- A request for a report that is not counted is that of the report in flight. -/
theorem Agrees.request_new (h : Agrees accessPath world recorded) {request : NodeAccessMetrics}
    (hmem : request ∈ world.requests) (hnew : countedSequence recorded < request.reportSequence) :
    world.collector.hasInFlight = true ∧ inFlightCounted recorded world.collector = false ∧
      ∃ instanceGeneration,
        request = reportRequest accessPath instanceGeneration world.collector.inFlight := by
  have hsent := h.requests request hmem
  have htaken := hsent.taken
  have hnew := UInt64.lt_iff_toNat_lt.mp hnew
  rcases h.counted with hlast | ⟨hin, hbefore⟩
  · omega
  · have hlast := h.inFlight hin
    have hnumber := hlast.last
    have hsame : request.reportSequence = world.collector.inFlight.reportSequence :=
      UInt64.toNat_inj.mp (by omega)
    refine ⟨hin, ?_, hsent.same hin hsame⟩
    rw [← Bool.not_eq_true, hlast.counted_iff]
    intro heq
    rw [heq] at hbefore
    omega

theorem requestedMetrics_of_ended {request : NodeAccessMetrics} (h : request.windowEndMs ≠ 0)
    (nowMs : UInt64) : requestedMetrics nowMs request = request := by
  rw [requestedMetrics, if_neg h]

/-- The report in flight is counted now. -/
theorem Agrees.count (h : Agrees accessPath world recorded) {instanceGeneration : UInt64}
    {manager : NodePowerManager} {next : NodeMetricsStreamState}
    (hin : world.collector.hasInFlight = true)
    (hnew : inFlightCounted recorded world.collector = false)
    (hsequence : next.reportSequence = world.collector.inFlight.reportSequence)
    (hwindow : next.windowEndMs = world.collector.inFlight.windowEndMs)
    (hamount : ∀ quantity, countedAmount (some next) quantity =
      Saturating.add (countedAmount recorded quantity)
        (world.collector.inFlight.amount quantity)) :
    Agrees accessPath
      { world with
        manager := manager
        answered :=
          (reportRequest accessPath instanceGeneration world.collector.inFlight).reportSequence ::
            world.answered } (some next) := by
  have hlast := h.inFlight hin
  have hnumber := hlast.last
  have hknown : inFlightCounted (some next) world.collector = true :=
    hlast.counted_iff.mpr hsequence
  have hle : countedSequence recorded ≤ world.collector.inFlight.reportSequence := by
    rw [UInt64.le_iff_toNat_le]
    rcases h.counted with hcounted | ⟨-, hcounted⟩
    · omega
    · omega
  exact
    { epoch := h.epoch
      windowStart := h.windowStart
      inFlight := h.inFlight
      requests := h.requests
      counted := .inl (by rw [countedSequence, hsequence]; exact hnumber)
      answered := by
        intro reportSequence hmem
        rw [countedSequence, hsequence]
        rcases List.mem_cons.mp hmem with rfl | hmem
        · exact UInt64.le_refl _
        · exact UInt64.le_trans (h.answered _ hmem) hle
      window := by
        rintro _ ⟨⟩
        rw [hwindow]
        exact ⟨hlast.before, fun _ => UInt64.le_refl _⟩
      conserved := by
        intro quantity
        have hbefore := h.conserved quantity
        have hbounded := h.bounded quantity
        rw [uncountedAmount_of_new hin hnew] at hbefore
        rw [uncountedAmount_of_counted hknown, hamount, toNat_saturating (by omega)]
        change world.finished quantity =
          _ + (world.collector.pending.amount quantity).toNat + 0
        omega
      bounded := h.bounded }

end Steps

/-! ## Deliveries -/

/-- A repeated report is the last of its stream. -/
theorem repeats_iff (hnone : NoReporter node) (hepoch : metrics.reporterEpoch ≠ 0)
    (hsequence : metrics.reportSequence ≠ 0) :
    repeatsReport metrics (previousStream metrics node) = true ↔
      countedSequence (findStream metrics.streamKey node.metricsStreams) =
        metrics.reportSequence := by
  cases hfind : findStream metrics.streamKey node.metricsStreams with
  | none =>
      have hnew := previousStream_of_new hnone hepoch hfind
      simp [repeatsReport, hnew.1, countedSequence, Ne.symm hsequence]
  | some stream =>
      have hsame := sameReporter_of_key (findStream_mem hfind).2
      rw [repeatsReport, previousStream_of_find hfind, hsame, countedSequence]
      simp only [Bool.true_and, Bool.and_eq_true, decide_eq_true_eq]
      exact ⟨fun h => h.2.symm, fun h => ⟨hsequence, h.symm⟩⟩

/-- A new report of a reporter is stale if it was taken over, or another window of the
    path ended later. -/
theorem stale_iff (hnone : NoReporter node) (hepoch : metrics.reporterEpoch ≠ 0)
    (hsequence : metrics.reportSequence ≠ 0)
    (hnew : countedSequence (findStream metrics.streamKey node.metricsStreams) <
      metrics.reportSequence) :
    staleReport metrics node = false ↔
      (previousStream metrics node).retired = false ∧
        pathEndMs metrics node ≤ metrics.windowEndMs := by
  cases hfind : findStream metrics.streamKey node.metricsStreams with
  | none =>
      have hfirst := previousStream_of_new hnone hepoch hfind
      simp [staleReport, hfirst.1, hsequence]
  | some stream =>
      rw [hfind, countedSequence] at hnew
      have hle := Std.not_lt.mpr (Std.le_of_lt hnew)
      simp [staleReport, previousStream_of_find hfind, hsequence, hle]

/-- A report that is neither repeated nor stale is ahead of its stream. -/
theorem counted_lt (hsequence : metrics.reportSequence ≠ 0)
    (hnew : repeatsReport metrics (previousStream metrics node) = false)
    (hfresh : staleReport metrics node = false) :
    countedSequence (findStream metrics.streamKey node.metricsStreams) <
      metrics.reportSequence := by
  cases hfind : findStream metrics.streamKey node.metricsStreams with
  | none => exact UInt64.pos_iff_ne_zero.mpr hsequence
  | some stream =>
      have hsame := sameReporter_of_key (findStream_mem hfind).2
      simp only [repeatsReport, staleReport, previousStream_of_find hfind, hsame, hsequence,
        Bool.true_and, Bool.or_eq_false_iff, ne_eq, not_false_eq_true, decide_true,
        decide_eq_false_iff_not] at hnew hfresh
      exact Std.lt_of_le_of_ne (Std.not_lt.mp hfresh.1.2) (Ne.symm hnew)

/-- What a report adds to its stream. -/
theorem nextStream_amount (hnone : NoReporter node) {instanceGeneration : UInt64}
    {snapshot : NodeMetricsSnapshot} (hepoch : snapshot.reporterEpoch ≠ 0) (quantity : Quantity) :
    countedAmount
        (some (nextStream num (reportRequest accessPath instanceGeneration snapshot) node))
        quantity =
      Saturating.add
        (countedAmount (findStream ⟨accessPath, snapshot.reporterEpoch⟩ node.metricsStreams)
          quantity)
        (snapshot.amount quantity) := by
  rw [countedAmount_nextStream]
  cases hfind : findStream ⟨accessPath, snapshot.reporterEpoch⟩ node.metricsStreams with
  | none =>
      have hnew := @previousStream_of_new node
        (reportRequest accessPath instanceGeneration snapshot) hnone hepoch hfind
      rw [hnew.1]
      rfl
  | some stream =>
      have hprevious := @previousStream_of_find node
        (reportRequest accessPath instanceGeneration snapshot) stream hfind
      have hsame := @sameReporter_of_key (reportRequest accessPath instanceGeneration snapshot)
        stream (findStream_mem hfind).2
      rw [hprevious, hsame, if_pos rfl]

/-! ## Histories -/

/-- What the manager has recorded of the collector. -/
def recordedStream (nodeId : Bytes) (accessPath : AccessPath) (world : ReportingWorld) :
    Option NodeMetricsStreamState :=
  (reporterStream nodeId (world.key accessPath) world.manager).map unretired

/-- The manager was reached by serving calls, and agrees with the collector. -/
structure Consistent (policy : PowerPolicy) (num : Numerics) (nodeId : Bytes)
    (accessPath : AccessPath) (world : ReportingWorld) : Prop where
  reaches : ∃ hist, Reaches policy num Any hist world.manager
  agrees : Agrees accessPath world (recordedStream nodeId accessPath world)

theorem recordedStream_eq {world : ReportingWorld}
    (hlookup : world.manager.nodes.lookup nodeId = some node) :
    recordedStream nodeId accessPath world =
      (findStream (world.key accessPath) node.metricsStreams).map unretired := by
  rw [recordedStream, reporterStream_eq hlookup]

theorem countedSequence_unretired (stream : Option NodeMetricsStreamState) :
    countedSequence (stream.map unretired) = countedSequence stream := by
  cases stream <;> rfl

theorem Consistent.start {collector : NodeMetricsCollector} (hepoch : collector.reporterEpoch ≠ 0)
    (hstart : collector.pending.windowStartMs ≠ 0) (hidle : collector.hasInFlight = false)
    (hnext : collector.nextReportSequence = 1)
    (hnothing : ∀ quantity, collector.pending.amount quantity = 0) :
    Consistent policy num nodeId accessPath { collector := collector } where
  reaches := ⟨[], .nil⟩
  agrees :=
    { epoch := hepoch
      windowStart := hstart
      inFlight := fun hin => absurd (hidle.symm.trans hin) Bool.false_ne_true
      requests := fun _ hmem => nomatch hmem
      counted := .inl (by rw [hnext]; rfl)
      answered := fun _ hmem => nomatch hmem
      window := fun _ hstream => nomatch hstream
      conserved := fun quantity => by
        rw [hnothing quantity, uncountedAmount_of_idle hidle]
        rfl
      bounded := fun _ => Nat.two_pow_pos 64 }

theorem Consistent.deliver {world : ReportingWorld} {request : NodeAccessMetrics} {nowMs : UInt64}
    {manager : NodePowerManager} (h : Consistent policy num nodeId accessPath world)
    (hmem : request ∈ world.requests)
    (hok : reportNodeMetrics policy num nodeId nowMs request world.manager = .ok manager) :
    Consistent policy num nodeId accessPath
      { world with manager := manager, answered := request.reportSequence :: world.answered } := by
  obtain ⟨⟨hist, hreaches⟩, hagrees⟩ := h
  have hserve : world.manager.Serve policy num
      (.node nodeId (.reportMetrics (requestedMetrics nowMs request))) manager :=
    ⟨trivial, .inl hok⟩
  refine ⟨⟨_, hreaches.snoc trivial hserve⟩, ?_⟩
  have hsent := hagrees.requests request hmem
  rw [requestedMetrics_of_ended hsent.ended] at hserve
  obtain ⟨node, hlookup, houtcome⟩ := @reportNodeMetrics_ok policy num nodeId
    (world.key accessPath) world.manager manager nowMs request hok
  rw [requestedMetrics_of_ended hsent.ended] at houtcome
  have hnone := noReporter_of_reaches hreaches hlookup
  have hepoch : request.reporterEpoch ≠ 0 := by
    rw [show request.reporterEpoch = world.collector.reporterEpoch from
      congrArg StreamKey.reporterEpoch hsent.key]
    exact hagrees.epoch
  have hrepeats := repeats_iff hnone hepoch hsent.numbered
  rw [hsent.key] at hrepeats
  have hrecorded := @recordedStream_eq nodeId accessPath node world hlookup
  rcases houtcome with ⟨hrepeated, hsame⟩ | ⟨hnew, hfresh, hcounted⟩
  · -- the manager had counted the report, and answers once more
    have hsequence := hrepeats.mp hrepeated
    have hstream : recordedStream nodeId accessPath
        { world with manager := manager, answered := request.reportSequence :: world.answered } =
          recordedStream nodeId accessPath world := congrArg (Option.map unretired) hsame
    rw [hstream]
    refine { hagrees with answered := ?_, requests := ?_, inFlight := ?_ }
    · exact hagrees.inFlight
    · exact hagrees.requests
    · intro reportSequence hmem
      rcases List.mem_cons.mp hmem with rfl | hmem
      · rw [hrecorded, countedSequence_unretired]
        exact UInt64.le_of_eq hsequence.symm
      · exact hagrees.answered _ hmem
  · -- the manager counts the report that is in flight
    have hahead := counted_lt hsent.numbered hnew hfresh
    rw [hsent.key] at hahead
    rw [← countedSequence_unretired, show StreamKey.mk accessPath world.collector.reporterEpoch =
      world.key accessPath from rfl, ← hrecorded] at hahead
    obtain ⟨hin, huncounted, instanceGeneration, rfl⟩ := hagrees.request_new hmem hahead
    have hstream : recordedStream nodeId accessPath
        { world with
          manager := manager
          answered := (reportRequest accessPath instanceGeneration
            world.collector.inFlight).reportSequence :: world.answered } =
        some (nextStream num (reportRequest accessPath instanceGeneration world.collector.inFlight)
          node) := by
      rw [hsent.key] at hcounted
      exact congrArg (Option.map unretired) hcounted
    rw [hstream]
    refine hagrees.count hin huncounted rfl rfl fun quantity => ?_
    rw [nextStream_amount hnone hepoch, hrecorded, countedAmount_unretired]
    rw [(hagrees.inFlight hin).epoch]
    rfl

theorem Consistent.served {world : ReportingWorld} {call : ManagerCall} {manager : NodePowerManager}
    (h : Consistent policy num nodeId accessPath world)
    (hothers : ofOthers nodeId (world.key accessPath) call)
    (hserve : world.manager.Serve policy num call manager) :
    Consistent policy num nodeId accessPath { world with manager := manager } := by
  obtain ⟨⟨hist, hreaches⟩, hagrees⟩ := h
  refine ⟨⟨_, hreaches.snoc trivial hserve⟩, ?_⟩
  have hstream : recordedStream nodeId accessPath { world with manager := manager } =
      recordedStream nodeId accessPath world :=
    reporterStream_served hreaches.keyed hothers hserve
  rw [hstream]
  exact { hagrees with requests := hagrees.requests, inFlight := hagrees.inFlight }

/-- Every event keeps the manager and the collector in agreement. -/
theorem Consistent.step {world world' : ReportingWorld} {event : ReportingEvent}
    (h : Consistent policy num nodeId accessPath world) (hok : Unsaturated world event)
    (hstep : Happens policy num nodeId accessPath world event world') :
    Consistent policy num nodeId accessPath world' := by
  obtain ⟨hreaches, hagrees⟩ := h
  cases hstep with
  | beginRequest => exact ⟨hreaches, hagrees.beginRequest⟩
  | finishRequest => exact ⟨hreaches, hagrees.finishRequest hok⟩
  | @reported windowEndMs instanceGeneration _ _ htaken _ =>
      refine ⟨hreaches, ?_⟩
      rcases takeForReport_cases windowEndMs world.collector with
        ⟨hin, hsame⟩ | ⟨hidle, hwindow, hfrozen⟩ | ⟨-, hwindow, hskipped⟩
      · cases hsame.symm.trans htaken
        exact hagrees.resend hin instanceGeneration
      · cases hfrozen.symm.trans htaken
        exact (hagrees.freezeWindow hidle hwindow hok).resend rfl instanceGeneration
      · cases hskipped.symm.trans htaken
        rename_i hactive
        rw [hwindow] at hactive
        cases hactive
  | @idle windowEndMs instanceGeneration _ _ htaken hinactive =>
      refine ⟨hreaches, ?_⟩
      rcases takeForReport_cases windowEndMs world.collector with
        ⟨hin, hsame⟩ | ⟨hidle, hwindow, hfrozen⟩ | ⟨-, hwindow, hskipped⟩
      · cases hsame.symm.trans htaken
        exact hagrees
      · cases hfrozen.symm.trans htaken
        exact absurd (hinactive.symm.trans hwindow) Bool.false_ne_true
      · cases hskipped.symm.trans htaken
        exact hagrees.skipWindow hwindow
  | delivered hmem hdelivered => exact Consistent.deliver ⟨hreaches, hagrees⟩ hmem hdelivered
  | refused => exact ⟨hreaches, hagrees⟩
  | acknowledge hanswered =>
      refine ⟨hreaches, ?_⟩
      have hkey : (world.collector.acknowledgeReport ‹_›).reporterEpoch =
          world.collector.reporterEpoch := by
        unfold NodeMetricsCollector.acknowledgeReport
        split
        · rfl
        · rfl
      have hagrees' := hagrees.acknowledge hanswered
      rw [recordedStream, ReportingWorld.key, hkey]
      exact hagrees'
  | served hothers hserve => exact Consistent.served ⟨hreaches, hagrees⟩ hothers hserve

theorem amount_create (initialTimeMs windowClockMs epochClockMs reporterCounter : UInt64)
    (quantity : Quantity) :
    (NodeMetricsCollector.create initialTimeMs windowClockMs epochClockMs
      reporterCounter).pending.amount quantity = 0 := by
  cases quantity with
  | readOperations => rw [NodeMetricsCollector.create, NodeMetricsSnapshot.amount]
  | writeOperations => rw [NodeMetricsCollector.create, NodeMetricsSnapshot.amount]
  | readBytes => rw [NodeMetricsCollector.create, NodeMetricsSnapshot.amount]
  | writeBytes => rw [NodeMetricsCollector.create, NodeMetricsSnapshot.amount]

theorem saturating_ne_zero {a b : UInt64} (h : b ≠ 0) : Saturating.add a b ≠ 0 := by
  intro hzero
  have hsum := Saturating.toNat_add a b
  have hpositive : 0 < b.toNat := Nat.pos_of_ne_zero fun h' => h (UInt64.toNat_inj.mp h')
  rw [hzero, UInt64.toNat_zero] at hsum
  omega

/-- Manager and collector agree in every history. -/
theorem consistent_of_runs {initialTimeMs windowClockMs epochClockMs reporterCounter : UInt64}
    {hist : List (Served ReportingWorld ReportingEvent)} {world : ReportingWorld}
    (hclock : windowClockMs ≠ 0) (hcounter : reporterCounter ≠ 0)
    (h : RunsFrom policy num nodeId accessPath
      (.create initialTimeMs windowClockMs epochClockMs reporterCounter) hist world) :
    Consistent policy num nodeId accessPath world := by
  refine Serves.invariant (I := Consistent policy num nodeId accessPath)
    (fun _ _ _ hconsistent hok hstep => hconsistent.step hok hstep) ?_ h
  refine Consistent.start (saturating_ne_zero hcounter) ?_ rfl rfl (amount_create _ _ _ _)
  rw [NodeMetricsCollector.create]
  dsimp only
  split
  · exact hclock
  · assumption

/-! ## Which reports are accepted -/

/-- Another reporter has taken the path over. -/
def takenOver (key : StreamKey) (node : NodeRecord) : Prop :=
  ∃ stream ∈ node.metricsStreams, streamKey stream = key ∧ stream.retired = true

/-- A window with this end is not before the time mark of the path: the windows of its
    other reporters, and for the first report on the default path the node's own. -/
def meetsPathMark (key : StreamKey) (node : NodeRecord) (windowEndMs : UInt64) : Prop :=
  firstMarkMs key.accessPath node ≤ windowEndMs ∧
    ∀ stream ∈ node.metricsStreams, stream.accessPath = key.accessPath →
      stream.reporterEpoch ≠ key.reporterEpoch → stream.windowEndMs ≤ windowEndMs

theorem foldl_max_le {bound : UInt64} (streams : List NodeMetricsStreamState) (first : UInt64) :
    streams.foldl (fun endMs stream => max endMs stream.windowEndMs) first ≤ bound ↔
      first ≤ bound ∧ ∀ stream ∈ streams, stream.windowEndMs ≤ bound := by
  induction streams generalizing first with
  | nil => simp
  | cons stream streams ih =>
      have hboth := Saturating.le_max first stream.windowEndMs
      have hmax : max first stream.windowEndMs ≤ bound ↔
          first ≤ bound ∧ stream.windowEndMs ≤ bound := by
        constructor
        · intro hle
          exact ⟨UInt64.le_trans hboth.1 hle, UInt64.le_trans hboth.2 hle⟩
        · rintro ⟨hfirst, hstream⟩
          change (if first ≤ stream.windowEndMs then stream.windowEndMs else first) ≤ bound
          split
          · exact hstream
          · exact hfirst
      rw [List.foldl_cons, ih, hmax, List.forall_mem_cons, and_assoc]

theorem pathEndMs_le_iff {bound : UInt64} :
    pathEndMs metrics node ≤ bound ↔
      (previousStream metrics node).windowEndMs ≤ bound ∧
        ∀ stream ∈ node.metricsStreams, stream.accessPath = metrics.accessPath →
          stream.windowEndMs ≤ bound := by
  rw [pathEndMs, foldl_max_le]
  simp only [List.mem_filter, decide_eq_true_eq, and_imp]

theorem reportMetrics_ok_iff {canOff : Bool} (haccepts : acceptsAccess node = true)
    (hgeneration : generationMismatch node metrics.instanceGeneration = false) :
    (∃ result, Scheduler.reportMetrics policy num canOff metrics node = .ok result) ↔
      repeatsReport metrics (previousStream metrics node) = true ∨
        staleReport metrics node = false := by
  unfold Scheduler.reportMetrics
  rw [haccepts, hgeneration]
  cases hrepeats : repeatsReport metrics (previousStream metrics node) with
  | true => simp
  | false =>
      cases hstale : staleReport metrics node with
      | true => simp
      | false => simp

theorem reportNodeMetrics_ok_iff {nowMs : UInt64} {request : NodeAccessMetrics}
    (hended : request.windowEndMs ≠ 0) (hordered : request.windowStartMs ≤ request.windowEndMs)
    (hlookup : manager.nodes.lookup nodeId = some node) (haccepts : acceptsAccess node = true)
    (hgeneration : generationMismatch node request.instanceGeneration = false) :
    (∃ manager', reportNodeMetrics policy num nodeId nowMs request manager = .ok manager') ↔
      repeatsReport request (previousStream request node) = true ∨
        staleReport request node = false := by
  rw [reportNodeMetrics, requestedMetrics_of_ended hended,
    ← reportMetrics_ok_iff haccepts hgeneration]
  constructor
  · rintro ⟨manager', hok⟩
    obtain ⟨found, node', changed, hfound, -, hrun, -⟩ := callNode_ok hok
    cases hlookup.symm.trans hfound
    exact ⟨_, hrun⟩
  · rintro ⟨⟨node', changed⟩, hrun⟩
    have hvalid : (NodeCall.reportMetrics request).validate = .ok () :=
      if_neg (Std.not_lt.mpr hordered)
    exact ⟨_, callNode_eq_ok hlookup hvalid hrun⟩

/-- Before its first report a reporter is not taken over, and no stream is its own. -/
theorem fresh_iff_of_new (hnone : NoReporter node) (hepoch : metrics.reporterEpoch ≠ 0)
    (hfind : findStream metrics.streamKey node.metricsStreams = none) :
    ((previousStream metrics node).retired = false ∧
        pathEndMs metrics node ≤ metrics.windowEndMs) ↔
      ¬takenOver metrics.streamKey node ∧
        meetsPathMark metrics.streamKey node metrics.windowEndMs := by
  obtain ⟨-, hretired, hmark⟩ := previousStream_of_new hnone hepoch hfind
  have habsent : ∀ stream ∈ node.metricsStreams, streamKey stream ≠ metrics.streamKey := by
    intro stream hmem
    simpa using List.find?_eq_none.mp hfind stream hmem
  have hother : ∀ stream ∈ node.metricsStreams, stream.accessPath = metrics.accessPath →
      stream.reporterEpoch ≠ metrics.reporterEpoch := by
    intro stream hmem hpath hsame
    apply habsent stream hmem
    rw [streamKey, hpath, hsame]
    rfl
  rw [pathEndMs_le_iff, hretired, hmark]
  constructor
  · rintro ⟨-, hfirst, hstreams⟩
    refine ⟨?_, hfirst, fun stream hmem hpath _ => hstreams stream hmem hpath⟩
    rintro ⟨stream, hmem, hkey, -⟩
    exact habsent stream hmem hkey
  · rintro ⟨-, hfirst, hstreams⟩
    exact ⟨rfl, hfirst, fun stream hmem hpath =>
      hstreams stream hmem hpath (hother stream hmem hpath)⟩

/-- Later, its own stream is the one that another reporter may have retired, and does
    not stand in the way of a later window. -/
theorem fresh_iff_of_known (hwell : WellStreamed node.metricsStreams)
    (hfind : findStream metrics.streamKey node.metricsStreams = some stream)
    (hown : stream.windowEndMs ≤ metrics.windowEndMs) :
    ((previousStream metrics node).retired = false ∧
        pathEndMs metrics node ≤ metrics.windowEndMs) ↔
      ¬takenOver metrics.streamKey node ∧
        meetsPathMark metrics.streamKey node metrics.windowEndMs := by
  obtain ⟨hmem, hkey⟩ := findStream_mem hfind
  have hunique : ∀ other ∈ node.metricsStreams, streamKey other = metrics.streamKey →
      other = stream :=
    fun other hother hsame => hwell.eq_of_key hother hmem (hsame.trans hkey.symm)
  have hfirst : firstMarkMs metrics.streamKey.accessPath node ≤ metrics.windowEndMs := by
    rw [firstMarkMs, if_neg fun hboth => List.ne_nil_of_mem hmem hboth.2]
    exact UInt64.zero_le
  rw [pathEndMs_le_iff, previousStream_of_find hfind]
  constructor
  · rintro ⟨hretired, -, hstreams⟩
    refine ⟨?_, hfirst, fun other hother hpath _ => hstreams other hother hpath⟩
    rintro ⟨other, hother, hsame, htaken⟩
    rw [hunique other hother hsame, hretired] at htaken
    cases htaken
  · rintro ⟨htaken, -, hstreams⟩
    refine ⟨?_, hown, fun other hother hpath => ?_⟩
    · rw [← Bool.not_eq_true]
      exact fun hretired => htaken ⟨stream, hmem, hkey, hretired⟩
    · by_cases hsame : other.reporterEpoch = metrics.reporterEpoch
      · rw [hunique other hother (by rw [streamKey, hpath, hsame]; rfl)]
        exact hown
      · exact hstreams other hother hpath hsame

/-- A report in flight that is not counted is ahead of its stream. -/
theorem Agrees.ahead {world : ReportingWorld} {recorded : Option NodeMetricsStreamState}
    (h : Agrees accessPath world recorded) (hin : world.collector.hasInFlight = true)
    (huncounted : ¬inFlightCounted recorded world.collector = true) :
    countedSequence recorded < world.collector.inFlight.reportSequence := by
  have hlast := h.inFlight hin
  rw [hlast.counted_iff, ← UInt64.toNat_inj] at huncounted
  have hnumber := hlast.last
  rw [UInt64.lt_iff_toNat_lt]
  rcases h.counted with hcounted | ⟨-, hcounted⟩
  · omega
  · omega

/-- Which deliveries of the report in flight are accepted. -/
theorem Consistent.accepted_iff {world : ReportingWorld} {instanceGeneration nowMs : UInt64}
    (h : Consistent policy num nodeId accessPath world)
    (hin : world.collector.hasInFlight = true)
    (hlookup : world.manager.nodes.lookup nodeId = some node)
    (haccepts : acceptsAccess node = true)
    (hgeneration : generationMismatch node instanceGeneration = false) :
    (∃ manager', reportNodeMetrics policy num nodeId nowMs
        (reportRequest accessPath instanceGeneration world.collector.inFlight) world.manager =
          .ok manager') ↔
      inFlightCounted (reporterStream nodeId (world.key accessPath) world.manager)
          world.collector = true ∨
        ¬takenOver (world.key accessPath) node ∧
          meetsPathMark (world.key accessPath) node world.collector.inFlight.windowEndMs := by
  obtain ⟨⟨hist, hreaches⟩, hagrees⟩ := h
  have hlast := hagrees.inFlight hin
  have hnone := noReporter_of_reaches hreaches hlookup
  have hwell := hreaches.wellStreamed hlookup
  generalize hrequest : reportRequest accessPath instanceGeneration world.collector.inFlight =
    request
  have hkey : request.streamKey = world.key accessPath := by
    rw [← hrequest]
    exact congrArg (StreamKey.mk accessPath) hlast.epoch
  have hpath : request.accessPath = (world.key accessPath).accessPath :=
    congrArg StreamKey.accessPath hkey
  have hsequence : request.reportSequence = world.collector.inFlight.reportSequence := by
    rw [← hrequest]
    rfl
  have hend : request.windowEndMs = world.collector.inFlight.windowEndMs := by
    rw [← hrequest]
    rfl
  have hepoch : request.reporterEpoch ≠ 0 := by
    rw [show request.reporterEpoch = world.collector.reporterEpoch from
      congrArg StreamKey.reporterEpoch hkey]
    exact hagrees.epoch
  have hnumbered : request.reportSequence ≠ 0 := hsequence ▸ hlast.numbered
  rw [reportNodeMetrics_ok_iff (hend ▸ hlast.ended)
    (by rw [hend, ← hrequest]; exact hlast.ordered) hlookup haccepts
    (by rw [← hrequest]; exact hgeneration),
    repeats_iff hnone hepoch hnumbered, hkey, hsequence, ← hlast.counted_iff,
    ← reporterStream_eq hlookup]
  refine or_congr_right' fun huncounted => ?_
  have hahead := hagrees.ahead hin (by rwa [recordedStream, inFlightCounted_unretired])
  rw [recordedStream, countedSequence_unretired, reporterStream_eq hlookup, ← hkey,
    ← hsequence] at hahead
  rw [stale_iff hnone hepoch hnumbered hahead, ← hkey, ← hend]
  cases hfind : findStream request.streamKey node.metricsStreams with
  | none => exact fresh_iff_of_new hnone hepoch hfind
  | some stream =>
      refine fresh_iff_of_known hwell hfind ?_
      have hrecorded : recordedStream nodeId accessPath world = some (unretired stream) := by
        rw [recordedStream_eq hlookup, ← hkey, hfind]
        rfl
      rw [hend]
      exact (hagrees.window _ hrecorded).2 hin

/-! ## The law of collected metrics -/

/-- What is finished is counted, pending or in flight, and the report in flight is
    accepted again as long as its reporter is the newest and no other reporter of the
    path has a later window. -/
structure MetricsConserved (policy : PowerPolicy) (num : Numerics) (nodeId : Bytes)
    (accessPath : AccessPath) (world : ReportingWorld) : Prop where
  conserved : ∀ quantity, world.finished quantity =
    (countedAmount (reporterStream nodeId (world.key accessPath) world.manager) quantity).toNat +
      (world.collector.pending.amount quantity).toNat +
      (uncountedAmount (reporterStream nodeId (world.key accessPath) world.manager)
        world.collector quantity).toNat
  accepted : ∀ node instanceGeneration nowMs, world.collector.hasInFlight = true →
    world.manager.nodes.lookup nodeId = some node → acceptsAccess node = true →
    generationMismatch node instanceGeneration = false →
    ((∃ manager', reportNodeMetrics policy num nodeId nowMs
        (reportRequest accessPath instanceGeneration world.collector.inFlight) world.manager =
          .ok manager') ↔
      inFlightCounted (reporterStream nodeId (world.key accessPath) world.manager)
          world.collector = true ∨
        ¬takenOver (world.key accessPath) node ∧
          meetsPathMark (world.key accessPath) node world.collector.inFlight.windowEndMs)

/-- Operation counts are conserved from the collector to the scheduler. -/
theorem metrics_conserved {initialTimeMs windowClockMs epochClockMs reporterCounter : UInt64}
    {hist : List (Served ReportingWorld ReportingEvent)} {world : ReportingWorld}
    (hclock : windowClockMs ≠ 0) (hcounter : reporterCounter ≠ 0)
    (h : RunsFrom policy num nodeId accessPath
      (.create initialTimeMs windowClockMs epochClockMs reporterCounter) hist world) :
    MetricsConserved policy num nodeId accessPath world where
  conserved := by
    intro quantity
    have hconserved := (consistent_of_runs hclock hcounter h).agrees.conserved quantity
    rwa [recordedStream, countedAmount_unretired, uncountedAmount_unretired] at hconserved
  accepted := by
    intro node instanceGeneration nowMs hin hlookup haccepts hgeneration
    exact (consistent_of_runs hclock hcounter h).accepted_iff hin hlookup haccepts hgeneration

/-! ## A collector after a restart -/

/-- A collector that starts at the fifth millisecond. -/
def laterCollector : NodeMetricsCollector := .create 5 5 5 1

/-- It has read three bytes and taken the report of them at the fiftieth. -/
def reportedCollector : NodeMetricsCollector :=
  ((laterCollector.beginRequest.finishRequest .read 3 0 7).takeForReport 50).2

/-- The request of that report. -/
def laterRequest : NodeAccessMetrics :=
  reportRequest .default 0 reportedCollector.inFlight

/-- The world of the collector and a manager when the report has been sent. -/
def reportedWorld (manager : NodePowerManager) : ReportingWorld where
  collector := reportedCollector
  manager := manager
  requests := [laterRequest]
  finished := fun quantity => 0 + quantity.ofOperation .read 3

/-- A world of some history of the collector. -/
def Occurs (world : ReportingWorld) : Prop :=
  ∃ hist, RunsFrom plainPolicy plainNumerics simulatedDisk.nodeId .default laterCollector hist
    world

theorem Occurs.step {world world' : ReportingWorld} (h : Occurs world) (event : ReportingEvent)
    (hok : Unsaturated world event)
    (hstep : Happens {} plainNumerics simulatedDisk.nodeId .default world event world') :
    Occurs world' := by
  obtain ⟨hist, hrun⟩ := h
  exact ⟨_, hrun.snoc hok hstep⟩

theorem Occurs.served (h : Occurs { collector := laterCollector, manager := manager })
    (call : ManagerCall)
    (hothers : ofOthers simulatedDisk.nodeId
      (ReportingWorld.key .default { collector := laterCollector }) call)
    (hvisits : manager.Visits call) :
    Occurs { collector := laterCollector, manager := manager.after {} plainNumerics call } :=
  h.step (.served call) trivial (.served hothers (NodePowerManager.serve_after hvisits))

theorem occurs_serving : Occurs { collector := laterCollector, manager := servingManager } := by
  have hstart : Occurs { collector := laterCollector } := ⟨[], .nil⟩
  have hregistered := hstart.served (.registerNode simulatedDisk 0 0) trivial trivial
  exact hregistered.served (.node simulatedDisk.nodeId (.activateNode 1)) trivial trivial

/-- The collector reports, whatever the manager is. -/
theorem occurs_reported (h : Occurs { collector := laterCollector, manager := manager }) :
    Occurs (reportedWorld manager) := by
  have hbegun := h.step .beginRequest trivial .beginRequest
  have hfits : ∀ quantity, 0 + Quantity.ofOperation .read 3 quantity < 2 ^ 64 := by
    intro quantity
    cases quantity <;> decide
  have hfinished := hbegun.step (.finishRequest .read 3 0 7) hfits .finishRequest
  have hnumbered : laterCollector.nextReportSequence.toNat + 1 < 2 ^ 64 := by decide
  have hactive : reportedCollector.inFlight.hasActivity = true := by decide
  exact hfinished.step (.report 50 0) hnumbered (.reported rfl hactive)

theorem metrics_conserved_in_flight :
    MetricsConserved {} plainNumerics simulatedDisk.nodeId .default (reportedWorld servingManager) ∧
      (reportedWorld servingManager).finished .readBytes = 3 := by
  obtain ⟨hist, hrun⟩ := occurs_reported occurs_serving
  exact ⟨metrics_conserved (by decide) (by decide) hrun, rfl⟩

/-- A report of an earlier process, whose clock was ahead. -/
def earlierReport : NodeAccessMetrics where
  reporterEpoch := 7
  reportSequence := 1
  windowEndMs := 100
  readOperations := 1

def aheadManager : NodePowerManager :=
  servingManager.after plainPolicy plainNumerics
    (.node simulatedDisk.nodeId (.reportMetrics earlierReport))

/-- The newest reporter of the path has a report in flight that the node, which accepts
    metrics, refuses at any time: an earlier process was ahead of it. -/
theorem report_of_newest_refused :
    Occurs (reportedWorld aheadManager) ∧
      (reportedWorld aheadManager).collector.hasInFlight = true ∧
      (∃ node, aheadManager.nodes.lookup simulatedDisk.nodeId = some node ∧
        acceptsAccess node = true ∧ generationMismatch node 0 = false ∧
        ∀ stream ∈ node.metricsStreams,
          stream.reporterEpoch < (reportedWorld aheadManager).collector.reporterEpoch) ∧
      ∀ nowMs, ¬∃ manager', reportNodeMetrics {} plainNumerics simulatedDisk.nodeId nowMs
        laterRequest aheadManager = .ok manager' := by
  refine ⟨occurs_reported (occurs_serving.served _ ?_ trivial), by decide, ?_, ?_⟩
  · exact fun _ => by decide
  · have hfields : (aheadManager.nodes.lookup simulatedDisk.nodeId).map
        (fun node => (acceptsAccess node, generationMismatch node 0,
          node.metricsStreams.all fun stream => stream.reporterEpoch < 5001)) =
        some (true, false, true) := by decide +kernel
    cases hlookup : aheadManager.nodes.lookup simulatedDisk.nodeId with
    | none =>
        rw [hlookup] at hfields
        cases hfields
    | some node =>
        rw [hlookup, Option.map_some, Option.some.injEq, Prod.mk.injEq, Prod.mk.injEq] at hfields
        obtain ⟨haccepts, hgeneration, hearlier⟩ := hfields
        refine ⟨node, rfl, haccepts, hgeneration, fun stream hmem => ?_⟩
        have hbelow := List.all_eq_true.mp hearlier stream hmem
        exact of_decide_eq_true hbelow
  · have hrefused : (reportNodeMetrics {} plainNumerics simulatedDisk.nodeId 0 laterRequest
        aheadManager).toOption.isSome = false := by decide +kernel
    rintro nowMs ⟨manager', hok⟩
    have hended : laterRequest.windowEndMs ≠ 0 := by decide
    rw [reportNodeMetrics, requestedMetrics_of_ended hended,
      ← requestedMetrics_of_ended hended 0, ← reportNodeMetrics] at hok
    rw [hok] at hrefused
    cases hrefused

end Zb.Metrics
