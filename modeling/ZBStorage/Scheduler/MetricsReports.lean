-- SUMMARY: Access-metrics reports: each is counted at most once, and one reporter is active on a path.
import ZBStorage.Scheduler.PowerHistory

/-!
# Metrics reports

A node keeps one stream for every reporter on an access path. A counted report
leaves its sequence number there and retires the other streams of the path, and
streams neither go back nor come back. So a report that was counted, or whose
stream is retired, changes nothing when it is delivered again.
-/

namespace Zb.Scheduler

open Zb.StorageModel Bytes TableLoop CallHistory

variable {policy : PowerPolicy} {num : Numerics} {canOff changed : Bool} {nodeId : Bytes}
  {node node' : NodeRecord} {manager manager' : NodePowerManager} {call : ManagerCall}
  {nodeCall : NodeCall} {metrics : NodeAccessMetrics} {stream next : NodeMetricsStreamState}
  {streams streams' : List NodeMetricsStreamState}

/-! ## Streams -/

/-- A reporter on an access path. -/
structure StreamKey where
  accessPath : AccessPath
  reporterEpoch : UInt64
  deriving DecidableEq

def streamKey (stream : NodeMetricsStreamState) : StreamKey :=
  ⟨stream.accessPath, stream.reporterEpoch⟩

def NodeAccessMetrics.streamKey (metrics : NodeAccessMetrics) : StreamKey :=
  ⟨metrics.accessPath, metrics.reporterEpoch⟩

/-- Every reporter has one stream, and one reporter is active on a path. -/
structure WellStreamed (streams : List NodeMetricsStreamState) : Prop where
  nodup : (streams.map streamKey).Nodup
  active : ∀ stream ∈ streams, ∀ other ∈ streams, stream.accessPath = other.accessPath →
    stream.retired = false → other.retired = false → stream.reporterEpoch = other.reporterEpoch

/-- Every stream is still there, with no lower mark and not back from retirement. -/
def Follows (streams streams' : List NodeMetricsStreamState) : Prop :=
  ∀ stream ∈ streams, ∃ later ∈ streams', streamKey later = streamKey stream ∧
    stream.reportSequence ≤ later.reportSequence ∧ (stream.retired = true → later.retired = true)

theorem Follows.refl (streams : List NodeMetricsStreamState) : Follows streams streams :=
  fun stream hmem => ⟨stream, hmem, rfl, Std.le_refl _, id⟩

theorem Follows.trans {a b c : List NodeMetricsStreamState} (hab : Follows a b)
    (hbc : Follows b c) : Follows a c := by
  intro stream hmem
  obtain ⟨later, hlater, hkey, hle, hretired⟩ := hab stream hmem
  obtain ⟨last, hlast, hkey', hle', hretired'⟩ := hbc later hlater
  exact ⟨last, hlast, hkey'.trans hkey, Std.le_trans hle hle', hretired' ∘ hretired⟩

theorem ofStream_iff : ofStream metrics stream = true ↔ streamKey stream = metrics.streamKey := by
  simp [ofStream, streamKey, NodeAccessMetrics.streamKey]

theorem WellStreamed.eq_of_key (h : WellStreamed streams) {other : NodeMetricsStreamState}
    (hmem : stream ∈ streams) (hother : other ∈ streams)
    (hkey : streamKey stream = streamKey other) : stream = other :=
  List.inj_on_of_nodup_map h.nodup hmem hother hkey

theorem streamKey_retireOthers (metrics : NodeAccessMetrics) (stream : NodeMetricsStreamState) :
    streamKey (retireOthers metrics stream) = streamKey stream := by
  unfold retireOthers
  split
  · rfl
  · rfl

theorem retired_retireOthers (h : stream.retired = true) :
    (retireOthers metrics stream).retired = true := by
  unfold retireOthers
  split
  · rfl
  · exact h

theorem sequence_retireOthers :
    (retireOthers metrics stream).reportSequence = stream.reportSequence := by
  unfold retireOthers
  split
  · rfl
  · rfl

theorem keys_retireOthers (metrics : NodeAccessMetrics) (streams : List NodeMetricsStreamState) :
    (streams.map (retireOthers metrics)).map streamKey = streams.map streamKey := by
  rw [List.map_map]
  apply List.map_congr_left
  intro stream _
  exact streamKey_retireOthers metrics stream

/-! ## Putting a stream -/

theorem keys_putStream (hkey : streamKey next = metrics.streamKey)
    (streams : List NodeMetricsStreamState) :
    (putStream metrics next streams).map streamKey =
      if metrics.streamKey ∈ streams.map streamKey then streams.map streamKey
      else streams.map streamKey ++ [metrics.streamKey] := by
  induction streams with
  | nil => simp [putStream, hkey]
  | cons old streams ih =>
      unfold putStream
      by_cases hold : ofStream metrics old = true
      · rw [if_pos hold]
        rw [ofStream_iff] at hold
        simp [hkey, hold]
      · rw [if_neg hold, List.map_cons, ih]
        rw [ofStream_iff] at hold
        split
        · rename_i hmem
          rw [if_pos (by exact List.mem_cons_of_mem _ hmem)]
          rfl
        · rename_i hmem
          rw [if_neg (by simpa [hmem] using Ne.symm hold)]
          rfl

theorem mem_putStream_self (metrics : NodeAccessMetrics) (next : NodeMetricsStreamState)
    (streams : List NodeMetricsStreamState) : next ∈ putStream metrics next streams := by
  induction streams with
  | nil => exact List.mem_singleton.mpr rfl
  | cons old streams ih =>
      unfold putStream
      split
      · exact List.mem_cons_self
      · exact List.mem_cons_of_mem _ ih

/-- The streams of the other reporters stay. -/
theorem mem_putStream_of_ne (hmem : stream ∈ streams)
    (hne : streamKey stream ≠ metrics.streamKey) : stream ∈ putStream metrics next streams := by
  induction streams with
  | nil => cases hmem
  | cons old streams ih =>
      unfold putStream
      rcases List.mem_cons.mp hmem with rfl | hmem
      · rw [if_neg (fun hold => hne (ofStream_iff.mp hold))]
        exact List.mem_cons_self
      · split
        · exact List.mem_cons_of_mem _ hmem
        · exact List.mem_cons_of_mem _ (ih hmem)

theorem mem_putStream (hnodup : (streams.map streamKey).Nodup)
    (hmem : stream ∈ putStream metrics next streams) :
    stream = next ∨ stream ∈ streams ∧ streamKey stream ≠ metrics.streamKey := by
  induction streams with
  | nil => exact .inl (List.mem_singleton.mp hmem)
  | cons old streams ih =>
      rw [List.map_cons, List.nodup_cons] at hnodup
      unfold putStream at hmem
      split at hmem
      · rename_i hold
        rcases List.mem_cons.mp hmem with hnext | hmem
        · exact .inl hnext
        · refine .inr ⟨List.mem_cons_of_mem _ hmem, fun hkey => hnodup.1 ?_⟩
          rw [ofStream_iff.mp hold, ← hkey]
          exact List.mem_map_of_mem hmem
      · rename_i hold
        rcases List.mem_cons.mp hmem with rfl | hmem
        · exact .inr ⟨List.mem_cons_self, fun hkey => hold (ofStream_iff.mpr hkey)⟩
        · rcases ih hnodup.2 hmem with hnext | ⟨hmem, hne⟩
          · exact .inl hnext
          · exact .inr ⟨List.mem_cons_of_mem _ hmem, hne⟩

/-- A counted report leaves the streams well formed. -/
theorem WellStreamed.report (h : WellStreamed streams) (hkey : streamKey next = metrics.streamKey) :
    WellStreamed (putStream metrics next (streams.map (retireOthers metrics))) := by
  have hkeys := keys_retireOthers metrics streams
  constructor
  · rw [keys_putStream hkey, hkeys]
    split
    · exact h.nodup
    · rename_i hnew
      exact List.nodup_append.mpr ⟨h.nodup, List.nodup_singleton _, by
        rintro a ha b hb rfl
        exact hnew (List.mem_singleton.mp hb ▸ ha)⟩
  · -- on the path of the report, only its own stream is active
    have hactive : ∀ stream ∈ putStream metrics next (streams.map (retireOthers metrics)),
        stream.retired = false → stream.accessPath = metrics.accessPath →
        stream.reporterEpoch = metrics.reporterEpoch := by
      intro stream hmem hretired hpath
      rcases mem_putStream (hkeys ▸ h.nodup) hmem with rfl | ⟨hold, hne⟩
      · exact congrArg StreamKey.reporterEpoch hkey
      · obtain ⟨old, -, rfl⟩ := List.mem_map.mp hold
        by_contra hepoch
        unfold retireOthers at hretired hpath hepoch
        split at hretired
        · cases hretired
        · rename_i hother
          rw [if_neg hother] at hpath hepoch
          exact hother ⟨hpath, hepoch⟩
    have hother : ∀ stream ∈ putStream metrics next (streams.map (retireOthers metrics)),
        stream.accessPath ≠ metrics.accessPath → stream ∈ streams := by
      intro stream hmem hpath
      rcases mem_putStream (hkeys ▸ h.nodup) hmem with rfl | ⟨hold, -⟩
      · exact absurd (congrArg StreamKey.accessPath hkey) hpath
      · obtain ⟨old, hbefore, rfl⟩ := List.mem_map.mp hold
        have hsame : (retireOthers metrics old).accessPath = old.accessPath :=
          congrArg StreamKey.accessPath (streamKey_retireOthers metrics old)
        rw [hsame] at hpath
        rw [retireOthers, if_neg fun hboth => hpath hboth.1]
        exact hbefore
    intro stream hmem other hmem' hpath hretired hretired'
    by_cases hreported : stream.accessPath = metrics.accessPath
    · rw [hactive stream hmem hretired hreported,
        hactive other hmem' hretired' (hpath.symm.trans hreported)]
    · exact h.active stream (hother stream hmem hreported) other
        (hother other hmem' (hpath ▸ hreported)) hpath hretired hretired'

/-! ## Counting a report -/

theorem previousStream_of_mem (h : WellStreamed node.metricsStreams)
    (hmem : stream ∈ node.metricsStreams) (hkey : streamKey stream = metrics.streamKey) :
    previousStream metrics node = stream := by
  unfold previousStream
  cases hfind : node.metricsStreams.find? (ofStream metrics) with
  | none => exact absurd (ofStream_iff.mpr hkey) (List.find?_eq_none.mp hfind stream hmem)
  | some found =>
      have hfound := ofStream_iff.mp (List.find?_some hfind)
      exact h.eq_of_key (List.mem_of_find?_eq_some hfind) hmem (hfound.trans hkey.symm)

theorem sameReporter_of_key (hkey : streamKey stream = metrics.streamKey) :
    sameReporter metrics stream = true := by
  have hepoch : stream.reporterEpoch = metrics.reporterEpoch :=
    congrArg StreamKey.reporterEpoch hkey
  simp [sameReporter, hepoch]

/-- What is known of the stream of a report that is neither repeated nor stale. -/
theorem fresh_of_counted (h : WellStreamed node.metricsStreams)
    (hmem : stream ∈ node.metricsStreams) (hkey : streamKey stream = metrics.streamKey)
    (hsequence : metrics.reportSequence ≠ 0)
    (hnew : repeatsReport metrics (previousStream metrics node) = false)
    (hfresh : staleReport metrics node = false) :
    stream.retired = false ∧ stream.reportSequence < metrics.reportSequence := by
  simp only [repeatsReport, staleReport, previousStream_of_mem h hmem hkey,
    sameReporter_of_key hkey, hsequence, Bool.true_and, Bool.or_eq_false_iff, ne_eq,
    not_false_eq_true, decide_true, decide_eq_false_iff_not] at hnew hfresh
  refine ⟨hfresh.1.1.1, ?_⟩
  have hle := Std.not_lt.mp hfresh.1.2
  exact Std.lt_of_le_of_ne hle (Ne.symm hnew)

theorem Follows.report (h : WellStreamed node.metricsStreams)
    (hsequence : metrics.reportSequence ≠ 0)
    (hnew : repeatsReport metrics (previousStream metrics node) = false)
    (hfresh : staleReport metrics node = false) :
    Follows node.metricsStreams (putStream metrics (nextStream num metrics node)
      (node.metricsStreams.map (retireOthers metrics))) := by
  intro stream hmem
  by_cases hkey : streamKey stream = metrics.streamKey
  · obtain ⟨hactive, hlt⟩ := fresh_of_counted h hmem hkey hsequence hnew hfresh
    refine ⟨_, mem_putStream_self .., hkey.symm, Std.le_of_lt hlt, fun hretired => ?_⟩
    rw [hactive] at hretired
    cases hretired
  · have hkept := streamKey_retireOthers metrics stream
    refine ⟨retireOthers metrics stream,
      mem_putStream_of_ne (List.mem_map_of_mem hmem) (hkept ▸ hkey), hkept, ?_,
      retired_retireOthers⟩
    rw [sequence_retireOthers]
    exact Std.le_refl _

/-- A report that its stream has passed, or whose stream is retired, changes nothing. -/
theorem unchanged_of_passed
    (h : (NodeCall.reportMetrics metrics).Effect num canOff nodeId node node' changed)
    (hwell : WellStreamed node.metricsStreams) (hmem : stream ∈ node.metricsStreams)
    (hkey : streamKey stream = metrics.streamKey) (hsequence : metrics.reportSequence ≠ 0)
    (hpassed : metrics.reportSequence ≤ stream.reportSequence ∨ stream.retired = true) :
    node' = node := by
  cases h with
  | repeatedMetrics => rfl
  | reportMetrics _ _ hnew hfresh _ =>
      obtain ⟨hactive, hlt⟩ := fresh_of_counted hwell hmem hkey hsequence hnew hfresh
      rcases hpassed with hle | hretired
      · exact absurd hle (Std.not_le.mpr hlt)
      · rw [hactive] at hretired
        cases hretired

/-! ## Steps -/

/-- Only a call on the node changes what is known of its reporters. -/
theorem NodeStep.reporters (h : NodeStep policy num manager nodeId node call node') :
    (∃ nodeCall changed, call = .node nodeId nodeCall ∧ nodeCall.run policy num
        (canPowerOff policy manager.nodes node) nodeId node = .ok (node', changed)) ∨
      node'.metricsStreams = node.metricsStreams ∧
        node'.lastMetricsReporterEpoch = node.lastMetricsReporterEpoch := by
  cases h with
  | called _ hrun => exact .inl ⟨_, _, rfl, hrun⟩
  | evaluated =>
      cases hevaluated : evaluateNode _ _ _ _ node with
      | mk node' changed => cases evaluateNode_evaluated hevaluated <;> exact .inr ⟨rfl, rfl⟩
  | @ticked order filter nowMs nodes =>
      have hticked := tickNode_ticked policy num (canPowerOff policy nodes node) nowMs node
      generalize (tickNode policy num (canPowerOff policy nodes node) nowMs node).1 = node' at *
      cases hticked
      exact .inr ⟨rfl, rfl⟩
  | _ => exact .inr ⟨rfl, rfl⟩

theorem NodeStep.wellStreamed (h : NodeStep policy num manager nodeId node call node')
    (hwell : WellStreamed node.metricsStreams) : WellStreamed node'.metricsStreams := by
  rcases h.reporters with ⟨_, _, rfl, hrun⟩ | ⟨hsame, -⟩
  · cases NodeCall.effect_of_run hrun with
    | reportMetrics => exact hwell.report rfl
    | _ => exact hwell
  · rw [hsame]
    exact hwell

theorem Reaches.wellStreamed {ok : NodePowerManager → ManagerCall → Prop}
    {hist : List (Served NodePowerManager ManagerCall)} (h : Reaches policy num ok hist manager)
    (hlookup : manager.nodes.lookup nodeId = some node) : WellStreamed node.metricsStreams := by
  refine h.nodes (P := fun node => WellStreamed node.metricsStreams) ?_ ?_ hlookup
  · exact fun _ _ _ _ _ _ => ⟨List.nodup_nil, nofun⟩
  · exact fun _ _ _ _ _ _ _ hwell hstep => hstep.wellStreamed hwell

/-- The reports about a node carry a sequence number and the epoch of their reporter. -/
def Identified (nodeId : Bytes) (_ : NodePowerManager) : ManagerCall → Prop
  | .node id (.reportMetrics metrics) =>
      id = nodeId → metrics.reportSequence ≠ 0 ∧ metrics.reporterEpoch ≠ 0
  | _ => True

theorem NodeStep.follows (h : NodeStep policy num manager nodeId node call node')
    (hok : Identified nodeId manager call) (hwell : WellStreamed node.metricsStreams) :
    Follows node.metricsStreams node'.metricsStreams := by
  rcases h.reporters with ⟨_, _, rfl, hrun⟩ | ⟨hsame, -⟩
  · cases NodeCall.effect_of_run hrun with
    | reportMetrics _ _ hnew hfresh _ => exact Follows.report hwell (hok rfl).1 hnew hfresh
    | _ => exact Follows.refl _
  · rw [hsame]
    exact Follows.refl _

/-- The streams of a node follow the ones it had. -/
theorem follows_serves {hist : List (Served NodePowerManager ManagerCall)}
    (hkeyed : Keyed manager.nodes)
    (h : Serves (NodePowerManager.Serve policy num) (Identified nodeId) manager hist manager')
    (hlookup : manager.nodes.lookup nodeId = some node)
    (hwell : WellStreamed node.metricsStreams) :
    ∃ node', manager'.nodes.lookup nodeId = some node' ∧ WellStreamed node'.metricsStreams ∧
      Follows node.metricsStreams node'.metricsStreams := by
  obtain ⟨node', hlookup', hrelated⟩ := Serves.node_related
    (R := fun a b => WellStreamed a.metricsStreams →
      WellStreamed b.metricsStreams ∧ Follows a.metricsStreams b.metricsStreams)
    (fun node hwell => ⟨hwell, Follows.refl _⟩)
    (fun a b c hab hbc hwell =>
      ⟨(hbc (hab hwell).1).1, (hab hwell).2.trans (hbc (hab hwell).1).2⟩)
    (fun s call node node' _ hok hstep hwell =>
      ⟨hstep.wellStreamed hwell, hstep.follows hok hwell⟩)
    hkeyed h hlookup
  exact ⟨node', hlookup', hrelated hwell⟩

/-! ## The law of reports -/

structure ReportKey where
  accessPath : AccessPath
  reporterEpoch : UInt64
  reportSequence : UInt64

/-- What identifies a report. -/
def NodeAccessMetrics.reportKey (metrics : NodeAccessMetrics) : ReportKey :=
  ⟨metrics.accessPath, metrics.reporterEpoch, metrics.reportSequence⟩

structure MetricsCounters where
  accessOperationCount : UInt64
  accumulatedWriteBytes : UInt64
  metricsStreams : List NodeMetricsStreamState
  deriving DecidableEq

/-- The counters of a node, with those of its streams. -/
def metricsCounters (nodeId : Bytes) (manager : NodePowerManager) : Option MetricsCounters :=
  (manager.nodes.lookup nodeId).map fun node =>
    ⟨node.accessOperationCount, node.accumulatedWriteBytes, node.metricsStreams⟩

/-- Reports about the node, told apart by `Identified`, are counted at most once. -/
structure ReportsCountedOnce (policy : PowerPolicy) (num : Numerics) (nodeId : Bytes) : Prop where
  /-- of two deliveries of a report, one changes no counter -/
  once : ∀ hist s metrics t hist' s' metrics' t',
    Reaches policy num (Identified nodeId) hist s →
    Identified nodeId s (.node nodeId (.reportMetrics metrics)) →
    s.Serve policy num (.node nodeId (.reportMetrics metrics)) t →
    Serves (NodePowerManager.Serve policy num) (Identified nodeId) t hist' s' →
    s'.Serve policy num (.node nodeId (.reportMetrics metrics')) t' →
    metrics'.reportKey = metrics.reportKey →
    metricsCounters nodeId t = metricsCounters nodeId s ∨
      metricsCounters nodeId t' = metricsCounters nodeId s'
  /-- at most one stream of a path is not retired -/
  active : ∀ hist s node path, Reaches policy num (Identified nodeId) hist s →
    s.nodes.lookup nodeId = some node →
    (node.metricsStreams.filter fun stream => stream.accessPath = path && !stream.retired).length ≤ 1
  /-- the reports of a stream that was retired before change no counter -/
  retired : ∀ hist s node stream hist' s' metrics t,
    Reaches policy num (Identified nodeId) hist s → s.nodes.lookup nodeId = some node →
    stream ∈ node.metricsStreams → stream.retired = true →
    Serves (NodePowerManager.Serve policy num) (Identified nodeId) s hist' s' →
    Identified nodeId s' (.node nodeId (.reportMetrics metrics)) →
    metrics.streamKey = streamKey stream →
    s'.Serve policy num (.node nodeId (.reportMetrics metrics)) t →
    metricsCounters nodeId t = metricsCounters nodeId s'

/-- A delivery is refused or has its effect. -/
theorem delivered (h : manager.Serve policy num (.node nodeId (.reportMetrics metrics)) manager') :
    manager' = manager ∨ ∃ node node' canOff changed, manager.nodes.lookup nodeId = some node ∧
      manager'.nodes.lookup nodeId = some node' ∧
      (NodeCall.reportMetrics metrics).Effect num canOff nodeId node node' changed := by
  obtain ⟨-, hok | ⟨-, rfl⟩⟩ := h
  · obtain ⟨node, node', changed, hlookup, -, hrun, rfl⟩ := callNode_ok hok
    exact .inr ⟨node, node', _, changed, hlookup, AList.lookup_insert _,
      NodeCall.effect_of_run hrun⟩
  · exact .inl rfl

/-- The delivery of a report that its stream has passed changes no counter. -/
theorem counters_of_passed
    (h : manager.Serve policy num (.node nodeId (.reportMetrics metrics)) manager')
    (hlookup : manager.nodes.lookup nodeId = some node)
    (hwell : WellStreamed node.metricsStreams) (hmem : stream ∈ node.metricsStreams)
    (hkey : streamKey stream = metrics.streamKey) (hsequence : metrics.reportSequence ≠ 0)
    (hpassed : metrics.reportSequence ≤ stream.reportSequence ∨ stream.retired = true) :
    metricsCounters nodeId manager' = metricsCounters nodeId manager := by
  rcases delivered h with rfl | ⟨found, node', canOff, changed, hfound, hlookup', heffect⟩
  · rfl
  · cases hlookup.symm.trans hfound
    cases unchanged_of_passed heffect hwell hmem hkey hsequence hpassed
    rw [metricsCounters, metricsCounters, hlookup, hlookup']

theorem length_le_one {α : Type} {values : List α} (hnodup : values.Nodup)
    (heq : ∀ a ∈ values, ∀ b ∈ values, a = b) : values.length ≤ 1 := by
  match values, hnodup with
  | [], _ => exact Nat.zero_le 1
  | [_], _ => exact Nat.le_refl 1
  | a :: b :: _, hnodup =>
      have hsame := heq a List.mem_cons_self b (List.mem_cons_of_mem _ List.mem_cons_self)
      exact absurd (hsame ▸ List.mem_cons_self) (List.nodup_cons.mp hnodup).1

/-- Every report is counted at most once. -/
theorem metrics_counted_once (policy : PowerPolicy) (num : Numerics) (nodeId : Bytes) :
    ReportsCountedOnce policy num nodeId where
  once := by
    intro hist s metrics t hist' s' metrics' t' hreaches hok hserve hserves hserve' hkey
    rcases delivered hserve with rfl | ⟨node, node', canOff, changed, hlookup, hlookup', heffect⟩
    · exact .inl rfl
    have hreaches' : Reaches policy num (Identified nodeId) _ t := .snoc hreaches hok hserve
    have hsequence : metrics'.reportSequence = metrics.reportSequence :=
      congrArg ReportKey.reportSequence hkey
    have hstream : metrics'.streamKey = metrics.streamKey :=
      congrArg (fun key => (⟨key.accessPath, key.reporterEpoch⟩ : StreamKey)) hkey
    obtain ⟨last, hlast, hwell, hfollows⟩ := follows_serves hreaches'.keyed hserves hlookup'
      (hreaches'.wellStreamed hlookup')
    cases heffect with
    | repeatedMetrics => exact .inl (by rw [metricsCounters, metricsCounters, hlookup, hlookup'])
    | reportMetrics =>
        -- the stream of the report has its sequence number from now on
        obtain ⟨later, hlater, hlaterKey, hle, -⟩ := hfollows (nextStream num metrics node)
          (mem_putStream_self ..)
        refine .inr (counters_of_passed hserve' hlast hwell hlater
          (hlaterKey.trans hstream.symm) (hsequence ▸ (hok rfl).1) (.inl ?_))
        rw [hsequence]
        exact hle
  active := by
    intro hist s node path hreaches hlookup
    have hwell := hreaches.wellStreamed hlookup
    apply length_le_one (hwell.nodup.of_map.filter _)
    intro a ha b hb
    simp only [List.mem_filter, Bool.and_eq_true, decide_eq_true_eq, Bool.not_eq_true'] at ha hb
    obtain ⟨ha, hpath, hactive⟩ := ha
    obtain ⟨hb, hpath', hactive'⟩ := hb
    have hepoch := hwell.active a ha b hb (hpath.trans hpath'.symm) hactive hactive'
    apply hwell.eq_of_key ha hb
    rw [streamKey, streamKey, hpath, hpath', hepoch]
  retired := by
    intro hist s node stream hist' s' metrics t hreaches hlookup hmem hretired hserves hok hkey
      hserve
    obtain ⟨last, hlast, hwell, hfollows⟩ := follows_serves hreaches.keyed hserves hlookup
      (hreaches.wellStreamed hlookup)
    obtain ⟨later, hlater, hlaterKey, -, hstays⟩ := hfollows stream hmem
    exact counters_of_passed hserve hlast hwell hlater (hlaterKey.trans hkey.symm) (hok rfl).1
      (.inr (hstays hretired))

/-- The first report of a reporter: three reads. -/
def threeReads : NodeAccessMetrics where
  reporterEpoch := 7
  reportSequence := 1
  windowEndMs := 10
  readOperations := 3

def servingCalls : List ManagerCall :=
  [.registerNode simulatedDisk 0 0, .node simulatedDisk.nodeId (.activateNode 1)]

def servingManager : NodePowerManager :=
  NodePowerManager.afterAll {} plainNumerics {} servingCalls

/-- The policy that `servingManager` and its later reports run under. -/
def plainPolicy : PowerPolicy := {}

/-- The manager after the report has been delivered. -/
def readManager : NodePowerManager :=
  servingManager.after {} plainNumerics (.node simulatedDisk.nodeId (.reportMetrics threeReads))

theorem metrics_counted_once_retry :
    metricsCounters simulatedDisk.nodeId readManager ≠
        metricsCounters simulatedDisk.nodeId servingManager ∧
      metricsCounters simulatedDisk.nodeId (readManager.after {} plainNumerics
          (.node simulatedDisk.nodeId (.reportMetrics threeReads))) =
        metricsCounters simulatedDisk.nodeId readManager := by
  have hreaches : Reaches {} plainNumerics (Identified simulatedDisk.nodeId)
      (NodePowerManager.historyOf {} plainNumerics {} servingCalls) servingManager :=
    NodePowerManager.serves_afterAll servingCalls ⟨trivial, trivial, trivial, trivial, trivial⟩
  have hcounted : metricsCounters simulatedDisk.nodeId readManager ≠
      metricsCounters simulatedDisk.nodeId servingManager := by decide +kernel
  have hidentified : Identified simulatedDisk.nodeId servingManager
      (.node simulatedDisk.nodeId (.reportMetrics threeReads)) :=
    fun _ => ⟨by decide, by decide⟩
  refine ⟨hcounted, ?_⟩
  exact ((metrics_counted_once {} plainNumerics simulatedDisk.nodeId).once _ _ threeReads _ [] _
    threeReads _ hreaches hidentified (NodePowerManager.serve_after trivial) .nil
    (NodePowerManager.serve_after trivial) rfl).resolve_left hcounted

end Zb.Scheduler
