-- SUMMARY: Histories of the power manager, and the rules for what holds of every node in each of them.
import ZBStorage.Lib.CallHistory
import ZBStorage.Lib.Checks
import ZBStorage.Scheduler.NodeEffects

/-!
# Histories of the manager

Whatever the manager serves, a node of the table makes one of a few steps
(`NodeStep`), and a node enters the table by its registration alone.
-/

namespace Zb.Scheduler

open Zb.StorageModel Bytes TableLoop CallHistory Checks

/-! ## The steps of a node -/

/-- What serving a call may do to the record of the node `nodeId`. -/
inductive NodeStep (policy : PowerPolicy) (num : Numerics) (manager : NodePowerManager)
    (nodeId : Bytes) (node : NodeRecord) : ManagerCall → NodeRecord → Prop
  /-- the call concerns other nodes, or was refused -/
  | same {call : ManagerCall} :
      (∀ nodeCall, call = .node nodeId nodeCall →
        ∃ error, manager.callNode policy num nodeId nodeCall = .error error) →
      NodeStep policy num manager nodeId node call node
  | called {call : NodeCall} {node' : NodeRecord} {changed : Bool} :
      call.validate = .ok () →
      call.run policy num (canPowerOff policy manager.nodes node) nodeId node =
        .ok (node', changed) →
      NodeStep policy num manager nodeId node (.node nodeId call) node'
  | linked {replacement predecessor predecessorNodeId : Bytes} {replacementCount : UInt64} :
      NodeStep policy num manager nodeId node (.linkReplacement replacement predecessor)
        { node with predecessorNodeId := predecessorNodeId, replacementCount := replacementCount }
  | evaluated {order : List Bytes} {nowMs suspectTimeoutMs deadTimeoutMs : UInt64} :
      NodeStep policy num manager nodeId node
        (.evaluateHeartbeatHealth order nowMs suspectTimeoutMs deadTimeoutMs)
        (evaluateNode policy nowMs suspectTimeoutMs deadTimeoutMs node).1
  | ticked {order : List Bytes} {filter : ExecutionFilter} {nowMs : UInt64} {nodes : NodeTable} :
      filter.skips node = false →
      NodeStep policy num manager nodeId node (.tick order filter nowMs)
        (tickNode policy num (canPowerOff policy nodes node) nowMs node).1
  | restored : NodeStep policy num manager nodeId node .restart (restoredNode node)

/-- Every record is filed under the id of its profile. -/
def Keyed (nodes : NodeTable) : Prop :=
  ∀ nodeId node, nodes.lookup nodeId = some node → node.profile.nodeId = nodeId

section Steps

variable {policy : PowerPolicy} {num : Numerics} {manager manager' : NodePowerManager}
  {nodeId : Bytes} {node node' : NodeRecord} {call : ManagerCall}

theorem callNode_ok {id : Bytes} {nodeCall : NodeCall}
    (h : manager.callNode policy num id nodeCall = .ok manager') :
    ∃ node node' changed, manager.nodes.lookup id = some node ∧ nodeCall.validate = .ok () ∧
      nodeCall.run policy num (canPowerOff policy manager.nodes node) id node =
        .ok (node', changed) ∧
      manager' = manager.bumped (manager.nodes.insert id node') changed := by
  unfold NodePowerManager.callNode at h
  cases hvalid : nodeCall.validate with
  | error error =>
      simp only [hvalid, bind, Except.bind] at h
      cases h
  | ok _ =>
      cases hlookup : manager.nodes.lookup id with
      | none =>
          simp only [hvalid, hlookup, bind, Except.bind] at h
          cases h
      | some node =>
          simp only [hvalid, hlookup, bind, Except.bind, pure, Except.pure] at h
          cases hrun : nodeCall.run policy num (canPowerOff policy manager.nodes node) id node with
          | error error =>
              rw [hrun] at h
              cases h
          | ok result =>
              rw [hrun] at h
              cases h
              exact ⟨node, result.1, result.2, rfl, rfl, hrun, rfl⟩

theorem callNode_eq_ok {id : Bytes} {nodeCall : NodeCall} {changed : Bool}
    (hlookup : manager.nodes.lookup id = some node) (hvalid : nodeCall.validate = .ok ())
    (hrun : nodeCall.run policy num (canPowerOff policy manager.nodes node) id node =
      .ok (node', changed)) :
    manager.callNode policy num id nodeCall =
      .ok (manager.bumped (manager.nodes.insert id node') changed) := by
  simp only [NodePowerManager.callNode, hvalid, hlookup, hrun, bind, Except.bind, pure, Except.pure]

theorem registerNode_ok {profile : NodeHardwareProfile} {joinTimeMs lifetimeSeed : UInt64}
    (h : manager.registerNode num profile joinTimeMs lifetimeSeed = .ok manager') :
    validateNodeHardwareProfile profile = .ok () ∧ manager.nodes.lookup profile.nodeId = none ∧
      manager' = manager.bumped (manager.nodes.insert profile.nodeId
        (registeredNode num profile joinTimeMs lifetimeSeed)) true := by
  unfold NodePowerManager.registerNode at h
  cases hvalid : validateNodeHardwareProfile profile with
  | error error =>
      simp only [hvalid, bind, Except.bind] at h
      cases h
  | ok _ =>
      cases hlookup : manager.nodes.lookup profile.nodeId with
      | some existing =>
          simp only [hvalid, hlookup, bind, Except.bind] at h
          cases h
      | none =>
          simp only [hvalid, hlookup, bind, Except.bind] at h
          cases h
          exact ⟨rfl, rfl, rfl⟩

theorem linkReplacement_ok {id predecessorId : Bytes}
    (h : manager.linkReplacement id predecessorId = .ok manager') :
    ∃ replacement predecessor, manager.nodes.lookup id = some replacement ∧
      (manager.nodes.insert id
          { replacement with predecessorNodeId := predecessorId }).lookup predecessorId =
        some predecessor ∧
      manager' = manager.bumped ((manager.nodes.insert id
          { replacement with predecessorNodeId := predecessorId }).insert predecessorId
        { predecessor with replacementCount := predecessor.replacementCount + 1 }) true := by
  unfold NodePowerManager.linkReplacement at h
  split at h
  · rename_i hpredecessor hreplacement
    dsimp only at h
    split at h
    · rename_i predecessor hlookup
      cases h
      exact ⟨_, predecessor, hreplacement, hlookup, rfl⟩
    · cases h
  · cases h

/-- Linking changes nothing but the links. -/
theorem lookup_linkReplacement {id predecessorId : Bytes}
    (h : manager.linkReplacement id predecessorId = .ok manager')
    (hlookup : manager.nodes.lookup nodeId = some node) :
    ∃ predecessorNodeId replacementCount, manager'.nodes.lookup nodeId = some
      { node with predecessorNodeId := predecessorNodeId, replacementCount := replacementCount } := by
  obtain ⟨replacement, predecessor, hreplacement, hpredecessor, rfl⟩ := linkReplacement_ok h
  rw [NodePowerManager.bumped]
  by_cases hid : nodeId = id
  · subst hid
    cases hlookup.symm.trans hreplacement
    by_cases hsame : nodeId = predecessorId
    · subst hsame
      rw [AList.lookup_insert] at hpredecessor
      cases hpredecessor
      exact ⟨nodeId, node.replacementCount + 1, AList.lookup_insert _⟩
    · refine ⟨predecessorId, node.replacementCount, ?_⟩
      rw [AList.lookup_insert_ne hsame, AList.lookup_insert]
  · by_cases hsame : nodeId = predecessorId
    · subst hsame
      rw [AList.lookup_insert_ne hid, hlookup] at hpredecessor
      cases hpredecessor
      exact ⟨node.predecessorNodeId, node.replacementCount + 1, AList.lookup_insert _⟩
    · refine ⟨node.predecessorNodeId, node.replacementCount, ?_⟩
      rw [AList.lookup_insert_ne hsame, AList.lookup_insert_ne hid, hlookup]

theorem restoreNodes_cons_ok {restored restored' : NodeTable} {nodes : List NodeRecord}
    (h : restoreNodes restored (node :: nodes) = .ok restored') :
    node.profile.nodeId ∉ restored ∧
      restoreNodes (restored.insert node.profile.nodeId (restoredNode node)) nodes =
        .ok restored' := by
  rw [restoreNodes] at h
  obtain ⟨_, -, h⟩ := bind_ok h
  obtain ⟨-, h⟩ := ite_bind_ok h
  obtain ⟨-, h⟩ := ite_bind_ok h
  obtain ⟨hduplicate, h⟩ := ite_bind_ok h
  refine ⟨fun hmem => ?_, h⟩
  cases hduplicate hmem

theorem restoreNodes_ok {restored restored' : NodeTable} {nodes : List NodeRecord}
    (h : restoreNodes restored nodes = .ok restored') :
    restored'.lookup nodeId = some node' ↔ restored.lookup nodeId = some node' ∨
      ∃ node ∈ nodes, node.profile.nodeId = nodeId ∧ node' = restoredNode node := by
  induction nodes generalizing restored with
  | nil =>
      cases h
      simp
  | cons first nodes ih =>
      obtain ⟨hnew, h⟩ := restoreNodes_cons_ok h
      have hnone : restored.lookup first.profile.nodeId = none := AList.lookup_eq_none.mpr hnew
      rw [ih h, List.exists_mem_cons_iff]
      by_cases hid : first.profile.nodeId = nodeId
      · subst hid
        rw [AList.lookup_insert, hnone]
        simp [eq_comm]
      · rw [AList.lookup_insert_ne (Ne.symm hid)]
        simp [hid]

theorem mem_snapshot_nodes :
    node ∈ manager.snapshot.nodes ↔ ∃ id, manager.nodes.lookup id = some node := by
  simp only [NodePowerManager.snapshot, List.mem_mergeSort, List.mem_map]
  constructor
  · rintro ⟨entry, hmem, rfl⟩
    exact ⟨entry.1, AList.mem_lookup_iff.mpr hmem⟩
  · rintro ⟨id, hlookup⟩
    exact ⟨⟨id, node⟩, AList.mem_lookup_iff.mp hlookup, rfl⟩

/-- A restart files each record again, with what an old snapshot left out filled in. -/
theorem restart_ok (hkeyed : Keyed manager.nodes)
    (h : NodePowerManager.restore manager.snapshot = .ok manager') :
    manager'.generation = max 1 manager.generation ∧
      ∀ nodeId node', manager'.nodes.lookup nodeId = some node' ↔
        ∃ node, manager.nodes.lookup nodeId = some node ∧ node' = restoredNode node := by
  unfold NodePowerManager.restore at h
  split at h
  · cases h
  · obtain ⟨nodes, hnodes, h⟩ := bind_ok h
    cases h
    refine ⟨rfl, fun nodeId node' => ?_⟩
    rw [restoreNodes_ok hnodes]
    constructor
    · rintro (hlookup | ⟨node, hmem, hid, heq⟩)
      · cases hlookup
      · obtain ⟨id, hlookup⟩ := mem_snapshot_nodes.mp hmem
        rw [← hid, hkeyed id node hlookup]
        exact ⟨node, hlookup, heq⟩
    · rintro ⟨node, hlookup, heq⟩
      exact .inr ⟨node, mem_snapshot_nodes.mpr ⟨nodeId, hlookup⟩, hkeyed nodeId node hlookup, heq⟩

/-- A node of the table makes a step, and stays in the table. -/
theorem exists_nodeStep (hkeyed : Keyed manager.nodes) (h : manager.Serve policy num call manager')
    (hlookup : manager.nodes.lookup nodeId = some node) :
    ∃ node', manager'.nodes.lookup nodeId = some node' ∧
      NodeStep policy num manager nodeId node call node' := by
  obtain ⟨hvisits, hok | ⟨hrefused, rfl⟩⟩ := h
  swap
  · refine ⟨node, hlookup, .same ?_⟩
    rintro nodeCall rfl
    exact hrefused
  cases call with
  | registerNode profile joinTimeMs lifetimeSeed =>
      obtain ⟨-, hnone, rfl⟩ := registerNode_ok hok
      have hne : nodeId ≠ profile.nodeId := by
        rintro rfl
        rw [hnone] at hlookup
        cases hlookup
      refine ⟨node, ?_, .same fun _ heq => nomatch heq⟩
      rw [NodePowerManager.bumped, AList.lookup_insert_ne hne, hlookup]
  | linkReplacement id predecessorId =>
      obtain ⟨_, _, hlinked⟩ := lookup_linkReplacement hok hlookup
      exact ⟨_, hlinked, .linked⟩
  | node id nodeCall =>
      obtain ⟨found, node', changed, hfound, hvalid, hrun, rfl⟩ := callNode_ok hok
      by_cases hid : nodeId = id
      · subst hid
        cases hlookup.symm.trans hfound
        exact ⟨node', AList.lookup_insert _, .called hvalid hrun⟩
      · refine ⟨node, ?_, .same ?_⟩
        · rw [NodePowerManager.bumped, AList.lookup_insert_ne hid, hlookup]
        · rintro other heq
          cases heq
          exact absurd rfl hid
  | evaluateHeartbeatHealth order nowMs suspectTimeoutMs deadTimeoutMs =>
      cases hok
      obtain ⟨order₁, order₂, rfl⟩ := Enumerates.split hvisits hlookup
      exact ⟨_, lookup_forEach hvisits.nodup hlookup, .evaluated⟩
  | tick order filter nowMs =>
      cases hok
      obtain ⟨order₁, order₂, rfl⟩ := Enumerates.split hvisits hlookup
      refine ⟨_, lookup_forEach hvisits.nodup hlookup, ?_⟩
      cases hskips : filter.skips node with
      | true =>
          rw [NodePowerManager.tickTurn, if_pos hskips]
          exact .same fun _ heq => nomatch heq
      | false =>
          rw [NodePowerManager.tickTurn, hskips]
          exact .ticked hskips
  | restart =>
      exact ⟨restoredNode node, ((restart_ok hkeyed hok).2 _ _).mpr ⟨node, hlookup, rfl⟩, .restored⟩

/-- A node that enters the table was registered. -/
theorem registered_of_new (hkeyed : Keyed manager.nodes)
    (h : manager.Serve policy num call manager') (hnone : manager.nodes.lookup nodeId = none)
    (hsome : manager'.nodes.lookup nodeId = some node') :
    ∃ profile joinTimeMs lifetimeSeed, call = .registerNode profile joinTimeMs lifetimeSeed ∧
      validateNodeHardwareProfile profile = .ok () ∧ profile.nodeId = nodeId ∧
      node' = registeredNode num profile joinTimeMs lifetimeSeed := by
  have hin : nodeId ∈ manager'.nodes := mem_of_lookup hsome
  have hout : nodeId ∉ manager.nodes := AList.lookup_eq_none.mp hnone
  obtain ⟨-, hok | ⟨-, rfl⟩⟩ := h
  swap
  · exact absurd hin hout
  cases call with
  | registerNode profile joinTimeMs lifetimeSeed =>
      obtain ⟨hvalid, -, rfl⟩ := registerNode_ok hok
      by_cases hid : nodeId = profile.nodeId
      · subst hid
        cases (AList.lookup_insert _).symm.trans hsome
        exact ⟨profile, joinTimeMs, lifetimeSeed, rfl, hvalid, rfl, rfl⟩
      · rw [NodePowerManager.bumped, AList.lookup_insert_ne hid, hnone] at hsome
        cases hsome
  | linkReplacement id predecessorId =>
      obtain ⟨replacement, predecessor, hreplacement, hpredecessor, rfl⟩ := linkReplacement_ok hok
      have hpred := mem_of_lookup hpredecessor
      simp only [NodePowerManager.bumped, AList.mem_insert] at hin hpred
      rcases hin with rfl | rfl | hin
      · rcases hpred with rfl | hpred
        · exact absurd (mem_of_lookup hreplacement) hout
        · exact absurd hpred hout
      · exact absurd (mem_of_lookup hreplacement) hout
      · exact absurd hin hout
  | node id nodeCall =>
      obtain ⟨found, node', changed, hfound, -, -, rfl⟩ := callNode_ok hok
      rcases (AList.mem_insert _).mp hin with rfl | hin
      · exact absurd (mem_of_lookup hfound) hout
      · exact absurd hin hout
  | evaluateHeartbeatHealth order nowMs suspectTimeoutMs deadTimeoutMs =>
      cases hok
      exact absurd (mem_forEach.mp hin) hout
  | tick order filter nowMs =>
      cases hok
      exact absurd (mem_forEach.mp hin) hout
  | restart =>
      obtain ⟨node, hlookup, -⟩ := ((restart_ok hkeyed hok).2 _ _).mp hsome
      rw [hnone] at hlookup
      cases hlookup

theorem NodeCall.Effect.profile {canOff changed : Bool} {nodeCall : NodeCall}
    (h : nodeCall.Effect num canOff nodeId node node' changed) : node'.profile = node.profile := by
  cases h <;> rfl

theorem Evaluated.profile {nowMs deadTimeoutMs : UInt64} {changed : Bool}
    (h : Evaluated nowMs deadTimeoutMs node node' changed) : node'.profile = node.profile := by
  cases h <;> rfl

theorem Ticked.profile {canOff : Bool} {nowMs : UInt64} (h : Ticked canOff nowMs node node') :
    node'.profile = node.profile := by
  cases h
  rfl

/-- The profile of a node never changes. -/
theorem NodeStep.profile (h : NodeStep policy num manager nodeId node call node') :
    node'.profile = node.profile := by
  cases h with
  | same => rfl
  | called _ hrun => exact (NodeCall.effect_of_run hrun).profile
  | linked => rfl
  | evaluated => exact (evaluateNode_evaluated rfl).profile
  | ticked => exact (tickNode_ticked ..).profile
  | restored => rfl

theorem Keyed.serve (hkeyed : Keyed manager.nodes) (h : manager.Serve policy num call manager') :
    Keyed manager'.nodes := by
  intro nodeId node' hlookup'
  cases hlookup : manager.nodes.lookup nodeId with
  | none =>
      obtain ⟨profile, joinTimeMs, lifetimeSeed, -, -, hid, rfl⟩ :=
        registered_of_new hkeyed h hlookup hlookup'
      exact hid
  | some node =>
      obtain ⟨node'', hlookup'', hstep⟩ := exists_nodeStep hkeyed h hlookup
      cases hlookup'.symm.trans hlookup''
      rw [hstep.profile]
      exact hkeyed nodeId node hlookup

end Steps

/-! ## Rules for histories -/

section Rules

variable {policy : PowerPolicy} {num : Numerics} {ok : NodePowerManager → ManagerCall → Prop}
  {manager manager' : NodePowerManager} {hist : List (Served NodePowerManager ManagerCall)}

/-- The manager can serve the calls of `hist` one after another, starting empty, if
    each of them is `ok` in its state. -/
abbrev Reaches (policy : PowerPolicy) (num : Numerics)
    (ok : NodePowerManager → ManagerCall → Prop)
    (hist : List (Served NodePowerManager ManagerCall)) (manager : NodePowerManager) : Prop :=
  Serves (NodePowerManager.Serve policy num) ok {} hist manager

theorem keyed_serves (h : Serves (NodePowerManager.Serve policy num) ok manager hist manager')
    (hkeyed : Keyed manager.nodes) : Keyed manager'.nodes :=
  h.invariant (I := fun m => Keyed m.nodes) (fun _ _ _ hkeyed _ hserve => hkeyed.serve hserve)
    hkeyed

theorem Reaches.keyed (h : Reaches policy num ok hist manager) : Keyed manager.nodes :=
  keyed_serves h fun _ _ hlookup => nomatch hlookup

/-- What registration establishes and every step preserves holds of all nodes. -/
theorem Reaches.nodes {P : NodeRecord → Prop}
    (hregister : ∀ s profile joinTimeMs lifetimeSeed,
      ok s (.registerNode profile joinTimeMs lifetimeSeed) →
      validateNodeHardwareProfile profile = .ok () →
      P (registeredNode num profile joinTimeMs lifetimeSeed))
    (hstep : ∀ s call nodeId node node', s.nodes.lookup nodeId = some node → ok s call → P node →
      NodeStep policy num s nodeId node call node' → P node')
    (h : Reaches policy num ok hist manager) {nodeId : Bytes} {node : NodeRecord}
    (hlookup : manager.nodes.lookup nodeId = some node) : P node := by
  have hall : Keyed manager.nodes ∧
      ∀ nodeId node, manager.nodes.lookup nodeId = some node → P node := by
    refine Serves.invariant (I := fun m => Keyed m.nodes ∧
      ∀ nodeId node, m.nodes.lookup nodeId = some node → P node) ?_ ?_ h
    · rintro s call t ⟨hkeyed, hall⟩ hok hserve
      refine ⟨hkeyed.serve hserve, fun nodeId node' hlookup' => ?_⟩
      cases hlookup : s.nodes.lookup nodeId with
      | none =>
          obtain ⟨profile, joinTimeMs, lifetimeSeed, rfl, hvalid, -, rfl⟩ :=
            registered_of_new hkeyed hserve hlookup hlookup'
          exact hregister s profile joinTimeMs lifetimeSeed hok hvalid
      | some node =>
          obtain ⟨node'', hlookup'', hmoves⟩ := exists_nodeStep hkeyed hserve hlookup
          cases hlookup'.symm.trans hlookup''
          exact hstep s call nodeId node node' hlookup hok (hall nodeId node hlookup) hmoves
    · exact ⟨(fun _ _ hlookup => nomatch hlookup), (fun _ _ hlookup => nomatch hlookup)⟩
  exact hall.2 nodeId node hlookup

/-- A node of the table stays in it, and what every step makes of a node relates the
    records at the ends of a history. -/
theorem Serves.node_related {R : NodeRecord → NodeRecord → Prop} {nodeId : Bytes}
    (hrefl : ∀ node, R node node) (htrans : ∀ a b c, R a b → R b c → R a c)
    (hstep : ∀ s call node node', s.nodes.lookup nodeId = some node → ok s call →
      NodeStep policy num s nodeId node call node' → R node node')
    (hkeyed : Keyed manager.nodes)
    (h : Serves (NodePowerManager.Serve policy num) ok manager hist manager')
    {node : NodeRecord} (hlookup : manager.nodes.lookup nodeId = some node) :
    ∃ node', manager'.nodes.lookup nodeId = some node' ∧ R node node' := by
  refine h.related (I := fun m => Keyed m.nodes)
    (R := fun s t => ∀ node, s.nodes.lookup nodeId = some node →
      ∃ node', t.nodes.lookup nodeId = some node' ∧ R node node') ?_ ?_ ?_ hkeyed node hlookup
  · intro s _ node hlookup
    exact ⟨node, hlookup, hrefl node⟩
  · intro s t u hst htu node hlookup
    obtain ⟨node', hlookup', hR⟩ := hst node hlookup
    obtain ⟨node'', hlookup'', hR'⟩ := htu node' hlookup'
    exact ⟨node'', hlookup'', htrans node node' node'' hR hR'⟩
  · intro s call t hkeyed hok hserve
    refine ⟨hkeyed.serve hserve, fun node hlookup => ?_⟩
    obtain ⟨node', hlookup', hmoves⟩ := exists_nodeStep hkeyed hserve hlookup
    exact ⟨node', hlookup', hstep s call node node' hlookup hok hmoves⟩

end Rules

/-! ## Running calls -/

namespace NodePowerManager

/-- The manager after a call. -/
def after (policy : PowerPolicy) (num : Numerics) (manager : NodePowerManager)
    (call : ManagerCall) : NodePowerManager :=
  match manager.answer policy num call with
  | .ok manager' => manager'
  | .error _ => manager

theorem serve_after {policy : PowerPolicy} {num : Numerics} {manager : NodePowerManager}
    {call : ManagerCall} (hvisits : manager.Visits call) :
    manager.Serve policy num call (manager.after policy num call) := by
  refine ⟨hvisits, ?_⟩
  unfold after
  cases hanswer : manager.answer policy num call with
  | ok manager' => exact .inl rfl
  | error error => exact .inr ⟨⟨error, rfl⟩, rfl⟩

/-- The manager after some calls. -/
def afterAll (policy : PowerPolicy) (num : Numerics) : NodePowerManager → List ManagerCall →
    NodePowerManager
  | manager, [] => manager
  | manager, call :: calls => afterAll policy num (manager.after policy num call) calls

/-- The history of some calls. -/
def historyOf (policy : PowerPolicy) (num : Numerics) : NodePowerManager → List ManagerCall →
    List (Served NodePowerManager ManagerCall)
  | _, [] => []
  | manager, call :: calls =>
      ⟨manager, call, manager.after policy num call⟩ ::
        historyOf policy num (manager.after policy num call) calls

/-- Every call visits the table it finds and is `ok` there. -/
def AllServed (policy : PowerPolicy) (num : Numerics) (ok : NodePowerManager → ManagerCall → Prop) :
    NodePowerManager → List ManagerCall → Prop
  | _, [] => True
  | manager, call :: calls => manager.Visits call ∧ ok manager call ∧
      AllServed policy num ok (manager.after policy num call) calls

/-- What evaluation finds in the table is a field of the record in it. -/
theorem field_eq {α : Type} {f : NodeRecord → α} {a : α} {node : NodeRecord}
    {manager : NodePowerManager} {nodeId : Bytes}
    (hfield : (manager.nodes.lookup nodeId).map f = some a)
    (hlookup : manager.nodes.lookup nodeId = some node) : f node = a := by
  rw [hlookup] at hfield
  exact Option.some.inj hfield

theorem serves_afterAll {policy : PowerPolicy} {num : Numerics}
    {ok : NodePowerManager → ManagerCall → Prop} {manager : NodePowerManager}
    (calls : List ManagerCall) (h : AllServed policy num ok manager calls) :
    Serves (Serve policy num) ok manager (historyOf policy num manager calls)
      (manager.afterAll policy num calls) := by
  induction calls generalizing manager with
  | nil => exact .nil
  | cons call calls ih =>
      obtain ⟨hvisits, hok, hrest⟩ := h
      have hfirst : Serves (Serve policy num) ok manager
          ([] ++ [⟨manager, call, manager.after policy num call⟩])
          (manager.after policy num call) := .snoc .nil hok (serve_after hvisits)
      exact hfirst.append (ih hrest)

end NodePowerManager

/-! ## A small cluster -/

/-- Numerics without randomness: every sample is its mean. -/
def plainNumerics : Numerics where
  normalSample mean _ _ := mean
  exponentialSample mean _ := mean
  windowUtilization _ _ _ _ _ _ := 0
  eventUtilization _ _ _ := 0
  max := max
  atLeast a b := a ≥ b

/-- A simulated storage node with one disk, which lives for a second. -/
def simulatedDisk : NodeHardwareProfile where
  nodeId := ofAscii "n"
  executionMode := .simulated
  externalNetworkBandwidthBytesPerSec := 1
  deviceGroups :=
    [{ name := ofAscii "hdd"
       deviceCapacityBytes := 10
       deviceCount := 1
       perDeviceBandwidthBytesPerSec := 1 }]
  power := { peakMilliwatts := 4, mediumMilliwatts := 2, standbyMilliwatts := 1 }
  reliability := { meanLifetimeMs := 1000 }

end Zb.Scheduler
