-- SUMMARY: Placement groups: candidates of a catalog, the view built from them, and the views kept by epoch.
import Mathlib.Data.Finset.Card
import Mathlib.Data.List.AList
import Mathlib.Data.List.Sort
import ZBStorage.Lib.Bytes

/-!
# Placement groups

`PGManager.cpp`. A placement view gives each placement group its replica set. It
is built from the allocatable nodes of a catalog by ranking them with a hash, one
member for each group of nodes, and replaces the current view under its epoch.
-/

namespace Zb.Mds

open Bytes

theorem toNat_max (a b : UInt32) : (max a b).toNat = max a.toNat b.toNat := by
  simp only [max, UInt32.le_iff_toNat_le]
  split <;> omega

inductive NodeType
  | real
  | virtual
  | optical
  deriving DecidableEq

structure DiskInfo where
  diskId : Bytes := []
  capacityBytes : UInt64 := 0
  freeBytes : UInt64 := 0
  isHealthy : Bool := true
  deriving DecidableEq

structure NodeInfo where
  nodeId : Bytes := []
  address : Bytes := []
  groupId : Bytes := []
  type : NodeType := .real
  virtualNodeCount : UInt32 := 1
  allocatable : Bool := true
  isPrimary : Bool := true
  syncReady : Bool := false
  epoch : UInt64 := 1
  secondaryNodeId : Bytes := []
  secondaryAddress : Bytes := []
  disks : List DiskInfo := []
  deriving DecidableEq

def isVirtualizedNodeType (type : NodeType) : Bool := type = .virtual || type = .optical

/-- The disk has room, or nothing is known about its room. -/
def DiskInfo.writable (disk : DiskInfo) : Bool :=
  disk.freeBytes > 0 || !(disk.capacityBytes > 0 || disk.freeBytes > 0)

/-- A disk that data can be put on. -/
def DiskInfo.usable (disk : DiskInfo) : Bool :=
  disk.isHealthy && disk.writable && disk.diskId ≠ []

structure CandidateNode where
  nodeId : Bytes := []
  nodeAddress : Bytes := []
  diskId : Bytes := []
  groupId : Bytes := []
  epoch : UInt64 := 1
  secondaryNodeId : Bytes := []
  secondaryAddress : Bytes := []
  syncReady : Bool := false
  nodeType : NodeType := .real
  deriving DecidableEq

structure PgReplicaMember where
  nodeId : Bytes := []
  nodeAddress : Bytes := []
  diskId : Bytes := []
  groupId : Bytes := []
  epoch : UInt64 := 1
  primaryNodeId : Bytes := []
  primaryAddress : Bytes := []
  secondaryNodeId : Bytes := []
  secondaryAddress : Bytes := []
  syncReady : Bool := false
  nodeType : NodeType := .real
  deriving DecidableEq

structure PgReplicaSet where
  pgId : UInt32 := 0
  viewEpoch : UInt64 := 0
  members : List PgReplicaMember := []
  deriving DecidableEq

structure PlacementView where
  epoch : UInt64 := 0
  pgCount : UInt32 := 0
  replica : UInt32 := 0
  pgToReplicas : List PgReplicaSet := []
  deriving DecidableEq

structure PGManager.Options where
  pgCount : UInt32 := 1024
  replica : UInt32 := 2
  historyLimit : Nat := 2

structure PGManager where
  options : PGManager.Options
  currentView : Option PlacementView := none
  history : AList (fun _ : UInt64 => PlacementView) := ∅

namespace PGManager

/-- The constructor: no option stays zero. -/
def create (options : Options) : PGManager where
  options :=
    { pgCount := if options.pgCount = 0 then 1 else options.pgCount
      replica := if options.replica = 0 then 1 else options.replica
      historyLimit := if options.historyLimit = 0 then 1 else options.historyLimit }

/-! ## Ranking -/

def mixU64 (value : UInt64) : UInt64 :=
  let value := value ^^^ (value >>> 33)
  let value := value * 0xff51afd7ed558ccd
  let value := value ^^^ (value >>> 33)
  let value := value * 0xc4ceb9fe1a85ec53
  value ^^^ (value >>> 33)

def hash64 (data : Bytes) : UInt64 :=
  mixU64 (data.foldl (fun hash ch => (hash ^^^ ch.toUInt64) * 1099511628211) 1469598103934665603)

def hash64Pair (pgId : UInt32) (nodeId : Bytes) (epoch : UInt64) : UInt64 :=
  hash64 (decimal pgId.toNat ++ ofAscii "/" ++ nodeId ++ ofAscii "/" ++ decimal epoch.toNat)

/-- `std::sort` of the scores. It is not stable, so candidates of one score may
    come out in any order. -/
structure ScoreSort where
  sort : List (UInt64 × CandidateNode) → List (UInt64 × CandidateNode)
  perm : ∀ scores, (sort scores).Perm scores
  descending : ∀ scores, (sort scores).Pairwise (fun lhs rhs => rhs.1 ≤ lhs.1)

def insertionOrder : ScoreSort where
  sort := List.insertionSort fun lhs rhs => rhs.1 ≤ lhs.1
  perm scores := List.perm_insertionSort _ scores
  descending scores := by
    have : Std.Total (fun lhs rhs : UInt64 × CandidateNode => rhs.1 ≤ lhs.1) :=
      ⟨fun lhs rhs => UInt64.le_total rhs.1 lhs.1⟩
    have : IsTrans _ (fun lhs rhs : UInt64 × CandidateNode => rhs.1 ≤ lhs.1) :=
      ⟨fun _ _ _ hab hbc => UInt64.le_trans hbc hab⟩
    exact List.pairwise_insertionSort _ scores

variable (order : ScoreSort)

/-! ## Candidates -/

def isNodeAllocatable (node : NodeInfo) : Bool :=
  node.allocatable && node.isPrimary && node.type ≠ .optical &&
  node.disks.any fun disk => disk.isHealthy && disk.writable

def buildVirtualNodeId (baseNodeId : Bytes) (virtualIndex : Nat) : Bytes :=
  baseNodeId ++ ofAscii "-v" ++ decimal virtualIndex

def healthyDisks (node : NodeInfo) : List Bytes :=
  (node.disks.filter fun disk => disk.usable).map fun disk => disk.diskId

/-- The node takes part in placement. -/
def isCandidate (node : NodeInfo) : Bool := isNodeAllocatable node && healthyDisks node ≠ []

def candidateAt (node : NodeInfo) (idx : Nat) : CandidateNode where
  nodeId := if isVirtualizedNodeType node.type then buildVirtualNodeId node.nodeId idx
    else node.nodeId
  nodeAddress := node.address
  groupId := if node.groupId = [] then node.nodeId else node.groupId
  diskId := ((healthyDisks node)[idx % (healthyDisks node).length]?).getD []
  epoch := node.epoch
  secondaryNodeId := node.secondaryNodeId
  secondaryAddress := node.secondaryAddress
  syncReady := node.syncReady
  nodeType := node.type

def candidatesOf (node : NodeInfo) : List CandidateNode :=
  if isCandidate node then
    let logicalNodes := if isVirtualizedNodeType node.type then max 1 node.virtualNodeCount else 1
    (List.range logicalNodes.toNat).map (candidateAt node)
  else []

def buildCandidates (nodes : List NodeInfo) : List CandidateNode := nodes.flatMap candidatesOf

/-! ## Placement views -/

def memberOf (node : CandidateNode) (epoch : UInt64) : PgReplicaMember where
  nodeId := node.nodeId
  nodeAddress := node.nodeAddress
  diskId := node.diskId
  groupId := node.groupId
  epoch := if node.epoch = 0 then epoch else node.epoch
  primaryNodeId := node.nodeId
  primaryAddress := node.nodeAddress
  secondaryNodeId := node.secondaryNodeId
  secondaryAddress := node.secondaryAddress
  syncReady := node.syncReady
  nodeType := node.nodeType

/-- The loop over the ranked candidates, with the groups seen and the members
    found so far. -/
def selectMembers (replica : Nat) (epoch : UInt64) :
    List (UInt64 × CandidateNode) → List Bytes → List PgReplicaMember → List PgReplicaMember
  | [], _, members => members
  | scored :: scores, seen, members =>
      if scored.2.groupId ∈ seen then selectMembers replica epoch scores seen members
      else
        let members := members ++ [memberOf scored.2 epoch]
        if replica ≤ members.length then members
        else selectMembers replica epoch scores (scored.2.groupId :: seen) members

def buildReplicaSet (candidates : List CandidateNode) (replica : UInt32) (epoch : UInt64)
    (pg : UInt32) : Except Bytes PgReplicaSet :=
  let scores := order.sort (candidates.map fun node => (hash64Pair pg node.nodeId epoch, node))
  let members := selectMembers replica.toNat epoch scores [] []
  if members.length < replica.toNat then
    .error (ofAscii "insufficient unique groups for pg_id=" ++ decimal pg.toNat ++
      ofAscii ", required=" ++ decimal replica.toNat ++
      ofAscii ", actual=" ++ decimal members.length)
  else .ok { pgId := pg, viewEpoch := epoch, members := members }

def buildReplicaSets (candidates : List CandidateNode) (replica : UInt32) (epoch : UInt64) :
    List Nat → Except Bytes (List PgReplicaSet)
  | [] => .ok []
  | pg :: pgs => do
      let set ← buildReplicaSet order candidates replica epoch (UInt32.ofNat pg)
      let sets ← buildReplicaSets candidates replica epoch pgs
      return set :: sets

def buildPlacementView (candidates : List CandidateNode) (pgCount replica : UInt32)
    (epoch : UInt64) : Except Bytes PlacementView :=
  if pgCount = 0 ∨ replica = 0 then .error (ofAscii "invalid pg_count or replica")
  else if candidates = [] then
    .error (ofAscii "no allocatable candidates available for placement view")
  else do
    let sets ← buildReplicaSets order candidates replica epoch (List.range pgCount.toNat)
    return { epoch := epoch, pgCount := pgCount, replica := replica, pgToReplicas := sets }

/-! ## Views by epoch -/

/-- The eviction loop: the oldest view goes, never the current one. -/
def evict (limit : Nat) (current : UInt64) :
    Nat → AList (fun _ : UInt64 => PlacementView) → AList (fun _ : UInt64 => PlacementView)
  | 0, history => history
  | fuel + 1, history =>
      if history.keys.length ≤ limit then history
      else
        match (history.keys.filter fun epoch => epoch ≠ current).min? with
        | none => history
        | some victim => evict limit current fuel (history.erase victim)

def replaceView (manager : PGManager) (view : PlacementView) : Except Bytes PGManager :=
  if view.pgCount = 0 then .error (ofAscii "invalid placement view: pg_count=0")
  else if view.pgToReplicas.length ≠ view.pgCount.toNat then
    .error (ofAscii "invalid placement view: pg_to_replicas size mismatch")
  else if view.epoch = 0 then .error (ofAscii "invalid placement view: epoch=0")
  else
    let history := manager.history.insert view.epoch view
    .ok { manager with
      currentView := some view
      history := evict manager.options.historyLimit view.epoch history.keys.length history }

def rebuildFromNodes (manager : PGManager) (nodes : List NodeInfo) (newEpoch : UInt64) :
    Except Bytes PGManager :=
  if newEpoch = 0 then .error (ofAscii "new_epoch must be > 0")
  else do
    let view ← buildPlacementView order (buildCandidates nodes) manager.options.pgCount
      manager.options.replica newEpoch
    manager.replaceView view

def currentEpoch (manager : PGManager) : UInt64 :=
  match manager.currentView with
  | none => 0
  | some view => view.epoch

/-- `GetViewLocked`: epoch zero stands for the current view. -/
def getView (manager : PGManager) (epoch : UInt64) : Option PlacementView :=
  if epoch = 0 then manager.currentView else manager.history.lookup epoch

def resolvePg (manager : PGManager) (pgId : UInt32) (epoch : UInt64) :
    Except Bytes PgReplicaSet :=
  match manager.getView epoch with
  | none => .error (ofAscii "placement view not found for epoch=" ++ decimal epoch.toNat)
  | some view =>
      match view.pgToReplicas[pgId.toNat]? with
      | none => .error (ofAscii "pg_id out of range: " ++ decimal pgId.toNat)
      | some set =>
          if set.members = [] then
            .error (ofAscii "replica set is empty for pg_id=" ++ decimal pgId.toNat)
          else .ok set

/-! ## What a view is made of -/

/-- Each member of the view stands for one of the candidates. -/
def DrawnFrom (view : PlacementView) (candidates : List CandidateNode) : Prop :=
  ∀ set ∈ view.pgToReplicas, ∀ member ∈ set.members, ∃ node ∈ candidates,
    member = memberOf node view.epoch

theorem mem_selectMembers {replica : Nat} {epoch : UInt64} {member : PgReplicaMember}
    {scores : List (UInt64 × CandidateNode)} {seen : List Bytes} {members : List PgReplicaMember}
    (h : member ∈ selectMembers replica epoch scores seen members) :
    member ∈ members ∨ ∃ scored ∈ scores, member = memberOf scored.2 epoch := by
  induction scores generalizing seen members with
  | nil => exact .inl h
  | cons scored scores ih =>
      have hlater : ∀ {seen members},
          member ∈ selectMembers replica epoch scores seen members →
          member ∈ members ∨ ∃ s ∈ scored :: scores, member = memberOf s.2 epoch := by
        intro seen members hmem
        rcases ih hmem with hacc | ⟨s, hs, hmember⟩
        · exact .inl hacc
        · exact .inr ⟨s, List.mem_cons_of_mem _ hs, hmember⟩
      have hnew : member ∈ members ++ [memberOf scored.2 epoch] →
          member ∈ members ∨ ∃ s ∈ scored :: scores, member = memberOf s.2 epoch := by
        intro hmem
        rcases List.mem_append.mp hmem with hacc | hlast
        · exact .inl hacc
        · exact .inr ⟨scored, List.mem_cons_self, List.mem_singleton.mp hlast⟩
      simp only [selectMembers] at h
      split at h
      · exact hlater h
      split at h
      · exact hnew h
      · rcases hlater h with hacc | hscore
        · exact hnew hacc
        · exact .inr hscore

/-- The groups of the ranked candidates that were not seen yet. -/
def unseenGroups (scores : List (UInt64 × CandidateNode)) (seen : List Bytes) : Finset Bytes :=
  (scores.map fun scored => scored.2.groupId).toFinset \ seen.toFinset

/-- As many members are found as there are groups, up to the replica count. -/
theorem le_length_selectMembers {replica : Nat} {epoch : UInt64}
    {scores : List (UInt64 × CandidateNode)} {seen : List Bytes} {members : List PgReplicaMember}
    (h : replica ≤ members.length + (unseenGroups scores seen).card) :
    replica ≤ (selectMembers replica epoch scores seen members).length := by
  induction scores generalizing seen members with
  | nil => simpa [selectMembers, unseenGroups] using h
  | cons scored scores ih =>
      simp only [selectMembers]
      split
      · next hseen =>
          have hsame : unseenGroups (scored :: scores) seen = unseenGroups scores seen := by
            simp [unseenGroups, Finset.insert_sdiff_of_mem, hseen]
          exact ih (hsame ▸ h)
      · next hseen =>
          split
          · assumption
          · apply ih
            have hsub : unseenGroups (scored :: scores) seen ⊆
                insert scored.2.groupId (unseenGroups scores (scored.2.groupId :: seen)) := by
              intro group hgroup
              simp only [unseenGroups, List.map_cons, List.toFinset_cons, Finset.mem_insert,
                Finset.mem_sdiff, List.mem_toFinset] at hgroup ⊢
              tauto
            have hcard := (Finset.card_le_card hsub).trans (Finset.card_insert_le _ _)
            simp only [List.length_append, List.length_singleton]
            omega

variable {order}

theorem buildReplicaSet_members {candidates : List CandidateNode} {replica pg : UInt32}
    {epoch : UInt64} {set : PgReplicaSet}
    (h : buildReplicaSet order candidates replica epoch pg = .ok set) :
    ∀ member ∈ set.members, ∃ node ∈ candidates, member = memberOf node epoch := by
  intro member hmem
  simp only [buildReplicaSet] at h
  split at h
  · cases h
  · cases h
    rcases mem_selectMembers hmem with hnil | ⟨scored, hscored, rfl⟩
    · cases hnil
    · obtain ⟨node, hnode, rfl⟩ := List.mem_map.mp ((order.perm _).mem_iff.mp hscored)
      exact ⟨node, hnode, rfl⟩

/-- With enough groups among the candidates every placement group gets its replicas. -/
theorem buildReplicaSet_isOk (order : ScoreSort) {candidates : List CandidateNode} {replica : UInt32}
    (h : replica.toNat ≤ (candidates.map fun node => node.groupId).toFinset.card)
    (epoch : UInt64) (pg : UInt32) :
    ∃ set, buildReplicaSet order candidates replica epoch pg = .ok set := by
  have hgroups : replica.toNat ≤ (selectMembers replica.toNat epoch (order.sort
      (candidates.map fun node => (hash64Pair pg node.nodeId epoch, node))) [] []).length := by
    apply le_length_selectMembers
    have hperm := (order.perm (candidates.map fun node =>
      (hash64Pair pg node.nodeId epoch, node))).map fun scored => scored.2.groupId
    rw [unseenGroups, List.toFinset_eq_of_perm _ _ hperm]
    simpa [Function.comp_def] using h
  simp only [buildReplicaSet, if_neg (Nat.not_lt.mpr hgroups)]
  exact ⟨_, rfl⟩

theorem buildReplicaSets_spec {candidates : List CandidateNode} {replica : UInt32} {epoch : UInt64}
    {pgs : List Nat} {sets : List PgReplicaSet}
    (h : buildReplicaSets order candidates replica epoch pgs = .ok sets) :
    sets.length = pgs.length ∧
      ∀ set ∈ sets, ∀ member ∈ set.members, ∃ node ∈ candidates, member = memberOf node epoch := by
  induction pgs generalizing sets with
  | nil =>
      cases h
      simp
  | cons pg pgs ih =>
      simp only [buildReplicaSets] at h
      cases hset : buildReplicaSet order candidates replica epoch (UInt32.ofNat pg) with
      | error e => simp [hset, bind, Except.bind] at h
      | ok set =>
          cases hsets : buildReplicaSets order candidates replica epoch pgs with
          | error e => simp [hset, hsets, bind, Except.bind] at h
          | ok rest =>
              simp only [hset, hsets, bind, Except.bind, pure, Except.pure, Except.ok.injEq] at h
              obtain ⟨hlen, hrest⟩ := ih hsets
              subst h
              refine ⟨by simp [hlen], ?_⟩
              intro s hs
              rcases List.mem_cons.mp hs with rfl | hs
              · exact buildReplicaSet_members hset
              · exact hrest s hs

theorem buildReplicaSets_isOk (order : ScoreSort) {candidates : List CandidateNode}
    {replica : UInt32}
    (h : replica.toNat ≤ (candidates.map fun node => node.groupId).toFinset.card)
    (epoch : UInt64) (pgs : List Nat) :
    ∃ sets, buildReplicaSets order candidates replica epoch pgs = .ok sets := by
  induction pgs with
  | nil => exact ⟨[], rfl⟩
  | cons pg pgs ih =>
      obtain ⟨set, hset⟩ := buildReplicaSet_isOk order h epoch (UInt32.ofNat pg)
      obtain ⟨sets, hsets⟩ := ih
      exact ⟨set :: sets, by simp [buildReplicaSets, hset, hsets, bind, Except.bind, pure,
        Except.pure]⟩

theorem buildPlacementView_spec {candidates : List CandidateNode} {pgCount replica : UInt32}
    {epoch : UInt64} {view : PlacementView}
    (h : buildPlacementView order candidates pgCount replica epoch = .ok view) :
    view.epoch = epoch ∧ view.pgCount = pgCount ∧ pgCount ≠ 0 ∧
      view.pgToReplicas.length = pgCount.toNat ∧ DrawnFrom view candidates := by
  simp only [buildPlacementView] at h
  split at h
  · cases h
  next hcounts =>
  split at h
  · cases h
  cases hsets : buildReplicaSets order candidates replica epoch (List.range pgCount.toNat) with
  | error e => simp [hsets, bind, Except.bind] at h
  | ok sets =>
      simp only [hsets, bind, Except.bind, pure, Except.pure, Except.ok.injEq] at h
      obtain ⟨hlen, hdrawn⟩ := buildReplicaSets_spec hsets
      subst h
      exact ⟨rfl, rfl, fun h => hcounts (.inl h), by simpa using hlen, hdrawn⟩

theorem buildPlacementView_isOk (order : ScoreSort) {candidates : List CandidateNode}
    {pgCount replica : UInt32}
    (hpg : pgCount ≠ 0) (hreplica : replica ≠ 0)
    (h : replica.toNat ≤ (candidates.map fun node => node.groupId).toFinset.card)
    (epoch : UInt64) :
    ∃ view, buildPlacementView order candidates pgCount replica epoch = .ok view := by
  have hpos : 0 < replica.toNat := by
    rw [Nat.pos_iff_ne_zero]
    exact fun h => hreplica (UInt32.toNat_inj.mp h)
  have hne : candidates ≠ [] := by
    rintro rfl
    simp at h
    omega
  obtain ⟨sets, hsets⟩ := buildReplicaSets_isOk order h epoch (List.range pgCount.toNat)
  rw [buildPlacementView, if_neg (by simp [hpg, hreplica]), if_neg hne]
  exact ⟨_, by simp [hsets, bind, Except.bind, pure, Except.pure]; rfl⟩

/-! ## The current view -/

/-- The current view is kept under its epoch. -/
def Kept (manager : PGManager) : Prop :=
  ∀ view ∈ manager.currentView, view.epoch ≠ 0 ∧ manager.history.lookup view.epoch = some view

theorem lookup_evict (limit : Nat) (current : UInt64) (fuel : Nat)
    (history : AList (fun _ : UInt64 => PlacementView)) :
    (evict limit current fuel history).lookup current = history.lookup current := by
  induction fuel generalizing history with
  | zero => rfl
  | succ fuel ih =>
      simp only [evict]
      split
      · rfl
      split
      · rfl
      · next victim hmin =>
          have hmem := List.min?_mem hmin
          have hne : current ≠ victim := by
            simp only [List.mem_filter, decide_eq_true_eq] at hmem
            exact fun h => hmem.2 h.symm
          rw [ih, AList.lookup_erase_ne hne]

theorem rebuildFromNodes_spec {manager manager' : PGManager} {nodes : List NodeInfo}
    {newEpoch : UInt64} (h : manager.rebuildFromNodes order nodes newEpoch = .ok manager') :
    manager'.options = manager.options ∧ Kept manager' ∧
      ∀ view ∈ manager'.currentView, DrawnFrom view (buildCandidates nodes) := by
  simp only [rebuildFromNodes] at h
  split at h
  · cases h
  next hepoch =>
  cases hbuild : buildPlacementView order (buildCandidates nodes) manager.options.pgCount
      manager.options.replica newEpoch with
  | error e => simp [hbuild, bind, Except.bind] at h
  | ok view =>
      obtain ⟨rfl, hcount, hpos, hlen, hdrawn⟩ := buildPlacementView_spec hbuild
      simp only [hbuild, bind, Except.bind, replaceView, hcount, hpos, hlen, hepoch, if_false,
        ne_eq, not_true_eq_false, Except.ok.injEq] at h
      subst h
      refine ⟨rfl, ?_, ?_⟩
      · intro current hcurrent
        obtain rfl := Option.some.inj hcurrent
        exact ⟨hepoch, by simp [lookup_evict]⟩
      · intro current hcurrent
        obtain rfl := Option.some.inj hcurrent
        exact hdrawn

theorem rebuildFromNodes_isOk {manager : PGManager} {nodes : List NodeInfo} {newEpoch : UInt64}
    (hpg : manager.options.pgCount ≠ 0) (hreplica : manager.options.replica ≠ 0)
    (hepoch : newEpoch ≠ 0)
    (h : manager.options.replica.toNat ≤
      ((buildCandidates nodes).map fun node => node.groupId).toFinset.card) :
    ∃ manager', manager.rebuildFromNodes order nodes newEpoch = .ok manager' := by
  obtain ⟨view, hbuild⟩ := buildPlacementView_isOk order hpg hreplica h newEpoch
  obtain ⟨hview, hcount, -, hlen, -⟩ := buildPlacementView_spec hbuild
  simp only [rebuildFromNodes, hbuild, bind, Except.bind, replaceView, hcount, hpg, hlen,
    hview, hepoch, if_false, ne_eq, not_true_eq_false]
  exact ⟨_, rfl⟩

/-- What is resolved at the current epoch is a replica set of the current view. -/
theorem resolvePg_currentEpoch {manager : PGManager} (hkept : Kept manager) {pgId : UInt32}
    {set : PgReplicaSet} (h : manager.resolvePg pgId manager.currentEpoch = .ok set) :
    ∃ view ∈ manager.currentView, set ∈ view.pgToReplicas := by
  have hview : manager.getView manager.currentEpoch = manager.currentView := by
    cases hcur : manager.currentView with
    | none => simp [getView, currentEpoch, hcur]
    | some view =>
        obtain ⟨hepoch, hlook⟩ := hkept view hcur
        have hcurrent : manager.currentEpoch = view.epoch := by simp [currentEpoch, hcur]
        rw [getView, hcurrent, if_neg hepoch, hlook]
  simp only [resolvePg, hview] at h
  split at h
  · cases h
  next view hcur =>
  split at h
  · cases h
  next found hfound =>
  split at h
  · cases h
  · cases h
    exact ⟨view, hcur, List.mem_of_getElem? hfound⟩

/-- The candidates stand for the nodes that take part, each under its own group. -/
theorem mem_buildCandidates {nodes : List NodeInfo} {candidate : CandidateNode}
    (h : candidate ∈ buildCandidates nodes) :
    ∃ node ∈ nodes, isCandidate node = true ∧
      candidate.groupId = if node.groupId = [] then node.nodeId else node.groupId := by
  obtain ⟨node, hnode, hmem⟩ := List.mem_flatMap.mp h
  simp only [candidatesOf] at hmem
  split at hmem
  · next hcandidate =>
      obtain ⟨idx, -, rfl⟩ := List.mem_map.mp hmem
      exact ⟨node, hnode, hcandidate, rfl⟩
  · cases hmem

theorem exists_candidate {nodes : List NodeInfo} {node : NodeInfo} (hnode : node ∈ nodes)
    (h : isCandidate node = true) : candidateAt node 0 ∈ buildCandidates nodes := by
  refine List.mem_flatMap.mpr ⟨node, hnode, ?_⟩
  simp only [candidatesOf, h, if_true]
  refine List.mem_map.mpr ⟨0, List.mem_range.mpr ?_, rfl⟩
  split
  · rw [toNat_max]
    exact Nat.lt_of_lt_of_le Nat.zero_lt_one (Nat.le_max_left _ _)
  · exact Nat.zero_lt_one

end PGManager

end Zb.Mds
