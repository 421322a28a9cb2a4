-- SUMMARY: The placement view against the committed catalog: when a history of commits leaves it on nodes that take writes.
import ZBStorage.Mds.Allocator.CatalogHistory

/-!
# Placement and catalog

A commit publishes the catalog to the node cache at once, and to the placement
manager only if a view can be built from it. The view follows the catalog through
every commit whose catalog has enough nodes to place on; a catalog with too few
leaves the old view in force.
-/

namespace Zb.Mds

/-- `NodeStateCache::IsNodeAllocatable`. -/
def NodeStateCache.isNodeAllocatable (node : NodeInfo) (typeFilter : NodeType)
    (strictTypeFilter : Bool) : Bool :=
  node.allocatable && node.isPrimary && (node.disks.any fun disk => disk.usable) &&
  if strictTypeFilter then node.type = typeFilter else node.type ≠ typeFilter

namespace CmsNodeRegistry

open Zb.Rpc Bytes

/-! ## The nodes of an accepted proposal -/

theorem addEntry_nodes {current : Nodes} {candidate candidate' : Catalog} {entry : Entry}
    (h : addEntry current candidate entry = .ok candidate') :
    entry.named = true ∧ entry.managedView.spec.nodeId ∉ candidate.nodes ∧
      ∃ compactId, candidate'.nodes =
        candidate.nodes.insert entry.managedView.spec.nodeId (entry.withCompactId compactId) := by
  obtain ⟨hnamed, hnew, compactId, counted, hassign, rfl⟩ := addEntry_cases h
  refine ⟨hnamed, hnew, compactId, ?_⟩
  rcases assignCompactId_cases hassign with ⟨_, _, _, _, _, _, rfl⟩ | ⟨_, _, _, rfl⟩
  · rfl
  · rw [Catalog.nodes_setNextCompactId]

/-- The candidate holds the proposed nodes beside those it held, each once. -/
theorem addEntries_nodes {current : Nodes} {candidate candidate' : Catalog}
    {proposed : List Entry} (h : addEntries current candidate proposed = .ok candidate') :
    (∀ id e, candidate'.nodes.lookup id = some e → candidate.nodes.lookup id = some e ∨
      (e.named = true ∧ e.managedView.spec.nodeId = id)) ∧
    (∀ id e, candidate.nodes.lookup id = some e → candidate'.nodes.lookup id = some e) ∧
    (∀ entry ∈ proposed, entry.managedView.spec.nodeId ∉ candidate.nodes ∧
      ∃ compactId, candidate'.nodes.lookup entry.managedView.spec.nodeId =
        some (entry.withCompactId compactId)) ∧
    (proposed.map fun entry => entry.managedView.spec.nodeId).Nodup := by
  induction proposed generalizing candidate with
  | nil =>
      cases h
      exact ⟨fun _ _ h => .inl h, fun _ _ h => h, by simp, List.nodup_nil⟩
  | cons entry proposed ih =>
      simp only [addEntries] at h
      cases hadd : addEntry current candidate entry with
      | error e => simp [hadd, bind, Except.bind] at h
      | ok next =>
          simp only [hadd, bind, Except.bind] at h
          obtain ⟨hnamed, hnew, compactId, hnodes⟩ := addEntry_nodes hadd
          obtain ⟨honly, hkeep, hall, hnodup⟩ := ih h
          have hself : next.nodes.lookup entry.managedView.spec.nodeId =
              some (entry.withCompactId compactId) := by
            rw [hnodes, AList.lookup_insert]
          refine ⟨?_, ?_, ?_, ?_⟩
          · intro id e he
            rcases honly id e he with hnext | hproposed
            · rw [hnodes] at hnext
              by_cases hid : id = entry.managedView.spec.nodeId
              · subst hid
                rw [AList.lookup_insert] at hnext
                obtain rfl := Option.some.inj hnext
                exact .inr ⟨Entry.named_withCompactId hnamed _, rfl⟩
              · rw [AList.lookup_insert_ne hid] at hnext
                exact .inl hnext
            · exact .inr hproposed
          · intro id e he
            apply hkeep
            rw [hnodes, AList.lookup_insert_ne, he]
            rintro rfl
            exact hnew (AList.lookup_isSome.mp (by rw [he]; rfl))
          · intro other hother
            rcases List.mem_cons.mp hother with rfl | hother
            · exact ⟨hnew, compactId, hkeep _ _ hself⟩
            · obtain ⟨habsent, hfound⟩ := hall other hother
              rw [hnodes, AList.mem_insert, not_or] at habsent
              exact ⟨habsent.2, hfound⟩
          · refine List.nodup_cons.mpr ⟨?_, hnodup⟩
            intro hmem
            obtain ⟨other, hother, heq⟩ := List.mem_map.mp hmem
            obtain ⟨habsent, -⟩ := hall other hother
            rw [hnodes, AList.mem_insert, not_or] at habsent
            exact habsent.1 heq

/-- Every node stands under its own id. -/
def Keyed (nodes : Nodes) : Prop :=
  ∀ id e, nodes.lookup id = some e → e.named = true ∧ e.managedView.spec.nodeId = id

theorem propose_nodes {catalog catalog' : Catalog} {schedulerGeneration : UInt64}
    {proposed : List Entry} (h : catalog.propose schedulerGeneration proposed = .ok catalog') :
    Keyed catalog'.nodes ∧
    (∀ entry ∈ proposed, ∃ compactId,
      catalog'.nodes.lookup entry.managedView.spec.nodeId = some (entry.withCompactId compactId)) ∧
    (proposed.map fun entry => entry.managedView.spec.nodeId).Nodup := by
  obtain ⟨candidate, hadd, -, rfl⟩ := propose_cases h
  obtain ⟨honly, -, hall, hnodup⟩ := addEntries_nodes hadd
  refine ⟨?_, fun entry hentry => (hall entry hentry).2, hnodup⟩
  intro id e he
  rcases honly id e he with hempty | hproposed
  · simp at hempty
  · exact hproposed

/-! ## Placement nodes -/

variable (stagingFull : UInt64 → UInt64 → Bool)

/-- The node takes part in placement. -/
def Entry.placeable (entry : Entry) : Bool :=
  PGManager.isCandidate (buildNodeInfo stagingFull entry)

variable {stagingFull}

theorem buildNodeInfo_withCompactId (entry : Entry) (compactId : UInt32) :
    buildNodeInfo stagingFull (entry.withCompactId compactId) = buildNodeInfo stagingFull entry :=
  rfl

theorem mem_placementNodes {nodes : Nodes} {node : NodeInfo} :
    node ∈ placementNodes stagingFull nodes ↔
      ∃ id e, nodes.lookup id = some e ∧ buildNodeInfo stagingFull e = node := by
  simp only [placementNodes, List.mem_map, Sigma.exists, mem_ordered]

/-- A node that takes part in placement takes writes, in the catalog and in the cache. -/
theorem placeable_allocatable {entry : Entry} (h : entry.placeable stagingFull = true) :
    isWriteAllocatable stagingFull entry.managedView = true ∧
      NodeStateCache.isNodeAllocatable (buildNodeInfo stagingFull entry)
        (buildNodeInfo stagingFull entry).type true = true := by
  simp only [Entry.placeable, PGManager.isCandidate, PGManager.isNodeAllocatable,
    Bool.and_eq_true] at h
  obtain ⟨⟨⟨⟨hallocatable, hprimary⟩, -⟩, -⟩, hdisks⟩ := h
  have husable : (buildNodeInfo stagingFull entry).disks.any (fun disk => disk.usable) = true := by
    simp only [PGManager.healthyDisks, ne_eq, List.map_eq_nil_iff, decide_eq_true_eq] at hdisks
    obtain ⟨disk, hdisk⟩ := List.exists_mem_of_ne_nil _ hdisks
    obtain ⟨hmem, hdisk⟩ := List.mem_filter.mp hdisk
    exact List.any_eq_true.mpr ⟨disk, hmem, hdisk⟩
  have hwrite : isWriteAllocatable stagingFull entry.managedView = true := by
    simp only [buildNodeInfo, Bool.and_eq_true] at hallocatable
    exact hallocatable.1
  exact ⟨hwrite, by simp [NodeStateCache.isNodeAllocatable, hallocatable, hprimary, husable]⟩

/-- The group of a placement node is its node. -/
theorem group_buildNodeInfo (entry : Entry) :
    (if (buildNodeInfo stagingFull entry).groupId = [] then
      (buildNodeInfo stagingFull entry).nodeId
      else (buildNodeInfo stagingFull entry).groupId) = entry.managedView.spec.nodeId := by
  exact ite_self _

/-- Each placeable node of an accepted proposal is a group of its own. -/
theorem placeable_le_groups {catalog catalog' : Catalog} {schedulerGeneration : UInt64}
    {proposed : List Entry} (h : catalog.propose schedulerGeneration proposed = .ok catalog') :
    (proposed.filter fun entry => entry.placeable stagingFull).length ≤
      ((PGManager.buildCandidates (placementNodes stagingFull catalog'.nodes)).map
        fun node => node.groupId).toFinset.card := by
  obtain ⟨-, hall, hnodup⟩ := propose_nodes h
  let names := (proposed.filter fun entry => entry.placeable stagingFull).map
    fun entry => entry.managedView.spec.nodeId
  have hnames : names.Nodup := hnodup.sublist (List.filter_sublist.map _)
  have hlength : names.toFinset.card =
      (proposed.filter fun entry => entry.placeable stagingFull).length := by
    rw [List.toFinset_card_of_nodup hnames, List.length_map]
  rw [← hlength]
  apply Finset.card_le_card
  intro id hid
  obtain ⟨entry, hentry, rfl⟩ := List.mem_map.mp (List.mem_toFinset.mp hid)
  obtain ⟨hproposed, hplaceable⟩ := List.mem_filter.mp hentry
  obtain ⟨compactId, hlook⟩ := hall entry hproposed
  have hnode : buildNodeInfo stagingFull entry ∈ placementNodes stagingFull catalog'.nodes :=
    mem_placementNodes.mpr ⟨_, _, hlook, buildNodeInfo_withCompactId entry compactId⟩
  refine List.mem_toFinset.mpr (List.mem_map.mpr ⟨_, PGManager.exists_candidate hnode hplaceable, ?_⟩)
  exact group_buildNodeInfo entry

/-! ## Histories of commits -/

variable (stagingFull) (order : PGManager.ScoreSort)

/-- The node of the member takes writes in the committed catalog and in the cache. -/
def Admits (registry : CmsNodeRegistry) (member : PgReplicaMember) : Prop :=
  (∃ entry, registry.nodes.lookup member.groupId = some entry ∧
    isWriteAllocatable stagingFull entry.managedView = true) ∧
  ∃ node ∈ registry.cache, node.nodeId = member.groupId ∧
    NodeStateCache.isNodeAllocatable node node.type true = true

/-- Whatever is resolved at the current epoch lies on nodes that take writes. -/
def PlacementFollows (registry : CmsNodeRegistry) : Prop :=
  ∀ pgId set, registry.pgManager.resolvePg pgId registry.pgManager.currentEpoch = .ok set →
    ∀ member ∈ set.members, registry.Admits stagingFull member

/-- A commit with whatever the store held and whatever became of the write. -/
def Commits (schedulerGeneration : UInt64) (proposed : List Entry)
    (registry registry' : CmsNodeRegistry) : Prop :=
  ∃ store put, registry' =
    (registry.commit stagingFull order store put schedulerGeneration proposed).2.1

/-- A catalog is only proposed while there is no view yet, or with as many placeable
    nodes as a placement group has replicas. -/
def Placeable (registry : CmsNodeRegistry) (schedulerGeneration : UInt64)
    (proposed : List Entry) : Prop :=
  registry.schedulerGeneration < schedulerGeneration →
    registry.pgManager.currentView = none ∨
    (registry.CanGrow ∧ registry.pgManager.options.replica.toNat ≤
      (proposed.filter fun entry => entry.placeable stagingFull).length)

/-- The histories of commits. -/
def CommitHistory : CmsNodeRegistry → CmsNodeRegistry → Prop :=
  Relation.ReflTransGen fun registry registry' => ∃ schedulerGeneration proposed,
    Commits stagingFull order schedulerGeneration proposed registry registry'

/-- The histories of commits that propose placeable catalogs. -/
def PlaceableHistory : CmsNodeRegistry → CmsNodeRegistry → Prop :=
  Relation.ReflTransGen fun registry registry' => ∃ schedulerGeneration proposed,
    registry.Placeable stagingFull schedulerGeneration proposed ∧
    Commits stagingFull order schedulerGeneration proposed registry registry'

/-- The placement that a registry has published is that of its catalog. -/
structure Published (registry : CmsNodeRegistry) : Prop where
  keyed : Keyed registry.nodes
  pgCount : registry.pgManager.options.pgCount ≠ 0
  replica : registry.pgManager.options.replica ≠ 0
  cache : registry.cache = placementNodes stagingFull registry.nodes
  kept : registry.pgManager.Kept
  drawn : ∀ view ∈ registry.pgManager.currentView,
    PGManager.DrawnFrom view (PGManager.buildCandidates (placementNodes stagingFull registry.nodes))

variable {stagingFull order}

theorem published_empty (options : PGManager.Options) :
    Published stagingFull { pgManager := .create options } where
  keyed := by simp [Keyed]
  pgCount := by
    simp only [PGManager.create]
    split
    · decide
    · assumption
  replica := by
    simp only [PGManager.create]
    split
    · decide
    · assumption
  cache := rfl
  kept := by simp [PGManager.Kept, PGManager.create]
  drawn := by simp [PGManager.create]

theorem Published.follows {registry : CmsNodeRegistry} (h : registry.Published stagingFull) :
    registry.PlacementFollows stagingFull := by
  intro pgId set hresolve member hmember
  obtain ⟨view, hview, hset⟩ := PGManager.resolvePg_currentEpoch h.kept hresolve
  obtain ⟨candidate, hcandidate, rfl⟩ := h.drawn view hview set hset member hmember
  obtain ⟨node, hnode, hplaceable, hgroup⟩ := PGManager.mem_buildCandidates hcandidate
  obtain ⟨id, entry, hlook, rfl⟩ := mem_placementNodes.mp hnode
  obtain ⟨hwrite, hcache⟩ := placeable_allocatable hplaceable
  rw [group_buildNodeInfo] at hgroup
  have hid : (PGManager.memberOf candidate view.epoch).groupId = id :=
    hgroup.trans (h.keyed id entry hlook).2
  refine ⟨⟨entry, by rw [hid]; exact hlook, hwrite⟩, ?_⟩
  exact ⟨_, h.cache ▸ hnode, hgroup.symm, hcache⟩

/-- A view built from the catalog. -/
theorem Published.of_rebuilt {registry : CmsNodeRegistry} {catalog : Catalog}
    {pgManager : PGManager} (h : registry.Published stagingFull) (hkeyed : Keyed catalog.nodes)
    (hrebuild : registry.pgManager.rebuildFromNodes order
      (placementNodes stagingFull catalog.nodes) catalog.cmsGeneration = .ok pgManager) :
    Published stagingFull
      { toCatalog := catalog
        cache := placementNodes stagingFull catalog.nodes
        pgManager := pgManager } := by
  obtain ⟨hoptions, hkept, hdrawn⟩ := PGManager.rebuildFromNodes_spec hrebuild
  exact ⟨hkeyed, hoptions ▸ h.pgCount, hoptions ▸ h.replica, rfl, hkept, hdrawn⟩

/-- Without a view nothing is resolved. -/
theorem Published.of_noView {registry : CmsNodeRegistry} {catalog : Catalog}
    (h : registry.Published stagingFull) (hkeyed : Keyed catalog.nodes)
    (hnone : registry.pgManager.currentView = none) :
    Published stagingFull
      { toCatalog := catalog
        cache := placementNodes stagingFull catalog.nodes
        pgManager := registry.pgManager } where
  keyed := hkeyed
  pgCount := h.pgCount
  replica := h.replica
  cache := rfl
  kept := h.kept
  drawn := by simp [hnone]

/-- With enough placeable nodes the catalog has a node to place on, and a view is built. -/
theorem rebuild_of_placeable (order : PGManager.ScoreSort) {registry : CmsNodeRegistry} {catalog : Catalog}
    {schedulerGeneration : UInt64} {proposed : List Entry} (h : registry.Published stagingFull)
    (hpropose : registry.propose schedulerGeneration proposed = .ok catalog)
    (hgrow : registry.CanGrow)
    (henough : registry.pgManager.options.replica.toNat ≤
      (proposed.filter fun entry => entry.placeable stagingFull).length) :
    ((placementNodes stagingFull catalog.nodes).any
      fun node => node.allocatable && node.type ≠ .optical) = true ∧
    ∃ pgManager, registry.pgManager.rebuildFromNodes order
      (placementNodes stagingFull catalog.nodes) catalog.cmsGeneration = .ok pgManager := by
  have hepoch : catalog.cmsGeneration ≠ 0 := by
    obtain ⟨candidate, -, -, rfl⟩ := propose_cases hpropose
    exact hgrow.succ_ne_zero
  constructor
  · have hpos : 0 < registry.pgManager.options.replica.toNat :=
      Nat.pos_of_ne_zero fun hzero => h.replica (UInt32.toNat_inj.mp hzero)
    obtain ⟨entry, hentry⟩ := List.exists_mem_of_length_pos (hpos.trans_le henough)
    obtain ⟨hproposed, hplaceable⟩ := List.mem_filter.mp hentry
    obtain ⟨compactId, hlook⟩ := (propose_nodes hpropose).2.1 entry hproposed
    refine List.any_eq_true.mpr ⟨_, mem_placementNodes.mpr
      ⟨_, _, hlook, buildNodeInfo_withCompactId entry compactId⟩, ?_⟩
    simp only [Entry.placeable, PGManager.isCandidate, PGManager.isNodeAllocatable,
      Bool.and_eq_true] at hplaceable ⊢
    exact ⟨hplaceable.1.1.1.1, hplaceable.1.1.2⟩
  · exact PGManager.rebuildFromNodes_isOk h.pgCount h.replica hepoch
      (henough.trans (placeable_le_groups hpropose))

theorem Published.publish {registry : CmsNodeRegistry} {catalog : Catalog}
    {schedulerGeneration : UInt64} {proposed : List Entry} (h : registry.Published stagingFull)
    (hpropose : registry.propose schedulerGeneration proposed = .ok catalog)
    (hplaceable : registry.pgManager.currentView = none ∨
      (registry.CanGrow ∧ registry.pgManager.options.replica.toNat ≤
        (proposed.filter fun entry => entry.placeable stagingFull).length)) :
    (publishPlacement stagingFull order { registry with toCatalog := catalog }).Published
      stagingFull := by
  have hkeyed := (propose_nodes hpropose).1
  simp only [publishPlacement]
  rcases hplaceable with hnone | ⟨hgrow, henough⟩
  · split
    · cases hrebuild : registry.pgManager.rebuildFromNodes order
          (placementNodes stagingFull catalog.nodes) catalog.cmsGeneration with
      | error e => exact h.of_noView hkeyed hnone
      | ok pgManager => exact h.of_rebuilt hkeyed hrebuild
    · exact h.of_noView hkeyed hnone
  · obtain ⟨hsome, pgManager, hrebuild⟩ :=
      rebuild_of_placeable order h hpropose hgrow henough
    rw [if_pos hsome, hrebuild]
    exact h.of_rebuilt hkeyed hrebuild

theorem Published.commit {registry registry' : CmsNodeRegistry} {schedulerGeneration : UInt64}
    {proposed : List Entry} (h : registry.Published stagingFull)
    (hplaceable : registry.Placeable stagingFull schedulerGeneration proposed)
    (hcommit : Commits stagingFull order schedulerGeneration proposed registry registry') :
    registry'.Published stagingFull := by
  obtain ⟨store, put, rfl⟩ := hcommit
  rcases commit_cases stagingFull order registry store put
      schedulerGeneration proposed with
    ⟨reply, hcommit⟩ | ⟨hnewer, catalog, hpropose, ⟨error, hcommit⟩ | ⟨reply, hcommit⟩⟩
  · rw [hcommit]
    exact h
  · rw [hcommit]
    exact h
  · rw [hcommit]
    exact h.publish hpropose (hplaceable hnewer)

/-- Through commits that propose placeable catalogs the placement follows the catalog. -/
theorem placement_follows_catalog {options : PGManager.Options} {registry : CmsNodeRegistry}
    (h : PlaceableHistory stagingFull order { pgManager := .create options } registry) :
    registry.PlacementFollows stagingFull := by
  have hpublished : registry.Published stagingFull := by
    induction h with
    | refl => exact published_empty options
    | tail _ hstep ih =>
        obtain ⟨schedulerGeneration, proposed, hplaceable, hcommit⟩ := hstep
        exact ih.commit hplaceable hcommit
  exact hpublished.follows

/-! ## A view that is left behind -/

section Samples

def smallOptions : PGManager.Options where
  pgCount := 1
  replica := 1

def workingView : ManagedNodeView where
  spec? := some
    { nodeId := ofAscii "node-1", kind := .storage, executionMode := .physical
      participatesInPlacement := true }
  lifecycle := .working
  health := .healthy
  powerLevel := .medium
  actuatedPowerLevel := .medium
  administrativeState := .enabled
  serviceMode := .readWrite
  inventoryDevices :=
    [{ deviceId := ofAscii "disk-1", kind := .hdd, capacityBytes := 2, freeBytes := 1
       isHealthy := true }]

def sampleCommit (registry : CmsNodeRegistry) (schedulerGeneration : UInt64)
    (view : ManagedNodeView) : CmsNodeRegistry :=
  (registry.commit (fun _ _ => false) PGManager.insertionOrder none .stored schedulerGeneration
    [{ managedView? := some view }]).2.1

/-- One node takes writes. -/
def placedRegistry : CmsNodeRegistry := sampleCommit { pgManager := .create smallOptions } 1 workingView

/-- The only node was closed for writes. -/
def drainedRegistry : CmsNodeRegistry :=
  sampleCommit placedRegistry 2 { workingView with administrativeState := .draining }

theorem placed_follows :
    ((placedRegistry.pgManager.resolvePg 0 placedRegistry.pgManager.currentEpoch).toOption.isSome =
      true) ∧ placedRegistry.PlacementFollows fun _ _ => false := by
  have hhistory : PlaceableHistory (fun _ _ => false) PGManager.insertionOrder
      { pgManager := .create smallOptions } placedRegistry := by
    refine .single ⟨1, [{ managedView? := some workingView }], ?_, ?_⟩
    · exact fun _ => .inl rfl
    · exact ⟨none, .stored, rfl⟩
  exact ⟨by decide, placement_follows_catalog hhistory⟩

theorem drained_still_resolved :
    CommitHistory (fun _ _ => false) PGManager.insertionOrder { pgManager := .create smallOptions }
      drainedRegistry ∧ ¬ drainedRegistry.PlacementFollows fun _ _ => false := by
  refine ⟨.tail (.single ⟨1, _, none, .stored, rfl⟩) ⟨2, _, none, .stored, rfl⟩, ?_⟩
  intro hfollows
  have hresolved : (drainedRegistry.pgManager.resolvePg 0
      drainedRegistry.pgManager.currentEpoch).toOption.map
        (fun set => set.members.map fun member => member.groupId) = some [ofAscii "node-1"] := by
    decide
  have hclosed : (drainedRegistry.nodes.lookup (ofAscii "node-1")).all
      (fun entry => !isWriteAllocatable (fun _ _ => false) entry.managedView) = true := by
    decide
  cases hset : drainedRegistry.pgManager.resolvePg 0 drainedRegistry.pgManager.currentEpoch with
  | error e => simp [hset, Except.toOption] at hresolved
  | ok set =>
      simp only [hset, Except.toOption, Option.map_some, Option.some.injEq] at hresolved
      have hgroup : ofAscii "node-1" ∈ set.members.map fun member => member.groupId := by
        rw [hresolved]
        exact List.mem_singleton_self _
      obtain ⟨member, hmember, hname⟩ := List.mem_map.mp hgroup
      obtain ⟨⟨entry, hlook, hwrite⟩, -⟩ := hfollows 0 set hset member hmember
      rw [hname] at hlook
      simp [hlook, hwrite] at hclosed

end Samples

end CmsNodeRegistry

end Zb.Mds
