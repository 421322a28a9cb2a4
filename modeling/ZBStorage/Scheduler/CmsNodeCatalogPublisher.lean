-- SUMMARY: The publisher of the node catalog: committed views are the current ones but for energy, if the calls count.
import ZBStorage.Mds.Allocator.CatalogHistory
import ZBStorage.Scheduler.CatalogGeneration

/-!
# Publication of the catalog

`scheduler/cms/CmsNodeCatalogPublisher.cpp` against `CmsNodeRegistry`. The first
publication learns the generation of the committed catalog and from then on
proposes generations above it. A proposal of the committed generation is not
looked at, so it has to be the committed catalog.
-/

namespace Zb.Scheduler

open Zb.StorageModel Zb.Rpc Zb.Mds Bytes TableLoop CallHistory

/-! ## The publisher -/

structure CmsNodeCatalogPublisher where
  generationOffset : UInt64 := 0
  generationReconciled : Bool := false

/-- The scheduler, and the catalog that it publishes to with its stored snapshot. -/
structure Deployment where
  manager : NodePowerManager := {}
  publisher : CmsNodeCatalogPublisher := {}
  registry : CmsNodeRegistry
  store : Option CmsNodeRegistry.Snapshot := none

/-- The number of an enumerator. -/
def lifecycleNumber : ManagedLifecycleState → UInt32
  | .unknown => 0
  | .joining => 1
  | .working => 2
  | .draining => 3
  | .exiting => 4
  | .retired => 5
  | .unrecognized v _ => v

def instanceGeneration (view : ManagedNodeView) : UInt64 :=
  if view.spec.instanceGeneration = 0 then 1 else view.spec.instanceGeneration

/-- A member of the committed catalog against the scheduler's record of it. -/
def checkMember (manager : NodePowerManager) (entry : CmsNodeRegistry.Entry) : Except Bytes Unit :=
  if entry.managedView?.isNone || entry.managedView.spec?.isNone then
    .error (ofAscii "CMS catalog contains an invalid managed node")
  else
    let committed := entry.managedView
    let id := committed.spec.nodeId
    match manager.nodes.lookup id with
    | none => .error (ofAscii "Scheduler snapshot omits CMS member: " ++ id)
    | some node =>
        let current := fillManagedNodeView node
        if committed.spec.kind ≠ current.spec.kind ∨
            instanceGeneration committed ≠ instanceGeneration current ∨
            lifecycleNumber current.lifecycle < lifecycleNumber committed.lifecycle then
          .error (ofAscii "Scheduler snapshot conflicts with CMS member: " ++ id)
        else .ok ()

def checkMembers (manager : NodePowerManager) : List CmsNodeRegistry.Entry → Except Bytes Unit
  | [] => .ok ()
  | entry :: entries => do
      checkMember manager entry
      checkMembers manager entries

namespace Deployment

/-- `ReconcileGenerationLocked`, with the error of the catalog read if it fails. -/
def reconcileGeneration (deployment : Deployment) (readError : Option Bytes) :
    Except Bytes CmsNodeCatalogPublisher :=
  if deployment.publisher.generationReconciled then .ok deployment.publisher
  else
    match readError with
    | some error => .error error
    | none => do
        checkMembers deployment.manager
          ((CmsNodeRegistry.ordered deployment.registry.nodes).map fun item => item.2)
        let source := deployment.manager.generation
        let committed := deployment.registry.schedulerGeneration
        if source > committed then
          return { deployment.publisher with generationReconciled := true }
        else if committed = Saturating.largest then
          .error (ofAscii "CMS scheduler generation exhausted")
        else return { generationOffset := committed - source + 1, generationReconciled := true }

/-- What becomes of the call that commits a proposal. -/
inductive CommitRpc
  | lost (error : Bytes)
  | replyLost (put : CmsNodeRegistry.PutOutcome) (error : Bytes)
  | answered (put : CmsNodeRegistry.PutOutcome)

/-- The proposed entries, with what the cluster state has for the placement. -/
def proposal (manager : NodePowerManager) (placement : Bytes → Option NodeView) :
    List CmsNodeRegistry.Entry :=
  manager.snapshot.nodes.map fun node =>
    { placementView := placement node.profile.nodeId
      managedView? := some (fillManagedNodeView node) }

section Publish

variable (policy : PowerPolicy) (num : Numerics) (stagingFull : UInt64 → UInt64 → Bool)
  (order : PGManager.ScoreSort)

/-- The loop over the compact ids of a reply. -/
def applyAssignments : NodePowerManager → List CmsNodeCompactIdAssignment →
    Except Bytes Unit × NodePowerManager
  | manager, [] => (.ok (), manager)
  | manager, assignment :: assignments =>
      match manager.callNode policy num assignment.nodeId
          (.assignCmsCompactId assignment.compactId) with
      | .error error => (.error (ofAscii "failed to apply CMS compact id: " ++ error), manager)
      | .ok manager => applyAssignments manager assignments

/-- One round of the loop of `Publish`. -/
def attempt (deployment : Deployment) (placement : Bytes → Option NodeView) (rpc : CommitRpc) :
    Except Bytes Unit × Deployment :=
  let sourceGeneration := deployment.manager.generation
  let offset := deployment.publisher.generationOffset
  if sourceGeneration.toNat + offset.toNat > Saturating.largest.toNat then
    (.error (ofAscii "Scheduler catalog generation exhausted"), deployment)
  else
    let commit := fun put => deployment.registry.commit stagingFull order deployment.store put
      (sourceGeneration + offset) (proposal deployment.manager placement)
    match rpc with
    | .lost error => (.error (ofAscii "CMS catalog commit RPC failed: " ++ error), deployment)
    | .replyLost put error =>
        (.error (ofAscii "CMS catalog commit RPC failed: " ++ error),
          { deployment with registry := (commit put).2.1, store := (commit put).2.2 })
    | .answered put =>
        let committed := { deployment with
          registry := (commit put).2.1
          store := (commit put).2.2 }
        match (commit put).1 with
        | .error error => (.error (ofAscii "CMS rejected node catalog: " ++ error), committed)
        | .ok reply =>
            let applied := applyAssignments policy num deployment.manager reply.assignments
            (applied.1, { committed with manager := applied.2 })

/-- What a publication meets: errors of the channel and of the catalog read, the
    cluster state and the fate of the commits. -/
structure Surroundings where
  channelError : Option Bytes := none
  readError : Option Bytes := none
  placement : Bytes → Option NodeView := fun _ => none
  first : CommitRpc
  second : CommitRpc

/-- The loop of `Publish`: a second round carries the compact ids that the first one
    brought. -/
def rounds (round : Deployment → CommitRpc → Except Bytes Unit × Deployment)
    (deployment : Deployment) (first second : CommitRpc) : Except Bytes Unit × Deployment :=
  match round deployment first with
  | (.error error, failed) => (.error error, failed)
  | (.ok (), committed) =>
      if committed.manager.generation = deployment.manager.generation then (.ok (), committed)
      else round committed second

/-- `Publish`, while nobody else calls the manager. -/
def publish (deployment : Deployment) (surroundings : Surroundings) :
    Except Bytes Unit × Deployment :=
  match surroundings.channelError with
  | some error => (.error error, deployment)
  | none =>
      match deployment.reconcileGeneration surroundings.readError with
      | .error error => (.error error, deployment)
      | .ok publisher =>
          rounds
            (fun deployment rpc =>
              deployment.attempt policy num stagingFull order surroundings.placement rpc)
            { deployment with publisher := publisher } surroundings.first surroundings.second

end Publish

end Deployment

/-! ## Committed proposals -/

section Committed

open CmsNodeRegistry

variable {current : Nodes} {candidate candidate' : Catalog} {proposed : List Entry}

/-- Every proposed entry is in the candidate, with a compact id. -/
theorem addEntries_lookup (h : addEntries current candidate proposed = .ok candidate') :
    (∀ id entry, candidate.nodes.lookup id = some entry →
      candidate'.nodes.lookup id = some entry) ∧
    ∀ entry ∈ proposed, ∃ compactId,
      candidate'.nodes.lookup entry.managedView.spec.nodeId =
        some (entry.withCompactId compactId) := by
  induction proposed generalizing candidate with
  | nil =>
      cases h
      exact ⟨fun _ _ hlookup => hlookup, fun _ hmem => nomatch hmem⟩
  | cons first proposed ih =>
      obtain ⟨next, hadd, h⟩ := Checks.bind_ok h
      obtain ⟨-, hnew, compactId, counted, hassign, rfl⟩ := addEntry_cases hadd
      have hnodes : counted.nodes = candidate.nodes := by
        rcases assignCompactId_cases hassign with ⟨_, _, _, _, _, _, rfl⟩ | ⟨_, _, _, rfl⟩
        · rfl
        · exact Catalog.nodes_setNextCompactId ..
      obtain ⟨hkept, hadded⟩ := ih h
      constructor
      · intro id entry hlookup
        apply hkept
        have hne : id ≠ first.managedView.spec.nodeId := by
          rintro rfl
          exact hnew (mem_of_lookup hlookup)
        rw [AList.lookup_insert_ne hne, hnodes, hlookup]
      · intro entry hmem
        rcases List.mem_cons.mp hmem with rfl | hmem
        · exact ⟨compactId, hkept _ _ (AList.lookup_insert _)⟩
        · exact hadded entry hmem

/-- What a commit leaves: the catalog as it was, which it reports only if it is of the
    proposed generation, or the proposed catalog. -/
theorem commit_leaves (stagingFull : UInt64 → UInt64 → Bool) (order : PGManager.ScoreSort)
    (registry : CmsNodeRegistry) (store : Option Snapshot) (put : PutOutcome)
    (generation : UInt64) (proposed : List Entry) :
    let committed := registry.commit stagingFull order store put generation proposed
    (∀ reply, committed.1 = .ok reply → reply = commitReply committed.2.1) ∧
    (committed.2.1 = registry ∧
        (∀ reply, committed.1 = .ok reply → generation = registry.schedulerGeneration) ∨
      registry.propose generation proposed = .ok committed.2.1.toCatalog) := by
  simp only [CmsNodeRegistry.commit]
  split
  · exact ⟨(fun _ h => by cases h), .inl ⟨rfl, fun _ h => by cases h⟩⟩
  split
  · exact ⟨(fun _ h => by cases h), .inl ⟨rfl, fun _ h => by cases h⟩⟩
  rename_i hold
  split
  · cases hpropose : registry.propose generation proposed with
    | error error => exact ⟨(fun _ h => by cases h), .inl ⟨rfl, fun _ h => by cases h⟩⟩
    | ok catalog =>
        cases put with
        | stored =>
            refine ⟨fun reply h => ?_, .inr rfl⟩
            cases h
            rfl
        | failed error reached =>
            exact ⟨(fun _ h => by cases h), .inl ⟨rfl, fun _ h => by cases h⟩⟩
  · rename_i hnew
    refine ⟨fun reply h => ?_, .inl ⟨rfl, fun _ _ => ?_⟩⟩
    · cases h
      rfl
    · exact UInt64.le_antisymm (Std.not_lt.mp hnew) (Std.not_lt.mp hold)

end Committed

variable {policy : PowerPolicy} {num : Numerics} {manager manager' : NodePowerManager}

/-- The catalog has the proposed view of every node but for energy, with a compact id. -/
def Committed (manager : NodePowerManager) (catalog : CmsNodeRegistry.Catalog) : Prop :=
  ∀ nodeId fields, proposedFields nodeId manager = some fields →
    ∃ entry, catalog.nodes.lookup nodeId = some entry ∧ ∃ compactId : UInt32,
      withoutEnergy entry.managedView = { fields.view with compactId := compactId.toUInt64 }

theorem committed_of_propose {catalog catalog' : CmsNodeRegistry.Catalog} {generation : UInt64}
    {placement : Bytes → Option NodeView} (hkeyed : Keyed manager.nodes)
    (h : catalog.propose generation (Deployment.proposal manager placement) = .ok catalog') :
    Committed manager catalog' ∧ catalog'.schedulerGeneration = generation := by
  obtain ⟨candidate, hadd, -, rfl⟩ := CmsNodeRegistry.propose_cases h
  refine ⟨fun nodeId fields hfields => ?_, rfl⟩
  obtain ⟨node, hlookup, rfl⟩ := Option.map_eq_some_iff.mp hfields
  have hmem := List.mem_map_of_mem
    (f := fun node : NodeRecord => ({
      placementView := placement node.profile.nodeId
      managedView? := some (fillManagedNodeView node) } : CmsNodeRegistry.Entry))
    (mem_snapshot_nodes.mpr ⟨nodeId, hlookup⟩)
  obtain ⟨compactId, hentry⟩ := (addEntries_lookup hadd).2 _ hmem
  change candidate.nodes.lookup node.profile.nodeId = _ at hentry
  rw [hkeyed nodeId node hlookup] at hentry
  exact ⟨_, hentry, compactId, rfl⟩

theorem Committed.congr {catalog : CmsNodeRegistry.Catalog} (h : Committed manager catalog)
    (hsame : ∀ nodeId, proposedFields nodeId manager' = proposedFields nodeId manager) :
    Committed manager' catalog :=
  fun nodeId fields hfields => h nodeId fields (hsame nodeId ▸ hfields)

/-! ## Compact ids -/

def withCompactId (compactId : UInt32) (node : NodeRecord) : NodeRecord :=
  { node with identity := { node.identity with compactId := compactId } }

/-- Nodes that the catalog has given no compact id yet. -/
def unassigned (manager : NodePowerManager) : Nat :=
  manager.nodes.entries.countP fun entry => entry.2.identity.compactId = 0

/-- The generation can grow with every compact id that is still to come. -/
def Roomy (manager : NodePowerManager) : Prop :=
  manager.generation.toNat + unassigned manager < Saturating.largest.toNat

theorem Roomy.ne_largest (h : Roomy manager) : manager.generation ≠ Saturating.largest := by
  intro heq
  rw [Roomy, heq] at h
  omega

theorem assign_ok {nodeId : Bytes} {compactId : UInt32}
    (h : manager.callNode policy num nodeId (.assignCmsCompactId compactId) = .ok manager') :
    ∃ node, manager.nodes.lookup nodeId = some node ∧ compactId ≠ 0 ∧
      (node.identity.compactId = 0 ∨ node.identity.compactId = compactId) ∧
      manager' = manager.bumped (manager.nodes.insert nodeId (withCompactId compactId node))
        (node.identity.compactId ≠ compactId) := by
  obtain ⟨node, node', changed, hlookup, hvalid, hrun, rfl⟩ := callNode_ok h
  have hpositive : compactId ≠ 0 := by
    rintro rfl
    cases hvalid
  dsimp only [NodeCall.run, assignCmsCompactId] at hrun
  generalize (if node.profile.kind = .opticalLibrary then 0x00ffffff else 0x0000ffff : UInt32) =
    maximum at hrun
  split at hrun
  · cases hrun
  split at hrun
  · cases hrun
  rename_i himmutable
  cases hrun
  refine ⟨node, hlookup, hpositive, ?_, rfl⟩
  rw [not_and_or, not_not, not_not] at himmutable
  exact himmutable

/-- A compact id uses up the room that was kept for it. -/
theorem Roomy.assign {nodeId : Bytes} {compactId : UInt32} (h : Roomy manager)
    (hassign : manager.callNode policy num nodeId (.assignCmsCompactId compactId) = .ok manager') :
    Roomy manager' := by
  obtain ⟨node, hlookup, hpositive, hkept, rfl⟩ := assign_ok hassign
  obtain ⟨entries₁, entries₂, hentries, hinsert⟩ := entries_split hlookup
  unfold Roomy unassigned at h ⊢
  simp only [NodePowerManager.bumped, hinsert, hentries, List.countP_append, List.countP_cons,
    withCompactId, hpositive, decide_false, decide_eq_true_eq] at h ⊢
  rcases hkept with hzero | hsame
  · rw [hzero] at h ⊢
    simp only [ite_true, hpositive.symm, ne_eq, not_false_eq_true] at h ⊢
    rw [Saturating.toNat_largest] at h ⊢
    rw [UInt64.toNat_add, UInt64.toNat_one, Nat.mod_eq_of_lt (by omega)]
    simp only [Bool.false_eq_true, ite_false]
    omega
  · simp only [hsame, hpositive, ne_eq, not_true_eq_false, ite_false,
      Bool.false_eq_true] at h ⊢
    exact h

/-- What compact ids leave of the manager. -/
structure Applied (manager manager' : NodePowerManager) : Prop where
  room : Roomy manager'
  tells : Tells manager manager'
  nodes : ∀ nodeId, ∃ compactId,
    manager'.nodes.lookup nodeId = (manager.nodes.lookup nodeId).map (withCompactId compactId) ∧
    ∀ node, manager.nodes.lookup nodeId = some node → node.identity.compactId ≠ 0 →
      compactId = node.identity.compactId

theorem Applied.refl (h : Roomy manager) : Applied manager manager where
  room := h
  tells := .refl _
  nodes nodeId := by
    cases hlookup : manager.nodes.lookup nodeId with
    | none => exact ⟨0, rfl, fun _ hnone => nomatch hnone⟩
    | some node =>
        refine ⟨node.identity.compactId, rfl, fun found hfound _ => ?_⟩
        cases hfound
        rfl

theorem Applied.trans {a b c : NodePowerManager} (hab : Applied a b) (hbc : Applied b c) :
    Applied a c where
  room := hbc.room
  tells := hab.tells.trans hbc.tells
  nodes nodeId := by
    obtain ⟨first, hfirst, hfirst'⟩ := hab.nodes nodeId
    obtain ⟨second, hsecond, hsecond'⟩ := hbc.nodes nodeId
    refine ⟨second, ?_, fun node hlookup hassigned => ?_⟩
    · rw [hsecond, hfirst, Option.map_map]
      rfl
    · have hid : first = node.identity.compactId := hfirst' node hlookup hassigned
      rw [hlookup] at hfirst
      rw [hsecond' _ hfirst (hid ▸ hassigned)]
      exact hid

theorem Applied.assign {nodeId : Bytes} {compactId : UInt32} (h : Roomy manager)
    (hassign : manager.callNode policy num nodeId (.assignCmsCompactId compactId) = .ok manager') :
    Applied manager manager' where
  room := h.assign hassign
  tells := by
    have hcounts : Counts policy num manager (.node nodeId (.assignCmsCompactId compactId)) :=
      ⟨h.ne_largest, fun _ _ => trivial⟩
    exact callNode_tells hcounts hassign
  nodes id := by
    obtain ⟨node, hlookup, hpositive, hkept, rfl⟩ := assign_ok hassign
    by_cases hid : id = nodeId
    · subst hid
      refine ⟨compactId, ?_, fun found hfound hassigned => ?_⟩
      · rw [NodePowerManager.bumped, AList.lookup_insert, hlookup]
        rfl
      · cases hlookup.symm.trans hfound
        exact (hkept.resolve_left hassigned).symm
    · obtain ⟨other, hother, hother'⟩ := (Applied.refl h).nodes id
      refine ⟨other, ?_, hother'⟩
      rw [NodePowerManager.bumped, AList.lookup_insert_ne hid]
      exact hother

theorem Applied.keyed (h : Applied manager manager') (hkeyed : Keyed manager.nodes) :
    Keyed manager'.nodes := by
  intro nodeId node' hlookup'
  obtain ⟨compactId, hnodes, -⟩ := h.nodes nodeId
  rw [hlookup'] at hnodes
  obtain ⟨node, hlookup, rfl⟩ := Option.map_eq_some_iff.mp hnodes.symm
  exact hkeyed nodeId node hlookup

/-- The loop over the compact ids, and what it has done when none of them failed. -/
theorem applyAssignments_applied (policy : PowerPolicy) (num : Numerics) (h : Roomy manager)
    (assignments : List CmsNodeCompactIdAssignment) :
    let applied := Deployment.applyAssignments policy num manager assignments
    Applied manager applied.2 ∧ (applied.1 = .ok () → ∀ assignment ∈ assignments, ∀ node,
      applied.2.nodes.lookup assignment.nodeId = some node →
      node.identity.compactId = assignment.compactId) := by
  induction assignments generalizing manager with
  | nil => exact ⟨.refl h, fun _ _ hmem => nomatch hmem⟩
  | cons first assignments ih =>
      simp only [Deployment.applyAssignments]
      cases hassign : manager.callNode policy num first.nodeId
          (.assignCmsCompactId first.compactId) with
      | error error => exact ⟨.refl h, fun hfailed => nomatch hfailed⟩
      | ok next =>
          have hfirst := Applied.assign h hassign
          obtain ⟨hrest, hdone⟩ := ih hfirst.room
          refine ⟨hfirst.trans hrest, fun hok assignment hmem node hlookup => ?_⟩
          rcases List.mem_cons.mp hmem with rfl | hmem
          · -- a compact id that is not zero stays
            obtain ⟨found, -, hpositive, -, rfl⟩ := assign_ok hassign
            obtain ⟨compactId, hlater, hkept⟩ := hrest.nodes assignment.nodeId
            rw [NodePowerManager.bumped, AList.lookup_insert] at hlater hkept
            cases hlookup.symm.trans hlater
            exact hkept _ rfl hpositive
          · exact hdone hok assignment hmem node hlookup

/-! ## The invariant -/

variable {stagingFull : UInt64 → UInt64 → Bool} {order : PGManager.ScoreSort}
  {deployment deployment' : Deployment} {publisher : CmsNodeCatalogPublisher}

namespace Deployment

/-- Once the generations are reconciled the committed one is not ahead, and it is that of
    the manager only if what the manager proposes is committed. -/
def Agrees (deployment : Deployment) : Prop :=
  deployment.publisher.generationReconciled = true →
  deployment.registry.schedulerGeneration.toNat ≤
      deployment.manager.generation.toNat + deployment.publisher.generationOffset.toNat ∧
    (deployment.registry.schedulerGeneration.toNat =
        deployment.manager.generation.toNat + deployment.publisher.generationOffset.toNat →
      Committed deployment.manager deployment.registry.toCatalog)

/-- The committed views are the current ones, in what is shown of them. -/
def Current (shown : ManagedNodeView → ManagedNodeView) (deployment : Deployment) : Prop :=
  ∀ nodeId node, deployment.manager.nodes.lookup nodeId = some node →
    ∃ entry, deployment.registry.nodes.lookup nodeId = some entry ∧
      shown entry.managedView = shown (fillManagedNodeView node)

theorem Agrees.tells (h : deployment.Agrees) (htells : Tells deployment.manager manager') :
    { deployment with manager := manager' }.Agrees := by
  intro hreconciled
  obtain ⟨hle, hcommitted⟩ := h hreconciled
  have hgrown := UInt64.le_iff_toNat_le.mp htells.le
  dsimp only
  refine ⟨by omega, fun heq => ?_⟩
  refine (hcommitted (by omega)).congr (htells.same ?_)
  rw [UInt64.le_iff_toNat_le]
  omega

/-- The first publication puts the generations above the committed one. -/
theorem reconcileGeneration_ok {readError : Option Bytes} (h : deployment.Agrees)
    (hok : deployment.reconcileGeneration readError = .ok publisher) :
    publisher.generationReconciled = true ∧ { deployment with publisher := publisher }.Agrees := by
  unfold reconcileGeneration at hok
  split at hok
  · rename_i hreconciled
    cases hok
    exact ⟨hreconciled, h⟩
  cases readError with
  | some error => cases hok
  | none =>
      obtain ⟨_, -, hok⟩ := Checks.bind_ok hok
      dsimp only at hok
      split at hok
      · rename_i hahead
        cases hok
        rw [gt_iff_lt, UInt64.lt_iff_toNat_lt] at hahead
        refine ⟨rfl, fun _ => ⟨?_, fun heq => ?_⟩⟩ <;> dsimp only at *
        · omega
        · omega
      · rename_i hbehind
        split at hok
        · cases hok
        · rename_i hexhausted
          cases hok
          have hle : deployment.manager.generation ≤ deployment.registry.schedulerGeneration :=
            Std.not_lt.mp hbehind
          have hdifference := UInt64.toNat_sub_of_le _ _ hle
          have hle' := UInt64.le_iff_toNat_le.mp hle
          have hlt := deployment.registry.schedulerGeneration.toNat_lt
          have hne : deployment.registry.schedulerGeneration.toNat ≠ Saturating.largest.toNat :=
            fun heq => hexhausted (UInt64.toNat_inj.mp heq)
          rw [Saturating.toNat_largest] at hne
          have hoffset : (deployment.registry.schedulerGeneration -
              deployment.manager.generation + 1).toNat =
              deployment.registry.schedulerGeneration.toNat -
                deployment.manager.generation.toNat + 1 := by
            rw [UInt64.toNat_add, hdifference, UInt64.toNat_one, Nat.mod_eq_of_lt (by omega)]
          refine ⟨rfl, fun _ => ⟨?_, fun heq => ?_⟩⟩ <;> dsimp only at *
          · omega
          · omega

/-- The proposed generation does not wrap around. -/
theorem toNat_proposed {source offset : UInt64}
    (h : ¬source.toNat + offset.toNat > Saturating.largest.toNat) :
    (source + offset).toNat = source.toNat + offset.toNat := by
  rw [Saturating.toNat_largest] at h
  rw [UInt64.toNat_add, Nat.mod_eq_of_lt (by omega)]

/-- The views are current once the compact ids of the committed catalog are applied. -/
theorem current_of_applied {catalog : CmsNodeRegistry} (hcommitted : Committed manager catalog.toCatalog)
    (happlied : Applied manager manager')
    (hdone : ∀ assignment ∈ catalog.commitReply.assignments, ∀ node,
      manager'.nodes.lookup assignment.nodeId = some node →
      node.identity.compactId = assignment.compactId)
    (hmanager : deployment.manager = manager') (hregistry : deployment.registry = catalog) :
    deployment.Current withoutEnergy := by
  subst hmanager hregistry
  intro nodeId node' hlookup'
  obtain ⟨compactId, hnodes, -⟩ := happlied.nodes nodeId
  rw [hlookup'] at hnodes
  obtain ⟨node, hlookup, rfl⟩ := Option.map_eq_some_iff.mp hnodes.symm
  obtain ⟨entry, hentry, given, hview⟩ := hcommitted nodeId (catalogFields node)
    (by rw [proposedFields, hlookup, Option.map_some])
  have hassignment : (⟨nodeId, entry.managedView.compactId.toUInt32⟩ : CmsNodeCompactIdAssignment) ∈
      deployment.registry.commitReply.assignments :=
    List.mem_map.mpr ⟨⟨nodeId, entry⟩, CmsNodeRegistry.mem_ordered.mpr hentry, rfl⟩
  have hgiven : compactId = given := by
    have hequal := hdone _ hassignment _ hlookup'
    have hcompact : entry.managedView.compactId = given.toUInt64 :=
      congrArg (fun view : ManagedNodeView => view.compactId) hview
    rw [hcompact] at hequal
    exact hequal.trans (UInt32.toUInt32_toUInt64 given)
  refine ⟨entry, hentry, ?_⟩
  rw [hview, ← hgiven]
  rfl

/-- What holds between the rounds of a publication. -/
structure Publishing (deployment : Deployment) : Prop where
  keyed : Keyed deployment.manager.nodes
  room : Roomy deployment.manager
  reconciled : deployment.publisher.generationReconciled = true
  agrees : deployment.Agrees

/-- A commit keeps what holds between the rounds. If it succeeds, what was proposed is
    committed. -/
theorem Publishing.commit (stagingFull : UInt64 → UInt64 → Bool) (order : PGManager.ScoreSort)
    (h : deployment.Publishing) (placement : Bytes → Option NodeView)
    (put : CmsNodeRegistry.PutOutcome)
    (hfits : ¬deployment.manager.generation.toNat + deployment.publisher.generationOffset.toNat >
      Saturating.largest.toNat) :
    let committed := deployment.registry.commit stagingFull order deployment.store put
      (deployment.manager.generation + deployment.publisher.generationOffset)
      (proposal deployment.manager placement)
    { deployment with registry := committed.2.1, store := committed.2.2 }.Publishing ∧
      ∀ reply, committed.1 = .ok reply → reply = committed.2.1.commitReply ∧
        Committed deployment.manager committed.2.1.toCatalog := by
  intro committed
  have hproposed := toNat_proposed hfits
  obtain ⟨hreply, ⟨hsame, hgeneration⟩ | hpropose⟩ := commit_leaves stagingFull order
    deployment.registry deployment.store put
    (deployment.manager.generation + deployment.publisher.generationOffset)
    (proposal deployment.manager placement)
  · -- a commit that does nothing succeeds at the committed generation only
    constructor
    · refine ⟨h.keyed, h.room, h.reconciled, ?_⟩
      rw [show committed.2.1 = deployment.registry from hsame]
      exact h.agrees
    · intro reply hok
      refine ⟨hreply reply hok, ?_⟩
      rw [show committed.2.1 = deployment.registry from hsame]
      apply (h.agrees h.reconciled).2
      rw [← hgeneration reply hok, hproposed]
  · obtain ⟨hcommitted, hgeneration⟩ := committed_of_propose h.keyed hpropose
    constructor
    · refine ⟨h.keyed, h.room, h.reconciled, fun _ => ⟨?_, fun _ => hcommitted⟩⟩
      exact Nat.le_of_eq ((congrArg UInt64.toNat hgeneration).trans hproposed)
    · exact fun reply hok => ⟨hreply reply hok, hcommitted⟩

/-- A round keeps what holds between the rounds, and leaves the views current if it
    succeeds. -/
theorem Publishing.attempt {placement : Bytes → Option NodeView} {rpc : CommitRpc}
    {answer : Except Bytes Unit} (h : deployment.Publishing)
    (hattempt : deployment.attempt policy num stagingFull order placement rpc =
      (answer, deployment')) :
    deployment'.Publishing ∧ (answer = .ok () → deployment'.Current withoutEnergy) := by
  unfold Deployment.attempt at hattempt
  dsimp only at hattempt
  by_cases hfits : deployment.manager.generation.toNat +
      deployment.publisher.generationOffset.toNat > Saturating.largest.toNat
  · rw [if_pos hfits] at hattempt
    cases hattempt
    exact ⟨h, fun hfailed => nomatch hfailed⟩
  rw [if_neg hfits] at hattempt
  cases rpc with
  | lost error =>
      cases hattempt
      exact ⟨h, fun hfailed => nomatch hfailed⟩
  | replyLost put error =>
      cases hattempt
      exact ⟨(h.commit stagingFull order placement put hfits).1, fun hfailed => nomatch hfailed⟩
  | answered put =>
      have hcommit := h.commit stagingFull order placement put hfits
      dsimp only at hcommit hattempt
      generalize deployment.registry.commit stagingFull order deployment.store put
        (deployment.manager.generation + deployment.publisher.generationOffset)
        (proposal deployment.manager placement) = committed at hcommit hattempt
      obtain ⟨reply, registry, store⟩ := committed
      obtain ⟨hpublishing, hreply⟩ := hcommit
      dsimp only at hpublishing hreply hattempt
      cases reply with
      | error error =>
          cases hattempt
          exact ⟨hpublishing, fun hfailed => nomatch hfailed⟩
      | ok reply =>
          obtain ⟨rfl, hcommitted⟩ := hreply reply rfl
          obtain ⟨happlied, hdone⟩ := applyAssignments_applied policy num h.room
            registry.commitReply.assignments
          cases hattempt
          constructor
          · exact ⟨happlied.keyed h.keyed, happlied.room, h.reconciled,
              hpublishing.agrees.tells happlied.tells⟩
          · exact fun hsuccess => current_of_applied hcommitted happlied (hdone hsuccess) rfl rfl

theorem Publishing.rounds {round : Deployment → CommitRpc → Except Bytes Unit × Deployment}
    {first second : CommitRpc} {result : Except Bytes Unit × Deployment} (h : deployment.Publishing)
    (hround : ∀ d rpc, d.Publishing →
      (round d rpc).2.Publishing ∧ ((round d rpc).1 = .ok () → (round d rpc).2.Current withoutEnergy))
    (hresult : result = rounds round deployment first second) :
    result.2.Publishing ∧ (result.1 = .ok () → result.2.Current withoutEnergy) := by
  obtain ⟨hfirst, hcurrent⟩ := hround deployment first h
  rw [hresult]
  unfold Deployment.rounds
  split
  · rename_i heq
    rw [heq] at hfirst
    exact ⟨hfirst, fun hfailed => nomatch hfailed⟩
  · rename_i heq
    rw [heq] at hfirst hcurrent
    split
    · exact ⟨hfirst, hcurrent⟩
    · exact hround _ second hfirst

theorem publish_cases (policy : PowerPolicy) (num : Numerics)
    (stagingFull : UInt64 → UInt64 → Bool) (order : PGManager.ScoreSort) (deployment : Deployment)
    (surroundings : Surroundings) :
    (∃ error, deployment.publish policy num stagingFull order surroundings =
      (.error error, deployment)) ∨
    ∃ publisher, deployment.reconcileGeneration surroundings.readError = .ok publisher ∧
      deployment.publish policy num stagingFull order surroundings =
        rounds
          (fun deployment rpc =>
            deployment.attempt policy num stagingFull order surroundings.placement rpc)
          { deployment with publisher := publisher } surroundings.first surroundings.second := by
  unfold Deployment.publish
  split
  · exact .inl ⟨_, rfl⟩
  · split
    · exact .inl ⟨_, rfl⟩
    · rename_i publisher hreconcile
      exact .inr ⟨publisher, hreconcile, rfl⟩

/-- A publication keeps the invariant, and leaves the views current if it succeeds. -/
theorem publish_current (policy : PowerPolicy) (num : Numerics)
    (stagingFull : UInt64 → UInt64 → Bool) (order : PGManager.ScoreSort)
    (hkeyed : Keyed deployment.manager.nodes) (hroom : Roomy deployment.manager)
    (hagrees : deployment.Agrees) (surroundings : Surroundings) :
    Keyed (deployment.publish policy num stagingFull order surroundings).2.manager.nodes ∧
      (deployment.publish policy num stagingFull order surroundings).2.Agrees ∧
      ((deployment.publish policy num stagingFull order surroundings).1 = .ok () →
        (deployment.publish policy num stagingFull order surroundings).2.Current withoutEnergy) := by
  rcases publish_cases policy num stagingFull order deployment surroundings with
    ⟨error, hpublish⟩ | ⟨publisher, hreconcile, hpublish⟩
  · rw [hpublish]
    exact ⟨hkeyed, hagrees, fun hfailed => nomatch hfailed⟩
  · obtain ⟨hreconciled, hagrees'⟩ := reconcileGeneration_ok hagrees hreconcile
    have hpublishing : { deployment with publisher := publisher }.Publishing :=
      ⟨hkeyed, hroom, hreconciled, hagrees'⟩
    have hround : ∀ d rpc, d.Publishing →
        (attempt policy num stagingFull order d surroundings.placement rpc).2.Publishing ∧
          ((attempt policy num stagingFull order d surroundings.placement rpc).1 = .ok () →
            (attempt policy num stagingFull order d surroundings.placement rpc).2.Current
              withoutEnergy) :=
      fun d rpc hpublishing => hpublishing.attempt Prod.mk.eta.symm
    obtain ⟨hpublished, hcurrent⟩ := hpublishing.rounds hround hpublish
    exact ⟨hpublished.keyed, hpublished.agrees, hcurrent⟩

end Deployment

/-! ## Runs of the deployment -/

inductive DeploymentCall
  | manager (call : ManagerCall)
  | publish (surroundings : Deployment.Surroundings)

namespace Deployment

section Runs

variable (policy : PowerPolicy) (num : Numerics) (stagingFull : UInt64 → UInt64 → Bool)
  (order : PGManager.ScoreSort)

/-- A scheduler that starts again has a new publisher. -/
def publisherAfter (publisher : CmsNodeCatalogPublisher) : ManagerCall → CmsNodeCatalogPublisher
  | .restart => {}
  | _ => publisher

def Serve (deployment : Deployment) (call : DeploymentCall) (deployment' : Deployment) : Prop :=
  match call with
  | .manager call => ∃ manager', deployment.manager.Serve policy num call manager' ∧
      deployment' = { deployment with
        manager := manager'
        publisher := publisherAfter deployment.publisher call }
  | .publish surroundings =>
      deployment' = (deployment.publish policy num stagingFull order surroundings).2

/-- The catalog does not lag behind the scheduler in what is shown of the views,
    whatever was committed before the scheduler started. -/
structure CatalogFollows (shown : ManagedNodeView → ManagedNodeView)
    (ok : Deployment → DeploymentCall → Prop) : Prop where
  /-- a change of what is proposed makes a new generation -/
  generation : ∀ registry store hist deployment call manager' nodeId,
    Serves (Serve policy num stagingFull order) ok ⟨{}, {}, registry, store⟩ hist deployment →
    ok deployment (.manager call) →
    deployment.manager.Serve policy num call manager' →
    proposedFields nodeId manager' ≠ proposedFields nodeId deployment.manager →
    deployment.manager.generation < manager'.generation
  /-- the views are current after a publication that succeeds -/
  published : ∀ registry store hist deployment surroundings,
    Serves (Serve policy num stagingFull order) ok ⟨{}, {}, registry, store⟩ hist deployment →
    ok deployment (.publish surroundings) →
    (deployment.publish policy num stagingFull order surroundings).1 = .ok () →
    (deployment.publish policy num stagingFull order surroundings).2.Current shown

/-- No step of the manager changes what is proposed, energy apart, without a new
    generation, and the generation does not run out. -/
def Counted (deployment : Deployment) : DeploymentCall → Prop
  | .manager call => Counts policy num deployment.manager call
  | .publish _ => Roomy deployment.manager

end Runs

/-- What holds in every run whose calls count. -/
theorem follows_serves {registry : CmsNodeRegistry} {store : Option CmsNodeRegistry.Snapshot}
    {hist : List (Served Deployment DeploymentCall)}
    (h : Serves (Serve policy num stagingFull order) (Counted policy num)
      ⟨{}, {}, registry, store⟩ hist deployment) :
    Keyed deployment.manager.nodes ∧ deployment.Agrees := by
  refine h.invariant (I := fun d => Keyed d.manager.nodes ∧ d.Agrees) ?_ ?_
  · rintro d call d' ⟨hkeyed, hagrees⟩ hok hserve
    cases call with
    | manager call =>
        obtain ⟨manager', hserve, rfl⟩ := hserve
        refine ⟨hkeyed.serve hserve, ?_⟩
        have htells := hagrees.tells (serve_tells hkeyed hok hserve)
        cases call with
        | restart => exact fun hreconciled => nomatch hreconciled
        | _ => exact htells
    | publish surroundings =>
        obtain rfl : d' = _ := hserve
        obtain ⟨hkeyed', hagrees', -⟩ :=
          publish_current policy num stagingFull order hkeyed hok hagrees surroundings
        exact ⟨hkeyed', hagrees'⟩
  · exact ⟨(fun _ _ hlookup => nomatch hlookup), fun hreconciled => nomatch hreconciled⟩

end Deployment

/-- The catalog follows the scheduler in all but energy, as long as the calls count. -/
theorem catalog_follows (policy : PowerPolicy) (num : Numerics)
    (stagingFull : UInt64 → UInt64 → Bool) (order : PGManager.ScoreSort) :
    Deployment.CatalogFollows policy num stagingFull order withoutEnergy
      (Deployment.Counted policy num) where
  generation := by
    intro registry store hist deployment call manager' nodeId hserves hok hserve hchanged
    obtain ⟨hkeyed, -⟩ := Deployment.follows_serves hserves
    have htells := serve_tells hkeyed hok hserve
    apply Std.lt_of_le_of_ne htells.le
    intro hsame
    exact hchanged (htells.same (hsame ▸ Std.le_refl _) nodeId)
  published := by
    intro registry store hist deployment surroundings hserves hok hsuccess
    obtain ⟨hkeyed, hagrees⟩ := Deployment.follows_serves hserves
    exact (Deployment.publish_current policy num stagingFull order hkeyed hok hagrees
      surroundings).2.2 hsuccess

/-! ## A deployment of one node -/

def emptyRegistry : CmsNodeRegistry where
  pgManager := .create {}

def registeredDeployment : Deployment where
  manager := NodePowerManager.after { standbyBeforeOff := standby_before_off } plainNumerics {}
    (.registerNode simulatedDisk 0 0)
  registry := emptyRegistry

def answering : Deployment.Surroundings where
  first := .answered .stored
  second := .answered .stored

theorem serves_registeredDeployment {ok : Deployment → DeploymentCall → Prop}
    (hok : ok { registry := emptyRegistry } (.manager (.registerNode simulatedDisk 0 0))) :
    Serves (Deployment.Serve {} plainNumerics (fun _ _ => false) PGManager.insertionOrder) ok
      ⟨{}, {}, emptyRegistry, none⟩
      [⟨⟨{}, {}, emptyRegistry, none⟩, .manager (.registerNode simulatedDisk 0 0),
        registeredDeployment⟩] registeredDeployment :=
  .snoc .nil hok ⟨_, NodePowerManager.serve_after trivial, rfl⟩

theorem catalog_follows_publish :
    (registeredDeployment.publish {} plainNumerics (fun _ _ => false) PGManager.insertionOrder
        answering).1 = .ok () ∧
      (registeredDeployment.publish {} plainNumerics (fun _ _ => false) PGManager.insertionOrder
        answering).2.Current withoutEnergy := by
  have hsuccess : (registeredDeployment.publish {} plainNumerics (fun _ _ => false)
      PGManager.insertionOrder answering).1 = .ok () := by decide +kernel
  refine ⟨hsuccess, ?_⟩
  apply (catalog_follows {} plainNumerics (fun _ _ => false) PGManager.insertionOrder).published
    emptyRegistry none _ registeredDeployment answering
  · exact serves_registeredDeployment ⟨by decide, trivial⟩
  · change _ < _
    decide +kernel
  · exact hsuccess

def activeDeployment : Deployment :=
  { registeredDeployment with
    manager := registeredDeployment.manager.after { standbyBeforeOff := standby_before_off }
      plainNumerics (.node simulatedDisk.nodeId (.activateNode 1)) }

theorem serves_activeDeployment {ok : Deployment → DeploymentCall → Prop}
    (hregister : ok { registry := emptyRegistry } (.manager (.registerNode simulatedDisk 0 0)))
    (hactivate : ok registeredDeployment (.manager (.node simulatedDisk.nodeId (.activateNode 1)))) :
    ∃ hist, Serves (Deployment.Serve {} plainNumerics (fun _ _ => false) PGManager.insertionOrder) ok
      ⟨{}, {}, emptyRegistry, none⟩ hist activeDeployment :=
  ⟨_, (serves_registeredDeployment hregister).snoc hactivate
    ⟨_, NodePowerManager.serve_after trivial, rfl⟩⟩

/-- The node is published, and four milliseconds later its energy has grown. -/
def publishedDeployment : Deployment :=
  (activeDeployment.publish { standbyBeforeOff := standby_before_off } plainNumerics
    (fun _ _ => false) PGManager.insertionOrder answering).2

def tickedDeployment : Deployment :=
  { publishedDeployment with
    manager := publishedDeployment.manager.after { standbyBeforeOff := standby_before_off }
      plainNumerics (.tick [simulatedDisk.nodeId] .all 5) }

theorem serves_tickedDeployment :
    ∃ hist, Serves (Deployment.Serve {} plainNumerics (fun _ _ => false) PGManager.insertionOrder)
      (Deployment.Counted {} plainNumerics) ⟨{}, {}, emptyRegistry, none⟩ hist tickedDeployment := by
  have hactivate : Deployment.Counted {} plainNumerics registeredDeployment
      (.manager (.node simulatedDisk.nodeId (.activateNode 1))) := ⟨by decide +kernel, fun _ _ => trivial⟩
  obtain ⟨hist, hactive⟩ := serves_activeDeployment ⟨by decide, trivial⟩ hactivate
  have hpublish : Deployment.Counted {} plainNumerics activeDeployment (.publish answering) := by
    change _ < _
    decide +kernel
  have hconfirmed : ∀ entry ∈ publishedDeployment.manager.nodes.entries,
      entry.2.profile.executionMode = .physical ∨
        entry.2.actuatedPowerLevel = entry.2.powerLevel := by
    decide +kernel
  have htick : Deployment.Counted {} plainNumerics publishedDeployment
      (.manager (.tick [simulatedDisk.nodeId] .all 5)) :=
    ⟨by decide +kernel, fun _ _ hlookup _ => hconfirmed _ (AList.mem_lookup_iff.mp hlookup)⟩
  have hkeys : publishedDeployment.manager.nodes.keys = [simulatedDisk.nodeId] := by decide +kernel
  have hvisits : publishedDeployment.manager.Visits (.tick [simulatedDisk.nodeId] .all 5) :=
    hkeys ▸ enumerates_keys _
  exact ⟨_, (hactive.snoc hpublish rfl).snoc htick ⟨_, NodePowerManager.serve_after hvisits, rfl⟩⟩

/-- Setting the transition that the node has already lets it power off unnoticed. And
    where every call counts, the energy that is committed is not the current one. -/
theorem catalog_lags :
    (∃ hist deployment manager',
      Serves (Deployment.Serve {} plainNumerics (fun _ _ => false) PGManager.insertionOrder) Any
        ⟨{}, {}, emptyRegistry, none⟩ hist deployment ∧
      deployment.manager.Serve {} plainNumerics
        (.node simulatedDisk.nodeId (.setTransitionState .stable 700000)) manager' ∧
      (deployment.manager.nodes.lookup simulatedDisk.nodeId).map (fun node => node.powerLevel) =
        some .medium ∧
      (manager'.nodes.lookup simulatedDisk.nodeId).map (fun node => node.powerLevel) = some .off ∧
      manager'.generation = deployment.manager.generation) ∧
    ∃ hist deployment,
      Serves (Deployment.Serve {} plainNumerics (fun _ _ => false) PGManager.insertionOrder)
        (Deployment.Counted {} plainNumerics) ⟨{}, {}, emptyRegistry, none⟩ hist deployment ∧
      (deployment.publish {} plainNumerics (fun _ _ => false) PGManager.insertionOrder
        answering).1 = .ok () ∧
      ¬ (deployment.publish {} plainNumerics (fun _ _ => false) PGManager.insertionOrder
        answering).2.Current id := by
  constructor
  · obtain ⟨hist, hactive⟩ := @serves_activeDeployment Any trivial trivial
    refine ⟨hist, activeDeployment, _, hactive, NodePowerManager.serve_after trivial, ?_, ?_, ?_⟩
    · decide +kernel
    · decide +kernel
    · decide +kernel
  · obtain ⟨hist, hticked⟩ := serves_tickedDeployment
    refine ⟨hist, tickedDeployment, hticked, by decide +kernel, fun hcurrent => ?_⟩
    have henergy : ((tickedDeployment.publish {} plainNumerics (fun _ _ => false)
        PGManager.insertionOrder answering).2.manager.nodes.lookup simulatedDisk.nodeId).map
          (fun node => node.energyMicrojoules) = some 8 := by
      decide +kernel
    have hcommitted : ((tickedDeployment.publish {} plainNumerics (fun _ _ => false)
        PGManager.insertionOrder answering).2.registry.nodes.lookup simulatedDisk.nodeId).map
          (fun entry => entry.managedView.energyMicrojoules) = some 0 := by
      decide +kernel
    obtain ⟨node, hlookup, hnode⟩ := Option.map_eq_some_iff.mp henergy
    obtain ⟨entry, hentry, hview⟩ := hcurrent _ node hlookup
    rw [hentry] at hcommitted
    have hsame : entry.managedView.energyMicrojoules = node.energyMicrojoules :=
      congrArg (fun view : ManagedNodeView => view.energyMicrojoules) hview
    have hzero : entry.managedView.energyMicrojoules = 0 := Option.some.inj hcommitted
    rw [hnode, hzero] at hsame
    exact absurd hsame (by decide)

end Zb.Scheduler
