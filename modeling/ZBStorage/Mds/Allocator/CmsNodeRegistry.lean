-- SUMMARY: The catalog of nodes: admission for writes, commits of proposals, and restores from a snapshot.
import Mathlib.Data.List.Sort
import ZBStorage.Mds.Allocator.PGManager
import ZBStorage.Mds.Messages

/-!
# The catalog of nodes

`CmsNodeRegistry.cpp`. The scheduler proposes a catalog of nodes; a commit checks
the whole proposal against the committed catalog, gives new nodes their compact
ids, persists the result as one snapshot and only then replaces the catalog and
publishes the placement. A restart reads the last snapshot back.
-/

namespace Zb.Mds

open Zb.Rpc Bytes

/-- The message `CmsNodeCatalogEntry`. -/
structure CmsNodeRegistry.Entry where
  placementView : Option NodeView := none
  managedView? : Option ManagedNodeView := none
  deriving DecidableEq

def CmsNodeRegistry.Entry.managedView (entry : CmsNodeRegistry.Entry) : ManagedNodeView :=
  entry.managedView?.getD {}

abbrev CmsNodeRegistry.Nodes := AList (fun _ : Bytes => CmsNodeRegistry.Entry)

/-- The part of the registry that its snapshot holds. -/
structure CmsNodeRegistry.Catalog where
  nodes : CmsNodeRegistry.Nodes := ∅
  cmsGeneration : UInt64 := 1
  schedulerGeneration : UInt64 := 0
  nextStorageCompactId : UInt32 := 1
  nextOpticalCompactId : UInt32 := 1

/-- The registry with the node cache and the placement manager it publishes to. -/
structure CmsNodeRegistry extends CmsNodeRegistry.Catalog where
  cache : List NodeInfo := []
  pgManager : PGManager

namespace CmsNodeRegistry

/-! ## Admission -/

def isDataDevice (kind : ManagedDeviceKind) : Bool := kind = .hdd || kind = .ssd

def isRetired (node : ManagedNodeView) : Bool := node.lifecycle = .retired

/-- The node powers its devices. -/
def running (level : ManagedPowerLevel) : Bool := level = .medium || level = .peak

/-- An optical library that takes archives although it takes no replicas. -/
def opticalArchive (node : ManagedNodeView) : Bool :=
  node.spec.kind = .opticalLibrary && node.opticalLibrary.telemetryVersion = 1 &&
  node.opticalLibrary.acceptsArchiveWrites

section Admission

/- The quotient of the used and the whole staging area, in `long double`, is at
   least 0.80. -/
variable (stagingFull : UInt64 → UInt64 → Bool)

/-- Nodes of the new telemetry must have reported everything, and recently. -/
def opticalTelemetryRefuses (node : ManagedNodeView) : Bool :=
  let optical := node.opticalLibrary
  optical.telemetryVersion ≠ 0 &&
  (!optical.acceptsArchiveWrites || !optical.observed || !optical.inventoryValid ||
    !optical.stagingValid || !optical.backgroundValid || !node.readiness.observed ||
    !node.readiness.initializationComplete || !node.readiness.metadataReady ||
    !node.readiness.inventoryReady || node.lastHeartbeatMs > optical.validUntilMs)

def opticalRefuses (node : ManagedNodeView) : Bool :=
  let optical := node.opticalLibrary
  node.spec.kind = .opticalLibrary &&
  (opticalTelemetryRefuses node ||
    (optical.stagingCapacityBytes > 0 &&
      stagingFull optical.stagingUsedBytes optical.stagingCapacityBytes))

/-- The device holds the data of nodes of this kind. -/
def holdsData (kind : ManagedNodeKind) (device : ManagedDeviceInventory) : Bool :=
  isDataDevice device.kind || (kind = .opticalLibrary && device.kind = .disc)

def isWriteAllocatable (node : ManagedNodeView) : Bool :=
  if node.spec?.isNone || (!node.spec.participatesInPlacement && !opticalArchive node) ||
      node.lifecycle ≠ .working || node.health ≠ .healthy ||
      node.administrativeState ≠ .enabled || node.serviceMode ≠ .readWrite ||
      !running node.powerLevel then false
  else if node.spec.kind = .metadata then false
  else if opticalRefuses stagingFull node then false
  else if node.spec.executionMode = .physical && !running node.actuatedPowerLevel then false
  else node.inventoryDevices.any fun device =>
    device.isHealthy && device.freeBytes > 0 && holdsData node.spec.kind device

def diskOf (device : ManagedDeviceInventory) : DiskInfo where
  diskId := device.deviceId
  capacityBytes := device.capacityBytes
  freeBytes := device.freeBytes
  isHealthy := device.isHealthy

def buildNodeInfo (entry : Entry) : NodeInfo :=
  let managed := entry.managedView
  let disks := (managed.inventoryDevices.filter (holdsData managed.spec.kind)).map diskOf
  { nodeId := managed.spec.nodeId
    address := if managed.serviceAddress = [] then (entry.placementView.getD {}).address
      else managed.serviceAddress
    groupId := managed.spec.nodeId
    epoch := 1
    isPrimary := true
    syncReady := true
    virtualNodeCount := max 1 managed.spec.logicalNodeCount
    type :=
      if managed.spec.kind = .opticalLibrary then .optical
      else if managed.spec.executionMode = .virtual then .virtual
      else .real
    allocatable := isWriteAllocatable stagingFull managed && disks ≠ []
    disks := disks }

end Admission

/-! ## Publication -/

/-- The entries in the order of their node ids. -/
def ordered (nodes : Nodes) : List (Sigma fun _ : Bytes => Entry) :=
  nodes.entries.insertionSort fun a b => a.1 ≤ b.1

section Publication

variable (stagingFull : UInt64 → UInt64 → Bool) (order : PGManager.ScoreSort)

def placementNodes (nodes : Nodes) : List NodeInfo :=
  (ordered nodes).map fun item => buildNodeInfo stagingFull item.2

/-- `PublishPlacementLocked`: the cache takes every catalog, the placement manager
    only one with a node to place on, and its errors are ignored. -/
def publishPlacement (registry : CmsNodeRegistry) : CmsNodeRegistry :=
  let nodes := placementNodes stagingFull registry.nodes
  let hasAllocatableDiskNode := nodes.any fun node => node.allocatable && node.type ≠ .optical
  let rebuilt := registry.pgManager.rebuildFromNodes order nodes registry.cmsGeneration
  { registry with
    cache := nodes
    pgManager :=
      if hasAllocatableDiskNode then rebuilt.toOption.getD registry.pgManager
      else registry.pgManager }

end Publication

/-! ## Proposals -/

/-- The two spaces of compact ids: those of optical libraries, and the others. -/
def Entry.optical (entry : Entry) : Bool := entry.managedView.spec.kind = .opticalLibrary

def maximumCompactId (optical : Bool) : UInt32 := if optical then 0x00ffffff else 0x0000ffff

/-- A node without a generation is of the first one. -/
def Entry.generation (entry : Entry) : UInt64 :=
  let generation := entry.managedView.spec.instanceGeneration
  if generation = 0 then 1 else generation

def Entry.named (entry : Entry) : Bool :=
  entry.managedView?.isSome && entry.managedView.spec?.isSome && entry.managedView.spec.nodeId ≠ []

def Entry.withCompactId (entry : Entry) (compactId : UInt32) : Entry :=
  { entry with managedView? := some { entry.managedView with compactId := compactId.toUInt64 } }

def Catalog.nextCompactId (catalog : Catalog) (optical : Bool) : UInt32 :=
  if optical then catalog.nextOpticalCompactId else catalog.nextStorageCompactId

def Catalog.setNextCompactId (catalog : Catalog) (optical : Bool) (next : UInt32) : Catalog :=
  if optical then { catalog with nextOpticalCompactId := next }
  else { catalog with nextStorageCompactId := next }

/-- The compact id of a proposed node: the one it has, or the next of its space. -/
def assignCompactId (current : Nodes) (candidate : Catalog) (entry : Entry) :
    Except Bytes (UInt32 × Catalog) :=
  let nodeId := entry.managedView.spec.nodeId
  match current.lookup nodeId with
  | some existing =>
      if existing.managedView.spec.kind ≠ entry.managedView.spec.kind then
        .error (ofAscii "CMS node kind cannot change: " ++ nodeId)
      else if existing.generation ≠ entry.generation then
        .error (ofAscii "CMS instance generation cannot change for an existing node: " ++ nodeId)
      else if isRetired existing.managedView && !isRetired entry.managedView then
        .error (ofAscii "retired CMS node cannot rejoin: " ++ nodeId)
      else .ok (existing.managedView.compactId.toUInt32, candidate)
  | none =>
      let next := candidate.nextCompactId entry.optical
      if next > maximumCompactId entry.optical then
        .error (ofAscii "CMS compact identifier space exhausted")
      else .ok (next, candidate.setNextCompactId entry.optical (next + 1))

/-- The placement view names another node. -/
def Entry.misplaced (entry : Entry) : Bool :=
  entry.placementView.any fun placement =>
    placement.nodeId ≠ [] && placement.nodeId ≠ entry.managedView.spec.nodeId

/-- One round of the loop over the proposal. -/
def addEntry (current : Nodes) (candidate : Catalog) (entry : Entry) : Except Bytes Catalog :=
  let nodeId := entry.managedView.spec.nodeId
  if !entry.named then .error (ofAscii "CMS catalog entry is missing managed node identity")
  else if entry.misplaced then .error (ofAscii "placement and managed node identities differ")
  else if nodeId ∈ candidate.nodes then
    .error (ofAscii "duplicate node in CMS catalog proposal: " ++ nodeId)
  else do
    let (compactId, candidate) ← assignCompactId current candidate entry
    return { candidate with
      nodes := candidate.nodes.insert nodeId (entry.withCompactId compactId) }

def addEntries (current : Nodes) : Catalog → List Entry → Except Bytes Catalog
  | candidate, [] => .ok candidate
  | candidate, entry :: proposed => do
      let candidate ← addEntry current candidate entry
      addEntries current candidate proposed

/-- The catalog that a proposal asks for, with the next generations. -/
def Catalog.propose (catalog : Catalog) (schedulerGeneration : UInt64) (proposed : List Entry) :
    Except Bytes Catalog := do
  let candidate ← addEntries catalog.nodes { catalog with nodes := ∅ } proposed
  match (ordered catalog.nodes).find? fun item => item.1 ∉ candidate.nodes with
  | some current =>
      .error (ofAscii "CMS catalog proposal omitted existing tombstone/member: " ++ current.1)
  | none =>
      return { candidate with
        cmsGeneration := catalog.cmsGeneration + 1
        schedulerGeneration := schedulerGeneration }

/-! ## Snapshots -/

/-- The message `CmsNodeCatalogSnapshot`. -/
structure Snapshot where
  formatVersion : UInt32 := 0
  cmsGeneration : UInt64 := 0
  schedulerGeneration : UInt64 := 0
  nextStorageCompactId : UInt32 := 0
  nextOpticalCompactId : UInt32 := 0
  nodes : List Entry := []
  deriving DecidableEq

def Catalog.snapshot (catalog : Catalog) : Snapshot where
  formatVersion := 1
  cmsGeneration := catalog.cmsGeneration
  schedulerGeneration := catalog.schedulerGeneration
  nextStorageCompactId := catalog.nextStorageCompactId
  nextOpticalCompactId := catalog.nextOpticalCompactId
  nodes := (ordered catalog.nodes).map fun item => item.2

/-- What becomes of a `Put`: a failed one may have reached the store all the same. -/
inductive PutOutcome
  | stored
  | failed (error : Bytes) (reached : Bool)

def persist (store : Option Snapshot) (snapshot : Snapshot) :
    PutOutcome → Except Bytes Unit × Option Snapshot
  | .stored => (.ok (), some snapshot)
  | .failed error reached => (.error error, if reached then some snapshot else store)

/-- The ids found while a snapshot is read, by space. -/
structure Restoring where
  catalog : Catalog
  storageIds : List UInt64 := []
  opticalIds : List UInt64 := []

def Restoring.ids (restoring : Restoring) (optical : Bool) : List UInt64 :=
  if optical then restoring.opticalIds else restoring.storageIds

def Restoring.add (restoring : Restoring) (entry : Entry) : Restoring :=
  let compactId := entry.managedView.compactId
  let next := max (restoring.catalog.nextCompactId entry.optical) (compactId.toUInt32 + 1)
  let catalog := restoring.catalog.setNextCompactId entry.optical next
  { catalog := { catalog with
      nodes := catalog.nodes.insert entry.managedView.spec.nodeId entry }
    storageIds := if entry.optical then restoring.storageIds
      else compactId :: restoring.storageIds
    opticalIds := if entry.optical then compactId :: restoring.opticalIds
      else restoring.opticalIds }

def restoreEntries : Restoring → List Entry → Except Bytes Restoring
  | restoring, [] => .ok restoring
  | restoring, entry :: entries =>
      let nodeId := entry.managedView.spec.nodeId
      let compactId := entry.managedView.compactId
      if entry.managedView?.isNone || entry.managedView.spec?.isNone then
        .error (ofAscii "CMS snapshot entry lacks managed identity")
      else if nodeId = [] ∨ compactId = 0 ∨ compactId > (maximumCompactId entry.optical).toUInt64 ∨
          compactId ∈ restoring.ids entry.optical ∨ nodeId ∈ restoring.catalog.nodes then
        .error (ofAscii "CMS snapshot contains an invalid or duplicate identity")
      else restoreEntries (restoring.add entry) entries

def Snapshot.restore (snapshot : Snapshot) : Except Bytes Catalog :=
  if snapshot.formatVersion ≠ 1 ∨ snapshot.cmsGeneration = 0 then
    .error (ofAscii "invalid CMS node catalog snapshot")
  else do
    let restoring ← restoreEntries
      { catalog :=
          { cmsGeneration := snapshot.cmsGeneration
            schedulerGeneration := snapshot.schedulerGeneration
            nextStorageCompactId := max 1 snapshot.nextStorageCompactId
            nextOpticalCompactId := max 1 snapshot.nextOpticalCompactId } }
      snapshot.nodes
    return restoring.catalog

/-! ## The registry -/

section Registry

variable (stagingFull : UInt64 → UInt64 → Bool) (order : PGManager.ScoreSort)

/-- `Restore` of a registry that was just built. Without a snapshot it starts clean. -/
def restore (registry : CmsNodeRegistry) (get : Except Bytes (Option Snapshot)) :
    Except Bytes CmsNodeRegistry :=
  match get with
  | .error error => .error error
  | .ok none => .ok registry
  | .ok (some snapshot) => do
      let catalog ← snapshot.restore
      return publishPlacement stagingFull order { registry with toCatalog := catalog }

structure CommitReply where
  cmsGeneration : UInt64
  assignments : List CmsNodeCompactIdAssignment

def commitReply (registry : CmsNodeRegistry) : CommitReply where
  cmsGeneration := registry.cmsGeneration
  assignments := (ordered registry.nodes).map fun item =>
    { nodeId := item.1, compactId := item.2.managedView.compactId.toUInt32 }

/-- `Commit`, with what becomes of its `Put`: the reply, the registry and the store. -/
def commit (registry : CmsNodeRegistry) (store : Option Snapshot) (put : PutOutcome)
    (schedulerGeneration : UInt64) (proposed : List Entry) :
    Except Bytes CommitReply × CmsNodeRegistry × Option Snapshot :=
  if schedulerGeneration = 0 then
    (.error (ofAscii "scheduler generation is required"), registry, store)
  else if schedulerGeneration < registry.schedulerGeneration then
    (.error (ofAscii "stale Scheduler catalog generation"), registry, store)
  else if schedulerGeneration > registry.schedulerGeneration then
    match registry.propose schedulerGeneration proposed with
    | .error error => (.error error, registry, store)
    | .ok catalog =>
        match persist store catalog.snapshot put with
        | (.error error, store) => (.error error, registry, store)
        | (.ok _, store) =>
            let registry := publishPlacement stagingFull order
              { registry with toCatalog := catalog }
            (.ok (commitReply registry), registry, store)
  else (.ok (commitReply registry), registry, store)

end Registry

end CmsNodeRegistry

end Zb.Mds
