-- SUMMARY: The protocol messages of the metadata server (`mds.proto`) that the modelled handlers read and write.
import ZBStorage.Lib.Bytes

/-!
# Messages of the metadata server

Proto3 enumerations are open: a peer may send any 32-bit value. Each one has a
constructor for the values without a name, which carries the proof that its
value is not one of the named ones, so that every wire value has one
representation.
-/

namespace Zb.Rpc

/-! ## Enumerations -/

inductive MdsStatusCode
  | ok
  | invalidArgument
  | notFound
  | alreadyExists
  | notEmpty
  | internalError
  | staleEpoch
  deriving DecidableEq, Repr

inductive InodeType
  | file
  | dir
  | unrecognized (v : UInt32) (h : 1 < v)
  deriving DecidableEq

def InodeType.toUInt32 : InodeType → UInt32
  | .file => 0
  | .dir => 1
  | .unrecognized v _ => v

def InodeType.ofUInt32 (v : UInt32) : InodeType :=
  if v = 0 then .file
  else if v = 1 then .dir
  else if h : 1 < v then .unrecognized v h
  else .file

inductive InodeArchiveState
  | pending
  | archiving
  | archived
  | imageReady
  | unrecognized (v : UInt32) (h : 3 < v)
  deriving DecidableEq

def InodeArchiveState.toUInt32 : InodeArchiveState → UInt32
  | .pending => 0
  | .archiving => 1
  | .archived => 2
  | .imageReady => 3
  | .unrecognized v _ => v

def InodeArchiveState.ofUInt32 (v : UInt32) : InodeArchiveState :=
  if v = 0 then .pending
  else if v = 1 then .archiving
  else if v = 2 then .archived
  else if v = 3 then .imageReady
  else if h : 3 < v then .unrecognized v h
  else .pending

inductive InodeStorageTier
  | none
  | disk
  | optical
  | unrecognized (v : UInt32) (h : 2 < v)
  deriving DecidableEq

inductive ManagedNodeKind
  | unknown
  | storage
  | metadata
  | opticalLibrary
  | unrecognized (v : UInt32) (h : 3 < v)
  deriving DecidableEq

inductive ManagedExecutionMode
  | unknown
  | physical
  | virtual
  | simulated
  | unrecognized (v : UInt32) (h : 3 < v)
  deriving DecidableEq

inductive ManagedLifecycleState
  | unknown
  | joining
  | working
  | draining
  | exiting
  | retired
  | unrecognized (v : UInt32) (h : 5 < v)
  deriving DecidableEq

inductive ManagedHealthState
  | unknown
  | healthy
  | suspect
  | failed
  | unrecognized (v : UInt32) (h : 3 < v)
  deriving DecidableEq

inductive ManagedAdministrativeState
  | unknown
  | enabled
  | draining
  | disabled
  | unrecognized (v : UInt32) (h : 3 < v)
  deriving DecidableEq

inductive ManagedServiceMode
  | unknown
  | readWrite
  | readOnly
  | unrecognized (v : UInt32) (h : 2 < v)
  deriving DecidableEq

inductive ManagedPowerLevel
  | unknown
  | off
  | standby
  | medium
  | peak
  | unrecognized (v : UInt32) (h : 4 < v)
  deriving DecidableEq

inductive ManagedDeviceKind
  | unknown
  | hdd
  | ssd
  | disc
  | opticalDrive
  | unrecognized (v : UInt32) (h : 4 < v)
  deriving DecidableEq

inductive ManagedFailureSource
  | none
  | heartbeatTimeout
  | reliabilityModel
  | injected
  | unrecognized (v : UInt32) (h : 3 < v)
  deriving DecidableEq

inductive ManagedAccessPath
  | default
  | opticalCacheHit
  | opticalDisc
  | archive
  | migration
  | unrecognized (v : UInt32) (h : 4 < v)
  deriving DecidableEq

inductive ManagedReliabilityModel
  | normalLifetime
  | bathtubCurve
  | unrecognized (v : UInt32) (h : 1 < v)
  deriving DecidableEq

/-! ## Inodes and locations -/

structure InodeAttr where
  inodeId : UInt64 := 0
  type : InodeType := .file
  mode : UInt32 := 0
  uid : UInt32 := 0
  gid : UInt32 := 0
  size : UInt64 := 0
  atime : UInt64 := 0
  mtime : UInt64 := 0
  ctime : UInt64 := 0
  nlink : UInt32 := 0
  objectUnitSize : UInt64 := 0
  replica : UInt32 := 0
  version : UInt64 := 0
  fileArchiveState : InodeArchiveState := .pending
  fileName : Bytes := []
  storageTier : InodeStorageTier := .none
  diskNodeId : UInt64 := 0
  diskId : UInt32 := 0
  opticalNodeId : UInt64 := 0
  opticalDiskId : UInt64 := 0
  opticalImageId : UInt32 := 0
  diskNodeIsVirtual : Bool := false
  blksize : UInt32 := 0
  blocks512 : UInt64 := 0
  rdevMajor : UInt32 := 0
  rdevMinor : UInt32 := 0
  deriving DecidableEq

structure DiskFileLocation where
  nodeId : Bytes := []
  nodeAddress : Bytes := []
  diskId : Bytes := []
  instanceGeneration : UInt64 := 0
  deriving DecidableEq

structure OpticalFileLocation where
  nodeId : Bytes := []
  nodeAddress : Bytes := []
  diskId : Bytes := []
  imageId : Bytes := []
  fileId : Bytes := []
  filePath : Bytes := []
  instanceGeneration : UInt64 := 0
  deriving DecidableEq

/-! ## Archive leases -/

inductive ArchiveLifecycleState
  | pending
  | archiving
  | unrecognized (v : UInt32) (h : 1 < v)
  deriving DecidableEq

structure ArchiveLeaseRecord where
  state : ArchiveLifecycleState := .pending
  ownerNodeId : Bytes := []
  ownerDiskId : Bytes := []
  leaseId : Bytes := []
  leaseExpireTsMs : UInt64 := 0
  lastOpId : Bytes := []
  version : UInt64 := 0
  updateTsMs : UInt64 := 0
  archiveTsMs : UInt64 := 0
  objectId : Bytes := []
  inodeId : UInt64 := 0
  deriving DecidableEq

structure ClaimArchiveTaskRequest where
  nodeId : Bytes := []
  diskId : Bytes := []
  requestedLeaseMs : UInt64 := 0
  inodeId : UInt64 := 0

structure ClaimArchiveTaskReply where
  granted : Bool := false
  record : ArchiveLeaseRecord := {}

structure RenewArchiveLeaseRequest where
  nodeId : Bytes := []
  leaseId : Bytes := []
  requestedLeaseMs : UInt64 := 0
  inodeId : UInt64 := 0

structure RenewArchiveLeaseReply where
  renewed : Bool := false
  record : ArchiveLeaseRecord := {}

structure CommitArchiveTaskRequest where
  nodeId : Bytes := []
  leaseId : Bytes := []
  opId : Bytes := []
  success : Bool := false
  inodeId : UInt64 := 0

structure CommitArchiveTaskReply where
  committed : Bool := false
  record : ArchiveLeaseRecord := {}

/-- A manifest of an optical archive. Absent submessages are `none`. -/
structure ModelOpticalArchiveRequest where
  operationId : Bytes := []
  sourceLeaseId : Bytes := []
  inodeId : UInt64 := 0
  sourceVersion : UInt64 := 0
  size : UInt64 := 0
  expectedSource : Option DiskFileLocation := none
  target : Option OpticalFileLocation := none
  commit : Bool := false
  deriving DecidableEq

/-! ## Managed nodes -/

structure ManagedDeviceGroup where
  name : Bytes := []
  kind : ManagedDeviceKind := .unknown
  deviceCapacityBytes : UInt64 := 0
  deviceCount : UInt32 := 0
  perDeviceBandwidthBytesPerSec : UInt64 := 0
  maxConcurrency : UInt32 := 0
  perDeviceReadBandwidthBytesPerSec : UInt64 := 0
  perDeviceWriteBandwidthBytesPerSec : UInt64 := 0
  deriving DecidableEq

structure ManagedPowerProfile where
  peakMilliwatts : UInt64 := 0
  mediumMilliwatts : UInt64 := 0
  standbyMilliwatts : UInt64 := 0
  offMilliwatts : UInt64 := 0
  deriving DecidableEq

structure ManagedReliabilityProfile where
  meanLifetimeMs : UInt64 := 0
  lifetimeStddevMs : UInt64 := 0
  minimumLifetimeMs : UInt64 := 0
  meanTimeBetweenFailuresMs : UInt64 := 0
  meanRepairTimeMs : UInt64 := 0
  model : ManagedReliabilityModel := .normalLifetime
  earlyFailureWindowMs : UInt64 := 0
  wearoutStartAgeMs : UInt64 := 0
  earlyFailureRateFit : UInt64 := 0
  usefulLifeFailureRateFit : UInt64 := 0
  wearoutFailureRateFit : UInt64 := 0
  deriving DecidableEq

structure ManagedNodeSpec where
  nodeId : Bytes := []
  kind : ManagedNodeKind := .unknown
  executionMode : ManagedExecutionMode := .unknown
  logicalNodeCount : UInt32 := 0
  participatesInPlacement : Bool := false
  externalNetworkBandwidthBytesPerSec : UInt64 := 0
  fixedAccessLatencyUs : UInt64 := 0
  opticalLoadLatencyUs : UInt64 := 0
  opticalSeekLatencyUs : UInt64 := 0
  deviceGroups : List ManagedDeviceGroup := []
  power : ManagedPowerProfile := {}
  reliability : ManagedReliabilityProfile := {}
  technologyGeneration : UInt32 := 0
  participatesInPlacementSet : Bool := false
  instanceGeneration : UInt64 := 0
  deriving DecidableEq

structure ManagedDeviceInventory where
  deviceId : Bytes := []
  kind : ManagedDeviceKind := .unknown
  capacityBytes : UInt64 := 0
  freeBytes : UInt64 := 0
  usedBytes : UInt64 := 0
  isHealthy : Bool := false
  readBandwidthBytesPerSec : UInt64 := 0
  writeBandwidthBytesPerSec : UInt64 := 0
  accumulatedWriteBytes : UInt64 := 0
  lastUpdateMs : UInt64 := 0
  healthSource : Bytes := []
  deriving DecidableEq

structure ManagedOpticalLibraryStatus where
  observed : Bool := false
  totalSlots : UInt32 := 0
  localDiscCount : UInt32 := 0
  blankDiscCount : UInt32 := 0
  recordingDiscCount : UInt32 := 0
  recordedDiscCount : UInt32 := 0
  defectiveDiscCount : UInt32 := 0
  observedAtMs : UInt64 := 0
  stagingCapacityBytes : UInt64 := 0
  stagingUsedBytes : UInt64 := 0
  pendingWriteTasks : UInt32 := 0
  pendingReadTasks : UInt32 := 0
  busyDrives : UInt32 := 0
  telemetryVersion : UInt32 := 0
  inventoryValid : Bool := false
  stagingValid : Bool := false
  backgroundValid : Bool := false
  physicalHealthObserved : Bool := false
  observationSource : Bytes := []
  collectionError : Bytes := []
  pendingArchiveBatches : UInt64 := 0
  backgroundTasks : UInt64 := 0
  stagingReadReservedBytes : UInt64 := 0
  stagingWriteReservedBytes : UInt64 := 0
  configuredDiscCount : UInt64 := 0
  validUntilMs : UInt64 := 0
  acceptsArchiveWrites : Bool := false
  deriving DecidableEq

/-- The utilization is the bit pattern of a `double`. -/
structure ManagedMetricsStreamState where
  accessPath : ManagedAccessPath := .default
  reporterEpoch : UInt64 := 0
  reportSequence : UInt64 := 0
  windowEndMs : UInt64 := 0
  utilization : UInt64 := 0
  queueDepth : UInt32 := 0
  retired : Bool := false
  readOperations : UInt64 := 0
  writeOperations : UInt64 := 0
  readBytes : UInt64 := 0
  writeBytes : UInt64 := 0
  deriving DecidableEq

structure ManagedNodeReadiness where
  observed : Bool := false
  initializationComplete : Bool := false
  inventoryReady : Bool := false
  metadataReady : Bool := false
  observedAtMs : UInt64 := 0
  message : Bytes := []
  deriving DecidableEq

structure ManagedNodeView where
  spec? : Option ManagedNodeSpec := none
  lifecycle : ManagedLifecycleState := .unknown
  health : ManagedHealthState := .unknown
  powerLevel : ManagedPowerLevel := .unknown
  joinTimeMs : UInt64 := 0
  sampledLifetimeMs : UInt64 := 0
  plannedExitTimeMs : UInt64 := 0
  actualExitTimeMs : UInt64 := 0
  lastAccessMs : UInt64 := 0
  energyMicrojoules : UInt64 := 0
  residentDataBytes : UInt64 := 0
  /-- the bit pattern of a `double` -/
  lastUtilization : UInt64 := 0
  lastQueueDepth : UInt32 := 0
  accessOperationCount : UInt64 := 0
  failureReason : Bytes := []
  capacityBytes : UInt64 := 0
  drainRemainingObjects : UInt64 := 0
  drainRemainingBytes : UInt64 := 0
  drainActiveRequests : UInt32 := 0
  drainLastReportMs : UInt64 := 0
  actuatedPowerLevel : ManagedPowerLevel := .unknown
  lastPowerActuationMs : UInt64 := 0
  lastPowerActuationError : Bytes := []
  nextFailureTimeMs : UInt64 := 0
  repairDueTimeMs : UInt64 := 0
  failureCount : UInt64 := 0
  compactId : UInt64 := 0
  serviceAddress : Bytes := []
  administrativeState : ManagedAdministrativeState := .unknown
  serviceMode : ManagedServiceMode := .unknown
  lastHeartbeatMs : UInt64 := 0
  inventoryGeneration : UInt64 := 0
  inventoryObservedAtMs : UInt64 := 0
  inventoryDevices : List ManagedDeviceInventory := []
  accumulatedWriteBytes : UInt64 := 0
  failureSource : ManagedFailureSource := .none
  opticalLibrary : ManagedOpticalLibraryStatus := {}
  wakeCount : UInt64 := 0
  standbyTransitionCount : UInt64 := 0
  powerOffCount : UInt64 := 0
  replacementCount : UInt64 := 0
  predecessorNodeId : Bytes := []
  observedCapacityBytes : UInt64 := 0
  observedFreeBytes : UInt64 := 0
  observedUsedBytes : UInt64 := 0
  actuatedEnergyMicrojoules : UInt64 := 0
  lastActuatedEnergyUpdateMs : UInt64 := 0
  readiness : ManagedNodeReadiness := {}
  metricsStreams : List ManagedMetricsStreamState := []
  deriving DecidableEq

/-- An absent message reads as the default one. -/
def ManagedNodeView.spec (view : ManagedNodeView) : ManagedNodeSpec := view.spec?.getD {}

structure NodeView where
  nodeId : Bytes := []
  address : Bytes := []
  deriving DecidableEq

structure CmsNodeCompactIdAssignment where
  nodeId : Bytes := []
  compactId : UInt32 := 0
  deriving DecidableEq

/-! ## Handoffs of optical libraries -/

structure OpticalHandoffFile where
  path : Bytes := []
  size : UInt64 := 0
  sha256 : Bytes := []
  deriving DecidableEq

structure OpticalLibraryHandoffRecord where
  operationId : Bytes := []
  source : OpticalFileLocation := {}
  target : OpticalFileLocation := {}
  formatSignature : Bytes := []
  files : List OpticalHandoffFile := []
  manifestId : Bytes := []
  phase : Bytes := []
  deriving DecidableEq

structure CommitOpticalLibraryHandoffRequest where
  record : Option OpticalLibraryHandoffRecord := none
  commit : Bool := false

/-! ## Imports of namespaces -/

/-- What an import reads of a template's manifest. The inodes of a template are
    numbered without gaps. -/
structure TemplateManifest where
  inodeMin : UInt64
  inodeMax : UInt64
  inodeCount : UInt64
  numbered : inodeMin.toNat + inodeCount.toNat = inodeMax.toNat + 1

structure TemplateImportRequest where
  namespaceId : Bytes := []
  generationId : Bytes := []
  pathPrefix : Bytes := []
  templateId : Bytes := []
  templateMode : Bytes := []
  /-- zero to take the ids from the counter -/
  inodeStart : UInt64 := 0
  publishRoute : Bool := true

/-! ## Attribute updates and migrations -/

structure UpdateInodeStatRequest where
  inodeId : UInt64 := 0
  fileSize : UInt64 := 0
  objectUnitSize : UInt64 := 0
  version : UInt64 := 0
  mtime : UInt64 := 0

structure CommitFileMigrationRequest where
  migrationId : Bytes := []
  inodeId : UInt64 := 0
  expectedSource : Option DiskFileLocation := none
  target : Option DiskFileLocation := none
  expectedInodeVersion : UInt64 := 0

structure FileLocationView where
  attr : InodeAttr := {}
  diskLocation : Option DiskFileLocation := none
  opticalLocation : Option OpticalFileLocation := none

end Zb.Rpc
