-- SUMMARY: The records of managed nodes, with the checks and sums over them.
import ZBStorage.Lib.Bytes
import ZBStorage.Lib.Saturating

/-!
# Managed nodes

`storage_model/NodeModel.h` with the functions of `StorageModel.cpp` and
`scheduler/model/ManagedNode.cpp` that the power manager uses. Every timestamp is
in milliseconds. Floating-point values are kept as their bit patterns.
-/

namespace Zb.StorageModel

open Bytes

/-- The bit pattern of a `double`. -/
abbrev Double := UInt64

/-! ## Enumerations -/

inductive NodeKind
  | storage
  | metadata
  | opticalLibrary
  deriving DecidableEq, Repr

inductive ExecutionMode
  | physical
  | virtual
  | simulated
  deriving DecidableEq, Repr

inductive DeviceKind
  | hdd
  | ssd
  | disc
  | opticalDrive
  deriving DecidableEq, Repr

inductive AccessPath
  | default
  | opticalCacheHit
  | opticalDisc
  | archive
  | migration
  deriving DecidableEq, Repr

inductive IoDirection
  | read
  | write
  deriving DecidableEq, Repr

inductive LifecycleState
  | joining
  | working
  | draining
  | exiting
  | retired
  deriving DecidableEq, Repr

/-- The place of a state in the life of a node. -/
def LifecycleState.rank : LifecycleState → Nat
  | .joining => 0
  | .working => 1
  | .draining => 2
  | .exiting => 3
  | .retired => 4

inductive HealthState
  | healthy
  | suspect
  | failed
  deriving DecidableEq, Repr

inductive AdministrativeState
  | enabled
  | draining
  | disabled
  deriving DecidableEq, Repr

inductive NodeServiceMode
  | readWrite
  | readOnly
  deriving DecidableEq, Repr

inductive PowerLevel
  | off
  | standby
  | medium
  | peak
  deriving DecidableEq, Repr

def PowerLevel.toNat : PowerLevel → Nat
  | .off => 0
  | .standby => 1
  | .medium => 2
  | .peak => 3

inductive TransitionState
  | stable
  | starting
  | stopping
  | rebooting
  deriving DecidableEq, Repr

inductive ReliabilityModel
  | normalLifetime
  | bathtubCurve
  deriving DecidableEq, Repr

inductive FailureSource
  | none
  | heartbeatTimeout
  | reliabilityModel
  | injected
  deriving DecidableEq, Repr

/-! ## Profiles -/

structure DeviceGroup where
  name : Bytes := []
  kind : DeviceKind := .hdd
  deviceCapacityBytes : UInt64 := 0
  deviceCount : UInt32 := 0
  /-- used where the value of a direction is zero -/
  perDeviceBandwidthBytesPerSec : UInt64 := 0
  /-- zero for all devices of the group -/
  maxConcurrency : UInt32 := 0
  perDeviceReadBandwidthBytesPerSec : UInt64 := 0
  perDeviceWriteBandwidthBytesPerSec : UInt64 := 0

structure PowerProfile where
  peakMilliwatts : UInt64 := 0
  mediumMilliwatts : UInt64 := 0
  standbyMilliwatts : UInt64 := 0
  offMilliwatts : UInt64 := 0

structure ReliabilityProfile where
  meanLifetimeMs : UInt64 := 0
  lifetimeStddevMs : UInt64 := 0
  minimumLifetimeMs : UInt64 := 1
  meanTimeBetweenFailuresMs : UInt64 := 0
  meanRepairTimeMs : UInt64 := 0
  model : ReliabilityModel := .normalLifetime
  earlyFailureWindowMs : UInt64 := 0
  wearoutStartAgeMs : UInt64 := 0
  earlyFailureRateFit : UInt64 := 0
  usefulLifeFailureRateFit : UInt64 := 0
  wearoutFailureRateFit : UInt64 := 0

structure NodeHardwareProfile where
  nodeId : Bytes := []
  kind : NodeKind := .storage
  executionMode : ExecutionMode := .physical
  logicalNodeCount : UInt32 := 1
  technologyGeneration : UInt32 := 1
  instanceGeneration : UInt64 := 1
  participatesInPlacement : Bool := true
  externalNetworkBandwidthBytesPerSec : UInt64 := 0
  fixedAccessLatencyUs : UInt64 := 0
  opticalLoadLatencyUs : UInt64 := 0
  opticalSeekLatencyUs : UInt64 := 0
  deviceGroups : List DeviceGroup := []
  power : PowerProfile := {}
  reliability : ReliabilityProfile := {}

def isDataDevice (kind : DeviceKind) : Bool := kind = .hdd || kind = .ssd || kind = .disc

def deviceBandwidthBytesPerSecond (group : DeviceGroup) (direction : IoDirection) : UInt64 :=
  let directional :=
    if direction = .read then group.perDeviceReadBandwidthBytesPerSec
    else group.perDeviceWriteBandwidthBytesPerSec
  if directional = 0 then group.perDeviceBandwidthBytesPerSec else directional

/-- The loop over the groups of a profile, with the names seen so far. -/
def validateDeviceGroups : List Bytes → List DeviceGroup → Except Bytes Unit
  | _, [] => .ok ()
  | names, group :: groups =>
      if group.name = [] ∨ group.deviceCount = 0 then
        .error (ofAscii "device group name and count are required")
      else if group.name ∈ names then
        .error (ofAscii "duplicate device group name: " ++ group.name)
      else if group.maxConcurrency > group.deviceCount then
        .error (ofAscii "device group concurrency exceeds device count: " ++ group.name)
      else if isDataDevice group.kind ∧ group.deviceCapacityBytes = 0 then
        .error (ofAscii "data device capacity must be greater than zero: " ++ group.name)
      else if (group.kind = .hdd ∨ group.kind = .ssd) ∧
          deviceBandwidthBytesPerSecond group .read = 0 ∧
          deviceBandwidthBytesPerSecond group .write = 0 then
        .error (ofAscii "online device bandwidth must be greater than zero: " ++ group.name)
      else if group.kind = .opticalDrive ∧
          (deviceBandwidthBytesPerSecond group .read = 0 ∨
            deviceBandwidthBytesPerSecond group .write = 0) then
        .error (ofAscii "optical drive requires both read and write bandwidth: " ++ group.name)
      else validateDeviceGroups (group.name :: names) groups

/-- The kinds of devices that a node of this kind cannot do without. -/
def validateDeviceKinds (profile : NodeHardwareProfile) : Except Bytes Unit :=
  let has := fun kind => profile.deviceGroups.any fun group => group.kind = kind
  let hasHddOrSsd := has .hdd || has .ssd
  if profile.kind = .storage ∧ !hasHddOrSsd then
    .error (ofAscii "storage node requires an HDD or SSD group")
  else if profile.kind = .metadata ∧ !has .ssd then
    .error (ofAscii "metadata node requires an SSD group")
  else if profile.kind = .opticalLibrary ∧ (!hasHddOrSsd ∨ !has .disc ∨ !has .opticalDrive) then
    .error (ofAscii "optical library requires cache, disc, and optical-drive groups")
  else .ok ()

def validatePowerProfile (power : PowerProfile) : Except Bytes Unit :=
  if power.peakMilliwatts < power.mediumMilliwatts ∨
      power.mediumMilliwatts < power.standbyMilliwatts ∨
      power.standbyMilliwatts < power.offMilliwatts then
    .error (ofAscii "power levels must satisfy peak >= medium >= standby >= off")
  else if power.peakMilliwatts = 0 then
    .error (ofAscii "peak power must be greater than zero")
  else .ok ()

def validateReliabilityProfile (reliability : ReliabilityProfile) : Except Bytes Unit :=
  if reliability.meanLifetimeMs = 0 ∨ reliability.minimumLifetimeMs = 0 then
    .error (ofAscii "lifetime mean and minimum must be greater than zero")
  else if reliability.model = .bathtubCurve ∧ reliability.wearoutStartAgeMs ≠ 0 ∧
      reliability.earlyFailureWindowMs > reliability.wearoutStartAgeMs then
    .error (ofAscii "bathtub early-failure window exceeds wearout start age")
  else .ok ()

def validateNodeHardwareProfile (profile : NodeHardwareProfile) : Except Bytes Unit :=
  if profile.nodeId = [] then .error (ofAscii "node_id is empty")
  else if profile.logicalNodeCount = 0 then
    .error (ofAscii "logical_node_count must be greater than zero")
  else if profile.technologyGeneration = 0 then
    .error (ofAscii "technology_generation must be greater than zero")
  else if profile.instanceGeneration = 0 then
    .error (ofAscii "instance_generation must be greater than zero")
  else if profile.externalNetworkBandwidthBytesPerSec = 0 then
    .error (ofAscii "external network bandwidth must be greater than zero")
  else if profile.deviceGroups = [] then
    .error (ofAscii "at least one device group is required")
  else do
    validateDeviceGroups [] profile.deviceGroups
    validateDeviceKinds profile
    validatePowerProfile profile.power
    validateReliabilityProfile profile.reliability

def powerMilliwatts (profile : PowerProfile) : PowerLevel → UInt64
  | .peak => profile.peakMilliwatts
  | .medium => profile.mediumMilliwatts
  | .standby => profile.standbyMilliwatts
  | .off => profile.offMilliwatts

def calculateCapacityBytes (profile : NodeHardwareProfile) : UInt64 :=
  Saturating.sum ((profile.deviceGroups.filter fun group => group.kind ≠ .opticalDrive).map
    fun group => Saturating.mul group.deviceCapacityBytes group.deviceCount.toUInt64)

def groupMatchesPath (kind : DeviceKind) (path : AccessPath) : Bool :=
  if path = .opticalDisc then kind = .opticalDrive else kind = .hdd || kind = .ssd

/-- The devices of a group that work at the same time. -/
def groupConcurrency (group : DeviceGroup) : UInt32 :=
  if group.maxConcurrency = 0 then group.deviceCount
  else min group.deviceCount group.maxConcurrency

def calculateInternalBandwidthBytesPerSecond (profile : NodeHardwareProfile) (path : AccessPath)
    (direction : IoDirection) : UInt64 :=
  let path :=
    if path = .archive ∨ path = .migration then
      if profile.kind = .opticalLibrary then .opticalDisc else .default
    else path
  Saturating.sum ((profile.deviceGroups.filter fun group => groupMatchesPath group.kind path).map
    fun group => Saturating.mul (deviceBandwidthBytesPerSecond group direction)
      (groupConcurrency group).toUInt64)

/-! ## Inventories -/

structure NodeIdentity where
  nodeId : Bytes := []
  /-- zero until the catalog assigned one -/
  compactId : UInt32 := 0
  kind : NodeKind := .storage
  executionMode : ExecutionMode := .physical
  serviceAddress : Bytes := []

structure DeviceInventory where
  diskId : Bytes := []
  kind : DeviceKind := .hdd
  capacityBytes : UInt64 := 0
  freeBytes : UInt64 := 0
  isHealthy : Bool := true
  readBandwidthBytesPerSec : UInt64 := 0
  writeBandwidthBytesPerSec : UInt64 := 0
  accumulatedWriteBytes : UInt64 := 0
  lastUpdateMs : UInt64 := 0
  healthSource : Bytes := []
  deriving DecidableEq

structure NodeInventorySnapshot where
  nodeId : Bytes := []
  generation : UInt64 := 0
  observedAtMs : UInt64 := 0
  devices : List DeviceInventory := []
  deriving DecidableEq

def deviceUsedBytes (device : DeviceInventory) : UInt64 :=
  if device.capacityBytes > device.freeBytes then device.capacityBytes - device.freeBytes else 0

def inventoryCapacityBytes (snapshot : NodeInventorySnapshot) : UInt64 :=
  Saturating.sum ((snapshot.devices.filter fun device => isDataDevice device.kind).map
    fun device => device.capacityBytes)

def inventoryFreeBytes (snapshot : NodeInventorySnapshot) : UInt64 :=
  Saturating.sum ((snapshot.devices.filter fun device => isDataDevice device.kind).map
    fun device => min device.freeBytes device.capacityBytes)

def inventoryUsedBytes (snapshot : NodeInventorySnapshot) : UInt64 :=
  Saturating.sum ((snapshot.devices.filter fun device => isDataDevice device.kind).map
    deviceUsedBytes)

def healthyDataDevices (snapshot : NodeInventorySnapshot) : List DeviceInventory :=
  snapshot.devices.filter fun device => device.isHealthy && isDataDevice device.kind

def inventoryHealthyCapacityBytes (snapshot : NodeInventorySnapshot) : UInt64 :=
  Saturating.sum ((healthyDataDevices snapshot).map fun device => device.capacityBytes)

def inventoryHealthyFreeBytes (snapshot : NodeInventorySnapshot) : UInt64 :=
  Saturating.sum ((healthyDataDevices snapshot).map fun device =>
    min device.freeBytes device.capacityBytes)

/-- The loop over the devices of an inventory, with the ids seen so far. -/
def validateDevices : List Bytes → List DeviceInventory → Except Bytes Unit
  | _, [] => .ok ()
  | ids, device :: devices =>
      if device.diskId = [] then .error (ofAscii "inventory disk_id is empty")
      else if device.diskId ∈ ids then
        .error (ofAscii "duplicate inventory disk_id: " ++ device.diskId)
      else if device.freeBytes > device.capacityBytes then
        .error (ofAscii "device free space exceeds capacity: " ++ device.diskId)
      else validateDevices (device.diskId :: ids) devices

def validateNodeInventorySnapshot (snapshot : NodeInventorySnapshot) : Except Bytes Unit :=
  if snapshot.nodeId = [] then .error (ofAscii "inventory node_id is empty")
  else validateDevices [] snapshot.devices

/-! ## Optical libraries -/

structure OpticalLibraryStatus where
  observed : Bool := false
  totalSlots : UInt32 := 0
  localDiscCount : UInt32 := 0
  blankDiscCount : UInt32 := 0
  recordingDiscCount : UInt32 := 0
  recordedDiscCount : UInt32 := 0
  defectiveDiscCount : UInt32 := 0
  stagingCapacityBytes : UInt64 := 0
  stagingUsedBytes : UInt64 := 0
  pendingWriteTasks : UInt32 := 0
  pendingReadTasks : UInt32 := 0
  busyDrives : UInt32 := 0
  observedAtMs : UInt64 := 0
  telemetryVersion : UInt32 := 0
  inventoryValid : Bool := false
  stagingValid : Bool := false
  backgroundValid : Bool := false
  physicalHealthObserved : Bool := false
  observationSource : Bytes := []
  collectionError : Bytes := []
  pendingArchiveBatches : UInt64 := 0
  backgroundTasks : UInt64 := 0
  stagingReadReservedBytes : UInt64 := 0
  stagingWriteReservedBytes : UInt64 := 0
  configuredDiscCount : UInt64 := 0
  validUntilMs : UInt64 := 0
  acceptsArchiveWrites : Bool := false

def validateOpticalTelemetry (status : OpticalLibraryStatus) : Except Bytes Unit :=
  if status.observedAtMs = 0 ∨ status.validUntilMs < status.observedAtMs then
    .error (ofAscii "optical telemetry needs a sample time and validity deadline")
  else if status.inventoryValid ∧ !status.observed then
    .error (ofAscii "valid optical inventory must be observed")
  else if status.stagingValid ∧
      (status.stagingReadReservedBytes > status.stagingUsedBytes ∨
        status.stagingWriteReservedBytes >
          status.stagingUsedBytes - status.stagingReadReservedBytes) then
    .error (ofAscii "optical staging reservations exceed used space")
  else .ok ()

/-- What an observed library must add up to. -/
def validateOpticalInventory (status : OpticalLibraryStatus) : Except Bytes Unit :=
  let classified := Saturating.sum [status.blankDiscCount.toUInt64,
    status.recordingDiscCount.toUInt64, status.recordedDiscCount.toUInt64,
    status.defectiveDiscCount.toUInt64]
  if status.localDiscCount > status.totalSlots then
    .error (ofAscii "optical local disc count exceeds total slots")
  else if classified ≠ status.localDiscCount.toUInt64 then
    .error (ofAscii "optical disc state counts do not equal local disc count")
  else if status.stagingUsedBytes > status.stagingCapacityBytes then
    .error (ofAscii "optical staging used space exceeds capacity")
  else .ok ()

def validateOpticalLibraryStatus (status : OpticalLibraryStatus) : Except Bytes Unit :=
  if status.telemetryVersion > 1 then
    .error (ofAscii "unsupported optical telemetry version")
  else do
    if status.telemetryVersion = 1 then validateOpticalTelemetry status
    if status.observed then validateOpticalInventory status

/-- The library has tasks or drives at work. -/
def OpticalLibraryStatus.busy (status : OpticalLibraryStatus) : Bool :=
  status.pendingArchiveBatches ≠ 0 || status.backgroundTasks ≠ 0 ||
  status.pendingWriteTasks ≠ 0 || status.pendingReadTasks ≠ 0 || status.busyDrives ≠ 0

/-! ## Runtime records -/

structure NodeMetricsStreamState where
  accessPath : AccessPath := .default
  reporterEpoch : UInt64 := 0
  reportSequence : UInt64 := 0
  windowEndMs : UInt64 := 0
  utilization : Double := 0
  queueDepth : UInt32 := 0
  retired : Bool := false
  readOperations : UInt64 := 0
  writeOperations : UInt64 := 0
  readBytes : UInt64 := 0
  writeBytes : UInt64 := 0
  deriving DecidableEq

structure NodeReadinessStatus where
  observed : Bool := false
  initializationComplete : Bool := false
  inventoryReady : Bool := false
  metadataReady : Bool := false
  observedAtMs : UInt64 := 0
  message : Bytes := []

def NodeReadinessStatus.ready (status : NodeReadinessStatus) : Bool :=
  status.observed && status.initializationComplete && status.inventoryReady &&
  status.metadataReady

/-- The part of a record that power accounting owns. -/
structure PowerAccount where
  powerLevel : PowerLevel := .off
  powerStateEnterMs : UInt64 := 0
  lastEnergyUpdateMs : UInt64 := 0
  energyMicrojoules : UInt64 := 0
  lastActuatedEnergyUpdateMs : UInt64 := 0
  actuatedEnergyMicrojoules : UInt64 := 0
  wakeCount : UInt64 := 0
  standbyTransitionCount : UInt64 := 0
  powerOffCount : UInt64 := 0

structure NodeRecord extends PowerAccount where
  profile : NodeHardwareProfile := {}
  identity : NodeIdentity := {}
  inventory : NodeInventorySnapshot := {}
  lifecycle : LifecycleState := .joining
  health : HealthState := .healthy
  administrativeState : AdministrativeState := .enabled
  serviceMode : NodeServiceMode := .readWrite
  actuatedPowerLevel : PowerLevel := .off
  transition : TransitionState := .stable
  joinTimeMs : UInt64 := 0
  sampledLifetimeMs : UInt64 := 0
  plannedExitTimeMs : UInt64 := 0
  actualExitTimeMs : UInt64 := 0
  lastHeartbeatMs : UInt64 := 0
  lastAccessMs : UInt64 := 0
  lastMetricsEndMs : UInt64 := 0
  lastMetricsSequence : UInt64 := 0
  lastMetricsReporterEpoch : UInt64 := 0
  residentDataBytes : UInt64 := 0
  lastUtilization : Double := 0
  lastQueueDepth : UInt32 := 0
  accessOperationCount : UInt64 := 0
  accumulatedWriteBytes : UInt64 := 0
  replacementCount : UInt64 := 0
  predecessorNodeId : Bytes := []
  drainRemainingObjects : UInt64 := 0
  drainRemainingBytes : UInt64 := 0
  drainActiveRequests : UInt32 := 0
  drainLastReportMs : UInt64 := 0
  failureReason : Bytes := []
  failureSource : FailureSource := .none
  lastPowerActuationMs : UInt64 := 0
  lastPowerActuationError : Bytes := []
  reliabilitySeed : UInt64 := 0
  nextFailureTimeMs : UInt64 := 0
  repairDueTimeMs : UInt64 := 0
  failureCount : UInt64 := 0
  opticalLibrary : OpticalLibraryStatus := {}
  readiness : NodeReadinessStatus := {}
  metricsStreams : List NodeMetricsStreamState := []

def isServingLifecycle (state : LifecycleState) : Bool := state = .working || state = .draining

end Zb.StorageModel
