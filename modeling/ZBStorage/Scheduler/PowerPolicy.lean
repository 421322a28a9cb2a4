-- SUMMARY: The power policy of one node over time, and the online floor of the cluster.
import ZBStorage.Lib.TableLoop
import ZBStorage.Scheduler.NodeModel

/-!
# The power policy

The private part of `scheduler/power/NodePowerManager.cpp`. An operation first
replays the policy up to its own time: from one boundary to the next, the node
takes the level that it should have had there and the energy of the interval is
added. A working node is not switched off below the floor of online nodes.
-/

namespace Zb.Scheduler

open Zb.StorageModel Bytes TableLoop

structure PowerPolicy where
  peakUtilization : Double := 0x3fe999999999999a
  peakQueueDepth : UInt32 := 8
  metricsFreshnessMs : UInt64 := 5000
  standbyAfterMs : UInt64 := 60000
  offAfterMs : UInt64 := 600000
  minimumResidencyMs : UInt64 := 1000
  allowOffWithResidentData : Bool := false
  minOnlineStorageNodes : UInt32 := 0
  minOnlineMetadataNodes : UInt32 := 0
  minOnlineOpticalNodes : UInt32 := 0
  minOnlineStorageCapacityBytes : UInt64 := 0
  minOnlineStorageFreeBytes : UInt64 := 0
  /-- the constructor of the manager refuses other policies -/
  standbyBeforeOff : standbyAfterMs < offAfterMs := by decide

/-- The bounds of the default policy. -/
theorem standby_before_off : (60000 : UInt64) < 600000 := by decide

/-- What the manager computes in floating point or draws at random. A sample is
    truncated and clamped to 64 bits. -/
structure Numerics where
  /-- mean, deviation and seed -/
  normalSample : UInt64 → UInt64 → UInt64 → UInt64
  /-- mean and seed -/
  exponentialSample : UInt64 → UInt64 → UInt64
  /-- bytes read, bytes written, busy time, window, read and write bandwidth -/
  windowUtilization : UInt64 → UInt64 → UInt64 → UInt64 → UInt64 → UInt64 → Double
  /-- bytes, interval, bandwidth -/
  eventUtilization : UInt64 → UInt64 → UInt64 → Double
  max : Double → Double → Double
  atLeast : Double → Double → Bool

/-! ## Reliability -/

section Reliability

variable (num : Numerics)

def sampleLifetimeMs (profile : ReliabilityProfile) (seed : UInt64) : UInt64 :=
  if profile.lifetimeStddevMs = 0 then max profile.meanLifetimeMs profile.minimumLifetimeMs
  else max profile.minimumLifetimeMs
    (num.normalSample profile.meanLifetimeMs profile.lifetimeStddevMs seed)

def sampleFailureIntervalMs (meanMs seed : UInt64) : UInt64 :=
  if meanMs = 0 then 0 else max 1 (num.exponentialSample meanMs seed)

/-- Failures per `10 ^ 9` hours. The quotient is below `2 ^ 52`, where truncating the
    `long double` one gives the integer one. -/
def failureMeanMsForFit (failureRateFit : UInt64) : UInt64 :=
  if failureRateFit = 0 then 0 else max 1 (3600000000000000 / failureRateFit)

/-- The phase of the bathtub curve at an age: its failure rate and the age at which
    it ends, zero if it does not end. -/
def failurePhase (reliability : ReliabilityProfile) (age : UInt64) : UInt64 × UInt64 :=
  if reliability.earlyFailureWindowMs ≠ 0 ∧ age < reliability.earlyFailureWindowMs then
    (reliability.earlyFailureRateFit, reliability.earlyFailureWindowMs)
  else if reliability.wearoutStartAgeMs = 0 ∨ age < reliability.wearoutStartAgeMs then
    (reliability.usefulLifeFailureRateFit, reliability.wearoutStartAgeMs)
  else (reliability.wearoutFailureRateFit, 0)

/-- The loop over the phases from `cursorMs` on, with the attempts that are left. -/
def bathtubFailureTime (node : NodeRecord) : Nat → UInt64 → UInt64 → Option UInt64
  | 0, _, _ => none
  | attempts + 1, phaseAttempt, cursorMs =>
      let phase := failurePhase node.profile.reliability (cursorMs - node.joinTimeMs)
      let meanMs := failureMeanMsForFit phase.1
      let candidate := Saturating.add cursorMs (sampleFailureIntervalMs num meanMs
        (node.reliabilitySeed + node.failureCount * 7 + phaseAttempt))
      let next := Saturating.add node.joinTimeMs phase.2
      let phaseEnd := if phase.2 = 0 then 0 else next
      if meanMs ≠ 0 ∧ (phaseEnd = 0 ∨ candidate < phaseEnd) then some candidate
      else if phase.2 = 0 ∨ next ≤ cursorMs then none
      else bathtubFailureTime node attempts (phaseAttempt + 1) next

def meanFailureTime (node : NodeRecord) (fromMs : UInt64) : UInt64 :=
  let meanMs := node.profile.reliability.meanTimeBetweenFailuresMs
  if meanMs = 0 then 0
  else Saturating.add fromMs
    (sampleFailureIntervalMs num meanMs (node.reliabilitySeed + node.failureCount))

def scheduleNextFailureTime (node : NodeRecord) (fromMs : UInt64) : UInt64 :=
  if node.profile.reliability.model ≠ .bathtubCurve then meanFailureTime num node fromMs
  else (bathtubFailureTime num node 3 0 (max fromMs node.joinTimeMs)).getD
    (meanFailureTime num node fromMs)

/-- When a node that fails now is repaired by itself, zero for never. -/
def repairDueTime (node : NodeRecord) (nowMs : UInt64) : UInt64 :=
  if node.profile.reliability.meanRepairTimeMs = 0 then 0
  else Saturating.add nowMs node.profile.reliability.meanRepairTimeMs

end Reliability

/-! ## Energy and power levels -/

def integrateEnergy (node : NodeRecord) (nowMs : UInt64) : NodeRecord :=
  let desired := powerMilliwatts node.profile.power node.powerLevel
  let actuated := powerMilliwatts node.profile.power node.actuatedPowerLevel
  { node with
    energyMicrojoules :=
      if nowMs > node.lastEnergyUpdateMs then
        Saturating.add node.energyMicrojoules
          (Saturating.mul desired (nowMs - node.lastEnergyUpdateMs))
      else node.energyMicrojoules
    lastEnergyUpdateMs :=
      if nowMs > node.lastEnergyUpdateMs then nowMs else node.lastEnergyUpdateMs
    actuatedEnergyMicrojoules :=
      if nowMs > node.lastActuatedEnergyUpdateMs then
        Saturating.add node.actuatedEnergyMicrojoules
          (Saturating.mul actuated (nowMs - node.lastActuatedEnergyUpdateMs))
      else node.actuatedEnergyMicrojoules
    lastActuatedEnergyUpdateMs :=
      if nowMs > node.lastActuatedEnergyUpdateMs then nowMs
      else node.lastActuatedEnergyUpdateMs }

/-- The node takes a level, with the counters of level changes. -/
def enterPowerLevel (node : NodeRecord) (level : PowerLevel) (nowMs : UInt64) : NodeRecord :=
  let wakes := (node.powerLevel = .off ∨ node.powerLevel = .standby) ∧
    (level = .medium ∨ level = .peak)
  { node with
    powerLevel := level
    powerStateEnterMs := nowMs
    wakeCount := if wakes then node.wakeCount + 1 else node.wakeCount
    standbyTransitionCount :=
      if level = .standby then node.standbyTransitionCount + 1 else node.standbyTransitionCount
    powerOffCount := if level = .off then node.powerOffCount + 1 else node.powerOffCount }

section Policy

variable (policy : PowerPolicy)

/-- The node is too new at its level to go down. -/
def settling (node : NodeRecord) (nowMs : UInt64) : Bool :=
  nowMs ≥ node.powerStateEnterMs && nowMs - node.powerStateEnterMs < policy.minimumResidencyMs

/-- `SetPowerLevelLocked`: the record, and whether it changed. -/
def setPowerLevel (node : NodeRecord) (level : PowerLevel) (nowMs : UInt64) (force : Bool) :
    NodeRecord × Bool :=
  if node.powerLevel = level then (node, false)
  else if !force ∧ level.toNat < node.powerLevel.toNat ∧ settling policy node nowMs then
    (node, false)
  else (enterPowerLevel (integrateEnergy node nowMs) level nowMs, true)

variable (num : Numerics)

/-- The last sample is recent and shows a peak. -/
def freshPeak (node : NodeRecord) (nowMs : UInt64) : Bool :=
  nowMs ≥ node.lastMetricsEndMs && nowMs - node.lastMetricsEndMs < policy.metricsFreshnessMs &&
  (num.atLeast node.lastUtilization policy.peakUtilization ||
    node.lastQueueDepth ≥ policy.peakQueueDepth)

/-- The sample of an optical library cannot be taken for evidence that it is idle. -/
def opticalSampleInvalid (node : NodeRecord) (nowMs : UInt64) : Bool :=
  let optical := node.opticalLibrary
  optical.telemetryVersion ≠ 0 &&
  (!optical.observed || !optical.inventoryValid || !optical.stagingValid ||
    !optical.backgroundValid || nowMs > optical.validUntilMs)

/-- The node must be off whatever its load. -/
def mustBeOff (node : NodeRecord) : Bool :=
  node.health = .failed || node.administrativeState = .disabled || node.lifecycle = .joining ||
  node.lifecycle = .exiting || node.lifecycle = .retired

def desiredPowerLevel (node : NodeRecord) (nowMs : UInt64) : PowerLevel :=
  let optical := node.profile.kind = .opticalLibrary
  let idleMs := if nowMs > node.lastAccessMs then nowMs - node.lastAccessMs else 0
  let mayPowerOff := policy.allowOffWithResidentData ∨ node.residentDataBytes = 0
  if mustBeOff node then .off
  else if optical ∧ opticalSampleInvalid node nowMs then .medium
  else if optical ∧ node.opticalLibrary.observed ∧ node.opticalLibrary.busy then
    if freshPeak policy num node nowMs then .peak else .medium
  else if idleMs ≥ policy.offAfterMs ∧ mayPowerOff then .off
  else if idleMs ≥ policy.standbyAfterMs then .standby
  else if freshPeak policy num node nowMs then .peak
  else .medium

/-- The desired level, but standby where the floor does not let a working node be
    switched off. -/
def safeDesiredPowerLevel (canOff : Bool) (node : NodeRecord) (nowMs : UInt64) : PowerLevel :=
  let desired := desiredPowerLevel policy num node nowMs
  if desired = .off ∧ node.lifecycle = .working ∧ !canOff then .standby else desired

/-- The times at which the desired level of a node can change by itself. -/
def policyBoundaries (node : NodeRecord) : List UInt64 :=
  [Saturating.add node.lastMetricsEndMs policy.metricsFreshnessMs,
    Saturating.add node.lastAccessMs policy.standbyAfterMs,
    Saturating.add node.lastAccessMs policy.offAfterMs,
    Saturating.add node.powerStateEnterMs policy.minimumResidencyMs] ++
  if node.opticalLibrary.telemetryVersion ≠ 0 then
    [Saturating.add node.opticalLibrary.validUntilMs 1]
  else []

/-- The first boundary after the cursor, and no later than now. -/
def nextBoundary (node : NodeRecord) (cursorMs nowMs : UInt64) : UInt64 :=
  (policyBoundaries policy node).foldl
    (fun nextMs boundaryMs =>
      if boundaryMs > cursorMs ∧ boundaryMs < nextMs then boundaryMs else nextMs) nowMs

/-- One round of the loop: the level at the cursor, and energy up to the next
    boundary. -/
def advanceRound (canOff : Bool) (nowMs : UInt64) (node : NodeRecord) : NodeRecord × Bool :=
  let cursorMs := node.lastEnergyUpdateMs
  let set := setPowerLevel policy node (safeDesiredPowerLevel policy num canOff node cursorMs)
    cursorMs false
  (integrateEnergy set.1 (nextBoundary policy set.1 cursorMs nowMs), set.2)

/-- The loop of `AdvancePowerPolicyLocked`. Each round moves the cursor, so the
    distance to now is fuel enough (`advanceRounds_reach`). -/
def advanceRounds (canOff : Bool) (nowMs : UInt64) : Nat → NodeRecord → NodeRecord × Bool
  | 0, node => (node, false)
  | fuel + 1, node =>
      if node.lastEnergyUpdateMs < nowMs then
        let round := advanceRound policy num canOff nowMs node
        let later := advanceRounds canOff nowMs fuel round.1
        (later.1, round.2 || later.2)
      else (node, false)

/-- `AdvancePowerPolicyLocked`. Whether the node may be switched off depends on the
    other nodes only, so it is the same at every round. -/
def advancePowerPolicy (canOff : Bool) (node : NodeRecord) (nowMs : UInt64) : NodeRecord × Bool :=
  if nowMs ≤ node.lastEnergyUpdateMs then (node, false)
  else
    let rounds := advanceRounds policy num canOff nowMs
      (nowMs - node.lastEnergyUpdateMs).toNat node
    let last := setPowerLevel policy rounds.1
      (safeDesiredPowerLevel policy num canOff rounds.1 nowMs) nowMs false
    (last.1, last.2 || rounds.2)

end Policy

/-! ## What the replay of the policy changes -/

/-- The records differ in their power accounts only. -/
def SameButPower (node node' : NodeRecord) : Prop :=
  node' = { node with toPowerAccount := node'.toPowerAccount }

theorem SameButPower.refl (node : NodeRecord) : SameButPower node node := rfl

theorem SameButPower.trans {a b c : NodeRecord} (hab : SameButPower a b) (hbc : SameButPower b c) :
    SameButPower a c :=
  calc c = { b with toPowerAccount := c.toPowerAccount } := hbc
    _ = { a with toPowerAccount := c.toPowerAccount } :=
        congrArg (fun node : NodeRecord => { node with toPowerAccount := c.toPowerAccount }) hab

theorem SameButPower.lifecycle {node node' : NodeRecord} (h : SameButPower node node') :
    node'.lifecycle = node.lifecycle := by
  rw [SameButPower] at h
  rw [h]

theorem sameButPower_integrateEnergy (node : NodeRecord) (nowMs : UInt64) :
    SameButPower node (integrateEnergy node nowMs) := rfl

/-- The records differ in their accounts of energy only. -/
def SameButEnergy (node node' : NodeRecord) : Prop :=
  node' = { node with
    lastEnergyUpdateMs := node'.lastEnergyUpdateMs
    energyMicrojoules := node'.energyMicrojoules
    lastActuatedEnergyUpdateMs := node'.lastActuatedEnergyUpdateMs
    actuatedEnergyMicrojoules := node'.actuatedEnergyMicrojoules }

theorem SameButEnergy.refl (node : NodeRecord) : SameButEnergy node node := rfl

theorem sameButEnergy_integrateEnergy (node : NodeRecord) (nowMs : UInt64) :
    SameButEnergy node (integrateEnergy node nowMs) := rfl

theorem SameButEnergy.trans {a b c : NodeRecord} (hab : SameButEnergy a b)
    (hbc : SameButEnergy b c) : SameButEnergy a c := by
  rw [SameButEnergy] at hab hbc ⊢
  rw [hbc, hab]

theorem SameButEnergy.powerLevel {node node' : NodeRecord} (h : SameButEnergy node node') :
    node'.powerLevel = node.powerLevel := by
  rw [SameButEnergy] at h
  rw [h]

section Replay

variable {policy : PowerPolicy} {num : Numerics} {canOff force : Bool} {node : NodeRecord}
  {level : PowerLevel} {nowMs : UInt64}

theorem sameButPower_setPowerLevel :
    SameButPower node (setPowerLevel policy node level nowMs force).1 := by
  unfold setPowerLevel
  split
  · rfl
  · split
    · rfl
    · rfl

/-- A level that was asked for without force is taken, unless the node is settling. -/
theorem setPowerLevel_cases (policy : PowerPolicy) (node : NodeRecord) (level : PowerLevel)
    (nowMs : UInt64) (force : Bool) :
    (setPowerLevel policy node level nowMs force = (node, false) ∧
        (node.powerLevel = level ∨
          force = false ∧ level.toNat < node.powerLevel.toNat ∧ settling policy node nowMs)) ∨
      (setPowerLevel policy node level nowMs force =
          (enterPowerLevel (integrateEnergy node nowMs) level nowMs, true) ∧
        node.powerLevel ≠ level) := by
  unfold setPowerLevel
  split
  · rename_i hsame
    exact .inl ⟨rfl, .inl hsame⟩
  · rename_i hne
    split
    · rename_i hsettling
      exact .inl ⟨rfl, .inr ⟨by simpa using hsettling.1, hsettling.2⟩⟩
    · exact .inr ⟨rfl, hne⟩

theorem setPowerLevel_same (h : node.powerLevel = level) :
    setPowerLevel policy node level nowMs force = (node, false) := by
  rw [setPowerLevel, if_pos h]

theorem powerLevel_setPowerLevel_force :
    (setPowerLevel policy node level nowMs true).1.powerLevel = level := by
  rcases setPowerLevel_cases policy node level nowMs true with ⟨heq, hsame | hsettling⟩ | ⟨heq, -⟩
  · rw [heq]
    exact hsame
  · exact absurd hsettling.1 (by simp)
  · rw [heq]
    rfl

/-- Without a reported change the level is as before. -/
theorem setPowerLevel_unchanged (h : (setPowerLevel policy node level nowMs force).2 = false) :
    (setPowerLevel policy node level nowMs force).1 = node := by
  rcases setPowerLevel_cases policy node level nowMs force with ⟨heq, -⟩ | ⟨heq, -⟩
  · rw [heq]
  · rw [heq] at h
    cases h

/-- The level after a request is the one before or the one asked for. -/
theorem powerLevel_setPowerLevel :
    (setPowerLevel policy node level nowMs force).1.powerLevel = node.powerLevel ∨
      (setPowerLevel policy node level nowMs force).1.powerLevel = level := by
  rcases setPowerLevel_cases policy node level nowMs force with ⟨heq, -⟩ | ⟨heq, -⟩
  · rw [heq]
    exact .inl rfl
  · rw [heq]
    exact .inr rfl

theorem advanceRounds_preserves {P : NodeRecord → Prop} {fuel : Nat}
    (hset : ∀ node cursorMs, P node →
      P (setPowerLevel policy node (safeDesiredPowerLevel policy num canOff node cursorMs)
        cursorMs false).1)
    (hintegrate : ∀ node cursorMs, P node → P (integrateEnergy node cursorMs)) (h : P node) :
    P (advanceRounds policy num canOff nowMs fuel node).1 := by
  induction fuel generalizing node with
  | zero => exact h
  | succ fuel ih =>
      unfold advanceRounds
      split
      · exact ih (hintegrate _ _ (hset _ _ h))
      · exact h

/-- What taking the desired level and adding energy preserve, the replay preserves. -/
theorem advancePowerPolicy_preserves {P : NodeRecord → Prop}
    (hset : ∀ node cursorMs, P node →
      P (setPowerLevel policy node (safeDesiredPowerLevel policy num canOff node cursorMs)
        cursorMs false).1)
    (hintegrate : ∀ node cursorMs, P node → P (integrateEnergy node cursorMs)) (h : P node) :
    P (advancePowerPolicy policy num canOff node nowMs).1 := by
  unfold advancePowerPolicy
  split
  · exact h
  · exact hset _ _ (advanceRounds_preserves hset hintegrate h)

theorem sameButPower_advancePowerPolicy :
    SameButPower node (advancePowerPolicy policy num canOff node nowMs).1 :=
  advancePowerPolicy_preserves (P := SameButPower node)
    (fun _ _ h => h.trans sameButPower_setPowerLevel)
    (fun _ _ h => h.trans (sameButPower_integrateEnergy _ _)) (.refl node)

theorem advanceRounds_unchanged {fuel : Nat}
    (h : (advanceRounds policy num canOff nowMs fuel node).2 = false) :
    SameButEnergy node (advanceRounds policy num canOff nowMs fuel node).1 := by
  induction fuel generalizing node with
  | zero => exact .refl node
  | succ fuel ih =>
      unfold advanceRounds at h ⊢
      split at h
      · rename_i hearlier
        rw [Bool.or_eq_false_iff] at h
        rw [if_pos hearlier]
        have hround : SameButEnergy node (advanceRound policy num canOff nowMs node).1 := by
          rw [advanceRound, setPowerLevel_unchanged h.1]
          exact sameButEnergy_integrateEnergy _ _
        exact hround.trans (ih h.2)
      · rename_i hdone
        rw [if_neg hdone]
        exact .refl node

/-- A replay that reports no change has added energy only. -/
theorem advancePowerPolicy_unchanged
    (h : (advancePowerPolicy policy num canOff node nowMs).2 = false) :
    SameButEnergy node (advancePowerPolicy policy num canOff node nowMs).1 := by
  unfold advancePowerPolicy at h ⊢
  split at h
  · rename_i hpast
    rw [if_pos hpast]
    exact .refl node
  · rename_i hlater
    rw [Bool.or_eq_false_iff] at h
    rw [if_neg hlater, setPowerLevel_unchanged h.1]
    exact advanceRounds_unchanged h.2

/-- A node that the replay leaves off was off before, or its state or the floor let it
    be switched off. -/
def Replayed (canOff : Bool) (node : NodeRecord) (account : PowerAccount) : Prop :=
  account.powerLevel = .off → node.powerLevel = .off ∨ node.lifecycle ≠ .working ∨ canOff = true

theorem desiredPowerLevel_of_mustBeOff (h : mustBeOff node = true) :
    desiredPowerLevel policy num node nowMs = .off := by
  simp only [desiredPowerLevel, h, if_true]

theorem safeDesiredPowerLevel_off (h : safeDesiredPowerLevel policy num canOff node nowMs = .off) :
    node.lifecycle ≠ .working ∨ canOff = true := by
  simp only [safeDesiredPowerLevel] at h
  split at h
  · cases h
  · rename_i hnot
    cases hcan : canOff with
    | true => exact .inr rfl
    | false => exact .inl fun hworking => hnot ⟨h, hworking, by rw [hcan]; rfl⟩

end Replay

section Accounts

variable (policy : PowerPolicy) (num : Numerics) (canOff : Bool) (node : NodeRecord)
  (level : PowerLevel) (nowMs : UInt64) (force : Bool)

/-- The account that asking for a level leaves. -/
def levelAccount : PowerAccount := (setPowerLevel policy node level nowMs force).1.toPowerAccount

theorem setPowerLevel_fst :
    (setPowerLevel policy node level nowMs force).1 =
      { node with toPowerAccount := levelAccount policy node level nowMs force } :=
  sameButPower_setPowerLevel

theorem powerLevel_levelAccount_force :
    (levelAccount policy node level nowMs true).powerLevel = level :=
  powerLevel_setPowerLevel_force

variable {policy node level nowMs force} in
theorem levelAccount_off (h : (levelAccount policy node level nowMs force).powerLevel = .off) :
    node.powerLevel = .off ∨ level = .off := by
  rcases powerLevel_setPowerLevel with hkept | htaken
  · exact .inl (hkept.symm.trans h)
  · exact .inr (htaken.symm.trans h)

/-- The account that a replay leaves. -/
def replayedAccount : PowerAccount :=
  (advancePowerPolicy policy num canOff node nowMs).1.toPowerAccount

theorem advancePowerPolicy_fst :
    (advancePowerPolicy policy num canOff node nowMs).1 =
      { node with toPowerAccount := replayedAccount policy num canOff node nowMs } :=
  sameButPower_advancePowerPolicy

theorem replayed_replayedAccount :
    Replayed canOff node (replayedAccount policy num canOff node nowMs) := by
  apply And.right (a := SameButPower node (advancePowerPolicy policy num canOff node nowMs).1)
  apply advancePowerPolicy_preserves
    (P := fun node' => SameButPower node node' ∧ Replayed canOff node node'.toPowerAccount)
  · rintro node' cursorMs ⟨hsame, hreplayed⟩
    refine ⟨hsame.trans sameButPower_setPowerLevel, fun hoff => ?_⟩
    rcases powerLevel_setPowerLevel with hkept | htaken
    · exact hreplayed (hkept.symm.trans hoff)
    · rw [← hsame.lifecycle]
      exact .inr (safeDesiredPowerLevel_off (htaken.symm.trans hoff))
  · rintro node' cursorMs ⟨hsame, hreplayed⟩
    exact ⟨hsame.trans (sameButPower_integrateEnergy _ _), hreplayed⟩
  · exact ⟨.refl node, .inl⟩

end Accounts

/-! ## The loop ends -/

section Progress

variable {policy : PowerPolicy} {num : Numerics} {canOff : Bool} {node : NodeRecord}
  {cursorMs nowMs : UInt64}

theorem nextBoundary_bounds (policy : PowerPolicy) (node : NodeRecord) (h : cursorMs < nowMs) :
    cursorMs < nextBoundary policy node cursorMs nowMs ∧
      nextBoundary policy node cursorMs nowMs ≤ nowMs := by
  unfold nextBoundary
  generalize policyBoundaries policy node = boundaries
  have hfold : ∀ nextMs, cursorMs < nextMs ∧ nextMs ≤ nowMs →
      cursorMs < boundaries.foldl (fun nextMs boundaryMs =>
          if boundaryMs > cursorMs ∧ boundaryMs < nextMs then boundaryMs else nextMs) nextMs ∧
        boundaries.foldl (fun nextMs boundaryMs =>
          if boundaryMs > cursorMs ∧ boundaryMs < nextMs then boundaryMs else nextMs) nextMs ≤
          nowMs := by
    induction boundaries with
    | nil => exact fun _ hnext => hnext
    | cons boundary boundaries ih =>
        intro nextMs hnext
        rw [List.foldl_cons]
        apply ih
        split
        · rename_i hbetween
          exact ⟨hbetween.1, Std.le_of_lt (Std.lt_of_lt_of_le hbetween.2 hnext.2)⟩
        · exact hnext
  exact hfold nowMs ⟨h, Std.le_refl nowMs⟩

theorem lastEnergyUpdateMs_integrateEnergy (h : node.lastEnergyUpdateMs < nowMs) :
    (integrateEnergy node nowMs).lastEnergyUpdateMs = nowMs := by
  simp only [integrateEnergy, gt_iff_lt, if_pos h]

theorem lastEnergyUpdateMs_setPowerLevel (policy : PowerPolicy) (node : NodeRecord)
    (level : PowerLevel) (force : Bool) :
    (setPowerLevel policy node level node.lastEnergyUpdateMs force).1.lastEnergyUpdateMs =
      node.lastEnergyUpdateMs := by
  rcases setPowerLevel_cases policy node level node.lastEnergyUpdateMs force with
    ⟨heq, -⟩ | ⟨heq, -⟩
  · rw [heq]
  · rw [heq]
    simp only [enterPowerLevel, integrateEnergy, ite_self]

/-- A round moves the cursor forward, and no further than now. -/
theorem advanceRound_progress (policy : PowerPolicy) (num : Numerics) (canOff : Bool)
    (h : node.lastEnergyUpdateMs < nowMs) :
    node.lastEnergyUpdateMs < (advanceRound policy num canOff nowMs node).1.lastEnergyUpdateMs ∧
      (advanceRound policy num canOff nowMs node).1.lastEnergyUpdateMs ≤ nowMs := by
  have hlast := lastEnergyUpdateMs_setPowerLevel policy node
    (safeDesiredPowerLevel policy num canOff node node.lastEnergyUpdateMs) false
  dsimp only [advanceRound]
  generalize (setPowerLevel policy node
    (safeDesiredPowerLevel policy num canOff node node.lastEnergyUpdateMs)
    node.lastEnergyUpdateMs false).1 = levelled at hlast ⊢
  have hbounds := nextBoundary_bounds policy levelled h
  rw [lastEnergyUpdateMs_integrateEnergy (hlast ▸ hbounds.1)]
  exact hbounds

/-- The fuel of the loop is enough: it ends at now. -/
theorem advanceRounds_reach {fuel : Nat} (hle : node.lastEnergyUpdateMs ≤ nowMs)
    (hfuel : nowMs.toNat - node.lastEnergyUpdateMs.toNat ≤ fuel) :
    (advanceRounds policy num canOff nowMs fuel node).1.lastEnergyUpdateMs = nowMs := by
  induction fuel generalizing node with
  | zero =>
      rw [UInt64.le_iff_toNat_le] at hle
      apply UInt64.toNat_inj.mp
      change node.lastEnergyUpdateMs.toNat = nowMs.toNat
      omega
  | succ fuel ih =>
      unfold advanceRounds
      split
      · rename_i hlt
        have hprogress := advanceRound_progress policy num canOff hlt
        apply ih hprogress.2
        have hmoved := UInt64.lt_iff_toNat_lt.mp hprogress.1
        omega
      · rename_i hnot
        exact Std.le_antisymm hle (Std.not_lt.mp hnot)

/-! ## Replays that leave the level alone -/

/-- At no time between the last account and now does the policy want another level, or
    it wants a lower one while the node is settling. -/
def Quiet (policy : PowerPolicy) (num : Numerics) (canOff : Bool) (node : NodeRecord)
    (nowMs : UInt64) : Prop :=
  ∀ t, node.lastEnergyUpdateMs < nowMs → node.lastEnergyUpdateMs ≤ t → t ≤ nowMs →
    safeDesiredPowerLevel policy num canOff node t = node.powerLevel ∨
      (safeDesiredPowerLevel policy num canOff node t).toNat < node.powerLevel.toNat ∧
        settling policy node t = true

theorem Quiet.setPowerLevel {node' : NodeRecord} {t : UInt64}
    (h : Quiet policy num canOff node nowMs) (hlater : node.lastEnergyUpdateMs < nowMs)
    (hsame : SameButEnergy node node') (hle : node.lastEnergyUpdateMs ≤ t) (hnow : t ≤ nowMs) :
    Scheduler.setPowerLevel policy node' (safeDesiredPowerLevel policy num canOff node' t) t false =
      (node', false) := by
  have hwanted : safeDesiredPowerLevel policy num canOff node' t =
      safeDesiredPowerLevel policy num canOff node t := by
    rw [SameButEnergy] at hsame
    rw [hsame]
    rfl
  have hsettling : settling policy node' t = settling policy node t := by
    rw [SameButEnergy] at hsame
    rw [hsame]
    rfl
  rw [hwanted, Scheduler.setPowerLevel, hsame.powerLevel, hsettling]
  rcases h t hlater hle hnow with hkept | ⟨hlower, hheld⟩
  · rw [if_pos hkept.symm]
  · have hne : node.powerLevel ≠ safeDesiredPowerLevel policy num canOff node t := fun heq => by
      rw [← heq] at hlower
      exact Nat.lt_irrefl _ hlower
    rw [if_neg hne, if_pos ⟨rfl, hlower, hheld⟩]

theorem advanceRounds_of_quiet (h : Quiet policy num canOff node nowMs)
    (hlater : node.lastEnergyUpdateMs < nowMs) {fuel : Nat} {node' : NodeRecord}
    (hsame : SameButEnergy node node') (hle : node.lastEnergyUpdateMs ≤ node'.lastEnergyUpdateMs) :
    (advanceRounds policy num canOff nowMs fuel node').2 = false := by
  induction fuel generalizing node' with
  | zero => rfl
  | succ fuel ih =>
      unfold advanceRounds
      split
      · rename_i hearlier
        have hset := h.setPowerLevel hlater hsame hle (Std.le_of_lt hearlier)
        have hmoved := (advanceRound_progress policy num canOff hearlier).1
        have hround : SameButEnergy node' (advanceRound policy num canOff nowMs node').1 := by
          rw [advanceRound, hset]
          exact sameButEnergy_integrateEnergy _ _
        have hreported : (advanceRound policy num canOff nowMs node').2 = false := by
          rw [advanceRound, hset]
        exact Bool.or_eq_false_iff.mpr
          ⟨hreported, ih (hsame.trans hround) (Std.le_trans hle (Std.le_of_lt hmoved))⟩
      · rfl

/-- A quiet replay reports no change. -/
theorem advancePowerPolicy_of_quiet (h : Quiet policy num canOff node nowMs) :
    (advancePowerPolicy policy num canOff node nowMs).2 = false := by
  unfold advancePowerPolicy
  split
  · rfl
  · rename_i hnot
    have hlater : node.lastEnergyUpdateMs < nowMs := Std.not_le.mp hnot
    have hrounds : (advanceRounds policy num canOff nowMs
        (nowMs - node.lastEnergyUpdateMs).toNat node).2 = false :=
      advanceRounds_of_quiet h hlater (.refl node) (Std.le_refl _)
    have hset := h.setPowerLevel hlater (advanceRounds_unchanged hrounds) (Std.le_of_lt hlater)
      (Std.le_refl _)
    rw [Bool.or_eq_false_iff]
    exact ⟨congrArg Prod.snd hset, hrounds⟩

end Progress

/-! ## The online floor -/

abbrev NodeTable := Table Bytes NodeRecord

def capacityBytesForSafety (node : NodeRecord) : UInt64 :=
  if node.inventory.devices = [] then calculateCapacityBytes node.profile
  else inventoryHealthyCapacityBytes node.inventory

def freeBytesForSafety (node : NodeRecord) : UInt64 :=
  let capacity := calculateCapacityBytes node.profile
  if node.inventory.devices ≠ [] then inventoryHealthyFreeBytes node.inventory
  else if capacity > node.residentDataBytes then capacity - node.residentDataBytes else 0

/-- The node counts for the floor of its kind. -/
def isOnline (node : NodeRecord) : Bool :=
  node.lifecycle = .working && node.health ≠ .failed && node.administrativeState = .enabled &&
  node.powerLevel ≠ .off && node.transition = .stable &&
  !(node.profile.executionMode = .physical && node.actuatedPowerLevel = .off)

def minimumOnlineNodes (policy : PowerPolicy) : NodeKind → UInt32
  | .storage => policy.minOnlineStorageNodes
  | .metadata => policy.minOnlineMetadataNodes
  | .opticalLibrary => policy.minOnlineOpticalNodes

/-- The online nodes of a kind that stay when the candidate leaves. -/
def remainingOnline (nodes : NodeTable) (candidate : NodeRecord) (kind : NodeKind) :
    List NodeRecord :=
  (nodes.entries.map fun entry => entry.2).filter fun node =>
    node.profile.nodeId ≠ candidate.profile.nodeId && isOnline node && node.profile.kind = kind

/-- `CanPowerOffLocked`. The count is a 32-bit number. -/
def canPowerOff (policy : PowerPolicy) (nodes : NodeTable) (candidate : NodeRecord) : Bool :=
  let kind := candidate.profile.kind
  let storage := remainingOnline nodes candidate .storage
  if UInt32.ofNat (remainingOnline nodes candidate kind).length < minimumOnlineNodes policy kind then
    false
  else if kind = .storage ∧
      (Saturating.sum (storage.map capacityBytesForSafety) <
          policy.minOnlineStorageCapacityBytes ∨
        Saturating.sum (storage.map freeBytesForSafety) < policy.minOnlineStorageFreeBytes) then
    false
  else true

end Zb.Scheduler
