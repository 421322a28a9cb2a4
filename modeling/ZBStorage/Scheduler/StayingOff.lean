-- SUMMARY: Nodes that must be off: exactly when a tick or a replay of the policy switches such a node on.
import ZBStorage.Scheduler.OnlineFloor

/-!
# Staying off

The policy wants a node off that is failed, disabled or not in service. But where
the floor does not let a working node be switched off it takes standby instead,
and that wakes a node which is off already. A tick also wakes a node that it
repairs, and a disabled node whose planned exit it finds.
-/

namespace Zb.Scheduler

open Zb.StorageModel Bytes TableLoop CallHistory
open NodePowerManager (afterAll field_eq serves_afterAll historyOf)

variable {policy : PowerPolicy} {num : Numerics} {canOff force : Bool} {nodeId : Bytes}
  {node node' : NodeRecord} {level : PowerLevel} {nowMs : UInt64}

/-! ## Level changes and their counters -/

/-- A wake is counted only from a low level to a high one. -/
theorem wakeCount_setPowerLevel
    (h : (node.powerLevel ≠ .off ∧ node.powerLevel ≠ .standby) ∨ level = .off ∨ level = .standby) :
    (setPowerLevel policy node level nowMs force).1.wakeCount = node.wakeCount := by
  rcases setPowerLevel_cases policy node level nowMs force with ⟨heq, -⟩ | ⟨heq, -⟩
  · rw [heq]
  · rw [heq]
    apply if_neg
    rintro ⟨hlow, hhigh⟩
    rcases h with ⟨hoff, hstandby⟩ | rfl | rfl
    · exact hlow.elim hoff hstandby
    · exact hhigh.elim nofun nofun
    · exact hhigh.elim nofun nofun

theorem standbyCount_setPowerLevel (h : level ≠ .standby ∨ node.powerLevel = .standby) :
    (setPowerLevel policy node level nowMs force).1.standbyTransitionCount =
      node.standbyTransitionCount := by
  rcases setPowerLevel_cases policy node level nowMs force with ⟨heq, -⟩ | ⟨heq, hne⟩
  · rw [heq]
  · rw [heq]
    apply if_neg
    rintro rfl
    exact h.elim (absurd rfl) hne

/-- A node goes up without delay. -/
theorem setPowerLevel_up (h : node.powerLevel.toNat < level.toNat) :
    setPowerLevel policy node level nowMs force =
      (enterPowerLevel (integrateEnergy node nowMs) level nowMs, true) := by
  rcases setPowerLevel_cases policy node level nowMs force with ⟨-, hsame | hdown⟩ | ⟨heq, -⟩
  · rw [hsame] at h
    exact absurd h (Nat.lt_irrefl _)
  · exact absurd hdown.2.1 (Nat.not_lt.mpr (Nat.le_of_lt h))
  · exact heq

/-! ## The replay -/

/-- The node does not leave its level off, and pays for being off only. -/
structure StaysOff (node node' : NodeRecord) : Prop where
  off : node'.powerLevel = .off
  wakeCount : node'.wakeCount = node.wakeCount
  standbyCount : node'.standbyTransitionCount = node.standbyTransitionCount
  energy : node.profile.power.offMilliwatts = 0 →
    node'.energyMicrojoules = node.energyMicrojoules

theorem SameButPower.mustBeOff (h : SameButPower node node') : mustBeOff node' = mustBeOff node := by
  rw [SameButPower] at h
  rw [h]
  rfl

theorem SameButPower.profile (h : SameButPower node node') : node'.profile = node.profile := by
  rw [SameButPower] at h
  rw [h]

theorem safeDesiredPowerLevel_of_mustBeOff (h : mustBeOff node = true)
    (hmay : node.lifecycle ≠ .working ∨ canOff = true) :
    safeDesiredPowerLevel policy num canOff node nowMs = .off := by
  simp only [safeDesiredPowerLevel, desiredPowerLevel_of_mustBeOff h]
  apply if_neg
  rintro ⟨-, hworking, hcan⟩
  rcases hmay with hlife | hmay
  · exact hlife hworking
  · rw [hmay] at hcan
    cases hcan

theorem safeDesiredPowerLevel_standby (h : mustBeOff node = true)
    (hworking : node.lifecycle = .working) (hcan : canOff = false) :
    safeDesiredPowerLevel policy num canOff node nowMs = .standby := by
  simp only [safeDesiredPowerLevel, desiredPowerLevel_of_mustBeOff h]
  exact if_pos ⟨trivial, hworking, by rw [hcan]; rfl⟩

theorem StaysOff.integrateEnergy (h : StaysOff node node') (hprofile : node'.profile = node.profile)
    (nowMs : UInt64) : StaysOff node (integrateEnergy node' nowMs) where
  off := h.off
  wakeCount := h.wakeCount
  standbyCount := h.standbyCount
  energy hfree := by
    rw [← h.energy hfree]
    simp [Scheduler.integrateEnergy, h.off, powerMilliwatts, hprofile, hfree]

/-- The node stays off in the replay if nothing has passed, it does not work or the
    floor holds without it. -/
theorem advancePowerPolicy_staysOff (hmust : mustBeOff node = true) (hoff : node.powerLevel = .off)
    (h : nowMs ≤ node.lastEnergyUpdateMs ∨ node.lifecycle ≠ .working ∨ canOff = true) :
    StaysOff node (advancePowerPolicy policy num canOff node nowMs).1 := by
  have hself : StaysOff node node := ⟨hoff, rfl, rfl, fun _ => rfl⟩
  rcases h with hpast | hmay
  · rw [advancePowerPolicy, if_pos hpast]
    exact hself
  · refine And.right (advancePowerPolicy_preserves
      (P := fun node' => SameButPower node node' ∧ StaysOff node node') ?_ ?_ ⟨.refl node, hself⟩)
    · rintro node' cursorMs ⟨hsame, hstays⟩
      have hsafe : safeDesiredPowerLevel policy num canOff node' cursorMs = .off :=
        safeDesiredPowerLevel_of_mustBeOff (hsame.mustBeOff.trans hmust) (hsame.lifecycle ▸ hmay)
      rw [hsafe, setPowerLevel_same hstays.off]
      exact ⟨hsame, hstays⟩
    · rintro node' cursorMs ⟨hsame, hstays⟩
      exact ⟨hsame.trans (sameButPower_integrateEnergy _ _),
        hstays.integrateEnergy hsame.profile cursorMs⟩

/-- The node is in standby, and was counted so once. -/
structure Woken (node node' : NodeRecord) : Prop where
  standby : node'.powerLevel = .standby
  wakeCount : node'.wakeCount = node.wakeCount
  standbyCount : node'.standbyTransitionCount = node.standbyTransitionCount + 1

/-- Otherwise the replay leaves the node in standby. -/
theorem advancePowerPolicy_wakes (hmust : mustBeOff node = true) (hoff : node.powerLevel = .off)
    (hlater : node.lastEnergyUpdateMs < nowMs) (hworking : node.lifecycle = .working)
    (hcan : canOff = false) : Woken node (advancePowerPolicy policy num canOff node nowMs).1 := by
  have hset : ∀ node' cursorMs, SameButPower node node' ∧ Woken node node' →
      SameButPower node (setPowerLevel policy node'
        (safeDesiredPowerLevel policy num canOff node' cursorMs) cursorMs false).1 ∧
      Woken node (setPowerLevel policy node'
        (safeDesiredPowerLevel policy num canOff node' cursorMs) cursorMs false).1 := by
    rintro node' cursorMs ⟨hsame, hwoken⟩
    rw [safeDesiredPowerLevel_standby (hsame.mustBeOff.trans hmust)
      (hsame.lifecycle.trans hworking) hcan, setPowerLevel_same hwoken.standby]
    exact ⟨hsame, hwoken⟩
  have hintegrate : ∀ node' cursorMs, SameButPower node node' ∧ Woken node node' →
      SameButPower node (integrateEnergy node' cursorMs) ∧
        Woken node (integrateEnergy node' cursorMs) := by
    rintro node' cursorMs ⟨hsame, hwoken⟩
    exact ⟨hsame.trans (sameButPower_integrateEnergy _ _), hwoken.standby, hwoken.wakeCount,
      hwoken.standbyCount⟩
  -- the first round wakes the node, and the later ones leave it in standby
  have hfirst : SameButPower node (advanceRound policy num canOff nowMs node).1 ∧
      Woken node (advanceRound policy num canOff nowMs node).1 := by
    apply hintegrate
    rw [safeDesiredPowerLevel_standby hmust hworking hcan, setPowerLevel_up (by rw [hoff]; decide)]
    exact ⟨rfl, rfl, by simp [enterPowerLevel, integrateEnergy], by
      simp [enterPowerLevel, integrateEnergy]⟩
  have hlt := UInt64.lt_iff_toNat_lt.mp hlater
  have hfuel : (nowMs - node.lastEnergyUpdateMs).toNat =
      (nowMs - node.lastEnergyUpdateMs).toNat - 1 + 1 := by
    rw [UInt64.toNat_sub_of_le nowMs _ (Std.le_of_lt hlater)]
    omega
  rw [advancePowerPolicy, if_neg (Std.not_le.mpr hlater), hfuel]
  dsimp only
  rw [advanceRounds, if_pos hlater]
  exact (hset _ _ (advanceRounds_preserves hset hintegrate hfirst)).2

/-! ## The rest of a tick -/

/-- The failure of a tick, if it is due. -/
def tickFailure (policy : PowerPolicy) (nowMs : UInt64) (node : NodeRecord) : NodeRecord :=
  if failureDue nowMs node then
    failNode policy nowMs (ofAscii "stochastic reliability failure") .reliabilityModel node
  else node

/-- What a tick does after the repair. -/
def tickEnd (policy : PowerPolicy) (num : Numerics) (canOff : Bool) (nowMs : UInt64)
    (node : NodeRecord) : NodeRecord :=
  let node := tickFailure policy nowMs node
  let node := if exitDue nowMs node then startDraining nowMs node else node
  (setPowerLevel policy node (safeDesiredPowerLevel policy num canOff node nowMs) nowMs false).1

theorem tickNode_eq (policy : PowerPolicy) (num : Numerics) (canOff : Bool) (nowMs : UInt64)
    (node : NodeRecord) :
    (tickNode policy num canOff nowMs node).1 =
      let advanced := (advancePowerPolicy policy num canOff node nowMs).1
      let ended := tickEnd policy num canOff nowMs
        (if repairDue nowMs node then recoverNode policy num nowMs advanced else advanced)
      actuateUnlessPhysical ended ended.powerLevel := by
  have hdue : repairDue nowMs (advancePowerPolicy policy num canOff node nowMs).1 =
      repairDue nowMs node := by
    rw [advancePowerPolicy_fst]
    rfl
  rw [← hdue, tickNode]
  generalize advancePowerPolicy policy num canOff node nowMs = advanced
  dsimp only
  generalize (if repairDue nowMs advanced.1 then recoverNode policy num nowMs advanced.1
    else advanced.1) = repaired
  rfl

theorem lifecycle_tickFailure : (tickFailure policy nowMs node).lifecycle = node.lifecycle := by
  unfold tickFailure
  split
  · rw [failNode, setPowerLevel_fst]
  · rfl

theorem exitDue_tickFailure (policy : PowerPolicy) :
    exitDue nowMs (tickFailure policy nowMs node) = exitDue nowMs node := by
  unfold tickFailure
  split
  · rw [failNode, setPowerLevel_fst]
    rfl
  · rfl

/-- A failure takes the power away, and is no wake. -/
theorem tickFailure_due (policy : PowerPolicy) (h : failureDue nowMs node = true) :
    (tickFailure policy nowMs node).health = .failed ∧
      (tickFailure policy nowMs node).powerLevel = .off ∧
      (tickFailure policy nowMs node).wakeCount = node.wakeCount ∧
      (tickFailure policy nowMs node).standbyTransitionCount = node.standbyTransitionCount := by
  rw [tickFailure, if_pos h, failNode]
  refine ⟨?_, powerLevel_setPowerLevel_force, wakeCount_setPowerLevel (.inr (.inl rfl)),
    standbyCount_setPowerLevel (.inl fun h => by cases h)⟩
  rw [setPowerLevel_fst]

theorem tickFailure_of_not_due (h : failureDue nowMs node = false) :
    tickFailure policy nowMs node = node := by
  rw [tickFailure, h]
  rfl

theorem mustBeOff_of_failed (h : node.health = .failed) : mustBeOff node = true := by
  simp [mustBeOff, h]

theorem safeDesiredPowerLevel_low (h : mustBeOff node = true) :
    safeDesiredPowerLevel policy num canOff node nowMs = .off ∨
      safeDesiredPowerLevel policy num canOff node nowMs = .standby := by
  by_cases hmay : node.lifecycle ≠ .working ∨ canOff = true
  · exact .inl (safeDesiredPowerLevel_of_mustBeOff h hmay)
  · rw [not_or, not_not, Bool.not_eq_true] at hmay
    exact .inr (safeDesiredPowerLevel_standby h hmay.1 hmay.2)

theorem safeDesiredPowerLevel_of_not_working (h : node.lifecycle ≠ .working) :
    safeDesiredPowerLevel policy num canOff node nowMs = desiredPowerLevel policy num node nowMs :=
  if_neg fun hfloor => h hfloor.2.1

theorem tickEnd_of_exit (h : exitDue nowMs node = true) :
    tickEnd policy num canOff nowMs node =
      (setPowerLevel policy (startDraining nowMs (tickFailure policy nowMs node))
        (desiredPowerLevel policy num (startDraining nowMs (tickFailure policy nowMs node)) nowMs)
        nowMs false).1 := by
  have hexits := (exitDue_tickFailure policy).trans h
  rw [tickEnd, if_pos hexits, safeDesiredPowerLevel_of_not_working]
  exact nofun

theorem tickEnd_of_not_exit (h : exitDue nowMs node = false) :
    tickEnd policy num canOff nowMs node =
      (setPowerLevel policy (tickFailure policy nowMs node)
        (safeDesiredPowerLevel policy num canOff (tickFailure policy nowMs node) nowMs) nowMs
        false).1 := by
  have hstays := (exitDue_tickFailure policy).trans h
  rw [tickEnd, hstays]
  rfl

/-- A node that was just repaired is not woken again. -/
theorem wakeCount_tickEnd (h : node.powerLevel = .medium) :
    (tickEnd policy num canOff nowMs node).wakeCount = node.wakeCount := by
  cases hdue : failureDue nowMs node with
  | false =>
      rw [tickEnd, tickFailure_of_not_due hdue]
      split
      · exact wakeCount_setPowerLevel (.inl (by simp [startDraining, h]))
      · exact wakeCount_setPowerLevel (.inl (by simp [h]))
  | true =>
      obtain ⟨hfailed, -, hwakes, -⟩ := tickFailure_due policy hdue
      rw [tickEnd]
      split
      · have hmust : mustBeOff (startDraining nowMs (tickFailure policy nowMs node)) = true :=
          mustBeOff_of_failed hfailed
        rw [wakeCount_setPowerLevel (.inr (safeDesiredPowerLevel_low hmust))]
        exact hwakes
      · rw [wakeCount_setPowerLevel (.inr (safeDesiredPowerLevel_low (mustBeOff_of_failed hfailed)))]
        exact hwakes

/-- A working node that has to make up the floor does not end a tick below standby. -/
theorem tickEnd_standby (hmust : mustBeOff node = true) (hworking : node.lifecycle = .working)
    (hcan : canOff = false) (hlow : node.powerLevel = .off ∨ node.powerLevel = .standby)
    (hstays : exitDue nowMs node = false) :
    (tickEnd policy num canOff nowMs node).powerLevel = .standby := by
  have hfailure : mustBeOff (tickFailure policy nowMs node) = true ∧
      ((tickFailure policy nowMs node).powerLevel = .off ∨
        (tickFailure policy nowMs node).powerLevel = .standby) := by
    cases hdue : failureDue nowMs node with
    | false =>
        rw [tickFailure_of_not_due hdue]
        exact ⟨hmust, hlow⟩
    | true =>
        obtain ⟨hfailed, hoff, -, -⟩ := tickFailure_due policy hdue
        exact ⟨mustBeOff_of_failed hfailed, .inl hoff⟩
  rw [tickEnd_of_not_exit hstays, safeDesiredPowerLevel_standby hfailure.1
    (lifecycle_tickFailure.trans hworking) hcan]
  rcases hfailure.2 with hoff | hstandby
  · rw [setPowerLevel_up (by rw [hoff]; decide)]
    rfl
  · rw [setPowerLevel_same hstandby]
    exact hstandby

/-- A node that leaves from standby is not counted again. -/
theorem standbyCount_tickEnd (hstandby : node.powerLevel = .standby)
    (hexits : exitDue nowMs node = true) :
    (tickEnd policy num canOff nowMs node).standbyTransitionCount = node.standbyTransitionCount := by
  rw [tickEnd_of_exit hexits]
  cases hdue : failureDue nowMs node with
  | false =>
      rw [tickFailure_of_not_due hdue]
      exact standbyCount_setPowerLevel (.inr hstandby)
  | true =>
      obtain ⟨hfailed, -, -, hcount⟩ := tickFailure_due policy hdue
      rw [desiredPowerLevel_of_mustBeOff (mustBeOff_of_failed (by exact hfailed))]
      rw [standbyCount_setPowerLevel (.inl (by decide))]
      exact hcount

theorem StaysOff.tickFailure (h : StaysOff node node') :
    StaysOff node (tickFailure policy nowMs node') := by
  unfold Scheduler.tickFailure
  split
  · rw [failNode, setPowerLevel_same (by exact h.off)]
    exact ⟨h.off, h.wakeCount, h.standbyCount, h.energy⟩
  · exact h

theorem staysOff_actuateUnlessPhysical :
    StaysOff node (actuateUnlessPhysical node' level) ↔ StaysOff node node' := by
  rw [actuateUnlessPhysical_eq]
  exact ⟨fun ⟨hoff, hwakes, hstandby, henergy⟩ => ⟨hoff, hwakes, hstandby, henergy⟩,
    fun ⟨hoff, hwakes, hstandby, henergy⟩ => ⟨hoff, hwakes, hstandby, henergy⟩⟩

/-- The level that a node wants once it drains does not depend on its account. -/
theorem SameButPower.desired_draining (h : SameButPower node node') :
    desiredPowerLevel policy num (startDraining nowMs node') nowMs =
      desiredPowerLevel policy num (startDraining nowMs node) nowMs := by
  rw [SameButPower] at h
  rw [h]
  rfl

theorem SameButPower.exitDue (h : SameButPower node node') :
    exitDue nowMs node' = exitDue nowMs node := by
  rw [SameButPower] at h
  rw [h]
  rfl

theorem SameButPower.failureDue (h : SameButPower node node') :
    failureDue nowMs node' = failureDue nowMs node := by
  rw [SameButPower] at h
  rw [h]
  rfl

/-! ## When a tick wakes a node -/

/-- The node is off, and for a reason that the step does not end. -/
structure KeptOff (nowMs : UInt64) (node : NodeRecord) : Prop where
  off : node.powerLevel = .off
  reason : (node.health = .failed ∧ repairDue nowMs node = false) ∨
    node.administrativeState = .disabled ∨ node.lifecycle = .joining ∨
    node.lifecycle = .exiting ∨ node.lifecycle = .retired

theorem KeptOff.mustBeOff (h : KeptOff nowMs node) : mustBeOff node = true := by
  rcases h.reason with hreason | hreason | hreason | hreason | hreason
  · simp [Scheduler.mustBeOff, hreason.1]
  all_goals simp [Scheduler.mustBeOff, hreason]

/-- The turn of a node in a tick repairs it, puts standby for off because of the floor,
    or lets it drain. -/
def TickWakes (policy : PowerPolicy) (num : Numerics) (canOff : Bool) (nowMs : UInt64)
    (node : NodeRecord) : Prop :=
  repairDue nowMs node = true ∨
  (node.lifecycle = .working ∧ canOff = false ∧
    (node.lastEnergyUpdateMs < nowMs ∨ exitDue nowMs node = false)) ∨
  (exitDue nowMs node = true ∧ node.health ≠ .failed ∧ failureDue nowMs node = false ∧
    desiredPowerLevel policy num (startDraining nowMs node) nowMs ≠ .off)

instance (policy : PowerPolicy) (num : Numerics) (canOff : Bool) (nowMs : UInt64)
    (node : NodeRecord) : Decidable (TickWakes policy num canOff nowMs node) :=
  inferInstanceAs (Decidable (_ ∨ _ ∨ _))

theorem add_one_ne (n : UInt64) : n + 1 ≠ n := by
  simp

theorem not_staysOff_repaired (hwakes : node'.wakeCount = node.wakeCount)
    (hlow : node'.powerLevel = .off ∨ node'.powerLevel = .standby) :
    ¬ StaysOff node (tickEnd policy num canOff nowMs (recoverNode policy num nowMs node')) := by
  intro hstays
  have hup : node'.powerLevel.toNat < PowerLevel.medium.toNat := by
    rcases hlow with hlevel | hlevel
    · rw [hlevel]
      decide
    · rw [hlevel]
      decide
  have hcount : (recoverNode policy num nowMs node').wakeCount = node.wakeCount + 1 := by
    rw [recoverNode, setPowerLevel_up (by exact hup), ← hwakes]
    exact if_pos ⟨hlow, .inl rfl⟩
  have hmedium : (recoverNode policy num nowMs node').powerLevel = .medium :=
    powerLevel_setPowerLevel_force
  have hended := hstays.wakeCount
  rw [wakeCount_tickEnd hmedium, hcount] at hended
  exact add_one_ne _ hended

theorem not_staysOff_woken (hsame : SameButPower node node') (hwoken : Woken node node')
    (hmust : mustBeOff node = true) (hworking : node.lifecycle = .working)
    (hcan : canOff = false) : ¬ StaysOff node (tickEnd policy num canOff nowMs node') := by
  intro hstays
  cases hexits : exitDue nowMs node' with
  | false =>
      have hstandby : (tickEnd policy num canOff nowMs node').powerLevel = .standby :=
        tickEnd_standby (hsame.mustBeOff.trans hmust) (hsame.lifecycle.trans hworking) hcan
          (.inr hwoken.standby) hexits
      cases hstandby.symm.trans hstays.off
  | true =>
      have hcount := hstays.standbyCount
      rw [standbyCount_tickEnd hwoken.standby hexits, hwoken.standbyCount] at hcount
      exact add_one_ne _ hcount

theorem not_staysOff_draining (hsame : SameButPower node node') (hoff : node'.powerLevel = .off)
    (hexits : exitDue nowMs node = true) (hdue : failureDue nowMs node = false)
    (hdesired : desiredPowerLevel policy num (startDraining nowMs node) nowMs ≠ .off) :
    ¬ StaysOff node (tickEnd policy num canOff nowMs node') := by
  intro hstays
  have hlevel := hstays.off
  rw [tickEnd_of_exit (hsame.exitDue.trans hexits),
    tickFailure_of_not_due (hsame.failureDue.trans hdue), hsame.desired_draining,
    setPowerLevel_up] at hlevel
  · exact hdesired hlevel
  · have hzero : (startDraining nowMs node').powerLevel.toNat = 0 := by
      rw [startDraining, hoff]
      rfl
    rw [hzero]
    cases hlevel : desiredPowerLevel policy num (startDraining nowMs node) nowMs with
    | off => exact absurd hlevel hdesired
    | standby => decide
    | medium => decide
    | peak => decide

/-- A node that has no cause to wake ends the tick off. -/
theorem StaysOff.tickEnd (hsame : SameButPower node node') (hstays : StaysOff node node')
    (hmust : mustBeOff node = true)
    (hfloor : node.lifecycle ≠ .working ∨ canOff = true ∨ exitDue nowMs node = true)
    (hdrains : exitDue nowMs node = true → node.health = .failed ∨ failureDue nowMs node = true ∨
      desiredPowerLevel policy num (startDraining nowMs node) nowMs = .off) :
    StaysOff node (tickEnd policy num canOff nowMs node') := by
  have hfailure : StaysOff node (Scheduler.tickFailure policy nowMs node') := hstays.tickFailure
  have hfailed : node.health = .failed ∨ failureDue nowMs node = true →
      (Scheduler.tickFailure policy nowMs node').health = .failed := by
    intro hcause
    cases hdue : Scheduler.failureDue nowMs node' with
    | true => exact (tickFailure_due policy hdue).1
    | false =>
        rw [tickFailure_of_not_due hdue]
        rw [← hsame.failureDue, hdue] at hcause
        rw [SameButPower] at hsame
        rw [hsame]
        exact hcause.resolve_right Bool.false_ne_true
  cases hexits : Scheduler.exitDue nowMs node with
  | true =>
      have hdesired : desiredPowerLevel policy num
          (startDraining nowMs (Scheduler.tickFailure policy nowMs node')) nowMs = .off := by
        rcases hdrains hexits with hcause | hcause | hdesired
        · exact desiredPowerLevel_of_mustBeOff (mustBeOff_of_failed (hfailed (.inl hcause)))
        · exact desiredPowerLevel_of_mustBeOff (mustBeOff_of_failed (hfailed (.inr hcause)))
        · cases hdue : Scheduler.failureDue nowMs node' with
          | true =>
              exact desiredPowerLevel_of_mustBeOff
                (mustBeOff_of_failed (tickFailure_due policy hdue).1)
          | false =>
              rw [tickFailure_of_not_due hdue, hsame.desired_draining]
              exact hdesired
      rw [tickEnd_of_exit (hsame.exitDue.trans hexits), hdesired,
        setPowerLevel_same (by exact hfailure.off)]
      exact ⟨hfailure.off, hfailure.wakeCount, hfailure.standbyCount, hfailure.energy⟩
  | false =>
      have hmust' : Scheduler.mustBeOff (Scheduler.tickFailure policy nowMs node') = true := by
        cases hdue : Scheduler.failureDue nowMs node' with
        | true => exact mustBeOff_of_failed (tickFailure_due policy hdue).1
        | false =>
            rw [tickFailure_of_not_due hdue]
            exact hsame.mustBeOff.trans hmust
      have hmay : (Scheduler.tickFailure policy nowMs node').lifecycle ≠ .working ∨
          canOff = true := by
        rw [lifecycle_tickFailure, hsame.lifecycle]
        rcases hfloor with hlife | hcan | hexit
        · exact .inl hlife
        · exact .inr hcan
        · exact absurd (hexits.symm.trans hexit) Bool.false_ne_true
      rw [tickEnd_of_not_exit (hsame.exitDue.trans hexits),
        safeDesiredPowerLevel_of_mustBeOff hmust' hmay, setPowerLevel_same hfailure.off]
      exact hfailure

/-- The replay wakes the node exactly if it works, time has passed and the floor does
    not hold without it. -/
theorem advancePowerPolicy_staysOff_iff (policy : PowerPolicy) (num : Numerics) (canOff : Bool)
    (nowMs : UInt64) (hmust : mustBeOff node = true) (hoff : node.powerLevel = .off) :
    StaysOff node (advancePowerPolicy policy num canOff node nowMs).1 ↔
      nowMs ≤ node.lastEnergyUpdateMs ∨ node.lifecycle ≠ .working ∨ canOff = true := by
  constructor
  · intro hstays
    by_contra hnot
    rw [not_or, not_or, Std.not_le, not_not, Bool.not_eq_true] at hnot
    have hwoken : Woken node (advancePowerPolicy policy num canOff node nowMs).1 :=
      advancePowerPolicy_wakes hmust hoff hnot.1 hnot.2.1 hnot.2.2
    cases hwoken.standby.symm.trans hstays.off
  · exact advancePowerPolicy_staysOff hmust hoff

theorem tickNode_wakes (h : KeptOff nowMs node) (hwakes : TickWakes policy num canOff nowMs node) :
    ¬ StaysOff node (tickNode policy num canOff nowMs node).1 := by
  have hsame : SameButPower node (advancePowerPolicy policy num canOff node nowMs).1 :=
    sameButPower_advancePowerPolicy
  have hreplay := advancePowerPolicy_staysOff_iff policy num canOff nowMs h.mustBeOff h.off
  rw [tickNode_eq, staysOff_actuateUnlessPhysical]
  by_cases hoff : nowMs ≤ node.lastEnergyUpdateMs ∨ node.lifecycle ≠ .working ∨ canOff = true
  · have hstays := hreplay.mpr hoff
    cases hrepair : repairDue nowMs node with
    | true => exact not_staysOff_repaired hstays.wakeCount (.inl hstays.off)
    | false =>
        rcases hwakes with hdue | ⟨hworking, hcan, hlater⟩ | ⟨hexits, -, hdue, hdesired⟩
        · rw [hrepair] at hdue
          cases hdue
        · have hpast : nowMs ≤ node.lastEnergyUpdateMs := by
            rcases hoff with hpast | hlife | hmay
            · exact hpast
            · exact absurd hworking hlife
            · exact absurd (hcan.symm.trans hmay) Bool.false_ne_true
          have hexits := hlater.resolve_left (Std.not_lt.mpr hpast)
          intro hended
          have hstandby : (tickEnd policy num canOff nowMs
              (advancePowerPolicy policy num canOff node nowMs).1).powerLevel = .standby :=
            tickEnd_standby (hsame.mustBeOff.trans h.mustBeOff) (hsame.lifecycle.trans hworking)
              hcan (.inl hstays.off) (hsame.exitDue.trans hexits)
          cases hstandby.symm.trans hended.off
        · exact not_staysOff_draining hsame hstays.off hexits hdue hdesired
  · rw [not_or, not_or, Std.not_le, not_not, Bool.not_eq_true] at hoff
    have hwoken : Woken node (advancePowerPolicy policy num canOff node nowMs).1 :=
      advancePowerPolicy_wakes h.mustBeOff h.off hoff.1 hoff.2.1 hoff.2.2
    cases hrepair : repairDue nowMs node with
    | true => exact not_staysOff_repaired hwoken.wakeCount (.inr hwoken.standby)
    | false => exact not_staysOff_woken hsame hwoken h.mustBeOff hoff.2.1 hoff.2.2

theorem tickNode_staysOff (h : KeptOff nowMs node)
    (hwakes : ¬ TickWakes policy num canOff nowMs node) :
    StaysOff node (tickNode policy num canOff nowMs node).1 := by
  rw [TickWakes, not_or, not_or] at hwakes
  obtain ⟨hrepair, hfloor, hdrains⟩ := hwakes
  have hfloor' : node.lifecycle ≠ .working ∨ canOff = true ∨
      nowMs ≤ node.lastEnergyUpdateMs ∧ exitDue nowMs node = true := by
    rw [not_and_or, not_and_or, not_or, Std.not_lt, Bool.not_eq_false, Bool.not_eq_false] at hfloor
    exact hfloor
  have hoff : nowMs ≤ node.lastEnergyUpdateMs ∨ node.lifecycle ≠ .working ∨ canOff = true := by
    rcases hfloor' with hlife | hcan | hpast
    · exact .inr (.inl hlife)
    · exact .inr (.inr hcan)
    · exact .inl hpast.1
  rw [tickNode_eq, staysOff_actuateUnlessPhysical, if_neg hrepair]
  apply StaysOff.tickEnd sameButPower_advancePowerPolicy
    (advancePowerPolicy_staysOff h.mustBeOff h.off hoff) h.mustBeOff
  · exact hfloor'.imp_right (Or.imp_right And.right)
  · intro hexits
    by_contra hcauses
    rw [not_or, not_or, Bool.not_eq_true] at hcauses
    exact hdrains ⟨hexits, hcauses⟩

/-! ## The law -/

/-- The literal promise: in every reachable table, a node that is kept off is off after
    every tick and after every replay of the policy. -/
def NeverTurnedOn (policy : PowerPolicy) (num : Numerics) : Prop :=
  ∀ hist manager, Reaches policy num Any hist manager →
    ∀ nodeId node nowMs, manager.nodes.lookup nodeId = some node → KeptOff nowMs node →
      (∀ order filter node', Enumerates order manager.nodes →
        (manager.tickMatching policy num order filter nowMs).nodes.lookup nodeId = some node' →
        node'.powerLevel = .off) ∧
      (advancePowerPolicy policy num (canPowerOff policy manager.nodes node) node
        nowMs).1.powerLevel = .off

/-- A node that is kept off stays off in a tick exactly if the tick passes over it or
    has no cause to wake it in the table as it is at its turn, and in a replay exactly if
    no time has passed, it does not work or the floor holds without it. -/
theorem stays_off_iff (policy : PowerPolicy) (num : Numerics) (manager : NodePowerManager)
    (nodeId : Bytes) (node : NodeRecord) (nowMs : UInt64)
    (hlookup : manager.nodes.lookup nodeId = some node) (hkept : KeptOff nowMs node) :
    (∀ order₁ order₂ filter node', Enumerates (order₁ ++ nodeId :: order₂) manager.nodes →
      (manager.tickMatching policy num (order₁ ++ nodeId :: order₂) filter nowMs).nodes.lookup
        nodeId = some node' →
      (StaysOff node node' ↔ filter.skips node = true ∨
        ¬ TickWakes policy num
          (canPowerOff policy (forEach (NodePowerManager.tickTurn policy num filter nowMs) order₁
            manager.nodes).1 node) nowMs node)) ∧
    (StaysOff node
        (advancePowerPolicy policy num (canPowerOff policy manager.nodes node) node nowMs).1 ↔
      nowMs ≤ node.lastEnergyUpdateMs ∨ node.lifecycle ≠ .working ∨
        canPowerOff policy manager.nodes node = true) := by
  refine ⟨?_, advancePowerPolicy_staysOff_iff policy num _ nowMs hkept.mustBeOff hkept.off⟩
  intro order₁ order₂ filter node' henumerates hlookup'
  have hturn : node' = (NodePowerManager.tickTurn policy num filter nowMs
      (forEach (NodePowerManager.tickTurn policy num filter nowMs) order₁ manager.nodes).1 node).1 :=
    Option.some.inj (hlookup'.symm.trans (lookup_forEach henumerates.nodup hlookup))
  rw [hturn, NodePowerManager.tickTurn]
  cases hskips : filter.skips node with
  | true => exact ⟨fun _ => .inl rfl, fun _ => ⟨hkept.off, rfl, rfl, fun _ => rfl⟩⟩
  | false =>
      rw [if_neg Bool.false_ne_true, or_iff_right Bool.false_ne_true]
      exact ⟨fun hstays hwakes => tickNode_wakes hkept hwakes hstays, tickNode_staysOff hkept⟩

/-- The only node fails. -/
def failedCalls : List ManagerCall :=
  workingCalls ++ [.node durableDisk.nodeId (.markNodeFailed 2 [])]

theorem stays_off_iff_failed :
    ∃ node node', (afterAll {} plainNumerics {} failedCalls).nodes.lookup
        durableDisk.nodeId = some node ∧
      ((afterAll {} plainNumerics {} failedCalls).tickMatching {} plainNumerics
        [durableDisk.nodeId] .all 5000).nodes.lookup durableDisk.nodeId = some node' ∧
      KeptOff 5000 node ∧ StaysOff node node' := by
  have hkeys : (afterAll {} plainNumerics {} failedCalls).nodes.keys =
    [durableDisk.nodeId] := by decide +kernel
  cases hlookup : (afterAll {} plainNumerics {} failedCalls).nodes.lookup
      durableDisk.nodeId with
  | none => exact absurd hlookup (by decide +kernel)
  | some node =>
      have hkept : KeptOff 5000 node :=
        ⟨field_eq (f := fun node => node.powerLevel) (by decide +kernel) hlookup,
          .inl ⟨field_eq (f := NodeRecord.health) (by decide +kernel) hlookup,
            field_eq (f := repairDue 5000) (by decide +kernel) hlookup⟩⟩
      have hwakes : decide (TickWakes {} plainNumerics (canPowerOff {}
          (afterAll {} plainNumerics {} failedCalls).nodes node) 5000 node) =
          false :=
        field_eq (f := fun node => decide (TickWakes {} plainNumerics
          (canPowerOff {} (afterAll {} plainNumerics {} failedCalls).nodes node)
          5000 node)) (by decide +kernel) hlookup
      cases hlookup' : ((afterAll {} plainNumerics {} failedCalls).tickMatching {}
          plainNumerics [durableDisk.nodeId] .all 5000).nodes.lookup durableDisk.nodeId with
      | none => exact absurd hlookup' (by decide +kernel)
      | some node' =>
          refine ⟨node, node', rfl, rfl, hkept, ?_⟩
          exact ((stays_off_iff {} plainNumerics _ _ node 5000 hlookup hkept).1 [] [] .all node'
            (hkeys ▸ enumerates_keys _) hlookup').mpr (.inr (of_decide_eq_false hwakes))

/-- With a floor of one node, the tick puts the failed node into standby. -/
theorem failed_node_woken : ¬ NeverTurnedOn oneOnline plainNumerics := by
  intro hnever
  have hreaches : Reaches oneOnline plainNumerics Any
      (historyOf oneOnline plainNumerics {} failedCalls)
      (afterAll oneOnline plainNumerics {} failedCalls) :=
    serves_afterAll failedCalls ⟨trivial, trivial, trivial, trivial, trivial,
      trivial, trivial⟩
  cases hlookup : (afterAll oneOnline plainNumerics {} failedCalls).nodes.lookup
      durableDisk.nodeId with
  | none => exact absurd hlookup (by decide +kernel)
  | some node =>
      have hkept : KeptOff 5000 node :=
        ⟨field_eq (f := fun node => node.powerLevel) (by decide +kernel) hlookup,
          .inl ⟨field_eq (f := NodeRecord.health) (by decide +kernel) hlookup,
            field_eq (f := repairDue 5000) (by decide +kernel) hlookup⟩⟩
      have hkeys : (afterAll oneOnline plainNumerics {} failedCalls).nodes.keys =
        [durableDisk.nodeId] := by decide +kernel
      cases hlookup' : ((afterAll oneOnline plainNumerics {}
          failedCalls).tickMatching oneOnline plainNumerics [durableDisk.nodeId] .all
          5000).nodes.lookup durableDisk.nodeId with
      | none => exact absurd hlookup' (by decide +kernel)
      | some node' =>
          have hstandby : node'.powerLevel = .standby :=
            field_eq (f := fun node => node.powerLevel) (by decide +kernel)
              hlookup'
          have hoff := (hnever _ _ hreaches _ node 5000 hlookup hkept).1 _ .all node'
            (hkeys ▸ enumerates_keys _) hlookup'
          cases hstandby.symm.trans hoff

end Zb.Scheduler
