-- SUMMARY: The replay of the power policy cut in two at any time: the boundaries, and the idle rounds between them.
import ZBStorage.Scheduler.OnlineFloor

/-!
# Replay in slices

A replay goes from boundary to boundary. Between two of them the desired level is
the same, and a level that may not be left at the first may not be left before the
second. So a replay that stops in between leaves the node as it is, and the energy of
the interval is the same in one piece or in two.
-/

namespace Zb.Scheduler

open Zb.StorageModel Bytes TableLoop

variable {policy : PowerPolicy} {num : Numerics} {canOff : Bool} {node node' : NodeRecord}
  {cursorMs nowMs a b t : UInt64}

/-! ## Energy -/

/-- An account with its last update, brought forward twice or once. -/
theorem accrue_accrue (rate energy last : UInt64) (h : a ≤ b) :
    (if b > if a > last then a else last then
        Saturating.add (if a > last then Saturating.add energy (Saturating.mul rate (a - last))
          else energy) (Saturating.mul rate (b - if a > last then a else last))
      else if a > last then Saturating.add energy (Saturating.mul rate (a - last)) else energy) =
      if b > last then Saturating.add energy (Saturating.mul rate (b - last)) else energy := by
  by_cases hlast : a > last
  · have hb : b > last := Std.lt_of_lt_of_le hlast h
    simp only [if_pos hlast, if_pos hb]
    by_cases hlt : b > a
    · rw [if_pos hlt, Saturating.add_mul_add energy rate (Std.le_of_lt hlast) h]
    · have hsame : a = b := Std.le_antisymm h (Std.not_lt.mp hlt)
      rw [if_neg hlt, hsame]
  · simp only [if_neg hlast]

theorem latest_latest (last : UInt64) (h : a ≤ b) :
    (if b > if a > last then a else last then b else if a > last then a else last) =
      if b > last then b else last := by
  by_cases hlast : a > last
  · simp only [if_pos hlast, if_pos (Std.lt_of_lt_of_le hlast h : b > last)]
    by_cases hlt : b > a
    · exact if_pos hlt
    · rw [if_neg hlt]
      exact Std.le_antisymm h (Std.not_lt.mp hlt)
  · simp only [if_neg hlast]

theorem integrateEnergy_integrateEnergy (node : NodeRecord) (h : a ≤ b) :
    integrateEnergy (integrateEnergy node a) b = integrateEnergy node b := by
  unfold integrateEnergy
  dsimp only
  rw [accrue_accrue _ _ _ h, accrue_accrue _ _ _ h, latest_latest _ h, latest_latest _ h]

theorem integrateEnergy_self (h : node.lastEnergyUpdateMs ≤ nowMs) :
    (integrateEnergy node nowMs).lastEnergyUpdateMs = nowMs := by
  simp only [integrateEnergy]
  split
  · rfl
  · rename_i hnot
    exact Std.le_antisymm h (Std.not_lt.mp hnot)

/-! ## Boundaries -/

/-- The first of the boundaries after the cursor, or the end. -/
structure IsNext (boundaries : List UInt64) (cursorMs nowMs nextMs : UInt64) : Prop where
  le_now : nextMs ≤ nowMs
  first : ∀ b ∈ boundaries, cursorMs < b → nextMs ≤ b
  reached : nextMs = nowMs ∨ ∃ b ∈ boundaries, cursorMs < b ∧ nextMs = b

theorem IsNext.unique {boundaries : List UInt64} {nextMs nextMs' : UInt64}
    (h : IsNext boundaries cursorMs nowMs nextMs)
    (h' : IsNext boundaries cursorMs nowMs nextMs') : nextMs = nextMs' := by
  have hle {n n' : UInt64} (h : IsNext boundaries cursorMs nowMs n)
      (h' : IsNext boundaries cursorMs nowMs n') : n ≤ n' := by
    rcases h'.reached with rfl | ⟨b, hb, hlt, rfl⟩
    · exact h.le_now
    · exact h.first _ hb hlt
  exact Std.le_antisymm (hle h h') (hle h' h)

theorem isNext_nextBoundary (policy : PowerPolicy) (node : NodeRecord)
    (cursorMs nowMs : UInt64) :
    IsNext (policyBoundaries policy node) cursorMs nowMs
      (nextBoundary policy node cursorMs nowMs) := by
  unfold nextBoundary
  generalize policyBoundaries policy node = boundaries
  have hfold : ∀ nextMs, IsNext (nextMs :: boundaries) cursorMs nextMs
      (boundaries.foldl (fun nextMs boundaryMs =>
        if boundaryMs > cursorMs ∧ boundaryMs < nextMs then boundaryMs else nextMs) nextMs) := by
    induction boundaries with
    | nil =>
        intro nextMs
        exact ⟨Std.le_refl _, fun b hb _ => by
          rw [List.mem_singleton.mp hb]
          exact Std.le_refl _, .inl rfl⟩
    | cons boundary boundaries ih =>
        intro nextMs
        rw [List.foldl_cons]
        split
        · rename_i hcloser
          obtain ⟨hle, hfirst, hreached⟩ := ih boundary
          refine ⟨Std.le_of_lt (Std.lt_of_le_of_lt hle hcloser.2), ?_, .inr ?_⟩
          · intro b hb hlt
            rcases List.mem_cons.mp hb with rfl | hb
            · exact Std.le_of_lt (Std.lt_of_le_of_lt hle hcloser.2)
            · exact hfirst b hb hlt
          · rcases hreached with hsame | ⟨b, hb, hlt, hsame⟩
            · exact ⟨boundary, by simp, hcloser.1, hsame⟩
            · exact ⟨b, List.mem_cons_of_mem _ hb, hlt, hsame⟩
        · rename_i hnot
          obtain ⟨hle, hfirst, hreached⟩ := ih nextMs
          refine ⟨hle, ?_, ?_⟩
          · intro b hb hlt
            rcases List.mem_cons.mp hb with rfl | hb
            · exact hle
            rcases List.mem_cons.mp hb with rfl | hb
            · exact UInt64.le_trans hle (Std.not_lt.mp fun hlt' => hnot ⟨hlt, hlt'⟩)
            · exact hfirst b (List.mem_cons_of_mem _ hb) hlt
          · rcases hreached with hsame | ⟨b, hb, hlt, hsame⟩
            · exact .inl hsame
            rcases List.mem_cons.mp hb with rfl | hb
            · exact .inl hsame
            · exact .inr ⟨b, by simp [hb], hlt, hsame⟩
  obtain ⟨hle, hfirst, hreached⟩ := hfold nowMs
  refine ⟨hle, fun b hb => hfirst b (List.mem_cons_of_mem _ hb), ?_⟩
  rcases hreached with hsame | ⟨b, hb, hlt, hsame⟩
  · exact .inl hsame
  rcases List.mem_cons.mp hb with rfl | hb
  · exact .inl hsame
  · exact .inr ⟨b, hb, hlt, hsame⟩

/-- An earlier end that lies after the next boundary does not matter. -/
theorem nextBoundary_of_le (hab : a ≤ b) (h : nextBoundary policy node cursorMs b ≤ a) :
    nextBoundary policy node cursorMs a = nextBoundary policy node cursorMs b := by
  have hnext := isNext_nextBoundary policy node cursorMs b
  refine (isNext_nextBoundary policy node cursorMs a).unique ⟨h, hnext.first, ?_⟩
  refine hnext.reached.imp_left fun hend => ?_
  refine Std.le_antisymm h ?_
  rw [hend]
  exact hab

/-- An end before the next boundary is reached at once. -/
theorem nextBoundary_of_lt (h : a < nextBoundary policy node cursorMs b) :
    nextBoundary policy node cursorMs a = a := by
  have hnext := isNext_nextBoundary policy node cursorMs b
  refine (isNext_nextBoundary policy node cursorMs a).unique ⟨Std.le_refl a, ?_, .inl rfl⟩
  exact fun boundary hmem hlt => Std.le_of_lt (Std.lt_of_lt_of_le h (hnext.first _ hmem hlt))

/-- The next boundary is the same from everywhere in front of it. -/
theorem nextBoundary_from (hcursor : cursorMs ≤ a) (h : a < nextBoundary policy node cursorMs b) :
    nextBoundary policy node a b = nextBoundary policy node cursorMs b := by
  have hnext := isNext_nextBoundary policy node cursorMs b
  refine (isNext_nextBoundary policy node a b).unique ⟨hnext.le_now, ?_, ?_⟩
  · exact fun boundary hmem hlt => hnext.first _ hmem (Std.lt_of_le_of_lt hcursor hlt)
  · refine hnext.reached.imp_right fun ⟨boundary, hmem, _, hsame⟩ => ?_
    exact ⟨boundary, hmem, hsame ▸ h, hsame⟩

/-! ## Between the boundaries -/

/-- No boundary lies after the one time and up to the other. -/
def NoBoundary (policy : PowerPolicy) (node : NodeRecord) (a b : UInt64) : Prop :=
  ∀ boundary ∈ policyBoundaries policy node, ¬ (a < boundary ∧ boundary ≤ b)

theorem noBoundary_of_lt (h : a < nextBoundary policy node cursorMs b) :
    NoBoundary policy node cursorMs a := fun _ hmem hbetween =>
  Std.not_lt.mpr (UInt64.le_trans ((isNext_nextBoundary policy node cursorMs b).first _ hmem
    hbetween.1) hbetween.2) h

/-- A term that did not end before a boundary has not ended since. -/
theorem term_ends_iff {start term : UInt64} (hab : a ≤ b)
    (h : ¬ (a < Saturating.add start term ∧ Saturating.add start term ≤ b)) :
    start.toNat + term.toNat ≤ b.toNat ↔ start.toNat + term.toNat ≤ a.toNat := by
  have hb := b.toNat_lt
  rw [UInt64.lt_iff_toNat_lt, UInt64.le_iff_toNat_le, Saturating.toNat_add] at h
  rw [UInt64.le_iff_toNat_le] at hab
  omega

theorem elapsed_lt_iff {start term : UInt64} (h : start ≤ t) :
    t - start < term ↔ ¬ start.toNat + term.toNat ≤ t.toNat := by
  rw [UInt64.lt_iff_toNat_lt, UInt64.toNat_sub_of_le _ _ h]
  rw [UInt64.le_iff_toNat_le] at h
  omega

theorem idle_ge_iff (last term t : UInt64) :
    (if t > last then t - last else 0) ≥ term ↔ term = 0 ∨ last.toNat + term.toNat ≤ t.toNat := by
  have hzero : term = 0 ↔ term.toNat = 0 := UInt64.toNat_inj.symm
  rw [hzero]
  split
  · rename_i hlater
    have hle := Std.le_of_lt hlater
    rw [ge_iff_le, UInt64.le_iff_toNat_le, UInt64.toNat_sub_of_le _ _ hle]
    have hlt := UInt64.lt_iff_toNat_lt.mp hlater
    omega
  · rename_i hnot
    have hle := UInt64.le_iff_toNat_le.mp (Std.not_lt.mp hnot)
    rw [ge_iff_le, UInt64.le_iff_toNat_le, UInt64.toNat_zero]
    omega

variable (hab : a ≤ b) (hnone : NoBoundary policy node a b)

include hab hnone

theorem freshPeak_constant (hpast : node.lastMetricsEndMs ≤ a) :
    freshPeak policy num node b = freshPeak policy num node a := by
  have hends := term_ends_iff hab (hnone (Saturating.add node.lastMetricsEndMs
    policy.metricsFreshnessMs) (by simp [policyBoundaries]))
  have hpast' := UInt64.le_trans hpast hab
  have hfresh : decide (b - node.lastMetricsEndMs < policy.metricsFreshnessMs) =
      decide (a - node.lastMetricsEndMs < policy.metricsFreshnessMs) := by
    rw [decide_eq_decide, elapsed_lt_iff hpast, elapsed_lt_iff hpast', hends]
  rw [freshPeak, freshPeak, hfresh, decide_eq_true hpast, decide_eq_true hpast']

theorem idle_constant {term : UInt64}
    (hmem : Saturating.add node.lastAccessMs term ∈ policyBoundaries policy node) :
    (if b > node.lastAccessMs then b - node.lastAccessMs else 0) ≥ term ↔
      (if a > node.lastAccessMs then a - node.lastAccessMs else 0) ≥ term := by
  rw [idle_ge_iff, idle_ge_iff, term_ends_iff hab (hnone _ hmem)]

theorem opticalSampleInvalid_constant :
    opticalSampleInvalid node b = opticalSampleInvalid node a := by
  by_cases hversion : node.opticalLibrary.telemetryVersion = 0
  · simp [opticalSampleInvalid, hversion]
  · have hends := term_ends_iff hab (hnone (Saturating.add node.opticalLibrary.validUntilMs 1)
      (by simp [policyBoundaries, hversion]))
    have hlate : decide (b > node.opticalLibrary.validUntilMs) =
        decide (a > node.opticalLibrary.validUntilMs) := by
      rw [decide_eq_decide, gt_iff_lt, gt_iff_lt, UInt64.lt_iff_toNat_lt, UInt64.lt_iff_toNat_lt]
      exact hends
    simp only [opticalSampleInvalid, hlate]

/-- The desired level is the same until the next boundary. -/
theorem safeDesiredPowerLevel_constant (hpast : node.lastMetricsEndMs ≤ a) :
    safeDesiredPowerLevel policy num canOff node b =
      safeDesiredPowerLevel policy num canOff node a := by
  have hstandby := idle_constant hab hnone
    (by simp [policyBoundaries] : Saturating.add node.lastAccessMs policy.standbyAfterMs ∈ _)
  have hoff := idle_constant hab hnone
    (by simp [policyBoundaries] : Saturating.add node.lastAccessMs policy.offAfterMs ∈ _)
  have hdesired : desiredPowerLevel policy num node b = desiredPowerLevel policy num node a := by
    simp only [desiredPowerLevel, freshPeak_constant hab hnone hpast,
      opticalSampleInvalid_constant hab hnone, hstandby, hoff]
  rw [safeDesiredPowerLevel, safeDesiredPowerLevel, hdesired]

/-- A level that may not be left yet may not be left before the next boundary. -/
theorem settling_constant (hpast : node.powerStateEnterMs ≤ a) :
    settling policy node b = settling policy node a := by
  have hends := term_ends_iff hab (hnone (Saturating.add node.powerStateEnterMs
    policy.minimumResidencyMs) (by simp [policyBoundaries]))
  have hpast' := UInt64.le_trans hpast hab
  have hterm : decide (b - node.powerStateEnterMs < policy.minimumResidencyMs) =
      decide (a - node.powerStateEnterMs < policy.minimumResidencyMs) := by
    rw [decide_eq_decide, elapsed_lt_iff hpast, elapsed_lt_iff hpast', hends]
  rw [settling, settling, hterm, decide_eq_true hpast, decide_eq_true hpast']

omit hab hnone

/-! ## Levels -/

/-- The node takes the level that it should have. -/
def settle (policy : PowerPolicy) (num : Numerics) (canOff : Bool) (node : NodeRecord)
    (nowMs : UInt64) : NodeRecord :=
  (setPowerLevel policy node (safeDesiredPowerLevel policy num canOff node nowMs) nowMs false).1

/-- The sample and the level of the node are not newer than its account. -/
structure Current (node : NodeRecord) : Prop where
  metrics : node.lastMetricsEndMs ≤ node.lastEnergyUpdateMs
  level : node.powerStateEnterMs ≤ node.lastEnergyUpdateMs

theorem SameButPower.safeDesiredPowerLevel (h : SameButPower node node') :
    Scheduler.safeDesiredPowerLevel policy num canOff node' nowMs =
      Scheduler.safeDesiredPowerLevel policy num canOff node nowMs := by
  rw [SameButPower] at h
  rw [h]
  rfl

theorem SameButPower.lastMetricsEndMs (h : SameButPower node node') :
    node'.lastMetricsEndMs = node.lastMetricsEndMs := by
  rw [SameButPower] at h
  rw [h]

theorem sameButPower_settle : SameButPower node (settle policy num canOff node nowMs) :=
  sameButPower_setPowerLevel

/-- The node has the desired level then, or it is held back by its term. -/
theorem settle_cases (policy : PowerPolicy) (num : Numerics) (canOff : Bool) (node : NodeRecord)
    (nowMs : UInt64) :
    (settle policy num canOff node nowMs).powerLevel =
        safeDesiredPowerLevel policy num canOff node nowMs ∨
      settle policy num canOff node nowMs = node ∧
        (safeDesiredPowerLevel policy num canOff node nowMs).toNat < node.powerLevel.toNat ∧
          settling policy node nowMs = true := by
  unfold settle
  rcases setPowerLevel_cases policy node (safeDesiredPowerLevel policy num canOff node nowMs)
    nowMs false with ⟨heq, hsame | ⟨-, hlower, hsettling⟩⟩ | ⟨heq, -⟩
  · rw [heq]
    exact .inl hsame
  · rw [heq]
    exact .inr ⟨rfl, hlower, hsettling⟩
  · rw [heq]
    exact .inl rfl

theorem settle_of_desired
    (h : node.powerLevel = safeDesiredPowerLevel policy num canOff node nowMs) :
    settle policy num canOff node nowMs = node := by
  rw [settle, setPowerLevel_same h]

theorem settle_of_settling
    (hlower : (safeDesiredPowerLevel policy num canOff node nowMs).toNat < node.powerLevel.toNat)
    (hsettling : settling policy node nowMs = true) :
    settle policy num canOff node nowMs = node := by
  rcases setPowerLevel_cases policy node (safeDesiredPowerLevel policy num canOff node nowMs)
    nowMs false with ⟨heq, -⟩ | ⟨heq, hne⟩
  · rw [settle, heq]
  · rw [settle, setPowerLevel, if_neg hne, if_pos ⟨rfl, hlower, hsettling⟩]

/-- Nothing changes when the node has just taken its level. -/
theorem settle_settle :
    settle policy num canOff (settle policy num canOff node nowMs) nowMs =
      settle policy num canOff node nowMs := by
  rcases settle_cases policy num canOff node nowMs with hlevel | ⟨hsame, -⟩
  · exact settle_of_desired (hlevel.trans sameButPower_settle.safeDesiredPowerLevel.symm)
  · rw [hsame, hsame]

theorem lastEnergyUpdateMs_settle :
    (settle policy num canOff node node.lastEnergyUpdateMs).lastEnergyUpdateMs =
      node.lastEnergyUpdateMs :=
  lastEnergyUpdateMs_setPowerLevel policy node _ false

theorem Current.settle (h : Current node) :
    Current (settle policy num canOff node node.lastEnergyUpdateMs) where
  metrics := by
    rw [sameButPower_settle.lastMetricsEndMs, lastEnergyUpdateMs_settle]
    exact h.metrics
  level := by
    rw [lastEnergyUpdateMs_settle, Scheduler.settle]
    rcases setPowerLevel_cases policy node
      (safeDesiredPowerLevel policy num canOff node node.lastEnergyUpdateMs)
      node.lastEnergyUpdateMs false with ⟨heq, -⟩ | ⟨heq, -⟩
    · rw [heq]
      exact h.level
    · rw [heq]
      exact Std.le_refl _

theorem Current.integrateEnergy (h : Current node) (hle : node.lastEnergyUpdateMs ≤ nowMs) :
    Current (integrateEnergy node nowMs) where
  metrics := by
    rw [integrateEnergy_self hle]
    exact UInt64.le_trans h.metrics hle
  level := by
    rw [integrateEnergy_self hle]
    exact UInt64.le_trans h.level hle

/-- Up to the next boundary a node that has just settled keeps its level. -/
theorem settle_between (h : Current node) (hle : node.lastEnergyUpdateMs ≤ t)
    (hnone : NoBoundary policy (settle policy num canOff node node.lastEnergyUpdateMs)
      node.lastEnergyUpdateMs t) :
    settle policy num canOff
        (integrateEnergy (settle policy num canOff node node.lastEnergyUpdateMs) t) t =
      integrateEnergy (settle policy num canOff node node.lastEnergyUpdateMs) t := by
  have hmetrics : (settle policy num canOff node node.lastEnergyUpdateMs).lastMetricsEndMs ≤
      node.lastEnergyUpdateMs := by
    rw [sameButPower_settle.lastMetricsEndMs]
    exact h.metrics
  have hdesired : safeDesiredPowerLevel policy num canOff
      (integrateEnergy (settle policy num canOff node node.lastEnergyUpdateMs) t) t =
        safeDesiredPowerLevel policy num canOff node node.lastEnergyUpdateMs := by
    rw [(sameButPower_integrateEnergy _ t).safeDesiredPowerLevel,
      safeDesiredPowerLevel_constant hle hnone hmetrics,
      sameButPower_settle.safeDesiredPowerLevel]
  rcases settle_cases policy num canOff node node.lastEnergyUpdateMs with
    hlevel | ⟨hsame, hlower, hsettling⟩
  · apply settle_of_desired
    rw [hdesired]
    exact hlevel
  · apply settle_of_settling
    · rw [hdesired, hsame]
      exact hlower
    · rw [hsame] at hnone ⊢
      exact (settling_constant hle hnone h.level).trans hsettling

/-! ## The loop -/

/-- More rounds than there are milliseconds left change nothing. -/
theorem advanceRounds_fuel {fuel fuel' : Nat}
    (hfuel : nowMs.toNat - node.lastEnergyUpdateMs.toNat ≤ fuel)
    (hfuel' : nowMs.toNat - node.lastEnergyUpdateMs.toNat ≤ fuel') :
    advanceRounds policy num canOff nowMs fuel node =
      advanceRounds policy num canOff nowMs fuel' node := by
  have hstop {fuel : Nat} {node : NodeRecord} (h : ¬ node.lastEnergyUpdateMs < nowMs) :
      advanceRounds policy num canOff nowMs fuel node = (node, false) := by
    cases fuel with
    | zero => rfl
    | succ fuel => rw [advanceRounds, if_neg h]
  induction fuel generalizing node fuel' with
  | zero =>
      have hdone : ¬ node.lastEnergyUpdateMs < nowMs := by
        rw [UInt64.lt_iff_toNat_lt]
        omega
      rw [hstop hdone, hstop hdone]
  | succ fuel ih =>
      by_cases hlt : node.lastEnergyUpdateMs < nowMs
      · have hnat := UInt64.lt_iff_toNat_lt.mp hlt
        obtain ⟨fuel', rfl⟩ := Nat.exists_eq_succ_of_ne_zero (by omega : fuel' ≠ 0)
        have hmoved := UInt64.lt_iff_toNat_lt.mp (advanceRound_progress policy num canOff hlt).1
        have hrest : advanceRounds policy num canOff nowMs fuel
            (advanceRound policy num canOff nowMs node).1 = advanceRounds policy num canOff nowMs
              fuel' (advanceRound policy num canOff nowMs node).1 :=
          ih (by omega) (by omega)
        rw [advanceRounds, advanceRounds, if_pos hlt, if_pos hlt]
        dsimp only
        rw [hrest]
      · rw [hstop hlt, hstop hlt]

/-- The rounds up to a time. -/
def replay (policy : PowerPolicy) (num : Numerics) (canOff : Bool) (node : NodeRecord)
    (nowMs : UInt64) : NodeRecord :=
  (advanceRounds policy num canOff nowMs (nowMs.toNat - node.lastEnergyUpdateMs.toNat) node).1

theorem replay_self (h : ¬ node.lastEnergyUpdateMs < nowMs) :
    replay policy num canOff node nowMs = node := by
  rw [UInt64.lt_iff_toNat_lt] at h
  rw [replay, Nat.sub_eq_zero_of_le (Nat.le_of_not_lt h)]
  rfl

theorem replay_round (h : node.lastEnergyUpdateMs < nowMs) :
    replay policy num canOff node nowMs =
      replay policy num canOff (integrateEnergy
        (settle policy num canOff node node.lastEnergyUpdateMs)
        (nextBoundary policy (settle policy num canOff node node.lastEnergyUpdateMs)
          node.lastEnergyUpdateMs nowMs)) nowMs := by
  have hmoved := UInt64.lt_iff_toNat_lt.mp (advanceRound_progress policy num canOff h).1
  have hnat := UInt64.lt_iff_toNat_lt.mp h
  obtain ⟨fuel, hfuel⟩ := Nat.exists_eq_succ_of_ne_zero
    (by omega : nowMs.toNat - node.lastEnergyUpdateMs.toNat ≠ 0)
  have hrest : advanceRounds policy num canOff nowMs fuel
      (advanceRound policy num canOff nowMs node).1 = advanceRounds policy num canOff nowMs
        (nowMs.toNat - (advanceRound policy num canOff nowMs node).1.lastEnergyUpdateMs.toNat)
        (advanceRound policy num canOff nowMs node).1 :=
    advanceRounds_fuel (by omega) Nat.le.refl
  have hround := congrArg Prod.fst hrest
  rw [replay, hfuel, advanceRounds, if_pos h]
  exact hround

theorem advancePowerPolicy_past (h : nowMs ≤ node.lastEnergyUpdateMs) :
    (advancePowerPolicy policy num canOff node nowMs).1 = node := by
  rw [advancePowerPolicy, if_pos h]

theorem advancePowerPolicy_eq (h : node.lastEnergyUpdateMs < nowMs) :
    (advancePowerPolicy policy num canOff node nowMs).1 =
      settle policy num canOff (replay policy num canOff node nowMs) nowMs := by
  have hfuel : (nowMs - node.lastEnergyUpdateMs).toNat =
      nowMs.toNat - node.lastEnergyUpdateMs.toNat :=
    UInt64.toNat_sub_of_le _ _ (Std.le_of_lt h)
  rw [advancePowerPolicy, if_neg (Std.not_le.mpr h), hfuel]
  rfl

/-- A replay that stops on the way, takes the level it should have there and goes on, ends
    where the replay in one piece ends. By induction on the time up to the stop. -/
theorem replay_split (policy : PowerPolicy) (num : Numerics) (canOff : Bool) (h : Current node)
    (hle : node.lastEnergyUpdateMs ≤ a) (hab : a ≤ b) :
    settle policy num canOff (replay policy num canOff
        (settle policy num canOff (replay policy num canOff node a) a) b) b =
      settle policy num canOff (replay policy num canOff node b) b := by
  induction hleft : a.toNat - node.lastEnergyUpdateMs.toNat using Nat.strong_induction_on
    generalizing node with
  | _ left ih =>
      by_cases hstop : node.lastEnergyUpdateMs < a
      · have hlt : node.lastEnergyUpdateMs < b := Std.lt_of_lt_of_le hstop hab
        have hlast : (settle policy num canOff node
            node.lastEnergyUpdateMs).lastEnergyUpdateMs = node.lastEnergyUpdateMs :=
          lastEnergyUpdateMs_settle
        have hcurrent : Current (settle policy num canOff node node.lastEnergyUpdateMs) :=
          h.settle
        rw [replay_round hstop, replay_round hlt]
        generalize hsettled : settle policy num canOff node node.lastEnergyUpdateMs = settled
          at hlast hcurrent ⊢
        by_cases hnext : nextBoundary policy settled node.lastEnergyUpdateMs b ≤ a
        · -- the round is the same in both
          rw [nextBoundary_of_le hab hnext]
          have hmoved := (nextBoundary_bounds policy settled hlt).1
          have hpast : settled.lastEnergyUpdateMs ≤
              nextBoundary policy settled node.lastEnergyUpdateMs b := by
            rw [hlast]
            exact Std.le_of_lt hmoved
          have hself := integrateEnergy_self hpast
          refine ih _ ?_ (hcurrent.integrateEnergy hpast) (by rwa [hself]) rfl
          rw [hself, ← hleft]
          rw [UInt64.lt_iff_toNat_lt] at hmoved hstop
          rw [UInt64.le_iff_toNat_le] at hnext
          omega
        · -- the stop lies inside the round
          have hinside := Std.not_le.mp hnext
          have hkept : settle policy num canOff (integrateEnergy settled a) a =
              integrateEnergy settled a := by
            rw [← hsettled] at hinside ⊢
            exact settle_between h (Std.le_of_lt hstop) (noBoundary_of_lt hinside)
          have hpast : settled.lastEnergyUpdateMs ≤ a := by
            rw [hlast]
            exact Std.le_of_lt hstop
          have hself := integrateEnergy_self hpast
          have hdone : replay policy num canOff (integrateEnergy settled a) a =
              integrateEnergy settled a := replay_self (by rw [hself]; exact Std.lt_irrefl)
          have hb : (integrateEnergy settled a).lastEnergyUpdateMs < b := by
            rw [hself]
            exact Std.lt_of_lt_of_le hinside (nextBoundary_bounds policy settled hlt).2
          have hboundary : nextBoundary policy (integrateEnergy settled a) a b =
              nextBoundary policy settled a b := rfl
          rw [nextBoundary_of_lt hinside, hdone, hkept, replay_round hb, hself, hkept, hboundary,
            nextBoundary_from (Std.le_of_lt hstop) hinside,
            integrateEnergy_integrateEnergy settled (Std.le_of_lt hinside)]
      · obtain rfl := Std.le_antisymm hle (Std.not_lt.mp hstop)
        rw [replay_self Std.lt_irrefl]
        have hlast : (settle policy num canOff node
            node.lastEnergyUpdateMs).lastEnergyUpdateMs = node.lastEnergyUpdateMs :=
          lastEnergyUpdateMs_settle
        by_cases hlt : node.lastEnergyUpdateMs < b
        · rw [replay_round hlt, replay_round (hlast.symm ▸ hlt), hlast, settle_settle]
        · obtain rfl := Std.le_antisymm hab (Std.not_lt.mp hlt)
          rw [replay_self (hlast.symm ▸ Std.lt_irrefl), replay_self Std.lt_irrefl, settle_settle]

/-- The replay goes up to now. -/
theorem lastEnergyUpdateMs_advancePowerPolicy (h : node.lastEnergyUpdateMs < nowMs) :
    (advancePowerPolicy policy num canOff node nowMs).1.lastEnergyUpdateMs = nowMs := by
  have hreach : (replay policy num canOff node nowMs).lastEnergyUpdateMs = nowMs :=
    advanceRounds_reach (Std.le_of_lt h) Nat.le.refl
  rw [advancePowerPolicy_eq h]
  generalize replay policy num canOff node nowMs = replayed at hreach
  subst hreach
  exact lastEnergyUpdateMs_settle

/-- `AdvancePowerPolicyLocked`, cut in two. -/
theorem advancePowerPolicy_split (h : Current node) (hle : node.lastEnergyUpdateMs ≤ a)
    (hab : a ≤ b) :
    (advancePowerPolicy policy num canOff (advancePowerPolicy policy num canOff node a).1 b).1 =
      (advancePowerPolicy policy num canOff node b).1 := by
  by_cases hstop : node.lastEnergyUpdateMs < a
  · have hlast : (advancePowerPolicy policy num canOff node a).1.lastEnergyUpdateMs = a :=
      lastEnergyUpdateMs_advancePowerPolicy hstop
    have hsplit := replay_split policy num canOff h hle hab
    rw [← advancePowerPolicy_eq hstop, ← advancePowerPolicy_eq (Std.lt_of_lt_of_le hstop hab)]
      at hsplit
    by_cases hlt : a < b
    · rw [advancePowerPolicy_eq (hlast.symm ▸ hlt)]
      exact hsplit
    · obtain rfl := Std.le_antisymm hab (Std.not_lt.mp hlt)
      exact advancePowerPolicy_past (hlast.symm ▸ Std.le_refl a)
  · rw [advancePowerPolicy_past (Std.not_lt.mp hstop)]

/-! ## The table -/

/-- The replay of one node of the table, whose other nodes decide whether it may go off. -/
def advanceNode (policy : PowerPolicy) (num : Numerics) (nodes : NodeTable) (nodeId : Bytes)
    (nowMs : UInt64) : NodeTable :=
  match nodes.lookup nodeId with
  | none => nodes
  | some node =>
      nodes.insert nodeId
        (advancePowerPolicy policy num (canPowerOff policy nodes node) node nowMs).1

variable {nodes : NodeTable} {nodeId : Bytes}

/-- What is left of the others depends on the profile of the node only. -/
theorem remainingOnline_insert (hlookup : nodes.lookup nodeId = some node)
    (hprofile : node'.profile = node.profile) (kind : NodeKind) :
    remainingOnline (nodes.insert nodeId node') node' kind = remainingOnline nodes node kind := by
  obtain ⟨entries₁, entries₂, hentries, hinsert⟩ := entries_split hlookup
  rw [remainingOnline, remainingOnline, hinsert, hentries, hprofile]
  simp [hprofile]

theorem canPowerOff_insert (hlookup : nodes.lookup nodeId = some node)
    (hprofile : node'.profile = node.profile) :
    canPowerOff policy (nodes.insert nodeId node') node' = canPowerOff policy nodes node := by
  simp only [canPowerOff, remainingOnline_insert hlookup hprofile, hprofile]

/-- The replay does not depend on how time is sliced, and its loop ends. -/
theorem advanceNode_split (policy : PowerPolicy) (num : Numerics)
    (hlookup : nodes.lookup nodeId = some node)
    (hmetrics : node.lastMetricsEndMs ≤ node.lastEnergyUpdateMs)
    (hlevel : node.powerStateEnterMs ≤ node.lastEnergyUpdateMs)
    (hle : node.lastEnergyUpdateMs ≤ a) (hab : a ≤ b) :
    advanceNode policy num (advanceNode policy num nodes nodeId a) nodeId b =
        advanceNode policy num nodes nodeId b ∧
      ∃ rounds, ∀ more ≥ rounds,
        advanceRounds policy num (canPowerOff policy nodes node) b more node =
            advanceRounds policy num (canPowerOff policy nodes node) b rounds node ∧
          (advanceRounds policy num (canPowerOff policy nodes node) b more
            node).1.lastEnergyUpdateMs = b := by
  have hfirst : advanceNode policy num nodes nodeId a = nodes.insert nodeId
      (advancePowerPolicy policy num (canPowerOff policy nodes node) node a).1 := by
    simp only [advanceNode, hlookup]
  have hwhole : advanceNode policy num nodes nodeId b = nodes.insert nodeId
      (advancePowerPolicy policy num (canPowerOff policy nodes node) node b).1 := by
    simp only [advanceNode, hlookup]
  have hprofile : (advancePowerPolicy policy num (canPowerOff policy nodes node) node
      a).1.profile = node.profile := by
    rw [advancePowerPolicy_fst]
  refine ⟨?_, b.toNat - node.lastEnergyUpdateMs.toNat, fun more hmore =>
    ⟨advanceRounds_fuel hmore Nat.le.refl,
      advanceRounds_reach (UInt64.le_trans hle hab) hmore⟩⟩
  rw [hfirst, hwhole, advanceNode, AList.lookup_insert]
  dsimp only
  rw [canPowerOff_insert hlookup hprofile, AList.insert_insert,
    advancePowerPolicy_split ⟨hmetrics, hlevel⟩ hle hab]

/-- An idle node that goes into standby and then off, with a stop in between. -/
theorem advanceNode_split_of_idle :
    advanceNode {} plainNumerics (advanceNode {} plainNumerics (AList.singleton [110]
        { profile := { nodeId := [110] }, lifecycle := .working, powerLevel := .medium })
        [110] 30000) [110] 700000 =
      advanceNode {} plainNumerics (AList.singleton [110]
        { profile := { nodeId := [110] }, lifecycle := .working, powerLevel := .medium })
        [110] 700000 :=
  (advanceNode_split {} plainNumerics rfl (by decide) (by decide) (by decide) (by decide)).1

end Zb.Scheduler
