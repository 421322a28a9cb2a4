-- SUMMARY: Runs of the batch coordinator: order, one answer each, skips, and the end of the loop with a fair pool.
import ZBStorage.Client.BatchIo

/-!
# Batches over runs

A request leaves the waiting phase when the requests before it on its file and its
dependencies are done. What is done stays as it is, so a later look at the dependencies gives
the same verdict. In an infinite run the cursor comes back to every request.
-/

namespace Zb.Client.Batch

open Bytes CallHistory
open Function (update update_self update_of_ne)

variable {requests : List Request} {stat : Nat → StatAnswer} {state state' : Coordinator}
  {i j : Nat} {phase : Phase} {result : BatchIoResult}

/-! ## What a coordinator keeps -/

/-- Everything that the request waits for is done. -/
structure Unblocked (requests : List Request) (phases : Nat → Phase) (i : Nat) : Prop where
  dependencies : ∀ dependency ∈ dependenciesOf requests i, (phases dependency).isDone = true
  previous : ∀ previous ∈ previousOf requests i, (phases previous).isDone = true

def DependencyFailed (requests : List Request) (phases : Nat → Phase) (i : Nat) : Prop :=
  ∃ dependency ∈ dependenciesOf requests i, (phases dependency).failed = true

def Executed (requests : List Request) (i : Nat) (result : BatchIoResult) : Prop :=
  ∃ outcome, result = executedResult requests i outcome

/-- What the phase of a request says of the others. -/
def Fits (requests : List Request) (phases : Nat → Phase) (i : Nat) : Phase → Prop
  | .waiting => True
  | .queued => Unblocked requests phases i ∧ ¬DependencyFailed requests phases i
  | .executing => Unblocked requests phases i ∧ ¬DependencyFailed requests phases i
  | .ready result =>
      Unblocked requests phases i ∧ ¬DependencyFailed requests phases i ∧
        Executed requests i result
  | .done result =>
      Unblocked requests phases i ∧
        (DependencyFailed requests phases i ∧ result = skippedResult requests i ∨
          ¬DependencyFailed requests phases i ∧ Executed requests i result)

structure Sound (requests : List Request) (state : Coordinator) : Prop where
  cursor : state.cursor ≤ requests.length
  beyond : ∀ i, requests.length ≤ i → state.phase i = .waiting
  fits : ∀ i, Fits requests state.phase i (state.phase i)
  answered : ∀ i result, (i, result) ∈ state.answers ↔ state.phase i = .done result
  once : (state.answers.map (·.1)).Nodup
  completed : state.completed = state.answers.length

theorem Fits.unblocked {phases : Nat → Phase} (h : Fits requests phases i phase)
    (hphase : phase ≠ .waiting) : Unblocked requests phases i := by
  cases phase with
  | waiting => exact absurd rfl hphase
  | queued => exact h.1
  | executing => exact h.1
  | ready result => exact h.1
  | done result => exact h.1

/-! ## One step -/

variable {phases : Nat → Phase}

/-- Nothing that is done changes when another request moves. -/
theorem update_of_done (hi : (phases i).isDone = false) (hj : (phases j).isDone = true) :
    update phases i phase j = phases j := by
  refine update_of_ne (fun heq => ?_) _ _
  rw [heq, hi] at hj
  cases hj

theorem Unblocked.update (h : Unblocked requests phases j) (hi : (phases i).isDone = false) :
    Unblocked requests (update phases i phase) j where
  dependencies := fun dependency hmem => by
    rw [update_of_done hi (h.dependencies dependency hmem)]
    exact h.dependencies dependency hmem
  previous := fun previous hmem => by
    rw [update_of_done hi (h.previous previous hmem)]
    exact h.previous previous hmem

theorem dependencyFailed_update (h : Unblocked requests phases j)
    (hi : (phases i).isDone = false) :
    DependencyFailed requests (update phases i phase) j ↔
      DependencyFailed requests phases j := by
  refine exists_congr fun dependency => and_congr_right fun hmem => ?_
  rw [update_of_done hi (h.dependencies dependency hmem)]

theorem Fits.update {other : Phase} (h : Fits requests phases j other)
    (hi : (phases i).isDone = false) :
    Fits requests (update phases i phase) j other := by
  by_cases hother : other = .waiting
  · subst hother
    trivial
  · have hunblocked := h.unblocked hother
    have hfailed := @dependencyFailed_update requests i j phase phases hunblocked hi
    cases other with
    | waiting => trivial
    | queued => exact ⟨hunblocked.update hi, mt hfailed.mp h.2⟩
    | executing => exact ⟨hunblocked.update hi, mt hfailed.mp h.2⟩
    | ready result => exact ⟨hunblocked.update hi, mt hfailed.mp h.2.1, h.2.2⟩
    | done result =>
        refine ⟨hunblocked.update hi, ?_⟩
        rw [hfailed]
        exact h.2

/-- A request that is not done may move to a phase that fits. -/
theorem Sound.fits_move (h : Sound requests state) (hi : (state.phase i).isDone = false)
    (hfits : Fits requests state.phase i phase) (j : Nat) :
    Fits requests (update state.phase i phase) j
      (update state.phase i phase j) := by
  by_cases hj : j = i
  · subst hj
    rw [update_self]
    exact hfits.update hi
  · rw [update_of_ne hj]
    exact (h.fits j).update hi

theorem Sound.move (h : Sound requests state) (hlt : i < requests.length)
    (hi : (state.phase i).isDone = false) (hfits : Fits requests state.phase i phase)
    (hphase : phase.isDone = false) : Sound requests (state.move i phase) where
  cursor := h.cursor
  beyond := fun j hj => by
    have hne : j ≠ i := by omega
    exact (update_of_ne hne _ _).trans (h.beyond j hj)
  fits := h.fits_move hi hfits
  answered := fun j result => by
    rw [show (state.move i phase).answers = state.answers from rfl, h.answered]
    by_cases hj : j = i
    · subst hj
      change _ ↔ update state.phase j phase j = _
      rw [update_self]
      exact iff_of_false (fun heq => by rw [heq] at hi; cases hi)
        (fun heq => by rw [heq] at hphase; cases hphase)
    · change _ ↔ update state.phase i phase j = _
      rw [update_of_ne hj]
  once := h.once
  completed := h.completed

theorem Sound.answer (h : Sound requests state) (hlt : i < requests.length)
    (hi : (state.phase i).isDone = false)
    (hfits : Fits requests state.phase i (.done result)) :
    Sound requests (state.answer i result) where
  cursor := h.cursor
  beyond := fun j hj => by
    have hne : j ≠ i := by omega
    exact (update_of_ne hne _ _).trans (h.beyond j hj)
  fits := h.fits_move hi hfits
  answered := fun j other => by
    change (j, other) ∈ state.answers ++ [(i, result)] ↔
      update state.phase i (.done result) j = _
    rw [List.mem_append, List.mem_singleton, h.answered, Prod.mk.injEq]
    by_cases hj : j = i
    · subst hj
      rw [update_self, Phase.done.injEq]
      have hnone : state.phase j ≠ .done other := fun heq => by rw [heq] at hi; cases hi
      simp [hnone, eq_comm]
    · rw [update_of_ne hj]
      simp [hj]
  once := by
    change ((state.answers ++ [(i, result)]).map (·.1)).Nodup
    rw [List.map_append, List.map_singleton, List.nodup_append]
    refine ⟨h.once, List.nodup_singleton _, fun j hmem other hother heq => ?_⟩
    obtain ⟨⟨j, earlier⟩, hanswer, rfl⟩ := List.mem_map.mp hmem
    rw [List.mem_singleton.mp hother] at heq
    have hdone := (h.answered _ _).mp hanswer
    rw [show j = i from heq] at hdone
    rw [hdone] at hi
    cases hi
  completed := by
    change state.completed + 1 = (state.answers ++ [(i, result)]).length
    rw [List.length_append, h.completed]
    rfl

theorem unblocked_of_judge (h : judge requests phases i ≠ .wait) : Unblocked requests phases i := by
  rw [judge] at h
  split at h
  · exact absurd rfl h
  · rename_i hprevious
    split at h
    · exact absurd rfl h
    · rename_i hdependencies
      rw [Bool.not_eq_true, Bool.not_eq_false'] at hdependencies
      refine ⟨List.all_eq_true.mp hdependencies, fun previous hmem => ?_⟩
      rw [Option.mem_def.mp hmem] at hprevious
      simpa using hprevious

theorem judge_skip (h : judge requests phases i = .skip) : DependencyFailed requests phases i := by
  rw [judge] at h
  split at h
  · cases h
  · split at h
    · cases h
    · split at h
      · rename_i hfailed
        exact List.any_eq_true.mp hfailed
      · cases h

theorem judge_submit (h : judge requests phases i = .submit) :
    ¬DependencyFailed requests phases i := by
  rw [judge] at h
  split at h
  · cases h
  · split at h
    · cases h
    · split at h
      · cases h
      · rename_i hfailed
        exact fun hany => hfailed (List.any_eq_true.mpr hany)

theorem Sound.visit (h : Sound requests state) (hlt : state.cursor < requests.length)
    (accepted : Bool) : Sound requests (visit requests state accepted) := by
  have hmoved : Sound requests { state with cursor := state.cursor + 1 } :=
    { h with cursor := hlt }
  have hfits := hmoved.fits state.cursor
  unfold Batch.visit
  dsimp only at hfits ⊢
  cases hphase : state.phase state.cursor with
  | done result => exact hmoved
  | queued => exact hmoved
  | executing => exact hmoved
  | ready result =>
      rw [hphase] at hfits
      exact hmoved.answer hlt (congrArg Phase.isDone hphase) ⟨hfits.1, .inr hfits.2⟩
  | waiting =>
      have hnew := congrArg Phase.isDone hphase
      dsimp only
      split
      · exact hmoved
      · rename_i hskip
        have hunblocked := unblocked_of_judge (by rw [hskip]; nofun)
        exact hmoved.answer hlt hnew ⟨hunblocked, .inl ⟨judge_skip hskip, rfl⟩⟩
      · rename_i hsubmit
        have hunblocked := unblocked_of_judge (by rw [hsubmit]; nofun)
        split
        · have hqueued := @Sound.move _ _ _ .queued hmoved hlt hnew
            ⟨hunblocked, judge_submit hsubmit⟩ rfl
          exact { hqueued with }
        · exact hmoved

theorem Sound.lt_of_phase (h : Sound requests state) (hphase : state.phase i ≠ .waiting) :
    i < requests.length :=
  Nat.lt_of_not_le fun hle => hphase (h.beyond i hle)

theorem Sound.next {event : Event} (h : Sound requests state)
    (hnext : next requests state event = some state') : Sound requests state' := by
  cases event with
  | visit accepted =>
      rw [Batch.next] at hnext
      split at hnext
      · rename_i hlt
        cases hnext
        exact h.visit hlt accepted
      · split at hnext
        · cases hnext
          exact { h with cursor := Nat.zero_le _ }
        · cases hnext
  | start i =>
      rw [Batch.next] at hnext
      split at hnext
      · rename_i hphase
        cases hnext
        have hfits := h.fits i
        rw [hphase] at hfits
        exact h.move (h.lt_of_phase (hphase ▸ nofun)) (congrArg Phase.isDone hphase) hfits rfl
      · cases hnext
  | finish i outcome =>
      rw [Batch.next] at hnext
      split at hnext
      · rename_i hphase
        cases hnext
        have hfits := h.fits i
        rw [hphase] at hfits
        exact h.move (h.lt_of_phase (hphase ▸ nofun)) (congrArg Phase.isDone hphase)
          ⟨hfits.1, hfits.2, outcome, rfl⟩ rfl
      · cases hnext
  | idle =>
      cases hnext
      exact h

theorem sound_initial (requests : List Request) : Sound requests (initial requests) where
  cursor := Nat.le_refl _
  beyond := fun _ _ => rfl
  fits := fun _ => trivial
  answered := fun _ _ => iff_of_false List.not_mem_nil nofun
  once := List.nodup_nil
  completed := rfl

def Steps (requests : List Request) (state : Coordinator) (event : Event)
    (state' : Coordinator) : Prop :=
  next requests state event = some state'

theorem sound_of_serves {hist : List (Served Coordinator Event)}
    (h : Serves (Steps requests) Any (initial requests) hist state) : Sound requests state :=
  h.invariant (fun _ _ _ hsound _ hstep => hsound.next hstep) (sound_initial requests)

/-! ## What holds of a sound coordinator -/

theorem mem_dependenciesOf {request : Request} (h : requests[i]? = some request) :
    dependenciesOf requests i = request.dependencies := by
  rw [dependenciesOf, h]
  rfl

theorem previousOf_eq {request : Request} (h : requests[i]? = some request) :
    previousOf requests i = request.previous := by
  rw [previousOf, h]
  rfl

theorem Planned.dependency_lt (h : Planned stat requests)
    (hmem : j ∈ dependenciesOf requests i) : j < i := by
  cases hi : requests[i]? with
  | none =>
      rw [dependenciesOf, hi] at hmem
      cases hmem
  | some request =>
      rw [mem_dependenciesOf hi] at hmem
      exact ((h.dependencies i request hi j).mp hmem).1

theorem isDone_ne_waiting (h : phase.isDone = true) : phase ≠ .waiting := by
  rintro rfl
  cases h

/-- A request has left the waiting phase when all earlier ones on its target file are done. -/
theorem Sound.done_before (h : Sound requests state) (hplan : Planned stat requests)
    {request earlier : Request} (hi : requests[i]? = some request)
    (hphase : state.phase i ≠ .waiting) (hlt : j < i) (hj : requests[j]? = some earlier)
    (hkey : earlier.key = request.key) : (state.phase j).isDone = true := by
  induction i using Nat.strong_induction_on generalizing request with
  | _ i ih =>
      obtain ⟨hbefore, hlast⟩ := hplan.previous i request hi
      obtain ⟨p, hp, hle⟩ := hlast j earlier hlt hj hkey
      obtain ⟨hpi, other, hother, hsame⟩ := hbefore p hp
      have hdone := ((h.fits i).unblocked hphase).previous p (previousOf_eq hi ▸ hp)
      rcases Nat.eq_or_lt_of_le hle with rfl | hjp
      · exact hdone
      · exact ih p hpi hother (isDone_ne_waiting hdone) hjp (hkey.trans hsame.symm)

/-- A failure is reached along dependencies, all of them skipped but the last. -/
inductive FailureReached (requests : List Request) (phases : Nat → Phase) : Nat → Prop
  | direct {i dependency : Nat} {result : BatchIoResult} :
      dependency ∈ dependenciesOf requests i → phases dependency = .done result →
        result.skipped = false → result.error ≠ 0 → FailureReached requests phases i
  | through {i dependency : Nat} {result : BatchIoResult} :
      dependency ∈ dependenciesOf requests i → phases dependency = .done result →
        result.skipped = true → FailureReached requests phases dependency →
          FailureReached requests phases i

theorem exists_of_failed (h : phase.failed = true) :
    ∃ result, phase = .done result ∧ result.error ≠ 0 := by
  cases phase with
  | done result => exact ⟨result, rfl, of_decide_eq_true h⟩
  | waiting => cases h
  | queued => cases h
  | executing => cases h
  | ready result => cases h

/-- A request is skipped exactly when a dependency failed, and its error says so. -/
theorem Sound.skipped_iff (h : Sound requests state) (hdone : state.phase i = .done result) :
    (result.skipped = true ↔ DependencyFailed requests state.phase i) ∧
      (result.skipped = true → result.error = ECANCELED) := by
  have hfits := h.fits i
  rw [hdone] at hfits
  obtain ⟨-, ⟨hfailed, rfl⟩ | ⟨hfailed, outcome, rfl⟩⟩ := hfits
  · exact ⟨iff_of_true rfl hfailed, fun _ => rfl⟩
  · exact ⟨iff_of_false nofun hfailed, nofun⟩

theorem Sound.failureReached_iff (h : Sound requests state) (hplan : Planned stat requests)
    (i : Nat) :
    DependencyFailed requests state.phase i ↔ FailureReached requests state.phase i := by
  constructor
  · induction i using Nat.strong_induction_on with
    | _ i ih =>
        rintro ⟨dependency, hmem, hfailed⟩
        obtain ⟨result, hdone, herror⟩ := exists_of_failed hfailed
        cases hskipped : result.skipped with
        | false => exact .direct hmem hdone hskipped herror
        | true =>
            have hlater := (h.skipped_iff hdone).1.mp hskipped
            exact .through hmem hdone hskipped (ih dependency (hplan.dependency_lt hmem) hlater)
  · intro hreached
    cases hreached with
    | direct hmem hdone _ herror => exact ⟨_, hmem, hdone ▸ decide_eq_true herror⟩
    | through hmem hdone hskipped _ =>
        refine ⟨_, hmem, hdone ▸ decide_eq_true ?_⟩
        rw [(h.skipped_iff hdone).2 hskipped]
        decide

/-- When the loop is over, the answers are those of all requests. -/
theorem Sound.answers_perm (h : Sound requests state)
    (hcompleted : requests.length ≤ state.completed) :
    (state.answers.map (·.1)).Perm (List.range requests.length) := by
  refine (List.subperm_of_subset h.once fun i hmem => ?_).perm_of_length_le ?_
  · obtain ⟨⟨j, result⟩, hanswer, rfl⟩ := List.mem_map.mp hmem
    have hdone := (h.answered j result).mp hanswer
    exact List.mem_range.mpr (h.lt_of_phase (hdone ▸ nofun))
  · rw [List.length_range, List.length_map, ← h.completed]
    exact hcompleted

/-! ## Fair runs -/

/-- An infinite run; when the loop is over it may idle. -/
structure Execution (requests : List Request) where
  state : Nat → Coordinator
  event : Nat → Event
  first : state 0 = initial requests
  step : ∀ k, next requests (state k) (event k) = some (state (k + 1))

variable {run : Execution requests} {k m : Nat}

/-- The coordinator is about to submit the request at this point. -/
structure Execution.Attempts (run : Execution requests) (i k : Nat) : Prop where
  visits : ∃ accepted, run.event k = .visit accepted
  cursor : (run.state k).cursor = i
  lt : i < requests.length
  waiting : (run.state k).phase i = .waiting
  submits : judge requests (run.state k).phase i = .submit

/-- The coordinator goes on until the loop is over, every submitted request completes, and
    the pool accepts a request some time when it is submitted again and again. -/
structure Fair (run : Execution requests) : Prop where
  scans : ∀ k, ∃ m, k ≤ m ∧
    (Over requests (run.state m) ∨ ∃ accepted, run.event m = .visit accepted)
  completes : ∀ k i, (run.state k).phase i = .queued ∨ (run.state k).phase i = .executing →
    ∃ m, k ≤ m ∧ ∃ outcome, run.event m = .finish i outcome
  accepts : ∀ i, (∀ k, ∃ m, k ≤ m ∧ run.Attempts i m) →
    ∃ m, run.Attempts i m ∧ run.event m = .visit true

theorem Execution.sound (run : Execution requests) (k : Nat) : Sound requests (run.state k) := by
  induction k with
  | zero =>
      rw [run.first]
      exact sound_initial requests
  | succ k ih => exact ih.next (run.step k)

/-- Only a visit moves the cursor. -/
theorem cursor_next {event : Event} (h : next requests state event = some state')
    (hevent : ∀ accepted, event ≠ .visit accepted) : state'.cursor = state.cursor := by
  cases event with
  | visit accepted => exact absurd rfl (hevent accepted)
  | start i =>
      rw [Batch.next] at h
      split at h
      · cases h
        rfl
      · cases h
  | finish i outcome =>
      rw [Batch.next] at h
      split at h
      · cases h
        rfl
      · cases h
  | idle =>
      cases h
      rfl

theorem cursor_visit (state : Coordinator) (accepted : Bool) :
    (visit requests state accepted).cursor = state.cursor + 1 := by
  unfold Batch.visit
  dsimp only
  split
  · rfl
  · rfl
  · rfl
  · rfl
  · split
    · rfl
    · rfl
    · split <;> rfl

/-- A step leaves what is done as it is. -/
theorem isDone_next {event : Event} (h : next requests state event = some state')
    (hi : (state.phase i).isDone = true) : state'.phase i = state.phase i := by
  have hmove (j : Nat) (phase : Phase) (hj : (state.phase j).isDone = false) :
      update state.phase j phase i = state.phase i := update_of_done hj hi
  cases event with
  | visit accepted =>
      rw [Batch.next] at h
      split at h
      · cases h
        unfold Batch.visit
        dsimp only
        split
        · rfl
        · rfl
        · rfl
        · rename_i hphase
          exact hmove _ _ (congrArg Phase.isDone hphase)
        · rename_i hphase
          have hnew := congrArg Phase.isDone hphase
          split
          · rfl
          · exact hmove _ _ hnew
          · split
            · exact hmove _ _ hnew
            · rfl
      · split at h
        · cases h
          rfl
        · cases h
  | start j =>
      rw [Batch.next] at h
      split at h
      · rename_i hphase
        cases h
        exact hmove _ _ (congrArg Phase.isDone hphase)
      · cases h
  | finish j outcome =>
      rw [Batch.next] at h
      split at h
      · rename_i hphase
        cases h
        exact hmove _ _ (congrArg Phase.isDone hphase)
      · cases h
  | idle =>
      cases h
      rfl

theorem Execution.isDone_mono (run : Execution requests) (hkm : k ≤ m)
    (hi : ((run.state k).phase i).isDone = true) : ((run.state m).phase i).isDone = true := by
  induction m, hkm using Nat.le_induction with
  | base => exact hi
  | succ m _ ih =>
      rw [isDone_next (run.step m) ih]
      exact ih

/-- The next visit finds the cursor where it is now. -/
theorem Fair.next_visit (hfair : Fair run) (hgoes : ∀ k, ¬Over requests (run.state k)) (k : Nat) :
    ∃ m, k ≤ m ∧ (∃ accepted, run.event m = .visit accepted) ∧
      (run.state m).cursor = (run.state k).cursor := by
  obtain ⟨m, hkm, hm⟩ := hfair.scans k
  replace hm := hm.resolve_left (hgoes m)
  obtain ⟨gap, rfl⟩ := Nat.exists_eq_add_of_le hkm
  clear hkm
  induction gap generalizing k with
  | zero => exact ⟨k, Nat.le_refl k, hm, rfl⟩
  | succ gap ih =>
      by_cases hvisit : ∃ accepted, run.event k = .visit accepted
      · exact ⟨k, Nat.le_refl k, hvisit, rfl⟩
      · have hcursor := cursor_next (run.step k) fun accepted heq => hvisit ⟨accepted, heq⟩
        obtain ⟨m, hkm, hm', hsame⟩ := ih (k + 1) (by rwa [Nat.add_right_comm])
        exact ⟨m, by omega, hm', hsame.trans hcursor⟩

/-- The cursor moves on within a scan, -/
theorem Fair.cursor_add (hfair : Fair run) (hgoes : ∀ k, ¬Over requests (run.state k)) (k : Nat)
    {steps : Nat} (hle : (run.state k).cursor + steps ≤ requests.length) :
    ∃ m, k ≤ m ∧ (run.state m).cursor = (run.state k).cursor + steps := by
  induction steps with
  | zero => exact ⟨k, Nat.le_refl k, rfl⟩
  | succ steps ih =>
      obtain ⟨m, hkm, hm⟩ := ih (by omega)
      obtain ⟨v, hmv, ⟨accepted, hvisit⟩, hsame⟩ := hfair.next_visit hgoes m
      have hstep := run.step v
      rw [hvisit, Batch.next, if_pos (by omega), Option.some.injEq] at hstep
      refine ⟨v + 1, by omega, ?_⟩
      rw [← hstep, cursor_visit, hsame, hm, Nat.add_assoc]

/-- and from its end back to the first request. -/
theorem Fair.cursor_zero (hfair : Fair run) (hgoes : ∀ k, ¬Over requests (run.state k)) (k : Nat) :
    ∃ m, k ≤ m ∧ (run.state m).cursor = 0 := by
  have hcursor := (run.sound k).cursor
  obtain ⟨e, hke, hend⟩ := @hfair.cursor_add _ _ hgoes k
    (requests.length - (run.state k).cursor) (by omega)
  obtain ⟨v, hev, ⟨accepted, hvisit⟩, hsame⟩ := hfair.next_visit hgoes e
  have hstep := run.step v
  have hlast : requests.length ≤ (run.state v).cursor := by omega
  have hmore : (run.state v).completed < requests.length :=
    Nat.lt_of_not_le fun hle => hgoes v ⟨hlast, hle⟩
  rw [hvisit, Batch.next, if_neg (by omega), if_pos hmore, Option.some.injEq] at hstep
  refine ⟨v + 1, by omega, ?_⟩
  rw [← hstep]

/-- Every request is visited again and again. -/
theorem Fair.visits (hfair : Fair run) (hgoes : ∀ k, ¬Over requests (run.state k)) (k : Nat)
    (hlt : i < requests.length) :
    ∃ m, k ≤ m ∧ (∃ accepted, run.event m = .visit accepted) ∧ (run.state m).cursor = i := by
  obtain ⟨z, hkz, hzero⟩ := hfair.cursor_zero hgoes k
  obtain ⟨a, hza, hcursor⟩ := @hfair.cursor_add _ _ hgoes z i (by omega)
  obtain ⟨m, ham, hvisit, hsame⟩ := hfair.next_visit hgoes a
  exact ⟨m, by omega, hvisit, by omega⟩

/-! ## The loop ends -/

/-- How far a request has come. -/
def Phase.rank : Phase → Nat
  | .waiting => 0
  | .queued => 1
  | .executing => 2
  | .ready _ => 3
  | .done _ => 4

theorem isDone_of_rank (h : 4 ≤ phase.rank) : phase.isDone = true := by
  cases phase with
  | done result => rfl
  | waiting => exact absurd h (by decide)
  | queued => exact absurd h (by decide)
  | executing => exact absurd h (by decide)
  | ready result => exact absurd h (Nat.lt_irrefl 3)

theorem rank_update (h : (phases j).rank ≤ phase.rank) (i : Nat) :
    (phases i).rank ≤ (update phases j phase i).rank := by
  by_cases hij : i = j
  · subst hij
    rw [update_self]
    exact h
  · rw [update_of_ne hij]

theorem rank_visit (state : Coordinator) (accepted : Bool) (i : Nat) :
    (state.phase i).rank ≤ ((visit requests state accepted).phase i).rank := by
  unfold Batch.visit
  dsimp only
  split
  · exact Nat.le_refl _
  · exact Nat.le_refl _
  · exact Nat.le_refl _
  · rename_i hphase
    exact rank_update (by rw [hphase]; exact Nat.le_succ 3) i
  · rename_i hphase
    split
    · exact Nat.le_refl _
    · exact rank_update (by rw [hphase]; exact Nat.zero_le _) i
    · split
      · exact rank_update (by rw [hphase]; exact Nat.zero_le _) i
      · exact Nat.le_refl _

theorem rank_next {event : Event} (h : next requests state event = some state') (i : Nat) :
    (state.phase i).rank ≤ (state'.phase i).rank := by
  cases event with
  | visit accepted =>
      rw [Batch.next] at h
      split at h
      · cases h
        exact rank_visit state accepted i
      · split at h
        · cases h
          exact Nat.le_refl _
        · cases h
  | start j =>
      rw [Batch.next] at h
      split at h
      · rename_i hphase
        cases h
        exact rank_update (by rw [hphase]; exact Nat.le_succ 1) i
      · cases h
  | finish j outcome =>
      rw [Batch.next] at h
      split at h
      · rename_i hphase
        cases h
        exact rank_update (by rw [hphase]; exact Nat.le_succ 2) i
      · cases h
  | idle =>
      cases h
      exact Nat.le_refl _

theorem Execution.rank_mono (run : Execution requests) (hkm : k ≤ m) (i : Nat) :
    ((run.state k).phase i).rank ≤ ((run.state m).phase i).rank := by
  induction m, hkm using Nat.le_induction with
  | base => exact Nat.le_refl _
  | succ m _ ih => exact ih.trans (rank_next (run.step m) i)

/-- A visit collects a result that is ready. -/
theorem rank_visit_of_ready (accepted : Bool) (h : 3 ≤ (state.phase state.cursor).rank) :
    4 ≤ ((visit requests state accepted).phase state.cursor).rank := by
  have hkeeps := @rank_visit requests state accepted state.cursor
  cases hphase : state.phase state.cursor with
  | done result =>
      rw [hphase] at hkeeps
      exact hkeeps
  | ready result =>
      unfold Batch.visit
      dsimp only
      rw [hphase]
      simp [Coordinator.answer, Coordinator.move, Phase.rank]
  | waiting =>
      rw [hphase] at h
      exact absurd h (by decide)
  | queued =>
      rw [hphase] at h
      exact absurd h (by decide)
  | executing =>
      rw [hphase] at h
      exact absurd h (by decide)

/-- What was submitted gets done. -/
theorem Fair.done_of_submitted (hfair : Fair run) (hgoes : ∀ k, ¬Over requests (run.state k))
    (hlt : i < requests.length) (h : 1 ≤ ((run.state k).phase i).rank) :
    ∃ m, k ≤ m ∧ ((run.state m).phase i).isDone = true := by
  -- The pool finishes it first,
  obtain ⟨f, hkf, hready⟩ : ∃ f, k ≤ f ∧ 3 ≤ ((run.state f).phase i).rank := by
    by_cases hearly : (run.state k).phase i = .queued ∨ (run.state k).phase i = .executing
    · obtain ⟨f, hkf, outcome, hfinish⟩ := hfair.completes k i hearly
      have hstep := run.step f
      rw [hfinish, Batch.next] at hstep
      split at hstep
      · rename_i hphase
        refine ⟨f + 1, by omega, ?_⟩
        rw [← Option.some.inj hstep]
        simp [Coordinator.move, Phase.rank]
      · cases hstep
    · refine ⟨k, Nat.le_refl k, ?_⟩
      rw [not_or] at hearly
      cases hphase : (run.state k).phase i with
      | done result => exact Nat.le_succ 3
      | ready result => exact Nat.le_refl 3
      | waiting =>
          rw [hphase] at h
          exact absurd h (by decide)
      | queued => exact absurd hphase hearly.1
      | executing => exact absurd hphase hearly.2
  -- and the next visit collects it.
  obtain ⟨v, hfv, ⟨accepted, hvisit⟩, hcursor⟩ := hfair.visits hgoes f hlt
  have hstep := run.step v
  rw [hvisit, Batch.next, if_pos (hcursor ▸ hlt), Option.some.injEq] at hstep
  have hstill := hready.trans (run.rank_mono hfv i)
  refine ⟨v + 1, by omega, isDone_of_rank ?_⟩
  rw [← hstep, ← hcursor]
  exact rank_visit_of_ready accepted (hcursor ▸ hstill)

theorem judge_ne_wait (h : Unblocked requests phases i) : judge requests phases i ≠ .wait := by
  have hprevious : (previousOf requests i).any (fun previous => !(phases previous).isDone) = false := by
    cases hp : previousOf requests i with
    | none => rfl
    | some previous => simp [h.previous previous hp]
  rw [judge, hprevious, List.all_eq_true.mpr h.dependencies]
  simp only [Bool.false_eq_true, if_false, Bool.not_true]
  split <;> nofun

/-- A request whose dependencies are done gets done itself. -/
theorem Fair.done_of_unblocked (hfair : Fair run) (hgoes : ∀ k, ¬Over requests (run.state k))
    (hlt : i < requests.length) (h : Unblocked requests (run.state k).phase i) :
    ∃ m, k ≤ m ∧ ((run.state m).phase i).isDone = true := by
  by_cases hsubmitted : ∃ m, k ≤ m ∧ 1 ≤ ((run.state m).phase i).rank
  · obtain ⟨m, hkm, hrank⟩ := hsubmitted
    obtain ⟨d, hmd, hdone⟩ := hfair.done_of_submitted hgoes hlt hrank
    exact ⟨d, hkm.trans hmd, hdone⟩
  -- Otherwise it would be submitted again and again without being accepted.
  · exfalso
    have hwaits (m : Nat) (hkm : k ≤ m) : (run.state m).phase i = .waiting := by
      cases hphase : (run.state m).phase i with
      | waiting => rfl
      | queued => exact absurd ⟨m, hkm, hphase ▸ Nat.le_refl 1⟩ hsubmitted
      | executing => exact absurd ⟨m, hkm, hphase ▸ Nat.le_succ 1⟩ hsubmitted
      | ready result => exact absurd ⟨m, hkm, hphase ▸ Nat.succ_le_succ (Nat.zero_le 2)⟩ hsubmitted
      | done result => exact absurd ⟨m, hkm, hphase ▸ Nat.succ_le_succ (Nat.zero_le 3)⟩ hsubmitted
    have hattempts (n : Nat) : ∃ m, n ≤ m ∧ run.Attempts i m := by
      obtain ⟨m, hm, ⟨accepted, hvisit⟩, hcursor⟩ := hfair.visits hgoes (max n k) hlt
      have hkm : k ≤ m := (Nat.le_max_right n k).trans hm
      have hunblocked : Unblocked requests (run.state m).phase i :=
        ⟨fun dependency hmem => run.isDone_mono hkm (h.dependencies dependency hmem),
          fun previous hmem => run.isDone_mono hkm (h.previous previous hmem)⟩
      refine ⟨m, (Nat.le_max_left n k).trans hm, ⟨accepted, hvisit⟩, hcursor, hlt, hwaits m hkm, ?_⟩
      cases hjudge : judge requests (run.state m).phase i with
      | wait => exact absurd hjudge (judge_ne_wait hunblocked)
      | submit => rfl
      | skip =>
          have hstep := run.step m
          have hphase := hwaits m hkm
          rw [← hcursor] at hjudge hphase
          rw [hvisit, Batch.next, if_pos (hcursor ▸ hlt), Option.some.injEq] at hstep
          have hnext := hwaits (m + 1) (by omega)
          rw [← hstep, ← hcursor] at hnext
          simp [Batch.visit, hphase, hjudge, Coordinator.answer, Coordinator.move] at hnext
    obtain ⟨m, ⟨-, hcursor, -, hphase, hjudge⟩, hvisit⟩ := hfair.accepts i hattempts
    have hstep := run.step m
    rw [← hcursor] at hphase hjudge
    rw [hvisit, Batch.next, if_pos (hcursor ▸ hlt), Option.some.injEq] at hstep
    have hqueued : 1 ≤ ((run.state (m + 1)).phase i).rank := by
      rw [← hstep, ← hcursor]
      simp [Batch.visit, hphase, hjudge, Coordinator.move, Phase.rank]
    have hlater := hqueued.trans (run.rank_mono (Nat.le_max_right k (m + 1)) i)
    exact hsubmitted ⟨_, Nat.le_max_left k (m + 1), hlater⟩

theorem Planned.previous_lt (h : Planned stat requests) (hmem : j ∈ previousOf requests i) :
    j < i := by
  cases hi : requests[i]? with
  | none =>
      rw [previousOf, hi] at hmem
      cases hmem
  | some request =>
      rw [previousOf_eq hi] at hmem
      exact ((h.previous i request hi).1 j hmem).1

/-- All requests up to a bound get done, by induction on the bound. -/
theorem Fair.done_below (hfair : Fair run) (hgoes : ∀ k, ¬Over requests (run.state k))
    (hplan : Planned stat requests) {bound : Nat} (hbound : bound ≤ requests.length) :
    ∃ k, ∀ i < bound, ((run.state k).phase i).isDone = true := by
  induction bound with
  | zero => exact ⟨0, nofun⟩
  | succ bound ih =>
      obtain ⟨k, hk⟩ := ih (Nat.le_of_succ_le hbound)
      have hunblocked : Unblocked requests (run.state k).phase bound :=
        ⟨fun dependency hmem => hk dependency (hplan.dependency_lt hmem),
          fun previous hmem => hk previous (hplan.previous_lt hmem)⟩
      obtain ⟨m, hkm, hm⟩ := hfair.done_of_unblocked hgoes hbound hunblocked
      refine ⟨m, fun i hi => ?_⟩
      rcases Nat.eq_or_lt_of_le (Nat.le_of_lt_succ hi) with rfl | hlt
      · exact hm
      · exact run.isDone_mono hkm (hk i hlt)

theorem Fair.ends (hfair : Fair run) (hplan : Planned stat requests) :
    ∃ k, Over requests (run.state k) := by
  by_contra hnever
  rw [not_exists] at hnever
  obtain ⟨k, hk⟩ := hfair.done_below hnever hplan (Nat.le_refl _)
  have hcursor := (run.sound k).cursor
  obtain ⟨m, hkm, hm⟩ := @hfair.cursor_add _ _ hnever k
    (requests.length - (run.state k).cursor) (by omega)
  have hsound := run.sound m
  -- Every request has an answer, so everything is completed.
  have hall : List.range requests.length ⊆ (run.state m).answers.map (·.1) := by
    intro i hi
    have hdone := run.isDone_mono hkm (hk i (List.mem_range.mp hi))
    cases hphase : (run.state m).phase i with
    | done result => exact List.mem_map.mpr ⟨(i, result), (hsound.answered i result).mpr hphase, rfl⟩
    | waiting => rw [hphase] at hdone; cases hdone
    | queued => rw [hphase] at hdone; cases hdone
    | executing => rw [hphase] at hdone; cases hdone
    | ready result => rw [hphase] at hdone; cases hdone
  have hlength := (List.subperm_of_subset List.nodup_range hall).length_le
  rw [List.length_range, List.length_map, ← hsound.completed] at hlength
  exact hnever m ⟨by omega, hlength⟩

/-! ## Batches -/

/-- The earlier requests that a request names and those on its target file are done. -/
def StartsAfter (stat : Nat → StatAnswer) (tasks : List BatchIoTask) (state : Coordinator)
    (i : Nat) : Prop :=
  ∀ (task earlier : BatchIoTask) (j : Nat), tasks[i]? = some task → tasks[j]? = some earlier →
    j < i → (earlier.requestId ∈ task.after ∨ fileKey earlier (stat j) = fileKey task (stat i)) →
      (state.phase j).isDone = true

/-- Every result was answered once, and it is skipped exactly when a direct dependency ended
    with an error, which is when a failure is reached through skipped requests. -/
structure AnsweredWell (requests : List Request) (state : Coordinator) : Prop where
  once : (state.answers.map (·.1)).Nodup
  answered : ∀ i result, (i, result) ∈ state.answers ↔ state.phase i = .done result
  skipped : ∀ i result, state.phase i = .done result →
    (result.skipped = true ↔ DependencyFailed requests state.phase i) ∧
    (result.skipped = true ↔ FailureReached requests state.phase i) ∧
    (result.skipped = true → result.error = ECANCELED)
  finished : Over requests state → (state.answers.map (·.1)).Perm (List.range requests.length)

/-- In every run of an accepted batch a request is started when everything before it is done,
    and the answers are right; in every fair run the loop ends. -/
theorem accepted_batch_runs_in_order (options : BatchIoOptions) (active : Nat)
    (stat : Nat → StatAnswer) (tasks : List BatchIoTask) (requests : List Request)
    (h : submitBatch options active stat tasks = .ok requests) :
    (∀ hist state, Serves (Steps requests) Any (initial requests) hist state →
      AnsweredWell requests state ∧
      ∀ e ∈ hist, ∀ i, e.call = .start i → StartsAfter stat tasks e.before i) ∧
    ∀ run : Execution requests, Fair run → ∃ k, Over requests (run.state k) := by
  obtain ⟨hplan, rfl⟩ := submitBatch_planned h
  refine ⟨fun hist state hserves => ⟨?_, ?_⟩, fun run hfair => hfair.ends hplan⟩
  · have hsound := sound_of_serves hserves
    refine
      { once := hsound.once
        answered := hsound.answered
        skipped := fun i result hdone => ?_
        finished := fun hover => hsound.answers_perm hover.2 }
    obtain ⟨hskipped, herror⟩ := hsound.skipped_iff hdone
    exact ⟨hskipped, hskipped.trans (hsound.failureReached_iff hplan i), herror⟩
  · intro e hmem i hcall task earlier j hi hj hlt hbefore
    obtain ⟨front, back, rfl⟩ := List.append_of_mem hmem
    obtain ⟨hfront, -, hstep, -⟩ := hserves.split
    have hsound := sound_of_serves hfront
    have hphase : e.before.phase i ≠ .waiting := by
      rw [Steps, hcall, next] at hstep
      split at hstep
      · rename_i hqueued
        rw [hqueued]
        nofun
      · cases hstep
    rw [List.getElem?_map, Option.map_eq_some_iff] at hi hj
    obtain ⟨request, hrequest, rfl⟩ := hi
    obtain ⟨other, hother, rfl⟩ := hj
    rcases hbefore with hnamed | hsame
    · have hmem := (hplan.dependencies i request hrequest j).mpr ⟨hlt, other, hother, hnamed⟩
      rw [← mem_dependenciesOf hrequest] at hmem
      exact ((hsound.fits i).unblocked hphase).dependencies j hmem
    · have hkey : other.key = request.key := by
        rw [hplan.key i request hrequest, hplan.key j other hother]
        exact hsame
      exact hsound.done_before hplan hrequest hphase hlt hother hkey

section Examples

/-- The second task names the first one. -/
def twoTasks : List BatchIoTask :=
  [{ requestId := [1], path := [65], localPath := [66], size := 1 },
    { requestId := [2], path := [67], localPath := [68], size := 1, after := [[1]] }]

def twoRequests : List Request :=
  (submitBatch {} 0 (fun _ => none) twoTasks).toOption.getD []

/-- The first task fails, so the second one is skipped. -/
def twoEvents : List Event :=
  [.visit true, .visit true, .start 0, .visit true,
    .finish 0 { error := 5, bytes := 0, elapsedUs := 1, mayHaveWritten := false },
    .visit true, .visit true, .visit true]

/-- The events and then nothing more. -/
def twoRun : Execution twoRequests where
  state k := (runWhile (next twoRequests) (initial twoRequests) (twoEvents.take k)).2
  event k := twoEvents[k]?.getD .idle
  first := rfl
  step
    | 0 | 1 | 2 | 3 | 4 | 5 | 6 | 7 => rfl
    | k + 8 => by
        rw [List.take_of_length_le (Nat.le_add_left 8 k),
          List.take_of_length_le (Nat.le_add_left 8 (k + 1))]
        rfl

theorem state_twoRun {k : Nat} (hk : 8 ≤ k) : twoRun.state k = twoRun.state 8 :=
  congrArg (fun events => (runWhile (next twoRequests) (initial twoRequests) events).2)
    (List.take_of_length_le hk)

theorem fair_twoRun : Fair twoRun where
  scans k := by
    refine ⟨max k 8, Nat.le_max_left k 8, .inl ?_⟩
    rw [state_twoRun (Nat.le_max_right k 8)]
    exact ⟨by decide, by decide⟩
  completes k i h := by
    have hphases : ∀ k ≤ 8, ∀ i < 2, ((twoRun.state k).phase i = .queued ∨
        (twoRun.state k).phase i = .executing) → k ≤ 4 ∧ i = 0 := by
      decide +kernel
    have hi : i < 2 := by
      by_contra hi
      rw [(twoRun.sound k).beyond i (Nat.not_lt.mp hi)] at h
      rcases h with h | h <;> cases h
    rcases Nat.le_total k 8 with hk | hk
    · obtain ⟨hle, rfl⟩ := hphases k hk i hi h
      exact ⟨4, hle, _, rfl⟩
    · rw [state_twoRun hk] at h
      exact absurd (hphases 8 (Nat.le_refl 8) i hi h).1 (by decide)
  accepts i h := by
    obtain ⟨m, hm, hattempts⟩ := h 8
    obtain ⟨accepted, hvisit⟩ := hattempts.visits
    have hidle : twoRun.event m = .idle :=
      congrArg (·.getD .idle) (List.getElem?_eq_none (l := twoEvents) hm)
    cases hidle.symm.trans hvisit

/-- Both requests are answered, the second one was skipped because a failure is reached, and
    the run ends. -/
theorem accepted_batch_runs_in_order_of_two :
    (∃ state, Over twoRequests state ∧ (state.answers.map (·.1)).Perm (List.range 2) ∧
      FailureReached twoRequests state.phase 1) ∧ ∃ k, Over twoRequests (twoRun.state k) := by
  have hplan : submitBatch {} 0 (fun _ => none) twoTasks = .ok twoRequests := rfl
  obtain ⟨hruns, hends⟩ :=
    accepted_batch_runs_in_order {} 0 (fun _ => none) twoTasks twoRequests hplan
  refine ⟨?_, hends twoRun fair_twoRun⟩
  have hserves := @serves_runWhile _ _ (Steps twoRequests) Any (next twoRequests)
    (fun _ _ _ hstep => hstep) twoEvents (initial twoRequests) (fun _ _ => trivial)
  have hanswered := (hruns _ _ hserves).1
  have hover : Over twoRequests (runWhile (next twoRequests) (initial twoRequests) twoEvents).2 :=
    ⟨by decide, by decide⟩
  exact ⟨_, hover, hanswered.finished hover, (hanswered.skipped 1 _ rfl).2.1.mp rfl⟩

end Examples

end Zb.Client.Batch
