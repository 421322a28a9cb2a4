-- SUMMARY: The invariant of prepared reads: readers count the handles, and every preparation pins its task.
import ZBStorage.Lib.TableSum
import ZBStorage.Simulation.PreparedState
import ZBStorage.Simulation.RetainedTasks

/-!
# Prepared sessions

What holds of prepared reads between any two critical sections (`Sound`), whatever
clients, streams, the notification thread and the models do.
-/

namespace Zb.Simulation

open Bytes
open Function (update update_self update_of_ne)

namespace PreparedState

variable {config : OpticalReadConfig} {s : PreparedState} {p q handle now : Nat}
  {nodeId : Bytes} {key : TaskKey}

/-- The handles that read a preparation. -/
def handleCount (p : Nat) (handles : AList fun _ : Nat => Nat) : Nat :=
  TableSum.total (fun _ q => if q = p then 1 else 0) handles

/-- The model keeps the task of a preparation, for the inode that was asked for. -/
def Pins (s : PreparedState) (task : Preparation) : Prop :=
  ∃ readTask, (s.models task.nodeId).tasks.lookup task.taskId = some readTask ∧
    readTask.Pinned ∧ readTask.inodeId = task.request.inodeId

/-- Tasks and requests are two views of the same preparations. -/
structure Filed (s : PreparedState) : Prop where
  taskKeys : ∀ p < s.nextPreparation, ∀ q < s.nextPreparation,
    (s.preparations p).taskKey = (s.preparations q).taskKey → p = q
  tasks : ∀ key p, s.tasks.lookup key = some p →
    p < s.nextPreparation ∧ (s.preparations p).taskKey = key
  requests : ∀ key p, s.requests.lookup key = some p →
    p < s.nextPreparation ∧ (s.preparations p).requestKey = key
  agree : ∀ p < s.nextPreparation, s.tasks.lookup (s.preparations p).taskKey = some p ↔
    s.requests.lookup (s.preparations p).requestKey = some p

structure Sound (s : PreparedState) : Prop extends Filed s where
  issued : ∀ nodeId, (s.models nodeId).Issued
  taskIds : ∀ p < s.nextPreparation,
    (s.preparations p).taskId < (s.models (s.preparations p).nodeId).nextTaskId
  live : ∀ p < s.nextPreparation, (s.preparations p).removed = false →
    s.tasks.lookup (s.preparations p).taskKey = some p ∧ s.Pins (s.preparations p)
  handles : ∀ handle p, s.handles.lookup handle = some p →
    p < s.nextPreparation ∧ (s.preparations p).removed = false ∧ handle < s.nextHandle
  readers : ∀ p < s.nextPreparation, (s.preparations p).readers = handleCount p s.handles
  gone : ∀ p < s.nextPreparation, (s.preparations p).removed = true →
    (s.preparations p).held = false ∧
      (s.models (s.preparations p).nodeId).tasks.lookup (s.preparations p).taskId = none
  released : ∀ key ∈ s.releases, ∃ p < s.nextPreparation, (s.preparations p).taskKey = key ∧
    (s.preparations p).removed = true
  once : s.releases.Nodup

/-! ## Models and single preparations -/

/-- The models change, and what is pinned stays. -/
theorem Sound.setModel (h : Sound s) {model : OpticalReadModel}
    (hkeeps : (s.models nodeId).Keeps model) : Sound (s.setModel nodeId model) := by
  have hkept : ∀ other, (s.models other).Keeps ((s.setModel nodeId model).models other) := by
    intro other
    by_cases hother : other = nodeId
    · subst hother
      change (s.models other).Keeps (update s.models other model other)
      rw [update_self]
      exact hkeeps
    · change (s.models other).Keeps (update s.models nodeId model other)
      rw [update_of_ne hother]
      exact .refl (h.issued other)
  exact { h with
    issued := fun other => (hkept other).issued
    taskIds := fun p hp => UInt64.lt_of_lt_of_le (h.taskIds p hp) (hkept _).next
    live := fun p hp hlive => by
      obtain ⟨htask, task, hlookup, hpinned, hinode⟩ := h.live p hp hlive
      exact ⟨htask, task, (hkept _).pinned _ _ hlookup hpinned, hpinned, hinode⟩
    gone := fun p hp hgone => by
      obtain ⟨hheld, hnone⟩ := h.gone p hp hgone
      exact ⟨hheld, (hkept _).gone _ (h.taskIds p hp) hnone⟩ }

/-- A preparation changes in what does not bind it: `held`, `notified` and the times. -/
structure SameTask (task task' : Preparation) : Prop where
  request : task'.request = task.request
  nodeId : task'.nodeId = task.nodeId
  taskId : task'.taskId = task.taskId

theorem SameTask.refl (task : Preparation) : SameTask task task := ⟨rfl, rfl, rfl⟩

theorem SameTask.taskKey {task task' : Preparation} (h : SameTask task task') :
    task'.taskKey = task.taskKey := by
  rw [Preparation.taskKey, h.nodeId, h.taskId, Preparation.taskKey]

theorem SameTask.requestKey {task task' : Preparation} (h : SameTask task task') :
    task'.requestKey = task.requestKey := by
  rw [Preparation.requestKey, h.request, Preparation.requestKey]

/-- One preparation that is updated for the same task: every preparation is for the same
    task as before. -/
theorem sameTask_update {task : Preparation} (h : SameTask (s.preparations p) task) (q : Nat) :
    SameTask (s.preparations q) (update s.preparations p task q) := by
  by_cases hq : q = p
  · subst hq
    rw [update_self]
    exact h
  · rw [update_of_ne hq]
    exact .refl _

/-- A field that the update of one preparation leaves as it was. -/
theorem field_update {α : Type} (field : Preparation → α) {task : Preparation}
    (h : field task = field (s.preparations p)) (q : Nat) :
    field (update s.preparations p task q) = field (s.preparations q) := by
  by_cases hq : q = p
  · subst hq
    rw [update_self]
    exact h
  · rw [update_of_ne hq]

theorem Pins.of_sameTask {s' : PreparedState} {task task' : Preparation} (h : s.Pins task)
    (hmodels : s'.models = s.models) (hsame : SameTask task task') : s'.Pins task' := by
  obtain ⟨readTask, hlookup, hpinned, hinode⟩ := h
  refine ⟨readTask, ?_, hpinned, ?_⟩
  · rw [hmodels, hsame.nodeId, hsame.taskId]
    exact hlookup
  · rw [hsame.request]
    exact hinode

theorem Filed.of_sameTask {s' : PreparedState} (h : Filed s)
    (hnext : s'.nextPreparation = s.nextPreparation) (htasks : s'.tasks = s.tasks)
    (hrequests : s'.requests = s.requests)
    (hall : ∀ q, SameTask (s.preparations q) (s'.preparations q)) : Filed s' := by
  refine ⟨?_, ?_, ?_, ?_⟩
  · intro q hq r hr heq
    rw [hnext] at hq hr
    rw [(hall q).taskKey, (hall r).taskKey] at heq
    exact h.taskKeys q hq r hr heq
  · intro key q hlookup
    rw [htasks] at hlookup
    rw [hnext, (hall q).taskKey]
    exact h.tasks key q hlookup
  · intro key q hlookup
    rw [hrequests] at hlookup
    rw [hnext, (hall q).requestKey]
    exact h.requests key q hlookup
  · intro q hq
    rw [hnext] at hq
    rw [htasks, hrequests, (hall q).taskKey, (hall q).requestKey]
    exact h.agree q hq

/-- What an update for the same task keeps, when it does not remove the preparation and the
    readers are those of the handles. -/
theorem Sound.setTask (h : Sound s) {task : Preparation} {handles : AList fun _ : Nat => Nat}
    {nextHandle : Nat} (hsame : SameTask (s.preparations p) task)
    (hremoved : task.removed = (s.preparations p).removed)
    (hheld : p < s.nextPreparation → task.removed = true → task.held = false)
    (hhandles : ∀ handle q, handles.lookup handle = some q →
      q < s.nextPreparation ∧ (s.preparations q).removed = false ∧ handle < nextHandle)
    (hreaders : ∀ q, q < s.nextPreparation →
      (update s.preparations p task q).readers = handleCount q handles) :
    Sound { s.setPreparation p task with
      handles := handles
      nextHandle := nextHandle } := by
  have hall := sameTask_update hsame
  have hallRemoved := field_update (·.removed) hremoved
  refine
    { toFiled := h.toFiled.of_sameTask rfl rfl rfl hall
      issued := h.issued
      taskIds := fun q hq => ?_
      live := fun q hq hlive => ?_
      handles := fun handle q hlookup => ?_
      readers := hreaders
      gone := fun q hq hgone => ?_
      released := fun key hmem => ?_
      once := h.once }
  · change (update s.preparations p task q).taskId <
      (s.models (update s.preparations p task q).nodeId).nextTaskId
    rw [(hall q).taskId, (hall q).nodeId]
    exact h.taskIds q hq
  · obtain ⟨htask, hpins⟩ := h.live q hq ((hallRemoved q).symm.trans hlive)
    refine ⟨?_, hpins.of_sameTask rfl (hall q)⟩
    change s.tasks.lookup (update s.preparations p task q).taskKey = some q
    rw [(hall q).taskKey]
    exact htask
  · obtain ⟨hq, hlive, hhandle⟩ := hhandles handle q hlookup
    exact ⟨hq, (hallRemoved q).trans hlive, hhandle⟩
  · obtain ⟨hold, hnone⟩ := h.gone q hq ((hallRemoved q).symm.trans hgone)
    refine ⟨?_, ?_⟩
    · by_cases hqp : q = p
      · subst hqp
        change (update s.preparations q task q).removed = true at hgone
        change (update s.preparations q task q).held = false
        rw [update_self] at hgone ⊢
        exact hheld hq hgone
      · change (update s.preparations p task q).held = false
        rw [update_of_ne hqp]
        exact hold
    · change (s.models (update s.preparations p task q).nodeId).tasks.lookup
        (update s.preparations p task q).taskId = none
      rw [(hall q).nodeId, (hall q).taskId]
      exact hnone
  · obtain ⟨q, hq, hkey, hgone⟩ := h.released key hmem
    exact ⟨q, hq, (hall q).taskKey.trans hkey, (hallRemoved q).trans hgone⟩

theorem Sound.setPreparation (h : Sound s) {task : Preparation}
    (hsame : SameTask (s.preparations p) task)
    (hreaders : task.readers = (s.preparations p).readers)
    (hremoved : task.removed = (s.preparations p).removed)
    (hheld : p < s.nextPreparation → task.removed = true → task.held = false) :
    Sound (s.setPreparation p task) :=
  h.setTask hsame hremoved hheld h.handles fun q hq =>
    (field_update (·.readers) hreaders q).trans (h.readers q hq)

/-! ## Giving references up -/

/-- A preparation without readers has no handle. -/
theorem Sound.no_handle (h : Sound s) (hp : p < s.nextPreparation)
    (hreaders : (s.preparations p).readers = 0) (handle : Nat) :
    s.handles.lookup handle ≠ some p := by
  intro hlookup
  have hzero : handleCount p s.handles = 0 := by
    have hcount := h.readers p hp
    rw [hreaders] at hcount
    exact Int.ofNat_eq_zero.mp hcount.symm
  have hweight := TableSum.total_eq_zero_iff.mp hzero handle p hlookup
  rw [if_pos rfl] at hweight
  cases hweight

/-- A preparation that is marked as removed, over models that lost at most its task. -/
theorem Sound.remove (h : Sound s) (hp : p < s.nextPreparation)
    (hheld : (s.preparations p).held = false) (hreaders : (s.preparations p).readers = 0)
    (hlive : (s.preparations p).removed = false) {model : OpticalReadModel}
    (hreleased : (s.models (s.preparations p).nodeId).Released (s.preparations p).taskId model)
    (hnone : model.tasks.lookup (s.preparations p).taskId = none) (now : Nat) {releases : List TaskKey}
    (hreleases : releases = (s.preparations p).taskKey :: s.releases ∨ releases = s.releases) :
    Sound (({ s.setModel (s.preparations p).nodeId model with releases := releases }).setPreparation
      p { s.preparations p with removed := true, removedAt := now }) := by
  generalize htask : { s.preparations p with removed := true, removedAt := now } = task
  have hsame : SameTask (s.preparations p) task := by
    subst htask
    exact ⟨rfl, rfl, rfl⟩
  have hremoved : task.removed = true := by rw [← htask]
  have hall := sameTask_update hsame
  have hsameReaders : task.readers = (s.preparations p).readers := by rw [← htask]
  have hallReaders := field_update (·.readers) hsameReaders
  have hother : ∀ q, (update s.preparations p task q).removed = false →
      q ≠ p ∧ (s.preparations q).removed = false := by
    intro q hq
    by_cases hqp : q = p
    · rw [hqp, update_self, hremoved] at hq
      cases hq
    · rw [update_of_ne hqp] at hq
      exact ⟨hqp, hq⟩
  have hgone : ∀ q, (s.preparations q).removed = true →
      (update s.preparations p task q).removed = true := by
    intro q hq
    by_cases hqp : q = p
    · rw [hqp, update_self, hremoved]
    · rw [update_of_ne hqp]
      exact hq
  have hmodels : ∀ nodeId, (update s.models (s.preparations p).nodeId model nodeId).Issued ∧
      (update s.models (s.preparations p).nodeId model nodeId).nextTaskId =
        (s.models nodeId).nextTaskId := by
    intro nodeId
    by_cases hnode : nodeId = (s.preparations p).nodeId
    · rw [hnode, update_self]
      exact ⟨hreleased.issued, hreleased.next⟩
    · rw [update_of_ne hnode]
      exact ⟨h.issued nodeId, rfl⟩
  have htaskId : ∀ q < s.nextPreparation, q ≠ p →
      (s.preparations q).nodeId = (s.preparations p).nodeId →
      (s.preparations q).taskId ≠ (s.preparations p).taskId := by
    intro q hq hqp hnode heq
    refine hqp (h.taskKeys q hq p hp ?_)
    rw [Preparation.taskKey, hnode, heq, Preparation.taskKey]
  have hnew : (s.preparations p).taskKey ∉ s.releases := by
    intro hmem
    obtain ⟨q, hq, hkey, hqgone⟩ := h.released _ hmem
    cases h.taskKeys q hq p hp hkey
    rw [hlive] at hqgone
    cases hqgone
  refine
    { toFiled := h.toFiled.of_sameTask rfl rfl rfl hall
      issued := fun nodeId => (hmodels nodeId).1
      taskIds := fun q hq => ?_
      live := fun q hq hqlive => ?_
      handles := fun handle q hlookup => ?_
      readers := fun q hq => (hallReaders q).trans (h.readers q hq)
      gone := fun q hq hqgone => ?_
      released := fun key hmem => ?_
      once := ?_ }
  · change (update s.preparations p task q).taskId <
      (update s.models _ model (update s.preparations p task q).nodeId).nextTaskId
    rw [(hmodels _).2, (hall q).taskId, (hall q).nodeId]
    exact h.taskIds q hq
  · -- the task that went is not the one of another preparation
    obtain ⟨hqp, hqlive⟩ := hother q hqlive
    obtain ⟨hlookup', readTask, hlookup, hpinned, hinode⟩ := h.live q hq hqlive
    have hsameq : update s.preparations p task q = s.preparations q :=
      update_of_ne hqp _ _
    suffices hkept : (update s.models (s.preparations p).nodeId model
        (s.preparations q).nodeId).tasks.lookup (s.preparations q).taskId = some readTask by
      change s.tasks.lookup (update s.preparations p task q).taskKey = some q ∧
        Pins _ (update s.preparations p task q)
      rw [hsameq]
      exact ⟨hlookup', readTask, hkept, hpinned, hinode⟩
    by_cases hnode : (s.preparations q).nodeId = (s.preparations p).nodeId
    · rw [hnode, update_self, hreleased.others _ (htaskId q hq hqp hnode)]
      exact hnode ▸ hlookup
    · rw [update_of_ne hnode]
      exact hlookup
  · obtain ⟨hq, hqlive, hhandle⟩ := h.handles handle q hlookup
    have hqp : q ≠ p := by
      rintro rfl
      exact h.no_handle hp hreaders handle hlookup
    refine ⟨hq, ?_, hhandle⟩
    change (update s.preparations p task q).removed = false
    rw [update_of_ne hqp]
    exact hqlive
  · by_cases hqp : q = p
    · subst hqp
      change (update s.preparations q task q).held = false ∧
        (update s.models (s.preparations q).nodeId model
          (update s.preparations q task q).nodeId).tasks.lookup
            (update s.preparations q task q).taskId = none
      rw [(hall q).nodeId, (hall q).taskId, update_self, update_self, ← htask]
      exact ⟨hheld, hnone⟩
    · change (update s.preparations p task q).removed = true at hqgone
      change (update s.preparations p task q).held = false ∧
        (update s.models (s.preparations p).nodeId model
          (update s.preparations p task q).nodeId).tasks.lookup
            (update s.preparations p task q).taskId = none
      rw [update_of_ne hqp] at hqgone ⊢
      obtain ⟨hqheld, hqnone⟩ := h.gone q hq hqgone
      refine ⟨hqheld, ?_⟩
      by_cases hnode : (s.preparations q).nodeId = (s.preparations p).nodeId
      · rw [hnode, update_self, hreleased.others _ (htaskId q hq hqp hnode)]
        exact hnode ▸ hqnone
      · rw [update_of_ne hnode]
        exact hqnone
  · have hold : key ∈ s.releases → ∃ q < s.nextPreparation,
        (update s.preparations p task q).taskKey = key ∧
          (update s.preparations p task q).removed = true := by
      intro hkey
      obtain ⟨q, hq, heq, hqgone⟩ := h.released key hkey
      exact ⟨q, hq, (hall q).taskKey.trans heq, hgone q hqgone⟩
    change key ∈ releases at hmem
    obtain rfl | rfl := hreleases
    · obtain rfl | hmem := List.mem_cons.mp hmem
      · refine ⟨p, hp, (hall p).taskKey, ?_⟩
        change (update s.preparations p task p).removed = true
        rw [update_self, hremoved]
      · exact hold hmem
    · exact hold hmem
  · change releases.Nodup
    obtain rfl | rfl := hreleases
    · exact List.nodup_cons.mpr ⟨hnew, h.once⟩
    · exact h.once

theorem Sound.cleanup (h : Sound s) (hp : p < s.nextPreparation) (now : Nat) (stored : Bool) :
    Sound (s.cleanup p now stored).2 := by
  unfold PreparedState.cleanup
  dsimp only
  split
  · exact h
  · rename_i hidle
    rw [not_or, not_or, not_not] at hidle
    obtain ⟨hheld, hreaders, hlive⟩ := hidle
    rw [Bool.not_eq_true] at hheld hlive
    have hreleased := OpticalReadModel.releasePrepared_released
      (h.issued (s.preparations p).nodeId) (s.preparations p).taskId stored
    by_cases hok : ((s.models (s.preparations p).nodeId).releasePrepared
        (s.preparations p).taskId stored).1 = .ok
    · rw [if_pos hok, if_pos (.inl hok)]
      exact h.remove hp hheld hreaders hlive hreleased
        (OpticalReadModel.releasePrepared_gone (.inl hok)) now (.inl rfl)
    · rw [if_neg hok]
      split
      · rename_i hdone
        exact h.remove hp hheld hreaders hlive hreleased
          (OpticalReadModel.releasePrepared_gone hdone) now (.inr rfl)
      · dsimp only
        rw [OpticalReadModel.releasePrepared_refused hok]
        exact h.setModel (.refl (h.issued _))

theorem cleanup_next (p now : Nat) (stored : Bool) (s : PreparedState) :
    (s.cleanup p now stored).2.nextPreparation = s.nextPreparation := by
  unfold PreparedState.cleanup
  dsimp only
  split
  · rfl
  · split
    · rfl
    · rfl

theorem Sound.unhold (h : Sound s) (hp : p < s.nextPreparation) (now : Nat) (stored : Bool) :
    Sound (s.unhold p now stored).2 := by
  have hset : Sound (s.setPreparation p { s.preparations p with held := false }) :=
    h.setPreparation ⟨rfl, rfl, rfl⟩ rfl rfl fun _ _ => rfl
  exact hset.cleanup hp now stored

theorem unhold_next (p now : Nat) (stored : Bool) (s : PreparedState) :
    (s.unhold p now stored).2.nextPreparation = s.nextPreparation :=
  cleanup_next p now stored _

/-- The readers and the handles change together. -/
theorem Sound.setHandles (h : Sound s) (hlive : (s.preparations p).removed = false)
    {readers : Int} {handles : AList fun _ : Nat => Nat} {nextHandle : Nat}
    (hhandles : ∀ handle q, handles.lookup handle = some q →
      (s.handles.lookup handle = some q ∧ handle < s.nextHandle ∨ q = p ∧ p < s.nextPreparation) ∧
        handle < nextHandle)
    (hcount : readers = handleCount p handles)
    (hothers : ∀ q, q ≠ p → handleCount q handles = handleCount q s.handles) :
    Sound { s.setPreparation p { s.preparations p with readers := readers } with
      handles := handles
      nextHandle := nextHandle } := by
  refine h.setTask ⟨rfl, rfl, rfl⟩ rfl
    (fun _ hgone => absurd (hlive.symm.trans hgone) Bool.false_ne_true)
    (fun handle q hlookup => ?_) fun q hq => ?_
  · obtain ⟨hold | ⟨rfl, hq⟩, hhandle⟩ := hhandles handle q hlookup
    · obtain ⟨hq, hqlive, _⟩ := h.handles handle q hold.1
      exact ⟨hq, hqlive, hhandle⟩
    · exact ⟨hq, hlive, hhandle⟩
  · by_cases hqp : q = p
    · subst hqp
      rw [update_self]
      exact hcount
    · rw [update_of_ne hqp, hothers q hqp]
      exact h.readers q hq

end PreparedState

end Zb.Simulation
