-- SUMMARY: What the operations of the read model leave alone: a retained task is dropped by its release only.
import ZBStorage.Simulation.OpticalReadModel

/-!
# Retained tasks

Task ids are issued once, and every operation of the model but the release of a
prepared task keeps all tasks that are retained and not released (`Keeps`).
-/

namespace Zb.Simulation

open Bytes

/-- The task waits for its release. -/
structure ReadTask.Pinned (task : ReadTask) : Prop where
  retained : task.retained = true
  unreleased : task.released = false

namespace OpticalReadModel

variable {config : OpticalReadConfig} {model model' : OpticalReadModel} {taskId inodeId : UInt64}
  {task : ReadTask} {now : Nat}

/-- Every task was issued before the next one. -/
def Issued (model : OpticalReadModel) : Prop :=
  ∀ taskId task, model.tasks.lookup taskId = some task → taskId < model.nextTaskId

/-- An operation that starts with issued tasks and keeps what is retained. A task that is
    gone does not come back. -/
structure Keeps (model model' : OpticalReadModel) : Prop where
  next : model.nextTaskId ≤ model'.nextTaskId
  issued : Issued model'
  gone : ∀ taskId < model.nextTaskId, model.tasks.lookup taskId = none →
    model'.tasks.lookup taskId = none
  pinned : ∀ taskId task, model.tasks.lookup taskId = some task → task.Pinned →
    model'.tasks.lookup taskId = some task

theorem Keeps.refl (h : Issued model) : Keeps model model :=
  ⟨UInt64.le_refl _, h, fun _ _ hnone => hnone, fun _ _ hlookup _ => hlookup⟩

theorem Keeps.trans {model'' : OpticalReadModel} (h : Keeps model model')
    (h' : Keeps model' model'') : Keeps model model'' :=
  ⟨UInt64.le_trans h.next h'.next, h'.issued,
    fun taskId hold hnone => h'.gone taskId (UInt64.lt_of_lt_of_le hold h.next)
      (h.gone taskId hold hnone),
    fun taskId task hlookup hpinned => h'.pinned taskId task (h.pinned taskId task hlookup hpinned)
      hpinned⟩

/-- Operations that leave the tasks alone. -/
theorem Keeps.of_tasks (h : Issued model) (htasks : model'.tasks = model.tasks)
    (hnext : model'.nextTaskId = model.nextTaskId) : Keeps model model' := by
  refine ⟨UInt64.le_of_eq hnext.symm, ?_, ?_, ?_⟩
  · intro taskId task hlookup
    rw [htasks] at hlookup
    rw [hnext]
    exact h taskId task hlookup
  · intro taskId _ hnone
    rw [htasks]
    exact hnone
  · intro taskId task hlookup _
    rw [htasks]
    exact hlookup

theorem emplaceFile_keeps (h : Issued model) (inodeId : UInt64) (file : OpticalFile) :
    Keeps model (model.emplaceFile inodeId file) := by
  unfold emplaceFile
  split
  · exact .refl h
  · exact .of_tasks h rfl rfl

/-! ## Dropping tasks -/

section Tables

variable {tasks : AList fun _ : UInt64 => ReadTask}

theorem lookup_erase_of_lookup {key : UInt64} (h : (tasks.erase key).lookup taskId = some task) :
    tasks.lookup taskId = some task ∧ taskId ≠ key := by
  by_cases hkey : taskId = key
  · rw [hkey, AList.lookup_erase] at h
    cases h
  · rw [AList.lookup_erase_ne hkey] at h
    exact ⟨h, hkey⟩

/-- A loop that erases some of the listed tasks. -/
theorem foldl_erase (drops : (Σ _ : UInt64, ReadTask) → Prop) [DecidablePred drops]
    (entries : List (Σ _ : UInt64, ReadTask)) (tasks : AList fun _ : UInt64 => ReadTask) :
    let left := entries.foldl
      (fun tasks entry => if drops entry then tasks.erase entry.1 else tasks) tasks
    (∀ taskId task, left.lookup taskId = some task → tasks.lookup taskId = some task) ∧
      ∀ taskId task, tasks.lookup taskId = some task →
        (∀ entry ∈ entries, entry.1 = taskId → ¬drops entry) → left.lookup taskId = some task := by
  induction entries generalizing tasks with
  | nil => exact ⟨fun _ _ hlookup => hlookup, fun _ _ hlookup _ => hlookup⟩
  | cons entry entries ih =>
      obtain ⟨hsubset, hkept⟩ := ih (if drops entry then tasks.erase entry.1 else tasks)
      refine ⟨fun taskId task hlookup => ?_, fun taskId task hlookup hstays => ?_⟩
      · have hbefore := hsubset taskId task hlookup
        split at hbefore
        · exact (lookup_erase_of_lookup hbefore).1
        · exact hbefore
      · refine hkept taskId task ?_ fun other hmem => hstays other (List.mem_cons_of_mem _ hmem)
        split
        · rename_i hdrops
          have hne : taskId ≠ entry.1 := fun heq =>
            hstays entry List.mem_cons_self heq.symm hdrops
          rw [AList.lookup_erase_ne hne]
          exact hlookup
        · exact hlookup

/-- A table with fewer entries misses what the larger one misses. -/
theorem lookup_none_of_subset {left : AList fun _ : UInt64 => ReadTask}
    (hsubset : ∀ taskId task, left.lookup taskId = some task → tasks.lookup taskId = some task)
    (h : tasks.lookup taskId = none) : left.lookup taskId = none := by
  rw [Option.eq_none_iff_forall_ne_some]
  intro task hlookup
  rw [hsubset taskId task hlookup] at h
  cases h

/-- The entry of a task in its table. -/
theorem eq_of_entry {entry : Σ _ : UInt64, ReadTask} (hmem : entry ∈ tasks.entries)
    (hkey : entry.1 = taskId) (hlookup : tasks.lookup taskId = some task) : entry.2 = task := by
  obtain ⟨id, found⟩ := entry
  cases hkey
  have hfound : tasks.lookup id = some found := AList.mem_lookup_iff.mpr hmem
  exact Option.some.inj (hfound.symm.trans hlookup)

end Tables

theorem removeFile_keeps (h : Issued model) (inodeId version : UInt64) (discId imageId : Bytes)
    (stored : Bool) :
    Keeps model (model.removeFile inodeId version discId imageId stored).2 := by
  unfold removeFile
  split
  · exact .refl h
  · split
    · exact .refl h
    · split
      · exact .refl h
      · split
        · exact .refl h
        · rename_i hidle
          split
          · exact .refl h
          · split
            · exact .refl h
            · obtain ⟨hsubset, hkept⟩ := foldl_erase (fun entry => entry.2.inodeId = inodeId)
                model.tasks.entries model.tasks
              refine ⟨UInt64.le_refl _, fun taskId task hlookup => ?_,
                fun _ _ => lookup_none_of_subset hsubset, fun taskId task hlookup hpinned => ?_⟩
              · exact h taskId task (hsubset taskId task hlookup)
              · refine hkept taskId task hlookup fun entry hmem hkey hinode => hidle ?_
                rw [List.any_eq_true]
                refine ⟨entry, hmem, ?_⟩
                rw [hinode, eq_of_entry hmem hkey hlookup, hpinned.unreleased]
                simp

theorem dropTask_tasks (model : OpticalReadModel) (taskId inodeId : UInt64) :
    (model.dropTask taskId inodeId).tasks = model.tasks.erase taskId := rfl

theorem dropTask_issued (h : Issued model) (taskId inodeId : UInt64) :
    Issued (model.dropTask taskId inodeId) := by
  intro other task hlookup
  rw [dropTask_tasks] at hlookup
  exact h other task (lookup_erase_of_lookup hlookup).1

/-- The loop of `prune`, on the tasks. -/
theorem foldl_dropTask (drops : (Σ _ : UInt64, ReadTask) → Bool)
    (entries : List (Σ _ : UInt64, ReadTask)) (model : OpticalReadModel) :
    (entries.foldl (fun model entry =>
        if drops entry then model.dropTask entry.1 entry.2.inodeId else model) model).tasks =
      entries.foldl (fun tasks entry => if drops entry then tasks.erase entry.1 else tasks)
        model.tasks ∧
    (entries.foldl (fun model entry =>
        if drops entry then model.dropTask entry.1 entry.2.inodeId else model) model).nextTaskId =
      model.nextTaskId := by
  induction entries generalizing model with
  | nil => exact ⟨rfl, rfl⟩
  | cons entry entries ih =>
      rw [List.foldl_cons, List.foldl_cons]
      obtain ⟨htasks, hnext⟩ := ih (if drops entry then model.dropTask entry.1 entry.2.inodeId
        else model)
      rw [htasks, hnext]
      split
      · exact ⟨rfl, rfl⟩
      · exact ⟨rfl, rfl⟩

theorem expired_pinned (h : task.Pinned) : expired config now task = false := by
  rw [expired, h.retained]
  rfl

theorem prune_keeps (h : Issued model) (config : OpticalReadConfig) (now : Nat)
    (deleted : UInt64 → Bool) :
    Keeps model (model.prune config now deleted) ∧
      (model.prune config now deleted).nextTaskId = model.nextTaskId := by
  unfold prune
  split
  · exact ⟨.refl h, rfl⟩
  · obtain ⟨htasks, hnext⟩ := foldl_dropTask
      (fun entry => expired config now entry.2 && deleted entry.1) model.tasks.entries model
    obtain ⟨hsubset, hkept⟩ := foldl_erase
      (fun entry => (expired config now entry.2 && deleted entry.1) = true) model.tasks.entries
      model.tasks
    refine ⟨⟨UInt64.le_of_eq hnext.symm, fun taskId task hlookup => ?_,
      fun taskId _ hnone => ?_, fun taskId task hlookup hpinned => ?_⟩, hnext⟩
    · rw [htasks] at hlookup
      rw [hnext]
      exact h taskId task (hsubset taskId task hlookup)
    · rw [htasks]
      exact lookup_none_of_subset hsubset hnone
    · rw [htasks]
      refine hkept taskId task hlookup fun entry hmem hkey hdrops => ?_
      rw [eq_of_entry hmem hkey hlookup, expired_pinned hpinned] at hdrops
      cases hdrops

/-! ## Reads -/

/-- What a request to read leaves behind: the tasks it found, and after a success its own,
    under an id that was not in use. -/
structure Requested (model : OpticalReadModel) (inodeId : UInt64) (retained : Bool)
    (answer : OpticalModelCode × UInt64 × OpticalReadModel) : Prop where
  keeps : Keeps model answer.2.2
  filed : answer.1 = .ok → model.nextTaskId ≤ answer.2.1 ∧ answer.2.1 < answer.2.2.nextTaskId ∧
    ∃ task, answer.2.2.tasks.lookup answer.2.1 = some task ∧ task.retained = retained ∧
      task.released = false ∧ task.inodeId = inodeId

theorem Requested.refused (h : Keeps model model') {code : OpticalModelCode} (hcode : code ≠ .ok)
    (id : UInt64) (inodeId : UInt64) (retained : Bool) :
    Requested model inodeId retained (code, id, model') :=
  ⟨h, fun hok => absurd hok hcode⟩

/-- The id of a new task is below the next one. -/
theorem lt_succ_of_ne {id : UInt64} (h : id ≠ 0xffffffffffffffff) : id < id + 1 := by
  have hne : id.toNat ≠ 2 ^ 64 - 1 := fun heq => h (UInt64.toNat_inj.mp heq)
  have hlt := id.toNat_lt
  rw [UInt64.lt_iff_toNat_lt, UInt64.toNat_add, UInt64.toNat_one, Nat.mod_eq_of_lt (by omega)]
  exact Nat.lt_succ_self _

/-- Issuing a task. -/
theorem issue (h : Issued model) (hnext : model.nextTaskId ≠ 0xffffffffffffffff)
    (task : ReadTask) (latest : AList fun _ : UInt64 => UInt64) :
    Keeps model { model with
      nextTaskId := model.nextTaskId + 1
      tasks := model.tasks.insert model.nextTaskId task
      latestTask := latest } := by
  have hlt := lt_succ_of_ne hnext
  refine ⟨UInt64.le_of_lt hlt, fun taskId found hlookup => ?_, fun taskId hold hnone => ?_,
    fun taskId found hlookup _ => ?_⟩
  · by_cases hid : taskId = model.nextTaskId
    · rw [hid]
      exact hlt
    · rw [AList.lookup_insert_ne hid] at hlookup
      exact UInt64.lt_trans (h taskId found hlookup) hlt
  · have hid : taskId ≠ model.nextTaskId := fun heq => UInt64.lt_irrefl _ (heq ▸ hold)
    change (model.tasks.insert model.nextTaskId task).lookup taskId = none
    rw [AList.lookup_insert_ne hid]
    exact hnone
  · have hid : taskId ≠ model.nextTaskId := fun heq =>
      UInt64.lt_irrefl _ (heq ▸ h taskId found hlookup)
    change (model.tasks.insert model.nextTaskId task).lookup taskId = some found
    rw [AList.lookup_insert_ne hid]
    exact hlookup

theorem requestRead_requested (h : Issued model) (config : OpticalReadConfig) (inodeId : UInt64)
    (discId imageId : Bytes) (retained : Bool) (expected : Option (UInt64 × UInt64)) (now : Nat)
    (answers : ReadAnswers) :
    Requested model inodeId retained
      (model.requestRead config inodeId discId imageId retained expected now answers) := by
  obtain ⟨hpruned, hnext⟩ := prune_keeps h config now answers.deleted
  unfold requestRead
  split
  · exact .refused (.refl h) (by decide) _ _ _
  · split
    · rename_i hfault
      exact .refused (.refl h) hfault _ _ _
    · split
      · exact .refused (.refl h) (by decide) _ _ _
      · dsimp only
        generalize model.prune config now answers.deleted = pruned at hpruned hnext
        split
        · exact .refused hpruned (by decide) _ _ _
        · split
          · exact .refused hpruned (by decide) _ _ _
          · split
            · exact .refused hpruned (by decide) _ _ _
            · split
              · exact .refused hpruned (by decide) _ _ _
              · rename_i hroom
                rw [not_or, not_or] at hroom
                split
                · exact .refused hpruned (by decide) _ _ _
                · split
                  · exact .refused hpruned (by decide) _ _ _
                  · refine ⟨hpruned.trans (issue hpruned.issued hroom.2.2 _ _), fun _ => ?_⟩
                    exact ⟨UInt64.le_of_eq hnext.symm, lt_succ_of_ne hroom.2.2, _,
                      AList.lookup_insert _, rfl, rfl, rfl⟩

theorem readTask_keeps (h : Issued model) (config : OpticalReadConfig) (taskId offset size : UInt64)
    (now : Nat) (stored : Bool) :
    Keeps model (model.readTask config taskId offset size now stored).2.2 := by
  unfold readTask
  split
  · exact .refl h
  · split
    · exact .refl h
    · rename_i task hlookup
      split
      · exact .refl h
      · split
        · exact .refl h
        · split
          · exact .refl h
          · dsimp only
            split
            · rename_i hlast
              split
              · exact .refl h
              · -- the last read releases a task that is not retained
                rw [Bool.and_eq_true] at hlast
                have hloose : task.retained = false := by simpa using hlast.1
                refine ⟨UInt64.le_refl _, fun other found hother => ?_,
                  fun other _ hnone => ?_, fun other found hother hpinned => ?_⟩
                · by_cases hid : other = taskId
                  · rw [hid]
                    exact h taskId task hlookup
                  · change (model.tasks.insert taskId _).lookup other = some found at hother
                    rw [AList.lookup_insert_ne hid] at hother
                    exact h other found hother
                · have hid : other ≠ taskId := by
                    rintro rfl
                    rw [hlookup] at hnone
                    cases hnone
                  change (model.tasks.insert taskId _).lookup other = none
                  rw [AList.lookup_insert_ne hid]
                  exact hnone
                · have hid : other ≠ taskId := by
                    rintro rfl
                    cases hother.symm.trans hlookup
                    rw [hpinned.retained] at hloose
                    cases hloose
                  change (model.tasks.insert taskId _).lookup other = some found
                  rw [AList.lookup_insert_ne hid]
                  exact hother
            · exact .refl h

/-- The answer to a read of a task that is pinned. -/
theorem readTask_pinned {config : OpticalReadConfig} (hlookup : model.tasks.lookup taskId = some task)
    (hpinned : task.Pinned) (offset size : UInt64) (now : Nat) (stored : Bool) :
    (model.readTask config taskId offset size now stored).1 ≠ .notFound := by
  unfold readTask
  rw [hlookup]
  split
  · exact nofun
  · dsimp only
    rw [expired_pinned hpinned, hpinned.retained, hpinned.unreleased]
    simp only [Bool.not_true, Bool.false_and, Bool.or_self, Bool.false_eq_true, if_false]
    split
    · exact nofun
    · split
      · exact nofun
      · exact nofun

/-- A file whose task is pinned is not removed. -/
theorem removeFile_pinned (hlookup : model.tasks.lookup taskId = some task) (hpinned : task.Pinned)
    (version : UInt64) (discId imageId : Bytes) (stored : Bool) :
    (model.removeFile task.inodeId version discId imageId stored).1 ≠ .ok := by
  unfold removeFile
  split
  · exact nofun
  · split
    · exact nofun
    · split
      · exact nofun
      · split
        · exact nofun
        · rename_i hidle
          refine absurd ?_ hidle
          rw [List.any_eq_true]
          refine ⟨⟨taskId, task⟩, AList.mem_lookup_iff.mp hlookup, ?_⟩
          simp [hpinned.unreleased]

/-- A release drops its task alone. -/
structure Released (model : OpticalReadModel) (taskId : UInt64) (model' : OpticalReadModel) :
    Prop where
  next : model'.nextTaskId = model.nextTaskId
  issued : Issued model'
  others : ∀ other, other ≠ taskId → model'.tasks.lookup other = model.tasks.lookup other

theorem Released.refl (h : Issued model) : Released model taskId model :=
  ⟨rfl, h, fun _ _ => rfl⟩

theorem releasePrepared_released (h : Issued model) (taskId : UInt64) (stored : Bool) :
    Released model taskId (model.releasePrepared taskId stored).2 := by
  unfold releasePrepared
  split
  · exact .refl h
  · split
    · exact .refl h
    · refine ⟨rfl, dropTask_issued h _ _, fun other hne => ?_⟩
      change (model.tasks.erase taskId).lookup other = model.tasks.lookup other
      rw [AList.lookup_erase_ne hne]

/-- A release that the caller takes for done. -/
theorem releasePrepared_gone {stored : Bool}
    (h : (model.releasePrepared taskId stored).1 = .ok ∨
      (model.releasePrepared taskId stored).1 = .notFound) :
    (model.releasePrepared taskId stored).2.tasks.lookup taskId = none := by
  unfold releasePrepared at h ⊢
  split
  · rename_i hlookup
    exact hlookup
  · rename_i hlookup
    rw [hlookup] at h
    dsimp only at h ⊢
    split
    · rename_i hstored
      rw [if_pos hstored] at h
      obtain h | h := h
      · cases h
      · cases h
    · exact AList.lookup_erase _ _

/-- A store that answers lets a release be done. -/
theorem releasePrepared_answered (taskId : UInt64) (model : OpticalReadModel) :
    (model.releasePrepared taskId true).1 = .ok ∨
      (model.releasePrepared taskId true).1 = .notFound := by
  unfold releasePrepared
  split
  · exact .inr rfl
  · exact .inl rfl

theorem releasePrepared_refused {stored : Bool} (h : (model.releasePrepared taskId stored).1 ≠ .ok) :
    (model.releasePrepared taskId stored).2 = model := by
  unfold releasePrepared at h ⊢
  split
  · rfl
  · rename_i hlookup
    rw [hlookup] at h
    dsimp only at h ⊢
    split
    · rfl
    · rename_i hstored
      rw [if_neg hstored] at h
      exact absurd rfl h

end OpticalReadModel

end Zb.Simulation
