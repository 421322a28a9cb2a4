-- SUMMARY: The schedule of the disc library: one deadline for every waiting task, and when no drive or arm is booked twice.
import ZBStorage.Lib.CallHistory
import ZBStorage.OpticalNode.DiscLibrary

/-!
# The schedule of the disc library

The invariants of the loop: each waiting task is still to be loaded or has its deadline
(`Ordered`) and its spans (`Recorded`), nothing is planned for before now (`Paced`), and the
spans given so far are apart (`Spaced`).
-/

namespace Zb.OpticalNode

open TableLoop Bookings CallHistory

variable {config : LibraryConfig} {s s' : Scheduling} {task task' : ActiveTask}
  {taskId id : UInt64} {tasks tasks₀ : Table UInt64 ActiveTask} {times : List Nat}

/-! ## Resources -/

theorem getElem?_earliest (h : times ≠ []) :
    times[indexOfEarliestTime times]? = some (earliestTime times) := by
  obtain ⟨first, hfirst⟩ : ∃ first, times.min? = some first := by
    cases hmin : times.min? with
    | none => exact absurd (List.min?_eq_none_iff.mp hmin) h
    | some first => exact ⟨first, rfl⟩
  have hmem : first ∈ times := List.min?_mem hfirst
  have hlt : indexOfEarliestTime times < times.length := by
    rw [indexOfEarliestTime, hfirst]
    exact List.idxOf_lt_length_of_mem hmem
  rw [earliestTime, List.getD_eq_getElem?_getD, List.getElem?_eq_getElem hlt]
  rfl

theorem le_earliestTime {now : Nat} (hle : ∀ time ∈ times, now ≤ time) (h : times ≠ []) :
    now ≤ earliestTime times :=
  hle _ (List.mem_of_getElem? (getElem?_earliest h))

/-- A resource that is available now is not passed over for a later one. -/
theorem indexOfEarliestTime_le {now i : Nat} (hle : ∀ time ∈ times, now ≤ time)
    (hi : times[i]? = some now) :
    indexOfEarliestTime times ≤ i ∧ earliestTime times = now := by
  have hmin : times.min? = some now :=
    List.min?_eq_some_iff.mpr ⟨List.mem_of_getElem? hi, hle⟩
  obtain ⟨hlt, hvalue⟩ := List.getElem?_eq_some_iff.mp hi
  have hindex : indexOfEarliestTime times = times.idxOf now := by
    rw [indexOfEarliestTime, hmin]
    rfl
  have hmem : now ∈ times := List.mem_of_getElem? hi
  refine ⟨?_, ?_⟩
  · rw [hindex]
    by_contra hlater
    have hnot := List.not_of_lt_findIdx (p := (· == now)) (Nat.lt_of_not_le hlater)
    rw [hvalue, beq_self_eq_true] at hnot
    cases hnot
  · have hat := getElem?_earliest (List.ne_nil_of_mem hmem)
    rw [hindex, List.getElem?_eq_getElem (List.idxOf_lt_length_of_mem hmem),
      List.getElem_idxOf] at hat
    exact (Option.some.inj hat).symm

/-- The earliest resource is one that has been booked or the first that has not. -/
theorem index_le_of_untouched {limit left now : Nat} (h : Untouched limit left now times)
    (hle : ∀ time ∈ times, now ≤ time) (hsome : times ≠ []) (hleft : left ≤ limit) :
    indexOfEarliestTime times + left ≤ limit := by
  by_cases hlt : limit - left < times.length
  · have hfirst : times[limit - left]? = some now := by
      rw [List.getElem?_eq_getElem hlt]
      exact congrArg some (h _ _ (by omega) (List.getElem?_eq_getElem hlt))
    have hindex := (indexOfEarliestTime_le hle hfirst).1
    omega
  · obtain ⟨hindex, _⟩ := List.getElem?_eq_some_iff.mp (getElem?_earliest hsome)
    omega

/-- As long as not all have been booked, one is available now. -/
theorem earliestTime_of_untouched {limit left now : Nat} (h : Untouched limit left now times)
    (hle : ∀ time ∈ times, now ≤ time) (henough : limit ≤ times.length) (hleft : left ≤ limit)
    (hpos : 0 < left) : earliestTime times = now := by
  have hlt : limit - left < times.length := by omega
  refine (@indexOfEarliestTime_le times now (limit - left) hle ?_).2
  rw [List.getElem?_eq_getElem hlt]
  exact congrArg some (h _ _ (by omega) (List.getElem?_eq_getElem hlt))

theorem le_of_mem_set {now i value : Nat} (hle : ∀ time ∈ times, now ≤ time) (hvalue : now ≤ value) :
    ∀ time ∈ times.set i value, now ≤ time := by
  intro time hmem
  rcases List.mem_or_eq_of_mem_set hmem with hold | rfl
  · exact hle time hold
  · exact hvalue

theorem set_ne_nil {i value : Nat} (h : times ≠ []) : times.set i value ≠ [] := by
  intro hnil
  have hlength := congrArg List.length hnil
  rw [List.length_set] at hlength
  exact h (List.eq_nil_of_length_eq_zero hlength)

/-- How long a task takes from the start of its load to its completion. -/
def LibraryConfig.duration (config : LibraryConfig) (task : ActiveTask) : Nat :=
  task.armMove + task.inboundMove + config.driveLoad + task.operation

namespace Scheduling

def loadIds (s : Scheduling) : List UInt64 := s.loadQueue.entries.map Deadline.taskId

def unloadIds (s : Scheduling) : List UInt64 := s.unloadQueue.entries.map Deadline.taskId

/-- The tasks that have a deadline. -/
def dueIds (s : Scheduling) : List UInt64 :=
  s.readHeap.entries.map Deadline.taskId ++ s.burnHeap.entries.map Deadline.taskId

/-- The heap for the deadlines of a type. -/
def heapOf (s : Scheduling) : DiscTaskType → DeadlineQueue
  | .read => s.readHeap
  | .burn => s.burnHeap

theorem mem_dueIds {id : UInt64} : id ∈ s.dueIds ↔
    ∃ type, ∃ deadline ∈ (s.heapOf type).entries, deadline.taskId = id := by
  rw [dueIds, List.mem_append, List.mem_map, List.mem_map]
  constructor
  · exact fun h => h.elim (fun hread => ⟨.read, hread⟩) fun hburn => ⟨.burn, hburn⟩
  · rintro ⟨_ | _, h⟩
    · exact .inl h
    · exact .inr h

/-- The schedule without the first task to be unloaded, or to be loaded. -/
def popUnload (s : Scheduling) : Scheduling := { s with unloadQueue := s.unloadQueue.pop }

def popLoad (s : Scheduling) : Scheduling := { s with loadQueue := s.loadQueue.pop }

/-- A turn unloads the first task of one queue, or loads that of the other, or both are
    empty. -/
theorem iterate_cases (config : LibraryConfig) (s : Scheduling) :
    (s.loadQueue.top? = none ∧ s.unloadQueue.top? = none ∧ s.iterate config = s) ∨
    (∃ deadline, s.unloadQueue.top? = some deadline ∧
      s.iterate config = s.popUnload.unload config deadline.taskId) ∨
    ∃ deadline, s.loadQueue.top? = some deadline ∧ s.turn = .load deadline.taskId ∧
      s.iterate config = s.popLoad.load config deadline.taskId := by
  cases hunload : s.unloadQueue.top? with
  | none =>
      cases hload : s.loadQueue.top? with
      | none =>
          left
          have hturn : s.turn = .finished := by rw [turn, hunload, hload]
          exact ⟨rfl, rfl, by rw [iterate, hturn]⟩
      | some loading =>
          right
          right
          have hturn : s.turn = .load loading.taskId := by rw [turn, hunload, hload]
          exact ⟨loading, rfl, hturn, by rw [iterate, hturn]; rfl⟩
  | some unloading =>
      right
      cases hload : s.loadQueue.top? with
      | none =>
          left
          have hturn : s.turn = .unload unloading.taskId := by rw [turn, hunload, hload]
          exact ⟨unloading, rfl, by rw [iterate, hturn]; rfl⟩
      | some loading =>
          by_cases hready : unloading.dueTime ≤ earliestTime s.armAvailableAt
          · left
            have hturn : s.turn = .unload unloading.taskId := by
              rw [turn, hunload, hload]
              exact if_pos hready
            exact ⟨unloading, rfl, by rw [iterate, hturn]; rfl⟩
          · right
            have hturn : s.turn = .load loading.taskId := by
              rw [turn, hunload, hload]
              exact if_neg hready
            exact ⟨loading, rfl, hturn, by rw [iterate, hturn]; rfl⟩

/-! ## The end of the loop -/

/-- The turns that are left. -/
def remaining (s : Scheduling) : Nat :=
  2 * s.loadQueue.entries.length + s.unloadQueue.entries.length

theorem length_pop {queue : DeadlineQueue} {deadline : Deadline}
    (h : queue.top? = some deadline) :
    queue.entries.length = queue.pop.entries.length + 1 := by
  rw [PriorityQueue.entries_of_top? h]
  rfl

theorem remaining_unload (config : LibraryConfig) (s : Scheduling) (taskId : UInt64) :
    (s.unload config taskId).remaining = s.remaining := by
  unfold unload
  split
  · rfl
  · split <;> rfl

theorem remaining_load_le (config : LibraryConfig) (s : Scheduling) (taskId : UInt64) :
    (s.load config taskId).remaining ≤ s.remaining + 1 := by
  unfold load
  split
  · exact Nat.le_succ _
  · rename_i task hlookup
    have hpush := (PriorityQueue.entries_push ⟨s.complete config task, taskId⟩
      s.unloadQueue).length_eq
    show 2 * s.loadQueue.entries.length + (s.unloadQueue.push _).entries.length ≤ _
    rw [hpush, List.length_cons, remaining]
    omega

theorem remaining_iterate_le (config : LibraryConfig) (s : Scheduling) :
    (s.iterate config).remaining ≤ s.remaining - 1 := by
  rcases iterate_cases config s with ⟨hload, hunload, hsame⟩ | ⟨deadline, htop, hstep⟩ |
    ⟨deadline, htop, _, hstep⟩
  · have hload' : s.loadQueue.entries = [] := List.head?_eq_none_iff.mp hload
    have hunload' : s.unloadQueue.entries = [] := List.head?_eq_none_iff.mp hunload
    rw [hsame, remaining, hload', hunload']
    exact Nat.le_refl _
  · have hlength := length_pop htop
    rw [hstep, remaining_unload]
    show 2 * s.loadQueue.entries.length + s.unloadQueue.pop.entries.length ≤ s.remaining - 1
    rw [remaining]
    omega
  · have hlength := length_pop htop
    have hle := remaining_load_le config s.popLoad deadline.taskId
    have hpop : s.popLoad.remaining =
        2 * s.loadQueue.pop.entries.length + s.unloadQueue.entries.length := rfl
    have hself : s.remaining =
        2 * s.loadQueue.entries.length + s.unloadQueue.entries.length := rfl
    rw [hstep]
    omega

/-- With as many turns as are left, both queues end empty. -/
theorem run_finishes (config : LibraryConfig) {fuel : Nat} {s : Scheduling}
    (h : s.remaining ≤ fuel) :
    (s.run config fuel).loadIds = [] ∧ (s.run config fuel).unloadIds = [] := by
  induction fuel generalizing s with
  | zero =>
      have hload : s.loadQueue.entries.length = 0 := by
        rw [remaining] at h
        omega
      have hunload : s.unloadQueue.entries.length = 0 := by
        rw [remaining] at h
        omega
      rw [run, loadIds, unloadIds, List.eq_nil_of_length_eq_zero hload,
        List.eq_nil_of_length_eq_zero hunload]
      exact ⟨rfl, rfl⟩
  | succ fuel ih =>
      have hle := remaining_iterate_le config s
      exact ih (by omega)

/-- What every turn preserves, the loop preserves. -/
theorem run_invariant {I : Scheduling → Prop} (hturn : ∀ s, I s → I (s.iterate config))
    (fuel : Nat) (h : I s) : I (s.run config fuel) := by
  induction fuel generalizing s with
  | zero => exact h
  | succ fuel ih => exact ih (hturn s h)

/-! ## Turns -/

theorem unload_eq {drive : Nat} (h : s.tasks.lookup taskId = some task)
    (hdrive : task.assignedDriveIndex = some drive) :
    s.unload config taskId =
      { s with
        tasks := s.tasks.insert taskId (s.unloaded config task)
        armAvailableAt :=
          s.armAvailableAt.set (indexOfEarliestTime s.armAvailableAt) (s.unloadComplete config task)
        armUses := s.armUses ++ [⟨indexOfEarliestTime s.armAvailableAt, s.unloadStart task,
          s.unloadComplete config task, taskId⟩]
        driveAvailableAt := s.driveAvailableAt.set drive (s.unloadComplete config task)
        driveUses := s.driveUses ++
          [⟨drive, task.loadStart, s.unloadComplete config task, taskId⟩] } := by
  simp only [unload, h, hdrive]

theorem load_eq (h : s.tasks.lookup taskId = some task) :
    s.load config taskId =
      { s with
        tasks := s.tasks.insert taskId (s.loaded config task)
        armAvailableAt :=
          s.armAvailableAt.set (indexOfEarliestTime s.armAvailableAt) (s.loadComplete task)
        driveAvailableAt :=
          s.driveAvailableAt.set (indexOfEarliestTime s.driveAvailableAt) (s.complete config task)
        readHeap := if task.type = .read then s.readHeap.push ⟨s.complete config task, taskId⟩
          else s.readHeap
        burnHeap := if task.type = .burn then s.burnHeap.push ⟨s.complete config task, taskId⟩
          else s.burnHeap
        unloadQueue := s.unloadQueue.push ⟨s.complete config task, taskId⟩
        armUses := s.armUses ++ [⟨indexOfEarliestTime s.armAvailableAt, s.loadStart task,
          s.loadComplete task, taskId⟩] } := by
  simp only [load, h]

theorem heapOf_load (h : s.tasks.lookup taskId = some task) (type : DiscTaskType) :
    (s.load config taskId).heapOf type = if task.type = type then
      (s.heapOf type).push ⟨s.complete config task, taskId⟩ else s.heapOf type := by
  rw [load_eq h]
  cases type <;> rfl

theorem dueIds_load (h : s.tasks.lookup taskId = some task) :
    (s.load config taskId).dueIds.Perm (taskId :: s.dueIds) := by
  rw [load_eq h, dueIds, dueIds]
  dsimp only
  cases task.type with
  | read =>
      have hpush := (PriorityQueue.entries_push ⟨s.complete config task, taskId⟩
        s.readHeap).map Deadline.taskId
      exact hpush.append_right _
  | burn =>
      have hpush := (PriorityQueue.entries_push ⟨s.complete config task, taskId⟩
        s.burnHeap).map Deadline.taskId
      exact (hpush.append_left _).trans List.perm_middle

theorem unloadIds_load (h : s.tasks.lookup taskId = some task) :
    (s.load config taskId).unloadIds.Perm (taskId :: s.unloadIds) := by
  rw [load_eq h]
  exact (PriorityQueue.entries_push ⟨s.complete config task, taskId⟩
    s.unloadQueue).map Deadline.taskId

theorem loadStart_le_loadComplete (s : Scheduling) (task : ActiveTask) :
    s.loadStart task ≤ s.loadComplete task := by
  unfold loadComplete
  omega

theorem loadComplete_le_complete (config : LibraryConfig) (s : Scheduling) (task : ActiveTask) :
    s.loadComplete task ≤ s.complete config task := by
  unfold complete
  omega

theorem unloadStart_le_unloadComplete (config : LibraryConfig) (s : Scheduling)
    (task : ActiveTask) : s.unloadStart task ≤ s.unloadComplete config task := by
  unfold unloadComplete
  omega

theorem complete_le_unloadComplete (config : LibraryConfig) (s : Scheduling) (task : ActiveTask) :
    task.predictedCompleteAt ≤ s.unloadComplete config task :=
  Nat.le_trans (Nat.le_max_right _ _) (unloadStart_le_unloadComplete config s task)

/-- A task is in the state of a turn what it was before, as far as no turn changes it. -/
structure SameTask (task task' : ActiveTask) : Prop where
  type : task'.type = task.type
  notified : task'.completeNotified = task.completeNotified
  duration : ∀ config : LibraryConfig, config.duration task' = config.duration task

/-- The tasks without a notification. -/
def pendingIds (tasks : Table UInt64 ActiveTask) : List UInt64 :=
  (tasks.entries.filter fun entry => !entry.2.completeNotified).map Sigma.fst

/-- The same tasks, and those that have been notified as they were. -/
structure Tracks (tasks₀ tasks : Table UInt64 ActiveTask) : Prop where
  known : ∀ id task, tasks.lookup id = some task →
    ∃ task₀, tasks₀.lookup id = some task₀ ∧ SameTask task₀ task
  present : ∀ id ∈ tasks₀, id ∈ tasks
  calm : ∀ id task₀, tasks₀.lookup id = some task₀ → task₀.completeNotified = true →
    tasks.lookup id = some task₀

/-- Each waiting task is to be loaded or has its deadline. -/
structure Ordered (tasks₀ : Table UInt64 ActiveTask) (s : Scheduling) : Prop where
  perm : (s.dueIds ++ s.loadIds).Perm (pendingIds tasks₀)
  unloading : ∀ id ∈ s.unloadIds, id ∈ s.dueIds
  tracks : Tracks tasks₀ s.tasks
  filed : ∀ type, ∀ deadline ∈ (s.heapOf type).entries, ∃ task,
    s.tasks.lookup deadline.taskId = some task ∧ task.type = type ∧
      task.predictedCompleteAt = deadline.dueTime

theorem mem_pendingIds : id ∈ pendingIds tasks ↔
    ∃ task, tasks.lookup id = some task ∧ task.completeNotified = false := by
  rw [pendingIds, List.mem_map]
  constructor
  · rintro ⟨⟨key, task⟩, hmem, rfl⟩
    obtain ⟨hentry, hnot⟩ := List.mem_filter.mp hmem
    exact ⟨task, AList.mem_lookup_iff.mpr hentry, (Bool.not_eq_true' _).mp hnot⟩
  · rintro ⟨task, hlookup, hnot⟩
    refine ⟨⟨id, task⟩, List.mem_filter.mpr ⟨AList.mem_lookup_iff.mp hlookup, ?_⟩, rfl⟩
    exact (Bool.not_eq_true' _).mpr hnot

theorem nodup_pendingIds (tasks : Table UInt64 ActiveTask) : (pendingIds tasks).Nodup :=
  (List.filter_sublist.map Sigma.fst).nodup tasks.nodupKeys

theorem loadIds_of_top? {deadline : Deadline} (h : s.loadQueue.top? = some deadline) :
    s.loadIds = deadline.taskId :: s.popLoad.loadIds := by
  rw [loadIds, PriorityQueue.entries_of_top? h]
  rfl

theorem unloadIds_of_top? {deadline : Deadline} (h : s.unloadQueue.top? = some deadline) :
    s.unloadIds = deadline.taskId :: s.popUnload.unloadIds := by
  rw [unloadIds, PriorityQueue.entries_of_top? h]
  rfl

theorem Tracks.refl (tasks : Table UInt64 ActiveTask) : Tracks tasks tasks where
  known := fun _ task hlookup => ⟨task, hlookup, rfl, rfl, fun _ => rfl⟩
  present := fun _ => id
  calm := fun _ _ hlookup _ => hlookup

theorem Tracks.insert (h : Tracks tasks₀ tasks) (hlookup : tasks.lookup taskId = some task)
    (hsame : SameTask task task') (hnot : task.completeNotified = false) :
    Tracks tasks₀ (tasks.insert taskId task') where
  known := by
    intro id found hfound
    rcases eq_or_ne id taskId with rfl | hne
    · rw [AList.lookup_insert] at hfound
      cases hfound
      obtain ⟨task₀, hlookup₀, htype, hnotified, hduration⟩ := h.known id task hlookup
      exact ⟨task₀, hlookup₀, hsame.type.trans htype, hsame.notified.trans hnotified,
        fun config => (hsame.duration config).trans (hduration config)⟩
    · rw [AList.lookup_insert_ne hne] at hfound
      exact h.known id found hfound
  present := fun id hmem => (AList.mem_insert tasks).mpr (.inr (h.present id hmem))
  calm := by
    intro id task₀ hlookup₀ hnotified
    have hold := h.calm id task₀ hlookup₀ hnotified
    have hne : id ≠ taskId := by
      rintro rfl
      rw [hlookup] at hold
      cases hold
      exact Bool.false_ne_true (hnot.symm.trans hnotified)
    rwa [AList.lookup_insert_ne hne]

/-- What waited before is there and waits still. -/
theorem Tracks.pending (h : Tracks tasks₀ tasks) (hpending : id ∈ pendingIds tasks₀) :
    ∃ task, tasks.lookup id = some task ∧ task.completeNotified = false := by
  obtain ⟨task₀, hlookup₀, hnot⟩ := mem_pendingIds.mp hpending
  have hin := h.present id (mem_of_lookup hlookup₀)
  obtain ⟨task, hlookup⟩ := Option.isSome_iff_exists.mp (AList.lookup_isSome.mpr hin)
  obtain ⟨task₀', hlookup₀', hsame⟩ := h.known id task hlookup
  rw [hlookup₀] at hlookup₀'
  cases hlookup₀'
  exact ⟨task, hlookup, hsame.notified.trans hnot⟩

/-- What an unload changes of the tasks and the queues. -/
theorem unload_tasks (config : LibraryConfig) (h : s.tasks.lookup taskId = some task) :
    (s.unload config taskId).tasks = s.tasks.insert taskId (s.unloaded config task) ∧
      (s.unload config taskId).dueIds = s.dueIds ∧
      (s.unload config taskId).heapOf = s.heapOf ∧
      (s.unload config taskId).loadQueue = s.loadQueue ∧
      (s.unload config taskId).unloadQueue = s.unloadQueue := by
  unfold unload
  rw [h]
  dsimp only
  cases task.assignedDriveIndex with
  | none => exact ⟨rfl, rfl, rfl, rfl, rfl⟩
  | some drive => exact ⟨rfl, rfl, rfl, rfl, rfl⟩

namespace Ordered

theorem loading (h : Ordered tasks₀ s) (hmem : id ∈ s.loadIds) :
    ∃ task, s.tasks.lookup id = some task ∧ task.completeNotified = false :=
  h.tracks.pending (h.perm.subset (List.mem_append_right _ hmem))

theorem due (h : Ordered tasks₀ s) (hmem : id ∈ s.dueIds) :
    ∃ task, s.tasks.lookup id = some task ∧ task.completeNotified = false :=
  h.tracks.pending (h.perm.subset (List.mem_append_left _ hmem))

/-- No task is to be loaded that has its deadline, and none is to be loaded twice. -/
theorem nodup (h : Ordered tasks₀ s) : (s.dueIds ++ s.loadIds).Nodup :=
  h.perm.nodup_iff.mpr (nodup_pendingIds tasks₀)

theorem unload (h : Ordered tasks₀ s) {deadline : Deadline}
    (htop : s.unloadQueue.top? = some deadline) :
    Ordered tasks₀ (s.popUnload.unload config deadline.taskId) := by
  have hids := unloadIds_of_top? htop
  have hfirst := h.unloading deadline.taskId (by rw [hids]; exact List.mem_cons_self)
  obtain ⟨task, hlookup, hnot⟩ := h.due hfirst
  obtain ⟨htasks, hdue, hheaps, hload, hunload⟩ :=
    @unload_tasks s.popUnload task deadline.taskId config hlookup
  refine ⟨?_, ?_, ?_, ?_⟩
  · rw [hdue, loadIds, hload]
    exact h.perm
  · intro id hmem
    rw [unloadIds, hunload] at hmem
    rw [hdue]
    exact h.unloading id (by rw [hids]; exact List.mem_cons_of_mem _ hmem)
  · rw [htasks]
    exact h.tracks.insert hlookup ⟨rfl, rfl, fun _ => rfl⟩ hnot
  · intro type due hmem
    rw [hheaps] at hmem
    rw [htasks]
    obtain ⟨found, hfound, htype, htime⟩ := h.filed type due hmem
    rcases eq_or_ne due.taskId deadline.taskId with heq | hne
    · rw [heq, hlookup] at hfound
      cases hfound
      rw [heq]
      exact ⟨_, AList.lookup_insert _, htype, htime⟩
    · exact ⟨found, (AList.lookup_insert_ne hne).trans hfound, htype, htime⟩

theorem load (h : Ordered tasks₀ s) {deadline : Deadline}
    (htop : s.loadQueue.top? = some deadline) :
    Ordered tasks₀ (s.popLoad.load config deadline.taskId) := by
  have hids := loadIds_of_top? htop
  obtain ⟨task, hlookup, hnot⟩ := h.loading (by rw [hids]; exact List.mem_cons_self)
  have hload := @load_eq config s.popLoad task deadline.taskId hlookup
  have hdueIds := @dueIds_load config s.popLoad task deadline.taskId hlookup
  have hheaps := @heapOf_load config s.popLoad task deadline.taskId hlookup
  have hunloadIds := @unloadIds_load config s.popLoad task deadline.taskId hlookup
  generalize hafter : s.popLoad.load config deadline.taskId = after at *
  have hfresh : deadline.taskId ∉ s.dueIds := by
    have hnodup := h.nodup
    rw [hids] at hnodup
    exact fun hdue => (List.nodup_append.mp hnodup).2.2 _ hdue _ List.mem_cons_self rfl
  have htasks : after.tasks = s.tasks.insert deadline.taskId (s.popLoad.loaded config task) := by
    rw [hload]
    rfl
  have hqueue : after.loadIds = s.popLoad.loadIds := by
    rw [hload]
    rfl
  refine ⟨?_, ?_, ?_, ?_⟩
  · rw [hqueue]
    refine (hdueIds.append_right _).trans ?_
    refine List.perm_middle.symm.trans ?_
    rw [← hids]
    exact h.perm
  · intro id hmem
    refine hdueIds.symm.subset ?_
    rcases List.mem_cons.mp (hunloadIds.subset hmem) with rfl | hold
    · exact List.mem_cons_self
    · exact List.mem_cons_of_mem _ (h.unloading id hold)
  · rw [htasks]
    exact h.tracks.insert hlookup ⟨rfl, rfl, fun _ => rfl⟩ hnot
  · intro type due hmem
    rw [htasks]
    have hold : due ∈ (s.heapOf type).entries → ∃ found,
        (s.tasks.insert deadline.taskId (s.popLoad.loaded config task)).lookup due.taskId =
          some found ∧ found.type = type ∧ found.predictedCompleteAt = due.dueTime := by
      intro hin
      obtain ⟨found, hfound, hrest⟩ := h.filed type due hin
      have hne : due.taskId ≠ deadline.taskId := by
        rintro heq
        exact hfresh (heq ▸ mem_dueIds.mpr ⟨type, due, hin, rfl⟩)
      exact ⟨found, (AList.lookup_insert_ne hne).trans hfound, hrest⟩
    rw [hheaps] at hmem
    split at hmem
    · rename_i htype
      rcases List.mem_cons.mp ((PriorityQueue.entries_push _ _).subset hmem) with rfl | hin
      · exact ⟨_, AList.lookup_insert _, htype, rfl⟩
      · exact hold hin
    · exact hold hmem

theorem iterate (h : Ordered tasks₀ s) : Ordered tasks₀ (s.iterate config) := by
  rcases iterate_cases config s with ⟨_, _, hsame⟩ | ⟨deadline, htop, hstep⟩ |
    ⟨deadline, htop, _, hstep⟩
  · rwa [hsame]
  · rw [hstep]
    exact h.unload htop
  · rw [hstep]
    exact h.load htop

end Ordered

/-! ## Spans of tasks -/

/-- The span of the arm that loads the task. -/
def LoadSpan (uses : List (Use UInt64)) (id : UInt64) (task : ActiveTask) : Prop :=
  ∃ span ∈ uses, span.owner = id ∧ task.assignedLoadArmIndex = some span.resource ∧
    span.start = task.loadStart

/-- The span of the arm that unloads the task. -/
def UnloadSpan (uses : List (Use UInt64)) (id : UInt64) (task : ActiveTask) : Prop :=
  ∃ span ∈ uses, span.owner = id ∧ task.assignedUnloadArmIndex = some span.resource ∧
    task.predictedCompleteAt ≤ span.start ∧ span.stop = task.predictedUnloadCompleteAt

/-- The span of the drive, from the start of the load to the end of the unload. -/
def DriveSpan (uses : List (Use UInt64)) (id : UInt64) (task : ActiveTask) : Prop :=
  ∃ span ∈ uses, span.owner = id ∧ task.assignedDriveIndex = some span.resource ∧
    span.start = task.loadStart ∧ span.stop = task.predictedUnloadCompleteAt

/-- A task that has its deadline has its spans, those of the unload once it is unloaded. -/
structure Recorded (s : Scheduling) : Prop where
  load : ∀ id ∈ s.dueIds, ∀ task, s.tasks.lookup id = some task → LoadSpan s.armUses id task
  unload : ∀ id ∈ s.dueIds, id ∉ s.unloadIds → ∀ task, s.tasks.lookup id = some task →
    UnloadSpan s.armUses id task ∧ DriveSpan s.driveUses id task
  drive : ∀ id ∈ s.unloadIds, ∀ task, s.tasks.lookup id = some task →
    task.assignedDriveIndex ≠ none

theorem LoadSpan.mono {uses more : List (Use UInt64)} (h : LoadSpan uses id task) :
    LoadSpan (uses ++ more) id task := by
  obtain ⟨span, hmem, hrest⟩ := h
  exact ⟨span, List.mem_append_left _ hmem, hrest⟩

theorem UnloadSpan.mono {uses more : List (Use UInt64)} (h : UnloadSpan uses id task) :
    UnloadSpan (uses ++ more) id task := by
  obtain ⟨span, hmem, hrest⟩ := h
  exact ⟨span, List.mem_append_left _ hmem, hrest⟩

theorem DriveSpan.mono {uses more : List (Use UInt64)} (h : DriveSpan uses id task) :
    DriveSpan (uses ++ more) id task := by
  obtain ⟨span, hmem, hrest⟩ := h
  exact ⟨span, List.mem_append_left _ hmem, hrest⟩

namespace Recorded

theorem popUnload (h : Recorded s) {deadline : Deadline} (hordered : Ordered tasks₀ s)
    (htop : s.unloadQueue.top? = some deadline) :
    Recorded (s.popUnload.unload config deadline.taskId) := by
  have hids := unloadIds_of_top? htop
  have hfirst : deadline.taskId ∈ s.unloadIds := by
    rw [hids]
    exact List.mem_cons_self
  obtain ⟨task, hlookup, _⟩ := hordered.due (hordered.unloading _ hfirst)
  obtain ⟨drive, hdrive⟩ := Option.ne_none_iff_exists'.mp (h.drive _ hfirst task hlookup)
  have hload := h.load _ (hordered.unloading _ hfirst) task hlookup
  rw [@unload_eq config s.popUnload task deadline.taskId drive hlookup hdrive]
  have hother : ∀ id found, id ≠ deadline.taskId →
      (s.tasks.insert deadline.taskId (s.popUnload.unloaded config task)).lookup id = some found →
      s.tasks.lookup id = some found := by
    intro id found hne hfound
    rwa [AList.lookup_insert_ne hne] at hfound
  have hnew : ∀ found, (s.tasks.insert deadline.taskId
      (s.popUnload.unloaded config task)).lookup deadline.taskId = some found →
        found = s.popUnload.unloaded config task := by
    intro found hfound
    rw [AList.lookup_insert] at hfound
    exact (Option.some.inj hfound).symm
  refine ⟨?_, ?_, ?_⟩
  · intro id hdue found hfound
    rcases eq_or_ne id deadline.taskId with rfl | hne
    · rw [hnew found hfound]
      exact LoadSpan.mono hload
    · exact LoadSpan.mono (h.load id hdue found (hother id found hne hfound))
  · intro id hdue hqueued found hfound
    rcases eq_or_ne id deadline.taskId with rfl | hne
    · rw [hnew found hfound]
      refine ⟨⟨_, List.mem_append_right _ (List.mem_singleton_self _), rfl, rfl, ?_, rfl⟩,
        _, List.mem_append_right _ (List.mem_singleton_self _), rfl, hdrive, rfl, rfl⟩
      exact Nat.le_max_right _ _
    · have hbefore : id ∉ s.unloadIds := by
        rw [hids]
        exact fun hmem => (List.mem_cons.mp hmem).elim hne hqueued
      obtain ⟨hunload, hspan⟩ := h.unload id hdue hbefore found (hother id found hne hfound)
      exact ⟨hunload.mono, hspan.mono⟩
  · intro id hmem found hfound
    have hqueued : id ∈ s.unloadIds := by
      rw [hids]
      exact List.mem_cons_of_mem _ hmem
    rcases eq_or_ne id deadline.taskId with rfl | hne
    · rw [hnew found hfound]
      exact h.drive _ hqueued task hlookup
    · exact h.drive id hqueued found (hother id found hne hfound)

theorem popLoad (h : Recorded s) {deadline : Deadline} (hordered : Ordered tasks₀ s)
    (htop : s.loadQueue.top? = some deadline) :
    Recorded (s.popLoad.load config deadline.taskId) := by
  have hfirst : deadline.taskId ∈ s.loadIds := by
    rw [loadIds_of_top? htop]
    exact List.mem_cons_self
  obtain ⟨task, hlookup, _⟩ := hordered.loading hfirst
  have hdueIds := @dueIds_load config s.popLoad task deadline.taskId hlookup
  have hunloadIds := @unloadIds_load config s.popLoad task deadline.taskId hlookup
  have hdue : ∀ id ∈ (s.popLoad.load config deadline.taskId).dueIds, id ≠ deadline.taskId →
      id ∈ s.dueIds := fun id hmem hne =>
    (List.mem_cons.mp (hdueIds.subset hmem)).resolve_left hne
  have hload := @load_eq config s.popLoad task deadline.taskId hlookup
  have hother : ∀ id found, id ≠ deadline.taskId →
      (s.popLoad.load config deadline.taskId).tasks.lookup id = some found →
      s.tasks.lookup id = some found := by
    intro id found hne hfound
    rw [hload] at hfound
    exact (AList.lookup_insert_ne hne).symm.trans hfound
  have hnew : ∀ found, (s.popLoad.load config deadline.taskId).tasks.lookup deadline.taskId =
      some found → found = s.popLoad.loaded config task := by
    intro found hfound
    rw [hload] at hfound
    exact (Option.some.inj ((AList.lookup_insert _).symm.trans hfound)).symm
  have harms : (s.popLoad.load config deadline.taskId).armUses =
      s.armUses ++ [⟨indexOfEarliestTime s.armAvailableAt, s.popLoad.loadStart task,
        s.popLoad.loadComplete task, deadline.taskId⟩] := by
    rw [hload]
    rfl
  have hdrives : (s.popLoad.load config deadline.taskId).driveUses = s.driveUses := by
    rw [hload]
    rfl
  refine ⟨?_, ?_, ?_⟩
  · intro id hmem found hfound
    rw [harms]
    rcases eq_or_ne id deadline.taskId with rfl | hne
    · rw [hnew found hfound]
      exact ⟨_, List.mem_append_right _ (List.mem_singleton_self _), rfl, rfl, rfl⟩
    · exact LoadSpan.mono (h.load id (hdue id hmem hne) found (hother id found hne hfound))
  · intro id hmem hqueued found hfound
    have hne : id ≠ deadline.taskId := by
      rintro rfl
      exact hqueued (hunloadIds.symm.subset List.mem_cons_self)
    have hbefore : id ∉ s.unloadIds := fun hin =>
      hqueued (hunloadIds.symm.subset (List.mem_cons_of_mem _ hin))
    rw [harms, hdrives]
    obtain ⟨hunload, hspan⟩ :=
      h.unload id (hdue id hmem hne) hbefore found (hother id found hne hfound)
    exact ⟨hunload.mono, hspan⟩
  · intro id hmem found hfound
    rcases eq_or_ne id deadline.taskId with rfl | hne
    · rw [hnew found hfound]
      exact nofun
    · have hqueued := (List.mem_cons.mp (hunloadIds.subset hmem)).resolve_left hne
      exact h.drive id hqueued found (hother id found hne hfound)

theorem iterate (h : Recorded s) (hordered : Ordered tasks₀ s) : Recorded (s.iterate config) := by
  rcases iterate_cases config s with ⟨_, _, hsame⟩ | ⟨deadline, htop, hstep⟩ |
    ⟨deadline, htop, _, hstep⟩
  · rwa [hsame]
  · rw [hstep]
    exact h.popUnload hordered htop
  · rw [hstep]
    exact h.popLoad hordered htop

end Recorded

/-! ## Times -/

/-- Nothing is planned for before now, and a task that has its deadline is done as soon as it
    can be. -/
structure Paced (config : LibraryConfig) (now : Nat) (s : Scheduling) : Prop where
  arms : ∀ time ∈ s.armAvailableAt, now ≤ time
  drives : ∀ time ∈ s.driveAvailableAt, now ≤ time
  someArm : s.armAvailableAt ≠ []
  someDrive : s.driveAvailableAt ≠ []
  due : ∀ id ∈ s.dueIds, ∀ task, s.tasks.lookup id = some task →
    now ≤ task.loadStart ∧ task.predictedCompleteAt = task.loadStart + config.duration task

namespace Paced

variable {now : Nat}

theorem popUnload (h : Paced config now s) {deadline : Deadline} (hordered : Ordered tasks₀ s)
    (hrecorded : Recorded s) (htop : s.unloadQueue.top? = some deadline) :
    Paced config now (s.popUnload.unload config deadline.taskId) := by
  have hfirst : deadline.taskId ∈ s.unloadIds := by
    rw [unloadIds_of_top? htop]
    exact List.mem_cons_self
  obtain ⟨task, hlookup, _⟩ := hordered.due (hordered.unloading _ hfirst)
  obtain ⟨drive, hdrive⟩ := Option.ne_none_iff_exists'.mp (hrecorded.drive _ hfirst task hlookup)
  rw [@unload_eq config s.popUnload task deadline.taskId drive hlookup hdrive]
  have hlater : now ≤ s.popUnload.unloadComplete config task :=
    (le_earliestTime h.arms h.someArm).trans
      ((Nat.le_max_left _ _).trans (unloadStart_le_unloadComplete config s.popUnload task))
  refine ⟨le_of_mem_set h.arms hlater, le_of_mem_set h.drives hlater, set_ne_nil h.someArm,
    set_ne_nil h.someDrive, fun id hdue found hfound => ?_⟩
  rcases eq_or_ne id deadline.taskId with rfl | hne
  · have hsame : s.popUnload.unloaded config task = found :=
      Option.some.inj ((AList.lookup_insert _).symm.trans hfound)
    rw [← hsame]
    exact h.due _ hdue task hlookup
  · exact h.due id hdue found ((AList.lookup_insert_ne hne).symm.trans hfound)

theorem popLoad (h : Paced config now s) {deadline : Deadline} (hordered : Ordered tasks₀ s)
    (htop : s.loadQueue.top? = some deadline) :
    Paced config now (s.popLoad.load config deadline.taskId) := by
  have hfirst : deadline.taskId ∈ s.loadIds := by
    rw [loadIds_of_top? htop]
    exact List.mem_cons_self
  obtain ⟨task, hlookup, _⟩ := hordered.loading hfirst
  have hdueIds := @dueIds_load config s.popLoad task deadline.taskId hlookup
  have hload := @load_eq config s.popLoad task deadline.taskId hlookup
  have hstart : now ≤ s.popLoad.loadStart task :=
    (le_earliestTime h.arms h.someArm).trans (Nat.le_max_right _ _)
  have hcomplete : s.popLoad.complete config task =
      s.popLoad.loadStart task + config.duration task := by
    rw [complete, loadComplete, LibraryConfig.duration]
    omega
  refine ⟨?_, ?_, ?_, ?_, fun id hdue found hfound => ?_⟩
  · rw [hload]
    exact le_of_mem_set h.arms (hstart.trans (loadStart_le_loadComplete s.popLoad task))
  · rw [hload]
    refine le_of_mem_set h.drives ?_
    rw [hcomplete]
    exact hstart.trans (Nat.le_add_right _ _)
  · rw [hload]
    exact set_ne_nil h.someArm
  · rw [hload]
    exact set_ne_nil h.someDrive
  · rw [hload] at hfound
    rcases eq_or_ne id deadline.taskId with rfl | hne
    · have hsame : s.popLoad.loaded config task = found :=
        Option.some.inj ((AList.lookup_insert _).symm.trans hfound)
      rw [← hsame]
      exact ⟨hstart, hcomplete⟩
    · exact h.due id ((List.mem_cons.mp (hdueIds.subset hdue)).resolve_left hne) found
        ((AList.lookup_insert_ne hne).symm.trans hfound)

theorem iterate (h : Paced config now s) (hordered : Ordered tasks₀ s) (hrecorded : Recorded s) :
    Paced config now (s.iterate config) := by
  rcases iterate_cases config s with ⟨_, _, hsame⟩ | ⟨deadline, htop, hstep⟩ |
    ⟨deadline, htop, _, hstep⟩
  · rwa [hsame]
  · rw [hstep]
    exact h.popUnload hordered hrecorded htop
  · rw [hstep]
    exact h.popLoad hordered htop

end Paced

/-! ## Spans -/

/-- A span of an arm is that of the load, or that of the unload. -/
structure OnArm (span : Use UInt64) (task : ActiveTask) : Prop where
  ends : span.stop ≤ task.predictedUnloadCompleteAt
  loadOrUnload : span.stop ≤ task.predictedCompleteAt ∨
    task.assignedUnloadArmIndex = some span.resource

structure OnDrive (span : Use UInt64) (task : ActiveTask) : Prop where
  ends : span.stop ≤ task.predictedUnloadCompleteAt
  place : task.assignedDriveIndex = some span.resource

/-- A disc waits for its unload in a drive that it has to itself. -/
structure Waits (limit : Nat) (s : Scheduling) (task : ActiveTask) (drive : Nat) : Prop where
  place : task.assignedDriveIndex = some drive
  noArm : task.assignedUnloadArmIndex = none
  started : task.loadStart ≤ task.predictedCompleteAt
  unloadAt : task.predictedUnloadCompleteAt = task.predictedCompleteAt
  before : ∀ span ∈ s.driveUses, span.resource = drive → span.stop ≤ task.loadStart
  booked : drive + s.loadIds.length < limit
  held : ∀ time, s.driveAvailableAt[drive]? = some time → task.predictedCompleteAt ≤ time

/-- With as many drives as tasks, `limit`, the spans are apart: every load finds an empty
    drive, and what the tasks already done hold is not booked. -/
structure Spaced (limit now : Nat) (s : Scheduling) : Prop where
  arms : Booked (2 * limit) s.armAvailableAt s.armUses
  drives : Booked limit s.driveAvailableAt s.driveUses
  freeArms : Untouched (2 * limit) s.remaining now s.armAvailableAt
  freeDrives : Untouched limit s.loadIds.length now s.driveAvailableAt
  enough : limit ≤ s.driveAvailableAt.length
  few : s.remaining ≤ 2 * limit
  ownedArms : ∀ span ∈ s.armUses, span.owner ∉ s.loadIds ∧
    ∃ task, s.tasks.lookup span.owner = some task ∧ OnArm span task
  ownedDrives : ∀ span ∈ s.driveUses, span.owner ∉ s.loadIds ∧
    ∃ task, s.tasks.lookup span.owner = some task ∧ OnDrive span task
  queued : s.unloadIds.Nodup
  due : ∀ deadline ∈ s.unloadQueue.entries, ∀ task, s.tasks.lookup deadline.taskId = some task →
    task.predictedCompleteAt = deadline.dueTime
  waiting : ∀ id ∈ s.unloadIds, ∃ task drive, s.tasks.lookup id = some task ∧
    Waits limit s task drive
  alone : ∀ id ∈ s.unloadIds, ∀ id' ∈ s.unloadIds, id ≠ id' → ∀ task task',
    s.tasks.lookup id = some task → s.tasks.lookup id' = some task' →
      task.assignedDriveIndex ≠ task'.assignedDriveIndex

/-- A disc is loaded only if the arms are free before any other disc can be unloaded. -/
theorem earliestTime_lt_due (h : s.turn = .load taskId) {deadline : Deadline}
    (hmem : deadline ∈ s.unloadQueue.entries) :
    earliestTime s.armAvailableAt < deadline.dueTime := by
  cases htop : s.unloadQueue.top? with
  | none => exact absurd hmem (PriorityQueue.eq_empty_of_top? htop)
  | some first =>
      have hfirst := Deadline.later_eq_false.mp (PriorityQueue.top?_first htop hmem)
      have hlt : earliestTime s.armAvailableAt < first.dueTime := by
        rw [turn, htop] at h
        cases hload : s.loadQueue.top? with
        | none =>
            rw [hload] at h
            cases h
        | some loading =>
            rw [hload] at h
            by_contra hready
            have hunload : Turn.unload first.taskId = .load taskId :=
              (if_pos (Nat.not_lt.mp hready)).symm.trans h
            cases hunload
      omega

namespace Spaced

variable {limit now : Nat}

theorem length_loadIds_le (h : Spaced limit now s) : s.loadIds.length ≤ limit := by
  have hfew := h.few
  rw [remaining] at hfew
  rw [loadIds, List.length_map]
  omega

/-- The drive that is free first has never been booked, or has been left. -/
theorem empty (h : Spaced limit now s) (hpaced : Paced config now s)
    (hturn : s.turn = .load taskId) (hload : s.loadIds ≠ []) :
    ∀ id ∈ s.unloadIds, ∀ other, s.tasks.lookup id = some other →
      other.assignedDriveIndex ≠ some (indexOfEarliestTime s.driveAvailableAt) := by
  intro id hmem other hlookup hsame
  obtain ⟨deadline, hentry, rfl⟩ := List.mem_map.mp hmem
  obtain ⟨found, drive, hfound, hwaits⟩ := h.waiting _ hmem
  rw [hlookup] at hfound
  cases hfound
  rw [hwaits.place] at hsame
  cases hsame
  have hdone := hwaits.held _ (getElem?_earliest hpaced.someDrive)
  rw [earliestTime_of_untouched h.freeDrives hpaced.drives h.enough h.length_loadIds_le
    (List.length_pos_of_ne_nil hload), h.due deadline hentry _ hlookup] at hdone
  have harm := earliestTime_lt_due hturn hentry
  have hnow := le_earliestTime hpaced.arms hpaced.someArm
  omega

theorem unload (h : Spaced limit now s) (hpaced : Paced config now s) {deadline : Deadline}
    (htop : s.unloadQueue.top? = some deadline) (hfresh : deadline.taskId ∉ s.loadIds) :
    Spaced limit now (s.popUnload.unload config deadline.taskId) := by
  have hids := unloadIds_of_top? htop
  have hentries := PriorityQueue.entries_of_top? htop
  have hremaining : s.remaining = s.popUnload.remaining + 1 := by
    have hlength := length_pop htop
    show 2 * s.loadQueue.entries.length + s.unloadQueue.entries.length =
      2 * s.loadQueue.entries.length + s.unloadQueue.pop.entries.length + 1
    omega
  have hindex := index_le_of_untouched h.freeArms hpaced.arms hpaced.someArm h.few
  have hqueued := h.queued
  rw [hids] at hqueued
  have hgone : deadline.taskId ∉ s.popUnload.unloadIds := (List.nodup_cons.mp hqueued).1
  have hfirst : deadline.taskId ∈ s.unloadIds := by
    rw [hids]
    exact List.mem_cons_self
  have hlater : ∀ id ∈ s.popUnload.unloadIds, id ∈ s.unloadIds ∧ id ≠ deadline.taskId := by
    intro id hmem
    refine ⟨by rw [hids]; exact List.mem_cons_of_mem _ hmem, ?_⟩
    rintro rfl
    exact hgone hmem
  obtain ⟨task, drive, hlookup, hwaits⟩ := h.waiting deadline.taskId hfirst
  rw [@unload_eq config s.popUnload task deadline.taskId drive hlookup hwaits.place]
  have hcomplete : task.predictedCompleteAt ≤ s.popUnload.unloadComplete config task :=
    complete_le_unloadComplete config s.popUnload task
  have hover : task.predictedUnloadCompleteAt ≤ s.popUnload.unloadComplete config task := by
    rw [hwaits.unloadAt]
    exact hcomplete
  have hnew : (s.tasks.insert deadline.taskId (s.popUnload.unloaded config task)).lookup
      deadline.taskId = some (s.popUnload.unloaded config task) := AList.lookup_insert _
  have hother : ∀ id, id ≠ deadline.taskId →
      (s.tasks.insert deadline.taskId (s.popUnload.unloaded config task)).lookup id =
        s.tasks.lookup id := fun id hne => AList.lookup_insert_ne hne
  constructor
  case arms =>
    have hbelow : indexOfEarliestTime s.armAvailableAt < 2 * limit := by omega
    exact h.arms.book hbelow (getElem?_earliest hpaced.someArm) (Nat.le_max_left _ _)
      (unloadStart_le_unloadComplete config s.popUnload task)
  case drives =>
    exact h.drives.append hwaits.before (hwaits.started.trans hcomplete)
  case freeArms =>
    exact (h.freeArms.mono (by omega : s.popUnload.remaining ≤ s.remaining)).set
      (by omega : indexOfEarliestTime s.armAvailableAt + s.popUnload.remaining < 2 * limit)
  case freeDrives =>
    exact h.freeDrives.set hwaits.booked
  case enough =>
    exact h.enough.trans (Nat.le_of_eq List.length_set.symm)
  case few =>
    have hfew := h.few
    show s.popUnload.remaining ≤ 2 * limit
    omega
  case ownedArms =>
    intro span hmem
    rcases List.mem_append.mp hmem with hold | hspan
    · obtain ⟨hload, found, hfound, harm⟩ := h.ownedArms span hold
      refine ⟨hload, ?_⟩
      rcases eq_or_ne span.owner deadline.taskId with heq | hne
      · rw [heq, hlookup] at hfound
        cases hfound
        rw [heq]
        refine ⟨_, hnew, harm.ends.trans hover, .inl (harm.loadOrUnload.resolve_right ?_)⟩
        rw [hwaits.noArm]
        exact (Option.some_ne_none _).symm
      · exact ⟨found, (hother _ hne).trans hfound, harm⟩
    · rw [List.mem_singleton.mp hspan]
      exact ⟨hfresh, _, hnew, Nat.le_refl _, .inr rfl⟩
  case ownedDrives =>
    intro span hmem
    rcases List.mem_append.mp hmem with hold | hspan
    · obtain ⟨hload, found, hfound, hdrive⟩ := h.ownedDrives span hold
      refine ⟨hload, ?_⟩
      rcases eq_or_ne span.owner deadline.taskId with heq | hne
      · rw [heq, hlookup] at hfound
        cases hfound
        rw [heq]
        exact ⟨_, hnew, hdrive.ends.trans hover, hdrive.place⟩
      · exact ⟨found, (hother _ hne).trans hfound, hdrive⟩
    · rw [List.mem_singleton.mp hspan]
      exact ⟨hfresh, _, hnew, Nat.le_refl _, hwaits.place⟩
  case queued =>
    exact (List.nodup_cons.mp hqueued).2
  case due =>
    intro other hmem found hfound
    have hne := (hlater other.taskId (List.mem_map_of_mem hmem)).2
    refine h.due other ?_ found ((hother _ hne).symm.trans hfound)
    rw [hentries]
    exact List.mem_cons_of_mem _ hmem
  case waiting =>
    intro id hmem
    obtain ⟨hin, hne⟩ := hlater id hmem
    obtain ⟨other, place, hfound, hstays⟩ := h.waiting id hin
    have hdrives : drive ≠ place := by
      have hdiffer := h.alone id hin deadline.taskId hfirst hne other task hfound hlookup
      rw [hstays.place, hwaits.place] at hdiffer
      exact fun heq => hdiffer (congrArg some heq.symm)
    refine ⟨other, place, (hother id hne).trans hfound,
      { hstays with before := ?_, held := ?_ }⟩
    · intro span hspan hsame
      rcases List.mem_append.mp hspan with hold | hlast
      · exact hstays.before span hold hsame
      · rw [List.mem_singleton.mp hlast] at hsame
        exact absurd hsame hdrives
    · intro time htime
      exact hstays.held time ((List.getElem?_set_ne hdrives).symm.trans htime)
  case alone =>
    intro id hmem id' hmem' hdiffer found found' hfound hfound'
    obtain ⟨hin, hne⟩ := hlater id hmem
    obtain ⟨hin', hne'⟩ := hlater id' hmem'
    exact h.alone id hin id' hin' hdiffer found found' ((hother id hne).symm.trans hfound)
      ((hother id' hne').symm.trans hfound')

theorem load (h : Spaced limit now s) (hpaced : Paced config now s) {deadline : Deadline}
    (htop : s.loadQueue.top? = some deadline)
    (hlookup : s.tasks.lookup deadline.taskId = some task) (hnodup : s.loadIds.Nodup)
    (hfresh : deadline.taskId ∉ s.unloadIds)
    (hempty : ∀ id ∈ s.unloadIds, ∀ other, s.tasks.lookup id = some other →
      other.assignedDriveIndex ≠ some (indexOfEarliestTime s.driveAvailableAt)) :
    Spaced limit now (s.popLoad.load config deadline.taskId) := by
  have hids := loadIds_of_top? htop
  have hlength : s.loadIds.length = s.popLoad.loadIds.length + 1 := congrArg List.length hids
  have hremaining : (s.popLoad.load config deadline.taskId).remaining < s.remaining := by
    have hpop := length_pop htop
    have hle := remaining_load_le config s.popLoad deadline.taskId
    have hbefore : s.popLoad.remaining =
        2 * s.loadQueue.pop.entries.length + s.unloadQueue.entries.length := rfl
    have hself : s.remaining =
        2 * s.loadQueue.entries.length + s.unloadQueue.entries.length := rfl
    omega
  have harmIndex := index_le_of_untouched h.freeArms hpaced.arms hpaced.someArm h.few
  have hdriveIndex := index_le_of_untouched h.freeDrives hpaced.drives hpaced.someDrive h.length_loadIds_le
  rw [hids] at hnodup
  have hgone : deadline.taskId ∉ s.popLoad.loadIds := (List.nodup_cons.mp hnodup).1
  rw [@load_eq config s.popLoad task deadline.taskId hlookup] at hremaining ⊢
  generalize hcomplete : s.popLoad.complete config task = complete at hremaining ⊢
  have hspan : s.popLoad.loadStart task ≤ s.popLoad.loadComplete task :=
    loadStart_le_loadComplete s.popLoad task
  have hend : s.popLoad.loadComplete task ≤ complete := by
    rw [← hcomplete]
    exact loadComplete_le_complete config s.popLoad task
  have hdriveStart : earliestTime s.driveAvailableAt ≤ s.popLoad.loadStart task :=
    (Nat.le_max_right _ _).trans (Nat.le_max_left _ _)
  have harmStart : earliestTime s.armAvailableAt ≤ s.popLoad.loadStart task := Nat.le_max_right _ _
  have hother : ∀ id, id ≠ deadline.taskId →
      (s.tasks.insert deadline.taskId (s.popLoad.loaded config task)).lookup id =
        s.tasks.lookup id := fun id hne => AList.lookup_insert_ne hne
  have hnew : (s.tasks.insert deadline.taskId (s.popLoad.loaded config task)).lookup
      deadline.taskId = some (s.popLoad.loaded config task) := AList.lookup_insert _
  have hpush := PriorityQueue.entries_push ⟨complete, deadline.taskId⟩ s.unloadQueue
  have hcases : ∀ id ∈ ((s.unloadQueue.push ⟨complete, deadline.taskId⟩).entries.map
      Deadline.taskId), id = deadline.taskId ∨ id ∈ s.unloadIds ∧ id ≠ deadline.taskId := by
    intro id hmem
    rcases List.mem_cons.mp ((hpush.map Deadline.taskId).subset hmem) with rfl | hold
    · exact .inl rfl
    · refine .inr ⟨hold, ?_⟩
      rintro rfl
      exact hfresh hold
  have howner : ∀ span : Use UInt64, span.owner ∉ s.loadIds →
      span.owner ∉ s.popLoad.loadIds ∧ span.owner ≠ deadline.taskId := by
    intro span hload
    rw [hids] at hload
    obtain ⟨hne, hrest⟩ := not_or.mp fun hor => hload (List.mem_cons.mpr hor)
    exact ⟨hrest, hne⟩
  constructor
  case arms =>
    have hbelow : indexOfEarliestTime s.armAvailableAt < 2 * limit := by omega
    exact h.arms.book hbelow (getElem?_earliest hpaced.someArm) harmStart hspan
  case drives =>
    exact h.drives.raise (getElem?_earliest hpaced.someDrive)
      (hdriveStart.trans (hspan.trans hend))
  case freeArms =>
    exact (h.freeArms.mono (Nat.le_of_lt hremaining)).set
      (Nat.lt_of_lt_of_le (Nat.add_lt_add_left hremaining _) harmIndex)
  case freeDrives =>
    exact (h.freeDrives.mono (by omega : s.popLoad.loadIds.length ≤ s.loadIds.length)).set
      (by omega : indexOfEarliestTime s.driveAvailableAt + s.popLoad.loadIds.length < limit)
  case enough =>
    exact h.enough.trans (Nat.le_of_eq List.length_set.symm)
  case few =>
    exact (Nat.le_of_lt hremaining).trans h.few
  case ownedArms =>
    intro span hmem
    rcases List.mem_append.mp hmem with hold | hlast
    · obtain ⟨hload, found, hfound, harm⟩ := h.ownedArms span hold
      exact ⟨(howner span hload).1, found, (hother _ (howner span hload).2).trans hfound, harm⟩
    · rw [List.mem_singleton.mp hlast]
      have hstop : s.popLoad.loadComplete task ≤ s.popLoad.complete config task := by
        rw [hcomplete]
        exact hend
      exact ⟨hgone, _, hnew, hstop, .inl hstop⟩
  case ownedDrives =>
    intro span hmem
    obtain ⟨hload, found, hfound, hdrive⟩ := h.ownedDrives span hmem
    exact ⟨(howner span hload).1, found, (hother _ (howner span hload).2).trans hfound, hdrive⟩
  case queued =>
    exact (hpush.map Deadline.taskId).nodup_iff.mpr (List.nodup_cons.mpr ⟨hfresh, h.queued⟩)
  case due =>
    intro due hmem found hfound
    rcases List.mem_cons.mp (hpush.subset hmem) with rfl | hold
    · obtain rfl := Option.some.inj (hnew.symm.trans hfound)
      exact hcomplete
    · have hne : due.taskId ≠ deadline.taskId := by
        intro heq
        rw [← heq] at hfresh
        exact hfresh (List.mem_map_of_mem hold)
      exact h.due due hold found ((hother _ hne).symm.trans hfound)
  case waiting =>
    intro id hmem
    rcases hcases id hmem with rfl | ⟨hold, hne⟩
    · refine ⟨_, indexOfEarliestTime s.driveAvailableAt, hnew, rfl, rfl, ?_, rfl, ?_, ?_, ?_⟩
      · show s.popLoad.loadStart task ≤ s.popLoad.complete config task
        rw [hcomplete]
        exact hspan.trans hend
      · intro span hin hsame
        have hover := h.drives.finished span hin
        rw [hsame] at hover
        exact (hover (by omega) _ (getElem?_earliest hpaced.someDrive)).trans hdriveStart
      · show indexOfEarliestTime s.driveAvailableAt + s.popLoad.loadIds.length < limit
        omega
      · intro time htime
        have hset : (s.driveAvailableAt.set (indexOfEarliestTime s.driveAvailableAt) complete)[
            indexOfEarliestTime s.driveAvailableAt]? = some time := htime
        rw [List.getElem?_set_self', getElem?_earliest hpaced.someDrive] at hset
        have hsame : complete = time := Option.some.inj hset
        rw [← hsame, ← hcomplete]
        exact Nat.le_refl _
    · obtain ⟨found, drive, hfound, hstays⟩ := h.waiting id hold
      have hdrives : indexOfEarliestTime s.driveAvailableAt ≠ drive := by
        rintro rfl
        exact hempty id hold found hfound hstays.place
      refine ⟨found, drive, (hother id hne).trans hfound,
        { hstays with booked := ?_, held := ?_ }⟩
      · have hbooked := hstays.booked
        show drive + s.popLoad.loadIds.length < limit
        omega
      · intro time htime
        exact hstays.held time ((List.getElem?_set_ne hdrives).symm.trans htime)
  case alone =>
    intro id hmem id' hmem' hdiffer found found' hfound hfound'
    rcases hcases id hmem with rfl | ⟨hold, hne⟩
    · rcases hcases id' hmem' with rfl | ⟨hold', hne'⟩
      · exact absurd rfl hdiffer
      · obtain rfl := Option.some.inj (hnew.symm.trans hfound)
        exact (hempty id' hold' found' ((hother id' hne').symm.trans hfound')).symm
    · have hfound := (hother id hne).symm.trans hfound
      rcases hcases id' hmem' with rfl | ⟨hold', hne'⟩
      · obtain rfl := Option.some.inj (hnew.symm.trans hfound')
        exact hempty id hold found hfound
      · exact h.alone id hold id' hold' hdiffer found found' hfound
          ((hother id' hne').symm.trans hfound')

theorem iterate {tasks₀ : Table UInt64 ActiveTask} (h : Spaced limit now s)
    (hordered : Ordered tasks₀ s) (hpaced : Paced config now s) :
    Spaced limit now (s.iterate config) := by
  have hnodup := List.nodup_append.mp hordered.nodup
  have hapart : ∀ id ∈ s.unloadIds, id ∉ s.loadIds := fun id hmem hload =>
    hnodup.2.2 id (hordered.unloading id hmem) id hload rfl
  rcases iterate_cases config s with ⟨_, _, hsame⟩ | ⟨deadline, htop, hstep⟩ |
    ⟨deadline, htop, hturn, hstep⟩
  · rwa [hsame]
  · rw [hstep]
    refine h.unload hpaced htop (hapart _ ?_)
    rw [unloadIds_of_top? htop]
    exact List.mem_cons_self
  · have hfirst : deadline.taskId ∈ s.loadIds := by
      rw [loadIds_of_top? htop]
      exact List.mem_cons_self
    obtain ⟨task, hlookup, _⟩ := hordered.loading hfirst
    rw [hstep]
    exact h.load hpaced htop hlookup hnodup.2.1 (fun hmem => hapart _ hmem hfirst)
      (h.empty hpaced hturn (List.ne_nil_of_mem hfirst))

end Spaced

/-! ## Invariants of every loop -/

structure WellPlanned (config : LibraryConfig) (now : Nat) (tasks₀ : Table UInt64 ActiveTask)
    (s : Scheduling) : Prop where
  ordered : Ordered tasks₀ s
  recorded : Recorded s
  paced : Paced config now s

theorem WellPlanned.iterate {now : Nat} (h : WellPlanned config now tasks₀ s) :
    WellPlanned config now tasks₀ (s.iterate config) :=
  ⟨h.ordered.iterate, h.recorded.iterate h.ordered, h.paced.iterate h.ordered h.recorded⟩

end Scheduling

/-! ## Rebuilding -/

namespace CDManager

open Scheduling

variable {manager manager' : CDManager} {now : Nat}

theorem loadIds_loadQueue (tasks : Table UInt64 ActiveTask) :
    ((loadQueue tasks).entries.map Deadline.taskId).Perm (pendingIds tasks) := by
  rw [loadQueue, pendingIds]
  generalize tasks.entries.filter (fun entry => !entry.2.completeNotified) = entries
  have hfold : ∀ queue : DeadlineQueue, ((entries.foldl (fun queue entry =>
      queue.push ⟨entry.2.arrivalTime, entry.1⟩) queue).entries.map Deadline.taskId).Perm
        (entries.map Sigma.fst ++ queue.entries.map Deadline.taskId) := by
    induction entries with
    | nil => exact fun _ => List.Perm.refl _
    | cons entry entries ih =>
        intro queue
        have hpush := (PriorityQueue.entries_push ⟨entry.2.arrivalTime, entry.1⟩
          queue).map Deadline.taskId
        refine (ih _).trans ((hpush.append_left _).trans ?_)
        exact List.perm_middle
  have hall := hfold .empty
  rwa [PriorityQueue.empty, List.map_nil, List.append_nil] at hall

theorem ordered_scheduling (config : LibraryConfig) (manager : CDManager) (now : Nat) :
    Ordered manager.activeTasks (manager.scheduling config now) where
  perm := loadIds_loadQueue manager.activeTasks
  unloading := nofun
  tracks := Tracks.refl _
  filed := by
    rintro (_ | _) deadline hmem
    · cases hmem
    · cases hmem

/-- The schedule that a rebuild comes to. -/
def rebuilt (config : LibraryConfig) (manager : CDManager) (now : Nat) : Scheduling :=
  (manager.scheduling config now).run config manager.turns

theorem wellPlanned_scheduling (config : LibraryConfig) (manager : CDManager) (now : Nat) :
    WellPlanned config now manager.activeTasks (manager.scheduling config now) where
  ordered := ordered_scheduling config manager now
  recorded := ⟨nofun, nofun, nofun⟩
  paced := by
    have hsome : ∀ count : Nat, List.replicate (max 1 count) now ≠ [] := by
      intro count hnil
      have hlength := congrArg List.length hnil
      rw [List.length_replicate, List.length_nil] at hlength
      omega
    exact ⟨fun _ hmem => Nat.le_of_eq (List.eq_of_mem_replicate hmem).symm,
      fun _ hmem => Nat.le_of_eq (List.eq_of_mem_replicate hmem).symm, hsome _, hsome _, nofun⟩

theorem wellPlanned_rebuilt (config : LibraryConfig) (manager : CDManager) (now : Nat) :
    WellPlanned config now manager.activeTasks (manager.rebuilt config now) :=
  run_invariant (I := WellPlanned config now manager.activeTasks) (fun _ h => h.iterate) _
    (wellPlanned_scheduling config manager now)

theorem rebuilt_finished (config : LibraryConfig) (manager : CDManager) (now : Nat) :
    (manager.rebuilt config now).loadIds = [] ∧ (manager.rebuilt config now).unloadIds = [] := by
  apply run_finishes
  exact Nat.le_refl _

/-- The heap for the deadlines of a type. -/
def heapOf (manager : CDManager) : DiscTaskType → DeadlineQueue
  | .read => manager.readCompleteHeap
  | .burn => manager.burnCompleteHeap

/-- What a rebuild does for a task that waits: one deadline at the time of its completion on
    the heap of its type, and its spans. -/
structure Planned (manager : CDManager) (id : UInt64) (task : ActiveTask) : Prop where
  one : ∀ type, ((manager.heapOf type).entries.filter fun deadline =>
    decide (deadline.taskId = id)) =
      if task.type = type then [⟨task.predictedCompleteAt, id⟩] else []
  load : LoadSpan manager.armUses id task
  unload : UnloadSpan manager.armUses id task
  drive : DriveSpan manager.driveUses id task

/-- In a list without two entries for one task, a task has its entry alone. -/
theorem filter_taskId {entries : List Deadline} {deadline : Deadline}
    (hnodup : (entries.map Deadline.taskId).Nodup) (hmem : deadline ∈ entries) :
    entries.filter (fun entry => decide (entry.taskId = deadline.taskId)) = [deadline] := by
  induction entries with
  | nil => cases hmem
  | cons first entries ih =>
      obtain ⟨hfresh, hrest⟩ := List.nodup_cons.mp hnodup
      rcases List.mem_cons.mp hmem with rfl | hlater
      · rw [List.filter_cons, if_pos (decide_eq_true rfl), List.cons.injEq]
        refine ⟨rfl, List.filter_eq_nil_iff.mpr fun entry hentry hsame => hfresh ?_⟩
        rw [← of_decide_eq_true hsame]
        exact List.mem_map_of_mem hentry
      · have hne : first.taskId ≠ deadline.taskId := by
          intro hsame
          rw [hsame] at hfresh
          exact hfresh (List.mem_map_of_mem hlater)
        rw [List.filter_cons_of_neg (by simpa using hne)]
        exact ih hrest hlater

theorem planned_rebuildSchedule (config : LibraryConfig) (manager : CDManager) (now : Nat)
    (hlookup : (manager.rebuildSchedule config now).activeTasks.lookup id = some task)
    (hnot : task.completeNotified = false) :
    Planned (manager.rebuildSchedule config now) id task := by
  obtain ⟨hordered, hrecorded, _⟩ := wellPlanned_rebuilt config manager now
  obtain ⟨hload, hunload⟩ := rebuilt_finished config manager now
  have hsame : manager.rebuildSchedule config now =
      { manager with
        activeTasks := (manager.rebuilt config now).tasks
        readCompleteHeap := (manager.rebuilt config now).readHeap
        burnCompleteHeap := (manager.rebuilt config now).burnHeap
        armUses := (manager.rebuilt config now).armUses
        driveUses := (manager.rebuilt config now).driveUses } := rfl
  rw [hsame] at hlookup ⊢
  generalize manager.rebuilt config now = s at *
  have hdue : id ∈ s.dueIds := by
    obtain ⟨task₀, hlookup₀, hagree⟩ := hordered.tracks.known id task hlookup
    have hpending : id ∈ pendingIds manager.activeTasks :=
      mem_pendingIds.mpr ⟨task₀, hlookup₀, hagree.notified.symm.trans hnot⟩
    have hperm := hordered.perm
    rw [hload, List.append_nil] at hperm
    exact hperm.symm.subset hpending
  have hqueued : id ∉ s.unloadIds := by
    rw [hunload]
    exact List.not_mem_nil
  have hnodup : ∀ type, ((s.heapOf type).entries.map Deadline.taskId).Nodup := by
    obtain ⟨hread, hburn, _⟩ := List.nodup_append.mp (List.nodup_append.mp hordered.nodup).1
    rintro (_ | _)
    · exact hread
    · exact hburn
  have hentry : ∀ type, ∀ deadline ∈ (s.heapOf type).entries, deadline.taskId = id →
      task.type = type ∧ deadline = ⟨task.predictedCompleteAt, id⟩ := by
    rintro type deadline hmem rfl
    obtain ⟨found, hfound, htype, htime⟩ := hordered.filed type deadline hmem
    have hlookup' : s.tasks.lookup deadline.taskId = some task := hlookup
    rw [hlookup'] at hfound
    cases hfound
    rw [htime]
    exact ⟨htype, rfl⟩
  obtain ⟨hunloadSpan, hdriveSpan⟩ := hrecorded.unload id hdue hqueued task hlookup
  refine ⟨fun type => ?_, hrecorded.load id hdue task hlookup, hunloadSpan, hdriveSpan⟩
  have hheap : CDManager.heapOf { manager with
      activeTasks := s.tasks
      readCompleteHeap := s.readHeap
      burnCompleteHeap := s.burnHeap
      armUses := s.armUses
      driveUses := s.driveUses } type = s.heapOf type := by
    cases type <;> rfl
  rw [hheap]
  split
  · rename_i htype
    obtain ⟨type', deadline, hmem, heq⟩ := mem_dueIds.mp hdue
    obtain ⟨htype', hdeadline⟩ := hentry type' deadline hmem heq
    rw [← htype'.symm.trans htype, ← hdeadline, ← heq]
    exact filter_taskId (hnodup type') hmem
  · rename_i htype
    exact List.filter_eq_nil_iff.mpr fun deadline hmem hsame =>
      htype (hentry type deadline hmem (of_decide_eq_true hsame)).1

/-! ## Calls -/

/-- A task is done as long after the start of its load as it takes. -/
def Timed (config : LibraryConfig) (tasks : Table UInt64 ActiveTask) : Prop :=
  ∀ id task, tasks.lookup id = some task → task.completeNotified = false →
    task.assignedDriveIndex ≠ none →
      task.predictedCompleteAt = task.loadStart + config.duration task

/-- The spans of the active tasks are apart, and are those of their loads and unloads. -/
structure Tidy (manager : CDManager) : Prop where
  arms : manager.armUses.Pairwise Apart
  drives : manager.driveUses.Pairwise Apart
  ownedArms : ∀ span ∈ manager.armUses, ∃ task,
    manager.activeTasks.lookup span.owner = some task ∧ OnArm span task
  ownedDrives : ∀ span ∈ manager.driveUses, ∃ task,
    manager.activeTasks.lookup span.owner = some task ∧ OnDrive span task

theorem kept_span {span : Use UInt64} (h : manager.kept span = true) :
    ∃ task, manager.activeTasks.lookup span.owner = some task ∧ task.completeNotified = true := by
  unfold kept at h
  split at h
  · rename_i task hlookup
    exact ⟨task, hlookup, h⟩
  · cases h

/-- A task that has been notified is unloaded, or its unload does not come in the way. -/
theorem unloaded_or_away (h : manager.outOfTheWay now = true)
    (hlookup : manager.activeTasks.lookup id = some task) (hnotified : task.completeNotified = true) :
    task.predictedUnloadCompleteAt ≤ now ∨ task.predictedCompleteAt ≤ now ∧
      manager.pendingCount ≤ task.assignedDriveIndex.getD 0 ∧
      2 * manager.pendingCount ≤ task.assignedUnloadArmIndex.getD 0 := by
  have hentry := List.all_eq_true.mp h ⟨id, task⟩ (AList.mem_lookup_iff.mp hlookup)
  simpa only [hnotified, Bool.not_true, Bool.false_or, Bool.or_eq_true, Bool.and_eq_true,
    decide_eq_true_eq, and_assoc] using hentry

theorem underway_iff : manager.underway now = true ↔
    ∃ id task, manager.activeTasks.lookup id = some task ∧ task.completeNotified = false ∧
      task.assignedDriveIndex ≠ none ∧ task.loadStart < now := by
  rw [underway, List.any_eq_true]
  constructor
  · rintro ⟨⟨id, task⟩, hmem, hentry⟩
    rw [Bool.and_eq_true, Bool.and_eq_true, Bool.not_eq_true', decide_eq_true_eq] at hentry
    exact ⟨id, task, AList.mem_lookup_iff.mpr hmem, hentry.1.1,
      Option.isSome_iff_ne_none.mp hentry.1.2, hentry.2⟩
  · rintro ⟨id, task, hlookup, hnot, hdrive, hlt⟩
    refine ⟨⟨id, task⟩, AList.mem_lookup_iff.mp hlookup, ?_⟩
    rw [Bool.and_eq_true, Bool.and_eq_true, Bool.not_eq_true', decide_eq_true_eq]
    exact ⟨⟨hnot, Option.isSome_iff_ne_none.mpr hdrive⟩, hlt⟩

theorem pendingCount_eq (manager : CDManager) :
    manager.pendingCount = (loadQueue manager.activeTasks).entries.length := by
  have hperm := (loadIds_loadQueue manager.activeTasks).length_eq
  rw [List.length_map, pendingIds, List.length_map] at hperm
  exact hperm.symm

theorem spaced_scheduling (h : manager.Tidy) (haway : manager.outOfTheWay now = true)
    (hfew : manager.pendingCount ≤ max 1 config.numDrives) :
    Spaced manager.pendingCount now (manager.scheduling config now) := by
  have hnotLoaded : ∀ span : Use UInt64, manager.kept span = true →
      span.owner ∉ (manager.scheduling config now).loadIds := by
    intro span hkept hload
    obtain ⟨task, hlookup, hnotified⟩ := kept_span hkept
    obtain ⟨other, hother, hnot⟩ :=
      mem_pendingIds.mp ((loadIds_loadQueue manager.activeTasks).subset hload)
    rw [hlookup] at hother
    cases hother
    exact Bool.false_ne_true (hnot.symm.trans hnotified)
  have hremaining : (manager.scheduling config now).remaining = 2 * manager.pendingCount := by
    rw [pendingCount_eq]
    rfl
  refine ⟨?_, ?_, untouched_replicate, untouched_replicate, ?_, Nat.le_of_eq hremaining, ?_, ?_,
    List.nodup_nil, nofun, nofun, nofun⟩
  · refine booked_replicate (fun span hmem => ?_) (h.arms.sublist List.filter_sublist)
    obtain ⟨hin, hkept⟩ := List.mem_filter.mp hmem
    obtain ⟨task, hlookup, hnotified⟩ := kept_span hkept
    obtain ⟨found, hfound, harm⟩ := h.ownedArms span hin
    rw [hlookup] at hfound
    cases hfound
    rcases unloaded_or_away haway hlookup hnotified with hdone | ⟨hdone, _, haside⟩
    · exact .inl (harm.ends.trans hdone)
    · rcases harm.loadOrUnload with hload | hunload
      · exact .inl (hload.trans hdone)
      · rw [hunload] at haside
        exact .inr haside
  · refine booked_replicate (fun span hmem => ?_) (h.drives.sublist List.filter_sublist)
    obtain ⟨hin, hkept⟩ := List.mem_filter.mp hmem
    obtain ⟨task, hlookup, hnotified⟩ := kept_span hkept
    obtain ⟨found, hfound, hdrive⟩ := h.ownedDrives span hin
    rw [hlookup] at hfound
    cases hfound
    rcases unloaded_or_away haway hlookup hnotified with hdone | ⟨_, haside, _⟩
    · exact .inl (hdrive.ends.trans hdone)
    · rw [hdrive.place] at haside
      exact .inr haside
  · exact hfew.trans (Nat.le_of_eq List.length_replicate.symm)
  · intro span hmem
    obtain ⟨hin, hkept⟩ := List.mem_filter.mp hmem
    exact ⟨hnotLoaded span hkept, h.ownedArms span hin⟩
  · intro span hmem
    obtain ⟨hin, hkept⟩ := List.mem_filter.mp hmem
    exact ⟨hnotLoaded span hkept, h.ownedDrives span hin⟩

theorem Tidy.rebuildSchedule (h : manager.Tidy) (haway : manager.outOfTheWay now = true)
    (hfew : manager.pendingCount ≤ max 1 config.numDrives) :
    (manager.rebuildSchedule config now).Tidy := by
  have hfinal : WellPlanned config now manager.activeTasks (manager.rebuilt config now) ∧
      Spaced manager.pendingCount now (manager.rebuilt config now) := by
    refine run_invariant (I := fun s => WellPlanned config now manager.activeTasks s ∧
      Spaced manager.pendingCount now s) ?_ _
        ⟨wellPlanned_scheduling config manager now, spaced_scheduling h haway hfew⟩
    exact fun s hs => ⟨hs.1.iterate, hs.2.iterate hs.1.ordered hs.1.paced⟩
  exact ⟨hfinal.2.arms.apart, hfinal.2.drives.apart,
    fun span hmem => (hfinal.2.ownedArms span hmem).2,
    fun span hmem => (hfinal.2.ownedDrives span hmem).2⟩

/-- The tasks of the spans that are left are planned as they were. -/
theorem Tidy.of_same (h : manager.Tidy) (harms : manager'.armUses.Sublist manager.armUses)
    (hdrives : manager'.driveUses.Sublist manager.driveUses)
    (hsame : ∀ span ∈ manager'.armUses ++ manager'.driveUses, ∀ task,
      manager.activeTasks.lookup span.owner = some task →
        ∃ notified, manager'.activeTasks.lookup span.owner =
          some { task with completeNotified := notified }) : manager'.Tidy where
  arms := h.arms.sublist harms
  drives := h.drives.sublist hdrives
  ownedArms := by
    intro span hmem
    obtain ⟨task, hlookup, harm⟩ := h.ownedArms span (harms.subset hmem)
    obtain ⟨_, hafter⟩ := hsame span (List.mem_append_left _ hmem) task hlookup
    exact ⟨_, hafter, harm.ends, harm.loadOrUnload⟩
  ownedDrives := by
    intro span hmem
    obtain ⟨task, hlookup, hdrive⟩ := h.ownedDrives span (hdrives.subset hmem)
    obtain ⟨_, hafter⟩ := hsame span (List.mem_append_right _ hmem) task hlookup
    exact ⟨_, hafter, hdrive.ends, hdrive.place⟩

theorem Tidy.submit (h : manager.Tidy) (taskId : UInt64) (task : ActiveTask) :
    (manager.submit taskId task).Tidy := by
  unfold CDManager.submit
  split
  · exact h
  · rename_i hfresh
    refine h.of_same (List.Sublist.refl _) (List.Sublist.refl _) fun span _ found hfound => ?_
    have hne : span.owner ≠ taskId := by
      rintro heq
      rw [heq] at hfound
      exact hfresh (mem_of_lookup hfound)
    exact ⟨_, (AList.lookup_insert_ne hne).trans hfound⟩

theorem Tidy.notifyComplete (h : manager.Tidy) (taskId : UInt64) (now : Nat) :
    (manager.notifyComplete taskId now).Tidy := by
  unfold CDManager.notifyComplete
  split
  · exact h
  rename_i task hlookup
  split
  · exact h
  refine h.of_same (List.Sublist.refl _) (List.Sublist.refl _) fun span _ found hfound => ?_
  rcases eq_or_ne span.owner taskId with heq | hne
  · rw [heq, hlookup] at hfound
    cases hfound
    rw [heq]
    exact ⟨_, AList.lookup_insert _⟩
  · exact ⟨_, (AList.lookup_insert_ne hne).trans hfound⟩

theorem lookup_of_releaseTask (h : (releaseTask now tasks taskId).lookup id = some task) :
    tasks.lookup id = some task := by
  unfold releaseTask at h
  split at h
  · split at h
    · rcases eq_or_ne id taskId with rfl | hne
      · rw [AList.lookup_erase] at h
        cases h
      · rwa [AList.lookup_erase_ne hne] at h
    · exact h
  · exact h

theorem lookup_of_releaseAll {ids : List UInt64}
    (h : (ids.foldl (releaseTask now) tasks).lookup id = some task) :
    tasks.lookup id = some task := by
  induction ids generalizing tasks with
  | nil => exact h
  | cons first ids ih => exact lookup_of_releaseTask (ih h)

theorem Tidy.releaseCompletedResources (h : manager.Tidy) (now : Nat) :
    (manager.releaseCompletedResources now).Tidy := by
  refine h.of_same List.filter_sublist List.filter_sublist fun span hmem task hlookup => ?_
  have hin : span.owner ∈ manager.activeTasks.keys.foldl (releaseTask now) manager.activeTasks := by
    rcases List.mem_append.mp hmem with harm | hdrive
    · exact of_decide_eq_true (List.mem_filter.mp harm).2
    · exact of_decide_eq_true (List.mem_filter.mp hdrive).2
  obtain ⟨found, hfound⟩ := Option.isSome_iff_exists.mp (AList.lookup_isSome.mpr hin)
  have hsame := lookup_of_releaseAll hfound
  rw [hlookup] at hsame
  cases hsame
  exact ⟨_, hfound⟩

/-- What is popped off a heap does not matter for the spans, and the tasks are planned as they
    were. -/
theorem Tidy.complete (h : manager.Tidy) (now : Nat) :
    (manager.completeRead now).Tidy ∧ (manager.completeBurn now).Tidy := by
  have hpopped : ∀ reads burns : DeadlineQueue,
      Tidy { manager with readCompleteHeap := reads, burnCompleteHeap := burns } := fun _ _ =>
    ⟨h.arms, h.drives, h.ownedArms, h.ownedDrives⟩
  unfold CDManager.completeRead CDManager.completeBurn
  constructor
  · split
    · exact h
    split
    · exact (hpopped manager.readCompleteHeap.pop manager.burnCompleteHeap).notifyComplete _ now
    · exact h
  · split
    · exact h
    split
    · exact (hpopped manager.readCompleteHeap manager.burnCompleteHeap.pop).notifyComplete _ now
    · exact h

theorem Tidy.serve {call : Nat × Call} (h : manager.Tidy) (hharmless : Harmless config manager call) :
    (manager.serve config call).Tidy := by
  obtain ⟨now, call⟩ := call
  cases call with
  | submit taskId type armMove inboundMove operation => exact h.submit _ _
  | rebuildSchedule => exact h.rebuildSchedule hharmless.2.1 hharmless.1
  | completeRead => exact (h.complete now).1
  | completeBurn => exact (h.complete now).2
  | releaseCompletedResources => exact h.releaseCompletedResources now
  | discardStaleDeadlines => exact ⟨h.arms, h.drives, h.ownedArms, h.ownedDrives⟩

/-! ## Tasks that have begun -/

/-- A rebuild does not postpone what has been notified or has begun its load. -/
def Steady (manager manager' : CDManager) (now : Nat) : Prop :=
  ∀ id task task', manager.activeTasks.lookup id = some task →
    manager'.activeTasks.lookup id = some task' →
      task.completeNotified = true ∨ task.assignedDriveIndex ≠ none ∧ task.loadStart < now →
        task'.predictedCompleteAt ≤ task.predictedCompleteAt

/-- A waiting task is begun anew by every rebuild. -/
theorem started_again (config : LibraryConfig) (manager : CDManager) (now : Nat)
    (hlookup : manager.activeTasks.lookup id = some task) (hnot : task.completeNotified = false) :
    ∃ task', (manager.rebuildSchedule config now).activeTasks.lookup id = some task' ∧
      SameTask task task' ∧ now ≤ task'.loadStart ∧
        task'.predictedCompleteAt = task'.loadStart + config.duration task := by
  obtain ⟨hordered, _, hpaced⟩ := wellPlanned_rebuilt config manager now
  have hpending : id ∈ pendingIds manager.activeTasks := mem_pendingIds.mpr ⟨task, hlookup, hnot⟩
  obtain ⟨task', hlookup', _⟩ := hordered.tracks.pending hpending
  obtain ⟨task₀, hlookup₀, hsame⟩ := hordered.tracks.known id task' hlookup'
  rw [hlookup] at hlookup₀
  cases hlookup₀
  have hdue : id ∈ (manager.rebuilt config now).dueIds := by
    have hperm := hordered.perm
    rw [(rebuilt_finished config manager now).1, List.append_nil] at hperm
    exact hperm.symm.subset hpending
  obtain ⟨hstart, hcomplete⟩ := hpaced.due id hdue task' hlookup'
  rw [hsame.duration config] at hcomplete
  exact ⟨task', hlookup', hsame, hstart, hcomplete⟩

/-- A rebuild postpones each waiting task that has begun its load, and nothing else. -/
theorem steady_rebuildSchedule_iff (h : Timed config manager.activeTasks) (now : Nat) :
    Steady manager (manager.rebuildSchedule config now) now ↔ manager.underway now = false := by
  rw [← Bool.not_eq_true, underway_iff]
  constructor
  · rintro hsteady ⟨id, task, hlookup, hnot, hdrive, hlt⟩
    obtain ⟨task', hlookup', _, hstart, hcomplete⟩ := started_again config manager now hlookup hnot
    have hle := hsteady id task task' hlookup hlookup' (.inr ⟨hdrive, hlt⟩)
    have hbefore := h id task hlookup hnot hdrive
    omega
  · intro hnone id task task' hlookup hlookup' hstarted
    cases hnotified : task.completeNotified with
    | true =>
        have hcalm := (wellPlanned_rebuilt config manager now).ordered.tracks.calm id task hlookup
          hnotified
        have hafter : (manager.rebuilt config now).tasks.lookup id = some task' := hlookup'
        rw [hcalm] at hafter
        cases hafter
        exact Nat.le_refl _
    | false =>
        rw [hnotified] at hstarted
        obtain ⟨hdrive, hlt⟩ := hstarted.resolve_left Bool.false_ne_true
        exact absurd ⟨id, task, hlookup, hnotified, hdrive, hlt⟩ hnone

theorem Timed.notifyComplete (h : Timed config manager.activeTasks) (taskId : UInt64) (now : Nat) :
    Timed config (manager.notifyComplete taskId now).activeTasks := by
  unfold CDManager.notifyComplete
  split
  · exact h
  split
  · exact h
  intro id task hlookup hnot
  rcases eq_or_ne id taskId with rfl | hne
  · cases Option.some.inj ((AList.lookup_insert _).symm.trans hlookup)
    cases hnot
  · exact h id task ((AList.lookup_insert_ne hne).symm.trans hlookup) hnot

theorem Timed.serve (h : Timed config manager.activeTasks) (call : Nat × Call) :
    Timed config (manager.serve config call).activeTasks := by
  obtain ⟨now, call⟩ := call
  cases call with
  | submit taskId type armMove inboundMove operation =>
      unfold CDManager.serve CDManager.submit
      dsimp only
      split
      · exact h
      · intro id task hlookup hnot hdrive
        rcases eq_or_ne id taskId with rfl | hne
        · cases Option.some.inj ((AList.lookup_insert _).symm.trans hlookup)
          exact absurd rfl hdrive
        · exact h id task ((AList.lookup_insert_ne hne).symm.trans hlookup) hnot hdrive
  | rebuildSchedule =>
      intro id task hlookup hnot _
      obtain ⟨hordered, _, _⟩ := wellPlanned_rebuilt config manager now
      obtain ⟨task₀, hlookup₀, hsame⟩ := hordered.tracks.known id task hlookup
      obtain ⟨task', hlookup', hagain, _, hcomplete⟩ :=
        started_again config manager now hlookup₀ (hsame.notified.symm.trans hnot)
      cases Option.some.inj (hlookup.symm.trans hlookup')
      rwa [hagain.duration config]
  | completeRead =>
      unfold CDManager.serve CDManager.completeRead
      dsimp only
      split
      · exact h
      split
      · exact @Timed.notifyComplete config
          { manager with readCompleteHeap := manager.readCompleteHeap.pop } h _ now
      · exact h
  | completeBurn =>
      unfold CDManager.serve CDManager.completeBurn
      dsimp only
      split
      · exact h
      split
      · exact @Timed.notifyComplete config
          { manager with burnCompleteHeap := manager.burnCompleteHeap.pop } h _ now
      · exact h
  | releaseCompletedResources =>
      intro id task hlookup
      exact h id task (lookup_of_releaseAll hlookup)
  | discardStaleDeadlines => exact h

/-! ## Runs -/

def Serving (config : LibraryConfig) (manager : CDManager) (call : Nat × Call)
    (manager' : CDManager) : Prop :=
  manager' = manager.serve config call

/-- What the library promises: no drive and no arm is booked twice, and every rebuild plans
    each waiting task once and postpones none that has begun. -/
structure Orderly (hist : List (Served CDManager (Nat × Call))) (manager : CDManager) : Prop where
  drives : manager.driveUses.Pairwise Apart
  arms : manager.armUses.Pairwise Apart
  rebuilds : ∀ e ∈ hist, e.call.2 = .rebuildSchedule → Steady e.before e.after e.call.1 ∧
    ∀ id task, e.after.activeTasks.lookup id = some task → task.completeNotified = false →
      Planned e.after id task

/-- Every run is orderly whose rebuilds plan no more tasks than there are drives, none of them
    begun, with the discs of the others out of the way. Of these conditions, that none has begun
    is what it takes in any run for a rebuild to postpone none. -/
theorem runs_orderly (config : LibraryConfig) {hist : List (Served CDManager (Nat × Call))}
    (hrun : Serves (Serving config) Any {} hist manager) :
    ((∀ e ∈ hist, Harmless config e.before e.call) → Orderly hist manager) ∧
      ∀ e ∈ hist, e.call.2 = .rebuildSchedule →
        (Steady e.before e.after e.call.1 ↔ e.before.underway e.call.1 = false) := by
  have hsteady : ∀ e ∈ hist, e.call.2 = .rebuildSchedule →
      e.after = e.before.rebuildSchedule config e.call.1 ∧
        (Steady e.before e.after e.call.1 ↔ e.before.underway e.call.1 = false) := by
    intro e hmem hcall
    obtain ⟨hist₁, hist₂, rfl⟩ := List.append_of_mem hmem
    obtain ⟨hfirst, _, hserve, _⟩ := hrun.split
    have htimed : Timed config e.before.activeTasks := by
      apply hfirst.invariant (I := fun manager => Timed config manager.activeTasks)
      · rintro before call after h _ rfl
        exact h.serve call
      · intro id task hlookup
        rw [AList.lookup_empty] at hlookup
        cases hlookup
    have hafter : e.after = e.before.rebuildSchedule config e.call.1 := by
      rw [hserve, CDManager.serve, hcall]
    rw [hafter]
    exact ⟨rfl, steady_rebuildSchedule_iff htimed e.call.1⟩
  refine ⟨fun hharmless => ?_, fun e hmem hcall => (hsteady e hmem hcall).2⟩
  have htidy : manager.Tidy := by
    apply (hrun.restrict hharmless).invariant _ ⟨.nil, .nil, nofun, nofun⟩
    rintro before call after h hmet rfl
    exact h.serve hmet
  refine ⟨htidy.drives, htidy.arms, fun e hmem hcall => ?_⟩
  obtain ⟨hafter, hiff⟩ := hsteady e hmem hcall
  have hmet := hharmless e hmem
  rw [Harmless, hcall] at hmet
  refine ⟨hiff.mpr hmet.2.2, fun id task hlookup hnot => ?_⟩
  rw [hafter] at hlookup ⊢
  exact planned_rebuildSchedule config e.before e.call.1 hlookup hnot

instance (config : LibraryConfig) (manager : CDManager) (call : Nat × Call) :
    Decidable (Harmless config manager call) :=
  match call with
  | (_, .rebuildSchedule) => inferInstanceAs (Decidable (_ ∧ _))
  | (_, .submit ..) => inferInstanceAs (Decidable True)
  | (_, .completeRead) => inferInstanceAs (Decidable True)
  | (_, .completeBurn) => inferInstanceAs (Decidable True)
  | (_, .releaseCompletedResources) => inferInstanceAs (Decidable True)
  | (_, .discardStaleDeadlines) => inferInstanceAs (Decidable True)

def exampleLibrary (numDrives numArms : Nat) : LibraryConfig where
  numDrives := numDrives
  numArms := numArms
  driveLoad := 2
  driveEject := 1

/-- A read and a burn are planned and done, and another read is planned while the disc of the
    burn is being unloaded. -/
def exampleCalls : List (Nat × Call) :=
  [(0, .submit 1 .read 1 1 5), (0, .submit 2 .burn 1 1 8), (0, .rebuildSchedule),
    (9, .completeRead), (12, .completeBurn), (13, .releaseCompletedResources),
    (13, .submit 3 .read 1 1 5), (13, .rebuildSchedule)]

theorem runs_orderly_of_two_drives :
    Orderly (runOf (CDManager.serve (exampleLibrary 2 4)) {} exampleCalls).1
      (runOf (CDManager.serve (exampleLibrary 2 4)) {} exampleCalls).2 := by
  have hstep : ∀ manager call, Serving (exampleLibrary 2 4) manager call
      (manager.serve (exampleLibrary 2 4) call) := fun _ _ => rfl
  have hrun := @serves_runOf _ _ (Serving (exampleLibrary 2 4)) Any _ hstep exampleCalls {}
    fun _ _ => trivial
  exact (runs_orderly (exampleLibrary 2 4) hrun).1 (by decide)

/-- With one drive the second disc is loaded into it before the first is unloaded; and with
    two, a task that has begun its load is done later once another is submitted. -/
theorem second_disc_loaded_into_full_drive :
    ¬(runOf (CDManager.serve (exampleLibrary 1 1)) {} [(0, .submit 1 .read 1 1 5),
        (0, .submit 2 .read 1 1 5), (0, .rebuildSchedule)]).2.driveUses.Pairwise Apart ∧
      ∃ e ∈ (runOf (CDManager.serve (exampleLibrary 2 1)) {} [(0, .submit 1 .read 1 1 5),
          (0, .rebuildSchedule), (5, .submit 2 .read 1 1 5), (5, .rebuildSchedule)]).1,
        e.call.2 = .rebuildSchedule ∧ ¬Steady e.before e.after e.call.1 := by
  refine ⟨by decide, _, List.mem_of_getElem? (i := 3) rfl, rfl, fun hsteady => ?_⟩
  have hlate := hsteady 1
    { type := .read, arrivalTime := 0, armMove := 1, inboundMove := 1, operation := 5
      predictedCompleteAt := 9, predictedUnloadCompleteAt := 11
      assignedDriveIndex := some 0, assignedLoadArmIndex := some 0
      assignedUnloadArmIndex := some 0 }
    { type := .read, arrivalTime := 0, armMove := 1, inboundMove := 1, operation := 5
      loadStart := 5, predictedCompleteAt := 14, predictedUnloadCompleteAt := 16
      assignedDriveIndex := some 0, assignedLoadArmIndex := some 0
      assignedUnloadArmIndex := some 0 } (by decide) (by decide) (.inr (by decide))
  exact absurd hlate (by decide)

end CDManager

end Zb.OpticalNode
