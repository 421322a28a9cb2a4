-- SUMMARY: Runs of prepared reads: an open session pins its file and a task is released once.
import ZBStorage.Simulation.PreparedSessions

/-!
# Runs of prepared reads

Every critical section keeps `Sound`, the loops over a closed stream included. So in
every run a read handle keeps the file it reads, and a task is released only when
nothing refers to it.
-/

namespace Zb.Simulation

open Bytes

namespace PreparedState

variable {config : OpticalReadConfig} {s : PreparedState} {p q handle now : Nat}
  {nodeId : Bytes} {key : TaskKey}

/-! ## Handles -/

theorem handleCount_erase {handles : AList fun _ : Nat => Nat}
    (h : handles.lookup handle = some p) (q : Nat) :
    handleCount q handles = (if p = q then 1 else 0) + handleCount q (handles.erase handle) :=
  TableSum.total_erase h

theorem handleCount_insert {handles : AList fun _ : Nat => Nat}
    (h : handles.lookup handle = none) (p q : Nat) :
    handleCount q (handles.insert handle p) = (if p = q then 1 else 0) + handleCount q handles :=
  TableSum.total_insert_new h

theorem Sound.dropHandle (h : Sound s) (hlookup : s.handles.lookup handle = some p) :
    Sound (s.dropHandle handle p) := by
  obtain ⟨hp, hlive, _⟩ := h.handles handle p hlookup
  refine h.setHandles hlive (fun other q hother => ?_) ?_ fun q hq => ?_
  · have hne : other ≠ handle := by
      rintro rfl
      rw [AList.lookup_erase] at hother
      cases hother
    rw [AList.lookup_erase_ne hne] at hother
    have hlt := (h.handles other q hother).2.2
    exact ⟨.inl ⟨hother, hlt⟩, hlt⟩
  · rw [h.readers p hp, handleCount_erase hlookup p, if_pos rfl]
    omega
  · rw [handleCount_erase hlookup q, if_neg fun heq => hq heq.symm, Nat.zero_add]

theorem Sound.acquireReadSession (h : Sound s) (nodeId : Bytes) (taskId : UInt64) (now : Nat) :
    Sound (s.acquireReadSession nodeId taskId now).2 := by
  unfold PreparedState.acquireReadSession
  split
  · exact h
  · rename_i p htask
    dsimp only
    split
    · exact h
    · rename_i hheld
      split
      · exact h
      · split
        · exact h
        · have hp := (h.tasks _ p htask).1
          have hlive : (s.preparations p).removed = false := by
            rw [← Bool.not_eq_true]
            intro hgone
            rw [(h.gone p hp hgone).1] at hheld
            exact hheld rfl
          have hnew : s.handles.lookup s.nextHandle = none := by
            rw [Option.eq_none_iff_forall_ne_some]
            intro q hq
            exact Nat.lt_irrefl _ (h.handles _ q hq).2.2
          refine h.setHandles hlive (fun other q hother => ?_) ?_ fun q hq => ?_
          · by_cases hne : other = s.nextHandle
            · rw [hne, AList.lookup_insert] at hother
              cases hother
              exact ⟨.inr ⟨rfl, hp⟩, hne ▸ Nat.lt_succ_self _⟩
            · rw [AList.lookup_insert_ne hne] at hother
              have hlt := (h.handles other q hother).2.2
              exact ⟨.inl ⟨hother, hlt⟩, Nat.lt_succ_of_lt hlt⟩
          · rw [h.readers p hp, handleCount_insert hnew, if_pos rfl]
            omega
          · rw [handleCount_insert hnew, if_neg fun heq => hq heq.symm, Nat.zero_add]

theorem openHandle_lookup (h : s.openHandle nodeId handle = some p) :
    s.handles.lookup handle = some p ∧ (s.preparations p).nodeId = nodeId := by
  obtain ⟨hlookup, hnode⟩ := Option.filter_eq_some_iff.mp h
  exact ⟨hlookup, of_decide_eq_true hnode⟩

theorem Sound.releaseReadSession (h : Sound s) (nodeId : Bytes) (handle now : Nat) (stored : Bool) :
    Sound (s.releaseReadSession nodeId handle now stored).2 := by
  unfold PreparedState.releaseReadSession
  split
  · exact h
  · rename_i p hopen
    have hlookup := (openHandle_lookup hopen).1
    exact (h.dropHandle hlookup).cleanup (h.handles _ p hlookup).1 now stored

theorem Sound.releasePreparedRead (h : Sound s) (nodeId : Bytes) (taskId : UInt64) (now : Nat)
    (stored : Bool) : Sound (s.releasePreparedRead nodeId taskId now stored).2 := by
  unfold PreparedState.releasePreparedRead
  split
  · exact h
  · rename_i p htask
    exact h.unhold (h.tasks _ p htask).1 now stored

theorem Sound.readPreparedFile (h : Sound s) (config : OpticalReadConfig) (nodeId : Bytes)
    (handle : Nat) (offset size : UInt64) (now : Nat) (stored : Bool) (deleted : UInt64 → Bool) :
    Sound (s.readPreparedFile config nodeId handle offset size now stored deleted).2 := by
  unfold PreparedState.readPreparedFile
  split
  · exact h
  · split
    · exact h
    · have hpruned := (OpticalReadModel.prune_keeps (h.issued nodeId) config now deleted).1
      exact h.setModel (hpruned.trans (OpticalReadModel.readTask_keeps hpruned.issued ..))

/-! ## New and forgotten preparations -/

/-- A preparation for a task that no other has. -/
theorem Sound.prepare (h : Sound s) {task : Preparation} (hreaders : task.readers = 0)
    (hlive : task.removed = false)
    (hkey : ∀ q < s.nextPreparation, (s.preparations q).taskKey ≠ task.taskKey)
    (hissued : task.taskId < (s.models task.nodeId).nextTaskId) (hpins : s.Pins task)
    (hrequest : s.requests.lookup task.requestKey = none) :
    Sound { s.setPreparation s.nextPreparation task with
      nextPreparation := s.nextPreparation + 1
      tasks := s.tasks.insert task.taskKey s.nextPreparation
      requests := s.requests.insert task.requestKey s.nextPreparation } := by
  have hnew : (s.setPreparation s.nextPreparation task).preparations s.nextPreparation = task :=
    Function.update_self ..
  have hold : ∀ q < s.nextPreparation,
      (s.setPreparation s.nextPreparation task).preparations q = s.preparations q :=
    fun q hq => Function.update_of_ne (Nat.ne_of_lt hq) ..
  have hcases : ∀ q < s.nextPreparation + 1, q < s.nextPreparation ∨ q = s.nextPreparation :=
    fun q hq => Nat.lt_or_eq_of_le (Nat.le_of_lt_succ hq)
  refine
    { taskKeys := fun q hq r hr heq => ?_
      tasks := fun key q hlookup => ?_
      requests := fun key q hlookup => ?_
      agree := fun q hq => ?_
      issued := h.issued
      taskIds := fun q hq => ?_
      live := fun q hq hqlive => ?_
      handles := fun handle q hlookup => ?_
      readers := fun q hq => ?_
      gone := fun q hq hgone => ?_
      released := fun key hmem => ?_
      once := h.once }
  · dsimp only at hq hr heq
    obtain hq | rfl := hcases q hq
    · rw [hold q hq] at heq
      obtain hr | rfl := hcases r hr
      · rw [hold r hr] at heq
        exact h.taskKeys q hq r hr heq
      · rw [hnew] at heq
        exact absurd heq (hkey q hq)
    · rw [hnew] at heq
      obtain hr | rfl := hcases r hr
      · rw [hold r hr] at heq
        exact absurd heq.symm (hkey r hr)
      · rfl
  · dsimp only at hlookup ⊢
    by_cases hk : key = task.taskKey
    · rw [hk, AList.lookup_insert] at hlookup
      cases hlookup
      rw [hnew]
      exact ⟨Nat.lt_succ_self _, hk.symm⟩
    · rw [AList.lookup_insert_ne hk] at hlookup
      obtain ⟨hq, hqkey⟩ := h.tasks key q hlookup
      rw [hold q hq]
      exact ⟨Nat.lt_succ_of_lt hq, hqkey⟩
  · dsimp only at hlookup ⊢
    by_cases hk : key = task.requestKey
    · rw [hk, AList.lookup_insert] at hlookup
      cases hlookup
      rw [hnew]
      exact ⟨Nat.lt_succ_self _, hk.symm⟩
    · rw [AList.lookup_insert_ne hk] at hlookup
      obtain ⟨hq, hqkey⟩ := h.requests key q hlookup
      rw [hold q hq]
      exact ⟨Nat.lt_succ_of_lt hq, hqkey⟩
  · dsimp only at hq ⊢
    obtain hq | rfl := hcases q hq
    · rw [hold q hq, AList.lookup_insert_ne (hkey q hq), h.agree q hq]
      by_cases hk : (s.preparations q).requestKey = task.requestKey
      · -- an old preparation of the request was forgotten
        rw [hk, AList.lookup_insert, hrequest]
        exact ⟨nofun, fun heq => absurd (Option.some.inj heq).symm (Nat.ne_of_lt hq)⟩
      · rw [AList.lookup_insert_ne hk]
    · rw [hnew, AList.lookup_insert, AList.lookup_insert]
  · dsimp only at hq ⊢
    obtain hq | rfl := hcases q hq
    · rw [hold q hq]
      exact h.taskIds q hq
    · rw [hnew]
      exact hissued
  · dsimp only at hq hqlive ⊢
    obtain hq | rfl := hcases q hq
    · rw [hold q hq] at hqlive ⊢
      rw [AList.lookup_insert_ne (hkey q hq)]
      exact h.live q hq hqlive
    · rw [hnew, AList.lookup_insert]
      exact ⟨rfl, hpins⟩
  · obtain ⟨hq, hqlive, hhandle⟩ := h.handles handle q hlookup
    dsimp only
    rw [hold q hq]
    exact ⟨Nat.lt_succ_of_lt hq, hqlive, hhandle⟩
  · dsimp only at hq ⊢
    obtain hq | rfl := hcases q hq
    · rw [hold q hq]
      exact h.readers q hq
    · -- no handle refers to what is not there yet
      rw [hnew, hreaders, eq_comm, Int.natCast_eq_zero]
      refine TableSum.total_eq_zero_iff.mpr fun handle q hlookup => if_neg fun heq => ?_
      exact Nat.ne_of_lt (h.handles handle q hlookup).1 heq
  · dsimp only at hq hgone ⊢
    obtain hq | rfl := hcases q hq
    · rw [hold q hq] at hgone ⊢
      exact h.gone q hq hgone
    · rw [hnew, hlive] at hgone
      cases hgone
  · obtain ⟨q, hq, hqkey, hgone⟩ := h.released key hmem
    refine ⟨q, Nat.lt_succ_of_lt hq, ?_⟩
    dsimp only
    rw [hold q hq]
    exact ⟨hqkey, hgone⟩

theorem Sound.prepareRead (h : Sound s) (config : OpticalReadConfig) (nodeId : Bytes)
    (request : PrepareReadRequest) (now : Nat) (answers : OpticalReadModel.ReadAnswers) :
    Sound (s.prepareRead config nodeId request now answers).2 := by
  unfold PreparedState.prepareRead
  split
  · exact h
  · split
    · exact h
    · split
      · split
        · exact h
        · split
          · exact h
          · exact h
      · rename_i hrequest
        split
        · exact h
        · have hasked := OpticalReadModel.requestRead_requested (h.issued nodeId) config
            request.inodeId request.diskId request.imageId true
            (some (request.fileSize, request.fileVersion.getD 0)) now answers
          generalize (s.models nodeId).requestRead config request.inodeId request.diskId
            request.imageId true (some (request.fileSize, request.fileVersion.getD 0)) now
            answers = answer at hasked
          have hset := h.setModel hasked.keeps
          dsimp only
          split
          · exact hset
          · rename_i hok
            obtain ⟨hfrom, hbelow, task, hlookup, hretained, hunreleased, hinode⟩ :=
              hasked.filed (Decidable.not_not.mp hok)
            have hself : Function.update s.models nodeId answer.2.2 nodeId = answer.2.2 :=
              Function.update_self ..
            refine hset.prepare rfl rfl (fun q hq heq => ?_) ?_ ?_ hrequest
            · -- the ids of the model are issued once
              obtain ⟨hnode, hid⟩ := Prod.mk.inj heq
              have hlt := h.taskIds q hq
              change (s.preparations q).nodeId = nodeId at hnode
              change (s.preparations q).taskId = answer.2.1 at hid
              rw [hnode, hid] at hlt
              exact UInt64.lt_irrefl _ (UInt64.lt_of_lt_of_le hlt hfrom)
            · change answer.2.1 < (Function.update s.models nodeId answer.2.2 nodeId).nextTaskId
              rw [hself]
              exact hbelow
            · refine ⟨task, ?_, ⟨hretained, hunreleased⟩, hinode⟩
              change (Function.update s.models nodeId answer.2.2 nodeId).tasks.lookup answer.2.1 = _
              rw [hself]
              exact hlookup

/-- A preparation that is gone leaves the tables. -/
theorem Sound.forget (h : Sound s) (htask : s.tasks.lookup key = some p)
    (hgone : (s.preparations p).removed = true) :
    Sound { s with
      requests := s.requests.erase (s.preparations p).requestKey
      tasks := s.tasks.erase key } := by
  obtain ⟨hp, hkey⟩ := h.tasks key p htask
  have hrequest : s.requests.lookup (s.preparations p).requestKey = some p :=
    (h.agree p hp).mp (hkey ▸ htask)
  have hother : ∀ q < s.nextPreparation, q ≠ p → (s.preparations q).taskKey ≠ key :=
    fun q hq hqp heq => hqp (h.taskKeys q hq p hp (heq.trans hkey.symm))
  refine { h with
    toFiled := ⟨h.taskKeys, fun other q hlookup => ?_, fun other q hlookup => ?_, fun q hq => ?_⟩
    live := fun q hq hqlive => ?_ }
  · by_cases hne : other = key
    · rw [hne, AList.lookup_erase] at hlookup
      cases hlookup
    · rw [AList.lookup_erase_ne hne] at hlookup
      exact h.tasks other q hlookup
  · by_cases hne : other = (s.preparations p).requestKey
    · rw [hne, AList.lookup_erase] at hlookup
      cases hlookup
    · rw [AList.lookup_erase_ne hne] at hlookup
      exact h.requests other q hlookup
  · by_cases hqp : q = p
    · rw [hqp, hkey, AList.lookup_erase, AList.lookup_erase]
    · dsimp only
      rw [AList.lookup_erase_ne (hother q hq hqp), h.agree q hq]
      by_cases hreq : (s.preparations q).requestKey = (s.preparations p).requestKey
      · rw [hreq, AList.lookup_erase, hrequest]
        exact ⟨fun heq => absurd (Option.some.inj heq).symm hqp, nofun⟩
      · rw [AList.lookup_erase_ne hreq]
  · have hqp : q ≠ p := by
      rintro rfl
      rw [hgone] at hqlive
      cases hqlive
    dsimp only
    rw [AList.lookup_erase_ne (hother q hq hqp)]
    exact h.live q hq hqlive

/-! ## Streams and the notification thread -/

theorem Sound.setSubscriptions (h : Sound s) (next : Nat)
    (subscriptions : AList fun _ : Nat => Subscription) :
    Sound { s with nextSession := next, subscriptions := subscriptions } :=
  { h with toFiled := h.toFiled.of_sameTask rfl rfl rfl fun _ => .refl _ }

theorem Sound.subscribeReadEvents (h : Sound s) (nodeId clientId : Bytes) (stream : Nat)
    (accepted : Bool) : Sound (s.subscribeReadEvents nodeId clientId stream accepted).2 := by
  unfold PreparedState.subscribeReadEvents
  split
  · exact h
  · split
    · exact h
    · split
      · exact h
      · exact h.setSubscriptions _ _

/-- The loop over the handles, from any point on: those left are still in the table. -/
theorem Sound.foldl_dropHandle (sessionId : Nat) (entries : List (Σ _ : Nat, Nat))
    (hnodup : (entries.map Sigma.fst).Nodup) (h : Sound s)
    (hleft : ∀ entry ∈ entries, s.handles.lookup entry.1 = some entry.2) :
    let s' := entries.foldl (fun s entry =>
      if (s.preparations entry.2).request.sessionId = sessionId then
        s.dropHandle entry.1 entry.2 else s) s
    Sound s' ∧ s'.nextPreparation = s.nextPreparation ∧ s'.requests = s.requests := by
  induction entries generalizing s with
  | nil => exact ⟨h, rfl, rfl⟩
  | cons entry entries ih =>
      obtain ⟨hfresh, hnodup⟩ := List.nodup_cons.mp hnodup
      have hhead := hleft entry List.mem_cons_self
      have htail := fun other hmem => hleft other (List.mem_cons_of_mem _ hmem)
      rw [List.foldl_cons]
      by_cases hsession : (s.preparations entry.2).request.sessionId = sessionId
      · rw [if_pos hsession]
        refine ih hnodup (h.dropHandle hhead) fun other hmem => ?_
        have hne : other.1 ≠ entry.1 := fun heq =>
          hfresh (heq ▸ List.mem_map_of_mem hmem)
        change (s.handles.erase entry.1).lookup other.1 = some other.2
        rw [AList.lookup_erase_ne hne]
        exact htail other hmem
      · rw [if_neg hsession]
        exact ih hnodup h htail

theorem Sound.foldl_unhold (sessionId now : Nat) (stored : Nat → Bool)
    (entries : List (Σ _ : RequestKey, Nat)) (h : Sound s)
    (hleft : ∀ entry ∈ entries, entry.2 < s.nextPreparation) :
    Sound (entries.foldl (fun s entry =>
      if entry.1.1 = sessionId then (s.unhold entry.2 now (stored entry.2)).2 else s) s) := by
  induction entries generalizing s with
  | nil => exact h
  | cons entry entries ih =>
      have hhead := hleft entry List.mem_cons_self
      have htail := fun other hmem => hleft other (List.mem_cons_of_mem _ hmem)
      rw [List.foldl_cons]
      split
      · refine ih (h.unhold hhead now _) fun other hmem => ?_
        rw [unhold_next]
        exact htail other hmem
      · exact ih h htail

theorem Sound.onClosed (h : Sound s) (stream now : Nat) (stored : Nat → Bool) :
    Sound (s.onClosed stream now stored) := by
  unfold PreparedState.onClosed
  split
  · exact h
  · rename_i entry _
    obtain ⟨hdropped, hnext, hrequests⟩ := Sound.foldl_dropHandle entry.1 s.handles.entries
      s.handles.nodupKeys h fun _ hmem => AList.mem_lookup_iff.mpr hmem
    have hunheld : Sound ((s.dropHandles entry.1).unholdRequests entry.1 now stored) := by
      refine Sound.foldl_unhold entry.1 now stored _ hdropped fun other hmem => ?_
      have hlookup := AList.mem_lookup_iff.mpr hmem
      exact (hdropped.requests _ _ hlookup).1
    exact hunheld.setSubscriptions _ _

theorem Sound.runTask (h : Sound s) (config : OpticalReadConfig) (key : TaskKey) (now : Nat)
    (available stored : Bool) : Sound (s.runTask config key now available stored) := by
  unfold PreparedState.runTask
  split
  · exact h
  · rename_i p htask
    have hp := (h.tasks key p htask).1
    dsimp only
    split
    · rename_i hexpired
      rw [Bool.and_eq_true] at hexpired
      exact h.forget htask hexpired.1
    · split
      · exact h.cleanup hp now stored
      · split
        · exact h.unhold hp now stored
        · split
          · exact h
          · split
            · exact h
            · split
              · exact h.setPreparation ⟨rfl, rfl, rfl⟩ rfl rfl fun hp hgone => (h.gone p hp hgone).1
              · exact h

/-! ## Runs -/

theorem Sound.step (h : Sound s) (config : OpticalReadConfig) (event : Event) :
    Sound (s.step config event) := by
  cases event with
  | subscribe nodeId clientId stream accepted => exact h.subscribeReadEvents ..
  | prepare nodeId request now answers => exact h.prepareRead ..
  | acquire nodeId taskId now => exact h.acquireReadSession ..
  | read nodeId handle offset size now stored deleted => exact h.readPreparedFile ..
  | releaseSession nodeId handle now stored => exact h.releaseReadSession ..
  | releasePrepared nodeId taskId now stored => exact h.releasePreparedRead ..
  | close stream now stored => exact h.onClosed ..
  | turn key now available stored => exact h.runTask ..
  | notified p =>
      exact h.setPreparation ⟨rfl, rfl, rfl⟩ rfl rfl fun hp hgone => (h.gone p hp hgone).1
  | emplaceFile nodeId inodeId file =>
      exact h.setModel (OpticalReadModel.emplaceFile_keeps (h.issued nodeId) inodeId file)
  | removeFile nodeId inodeId version discId imageId stored =>
      exact h.setModel (OpticalReadModel.removeFile_keeps (h.issued nodeId) ..)
  | requestRead nodeId inodeId discId imageId now answers =>
      exact h.setModel (OpticalReadModel.requestRead_requested (h.issued nodeId) ..).keeps
  | readTask nodeId taskId offset size now stored deleted =>
      have hpruned := (OpticalReadModel.prune_keeps (h.issued nodeId) config now deleted).1
      exact h.setModel (hpruned.trans (OpticalReadModel.readTask_keeps hpruned.issued ..))
  | setArchives nodeId inodes => exact h.setModel (.of_tasks (h.issued nodeId) rfl rfl)
  | setPaused nodeId paused => exact h.setModel (.of_tasks (h.issued nodeId) rfl rfl)

theorem Sound.run (h : Sound s) (config : OpticalReadConfig) (events : List Event) :
    Sound (s.run config events) := by
  induction events generalizing s with
  | nil => exact h
  | cons event events ih => exact ih (h.step config event)

/-- A service that has just started, over models whose tasks were all issued. -/
theorem Sound.start {models : Bytes → OpticalReadModel} (hissued : ∀ nodeId, (models nodeId).Issued) :
    Sound { models := models } where
  taskKeys := nofun
  tasks := nofun
  requests := nofun
  agree := nofun
  issued := hissued
  taskIds := nofun
  live := nofun
  handles := nofun
  readers := nofun
  gone := nofun
  released := nofun
  once := List.nodup_nil

/-- What clients may rely on between any two critical sections. -/
structure PinsFiles (config : OpticalReadConfig) (s : PreparedState) : Prop where
  readers : ∀ p < s.nextPreparation, (s.preparations p).readers = handleCount p s.handles
  handles : ∀ handle p, s.handles.lookup handle = some p →
    (s.preparations p).removed = false ∧ s.tasks.lookup (s.preparations p).taskKey = some p
  tables : ∀ p < s.nextPreparation, s.tasks.lookup (s.preparations p).taskKey = some p ↔
    s.requests.lookup (s.preparations p).requestKey = some p
  once : s.releases.Nodup
  released : ∀ key ∈ s.releases, ∃ p < s.nextPreparation, (s.preparations p).taskKey = key ∧
    (s.preparations p).held = false ∧ handleCount p s.handles = 0 ∧
    (s.models (s.preparations p).nodeId).tasks.lookup (s.preparations p).taskId = none
  removal : ∀ nodeId handle p, s.openHandle nodeId handle = some p →
    ∀ version discId imageId stored,
      ((s.models nodeId).removeFile (s.preparations p).request.inodeId version discId imageId
        stored).1 ≠ .ok
  reads : ∀ nodeId handle p, s.openHandle nodeId handle = some p →
    ∀ offset size now stored deleted,
      (s.readPreparedFile config nodeId handle offset size now stored deleted).1.code ≠ .notFound
  acquired : ∀ nodeId taskId now, (s.acquireReadSession nodeId taskId now).1.code = .ok →
    ∃ p, s.tasks.lookup (nodeId, taskId) = some p ∧ (s.preparations p).held = true

/-- A removed preparation is not read. -/
theorem Sound.unread (h : Sound s) (hp : p < s.nextPreparation)
    (hgone : (s.preparations p).removed = true) : handleCount p s.handles = 0 := by
  refine TableSum.total_eq_zero_iff.mpr fun handle q hlookup => if_neg ?_
  rintro rfl
  have hlive := (h.handles handle q hlookup).2.1
  rw [hgone] at hlive
  cases hlive

/-- The task behind an open handle. -/
theorem Sound.open_pinned (h : Sound s) (hopen : s.openHandle nodeId handle = some p) :
    ∃ task, (s.models nodeId).tasks.lookup (s.preparations p).taskId = some task ∧ task.Pinned ∧
      task.inodeId = (s.preparations p).request.inodeId := by
  obtain ⟨hlookup, rfl⟩ := openHandle_lookup hopen
  obtain ⟨hp, hlive, _⟩ := h.handles handle p hlookup
  exact (h.live p hp hlive).2

theorem statusOf_notFound {code : OpticalModelCode} (h : statusOf code = .notFound) :
    code = .notFound := by
  cases code <;> first | rfl | cases h

theorem Sound.reads (h : Sound s) (hopen : s.openHandle nodeId handle = some p)
    (config : OpticalReadConfig) (offset size : UInt64) (now : Nat) (stored : Bool)
    (deleted : UInt64 → Bool) :
    (s.readPreparedFile config nodeId handle offset size now stored deleted).1.code ≠ .notFound := by
  obtain ⟨task, hlookup, hpinned, _⟩ := h.open_pinned hopen
  have hkept := (OpticalReadModel.prune_keeps (h.issued nodeId) config now deleted).1.pinned _ _
    hlookup hpinned
  unfold PreparedState.readPreparedFile
  rw [hopen]
  dsimp only
  split
  · exact nofun
  · exact fun hcode => OpticalReadModel.readTask_pinned hkept hpinned offset size now stored
      (statusOf_notFound hcode)

theorem Sound.acquired {taskId : UInt64}
    (hok : (s.acquireReadSession nodeId taskId now).1.code = .ok) :
    ∃ p, s.tasks.lookup (nodeId, taskId) = some p ∧ (s.preparations p).held = true := by
  unfold PreparedState.acquireReadSession at hok
  split at hok
  · cases hok
  · rename_i p htask
    dsimp only at hok
    split at hok
    · cases hok
    · rename_i hheld
      exact ⟨p, htask, by simpa using hheld⟩

theorem Sound.pinsFiles (h : Sound s) (config : OpticalReadConfig) : PinsFiles config s where
  readers := h.readers
  handles := fun handle p hlookup => by
    obtain ⟨hp, hlive, _⟩ := h.handles handle p hlookup
    exact ⟨hlive, (h.live p hp hlive).1⟩
  tables := h.agree
  once := h.once
  released := fun key hmem => by
    obtain ⟨p, hp, hkey, hgone⟩ := h.released key hmem
    obtain ⟨hheld, hnone⟩ := h.gone p hp hgone
    exact ⟨p, hp, hkey, hheld, h.unread hp hgone, hnone⟩
  removal := fun nodeId handle p hopen version discId imageId stored => by
    obtain ⟨task, hlookup, hpinned, hinode⟩ := h.open_pinned hopen
    rw [← hinode]
    exact OpticalReadModel.removeFile_pinned hlookup hpinned version discId imageId stored
  reads := fun _ _ _ hopen offset size now stored deleted =>
    h.reads hopen config offset size now stored deleted
  acquired := fun _ _ _ hok => Sound.acquired hok

/-- Whatever happens at the service and at its models, readers are counted, tables agree, a
    task is released once, and an open handle keeps its file and its task. -/
theorem open_sessions_pin_files (config : OpticalReadConfig) {models : Bytes → OpticalReadModel}
    (hissued : ∀ nodeId, (models nodeId).Issued) (events : List Event) :
    PinsFiles config (run config { models := models } events) :=
  ((Sound.start hissued).run config events).pinsFiles config

def sampleConfig : OpticalReadConfig := ⟨1000, 16⟩

def sampleRequest : PrepareReadRequest :=
  { sessionId := 1, requestId := [7], inodeId := 5, diskId := [1], imageId := [2], fileSize := 10 }

/-- A file is prepared and opened, and the preparation released while the handle is open. -/
def openedEvents : List Event :=
  [.emplaceFile [9] 5 ⟨3, 10, [1], [2]⟩, .subscribe [9] [4] 77 true,
    .prepare [9] sampleRequest 100 { readyAt := some 120 }, .acquire [9] 1 150,
    .releasePrepared [9] 1 160 true]

theorem open_sessions_pin_files_released :
    (run sampleConfig { models := fun _ => {} } openedEvents).openHandle [9] 1 = some 0 ∧
      PinsFiles sampleConfig (run sampleConfig { models := fun _ => {} } openedEvents) := by
  have hissued : ∀ nodeId : Bytes, ({} : OpticalReadModel).Issued := fun _ _ _ hlookup => by
    cases hlookup
  exact ⟨by decide, open_sessions_pin_files sampleConfig hissued openedEvents⟩

end PreparedState

end Zb.Simulation
