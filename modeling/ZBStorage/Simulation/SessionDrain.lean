-- SUMMARY: Nothing is left of a client that disconnects once its tasks have had a turn.
import ZBStorage.Simulation.PreparedRuns

/-!
# Draining of closed sessions

References are only taken through preparations that are held (`Recedes`). So what a
closed stream gave up stays given up, and the next turn of its task releases it.
-/

namespace Zb.Simulation

open Bytes
open Function (update update_self update_of_ne)

namespace PreparedState

variable {config : OpticalReadConfig} {s s' : PreparedState} {p q handle now sessionId : Nat}
  {nodeId : Bytes} {key : TaskKey}

/-! ## References recede -/

/-- What a critical section does to the preparations that are there: they stay for the same
    task, and those that are not held are neither held nor opened again. -/
structure Recedes (s s' : PreparedState) : Prop where
  next : s.nextPreparation ≤ s'.nextPreparation
  same : ∀ p < s.nextPreparation, SameTask (s.preparations p) (s'.preparations p)
  held : ∀ p < s.nextPreparation, (s.preparations p).held = false →
    (s'.preparations p).held = false
  unread : ∀ p < s.nextPreparation, (s.preparations p).held = false →
    handleCount p s.handles = 0 → handleCount p s'.handles = 0

theorem SameTask.trans {task task' task'' : Preparation} (h : SameTask task task')
    (h' : SameTask task' task'') : SameTask task task'' :=
  ⟨h'.request.trans h.request, h'.nodeId.trans h.nodeId, h'.taskId.trans h.taskId⟩

/-- The preparations and the handles are as they were. -/
theorem Recedes.of_eq (hpreparations : s'.preparations = s.preparations)
    (hnext : s'.nextPreparation = s.nextPreparation) (hhandles : s'.handles = s.handles) :
    Recedes s s' := by
  refine ⟨hnext.ge, fun p _ => ?_, fun p _ hheld => ?_, fun p _ _ hunread => ?_⟩
  · rw [hpreparations]
    exact .refl _
  · rw [hpreparations]
    exact hheld
  · rw [hhandles]
    exact hunread

theorem Recedes.refl (s : PreparedState) : Recedes s s := .of_eq rfl rfl rfl

theorem Recedes.trans {s'' : PreparedState} (h : Recedes s s') (h' : Recedes s' s'') :
    Recedes s s'' := by
  refine ⟨h.next.trans h'.next, fun p hp => ?_, fun p hp hheld => ?_, fun p hp hheld hunread => ?_⟩
  · exact (h.same p hp).trans (h'.same p (hp.trans_le h.next))
  · exact h'.held p (hp.trans_le h.next) (h.held p hp hheld)
  · exact h'.unread p (hp.trans_le h.next) (h.held p hp hheld) (h.unread p hp hheld hunread)

/-- One preparation changes, the handles do not. -/
theorem Recedes.setPreparation {task : Preparation} (hsame : SameTask (s.preparations p) task)
    (hheld : (s.preparations p).held = false → task.held = false) :
    Recedes s (s.setPreparation p task) := by
  refine ⟨Nat.le_refl _, fun q _ => sameTask_update hsame q, fun q _ hq => ?_,
    fun _ _ _ hunread => hunread⟩
  change (update s.preparations p task q).held = false
  by_cases hqp : q = p
  · subst hqp
    rw [update_self]
    exact hheld hq
  · rw [update_of_ne hqp]
    exact hq

theorem cleanup_recedes (p now : Nat) (stored : Bool) (s : PreparedState) :
    Recedes s (s.cleanup p now stored).2 := by
  unfold PreparedState.cleanup
  dsimp only
  split
  · exact .refl s
  · split
    · have hset : Recedes s (s.setPreparation p
          { s.preparations p with removed := true, removedAt := now }) :=
        .setPreparation ⟨rfl, rfl, rfl⟩ fun hheld => hheld
      exact ⟨hset.next, hset.same, hset.held, hset.unread⟩
    · exact .of_eq rfl rfl rfl

theorem unhold_recedes (p now : Nat) (stored : Bool) (s : PreparedState) :
    Recedes s (s.unhold p now stored).2 := by
  have hset : Recedes s (s.setPreparation p { s.preparations p with held := false }) :=
    .setPreparation ⟨rfl, rfl, rfl⟩ fun _ => rfl
  exact hset.trans (cleanup_recedes p now stored _)

theorem unhold_unheld (p now : Nat) (stored : Bool) (hp : p < s.nextPreparation) :
    ((s.unhold p now stored).2.preparations p).held = false := by
  have hset : ((s.setPreparation p { s.preparations p with held := false }).preparations p).held =
      false := by
    change (update s.preparations p _ p).held = false
    rw [update_self]
  exact (cleanup_recedes p now stored _).held p hp hset

theorem handleCount_erase_le (handle p : Nat) (handles : AList fun _ : Nat => Nat) :
    handleCount p (handles.erase handle) ≤ handleCount p handles := by
  cases hlookup : handles.lookup handle with
  | none => exact (TableSum.total_erase_none hlookup).le
  | some q =>
      rw [handleCount_erase hlookup p]
      exact Nat.le_add_left _ _

theorem dropHandle_recedes (handle p : Nat) (s : PreparedState) :
    Recedes s (s.dropHandle handle p) := by
  have hset : Recedes s (s.setPreparation p
      { s.preparations p with readers := (s.preparations p).readers - 1 }) :=
    .setPreparation ⟨rfl, rfl, rfl⟩ fun hheld => hheld
  refine ⟨hset.next, hset.same, hset.held, fun q hq hheld hunread => ?_⟩
  exact Nat.le_zero.mp ((handleCount_erase_le handle q s.handles).trans_eq hunread)

theorem Sound.acquire_recedes (h : Sound s) (nodeId : Bytes) (taskId : UInt64) (now : Nat) :
    Recedes s (s.acquireReadSession nodeId taskId now).2 := by
  unfold PreparedState.acquireReadSession
  split
  · exact .refl s
  · rename_i p htask
    dsimp only
    split
    · exact .refl s
    · rename_i hheld
      split
      · exact .refl s
      · split
        · exact .refl s
        · have hset : Recedes s (s.setPreparation p
              { s.preparations p with readers := (s.preparations p).readers + 1 }) :=
            .setPreparation ⟨rfl, rfl, rfl⟩ fun hheld => hheld
          refine ⟨hset.next, hset.same, hset.held, fun q hq hunheld hunread => ?_⟩
          have hne : p ≠ q := by
            rintro rfl
            rw [hunheld] at hheld
            exact hheld rfl
          have hnew : s.handles.lookup s.nextHandle = none := by
            rw [Option.eq_none_iff_forall_ne_some]
            intro r hr
            exact Nat.lt_irrefl _ (h.handles _ r hr).2.2
          change handleCount q (s.handles.insert s.nextHandle p) = 0
          rw [handleCount_insert hnew, if_neg hne, hunread]

theorem prepareRead_recedes (config : OpticalReadConfig) (nodeId : Bytes)
    (request : PrepareReadRequest) (now : Nat) (answers : OpticalReadModel.ReadAnswers)
    (s : PreparedState) : Recedes s (s.prepareRead config nodeId request now answers).2 := by
  unfold PreparedState.prepareRead
  split
  · exact .refl s
  · split
    · exact .refl s
    · split
      · split
        · exact .refl s
        · split
          · exact .refl s
          · exact .refl s
      · split
        · exact .refl s
        · dsimp only
          split
          · exact .of_eq rfl rfl rfl
          · -- the new preparation is behind those that are there
            refine ⟨Nat.le_succ _, fun q hq => ?_, fun q hq hheld => ?_, fun _ _ _ hunread => hunread⟩
            · change SameTask (s.preparations q) (update s.preparations s.nextPreparation _ q)
              rw [update_of_ne (Nat.ne_of_lt hq)]
              exact .refl _
            · change (update s.preparations s.nextPreparation _ q).held = false
              rw [update_of_ne (Nat.ne_of_lt hq)]
              exact hheld

theorem foldl_recedes {α : Type} (f : PreparedState → α → PreparedState)
    (hf : ∀ s a, Recedes s (f s a)) (l : List α) (s : PreparedState) : Recedes s (l.foldl f s) := by
  induction l generalizing s with
  | nil => exact .refl s
  | cons a l ih => exact (hf s a).trans (ih _)

theorem dropHandles_recedes (sessionId : Nat) (s : PreparedState) :
    Recedes s (s.dropHandles sessionId) := by
  refine foldl_recedes _ (fun s entry => ?_) s.handles.entries s
  split
  · exact dropHandle_recedes _ _ s
  · exact .refl s

theorem unholdRequests_recedes (sessionId now : Nat) (stored : Nat → Bool) (s : PreparedState) :
    Recedes s (s.unholdRequests sessionId now stored) := by
  refine foldl_recedes _ (fun s entry => ?_) s.requests.entries s
  split
  · exact unhold_recedes _ _ _ s
  · exact .refl s

theorem onClosed_recedes (stream now : Nat) (stored : Nat → Bool) (s : PreparedState) :
    Recedes s (s.onClosed stream now stored) := by
  unfold PreparedState.onClosed
  split
  · exact .refl s
  · rename_i entry _
    have hdropped := (dropHandles_recedes entry.1 s).trans
      (unholdRequests_recedes entry.1 now stored _)
    exact hdropped.trans (.of_eq rfl rfl rfl)

theorem runTask_recedes (config : OpticalReadConfig) (key : TaskKey) (now : Nat)
    (available stored : Bool) (s : PreparedState) :
    Recedes s (s.runTask config key now available stored) := by
  unfold PreparedState.runTask
  split
  · exact .refl s
  · dsimp only
    split
    · exact .of_eq rfl rfl rfl
    · split
      · exact cleanup_recedes _ now stored s
      · split
        · exact unhold_recedes _ now stored s
        · split
          · exact .refl s
          · split
            · exact .refl s
            · split
              · exact .setPreparation ⟨rfl, rfl, rfl⟩ fun hheld => hheld
              · exact .refl s

theorem Sound.step_recedes (h : Sound s) (config : OpticalReadConfig) (event : Event) :
    Recedes s (s.step config event) := by
  cases event with
  | subscribe nodeId clientId stream accepted =>
      unfold PreparedState.step PreparedState.subscribeReadEvents
      dsimp only
      split
      · exact .refl s
      · split
        · exact .refl s
        · split
          · exact .refl s
          · exact .of_eq rfl rfl rfl
  | prepare nodeId request now answers => exact prepareRead_recedes ..
  | acquire nodeId taskId now => exact h.acquire_recedes ..
  | read nodeId handle offset size now stored deleted =>
      unfold PreparedState.step PreparedState.readPreparedFile
      dsimp only
      split
      · exact .refl s
      · split
        · exact .refl s
        · exact .of_eq rfl rfl rfl
  | releaseSession nodeId handle now stored =>
      unfold PreparedState.step PreparedState.releaseReadSession
      dsimp only
      split
      · exact .refl s
      · exact (dropHandle_recedes _ _ s).trans (cleanup_recedes _ now stored _)
  | releasePrepared nodeId taskId now stored =>
      unfold PreparedState.step PreparedState.releasePreparedRead
      dsimp only
      split
      · exact .refl s
      · exact unhold_recedes _ now stored s
  | close stream now stored => exact onClosed_recedes ..
  | turn key now available stored => exact runTask_recedes ..
  | notified p => exact .setPreparation ⟨rfl, rfl, rfl⟩ fun hheld => hheld
  | emplaceFile nodeId inodeId file => exact .of_eq rfl rfl rfl
  | removeFile nodeId inodeId version discId imageId stored => exact .of_eq rfl rfl rfl
  | requestRead nodeId inodeId discId imageId now answers => exact .of_eq rfl rfl rfl
  | readTask nodeId taskId offset size now stored deleted => exact .of_eq rfl rfl rfl
  | setArchives nodeId inodes => exact .of_eq rfl rfl rfl
  | setPaused nodeId paused => exact .of_eq rfl rfl rfl

theorem Sound.run_recedes (h : Sound s) (config : OpticalReadConfig) (events : List Event) :
    Recedes s (s.run config events) := by
  induction events generalizing s with
  | nil => exact .refl s
  | cons event events ih => exact (h.step_recedes config event).trans (ih (h.step config event))

/-! ## Closing -/

/-- Nothing refers to the preparation. -/
structure Idle (s : PreparedState) (p : Nat) : Prop where
  issued : p < s.nextPreparation
  unheld : (s.preparations p).held = false
  unread : handleCount p s.handles = 0

theorem Idle.mono (h : Idle s p) (hrecedes : Recedes s s') : Idle s' p :=
  ⟨h.issued.trans_le hrecedes.next, hrecedes.held p h.issued h.unheld,
    hrecedes.unread p h.issued h.unheld h.unread⟩

/-- The handles left by the loop over handles are of other sessions. -/
theorem foldl_dropHandle_lookup (sessionId : Nat) (entries : List (Σ _ : Nat, Nat))
    (hlookup : (entries.foldl (fun s entry =>
      if (s.preparations entry.2).request.sessionId = sessionId then
        s.dropHandle entry.1 entry.2 else s) s).handles.lookup handle = some q) :
    s.handles.lookup handle = some q ∧ ∀ entry ∈ entries, entry.1 = handle →
      (s.preparations entry.2).request.sessionId ≠ sessionId := by
  induction entries generalizing s with
  | nil => exact ⟨hlookup, fun _ hmem => absurd hmem List.not_mem_nil⟩
  | cons entry entries ih =>
      rw [List.foldl_cons] at hlookup
      obtain ⟨hleft, hothers⟩ := ih hlookup
      by_cases hsession : (s.preparations entry.2).request.sessionId = sessionId
      · rw [if_pos hsession] at hleft hothers
        have hne : handle ≠ entry.1 := by
          rintro rfl
          change (s.handles.erase entry.1).lookup entry.1 = some q at hleft
          rw [AList.lookup_erase] at hleft
          cases hleft
        change (s.handles.erase entry.1).lookup handle = some q at hleft
        rw [AList.lookup_erase_ne hne] at hleft
        refine ⟨hleft, fun other hmem heq => ?_⟩
        obtain rfl | hmem := List.mem_cons.mp hmem
        · exact absurd heq.symm hne
        · have hentry : SameTask (s.preparations entry.2)
              { s.preparations entry.2 with readers := (s.preparations entry.2).readers - 1 } :=
            ⟨rfl, rfl, rfl⟩
          have hsame := sameTask_update hentry other.2
          rw [← hsame.request]
          exact hothers other hmem heq
      · rw [if_neg hsession] at hleft hothers
        refine ⟨hleft, fun other hmem heq => ?_⟩
        obtain rfl | hmem := List.mem_cons.mp hmem
        · exact hsession
        · exact hothers other hmem heq

theorem dropHandles_unread (hsession : (s.preparations p).request.sessionId = sessionId) :
    handleCount p (s.dropHandles sessionId).handles = 0 := by
  refine TableSum.total_eq_zero_iff.mpr fun handle q hlookup => if_neg ?_
  rintro rfl
  obtain ⟨hold, hothers⟩ := foldl_dropHandle_lookup sessionId s.handles.entries hlookup
  exact hothers ⟨handle, q⟩ (AList.mem_lookup_iff.mp hold) rfl hsession

/-- The loop over requests reaches each request of the session. -/
theorem foldl_unhold_unheld (sessionId now : Nat) (stored : Nat → Bool)
    (entries : List (Σ _ : RequestKey, Nat))
    (hissued : ∀ entry ∈ entries, entry.2 < s.nextPreparation)
    {entry : Σ _ : RequestKey, Nat} (hmem : entry ∈ entries) (hsession : entry.1.1 = sessionId) :
    ((entries.foldl (fun s entry =>
      if entry.1.1 = sessionId then (s.unhold entry.2 now (stored entry.2)).2 else s) s).preparations
        entry.2).held = false := by
  induction entries generalizing s with
  | nil => exact absurd hmem List.not_mem_nil
  | cons head entries ih =>
      rw [List.foldl_cons]
      have hhead := hissued head List.mem_cons_self
      obtain rfl | hmem := List.mem_cons.mp hmem
      · rw [if_pos hsession]
        refine (foldl_recedes _ (fun s entry => ?_) entries _).held _ ?_
          (unhold_unheld _ now _ hhead)
        · split
          · exact unhold_recedes _ _ _ s
          · exact .refl s
        · rw [unhold_next]
          exact hhead
      · refine ih (fun other hother => ?_) hmem
        have hbefore := hissued other (List.mem_cons_of_mem _ hother)
        split
        · rw [unhold_next]
          exact hbefore
        · exact hbefore

theorem cleanup_handles (p now : Nat) (stored : Bool) (s : PreparedState) :
    (s.cleanup p now stored).2.handles = s.handles := by
  unfold PreparedState.cleanup
  dsimp only
  split
  · rfl
  · split
    · rfl
    · rfl

theorem unholdRequests_handles (sessionId now : Nat) (stored : Nat → Bool) (s : PreparedState) :
    (s.unholdRequests sessionId now stored).handles = s.handles := by
  unfold PreparedState.unholdRequests
  generalize s.requests.entries = entries
  induction entries generalizing s with
  | nil => rfl
  | cons entry entries ih =>
      rw [List.foldl_cons, ih]
      split
      · exact cleanup_handles entry.2 now (stored entry.2) _
      · rfl

/-- The task of a preparation without references goes, once the store answers. -/
theorem cleanup_removes (hheld : (s.preparations p).held = false)
    (hreaders : (s.preparations p).readers = 0) (now : Nat) :
    ((s.cleanup p now true).2.preparations p).removed = true := by
  unfold PreparedState.cleanup
  dsimp only
  split
  · rename_i hbusy
    obtain hbusy | hbusy | hremoved := hbusy
    · rw [hheld] at hbusy
      cases hbusy
    · exact absurd hreaders hbusy
    · exact hremoved
  · rw [if_pos (OpticalReadModel.releasePrepared_answered _ _)]
    change (update s.preparations p _ p).removed = true
    rw [update_self]

/-- What a closed stream leaves behind of its session. -/
theorem Sound.closed_idle (h : Sound s) {stream : Nat} {subscription : Subscription}
    (hstream : (s.subscriptions.entries.find? fun entry => entry.2.stream = stream) =
      some ⟨sessionId, subscription⟩)
    (hp : p < s.nextPreparation) (hsession : (s.preparations p).request.sessionId = sessionId)
    (now : Nat) (stored : Nat → Bool) : Idle (s.onClosed stream now stored) p := by
  obtain ⟨hdropped, hnext, _⟩ := Sound.foldl_dropHandle sessionId s.handles.entries
    s.handles.nodupKeys h fun _ hmem => AList.mem_lookup_iff.mpr hmem
  change Sound (s.dropHandles sessionId) at hdropped
  change (s.dropHandles sessionId).nextPreparation = s.nextPreparation at hnext
  have hrecedes := dropHandles_recedes sessionId s
  have hunread := dropHandles_unread hsession
  have hkey : ((s.dropHandles sessionId).preparations p).request.sessionId = sessionId := by
    rw [(hrecedes.same p hp).request]
    exact hsession
  have hp' : p < (s.dropHandles sessionId).nextPreparation := hnext ▸ hp
  have hunheld : (((s.dropHandles sessionId).unholdRequests sessionId now stored).preparations
      p).held = false := by
    cases hgone : ((s.dropHandles sessionId).preparations p).removed with
    | true =>
        exact (unholdRequests_recedes sessionId now stored _).held p hp' (hdropped.gone p hp' hgone).1
    | false =>
        have hrequest := (hdropped.agree p hp').mp (hdropped.live p hp' hgone).1
        exact foldl_unhold_unheld sessionId now stored (s.dropHandles sessionId).requests.entries
          (fun entry hmem => (hdropped.requests _ _ (AList.mem_lookup_iff.mpr hmem)).1)
          (AList.mem_lookup_iff.mp hrequest) hkey
  unfold PreparedState.onClosed
  rw [hstream]
  have hkept := unholdRequests_handles sessionId now stored (s.dropHandles sessionId)
  refine ⟨?_, hunheld, ?_⟩
  · exact hp'.trans_le (unholdRequests_recedes sessionId now stored _).next
  · change handleCount p ((s.dropHandles sessionId).unholdRequests sessionId now stored).handles = 0
    rw [hkept]
    exact hunread

/-- A turn of an idle preparation, with a store that answers. -/
theorem Sound.turn_removes (h : Sound s) (hidle : Idle s p) (config : OpticalReadConfig)
    (now : Nat) (available : Bool) :
    ((s.runTask config (s.preparations p).taskKey now available true).preparations p).removed =
      true := by
  unfold PreparedState.runTask
  split
  · rename_i hnone
    rw [← Bool.not_eq_false]
    intro hlive
    rw [(h.live p hidle.issued hlive).1] at hnone
    cases hnone
  · rename_i q htask
    obtain ⟨hq, hkey⟩ := h.tasks _ q htask
    obtain rfl := h.taskKeys q hq p hidle.issued hkey
    dsimp only
    split
    · rename_i hexpired
      rw [Bool.and_eq_true] at hexpired
      exact hexpired.1
    · rw [hidle.unheld]
      exact cleanup_removes hidle.unheld ((h.readers q hq).trans (by rw [hidle.unread]; rfl)) now

/-- Whatever happens after a stream was closed, the next turn of a task of its session with a
    store that answers leaves no handle, no reference and no task in the model. -/
theorem closed_sessions_drain (config : OpticalReadConfig) {models : Bytes → OpticalReadModel}
    (hissued : ∀ nodeId, (models nodeId).Issued) (before : List Event) {stream : Nat}
    {subscription : Subscription} :
    let s := run config { models := models } before
    (s.subscriptions.entries.find? fun entry => entry.2.stream = stream) =
      some ⟨sessionId, subscription⟩ →
    ∀ p < s.nextPreparation, (s.preparations p).request.sessionId = sessionId →
    ∀ closedAt stored later now available,
      let left := run config s (.close stream closedAt stored :: later ++
        [.turn (s.preparations p).taskKey now available true])
      handleCount p left.handles = 0 ∧ (left.preparations p).removed = true ∧
        (left.preparations p).held = false ∧
        (left.models (s.preparations p).nodeId).tasks.lookup (s.preparations p).taskId = none := by
  intro s hstream p hp hsession closedAt stored later now available
  have hsound : Sound s := (Sound.start hissued).run config before
  have hclosed := hsound.step config (.close stream closedAt stored)
  have hidle : Idle (s.step config (.close stream closedAt stored)) p :=
    hsound.closed_idle hstream hp hsession closedAt stored
  have hrecedes := (hsound.step_recedes config (.close stream closedAt stored)).trans
    (hclosed.run_recedes config later)
  have hlater := hclosed.run config later
  have hidle := hidle.mono (hclosed.run_recedes config later)
  have hsame := hrecedes.same p hp
  have hrun : run config s (.close stream closedAt stored :: later ++
      [.turn (s.preparations p).taskKey now available true]) =
      step config (run config (step config s (.close stream closedAt stored)) later)
        (.turn (s.preparations p).taskKey now available true) := by
    unfold run
    rw [List.cons_append, List.foldl_cons, List.foldl_append]
    rfl
  dsimp only
  rw [hrun]
  generalize run config (step config s (.close stream closedAt stored)) later = mid at *
  have hturned := hlater.turn_removes hidle config now available
  rw [hsame.taskKey] at hturned
  have hdone := hlater.step config (.turn (s.preparations p).taskKey now available true)
  have hafter := hlater.step_recedes config (.turn (s.preparations p).taskKey now available true)
  have hleft := hidle.mono hafter
  have hnone := (hdone.gone p hleft.issued hturned).2
  rw [(hafter.same p hidle.issued).nodeId, (hafter.same p hidle.issued).taskId, hsame.nodeId,
    hsame.taskId] at hnone
  exact ⟨hleft.unread, hturned, hleft.unheld, hnone⟩

/-- The sample session is closed while its handle is open. -/
theorem closed_sessions_drain_disconnected :
    let s := run sampleConfig { models := fun _ => {} } openedEvents
    let left := run sampleConfig s
      [.close 77 170 fun _ => true, .turn (s.preparations 0).taskKey 180 false true]
    handleCount 0 s.handles = 1 ∧ handleCount 0 left.handles = 0 ∧
      (left.preparations 0).removed = true := by
  have hissued : ∀ nodeId : Bytes, ({} : OpticalReadModel).Issued := fun _ _ _ hlookup => by
    cases hlookup
  have hdrained := @closed_sessions_drain 1 sampleConfig _ hissued openedEvents 77 ⟨[9], 77⟩ rfl 0
    (by decide) rfl 170 (fun _ => true) [] 180 false
  exact ⟨by decide, hdrained.1, hdrained.2.1⟩

end PreparedState

end Zb.Simulation
