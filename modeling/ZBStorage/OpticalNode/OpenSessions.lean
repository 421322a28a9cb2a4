-- SUMMARY: What keeps the file of an open read session, and how tasks of one inode that share it take it away.
import ZBStorage.OpticalNode.ReadSessions

/-!
# Open read sessions

References are counted by task, and the artifact of a task goes when the task is
released and its last session closed. So the file of an open session is safe from
its own task, but only from that one.
-/

namespace Zb.OpticalNode

open Bytes CallHistory TableSum
open ReadSessionTable (decide_changes)

/-! ## The invariant -/

namespace ReadSessions

/-- The task is ready, with this artifact. -/
def Ready (sessions : ReadSessions) (taskId : UInt64) (path : Bytes) : Prop :=
  ∃ task, sessions.tasks.lookup taskId = some task ∧ task.state = .READY ∧ task.filePath = path

/-- A task that is ready is released before anything happens to it. -/
structure Sound (sessions : ReadSessions) : Prop where
  table : sessions.table.Sound
  unused : ∀ id, sessions.nextTaskId ≤ id →
    sessions.tasks.lookup id = none ∧ id ∉ sessions.table.prepareReleased
  released : ∀ id ∈ sessions.table.prepareReleased, ∀ task, sessions.tasks.lookup id = some task →
    task.state ≠ .START
  extracted : ∀ id path, .extracted id path ∈ sessions.pending →
    path ≠ [] ∧ path ≠ ofAscii "none" ∧ (sessions.files.lookup path).isSome ∧
      ∃ task, sessions.tasks.lookup id = some task ∧ task.state = .START
  ready : ∀ id path, sessions.Ready id path → id ∉ sessions.table.artifactCleaned →
    path ≠ [] ∧ path ≠ ofAscii "none" ∧ (sessions.files.lookup path).isSome
  opening : ∀ id path fileSize, .opening id path fileSize ∈ sessions.pending →
    id ∈ sessions.table.prepareReleased ∨ sessions.Ready id path
  leaving : ∀ id, .releasing id ∈ sessions.pending ∨ .expiring id ∈ sessions.pending →
    id ∈ sessions.table.prepareReleased ∨ ∃ path, sessions.Ready id path
  cleaning : ∀ id, .cleaning id ∈ sessions.pending ∨ .finishing id ∈ sessions.pending →
    id ∈ sessions.table.artifactCleaned
  session : ∀ readHandle session, sessions.table.sessions.lookup readHandle = some session →
    sessions.Ready session.taskId session.artifactPath

/-- Nobody's artifact is written or removed in another task's name, and the numbers do
    not run out. -/
def Apart (readCacheDir : Bytes) (sessions : ReadSessions) : SessionCall → Prop
  | .submitPrepareTask _ _ => sessions.nextTaskId ≠ 0xffffffffffffffff
  | .readFile taskId fileName _ => ∀ task, sessions.tasks.lookup taskId = some task →
      ∀ readHandle session, sessions.table.sessions.lookup readHandle = some session →
        session.artifactPath ≠ artifactPath readCacheDir task.inodeId fileName
  | .acquire taskId _ _ => sessions.table.readRefs taskId ≠ 0xffffffff ∧
      sessions.table.nextReadHandle ≠ 0xffffffffffffffff
  | .unlink taskId => ∀ task, sessions.tasks.lookup taskId = some task →
      (∀ id, sessions.Ready id task.filePath → id ≠ taskId →
        id ∈ sessions.table.artifactCleaned) ∧
      ∀ id, .extracted id task.filePath ∈ sessions.pending → id = taskId
  | _ => True

/-- The entry is a ready task with this artifact. -/
def readyAt (path : Bytes) (entry : Sigma fun _ : UInt64 => ReadTask) : Bool :=
  entry.2.state = .READY && entry.2.filePath = path

def extracts (path : Bytes) : Pending → Option UInt64
  | .extracted id written => if written = path then some id else none
  | _ => none

theorem apart_unlink_iff (readCacheDir : Bytes) (sessions : ReadSessions) (taskId : UInt64) :
    Apart readCacheDir sessions (.unlink taskId) ↔
      ∀ task ∈ sessions.tasks.lookup taskId,
        (∀ entry ∈ sessions.tasks.entries, readyAt task.filePath entry = true →
          entry.1 ≠ taskId → entry.1 ∈ sessions.table.artifactCleaned) ∧
        ∀ p ∈ sessions.pending, ∀ id ∈ extracts task.filePath p, id = taskId := by
  constructor
  · intro h task hlookup
    obtain ⟨hready, hextracted⟩ := h task hlookup
    refine ⟨fun entry hmem hat => ?_, fun p hmem id hid => ?_⟩
    · simp only [readyAt, Bool.and_eq_true, decide_eq_true_eq] at hat
      exact hready entry.1 ⟨entry.2, AList.mem_lookup_iff.mpr hmem, hat⟩
    · cases p with
      | extracted written path =>
          simp only [extracts, Option.mem_def] at hid
          split at hid
          · rename_i hpath
            cases hid
            exact hextracted _ (hpath ▸ hmem)
          · cases hid
      | _ => cases hid
  · intro h task hlookup
    obtain ⟨hready, hextracted⟩ := h task hlookup
    refine ⟨?_, fun id hmem => hextracted _ hmem id ?_⟩
    · rintro id ⟨task', hfound, hat⟩
      apply hready ⟨id, task'⟩ (AList.mem_lookup_iff.mp hfound)
      simpa only [readyAt, Bool.and_eq_true, decide_eq_true_eq] using hat
    · simp only [extracts, if_true, Option.mem_def]

instance (readCacheDir : Bytes) (sessions : ReadSessions) :
    (call : SessionCall) → Decidable (Apart readCacheDir sessions call)
  | .submitPrepareTask _ _ => inferInstanceAs (Decidable (_ ≠ _))
  | .readFile taskId fileName _ =>
      decidable_of_iff (∀ task ∈ sessions.tasks.lookup taskId,
          ∀ entry ∈ sessions.table.sessions.entries,
            entry.2.artifactPath ≠ artifactPath readCacheDir task.inodeId fileName)
        ⟨fun h task hlookup _ session hopen =>
            h task hlookup ⟨_, session⟩ (AList.mem_lookup_iff.mp hopen),
          fun h task hlookup entry hmem =>
            h task hlookup entry.1 entry.2 (AList.mem_lookup_iff.mpr hmem)⟩
  | .acquire _ _ _ => inferInstanceAs (Decidable (_ ∧ _))
  | .unlink taskId => decidable_of_iff _ (apart_unlink_iff readCacheDir sessions taskId).symm
  | .publish _ _ | .markTaskFailed _ | .lookToOpen _ | .releaseReadSession _ | .lookToRelease _
  | .releasePrepare _ | .lookToExpire _ | .expireIfIdle _ | .finish _ | .erase _ =>
      inferInstanceAs (Decidable True)

variable {sessions sessions' : ReadSessions} {taskId id : UInt64} {task : ReadTask} {path : Bytes}
  {readCacheDir : Bytes} {call : SessionCall}

/-- Two ready tasks of one id are one. -/
theorem Ready.path_eq (h : sessions.Ready id path)
    (hlookup : sessions.tasks.lookup id = some task) : task.state = .READY ∧ task.filePath = path := by
  obtain ⟨task', hlookup', hready, hpath⟩ := h
  cases hlookup.symm.trans hlookup'
  exact ⟨hready, hpath⟩

/-- A step of the table for a task that is released or ready. -/
theorem Sound.table_step {table : ReadSessionTable} {pending : List Pending} (h : sessions.Sound)
    (htable : table.Sound)
    (hreleased : ∀ id ∈ sessions.table.prepareReleased, id ∈ table.prepareReleased)
    (hnew : ∀ id ∈ table.prepareReleased, id ∈ sessions.table.prepareReleased ∨
      ∃ path, sessions.Ready id path)
    (hcleaned : ∀ id ∈ sessions.table.artifactCleaned, id ∈ table.artifactCleaned)
    (hsession : ∀ readHandle session, table.sessions.lookup readHandle = some session →
      sessions.Ready session.taskId session.artifactPath)
    (hpending : ∀ p ∈ pending, p ∈ sessions.pending ∨
      ∃ id, p = .cleaning id ∧ id ∈ table.artifactCleaned) :
    { sessions with table := table, pending := pending }.Sound where
  table := htable
  unused id hid := by
    obtain ⟨hnone, hout⟩ := h.unused id hid
    refine ⟨hnone, fun hmem => ?_⟩
    rcases hnew id hmem with hold | ⟨path, task, hlookup, -⟩
    · exact hout hold
    · rw [hnone] at hlookup
      cases hlookup
  released id hmem task hlookup hstart := by
    rcases hnew id hmem with hold | ⟨path, hready⟩
    · exact h.released id hold task hlookup hstart
    · rw [(hready.path_eq hlookup).1] at hstart
      cases hstart
  extracted id path hmem := by
    rcases hpending _ hmem with hold | ⟨_, heq, -⟩
    · exact h.extracted id path hold
    · cases heq
  ready id path hready hout := h.ready id path hready fun hold => hout (hcleaned id hold)
  opening id path fileSize hmem := by
    rcases hpending _ hmem with hold | ⟨_, heq, -⟩
    · exact (h.opening id path fileSize hold).imp_left (hreleased id)
    · cases heq
  leaving id hmem := by
    have hold : .releasing id ∈ sessions.pending ∨ .expiring id ∈ sessions.pending := by
      rcases hmem with hmem | hmem
      · rcases hpending _ hmem with hold | ⟨_, heq, -⟩
        · exact .inl hold
        · cases heq
      · rcases hpending _ hmem with hold | ⟨_, heq, -⟩
        · exact .inr hold
        · cases heq
    exact (h.leaving id hold).imp_left (hreleased id)
  cleaning id hmem := by
    have hmem' : (.cleaning id ∈ sessions.pending ∨ .finishing id ∈ sessions.pending) ∨
        id ∈ table.artifactCleaned := by
      rcases hmem with hmem | hmem
      · rcases hpending _ hmem with hold | ⟨_, heq, hin⟩
        · exact .inl (.inl hold)
        · cases heq
          exact .inr hin
      · rcases hpending _ hmem with hold | ⟨_, heq, -⟩
        · exact .inl (.inr hold)
        · cases heq
    rcases hmem' with hold | hin
    · exact hcleaned id (h.cleaning id hold)
    · exact hin
  session := hsession

/-- A request that has found a task ready. -/
theorem Sound.look {pending : Pending} (h : sessions.Sound)
    (hlook : ∀ id path, pending ≠ .extracted id path)
    (hopening : ∀ id path fileSize, pending = .opening id path fileSize → sessions.Ready id path)
    (hleaving : ∀ id, pending = .releasing id ∨ pending = .expiring id →
      ∃ path, sessions.Ready id path)
    (hcleaning : ∀ id, pending ≠ .cleaning id ∧ pending ≠ .finishing id) :
    { sessions with pending := pending :: sessions.pending }.Sound where
  table := h.table
  unused := h.unused
  released := h.released
  extracted id path hmem := by
    rcases List.mem_cons.mp hmem with heq | hmem
    · exact absurd heq.symm (hlook id path)
    · exact h.extracted id path hmem
  ready := h.ready
  opening id path fileSize hmem := by
    rcases List.mem_cons.mp hmem with heq | hmem
    · exact .inr (hopening id path fileSize heq.symm)
    · exact h.opening id path fileSize hmem
  leaving id hmem := by
    rcases hmem with hmem | hmem
    · rcases List.mem_cons.mp hmem with heq | hmem
      · exact .inr (hleaving id (.inl heq.symm))
      · exact h.leaving id (.inl hmem)
    · rcases List.mem_cons.mp hmem with heq | hmem
      · exact .inr (hleaving id (.inr heq.symm))
      · exact h.leaving id (.inr hmem)
  cleaning id hmem := by
    rcases hmem with hmem | hmem
    · rcases List.mem_cons.mp hmem with heq | hmem
      · exact absurd heq.symm (hcleaning id).1
      · exact h.cleaning id (.inl hmem)
    · rcases List.mem_cons.mp hmem with heq | hmem
      · exact absurd heq.symm (hcleaning id).2
      · exact h.cleaning id (.inr hmem)
  session := h.session

/-- A step of one task, which stays ready unless it has been cleaned up. -/
theorem Sound.change {tasks : AList fun _ : UInt64 => ReadTask} {pending : List Pending}
    (h : sessions.Sound) (hlookup : sessions.tasks.lookup taskId = some task)
    (hother : ∀ id, id ≠ taskId → tasks.lookup id = sessions.tasks.lookup id)
    (hpending : ∀ p ∈ pending, p ∈ sessions.pending ∧ ∀ path, p ≠ .extracted taskId path)
    (hstart : ∀ task, tasks.lookup taskId = some task → task.state ≠ .START)
    (hready : ∀ task, tasks.lookup taskId = some task → task.state = .READY →
      task.filePath ≠ [] ∧ task.filePath ≠ ofAscii "none" ∧
        (sessions.files.lookup task.filePath).isSome)
    (hkeep : task.state = .READY → taskId ∈ sessions.table.artifactCleaned) :
    { sessions with tasks := tasks, pending := pending }.Sound := by
  have hsame : ∀ id path, id ≠ taskId → sessions.Ready id path →
      { sessions with tasks := tasks, pending := pending }.Ready id path := by
    rintro id path hid ⟨task, hfound, hstate⟩
    exact ⟨task, (hother id hid).trans hfound, hstate⟩
  -- a task that was ready is cleaned up, or another one
  have hstays : ∀ id path, sessions.Ready id path → id ∈ sessions.table.artifactCleaned ∨
      { sessions with tasks := tasks, pending := pending }.Ready id path := by
    intro id path hwas
    by_cases hid : id = taskId
    · subst hid
      exact .inl (hkeep (hwas.path_eq hlookup).1)
    · exact .inr (hsame id path hid hwas)
  constructor
  · exact h.table
  · intro id hid
    have hne : id ≠ taskId := by
      rintro rfl
      rw [(h.unused id hid).1] at hlookup
      cases hlookup
    exact ⟨(hother id hne).trans (h.unused id hid).1, (h.unused id hid).2⟩
  · intro id hmem task' hfound
    by_cases hid : id = taskId
    · subst hid
      exact hstart task' hfound
    · exact h.released id hmem task' ((hother id hid).symm.trans hfound)
  · intro id path hmem
    obtain ⟨hold, hnot⟩ := hpending _ hmem
    obtain ⟨hnonempty, hnone, hfile, task', hfound, hstate⟩ := h.extracted id path hold
    have hid : id ≠ taskId := by
      rintro rfl
      exact hnot path rfl
    exact ⟨hnonempty, hnone, hfile, task', (hother id hid).trans hfound, hstate⟩
  · rintro id path ⟨task', hfound, hstate, rfl⟩ hout
    by_cases hid : id = taskId
    · subst hid
      exact hready task' hfound hstate
    · exact h.ready id task'.filePath ⟨task', (hother id hid).symm.trans hfound, hstate, rfl⟩ hout
  · intro id path fileSize hmem
    rcases h.opening id path fileSize (hpending _ hmem).1 with hreleased | hwas
    · exact .inl hreleased
    · exact (hstays id path hwas).imp_left (h.table.released id)
  · intro id hmem
    have hold : .releasing id ∈ sessions.pending ∨ .expiring id ∈ sessions.pending :=
      hmem.imp (fun hin => (hpending _ hin).1) fun hin => (hpending _ hin).1
    rcases h.leaving id hold with hreleased | ⟨path, hwas⟩
    · exact .inl hreleased
    · exact (hstays id path hwas).imp (h.table.released id) fun hready => ⟨path, hready⟩
  · intro id hmem
    exact h.cleaning id
      (hmem.imp (fun hin => (hpending _ hin).1) fun hin => (hpending _ hin).1)
  · intro readHandle session hfound
    exact (hstays _ _ (h.session readHandle session hfound)).resolve_left
      (h.table.kept readHandle session hfound)

/-- A step of the files that leaves what is extracted or ready. -/
theorem Sound.files {files : AList fun _ : Bytes => Bytes} {pending : List Pending}
    (h : sessions.Sound)
    (hextracted : ∀ id path, .extracted id path ∈ pending → path ≠ [] ∧ path ≠ ofAscii "none" ∧
      (files.lookup path).isSome ∧
        ∃ task, sessions.tasks.lookup id = some task ∧ task.state = .START)
    (hready : ∀ id path, sessions.Ready id path → id ∉ sessions.table.artifactCleaned →
      (files.lookup path).isSome)
    (hpending : ∀ p ∈ pending, p ∈ sessions.pending ∨ (∃ id path, p = .extracted id path) ∨
      ∃ id, p = .finishing id ∧ id ∈ sessions.table.artifactCleaned) :
    { sessions with files := files, pending := pending }.Sound where
  table := h.table
  unused := h.unused
  released := h.released
  extracted := hextracted
  ready id path hwas hout := by
    obtain ⟨hnonempty, hnone, -⟩ := h.ready id path hwas hout
    exact ⟨hnonempty, hnone, hready id path hwas hout⟩
  opening id path fileSize hmem := by
    rcases hpending _ hmem with hold | ⟨_, _, heq⟩ | ⟨_, heq, -⟩
    · exact h.opening id path fileSize hold
    · cases heq
    · cases heq
  leaving id hmem := by
    apply h.leaving
    refine hmem.imp (fun hin => ?_) fun hin => ?_
    · rcases hpending _ hin with hold | ⟨_, _, heq⟩ | ⟨_, heq, -⟩
      · exact hold
      · cases heq
      · cases heq
    · rcases hpending _ hin with hold | ⟨_, _, heq⟩ | ⟨_, heq, -⟩
      · exact hold
      · cases heq
      · cases heq
  cleaning id hmem := by
    rcases hmem with hin | hin
    · rcases hpending _ hin with hold | ⟨_, _, heq⟩ | ⟨_, heq, -⟩
      · exact h.cleaning id (.inl hold)
      · cases heq
      · cases heq
    · rcases hpending _ hin with hold | ⟨_, _, heq⟩ | ⟨_, heq, hcleaned⟩
      · exact h.cleaning id (.inr hold)
      · cases heq
      · cases heq
        exact hcleaned
  session := h.session

theorem mem_cleanup {decision : Bool} {p : Pending} (h : p ∈ cleanup decision taskId) :
    decision = true ∧ p = .cleaning taskId := by
  unfold cleanup at h
  split at h
  · rename_i hdecision
    exact ⟨hdecision, List.mem_singleton.mp h⟩
  · cases h

theorem mem_extractionOver {p : Pending}
    (h : p ∈ sessions.pending.filter fun p => !p.isExtracted taskId) :
    p ∈ sessions.pending ∧ ∀ path, p ≠ .extracted taskId path := by
  obtain ⟨hmem, hnot⟩ := List.mem_filter.mp h
  refine ⟨hmem, ?_⟩
  rintro path rfl
  simp [Pending.isExtracted] at hnot

theorem artifactPath_ne (readCacheDir : Bytes) (inodeId : UInt64) (fileName : Bytes) :
    artifactPath readCacheDir inodeId fileName ≠ [] ∧
      artifactPath readCacheDir inodeId fileName ≠ ofAscii "none" := by
  have hlong : 5 ≤ (artifactPath readCacheDir inodeId fileName).length := by
    have hfile : (ofAscii "file_").length = 5 := by decide
    simp only [artifactPath, List.length_append, hfile]
    omega
  constructor <;> intro heq <;> rw [heq] at hlong <;> revert hlong <;> decide

/-- Giving up the reference of a task that is ready. -/
theorem Sound.mark_step (h : sessions.Sound)
    (hready : taskId ∈ sessions.table.prepareReleased ∨ ∃ path, sessions.Ready taskId path)
    (done : Pending) :
    ({ sessions with table := (sessions.table.releasePrepare taskId).2 }.after done
      (cleanup (sessions.table.releasePrepare taskId).1 taskId)).Sound := by
  obtain ⟨hreleased, hsessions, hcleaned, hdecided⟩ := decide_changes
    { sessions.table with prepareReleased := taskId :: sessions.table.prepareReleased } taskId
  refine h.table_step h.table.releasePrepare (fun id hmem => ?_) (fun id hmem => ?_) hcleaned ?_ ?_
  · unfold ReadSessionTable.releasePrepare
    rw [hreleased]
    exact List.mem_cons_of_mem _ hmem
  · unfold ReadSessionTable.releasePrepare at hmem
    rw [hreleased] at hmem
    rcases List.mem_cons.mp hmem with rfl | hmem
    · exact hready
    · exact .inl hmem
  · intro readHandle session hlookup
    unfold ReadSessionTable.releasePrepare at hlookup
    rw [hsessions] at hlookup
    exact h.session readHandle session hlookup
  · intro p hmem
    rcases List.mem_append.mp hmem with hnew | hold
    · obtain ⟨hdecision, rfl⟩ := mem_cleanup hnew
      exact .inr ⟨taskId, rfl, hdecided hdecision⟩
    · exact .inl (List.mem_of_mem_erase hold)

theorem Sound.submitPrepareTask (h : sessions.Sound) {inodeId expectedFileSize : UInt64}
    (hok : sessions.nextTaskId ≠ 0xffffffffffffffff) :
    { sessions with
      tasks := sessions.tasks.insert sessions.nextTaskId
        { inodeId := inodeId, expectedFileSize := expectedFileSize }
      nextTaskId := sessions.nextTaskId + 1 }.Sound := by
  obtain ⟨hnone, hout⟩ := h.unused sessions.nextTaskId (Std.le_refl _)
  have hnext : (sessions.nextTaskId + 1).toNat = sessions.nextTaskId.toNat + 1 := by
    have hne : sessions.nextTaskId.toNat ≠ 0xffffffffffffffff := fun heq =>
      hok (UInt64.toNat_inj.mp heq)
    have hlt := sessions.nextTaskId.toNat_lt
    rw [UInt64.toNat_add, UInt64.toNat_one, Nat.mod_eq_of_lt (by omega)]
  -- a task that is there is not the new one
  have hold : ∀ id task, sessions.tasks.lookup id = some task →
      (sessions.tasks.insert sessions.nextTaskId
        { inodeId := inodeId, expectedFileSize := expectedFileSize }).lookup id = some task := by
    intro id task hlookup
    have hne : id ≠ sessions.nextTaskId := by
      rintro rfl
      rw [hnone] at hlookup
      cases hlookup
    rw [AList.lookup_insert_ne hne, hlookup]
  have hready : ∀ id path, sessions.Ready id path →
      { sessions with
        tasks := sessions.tasks.insert sessions.nextTaskId
          { inodeId := inodeId, expectedFileSize := expectedFileSize }
        nextTaskId := sessions.nextTaskId + 1 }.Ready id path := by
    rintro id path ⟨task, hlookup, hstate⟩
    exact ⟨task, hold id task hlookup, hstate⟩
  have hback : ∀ id task, (sessions.tasks.insert sessions.nextTaskId
      { inodeId := inodeId, expectedFileSize := expectedFileSize }).lookup id = some task →
      sessions.tasks.lookup id = some task ∨ id = sessions.nextTaskId ∧ task.state = .START := by
    intro id task hlookup
    by_cases hid : id = sessions.nextTaskId
    · subst hid
      rw [AList.lookup_insert] at hlookup
      cases hlookup
      exact .inr ⟨rfl, rfl⟩
    · rw [AList.lookup_insert_ne hid] at hlookup
      exact .inl hlookup
  constructor
  · exact h.table
  · intro id hid
    rw [UInt64.le_iff_toNat_le, hnext] at hid
    have hle : sessions.nextTaskId ≤ id := by
      rw [UInt64.le_iff_toNat_le]
      omega
    have hne : id ≠ sessions.nextTaskId := by
      rintro rfl
      omega
    obtain ⟨hnone', hout'⟩ := h.unused id hle
    exact ⟨(AList.lookup_insert_ne hne).trans hnone', hout'⟩
  · intro id hmem task hlookup
    rcases hback id task hlookup with hlookup | ⟨rfl, -⟩
    · exact h.released id hmem task hlookup
    · exact absurd hmem hout
  · intro id path hmem
    obtain ⟨hnonempty, hnone', hfile, task, hlookup, hstate⟩ := h.extracted id path hmem
    exact ⟨hnonempty, hnone', hfile, task, hold id task hlookup, hstate⟩
  · rintro id path ⟨task, hlookup, hstate, hpath⟩ hcleaned
    rcases hback id task hlookup with hlookup | ⟨-, hstart⟩
    · exact h.ready id path ⟨task, hlookup, hstate, hpath⟩ hcleaned
    · rw [hstate] at hstart
      cases hstart
  · intro id path fileSize hmem
    exact (h.opening id path fileSize hmem).imp_right (hready id path)
  · intro id hmem
    exact (h.leaving id hmem).imp_right fun ⟨path, hwas⟩ => ⟨path, hready id path hwas⟩
  · exact h.cleaning
  · intro readHandle session hlookup
    exact hready _ _ (h.session readHandle session hlookup)

theorem Sound.step (h : sessions.Sound) (hok : Apart readCacheDir sessions call)
    (hserve : sessions.Serve readCacheDir call sessions') : sessions'.Sound := by
  cases call with
  | submitPrepareTask inodeId expectedFileSize =>
      cases hserve
      exact h.submitPrepareTask hok
  | readFile taskId fileName contents =>
      simp only [Serve, serve] at hserve
      split at hserve
      · cases hserve
      rename_i task hlookup
      split at hserve
      · cases hserve
      rename_i hguard
      rw [not_not] at hguard
      cases hserve
      obtain ⟨hnonempty, hnone⟩ := artifactPath_ne readCacheDir task.inodeId fileName
      have hfiles : ∀ path, (sessions.files.lookup path).isSome →
          ((sessions.files.insert (artifactPath readCacheDir task.inodeId fileName)
            contents).lookup path).isSome := by
        intro path hfile
        by_cases hpath : path = artifactPath readCacheDir task.inodeId fileName
        · rw [hpath, AList.lookup_insert]
          rfl
        · rw [AList.lookup_insert_ne hpath]
          exact hfile
      refine h.files (fun id path hmem => ?_) (fun id path hready hout => ?_) fun p hmem => ?_
      · rcases List.mem_cons.mp hmem with heq | hmem
        · cases heq
          refine ⟨hnonempty, hnone, ?_, task, hlookup, hguard⟩
          rw [AList.lookup_insert]
          rfl
        · obtain ⟨hnonempty', hnone', hfile, hstart⟩ := h.extracted id path hmem
          exact ⟨hnonempty', hnone', hfiles path hfile, hstart⟩
      · exact hfiles path (h.ready id path hready hout).2.2
      · rcases List.mem_cons.mp hmem with rfl | hmem
        · exact .inr (.inl ⟨_, _, rfl⟩)
        · exact .inl hmem
  | publish taskId path =>
      simp only [Serve, serve] at hserve
      split at hserve
      · cases hserve
      rename_i task hlookup
      split at hserve
      · cases hserve
      rename_i hmem
      rw [not_not] at hmem
      cases hserve
      obtain ⟨hnonempty, hnone, hfile, task', hfound, hstart⟩ := h.extracted taskId path hmem
      cases hlookup.symm.trans hfound
      refine h.change hlookup (fun id hid => AList.lookup_insert_ne hid)
        (fun p hp => mem_extractionOver hp) ?_ ?_ fun hready => ?_
      · intro task hlookup'
        cases (AList.lookup_insert _).symm.trans hlookup'
        exact fun hstart => nomatch hstart
      · intro task hlookup' _
        cases (AList.lookup_insert _).symm.trans hlookup'
        exact ⟨hnonempty, hnone, hfile⟩
      · rw [hstart] at hready
        cases hready
  | markTaskFailed taskId =>
      simp only [Serve, serve] at hserve
      split at hserve
      · cases hserve
      rename_i task hlookup
      split at hserve
      · cases hserve
      rename_i hstart
      rw [not_not] at hstart
      cases hserve
      refine h.change hlookup (fun id hid => AList.lookup_insert_ne hid)
        (fun p hp => mem_extractionOver hp) ?_ ?_ fun hready => ?_
      · intro task hlookup'
        cases (AList.lookup_insert _).symm.trans hlookup'
        exact fun hstart => nomatch hstart
      · intro task hlookup' hready
        cases (AList.lookup_insert _).symm.trans hlookup'
        cases hready
      · rw [hstart] at hready
        cases hready
  | lookToOpen taskId =>
      simp only [Serve, serve] at hserve
      split at hserve
      · cases hserve
      rename_i task hlookup
      split at hserve
      · cases hserve
      rename_i hready
      rw [not_not] at hready
      cases hserve
      refine h.look (fun _ _ heq => nomatch heq) (fun id path fileSize heq => ?_)
        (fun id hor => ?_) fun id => ⟨(fun heq => nomatch heq), (fun heq => nomatch heq)⟩
      · cases heq
        exact ⟨task, hlookup, hready, rfl⟩
      · rcases hor with heq | heq <;> cases heq
  | acquire taskId path fileSize =>
      simp only [Serve, serve] at hserve
      split at hserve
      · cases hserve
      rename_i hmem
      rw [not_not] at hmem
      cases hserve
      have hopening := h.opening taskId path fileSize hmem
      have htable := h.table.acquire path fileSize kMaxReadBytes hok.1 hok.2
      refine h.table_step htable ?_ ?_ ?_ ?_ fun p hp => .inl (List.mem_of_mem_erase hp)
      all_goals unfold ReadSessionTable.acquire
      · split <;> [skip; split] <;> exact fun _ hin => hin
      · split <;> [skip; split] <;> exact fun _ hin => .inl hin
      · split <;> [skip; split] <;> exact fun _ hin => hin
      · intro readHandle session
        split
        · exact h.session readHandle session
        split
        · exact h.session readHandle session
        rename_i hunreleased
        intro hlookup
        by_cases hhandle : readHandle = sessions.table.nextReadHandle
        · subst hhandle
          rw [AList.lookup_insert] at hlookup
          cases hlookup
          exact hopening.resolve_left hunreleased
        · rw [AList.lookup_insert_ne hhandle] at hlookup
          exact h.session readHandle session hlookup
  | releaseReadSession readHandle =>
      cases hserve
      obtain ⟨hreleased, hcleaned, hsessions, hdecided⟩ :=
        sessions.table.release_changes readHandle
      refine h.table_step h.table.release ?_ ?_ hcleaned ?_ ?_
      · intro id hmem
        rw [hreleased]
        exact hmem
      · intro id hmem
        rw [hreleased] at hmem
        exact .inl hmem
      · intro handle session hlookup
        rw [hsessions] at hlookup
        by_cases hhandle : handle = readHandle
        · subst hhandle
          rw [AList.lookup_erase] at hlookup
          cases hlookup
        · rw [AList.lookup_erase_ne hhandle] at hlookup
          exact h.session handle session hlookup
      · intro p hmem
        rcases List.mem_append.mp hmem with hnew | hold
        · split at hnew
          · cases hnew
          · rename_i id cleanable heq
            obtain ⟨rfl, rfl⟩ := mem_cleanup hnew
            exact .inr ⟨id, rfl, hdecided id heq⟩
        · exact .inl hold
  | lookToRelease taskId =>
      simp only [Serve, serve] at hserve
      split at hserve
      · cases hserve
      rename_i task hlookup
      split at hserve
      · cases hserve
      rename_i hready
      rw [not_not] at hready
      cases hserve
      refine h.look (fun _ _ heq => nomatch heq) (fun id path fileSize heq => nomatch heq)
        (fun id hor => ?_) fun id => ⟨(fun heq => nomatch heq), (fun heq => nomatch heq)⟩
      rcases hor with heq | heq
      · cases heq
        exact ⟨_, task, hlookup, hready, rfl⟩
      · cases heq
  | releasePrepare taskId =>
      simp only [Serve, serve] at hserve
      split at hserve
      · cases hserve
      rename_i hmem
      rw [not_not] at hmem
      cases hserve
      exact h.mark_step (h.leaving taskId (.inl hmem)) (.releasing taskId)
  | lookToExpire taskId =>
      simp only [Serve, serve] at hserve
      split at hserve
      · cases hserve
      rename_i task hlookup
      split at hserve
      · cases hserve
      rename_i hready
      rw [not_not] at hready
      cases hserve
      refine h.look (fun _ _ heq => nomatch heq) (fun id path fileSize heq => nomatch heq)
        (fun id hor => ?_) fun id => ⟨(fun heq => nomatch heq), (fun heq => nomatch heq)⟩
      rcases hor with heq | heq
      · cases heq
      · cases heq
        exact ⟨_, task, hlookup, hready, rfl⟩
  | expireIfIdle taskId =>
      simp only [Serve, serve] at hserve
      split at hserve
      · cases hserve
      rename_i hmem
      rw [not_not] at hmem
      cases hserve
      unfold ReadSessionTable.expireIfIdle
      split
      · refine h.table_step h.table (fun _ hin => hin) (fun _ hin => .inl hin) (fun _ hin => hin)
          h.session fun p hp => .inl ?_
        exact List.mem_of_mem_erase hp
      · exact h.mark_step (h.leaving taskId (.inr hmem)) (.expiring taskId)
  | unlink taskId =>
      simp only [Serve, serve] at hserve
      split at hserve
      · cases hserve
      rename_i hmem
      rw [not_not] at hmem
      have hcleaned := h.cleaning taskId (.inl hmem)
      have hnext : ∀ p ∈ [Pending.finishing taskId] ++ sessions.pending.erase (.cleaning taskId),
          p ∈ sessions.pending ∨ (∃ id path, p = .extracted id path) ∨
            ∃ id, p = .finishing id ∧ id ∈ sessions.table.artifactCleaned := by
        intro p hp
        rcases List.mem_append.mp hp with hp | hp
        · exact .inr (.inr ⟨taskId, List.mem_singleton.mp hp, hcleaned⟩)
        · exact .inl (List.mem_of_mem_erase hp)
      split at hserve
      · cases hserve
        refine h.files (fun id path hp => h.extracted id path (List.mem_of_mem_erase hp))
          (fun id path hready hout => (h.ready id path hready hout).2.2) fun p hp => .inl ?_
        exact List.mem_of_mem_erase hp
      rename_i task hlookup
      cases hserve
      obtain ⟨hready, hextracted⟩ := hok task hlookup
      -- the artifact is nobody else's
      have hfiles : ∀ path, path ≠ task.filePath → (sessions.files.lookup path).isSome →
          ((if task.filePath = [] ∨ task.filePath = ofAscii "none" then sessions.files
            else sessions.files.erase task.filePath).lookup path).isSome := by
        intro path hpath hfile
        split
        · exact hfile
        · rw [AList.lookup_erase_ne hpath]
          exact hfile
      refine h.files (fun id path hp => ?_) (fun id path hwas hout => ?_) hnext
      · have hold : .extracted id path ∈ sessions.pending := by
          rcases List.mem_append.mp hp with hp | hp
          · cases List.mem_singleton.mp hp
          · exact List.mem_of_mem_erase hp
        obtain ⟨hnonempty, hnone, hfile, task', hfound, hstart⟩ := h.extracted id path hold
        refine ⟨hnonempty, hnone, hfiles path ?_ hfile, task', hfound, hstart⟩
        rintro rfl
        obtain rfl := hextracted id hold
        exact h.released id (h.table.released id hcleaned) task' hfound hstart
      · refine hfiles path ?_ (h.ready id path hwas hout).2.2
        rintro rfl
        by_cases hid : id = taskId
        · subst hid
          exact hout hcleaned
        · exact hout (hready id hwas hid)
  | finish taskId =>
      simp only [Serve, serve] at hserve
      split at hserve
      · cases hserve
      rename_i hmem
      rw [not_not] at hmem
      have hcleaned := h.cleaning taskId (.inr hmem)
      split at hserve
      · cases hserve
        refine h.files (fun id path hp => h.extracted id path (List.mem_of_mem_erase hp))
          (fun id path hready hout => (h.ready id path hready hout).2.2) fun p hp => .inl ?_
        exact List.mem_of_mem_erase hp
      rename_i task hlookup
      cases hserve
      refine h.change hlookup (fun id hid => AList.lookup_insert_ne hid) (fun p hp => ?_) ?_ ?_
        fun _ => hcleaned
      · have hold := List.mem_of_mem_erase hp
        refine ⟨hold, ?_⟩
        rintro path rfl
        obtain ⟨-, -, -, task', hfound, hstart⟩ := h.extracted taskId path hold
        exact h.released taskId (h.table.released taskId hcleaned) task' hfound hstart
      · intro task hlookup'
        cases (AList.lookup_insert _).symm.trans hlookup'
        exact fun hstart => nomatch hstart
      · intro task hlookup' hready
        cases (AList.lookup_insert _).symm.trans hlookup'
        cases hready
  | erase taskId =>
      simp only [Serve, serve] at hserve
      split at hserve
      · cases hserve
      rename_i task hlookup
      split at hserve
      · cases hserve
      rename_i hfinish
      rw [not_not] at hfinish
      cases hserve
      refine h.change hlookup (fun id hid => AList.lookup_erase_ne hid) (fun p hp => ⟨hp, ?_⟩) ?_ ?_
        fun hready => ?_
      · rintro path rfl
        obtain ⟨-, -, -, task', hfound, hstart⟩ := h.extracted taskId path hp
        cases hlookup.symm.trans hfound
        rw [hfinish] at hstart
        cases hstart
      · intro task hlookup'
        rw [AList.lookup_erase] at hlookup'
        cases hlookup'
      · intro task hlookup'
        rw [AList.lookup_erase] at hlookup'
        cases hlookup'
      · rw [hfinish] at hready
        cases hready

theorem Sound.initial : ({} : ReadSessions).Sound where
  table :=
    { refs := fun _ => rfl
      below := fun _ _ hlookup => nomatch hlookup
      kept := fun _ _ hlookup => nomatch hlookup
      released := fun _ hmem => nomatch hmem }
  unused _ _ := ⟨rfl, fun hmem => nomatch hmem⟩
  released _ hmem := nomatch hmem
  extracted _ _ hmem := nomatch hmem
  ready _ _ hready := nomatch hready
  opening _ _ _ hmem := nomatch hmem
  leaving _ hmem := nomatch hmem
  cleaning _ hmem := nomatch hmem
  session _ _ hlookup := nomatch hlookup

/-! ## What a step keeps -/

/-- A step that does not close a session keeps it, and what its file contains. -/
theorem Sound.keeps (h : sessions.Sound) (hok : Apart readCacheDir sessions call)
    (hserve : sessions.Serve readCacheDir call sessions') {readHandle : UInt64}
    {session : ReadSession} {contents : Bytes} (hne : call ≠ .releaseReadSession readHandle)
    (hopen : sessions.table.sessions.lookup readHandle = some session)
    (hfile : sessions.files.lookup session.artifactPath = some contents) :
    sessions'.table.sessions.lookup readHandle = some session ∧
      sessions'.files.lookup session.artifactPath = some contents := by
  cases call with
  | readFile taskId fileName contents' =>
      simp only [Serve, serve] at hserve
      split at hserve
      · cases hserve
      rename_i task hlookup
      split at hserve
      · cases hserve
      cases hserve
      refine ⟨hopen, ?_⟩
      dsimp only
      rw [AList.lookup_insert_ne (hok task hlookup readHandle session hopen), hfile]
  | acquire taskId path fileSize =>
      simp only [Serve, serve] at hserve
      split at hserve
      · cases hserve
      cases hserve
      refine ⟨?_, hfile⟩
      dsimp only [after]
      unfold ReadSessionTable.acquire
      split
      · exact hopen
      split
      · exact hopen
      have hnew : readHandle ≠ sessions.table.nextReadHandle := by
        rintro rfl
        exact Std.lt_irrefl (h.table.below _ _ hopen)
      dsimp only
      rw [AList.lookup_insert_ne hnew, hopen]
  | releaseReadSession handle =>
      cases hserve
      refine ⟨?_, hfile⟩
      have hhandle : readHandle ≠ handle := by
        rintro rfl
        exact hne rfl
      dsimp only
      rw [(sessions.table.release_changes handle).2.2.1, AList.lookup_erase_ne hhandle, hopen]
  | releasePrepare taskId =>
      simp only [Serve, serve] at hserve
      split at hserve
      · cases hserve
      cases hserve
      refine ⟨?_, hfile⟩
      dsimp only [after]
      unfold ReadSessionTable.releasePrepare
      rw [(decide_changes _ taskId).2.1]
      exact hopen
  | expireIfIdle taskId =>
      simp only [Serve, serve] at hserve
      split at hserve
      · cases hserve
      cases hserve
      refine ⟨?_, hfile⟩
      dsimp only [after]
      unfold ReadSessionTable.expireIfIdle
      split
      · exact hopen
      · rw [(decide_changes _ taskId).2.1]
        exact hopen
  | unlink taskId =>
      simp only [Serve, serve] at hserve
      split at hserve
      · cases hserve
      rename_i hmem
      rw [not_not] at hmem
      split at hserve
      · cases hserve
        exact ⟨hopen, hfile⟩
      rename_i task hlookup
      cases hserve
      refine ⟨hopen, ?_⟩
      have hready := h.session readHandle session hopen
      have hkept := h.table.kept readHandle session hopen
      have hpath : session.artifactPath ≠ task.filePath := by
        intro heq
        rw [heq] at hready
        by_cases hid : session.taskId = taskId
        · exact hkept (hid ▸ h.cleaning taskId (.inl hmem))
        · exact hkept ((hok task hlookup).1 _ hready hid)
      dsimp only [after]
      split
      · exact hfile
      · rw [AList.lookup_erase_ne hpath, hfile]
  | submitPrepareTask inodeId expectedFileSize =>
      cases hserve
      exact ⟨hopen, hfile⟩
  | _ =>
      simp only [Serve, serve] at hserve
      split at hserve
      · cases hserve
      split at hserve <;> cases hserve <;> exact ⟨hopen, hfile⟩

theorem released_mono (hserve : sessions.Serve readCacheDir call sessions') :
    ∀ id ∈ sessions.table.prepareReleased, id ∈ sessions'.table.prepareReleased := by
  intro id hmem
  cases call with
  | acquire taskId path fileSize =>
      simp only [Serve, serve] at hserve
      split at hserve
      · cases hserve
      cases hserve
      dsimp only [after]
      unfold ReadSessionTable.acquire
      split
      · exact hmem
      · split <;> exact hmem
  | releaseReadSession handle =>
      cases hserve
      dsimp only
      rw [(sessions.table.release_changes handle).1]
      exact hmem
  | releasePrepare taskId =>
      simp only [Serve, serve] at hserve
      split at hserve
      · cases hserve
      cases hserve
      dsimp only [after]
      unfold ReadSessionTable.releasePrepare
      rw [(decide_changes _ taskId).1]
      exact List.mem_cons_of_mem _ hmem
  | expireIfIdle taskId =>
      simp only [Serve, serve] at hserve
      split at hserve
      · cases hserve
      cases hserve
      dsimp only [after]
      unfold ReadSessionTable.expireIfIdle
      split
      · exact hmem
      · rw [(decide_changes _ taskId).1]
        exact List.mem_cons_of_mem _ hmem
  | submitPrepareTask inodeId expectedFileSize =>
      cases hserve
      exact hmem
  | unlink taskId =>
      simp only [Serve, serve] at hserve
      split at hserve
      · cases hserve
      split at hserve <;> cases hserve <;> exact hmem
  | _ =>
      simp only [Serve, serve] at hserve
      split at hserve
      · cases hserve
      split at hserve <;> cases hserve <;> exact hmem

/-! ## Cleanups -/

/-- The cleanups of a task that are still to come. -/
def cleanups (sessions : ReadSessions) (taskId : UInt64) : Nat :=
  sessions.pending.count (.cleaning taskId)

/-- A step that does not unlink the artifact of a task makes a cleanup of it pending only
    with the decision for it. -/
def Decides (sessions sessions' : ReadSessions) (taskId : UInt64) : Prop :=
  (∀ id ∈ sessions.table.artifactCleaned, id ∈ sessions'.table.artifactCleaned) ∧
  (sessions'.cleanups taskId ≤ sessions.cleanups taskId ∨
    sessions'.cleanups taskId ≤ sessions.cleanups taskId + 1 ∧
      taskId ∉ sessions.table.artifactCleaned ∧ taskId ∈ sessions'.table.artifactCleaned)

theorem Decides.of_pending {table : ReadSessionTable} {decision : Bool} {pending : List Pending}
    (hcleaned : ∀ id ∈ sessions.table.artifactCleaned, id ∈ table.artifactCleaned)
    (hdecided : decision = true → taskId ∉ sessions.table.artifactCleaned ∧
      taskId ∈ table.artifactCleaned)
    (hpending : pending.count (.cleaning id) ≤ sessions.cleanups id) :
    Decides sessions { sessions with table := table, pending := cleanup decision taskId ++ pending }
      id := by
  refine ⟨hcleaned, ?_⟩
  unfold cleanups at hpending ⊢
  dsimp only
  rw [List.count_append]
  unfold cleanup
  split
  · rename_i hdecision
    by_cases hid : id = taskId
    · subst hid
      right
      rw [List.count_singleton_self]
      exact ⟨by omega, hdecided hdecision⟩
    · left
      have hother : [Pending.cleaning taskId].count (.cleaning id) = 0 := by
        rw [List.count_eq_zero]
        intro hmem
        cases List.mem_singleton.mp hmem
        exact hid rfl
      omega
  · left
    rw [List.count_nil]
    omega

theorem decide_fresh {table : ReadSessionTable} (h : (table.decide taskId).1 = true) :
    taskId ∉ table.artifactCleaned := by
  unfold ReadSessionTable.decide at h
  split at h
  · rename_i hcleanable
    simp only [ReadSessionTable.isCleanable, Bool.and_eq_true, decide_eq_true_eq] at hcleanable
    exact hcleanable.1.2
  · cases h

theorem release_fresh {table : ReadSessionTable} {readHandle : UInt64}
    (h : (table.release readHandle).1 = some (taskId, true)) : taskId ∉ table.artifactCleaned := by
  unfold ReadSessionTable.release at h
  split at h
  · cases h
  · obtain ⟨rfl, hdecided⟩ := Prod.mk.inj (Option.some.inj h)
    have hfresh := decide_fresh hdecided
    exact hfresh

/-- A new entry that is no cleanup. -/
theorem Decides.of_cons {tasks : AList fun _ : UInt64 => ReadTask} {nextTaskId : UInt64}
    {files : AList fun _ : Bytes => Bytes} {pending : List Pending}
    (h : pending.count (.cleaning id) ≤ sessions.cleanups id) :
    Decides sessions
      { sessions with tasks := tasks, nextTaskId := nextTaskId, files := files, pending := pending }
      id :=
  ⟨fun _ hmem => hmem, .inl h⟩

theorem count_cons_le {p : Pending} {pending : List Pending} (h : p ≠ .cleaning id) :
    (p :: pending).count (.cleaning id) ≤ pending.count (.cleaning id) := by
  rw [List.count_cons_of_ne h]

theorem decides_of_serve (hserve : sessions.Serve readCacheDir call sessions')
    (hne : call ≠ .unlink id) : Decides sessions sessions' id := by
  cases call with
  | submitPrepareTask inodeId expectedFileSize =>
      cases hserve
      exact .of_cons (Nat.le_refl _)
  | readFile taskId fileName contents =>
      simp only [Serve, serve] at hserve
      split at hserve
      · cases hserve
      split at hserve
      · cases hserve
      cases hserve
      exact .of_cons (count_cons_le fun heq => nomatch heq)
  | publish taskId path =>
      simp only [Serve, serve] at hserve
      split at hserve
      · cases hserve
      split at hserve
      · cases hserve
      cases hserve
      exact .of_cons (List.Sublist.count_le _ List.filter_sublist)
  | markTaskFailed taskId =>
      simp only [Serve, serve] at hserve
      split at hserve
      · cases hserve
      split at hserve
      · cases hserve
      cases hserve
      exact .of_cons (List.Sublist.count_le _ List.filter_sublist)
  | acquire taskId path fileSize =>
      simp only [Serve, serve] at hserve
      split at hserve
      · cases hserve
      cases hserve
      refine ⟨?_, .inl (List.Sublist.count_le _ List.erase_sublist)⟩
      dsimp only [after]
      unfold ReadSessionTable.acquire
      split
      · exact fun _ hmem => hmem
      · split <;> exact fun _ hmem => hmem
  | releaseReadSession readHandle =>
      cases hserve
      obtain ⟨-, hcleaned, -, hdecided⟩ := sessions.table.release_changes readHandle
      split
      · exact ⟨hcleaned, .inl (Nat.le_refl _)⟩
      · rename_i taskId cleanable heq
        refine .of_pending hcleaned (fun hcleanable => ?_) (Nat.le_refl _)
        rw [hcleanable] at heq
        exact ⟨release_fresh heq, hdecided taskId heq⟩
  | releasePrepare taskId =>
      simp only [Serve, serve] at hserve
      split at hserve
      · cases hserve
      cases hserve
      obtain ⟨-, -, hcleaned, hdecided⟩ := decide_changes
        { sessions.table with prepareReleased := taskId :: sessions.table.prepareReleased } taskId
      refine .of_pending hcleaned (fun hdecision => ?_)
        (List.Sublist.count_le _ List.erase_sublist)
      have hfresh := decide_fresh hdecision
      exact ⟨hfresh, hdecided hdecision⟩
  | expireIfIdle taskId =>
      simp only [Serve, serve] at hserve
      split at hserve
      · cases hserve
      cases hserve
      unfold ReadSessionTable.expireIfIdle
      split
      · exact .of_pending (fun _ hmem => hmem) (fun hfalse => nomatch hfalse)
          (List.Sublist.count_le _ List.erase_sublist)
      · obtain ⟨-, -, hcleaned, hdecided⟩ := decide_changes
          { sessions.table with prepareReleased := taskId :: sessions.table.prepareReleased } taskId
        refine .of_pending hcleaned (fun hdecision => ?_)
          (List.Sublist.count_le _ List.erase_sublist)
        have hfresh := decide_fresh hdecision
        exact ⟨hfresh, hdecided hdecision⟩
  | unlink taskId =>
      simp only [Serve, serve] at hserve
      split at hserve
      · cases hserve
      split at hserve
      · cases hserve
        exact .of_cons (List.Sublist.count_le _ List.erase_sublist)
      · cases hserve
        have hfinishing : Pending.finishing taskId ≠ .cleaning id := fun heq => nomatch heq
        have hsub : (sessions.pending.erase (.cleaning taskId)).count (.cleaning id) ≤
            sessions.cleanups id := List.Sublist.count_le _ List.erase_sublist
        exact .of_cons ((count_cons_le hfinishing).trans hsub)
  | finish taskId =>
      simp only [Serve, serve] at hserve
      split at hserve
      · cases hserve
      split at hserve
      · cases hserve
        exact .of_cons (List.Sublist.count_le _ List.erase_sublist)
      · cases hserve
        exact .of_cons (List.Sublist.count_le _ List.erase_sublist)
  | erase taskId =>
      simp only [Serve, serve] at hserve
      split at hserve
      · cases hserve
      split at hserve
      · cases hserve
      cases hserve
      exact .of_cons (Nat.le_refl _)
  | _ =>
      simp only [Serve, serve] at hserve
      split at hserve
      · cases hserve
      split at hserve
      · cases hserve
      cases hserve
      exact .of_cons (count_cons_le fun heq => nomatch heq)

theorem cleanups_of_unlink (hserve : sessions.Serve readCacheDir (.unlink taskId) sessions') :
    .cleaning taskId ∈ sessions.pending ∧ sessions'.table = sessions.table ∧
      sessions'.cleanups taskId + 1 = sessions.cleanups taskId := by
  have hcount : ∀ pending : List Pending, .cleaning taskId ∈ pending →
      (pending.erase (.cleaning taskId)).count (.cleaning taskId) + 1 =
        pending.count (.cleaning taskId) := by
    intro pending hmem
    have hpositive := List.count_pos_iff.mpr hmem
    rw [List.count_erase_self]
    omega
  simp only [Serve, serve] at hserve
  split at hserve
  · cases hserve
  rename_i hmem
  rw [not_not] at hmem
  split at hserve
  · cases hserve
    exact ⟨hmem, rfl, hcount _ hmem⟩
  · cases hserve
    refine ⟨hmem, rfl, ?_⟩
    have hfinishing : Pending.finishing taskId ≠ .cleaning taskId := fun heq => nomatch heq
    unfold cleanups after
    dsimp only
    rw [List.singleton_append, List.count_cons_of_ne hfinishing, hcount _ hmem]

/-! ## Runs -/

/-- What open sessions, cleanups and reference counts owe to each other. -/
structure SessionsKeepFiles (readCacheDir : Bytes)
    (ok : ReadSessions → SessionCall → Prop) : Prop where
  /-- the file of an open session is there, and stays as it is until the session is closed -/
  kept : ∀ hist sessions readHandle session,
    Serves (Serve readCacheDir) ok {} hist sessions →
    sessions.table.sessions.lookup readHandle = some session →
    ∃ contents, ∀ hist' sessions', Serves (Serve readCacheDir) ok sessions hist' sessions' →
      (∀ served ∈ hist', served.call ≠ .releaseReadSession readHandle) →
      sessions'.table.sessions.lookup readHandle = some session ∧
        sessions'.files.lookup session.artifactPath = some contents
  /-- the artifact of a task is unlinked once -/
  unlinkedOnce : ∀ hist sessions taskId, Serves (Serve readCacheDir) ok {} hist sessions →
    hist.countP (fun served => served.call = .unlink taskId) ≤ 1
  /-- that comes after the task was released and its last session closed -/
  unlinkedLast : ∀ hist sessions taskId sessions',
    Serves (Serve readCacheDir) ok {} hist sessions →
    sessions.Serve readCacheDir (.unlink taskId) sessions' →
    taskId ∈ sessions.table.prepareReleased ∧
      ∀ readHandle session, sessions.table.sessions.lookup readHandle = some session →
        session.taskId ≠ taskId
  /-- a task that was released is not opened any more -/
  closed : ∀ sessions taskId hist' sessions', taskId ∈ sessions.table.prepareReleased →
    Serves (Serve readCacheDir) ok sessions hist' sessions' →
    ∀ path fileSize maxReadBytes readHandle,
      (sessions'.table.acquire taskId path fileSize maxReadBytes).1 ≠ .acquired readHandle
  /-- the references of a task are its open sessions -/
  counted : ∀ hist sessions taskId, Serves (Serve readCacheDir) ok {} hist sessions →
    (sessions.table.readRefs taskId).toNat = sessions.table.openSessions taskId

variable {hist : List (Served ReadSessions SessionCall)}

theorem sound_serves (hsound : sessions.Sound)
    (h : Serves (Serve readCacheDir) (Apart readCacheDir) sessions hist sessions') :
    sessions'.Sound :=
  h.invariant (I := Sound) (fun _ _ _ hsound hok hserve => hsound.step hok hserve) hsound

theorem keeps_serves {readHandle : UInt64} {session : ReadSession} {contents : Bytes}
    (hsound : sessions.Sound) (hopen : sessions.table.sessions.lookup readHandle = some session)
    (hfile : sessions.files.lookup session.artifactPath = some contents)
    (h : Serves (Serve readCacheDir) (Apart readCacheDir) sessions hist sessions')
    (hne : ∀ served ∈ hist, served.call ≠ .releaseReadSession readHandle) :
    sessions'.table.sessions.lookup readHandle = some session ∧
      sessions'.files.lookup session.artifactPath = some contents := by
  induction h with
  | nil => exact ⟨hopen, hfile⟩
  | snoc hbefore hok hserve ih =>
      obtain ⟨hopen', hfile'⟩ := ih fun served hmem => hne served (List.mem_append_left _ hmem)
      have hcall := hne _ (List.mem_append_right _ (List.mem_singleton_self _))
      exact (sound_serves hsound hbefore).keeps hok hserve hcall hopen' hfile'

/-- What was unlinked and what is still to be: at most one of them, after the decision. -/
theorem unlinks_serves (h : Serves (Serve readCacheDir) (Apart readCacheDir) {} hist sessions) :
    hist.countP (fun served => served.call = .unlink taskId) + sessions.cleanups taskId ≤
      if taskId ∈ sessions.table.artifactCleaned then 1 else 0 := by
  induction h with
  | nil => exact Nat.le_refl 0
  | @snoc hist before after call hbefore hok hserve ih =>
      rw [List.countP_append, List.countP_singleton]
      by_cases hunlink : call = .unlink taskId
      · subst hunlink
        obtain ⟨-, htable, hcleanups⟩ := cleanups_of_unlink hserve
        rw [htable]
        simp only [decide_true, if_true]
        omega
      · obtain ⟨hcleaned, hless | ⟨hmore, hout, hin⟩⟩ := decides_of_serve hserve hunlink
        · have hmono : (if taskId ∈ before.table.artifactCleaned then 1 else 0) ≤
              if taskId ∈ after.table.artifactCleaned then 1 else 0 := by
            by_cases hmem : taskId ∈ before.table.artifactCleaned
            · rw [if_pos hmem, if_pos (hcleaned taskId hmem)]
            · rw [if_neg hmem]
              exact Nat.zero_le _
          simp only [hunlink, decide_false, Bool.false_eq_true, if_false]
          omega
        · rw [if_neg hout] at ih
          rw [if_pos hin]
          simp only [hunlink, decide_false, Bool.false_eq_true, if_false]
          omega

/-- Sessions keep their files as long as tasks do not touch each other's artifacts. -/
theorem sessions_keep_files (readCacheDir : Bytes) :
    SessionsKeepFiles readCacheDir (Apart readCacheDir) where
  kept := by
    intro hist sessions readHandle session hserves hopen
    have hsound := sound_serves .initial hserves
    have hready := hsound.session readHandle session hopen
    obtain ⟨-, -, hfile⟩ := hsound.ready _ _ hready (hsound.table.kept readHandle session hopen)
    obtain ⟨contents, hcontents⟩ := Option.isSome_iff_exists.mp hfile
    exact ⟨contents, fun hist' sessions' hlater hne =>
      keeps_serves hsound hopen hcontents hlater hne⟩
  unlinkedOnce := by
    intro hist sessions taskId hserves
    have hle : hist.countP (fun served => served.call = .unlink taskId) +
        sessions.cleanups taskId ≤ _ := unlinks_serves hserves
    split at hle
    · omega
    · omega
  unlinkedLast := by
    intro hist sessions taskId sessions' hserves hunlink
    have hsound := sound_serves .initial hserves
    obtain ⟨hmem, -, -⟩ := cleanups_of_unlink hunlink
    have hcleaned := hsound.cleaning taskId (.inl hmem)
    refine ⟨hsound.table.released taskId hcleaned, ?_⟩
    rintro readHandle session hopen rfl
    exact hsound.table.kept readHandle session hopen hcleaned
  closed := by
    intro sessions taskId hist' sessions' hreleased hserves path fileSize maxReadBytes readHandle
    have hstill : taskId ∈ sessions'.table.prepareReleased :=
      hserves.invariant (I := fun s => taskId ∈ s.table.prepareReleased)
        (fun _ _ _ hmem _ hserve => released_mono hserve taskId hmem) hreleased
    rw [ReadSessionTable.acquire, if_pos hstill]
    split
    · exact fun heq => nomatch heq
    · exact fun heq => nomatch heq
  counted := fun hist sessions taskId hserves => (sound_serves .initial hserves).table.refs taskId

/-! ## Two tasks of one inode -/

/-- The run of some calls, as long as they can be made. -/
def runOf (readCacheDir : Bytes) : ReadSessions → List SessionCall →
    List (Served ReadSessions SessionCall) × ReadSessions
  | sessions, [] => ([], sessions)
  | sessions, call :: calls =>
      match sessions.serve readCacheDir call with
      | none => ([], sessions)
      | some sessions' =>
          let later := runOf readCacheDir sessions' calls
          (⟨sessions, call, sessions'⟩ :: later.1, later.2)

theorem serves_runOf {ok : ReadSessions → SessionCall → Prop} (calls : List SessionCall)
    (sessions : ReadSessions)
    (hok : ∀ served ∈ (runOf readCacheDir sessions calls).1, ok served.before served.call) :
    Serves (Serve readCacheDir) ok sessions (runOf readCacheDir sessions calls).1
      (runOf readCacheDir sessions calls).2 := by
  induction calls generalizing sessions with
  | nil => exact .nil
  | cons call calls ih =>
      rw [runOf] at hok ⊢
      split
      · exact .nil
      · rename_i next hnext
        rw [hnext] at hok
        have hfirst : Serves (Serve readCacheDir) ok sessions [⟨sessions, call, next⟩] next :=
          .snoc .nil (hok _ List.mem_cons_self) hnext
        exact hfirst.append (ih next fun served hmem => hok served (List.mem_cons_of_mem _ hmem))

def readDir : Bytes := ofAscii "/read/"

def preparedPath : Bytes := artifactPath readDir 7 (ofAscii "f")

/-- Inode 7 is prepared for a task, and opened. -/
def openedRun : List (Served ReadSessions SessionCall) × ReadSessions :=
  runOf readDir {}
    [.submitPrepareTask 7 2, .readFile 1 (ofAscii "f") (ofAscii "ab"), .publish 1 preparedPath,
      .lookToOpen 1, .acquire 1 preparedPath 2]

/-- A second task for inode 7 is prepared and released. -/
def releasedRun : List (Served ReadSessions SessionCall) × ReadSessions :=
  runOf readDir openedRun.2
    [.submitPrepareTask 7 2, .readFile 2 (ofAscii "f") (ofAscii "ab"), .publish 2 preparedPath,
      .lookToRelease 2, .releasePrepare 2, .unlink 2]

def openedSession : ReadSession where
  readHandle := 1
  taskId := 1
  artifactPath := preparedPath
  fileSize := 2
  maxReadBytes := kMaxReadBytes

/-- Releasing one of two tasks of an inode removes the file that the other has open. -/
theorem session_loses_file : ¬SessionsKeepFiles readDir Any := by
  intro h
  have hopened : Serves (Serve readDir) Any {} openedRun.1 openedRun.2 :=
    serves_runOf _ {} fun _ _ => trivial
  have hreleased : Serves (Serve readDir) Any openedRun.2 releasedRun.1 releasedRun.2 :=
    serves_runOf _ openedRun.2 fun _ _ => trivial
  obtain ⟨contents, hkept⟩ := h.kept openedRun.1 openedRun.2 1 openedSession hopened
    (by decide +kernel)
  have hstill := hkept releasedRun.1 releasedRun.2 hreleased (by decide +kernel)
  have hgone : releasedRun.2.files.lookup openedSession.artifactPath = none := by decide +kernel
  rw [hgone] at hstill
  cases hstill.2

theorem sessions_keep_files_open :
    openedRun.2.table.readRefs 1 = 1 ∧
      (openedRun.2.table.readRefs 1).toNat = openedRun.2.table.openSessions 1 := by
  have hopened : Serves (Serve readDir) (Apart readDir) {} openedRun.1 openedRun.2 :=
    serves_runOf _ {} (by decide +kernel)
  exact ⟨by decide +kernel, (sessions_keep_files readDir).counted _ _ 1 hopened⟩

end ReadSessions

end Zb.OpticalNode
