-- SUMMARY: Read sessions of prepared files: the table with its reference counts, and the steps around it.
import ZBStorage.Lib.Bytes
import ZBStorage.Lib.CallHistory
import ZBStorage.Lib.TableSum

/-!
# Read sessions

`ReadSessionTable` and the operations of `OpticalNodeManager` around it. The table
is changed under its mutex. Everything else comes in steps: the worker writes the
artifact and then publishes it, a request looks at the task and then takes the
table, and a cleanup comes after the decision to clean up. The references are
counted by task, but the artifact is named after the inode.
-/

namespace Zb.OpticalNode

open Bytes CallHistory TableSum

/-! ## The table -/

structure ReadSession where
  readHandle : UInt64
  taskId : UInt64
  artifactPath : Bytes
  fileSize : UInt64
  maxReadBytes : UInt32
  deriving DecidableEq

/-- The sets of released and of cleaned tasks are lists. -/
structure ReadSessionTable where
  nextReadHandle : UInt64 := 1
  sessions : AList (fun _ : UInt64 => ReadSession) := ∅
  taskReadRefs : AList (fun _ : UInt64 => UInt32) := ∅
  prepareReleased : List UInt64 := []
  artifactCleaned : List UInt64 := []

inductive AcquireOutcome
  | acquired (readHandle : UInt64)
  | prepareReleased
  | invalidArgument
  deriving DecidableEq

namespace ReadSessionTable

def readRefs (table : ReadSessionTable) (taskId : UInt64) : UInt32 :=
  (table.taskReadRefs.lookup taskId).getD 0

def acquire (table : ReadSessionTable) (taskId : UInt64) (artifactPath : Bytes)
    (fileSize : UInt64) (maxReadBytes : UInt32) : AcquireOutcome × ReadSessionTable :=
  if artifactPath = [] ∨ maxReadBytes = 0 then (.invalidArgument, table)
  else if taskId ∈ table.prepareReleased then (.prepareReleased, table)
  else
    let readHandle := table.nextReadHandle
    (.acquired readHandle,
      { table with
        nextReadHandle := readHandle + 1
        sessions := table.sessions.insert readHandle
          { readHandle := readHandle
            taskId := taskId
            artifactPath := artifactPath
            fileSize := fileSize
            maxReadBytes := maxReadBytes }
        taskReadRefs := table.taskReadRefs.insert taskId (table.readRefs taskId + 1) })

def isCleanable (table : ReadSessionTable) (taskId : UInt64) : Bool :=
  taskId ∈ table.prepareReleased && taskId ∉ table.artifactCleaned && table.readRefs taskId = 0

/-- The decision to clean up, which is made once for a task. -/
def decide (table : ReadSessionTable) (taskId : UInt64) : Bool × ReadSessionTable :=
  if table.isCleanable taskId then
    (true, { table with artifactCleaned := taskId :: table.artifactCleaned })
  else (false, table)

def expireIfIdle (table : ReadSessionTable) (taskId : UInt64) : Bool × ReadSessionTable :=
  if table.readRefs taskId > 0 then (false, table)
  else { table with prepareReleased := taskId :: table.prepareReleased }.decide taskId

/-- The task of the session, unless there is none, and whether to clean up. -/
def release (table : ReadSessionTable) (readHandle : UInt64) :
    Option (UInt64 × Bool) × ReadSessionTable :=
  match table.sessions.lookup readHandle with
  | none => (none, table)
  | some session =>
      let taskId := session.taskId
      let taskReadRefs :=
        match table.taskReadRefs.lookup taskId with
        | none => table.taskReadRefs
        | some refs =>
            if refs - 1 = 0 then table.taskReadRefs.erase taskId
            else table.taskReadRefs.insert taskId (refs - 1)
      let decided := { table with
        sessions := table.sessions.erase readHandle
        taskReadRefs := taskReadRefs }.decide taskId
      (some (taskId, decided.1), decided.2)

def releasePrepare (table : ReadSessionTable) (taskId : UInt64) : Bool × ReadSessionTable :=
  { table with prepareReleased := taskId :: table.prepareReleased }.decide taskId

end ReadSessionTable

/-! ## The manager -/

/-- `START` stands for the states before the file is ready. -/
inductive ReadTaskState
  | START
  | READY
  | FINISH
  | FAILED
  deriving DecidableEq

structure ReadTask where
  inodeId : UInt64
  filePath : Bytes := []
  state : ReadTaskState := .START
  expectedFileSize : UInt64 := 0

/-- Where a request or a worker stands between its steps. -/
inductive Pending
  /-- the worker has written the artifact of a task -/
  | extracted (taskId : UInt64) (path : Bytes)
  /-- a request to open has found the task ready -/
  | opening (taskId : UInt64) (path : Bytes) (fileSize : UInt64)
  /-- a request to release, or the pass over expired tasks, has found the task ready -/
  | releasing (taskId : UInt64)
  | expiring (taskId : UInt64)
  /-- the artifact of a task is to be unlinked, and the task then to be finished -/
  | cleaning (taskId : UInt64)
  | finishing (taskId : UInt64)
  deriving DecidableEq

def Pending.isExtracted (taskId : UInt64) : Pending → Bool
  | .extracted id _ => id = taskId
  | _ => false

structure ReadSessions where
  tasks : AList (fun _ : UInt64 => ReadTask) := ∅
  nextTaskId : UInt64 := 1
  table : ReadSessionTable := {}
  files : AList (fun _ : Bytes => Bytes) := ∅
  pending : List Pending := []

/-- The path that `VolumeManager::ReadFile` gives to the artifact. -/
def artifactPath (readCacheDir : Bytes) (inodeId : UInt64) (fileName : Bytes) : Bytes :=
  readCacheDir ++ ofAscii "file_" ++ decimal inodeId.toNat ++ ofAscii "_" ++ fileName

def kMaxReadBytes : UInt32 := 4 * 1024 * 1024

inductive SessionCall
  | submitPrepareTask (inodeId expectedFileSize : UInt64)
  /-- the worker extracts a file, perhaps not to its end -/
  | readFile (taskId : UInt64) (fileName contents : Bytes)
  /-- the worker publishes what it has extracted -/
  | publish (taskId : UInt64) (path : Bytes)
  | markTaskFailed (taskId : UInt64)
  | lookToOpen (taskId : UInt64)
  | acquire (taskId : UInt64) (path : Bytes) (fileSize : UInt64)
  | releaseReadSession (readHandle : UInt64)
  | lookToRelease (taskId : UInt64)
  | releasePrepare (taskId : UInt64)
  | lookToExpire (taskId : UInt64)
  | expireIfIdle (taskId : UInt64)
  | unlink (taskId : UInt64)
  | finish (taskId : UInt64)
  | erase (taskId : UInt64)
  deriving DecidableEq

namespace ReadSessions

def setTask (sessions : ReadSessions) (taskId : UInt64) (task : ReadTask) : ReadSessions :=
  { sessions with tasks := sessions.tasks.insert taskId task }

def after (sessions : ReadSessions) (done : Pending) (next : List Pending) : ReadSessions :=
  { sessions with pending := next ++ sessions.pending.erase done }

/-- The worker is done with a task. -/
def extractionOver (sessions : ReadSessions) (taskId : UInt64) : ReadSessions :=
  { sessions with pending := sessions.pending.filter fun p => !p.isExtracted taskId }

/-- Cleaning up follows a decision for it. -/
def cleanup (decision : Bool) (taskId : UInt64) : List Pending :=
  if decision then [.cleaning taskId] else []

/-- The step that a call makes, if it can be made. -/
def serve (readCacheDir : Bytes) (sessions : ReadSessions) : SessionCall → Option ReadSessions
  | .submitPrepareTask inodeId expectedFileSize =>
      some { sessions with
        tasks := sessions.tasks.insert sessions.nextTaskId
          { inodeId := inodeId, expectedFileSize := expectedFileSize }
        nextTaskId := sessions.nextTaskId + 1 }
  | .readFile taskId fileName contents =>
      match sessions.tasks.lookup taskId with
      | none => none
      | some task =>
          -- an extraction that failed may have left part of a file, and is tried again
          if task.state ≠ .START then none
          else
            let path := artifactPath readCacheDir task.inodeId fileName
            some { sessions with
              files := sessions.files.insert path contents
              pending := .extracted taskId path :: sessions.pending }
  | .publish taskId path =>
      match sessions.tasks.lookup taskId with
      | none => none
      | some task =>
          if .extracted taskId path ∉ sessions.pending then none
          else some ((sessions.setTask taskId
            { task with filePath := path, state := .READY }).extractionOver taskId)
  | .markTaskFailed taskId =>
      match sessions.tasks.lookup taskId with
      | none => none
      | some task =>
          if task.state ≠ .START then none
          else some ((sessions.setTask taskId { task with state := .FAILED }).extractionOver taskId)
  | .lookToOpen taskId =>
      match sessions.tasks.lookup taskId with
      | none => none
      | some task =>
          if task.state ≠ .READY then none
          else
            -- the size of the artifact, or the expected one if it cannot be had
            let fileSize := ((sessions.files.lookup task.filePath).map fun contents =>
              UInt64.ofNat contents.length).getD task.expectedFileSize
            some { sessions with
              pending := .opening taskId task.filePath fileSize :: sessions.pending }
  | .acquire taskId path fileSize =>
      if .opening taskId path fileSize ∉ sessions.pending then none
      else some ({ sessions with
        table := (sessions.table.acquire taskId path fileSize kMaxReadBytes).2 }.after
          (.opening taskId path fileSize) [])
  | .releaseReadSession readHandle =>
      let released := sessions.table.release readHandle
      some { sessions with
        table := released.2
        pending :=
          (match released.1 with
          | none => []
          | some (taskId, cleanable) => cleanup cleanable taskId) ++ sessions.pending }
  | .lookToRelease taskId =>
      match sessions.tasks.lookup taskId with
      | none => none
      | some task =>
          if task.state ≠ .READY then none
          else some { sessions with pending := .releasing taskId :: sessions.pending }
  | .releasePrepare taskId =>
      if .releasing taskId ∉ sessions.pending then none
      else
        let released := sessions.table.releasePrepare taskId
        some ({ sessions with table := released.2 }.after (.releasing taskId)
          (cleanup released.1 taskId))
  | .lookToExpire taskId =>
      match sessions.tasks.lookup taskId with
      | none => none
      | some task =>
          if task.state ≠ .READY then none
          else some { sessions with pending := .expiring taskId :: sessions.pending }
  | .expireIfIdle taskId =>
      if .expiring taskId ∉ sessions.pending then none
      else
        let expired := sessions.table.expireIfIdle taskId
        some ({ sessions with table := expired.2 }.after (.expiring taskId)
          (cleanup expired.1 taskId))
  | .unlink taskId =>
      if .cleaning taskId ∉ sessions.pending then none
      else
        match sessions.tasks.lookup taskId with
        | none => some (sessions.after (.cleaning taskId) [])
        | some task =>
            some ({ sessions with
              files := if task.filePath = [] ∨ task.filePath = ofAscii "none" then sessions.files
                else sessions.files.erase task.filePath }.after (.cleaning taskId)
                  [.finishing taskId])
  | .finish taskId =>
      if .finishing taskId ∉ sessions.pending then none
      else
        match sessions.tasks.lookup taskId with
        | none => some (sessions.after (.finishing taskId) [])
        | some task =>
            some ((sessions.setTask taskId { task with state := .FINISH }).after
              (.finishing taskId) [])
  | .erase taskId =>
      match sessions.tasks.lookup taskId with
      | none => none
      | some task =>
          if task.state ≠ .FINISH then none
          else some { sessions with tasks := sessions.tasks.erase taskId }

def Serve (readCacheDir : Bytes) (sessions : ReadSessions) (call : SessionCall)
    (sessions' : ReadSessions) : Prop :=
  sessions.serve readCacheDir call = some sessions'

end ReadSessions

/-! ## The counts of the table -/

/-- The open sessions of a task. -/
def ReadSessionTable.openSessions (table : ReadSessionTable) (taskId : UInt64) : Nat :=
  total (fun _ session => if session.taskId = taskId then 1 else 0) table.sessions

/-- References are counted, and tasks with open sessions are not cleaned up. -/
structure ReadSessionTable.Sound (table : ReadSessionTable) : Prop where
  refs : ∀ taskId, (table.readRefs taskId).toNat = table.openSessions taskId
  below : ∀ readHandle session, table.sessions.lookup readHandle = some session →
    readHandle < table.nextReadHandle
  kept : ∀ readHandle session, table.sessions.lookup readHandle = some session →
    session.taskId ∉ table.artifactCleaned
  released : ∀ taskId ∈ table.artifactCleaned, taskId ∈ table.prepareReleased

namespace ReadSessionTable.Sound

variable {table : ReadSessionTable} {taskId readHandle : UInt64}

/-- A task without references has no open session. -/
theorem no_session (h : table.Sound) (hidle : table.readRefs taskId = 0) {session : ReadSession}
    (hlookup : table.sessions.lookup readHandle = some session) : session.taskId ≠ taskId := by
  intro heq
  have hzero : table.openSessions taskId = 0 := by
    rw [← h.refs, hidle]
    rfl
  have hweight := total_eq_zero_iff.mp hzero readHandle session hlookup
  rw [if_pos heq] at hweight
  cases hweight

theorem decide (h : table.Sound) : (table.decide taskId).2.Sound := by
  unfold ReadSessionTable.decide
  split
  · rename_i hcleanable
    simp only [isCleanable, Bool.and_eq_true, decide_eq_true_eq] at hcleanable
    obtain ⟨⟨hreleased, -⟩, hidle⟩ := hcleanable
    refine ⟨h.refs, h.below, fun handle session hlookup => ?_, fun id hmem => ?_⟩
    · rw [List.mem_cons, not_or]
      exact ⟨h.no_session hidle hlookup, h.kept handle session hlookup⟩
    · rcases List.mem_cons.mp hmem with rfl | hmem
      · exact hreleased
      · exact h.released id hmem
  · exact h

theorem mark (h : table.Sound) :
    { table with prepareReleased := taskId :: table.prepareReleased }.Sound where
  refs := h.refs
  below := h.below
  kept := h.kept
  released id hmem := List.mem_cons_of_mem _ (h.released id hmem)

theorem releasePrepare (h : table.Sound) : (table.releasePrepare taskId).2.Sound := h.mark.decide

theorem acquire (path : Bytes) (fileSize : UInt64) (maxReadBytes : UInt32) (h : table.Sound)
    (hrefs : table.readRefs taskId ≠ 0xffffffff)
    (hhandle : table.nextReadHandle ≠ 0xffffffffffffffff) :
    (table.acquire taskId path fileSize maxReadBytes).2.Sound := by
  unfold ReadSessionTable.acquire
  split
  · exact h
  split
  · exact h
  rename_i hunreleased
  have hnext : (table.nextReadHandle + 1).toNat = table.nextReadHandle.toNat + 1 := by
    have hne : table.nextReadHandle.toNat ≠ 0xffffffffffffffff := fun heq =>
      hhandle (UInt64.toNat_inj.mp heq)
    have hlt := table.nextReadHandle.toNat_lt
    rw [UInt64.toNat_add, UInt64.toNat_one, Nat.mod_eq_of_lt (by omega)]
  have hnew : table.sessions.lookup table.nextReadHandle = none := by
    cases hlookup : table.sessions.lookup table.nextReadHandle with
    | none => rfl
    | some session => exact absurd (h.below _ _ hlookup) (Std.lt_irrefl)
  constructor
  · intro id
    dsimp only [openSessions, readRefs]
    rw [total_insert_new hnew]
    by_cases hid : id = taskId
    · subst hid
      have hne : (table.readRefs id).toNat ≠ 0xffffffff := fun heq =>
        hrefs (UInt32.toNat_inj.mp heq)
      have hlt := (table.readRefs id).toNat_lt
      have hcount := h.refs id
      rw [readRefs] at hne hlt hcount
      rw [openSessions] at hcount
      rw [AList.lookup_insert, if_pos rfl, Option.getD_some, UInt32.toNat_add, UInt32.toNat_one,
        Nat.mod_eq_of_lt (by omega)]
      omega
    · rw [AList.lookup_insert_ne hid, if_neg (Ne.symm hid), Nat.zero_add]
      exact h.refs id
  · intro handle session hlookup
    rw [UInt64.lt_iff_toNat_lt, hnext]
    by_cases hhandle' : handle = table.nextReadHandle
    · subst hhandle'
      omega
    · rw [AList.lookup_insert_ne hhandle'] at hlookup
      have hbelow := UInt64.lt_iff_toNat_lt.mp (h.below handle session hlookup)
      omega
  · intro handle session hlookup
    by_cases hhandle' : handle = table.nextReadHandle
    · subst hhandle'
      rw [AList.lookup_insert] at hlookup
      cases hlookup
      exact fun hcleaned => hunreleased (h.released taskId hcleaned)
    · rw [AList.lookup_insert_ne hhandle'] at hlookup
      exact h.kept handle session hlookup
  · exact h.released

/-- Closing a session gives its reference back. -/
theorem close {session : ReadSession} (h : table.Sound)
    (hlookup : table.sessions.lookup readHandle = some session) :
    { table with
      sessions := table.sessions.erase readHandle
      taskReadRefs :=
        match table.taskReadRefs.lookup session.taskId with
        | none => table.taskReadRefs
        | some refs =>
            if refs - 1 = 0 then table.taskReadRefs.erase session.taskId
            else table.taskReadRefs.insert session.taskId (refs - 1) }.Sound := by
  have hopen : ∀ id, table.openSessions id = (if session.taskId = id then 1 else 0) +
      total (fun _ s => if s.taskId = id then 1 else 0) (table.sessions.erase readHandle) :=
    fun id => total_erase hlookup
  have hsub : ∀ handle s, (table.sessions.erase readHandle).lookup handle = some s →
      table.sessions.lookup handle = some s := by
    intro handle s hs
    by_cases hhandle : handle = readHandle
    · subst hhandle
      rw [AList.lookup_erase] at hs
      cases hs
    · rwa [AList.lookup_erase_ne hhandle] at hs
  have hcounted := hopen session.taskId
  rw [if_pos rfl, ← h.refs, readRefs] at hcounted
  refine ⟨fun id => ?_, fun handle s hs => h.below handle s (hsub handle s hs),
    fun handle s hs => h.kept handle s (hsub handle s hs), h.released⟩
  dsimp only [readRefs, ReadSessionTable.openSessions]
  have hid := hopen id
  rw [← h.refs, readRefs] at hid
  cases hrefs : table.taskReadRefs.lookup session.taskId with
  | none =>
      rw [hrefs] at hcounted
      simp only [Option.getD_none, UInt32.toNat_zero] at hcounted
      omega
  | some refs =>
      rw [hrefs, Option.getD_some] at hcounted
      have hpositive : (1 : UInt32) ≤ refs := by
        rw [UInt32.le_iff_toNat_le, UInt32.toNat_one]
        omega
      have hminus := UInt32.toNat_sub_of_le _ _ hpositive
      rw [UInt32.toNat_one] at hminus
      by_cases hsame : id = session.taskId
      · subst hsame
        dsimp only
        split
        · rename_i hlast
          rw [hlast] at hminus
          rw [AList.lookup_erase, Option.getD_none, UInt32.toNat_zero]
          rw [UInt32.toNat_zero] at hminus
          omega
        · rw [AList.lookup_insert, Option.getD_some]
          omega
      · rw [if_neg (Ne.symm hsame)] at hid
        dsimp only
        split
        · rw [AList.lookup_erase_ne hsame]
          omega
        · rw [AList.lookup_insert_ne hsame]
          omega

theorem release (h : table.Sound) : (table.release readHandle).2.Sound := by
  unfold ReadSessionTable.release
  split
  · exact h
  · rename_i session hlookup
    exact (h.close hlookup).decide

end ReadSessionTable.Sound

/-- What a decision changes. -/
theorem ReadSessionTable.decide_changes (table : ReadSessionTable) (taskId : UInt64) :
    (table.decide taskId).2.prepareReleased = table.prepareReleased ∧
      (table.decide taskId).2.sessions = table.sessions ∧
      (∀ id ∈ table.artifactCleaned, id ∈ (table.decide taskId).2.artifactCleaned) ∧
      ((table.decide taskId).1 = true → taskId ∈ (table.decide taskId).2.artifactCleaned) := by
  unfold ReadSessionTable.decide
  split
  · exact ⟨rfl, rfl, fun id hmem => List.mem_cons_of_mem _ hmem, fun _ => List.mem_cons_self⟩
  · exact ⟨rfl, rfl, fun _ hmem => hmem, fun hfalse => nomatch hfalse⟩

theorem ReadSessionTable.release_changes (table : ReadSessionTable) (readHandle : UInt64) :
    (table.release readHandle).2.prepareReleased = table.prepareReleased ∧
      (∀ id ∈ table.artifactCleaned, id ∈ (table.release readHandle).2.artifactCleaned) ∧
      (table.release readHandle).2.sessions = table.sessions.erase readHandle ∧
      ∀ id, (table.release readHandle).1 = some (id, true) →
        id ∈ (table.release readHandle).2.artifactCleaned := by
  unfold ReadSessionTable.release
  split
  · rename_i hlookup
    refine ⟨rfl, fun _ hmem => hmem, ?_, fun _ hnone => nomatch hnone⟩
    have hout := AList.lookup_eq_none.mp hlookup
    apply AList.ext
    exact (List.kerase_of_notMem_keys hout).symm
  · obtain ⟨hreleased, hsessions, hcleaned, hdecided⟩ := decide_changes _ _
    refine ⟨hreleased, hcleaned, hsessions, fun id heq => ?_⟩
    dsimp only at heq ⊢
    obtain ⟨rfl, hcleanable⟩ := Prod.mk.inj (Option.some.inj heq)
    exact hdecided hcleanable

end Zb.OpticalNode
