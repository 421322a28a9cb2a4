-- SUMMARY: Batches of file requests: how a batch is planned, and the coordinator that submits it to a pool.
import ZBStorage.Lib.Bytes
import ZBStorage.Lib.CallHistory
import Mathlib.Data.List.AList

/-!
# Batch requests

`BatchIoClient::submit_batch`. A batch is checked and planned first: every request knows the
earlier requests that it depends on, and the last earlier one on its target file. Then the
coordinator visits the requests in turn, over and over. Between two visits the pool may
start and finish any of the requests that it has accepted.
-/

namespace Zb.Client.Batch

open Bytes

/-! ## Planning -/

structure BatchIoTask where
  requestId : Bytes
  write : Bool := false
  path : Bytes
  offset : UInt64 := 0
  size : UInt64 := 0
  localPath : Bytes
  after : List Bytes := []

structure BatchIoResult where
  requestId : Bytes := []
  error : Int := 0
  bytes : UInt64 := 0
  elapsedUs : UInt64 := 0
  skipped : Bool := false
  mayHaveWritten : Bool := false
  deriving DecidableEq

structure BatchIoOptions where
  maxParallelFiles : Nat := 4
  queueDepth : Nat := 256
  maxBatches : Nat := 8
  maxBufferBytes : Nat := 16 * 1024 * 1024
  chunkBytes : Nat := 65536

inductive SubmitError
  | queueFull
  | invalidRequest
  | unknownDependency
  deriving DecidableEq

def int64Max : UInt64 := 0x7FFFFFFFFFFFFFFF

/-- The device and the inode of a path, if there is a file. -/
abbrev StatAnswer := Option (UInt64 × UInt64)

def fileKey (task : BatchIoTask) : StatAnswer → Bytes
  | some (device, inode) => decimal device.toNat ++ 58 :: decimal inode.toNat
  | none => task.path

/-- A request with the earlier requests that it waits for. -/
structure Request where
  task : BatchIoTask
  key : Bytes
  dependencies : List Nat
  previous : Option Nat

abbrev Index := AList fun _ : Bytes => Nat

def findAll (ids : Index) : List Bytes → Option (List Nat)
  | [] => some []
  | id :: rest =>
      match ids.lookup id, findAll ids rest with
      | some index, some indices => some (index :: indices)
      | _, _ => none

def invalidRequest (ids : Index) (task : BatchIoTask) : Bool :=
  task.requestId = [] || task.requestId ∈ ids || task.path = [] || task.localPath = [] ||
    task.offset > int64Max || task.size > int64Max - task.offset

def planLoop (stat : Nat → StatAnswer) (ids files : Index) (i : Nat) :
    List BatchIoTask → Except SubmitError (List Request)
  | [] => .ok []
  | task :: tasks =>
      if invalidRequest ids task then .error .invalidRequest
      else
        match findAll ids task.after with
        | none => .error .unknownDependency
        | some dependencies =>
            let key := fileKey task (stat i)
            let request : Request := { task, key, dependencies, previous := files.lookup key }
            match planLoop stat (ids.insert task.requestId i) (files.insert key i) (i + 1) tasks with
            | .error error => .error error
            | .ok requests => .ok (request :: requests)

/-- `active` batches have not ended. -/
def submitBatch (options : BatchIoOptions) (active : Nat) (stat : Nat → StatAnswer)
    (tasks : List BatchIoTask) : Except SubmitError (List Request) :=
  if options.maxBatches ≤ active || options.queueDepth < tasks.length then .error .queueFull
  else planLoop stat ∅ ∅ 0 tasks

/-! ## The coordinator -/

def ECANCELED : Int := 125

/-- What the work on a request gives. -/
structure Outcome where
  error : Int
  bytes : UInt64
  elapsedUs : UInt64
  mayHaveWritten : Bool

/-- A request waits to be submitted, is queued or worked on by the pool, has a result that the
    coordinator has not seen, or is done. -/
inductive Phase
  | waiting
  | queued
  | executing
  | ready (result : BatchIoResult)
  | done (result : BatchIoResult)
  deriving DecidableEq

def Phase.isDone : Phase → Bool
  | .done _ => true
  | _ => false

def Phase.failed : Phase → Bool
  | .done result => result.error ≠ 0
  | _ => false

/-- `cursor` is the request that is visited next; past the last one a scan has ended. The
    callback is called once for every answer. -/
structure Coordinator where
  phase : Nat → Phase := fun _ => .waiting
  cursor : Nat
  progress : Bool := false
  completed : Nat := 0
  answers : List (Nat × BatchIoResult) := []

variable (requests : List Request)

def initial : Coordinator where
  cursor := requests.length

def dependenciesOf (i : Nat) : List Nat := (requests[i]?.map (·.dependencies)).getD []

def previousOf (i : Nat) : Option Nat := requests[i]?.bind (·.previous)

def requestIdOf (i : Nat) : Bytes := (requests[i]?.map (·.task.requestId)).getD []

inductive Verdict
  | wait
  | skip
  | submit
  deriving DecidableEq

def judge (phase : Nat → Phase) (i : Nat) : Verdict :=
  if (previousOf requests i).any fun previous => !(phase previous).isDone then .wait
  else if !(dependenciesOf requests i).all fun dependency => (phase dependency).isDone then .wait
  else if (dependenciesOf requests i).any fun dependency => (phase dependency).failed then .skip
  else .submit

def Coordinator.move (state : Coordinator) (i : Nat) (phase : Phase) : Coordinator :=
  { state with phase := Function.update state.phase i phase }

/-- The result is kept and the callback called with it. -/
def Coordinator.answer (state : Coordinator) (i : Nat) (result : BatchIoResult) : Coordinator :=
  { state.move i (.done result) with
    progress := true
    completed := state.completed + 1
    answers := state.answers ++ [(i, result)] }

def skippedResult (i : Nat) : BatchIoResult where
  requestId := requestIdOf requests i
  error := ECANCELED
  skipped := true

/-- One turn of the inner loop; `accepted` is what the pool answers to a submission. -/
def visit (state : Coordinator) (accepted : Bool) : Coordinator :=
  let i := state.cursor
  let state := { state with cursor := i + 1 }
  match state.phase i with
  | .done _ => state
  | .queued => state
  | .executing => state
  | .ready result => state.answer i result
  | .waiting =>
      match judge requests state.phase i with
      | .wait => state
      | .skip => state.answer i (skippedResult requests i)
      | .submit => if accepted then { state.move i .queued with progress := true } else state

def executedResult (i : Nat) (outcome : Outcome) : BatchIoResult where
  requestId := requestIdOf requests i
  error := outcome.error
  bytes := outcome.bytes
  elapsedUs := outcome.elapsedUs
  mayHaveWritten := outcome.error ≠ 0 && outcome.mayHaveWritten

/-- What happens next: a step of the coordinator, a step of the pool, or nothing here. -/
inductive Event
  | visit (accepted : Bool)
  | start (i : Nat)
  | finish (i : Nat) (outcome : Outcome)
  | idle

/-- The loop ends at the end of a scan when everything is completed. -/
def Over (state : Coordinator) : Prop :=
  requests.length ≤ state.cursor ∧ requests.length ≤ state.completed

def next (state : Coordinator) : Event → Option Coordinator
  | .visit accepted =>
      if state.cursor < requests.length then some (visit requests state accepted)
      else if state.completed < requests.length then
        some { state with cursor := 0, progress := false }
      else none
  | .start i =>
      match state.phase i with
      | .queued => some (state.move i .executing)
      | _ => none
  | .finish i outcome =>
      match state.phase i with
      | .executing => some (state.move i (.ready (executedResult requests i outcome)))
      | _ => none
  | .idle => some state

/-! ## What a plan says -/

variable {requests : List Request} {stat : Nat → StatAnswer} {ids files : Index}
  {task : BatchIoTask} {request : Request} {i j : Nat}

/-- The dependencies of a request are the earlier requests that it names, and a request with
    earlier ones on its target file has the last of them before it. -/
structure Planned (stat : Nat → StatAnswer) (requests : List Request) : Prop where
  distinct : ∀ (i j : Nat) (request other : Request), requests[i]? = some request → requests[j]? = some other →
    request.task.requestId = other.task.requestId → i = j
  key : ∀ (i : Nat) (request : Request), requests[i]? = some request → request.key = fileKey request.task (stat i)
  dependencies : ∀ (i : Nat) (request : Request), requests[i]? = some request → ∀ j, j ∈ request.dependencies ↔
    j < i ∧ ∃ other : Request, requests[j]? = some other ∧ other.task.requestId ∈ request.task.after
  previous : ∀ (i : Nat) (request : Request), requests[i]? = some request →
    (∀ p, request.previous = some p → p < i ∧
      ∃ other : Request, requests[p]? = some other ∧ other.key = request.key) ∧
    ∀ (j : Nat) (other : Request), j < i → requests[j]? = some other → other.key = request.key →
      ∃ p, request.previous = some p ∧ j ≤ p

/-- The tables of the planner hold the requests before. -/
structure Tables (requests : List Request) (ids files : Index) : Prop where
  ids : ∀ id j, ids.lookup id = some j ↔
    ∃ request : Request, requests[j]? = some request ∧ request.task.requestId = id
  found : ∀ key p, files.lookup key = some p →
    ∃ request : Request, requests[p]? = some request ∧ request.key = key
  last : ∀ (j : Nat) (request : Request), requests[j]? = some request →
    ∃ p, files.lookup request.key = some p ∧ j ≤ p

theorem getElem?_concat {α : Type} {l : List α} {a b : α} {j : Nat} :
    (l ++ [a])[j]? = some b ↔ l[j]? = some b ∨ j = l.length ∧ a = b := by
  rcases Nat.lt_trichotomy j l.length with hlt | rfl | hgt
  · rw [List.getElem?_append_left hlt]
    exact (or_iff_left fun h => absurd h.1 hlt.ne).symm
  · rw [List.getElem?_concat_length, Option.some.injEq]
    simp
  · rw [List.getElem?_eq_none (by rw [List.length_append]; exact hgt),
      List.getElem?_eq_none hgt.le]
    exact iff_of_false nofun (by
      rintro (h | ⟨heq, -⟩)
      · cases h
      · omega)

theorem lt_of_getElem? {α : Type} {l : List α} {a : α} {j : Nat} (h : l[j]? = some a) :
    j < l.length := (List.getElem?_eq_some_iff.mp h).1

theorem mem_findAll {names : List Bytes} {indices : List Nat} (h : findAll ids names = some indices) :
    j ∈ indices ↔ ∃ id ∈ names, ids.lookup id = some j := by
  induction names generalizing indices with
  | nil =>
      cases h
      simp
  | cons id names ih =>
      rw [findAll] at h
      split at h
      · rename_i index later hindex hlater
        cases h
        rw [List.mem_cons, ih hlater, List.exists_mem_cons_iff, hindex, Option.some.injEq, eq_comm]
      · cases h

theorem Tables.insert (h : Tables requests ids files) (hnew : request.task.requestId ∉ ids) :
    Tables (requests ++ [request]) (ids.insert request.task.requestId requests.length)
      (files.insert request.key requests.length) where
  ids := by
    intro id j
    by_cases hid : id = request.task.requestId
    · have hnone (other : Request) (hother : requests[j]? = some other) :
          other.task.requestId ≠ id := by
        intro heq
        have hsome := (h.ids id j).mpr ⟨other, hother, heq⟩
        exact hnew (hid ▸ AList.lookup_isSome.mp (Option.isSome_of_eq_some hsome))
      subst hid
      rw [AList.lookup_insert, Option.some.injEq]
      constructor
      · rintro rfl
        exact ⟨request, List.getElem?_concat_length, rfl⟩
      · rintro ⟨other, hother, heq⟩
        rcases getElem?_concat.mp hother with hold | ⟨hlast, -⟩
        · exact absurd heq (hnone other hold)
        · exact hlast.symm
    · rw [AList.lookup_insert_ne hid, h.ids]
      constructor
      · rintro ⟨other, hother, heq⟩
        exact ⟨other, getElem?_concat.mpr (.inl hother), heq⟩
      · rintro ⟨other, hother, heq⟩
        rcases getElem?_concat.mp hother with hold | ⟨-, rfl⟩
        · exact ⟨other, hold, heq⟩
        · exact absurd heq.symm hid
  found := by
    intro key p hlookup
    by_cases hkey : key = request.key
    · subst hkey
      rw [AList.lookup_insert, Option.some.injEq] at hlookup
      subst hlookup
      exact ⟨request, List.getElem?_concat_length, rfl⟩
    · rw [AList.lookup_insert_ne hkey] at hlookup
      obtain ⟨other, hother, heq⟩ := h.found key p hlookup
      exact ⟨other, getElem?_concat.mpr (.inl hother), heq⟩
  last := by
    intro j other hother
    rcases getElem?_concat.mp hother with hold | ⟨rfl, rfl⟩
    · by_cases hkey : other.key = request.key
      · rw [hkey, AList.lookup_insert]
        exact ⟨_, rfl, (lt_of_getElem? hold).le⟩
      · rw [AList.lookup_insert_ne hkey]
        exact h.last j other hold
    · exact ⟨_, AList.lookup_insert _, Nat.le_refl _⟩

theorem Planned.concat (h : Planned stat requests) (htables : Tables requests ids files)
    (hnew : request.task.requestId ∉ ids)
    (hkey : request.key = fileKey request.task (stat requests.length))
    (hdependencies : findAll ids request.task.after = some request.dependencies)
    (hprevious : request.previous = files.lookup request.key) :
    Planned stat (requests ++ [request]) := by
  have hlookup (j : Nat) (other : Request) (hother : requests[j]? = some other) :
      other.task.requestId ≠ request.task.requestId := by
    intro heq
    have hsome := (htables.ids _ j).mpr ⟨other, hother, heq⟩
    exact hnew (AList.lookup_isSome.mp (Option.isSome_of_eq_some hsome))
  -- What is said of an old request does not look at the new one, which comes later.
  have hearlier {i j : Nat} {other : Request} (hi : i ≤ requests.length) (hlt : j < i) :
      (requests ++ [request])[j]? = some other ↔ requests[j]? = some other := by
    rw [getElem?_concat]
    exact or_iff_left fun hlast => by omega
  refine { distinct := ?_, key := ?_, dependencies := ?_, previous := ?_ }
  · intro i j first second hi hj heq
    rcases getElem?_concat.mp hi with hi | ⟨rfl, rfl⟩
    · rcases getElem?_concat.mp hj with hj | ⟨-, rfl⟩
      · exact h.distinct i j first second hi hj heq
      · exact absurd heq (hlookup i first hi)
    · rcases getElem?_concat.mp hj with hj | ⟨rfl, -⟩
      · exact absurd heq.symm (hlookup j second hj)
      · rfl
  · intro i other hi
    rcases getElem?_concat.mp hi with hi | ⟨rfl, rfl⟩
    · exact h.key i other hi
    · exact hkey
  · intro i other hi j
    rcases getElem?_concat.mp hi with hi | ⟨rfl, rfl⟩
    · rw [h.dependencies i other hi]
      refine and_congr_right fun hlt => exists_congr fun earlier => and_congr_left' ?_
      exact (hearlier (lt_of_getElem? hi).le hlt).symm
    · rw [mem_findAll hdependencies]
      simp only [htables.ids]
      constructor
      · rintro ⟨_, hmem, earlier, hj, rfl⟩
        exact ⟨lt_of_getElem? hj, earlier, getElem?_concat.mpr (.inl hj), hmem⟩
      · rintro ⟨hlt, earlier, hj, hmem⟩
        exact ⟨_, hmem, earlier, (hearlier (Nat.le_refl _) hlt).mp hj, rfl⟩
  · intro i other hi
    rcases getElem?_concat.mp hi with hi | ⟨rfl, rfl⟩
    · obtain ⟨hbefore, hlast⟩ := h.previous i other hi
      refine ⟨fun p hp => ?_, fun j earlier hlt hj => ?_⟩
      · obtain ⟨hlt, found⟩ := hbefore p hp
        exact ⟨hlt, found.imp fun earlier hfound => ⟨getElem?_concat.mpr (.inl hfound.1), hfound.2⟩⟩
      · exact hlast j earlier hlt ((hearlier (lt_of_getElem? hi).le hlt).mp hj)
    · rw [hprevious]
      refine ⟨fun p hp => ?_, fun j earlier hlt hj heq => ?_⟩
      · obtain ⟨earlier, hfound, heq⟩ := htables.found _ p hp
        exact ⟨lt_of_getElem? hfound, earlier, getElem?_concat.mpr (.inl hfound), heq⟩
      · exact heq ▸ htables.last j earlier ((hearlier (Nat.le_refl _) hlt).mp hj)

theorem planLoop_planned {tasks : List BatchIoTask} {later : List Request}
    (h : Planned stat requests) (htables : Tables requests ids files)
    (hplan : planLoop stat ids files requests.length tasks = .ok later) :
    Planned stat (requests ++ later) ∧ later.map (·.task) = tasks := by
  induction tasks generalizing requests ids files later with
  | nil =>
      cases hplan
      rw [List.append_nil]
      exact ⟨h, rfl⟩
  | cons task tasks ih =>
      rw [planLoop] at hplan
      split at hplan
      · cases hplan
      · rename_i hvalid
        split at hplan
        · cases hplan
        · rename_i dependencies hdependencies
          dsimp only at hplan
          split at hplan
          · cases hplan
          · rename_i rest hrest
            cases hplan
            have hnew : task.requestId ∉ ids := by
              intro hmem
              refine hvalid ?_
              simp [invalidRequest, hmem]
            let request : Request :=
              { task, key := fileKey task (stat requests.length), dependencies,
                previous := files.lookup (fileKey task (stat requests.length)) }
            have hlength : (requests ++ [request]).length = requests.length + 1 :=
              List.length_append
            obtain ⟨hplanned, htasks⟩ := ih
              (@Planned.concat requests stat ids files request h htables hnew rfl hdependencies rfl)
              (@Tables.insert requests ids files request htables hnew)
              (hlength ▸ hrest)
            rw [List.append_assoc] at hplanned
            exact ⟨hplanned, congrArg (task :: ·) htasks⟩

theorem submitBatch_planned {options : BatchIoOptions} {active : Nat} {tasks : List BatchIoTask}
    (h : submitBatch options active stat tasks = .ok requests) :
    Planned stat requests ∧ requests.map (·.task) = tasks := by
  rw [submitBatch] at h
  split at h
  · cases h
  · have hnone : Planned stat [] :=
      { distinct := nofun, key := nofun, dependencies := nofun, previous := nofun }
    have htables : Tables [] ∅ ∅ :=
      { ids := fun _ _ => iff_of_false nofun nofun, found := nofun, last := nofun }
    exact planLoop_planned hnone htables h

end Zb.Client.Batch
