-- SUMMARY: Archive batches over shutdowns and restarts: every file is handed over or refused once, in order.
import Mathlib.Data.List.Forall2
import ZBStorage.OpticalNode.ArchiveBatches

/-!
# Batches over restarts

The snapshot gives back the queue, the batch at hand and its breakpoint, without the
marks of the batches' ends. What a run has done with the accepted batches is one list of
finished batches, the begun part of the one at hand and the ones that wait, over any
number of shutdowns that leave the loop over the slices alone.
-/

namespace Zb.OpticalNode.Archive

open Bytes CallHistory

/-! ## The snapshot -/

/-- A request as the snapshot gives it back. -/
def carried (request : SendArchiveMetadataRequest) : SendArchiveMetadataRequest :=
  { request with endOfBatch := false }

/-- The blob of the request has a length that fits its field. -/
def Small (request : SendArchiveMetadataRequest) : Prop :=
  (serializeArchiveRequestBlob request).length < 2 ^ 32

instance (request : SendArchiveMetadataRequest) : Decidable (Small request) :=
  inferInstanceAs (Decidable (_ < _))

variable {request : SendArchiveMetadataRequest} {file : ArchiveFileInfo}
  {batches : List SendArchiveMetadataRequest} {pending : Option SendArchiveMetadataRequest}
  {fileIndex : Nat}

theorem length_serializeFile (file : ArchiveFileInfo) :
    (serializeFile file).length =
      32 + file.targetNodeId.length + file.targetDiskId.length := by
  simp only [serializeFile, List.length_append, length_putU64, length_putString]
  omega

theorem length_serializeArchiveRequestBlob (request : SendArchiveMetadataRequest) :
    (serializeArchiveRequestBlob request).length =
      12 + (request.files.flatMap serializeFile).length := by
  simp only [serializeArchiveRequestBlob, List.length_append, length_putU64, length_putU32]
  omega

theorem files_take_room (request : SendArchiveMetadataRequest) :
    request.files.length * 32 ≤ (request.files.flatMap serializeFile).length :=
  mul_length_le_flatMap (fun file => by rw [length_serializeFile]; omega) request.files

theorem Small.counted (h : Small request) : request.files.length < 2 ^ 32 := by
  have hroom := files_take_room request
  rw [Small, length_serializeArchiveRequestBlob] at h
  omega

theorem Small.strings (h : Small request) (hmem : file ∈ request.files) :
    file.targetNodeId.length < 2 ^ 32 ∧ file.targetDiskId.length < 2 ^ 32 := by
  have hfile := length_le_flatMap serializeFile hmem
  rw [length_serializeFile] at hfile
  rw [Small, length_serializeArchiveRequestBlob] at h
  omega

theorem Small.carried (h : Small request) : Small (carried request) := h

theorem reads_file (hnode : file.targetNodeId.length < 2 ^ 32)
    (hdisk : file.targetDiskId.length < 2 ^ 32) :
    Reads parseFile (serializeFile file) file := by
  apply (reads_u64 _).bind
  apply (reads_u64 _).bind
  apply (reads_u64 _).bind
  apply (reads_string hnode).bind
  exact (reads_string hdisk).map

theorem reads_request (h : Small request) :
    Reads parseRequest (serializeArchiveRequestBlob request) (carried request) := by
  have hfiles : Reads (nextMany parseFile request.files.length)
      (request.files.flatMap serializeFile) (request.files.map id) :=
    Reads.many fun file hmem => reads_file (h.strings hmem).1 (h.strings hmem).2
  rw [List.map_id] at hfiles
  have hroom := files_take_room request
  apply (reads_u64 _).bind
  apply (reads_u32 _).bind
  rw [toNat_ofNat_length h.counted]
  apply Reads.check
  · intro n hn
    exact decide_eq_true (by omega)
  · exact hfiles.map

theorem parse_serializeArchiveRequestBlob (h : Small request) :
    parseArchiveRequestBlob (serializeArchiveRequestBlob request) = some (carried request) :=
  (reads_request h).all

theorem reads_blob (h : Small request) : Reads nextBlob (putBlob request) (carried request) := by
  have hstring : Reads nextString (putBlob request) (serializeArchiveRequestBlob request) :=
    reads_string h
  rw [← List.append_nil (putBlob request)]
  apply hstring.bind
  rw [parse_serializeArchiveRequestBlob h]
  exact Reads.lift _

theorem reads_pending (h : ∀ request ∈ pending, Small request) :
    Reads parsePending (serializePending pending) (pending.map carried) := by
  cases pending with
  | none => exact (reads_u8 0).bind (Reads.pure none)
  | some request => exact (reads_u8 1).bind (reads_blob (h request rfl)).map

/-- The section gives back the requests without their marks, and the breakpoint. -/
theorem parse_archiveQueueSection (hcount : batches.length < 2 ^ 32)
    (hbatches : ∀ request ∈ batches, Small request) (hpending : ∀ request ∈ pending, Small request)
    (hindex : fileIndex < 2 ^ 64) :
    parseArchiveQueueSection (archiveQueueSection batches pending fileIndex) =
      some ((batches.map carried, pending.map carried, fileIndex), []) := by
  have hreads : Reads parseArchiveQueueSection (archiveQueueSection batches pending fileIndex)
      (batches.map carried, pending.map carried, fileIndex) := by
    have hmany : Reads (nextMany nextBlob batches.length) (batches.flatMap putBlob)
        (batches.map carried) :=
      Reads.many fun request hmem => reads_blob (hbatches request hmem)
    have hroom : batches.length * 4 ≤ (batches.flatMap putBlob).length :=
      mul_length_le_flatMap (fun request => by rw [putBlob, length_putString]; omega) batches
    have htoNat : (UInt64.ofNat fileIndex).toNat = fileIndex := by
      rw [UInt64.toNat_ofNat', Nat.mod_eq_of_lt hindex]
    have hlast := (reads_u64 (UInt64.ofNat fileIndex)).map
      (f := fun index => (batches.map carried, pending.map carried, index.toNat))
    rw [htoNat] at hlast
    apply (reads_u32 _).bind
    rw [toNat_ofNat_length hcount]
    apply Reads.check
    · intro n hn
      rw [List.length_append] at hn
      exact decide_eq_true (by omega)
    · exact hmany.bind ((reads_pending hpending).bind hlast)
  have hread := hreads []
  rwa [List.append_nil] at hread

/-! ## What a run has done -/

/-- A request with the number of restarts before it. -/
structure Accepted where
  life : Nat
  request : SendArchiveMetadataRequest

structure Ledger where
  life : Nat := 0
  accepted : List Accepted := []
  log : List Entry := []

/-- The call ends a life. -/
def ArchiveState.restarts (state : ArchiveState) : ArchiveCall → Bool
  | .restart =>
      match state.point with
      | .exited => true
      | _ => false
  | _ => false

/-- The request that the call adds to the queue. -/
def ArchiveState.accepted? (state : ArchiveState) :
    ArchiveCall → Option SendArchiveMetadataRequest
  | .sendArchiveMetadata request => if state.accepts request then some request else none
  | _ => none

def Ledger.note (ledger : Ledger) (state : ArchiveState) (call : ArchiveCall) : Ledger where
  life := if state.restarts call then ledger.life + 1 else ledger.life
  accepted := ledger.accepted ++
    (state.accepted? call).toList.map fun request => ⟨ledger.life, request⟩
  log := ledger.log ++ (state.step call).2

def ledgerOf (hist : List (Served ArchiveState ArchiveCall)) : Ledger :=
  hist.foldl (fun ledger served => ledger.note served.before served.call) {}

/-- The entry is about the file, and a shutdown is not its reason. -/
def Settles (file : ArchiveFileInfo) : Entry → Prop
  | .write inodeId path => inodeId = file.inodeId ∧ path = relativePath file
  | .refused refused reason => refused = file ∧ reason ≠ .stopped
  | _ => False

/-- The entries of a batch that has come to its end, or that was discarded for want of
    the addresses of the nodes. -/
inductive Treated (request : SendArchiveMetadataRequest) (flushes : Bool) : List Entry → Prop
  | completed {entries : List Entry} : List.Forall₂ Settles request.files entries →
      Treated request flushes (entries ++ if flushes then [.flush] else [])
  | discarded {entries : List Entry} {n : Nat} :
      List.Forall₂ Settles (request.files.take n) entries →
      Treated request flushes (entries ++ [.discarded (request.files.drop n)])

/-- A batch with the number of restarts before its end, and its entries. -/
structure Finished where
  accepted : Accepted
  life : Nat
  entries : List Entry

/-- The part of the batch at hand before the breakpoint. -/
def ArchiveState.begunFiles (state : ArchiveState) : List ArchiveFileInfo :=
  match state.pendingArchiveRequest with
  | none => []
  | some request => request.files.take state.pendingArchiveFileIndex

def ArchiveState.waiting (state : ArchiveState) : List SendArchiveMetadataRequest :=
  state.pendingArchiveRequest.toList ++ state.archiveTaskQueue

/-- The accepted batches are the finished ones and, with their files, the waiting ones.
    The log is what became of the finished ones and of the files before the breakpoint. -/
def Resumes (ok : ArchiveState → ArchiveCall → Prop) (flushes : Accepted → Nat → Bool) : Prop :=
  ∀ hist state, Serves ArchiveState.Serve ok {} hist state →
    ∃ (done : List Finished) (waiting : List Accepted) (begun : List Entry),
      (ledgerOf hist).accepted = done.map Finished.accepted ++ waiting ∧
      (ledgerOf hist).log = done.flatMap Finished.entries ++ begun ∧
      (∀ batch ∈ done, Treated batch.accepted.request (flushes batch.accepted batch.life)
        batch.entries) ∧
      state.waiting.map SendArchiveMetadataRequest.files =
        waiting.map (fun accepted => accepted.request.files) ∧
      List.Forall₂ Settles state.begunFiles begun

/-- Every batch with the mark is flushed. -/
def flushAlways (accepted : Accepted) (_ : Nat) : Bool := accepted.request.endOfBatch

/-- Every batch with the mark is flushed that ends in the life in which it was accepted. -/
def flushInLife (accepted : Accepted) (life : Nat) : Bool :=
  accepted.request.endOfBatch && accepted.life = life

/-- The thread is about to fetch a slice. -/
def ArchiveState.fetching (state : ArchiveState) : Bool :=
  match state.point with
  | .slices _ _ _ rest _ => !rest.isEmpty
  | _ => false

/-- No shutdown falls into the loop over the slices of a file, and what the snapshot
    counts fits its fields. -/
def Undisturbed (state : ArchiveState) : ArchiveCall → Prop
  | .sendArchiveMetadata request => Small request
  | .advance _ => state.fetching = true → state.stopRequested = false
  | .stop => True
  | .restart => state.archiveTaskQueue.length < 2 ^ 32

/-! ## One step -/

/-- A request as the queue holds it in the given life. -/
def Accepted.inLife (accepted : Accepted) (life : Nat) : SendArchiveMetadataRequest :=
  if accepted.life = life then accepted.request else carried accepted.request

/-- The file that a point of the thread is about. -/
def Point.file? : Point → Option ArchiveFileInfo
  | .slices _ file _ _ _ => some file
  | .downloaded _ file => some file
  | _ => none

structure Resumption (ledger : Ledger) (state : ArchiveState) (done : List Finished)
    (waiting : List Accepted) (begun : List Entry) : Prop where
  accepted : ledger.accepted = done.map Finished.accepted ++ waiting
  log : ledger.log = done.flatMap Finished.entries ++ begun
  treated : ∀ batch ∈ done, Treated batch.accepted.request
    (flushInLife batch.accepted batch.life) batch.entries
  remaining : state.waiting = waiting.map fun accepted => accepted.inLife ledger.life
  begun : List.Forall₂ Settles state.begunFiles begun
  past : ∀ accepted ∈ waiting, accepted.life ≤ ledger.life
  small : ∀ request ∈ state.waiting, Small request
  index : ∀ request ∈ state.pendingArchiveRequest,
    state.pendingArchiveFileIndex ≤ request.files.length
  bounded : state.pendingArchiveFileIndex < 2 ^ 64
  current : ∀ file ∈ state.point.file?, ∀ request ∈ state.pendingArchiveRequest,
    request.files[state.pendingArchiveFileIndex]? = some file

variable {ledger : Ledger} {state : ArchiveState} {done : List Finished} {waiting : List Accepted}
  {begun : List Entry} {map : NodeAddressMap} {answer : Answer} {accepted : Accepted} {life : Nat}

@[simp] theorem Accepted.files_inLife (accepted : Accepted) (life : Nat) :
    (accepted.inLife life).files = accepted.request.files := by
  rw [inLife]
  split <;> rfl

theorem Accepted.endOfBatch_inLife (accepted : Accepted) (life : Nat) :
    (accepted.inLife life).endOfBatch = flushInLife accepted life := by
  rw [inLife, flushInLife]
  split <;> rename_i hlife <;> simp [hlife, carried]

theorem Accepted.carried_inLife (h : accepted.life ≤ life) :
    carried (accepted.inLife life) = accepted.inLife (life + 1) := by
  have hlater : accepted.life ≠ life + 1 := by omega
  rw [inLife, inLife, if_neg hlater]
  split <;> rfl

def Ledger.write (ledger : Ledger) (entries : List Entry) : Ledger :=
  { ledger with log := ledger.log ++ entries }

theorem Ledger.write_nil (ledger : Ledger) : ledger.write [] = ledger := by
  rw [write, List.append_nil]

/-- A step that only moves the thread. -/
theorem Resumption.move (h : Resumption ledger state done waiting begun) (point : Point)
    (hpoint : ∀ file ∈ point.file?, ∀ request ∈ state.pendingArchiveRequest,
      request.files[state.pendingArchiveFileIndex]? = some file) :
    Resumption ledger { state with point := point } done waiting begun :=
  { h with current := hpoint }

theorem Resumption.exit (h : Resumption ledger state done waiting begun) :
    Resumption ledger state.exit done waiting begun :=
  h.move .exited fun _ hfile => nomatch hfile

/-- The file at the breakpoint is settled. -/
theorem Resumption.skip (h : Resumption ledger state done waiting begun) (entry : Entry)
    (hpending : state.pendingArchiveRequest = some request)
    (hfile : request.files[state.pendingArchiveFileIndex]? = some file)
    (hentry : Settles file entry) :
    Resumption (ledger.write [entry]) (state.skip map) done waiting (begun ++ [entry]) where
  accepted := h.accepted
  log := by rw [Ledger.write, h.log, List.append_assoc]
  treated := h.treated
  remaining := h.remaining
  begun := by
    have hbegun := h.begun
    rw [ArchiveState.begunFiles, hpending] at hbegun
    have hnext : (state.skip map).begunFiles =
        request.files.take state.pendingArchiveFileIndex ++ [file] := by
      rw [ArchiveState.begunFiles, ArchiveState.skip, hpending]
      exact List.take_add_one.trans (by rw [hfile]; rfl)
    rw [hnext]
    exact List.rel_append hbegun (.cons hentry .nil)
  past := h.past
  small := h.small
  index := by
    intro other hother
    rw [show (state.skip map).pendingArchiveRequest = some request from hpending] at hother
    cases hother
    exact (List.getElem?_eq_some_iff.mp hfile).1
  bounded := by
    have hlt := (List.getElem?_eq_some_iff.mp hfile).1
    have hsmall : Small request := h.small request (by simp [ArchiveState.waiting, hpending])
    have hcounted := hsmall.counted
    change state.pendingArchiveFileIndex + 1 < 2 ^ 64
    omega
  current := fun _ hnone => nomatch hnone

/-- The batch at hand has come to its end. -/
theorem Resumption.finish (h : Resumption ledger state done waiting begun) {entries : List Entry}
    (hpending : state.pendingArchiveRequest = some request)
    (hentries : ∀ accepted, request = accepted.inLife ledger.life →
      Treated accepted.request (flushInLife accepted ledger.life) (begun ++ entries))
    {index : Nat} (hindex : index < 2 ^ 64) :
    ∃ done waiting, Resumption (ledger.write entries)
      { state with
        pendingArchiveRequest := none
        pendingArchiveFileIndex := index
        point := .top } done waiting [] := by
  have hremaining := h.remaining
  rw [ArchiveState.waiting, hpending] at hremaining
  cases waiting with
  | nil => simp at hremaining
  | cons first rest =>
      simp only [Option.toList_some, List.cons_append, List.nil_append, List.map_cons,
        List.cons.injEq] at hremaining
      let batch : Finished := ⟨first, ledger.life, begun ++ entries⟩
      refine ⟨done ++ [batch], rest, ?_, ?_, ?_, ?_, .nil, ?_, ?_, (fun _ hnone => nomatch hnone),
        hindex, (fun _ hnone => nomatch hnone)⟩
      · rw [Ledger.write, h.accepted, List.map_append]
        exact (List.append_assoc _ [first] rest).symm
      · rw [Ledger.write, h.log, List.flatMap_append, List.append_nil, List.append_assoc]
        simp [batch]
      · intro other hother
        rcases List.mem_append.mp hother with hold | hnew
        · exact h.treated other hold
        · rw [List.mem_singleton.mp hnew]
          exact hentries first hremaining.1
      · exact hremaining.2
      · intro other hother
        exact h.past other (List.mem_cons_of_mem _ hother)
      · intro other hother
        refine h.small other ?_
        rw [ArchiveState.waiting]
        exact List.mem_append_right _ hother

/-- The end of a batch, all files of which are settled. -/
theorem Resumption.complete (h : Resumption ledger state done waiting begun)
    (hpending : state.pendingArchiveRequest = some request)
    (hlast : request.files.length ≤ state.pendingArchiveFileIndex) {index : Nat}
    (hindex : index < 2 ^ 64) :
    ∃ done waiting, Resumption (ledger.write (if request.endOfBatch then [.flush] else []))
      { state with
        pendingArchiveRequest := none
        pendingArchiveFileIndex := index
        point := .top } done waiting [] := by
  refine h.finish hpending (fun accepted haccepted => ?_) hindex
  have hbegun := h.begun
  rw [ArchiveState.begunFiles, hpending] at hbegun
  dsimp only at hbegun
  rw [List.take_of_length_le hlast, haccepted, Accepted.files_inLife] at hbegun
  rw [haccepted, Accepted.endOfBatch_inLife]
  exact .completed hbegun

theorem Resumption.discard (h : Resumption ledger state done waiting begun)
    (hpending : state.pendingArchiveRequest = some request) :
    ∃ done waiting, Resumption
      (ledger.write [.discarded (request.files.drop state.pendingArchiveFileIndex)])
      state.drop done waiting [] := by
  refine h.finish hpending (fun accepted haccepted => ?_) (Nat.two_pow_pos 64)
  have hbegun := h.begun
  rw [ArchiveState.begunFiles, hpending] at hbegun
  dsimp only at hbegun
  rw [haccepted, Accepted.files_inLife] at hbegun ⊢
  exact .discarded hbegun

/-- There is a decomposition of what the run has done. -/
def Resumable (ledger : Ledger) (state : ArchiveState) : Prop :=
  ∃ done waiting begun, Resumption ledger state done waiting begun

theorem Resumption.resumable (h : Resumption ledger state done waiting begun) :
    Resumable ledger state := ⟨done, waiting, begun, h⟩

theorem Resumption.unchanged (h : Resumption ledger state done waiting begun) :
    Resumable (ledger.write []) state := by
  rw [Ledger.write_nil]
  exact h.resumable

theorem Resumption.refuse (h : Resumption ledger state done waiting begun)
    (hpending : state.pendingArchiveRequest = some request)
    (hfile : request.files[state.pendingArchiveFileIndex]? = some file) {reason : Refusal}
    (hreason : reason ≠ .stopped) :
    Resumable (ledger.write [.refused file reason]) (state.skip map) :=
  (h.skip (.refused file reason) hpending hfile ⟨rfl, hreason⟩).resumable

theorem Resumption.takeBatch (h : Resumption ledger state done waiting begun) :
    Resumable (ledger.write []) state.takeBatch := by
  rw [ArchiveState.takeBatch]
  split
  · exact h.exit.unchanged
  · split
    · exact (h.move .mapping fun _ hfile => nomatch hfile).unchanged
    · rename_i hnone
      split
      · exact h.unchanged
      · rename_i first rest hqueue
        have hwaiting : state.waiting = first :: rest := by
          rw [ArchiveState.waiting, hnone, hqueue]
          rfl
        have hbegun := h.begun
        rw [ArchiveState.begunFiles, hnone] at hbegun
        have hnew : Resumption ledger
            { state with
              archiveTaskQueue := rest
              pendingArchiveRequest := some first
              pendingArchiveFileIndex := 0
              point := .mapping } done waiting begun :=
          { h with
            remaining := hwaiting.symm.trans h.remaining
            begun := hbegun
            small := fun request hmem => h.small request (hwaiting.symm ▸ hmem)
            index := fun request _ => Nat.zero_le _
            bounded := Nat.two_pow_pos 64
            current := fun _ hfile => nomatch hfile }
        exact hnew.unchanged

theorem Resumption.mapNodes (h : Resumption ledger state done waiting begun)
    (hpending : state.pendingArchiveRequest = some request) :
    Resumable (ledger.write (state.mapNodes request answer).2)
      (state.mapNodes request answer).1 := by
  rw [ArchiveState.mapNodes]
  split
  · rename_i hempty
    rw [Bool.and_eq_true, List.isEmpty_iff] at hempty
    have hlast : request.files.length ≤ state.pendingArchiveFileIndex := by
      rw [hempty.1]
      exact Nat.zero_le _
    obtain ⟨done, waiting, hdone⟩ := h.complete hpending hlast h.bounded
    rw [hempty.2, if_pos rfl] at hdone
    exact hdone.resumable
  · split
    · obtain ⟨done, waiting, hdone⟩ := h.discard hpending
      exact hdone.resumable
    · rename_i map _
      exact (h.move (.files map) fun _ hfile => nomatch hfile).unchanged

/-- No check in front of the loop over the slices is about a shutdown. -/
theorem beginDownload_ne_stopped {address : Bytes} {fetch : Fetch} {reason : Refusal}
    (h : beginDownload file address fetch = .error reason) : reason ≠ .stopped := by
  rintro rfl
  revert h
  rw [beginDownload]
  repeat' split
  all_goals nofun

theorem fetchSlice_ne_stopped {objectUnitSize : UInt64} {slice : FileObjectSlice} {content : Bytes}
    {read : SliceAnswer} {reason : Refusal}
    (h : fetchSlice objectUnitSize slice content read = .error reason) : reason ≠ .stopped := by
  rintro rfl
  revert h
  cases read with
  | failed => nofun
  | bad => nofun
  | data bytes written =>
      rw [fetchSlice]
      repeat' split
      all_goals nofun

theorem Resumption.nextFile (h : Resumption ledger state done waiting begun)
    (hpending : state.pendingArchiveRequest = some request) :
    Resumable (ledger.write (state.nextFile request map answer).2)
      (state.nextFile request map answer).1 := by
  rw [ArchiveState.nextFile]
  split
  · rename_i hlast
    obtain ⟨done, waiting, hdone⟩ := h.complete hpending
      (List.getElem?_eq_none_iff.mp hlast) (Nat.two_pow_pos 64)
    exact hdone.resumable
  · rename_i file hfile
    split
    · exact h.exit.unchanged
    · split
      · exact h.unchanged
      · split
        · exact h.refuse hpending hfile nofun
        · split
          · rename_i reason hreason
            exact h.refuse hpending hfile (beginDownload_ne_stopped hreason)
          · refine (h.move _ fun other hother request' hrequest => ?_).unchanged
            cases hother
            rw [hpending] at hrequest
            cases hrequest
            exact hfile

theorem Resumption.nextSlice (h : Resumption ledger state done waiting begun)
    (hpending : state.pendingArchiveRequest = some request)
    (hfile : request.files[state.pendingArchiveFileIndex]? = some file) {objectUnitSize : UInt64}
    {rest : List FileObjectSlice} {content : Bytes}
    (hstop : rest ≠ [] → state.stopRequested = false) :
    Resumable (ledger.write (state.nextSlice map file objectUnitSize rest content answer).2)
      (state.nextSlice map file objectUnitSize rest content answer).1 := by
  have hcurrent : ∀ other ∈ some file, ∀ request' ∈ state.pendingArchiveRequest,
      request'.files[state.pendingArchiveFileIndex]? = some other := by
    intro other hother request' hrequest
    cases hother
    rw [hpending] at hrequest
    cases hrequest
    exact hfile
  cases rest with
  | nil =>
      rw [ArchiveState.nextSlice]
      split
      · exact (h.move (.downloaded map file) hcurrent).unchanged
      · exact h.refuse hpending hfile nofun
  | cons slice rest =>
      have hrun : ¬state.stopRequested = true := Bool.not_eq_true _ ▸ hstop (List.cons_ne_nil _ _)
      rw [ArchiveState.nextSlice, if_neg hrun]
      split
      · rename_i reason hreason
        exact h.refuse hpending hfile (fetchSlice_ne_stopped hreason)
      · rename_i content' _
        exact (h.move (.slices map file objectUnitSize rest content') hcurrent).unchanged

theorem Resumption.submit (h : Resumption ledger state done waiting begun)
    (hpending : state.pendingArchiveRequest = some request)
    (hfile : request.files[state.pendingArchiveFileIndex]? = some file) :
    Resumable (ledger.write (state.submitWriteTaskForArchive map file).2)
      (state.submitWriteTaskForArchive map file).1 := by
  rw [ArchiveState.submitWriteTaskForArchive]
  split
  · exact h.exit.unchanged
  · exact (h.skip (.write file.inodeId (relativePath file)) hpending hfile ⟨rfl, rfl⟩).resumable

theorem Resumption.advance (h : Resumption ledger state done waiting begun)
    (hok : Undisturbed state (.advance answer)) :
    Resumable (ledger.write (state.advance answer).2) (state.advance answer).1 := by
  rw [ArchiveState.advance]
  split
  · exact h.takeBatch
  · rename_i hpending
    exact h.mapNodes hpending
  · rename_i hpending
    exact h.nextFile hpending
  · rename_i map file objectUnitSize rest content request hpoint hpending
    have hfile := h.current file (by rw [hpoint]; rfl) request hpending
    refine h.nextSlice hpending hfile fun hrest => hok ?_
    rw [ArchiveState.fetching, hpoint]
    simpa using hrest
  · rename_i map file request hpoint hpending
    exact h.submit hpending (h.current file (by rw [hpoint]; rfl) request hpending)
  · exact h.unchanged

/-! ## Runs -/

theorem Resumption.send (h : Resumption ledger state done waiting begun) (hsmall : Small request) :
    Resumable { ledger with accepted := ledger.accepted ++ [⟨ledger.life, request⟩] }
      { state with archiveTaskQueue := state.archiveTaskQueue ++ [request] } := by
  have hwaiting : ∀ queue, { state with archiveTaskQueue := queue }.waiting =
      state.pendingArchiveRequest.toList ++ queue := fun _ => rfl
  refine ⟨done, waiting ++ [⟨ledger.life, request⟩], begun, ?_⟩
  refine { h with accepted := ?_, remaining := ?_, past := ?_, small := ?_ }
  · rw [h.accepted, List.append_assoc]
  · have hremaining := h.remaining
    rw [ArchiveState.waiting] at hremaining
    rw [hwaiting, ← List.append_assoc, hremaining, List.map_append]
    simp [Accepted.inLife]
  · intro accepted hmem
    rcases List.mem_append.mp hmem with hold | hnew
    · exact h.past accepted hold
    · rw [List.mem_singleton.mp hnew]
  · intro other hmem
    rw [hwaiting, ← List.append_assoc] at hmem
    rcases List.mem_append.mp hmem with hold | hnew
    · exact h.small other hold
    · rw [List.mem_singleton.mp hnew]
      exact hsmall

/-- The new engine has what the old one had, without the marks. -/
theorem Resumption.load (h : Resumption ledger state done waiting begun)
    (hcount : state.archiveTaskQueue.length < 2 ^ 32) :
    Resumable { ledger with life := ledger.life + 1 } (ArchiveState.load state.persist) := by
  have hparse := parse_archiveQueueSection hcount
    (fun request hmem => h.small request (List.mem_append_right _ hmem))
    (fun request hmem => h.small request (List.mem_append_left _ (Option.mem_toList.mpr hmem)))
    h.bounded
  have hload : ArchiveState.load state.persist =
      { archiveTaskQueue := state.archiveTaskQueue.map carried
        pendingArchiveRequest := state.pendingArchiveRequest.map carried
        pendingArchiveFileIndex := state.pendingArchiveFileIndex } := by
    rw [ArchiveState.load, ArchiveState.persist, hparse]
  have hwaiting : (ArchiveState.load state.persist).waiting = state.waiting.map carried := by
    rw [hload, ArchiveState.waiting, ArchiveState.waiting, List.map_append, Option.toList_map]
  refine ⟨done, waiting, begun, h.accepted, h.log, h.treated, ?_, ?_, ?_, ?_, ?_, ?_, ?_⟩
  · rw [hwaiting, h.remaining, List.map_map]
    exact List.map_congr_left fun accepted hmem => accepted.carried_inLife (h.past accepted hmem)
  · have hbegun := h.begun
    rw [ArchiveState.begunFiles] at hbegun
    rw [hload, ArchiveState.begunFiles]
    cases hpending : state.pendingArchiveRequest with
    | none =>
        rw [hpending] at hbegun
        exact hbegun
    | some request =>
        rw [hpending] at hbegun
        exact hbegun
  · exact fun accepted hmem => Nat.le_succ_of_le (h.past accepted hmem)
  · intro request hmem
    rw [hwaiting] at hmem
    obtain ⟨old, hold, rfl⟩ := List.mem_map.mp hmem
    exact (h.small old hold).carried
  · intro request hmem
    rw [hload] at hmem ⊢
    obtain ⟨old, hold, rfl⟩ := Option.mem_map.mp hmem
    exact h.index old hold
  · rw [hload]
    exact h.bounded
  · intro file hmem
    rw [hload] at hmem
    exact nomatch hmem

theorem Resumption.step {call : ArchiveCall} (h : Resumption ledger state done waiting begun)
    (hok : Undisturbed state call) : Resumable (ledger.note state call) (state.serve call) := by
  cases call with
  | sendArchiveMetadata request =>
      rw [Ledger.note, ArchiveState.serve, ArchiveState.step, ArchiveState.accepted?]
      cases haccepts : state.accepts request with
      | false =>
          simp only [Bool.false_eq_true, if_false, ArchiveState.restarts, Option.toList_none,
            List.map_nil, List.append_nil]
          exact h.resumable
      | true =>
          simp only [if_true, ArchiveState.restarts, Bool.false_eq_true, if_false, List.append_nil]
          exact h.send hok
  | advance answer =>
      have hnote : ledger.note state (.advance answer) = ledger.write (state.advance answer).2 := by
        simp [Ledger.note, Ledger.write, ArchiveState.restarts, ArchiveState.accepted?,
          ArchiveState.step]
      rw [hnote]
      exact h.advance hok
  | stop =>
      have hnote : ledger.note state .stop = ledger.write [] := by
        simp [Ledger.note, Ledger.write, ArchiveState.restarts, ArchiveState.accepted?,
          ArchiveState.step]
      have hstop : Resumption ledger { state with stopRequested := true } done waiting begun :=
        { h with }
      rw [hnote]
      exact hstop.unchanged
  | restart =>
      rw [Ledger.note, ArchiveState.serve, ArchiveState.step, ArchiveState.restarts]
      cases state.point with
      | exited =>
          simp only [if_true, ArchiveState.accepted?, Option.toList_none, List.map_nil,
            List.append_nil]
          exact h.load hok
      | _ =>
          simp only [Bool.false_eq_true, if_false, ArchiveState.accepted?, Option.toList_none,
            List.map_nil, List.append_nil]
          exact h.resumable

theorem ledgerOf_snoc (hist : List (Served ArchiveState ArchiveCall)) (state : ArchiveState)
    (call : ArchiveCall) (state' : ArchiveState) :
    ledgerOf (hist ++ [⟨state, call, state'⟩]) = (ledgerOf hist).note state call := by
  rw [ledgerOf, List.foldl_append]
  rfl

theorem resumable_serves {hist : List (Served ArchiveState ArchiveCall)}
    (h : Serves ArchiveState.Serve Undisturbed {} hist state) : Resumable (ledgerOf hist) state := by
  induction h with
  | nil =>
      have hstart : Resumption {} {} [] [] [] :=
        { accepted := rfl
          log := rfl
          treated := fun _ hmem => nomatch hmem
          remaining := rfl
          begun := .nil
          past := fun _ hmem => nomatch hmem
          small := fun _ hmem => nomatch hmem
          index := fun _ hmem => nomatch hmem
          bounded := Nat.two_pow_pos 64
          current := fun _ hmem => nomatch hmem }
      exact hstart.resumable
  | snoc _ hok hserve ih =>
      obtain ⟨done, waiting, begun, h⟩ := ih
      cases hserve
      rw [ledgerOf_snoc]
      exact h.step hok

/-- Every file is handed over or refused once, in order, whatever shutdowns come in
    between, and the batches that see none of them are flushed at their ends. -/
theorem archive_batches_resume : Resumes Undisturbed flushInLife := by
  intro hist state hserves
  obtain ⟨done, waiting, begun, h⟩ := resumable_serves hserves
  refine ⟨done, waiting, begun, h.accepted, h.log, h.treated, ?_, h.begun⟩
  rw [h.remaining, List.map_map]
  exact List.map_congr_left fun accepted _ => accepted.files_inLife _

/-! ## A mark is lost -/

/-- A last request without files is accepted, and the node is shut down and started. -/
def stoppedBeforeFlush : List ArchiveCall :=
  [.sendArchiveMetadata { batchId := 1, endOfBatch := true }, .stop, .advance {}, .restart,
    .advance {}, .advance {}, .advance {}]

theorem serving_serve (state : ArchiveState) (call : ArchiveCall) :
    ArchiveState.Serve state call (state.serve call) := rfl

instance (state : ArchiveState) : (call : ArchiveCall) → Decidable (Undisturbed state call)
  | .sendArchiveMetadata _ => inferInstanceAs (Decidable (Small _))
  | .advance _ => inferInstanceAs (Decidable (_ → _))
  | .stop => inferInstanceAs (Decidable True)
  | .restart => inferInstanceAs (Decidable (_ < _))

/-- The request is then finished, with nothing in its log. -/
theorem archive_batches_resume_of_stop :
    ∃ (done : List Finished) (waiting : List Accepted),
      [⟨0, { batchId := 1, endOfBatch := true }⟩] = done.map Finished.accepted ++ waiting ∧
      waiting = [] ∧ ∀ batch ∈ done, batch.entries = [] := by
  obtain ⟨done, waiting, begun, haccepted, hlog, -, hwaiting, -⟩ := archive_batches_resume _ _
    (serves_runOf serving_serve stoppedBeforeFlush {} (by decide +kernel))
  have hempty : (runOf ArchiveState.serve {} stoppedBeforeFlush).2.waiting = [] := by
    decide +kernel
  have hledger : (ledgerOf (runOf ArchiveState.serve {} stoppedBeforeFlush).1).log = [] := by
    decide +kernel
  rw [hempty] at hwaiting
  rw [hledger] at hlog
  refine ⟨done, waiting, haccepted, List.map_eq_nil_iff.mp hwaiting.symm, fun batch hbatch => ?_⟩
  exact List.flatMap_eq_nil_iff.mp (List.append_eq_nil_iff.mp hlog.symm).1 batch hbatch

/-- The batch comes to its end without the flush that its mark asks for. -/
theorem archive_flush_lost : ¬Resumes Undisturbed flushAlways := by
  intro h
  obtain ⟨done, waiting, begun, haccepted, hlog, htreated, hwaiting, -⟩ :=
    h _ _ (serves_runOf serving_serve stoppedBeforeFlush {} (by decide +kernel))
  have hnone : waiting = [] := by
    have hempty : (runOf ArchiveState.serve {} stoppedBeforeFlush).2.waiting = [] := by
      decide +kernel
    rw [hempty] at hwaiting
    exact List.map_eq_nil_iff.mp hwaiting.symm
  have hledger : (ledgerOf (runOf ArchiveState.serve {} stoppedBeforeFlush).1).log = [] := by
    decide +kernel
  have hone : (ledgerOf (runOf ArchiveState.serve {} stoppedBeforeFlush).1).accepted =
      [⟨0, { batchId := 1, endOfBatch := true }⟩] := by
    rfl
  rw [hone, hnone, List.append_nil] at haccepted
  rw [hledger] at hlog
  obtain ⟨batch, rfl, hbatch⟩ := List.map_eq_singleton_iff.mp haccepted.symm
  have hflush := htreated batch List.mem_cons_self
  simp only [List.flatMap_cons, List.flatMap_nil, List.append_nil] at hlog
  rw [(List.append_eq_nil_iff.mp hlog.symm).1, hbatch] at hflush
  generalize hentries : ([] : List Entry) = entries at hflush
  cases hflush with
  | completed => simp [flushAlways] at hentries
  | discarded => simp at hentries

end Zb.OpticalNode.Archive
