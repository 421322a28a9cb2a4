-- SUMMARY: Callbacks of prepared files: each invoked once by the stop, with a success only after the node's message.
import ZBStorage.Client.OpticalReadClient

/-!
# Callbacks of prepared files

What the steps of the client keep: the maps agree with each other, every accepted
callback is in one place, a success follows a message of the right node, and the
stop waits for the messages that are being handled. A callback is lost when it waits
for a record whose preparation then fails.
-/

namespace Zb.Client.Optical

open Bytes CallHistory TableSum

/-! ## Records that go on -/

abbrev Heap := AList fun _ : Nat => Record

/-- A later state of a record. -/
structure Record.Follows (record record' : Record) : Prop where
  file : record'.file = record.file
  result : record'.result = record.result
  taskId : record.taskId ≠ 0 → record'.taskId = record.taskId
  waiting : record'.Waiting → record.Waiting

namespace Record.Follows

variable {record record' : Record}

theorem refl (record : Record) : record.Follows record := ⟨rfl, rfl, fun _ => rfl, id⟩

theorem key (h : record.Follows record') : record'.key = record.key := by
  rw [Record.key, h.file, Record.key]

theorem handle (h : record.Follows record') : record'.handle = record.handle := by
  rw [Record.handle, h.result, Record.handle]

theorem onReady (address : Bytes) (event : ReadReadyEvent) (hwaiting : record.Waiting) :
    record.Follows (record.onReady address event) := by
  unfold Record.onReady
  split
  · exact ⟨rfl, rfl, fun hne => if_neg hne, fun _ => hwaiting⟩
  · exact ⟨rfl, rfl, fun _ => rfl, fun _ => hwaiting⟩

theorem accept (rpc : RpcEnd PrepareReadReply) : record.Follows (record.accept rpc).1 := by
  unfold Record.accept
  split
  · exact refl record
  split
  · exact refl record
  · refine ⟨rfl, rfl, fun hne => if_neg hne, ?_⟩
    intro hwaiting
    by_cases hstate : record.state = .Submitting
    · exact .inl hstate
    · simp only [Waiting, if_neg hstate] at hwaiting
      exact hwaiting

end Record.Follows

/-- The records of a heap are kept, and no other comes in. -/
structure Heap.Follows (heap heap' : Heap) : Prop where
  kept : ∀ ref record, heap.lookup ref = some record →
    ∃ record', heap'.lookup ref = some record' ∧ record.Follows record'
  old : ∀ ref record', heap'.lookup ref = some record' →
    ∃ record, heap.lookup ref = some record ∧ record.Follows record'

namespace Heap.Follows

variable {heap : Heap} {ref : Nat} {record record' : Record}

theorem insert (hlookup : heap.lookup ref = some record) (h : record.Follows record') :
    Heap.Follows heap (heap.insert ref record') := by
  constructor
  · intro other found hfound
    by_cases heq : other = ref
    · subst heq
      cases hlookup.symm.trans hfound
      exact ⟨record', AList.lookup_insert heap, h⟩
    · exact ⟨found, by rw [AList.lookup_insert_ne heq]; exact hfound, .refl found⟩
  · intro other found hfound
    by_cases heq : other = ref
    · subst heq
      rw [AList.lookup_insert] at hfound
      cases hfound
      exact ⟨record, hlookup, h⟩
    · rw [AList.lookup_insert_ne heq] at hfound
      exact ⟨found, hfound, .refl found⟩

end Heap.Follows

/-- What taking the watchers out of some records leaves. -/
theorem lookup_takeWatchers (refs : List Nat) (heap : Heap) (ref : Nat) :
    (takeWatchers heap refs).1.lookup ref = (heap.lookup ref).map fun record =>
      if ref ∈ refs then { record with watchers := [] } else record := by
  induction refs generalizing heap with
  | nil =>
      rw [takeWatchers]
      cases heap.lookup ref with
      | none => rfl
      | some record => rfl
  | cons first refs ih =>
      rw [takeWatchers]
      cases hfirst : heap.lookup first with
      | none =>
          dsimp only
          rw [ih]
          by_cases heq : ref = first
          · subst heq
            rw [hfirst]
            rfl
          · simp only [List.mem_cons, heq, false_or]
      | some record =>
          dsimp only
          rw [ih]
          by_cases heq : ref = first
          · subst heq
            rw [AList.lookup_insert, hfirst]
            simp only [Option.map_some, List.mem_cons, true_or, if_true]
            split <;> rfl
          · rw [AList.lookup_insert_ne heq]
            simp only [List.mem_cons, heq, false_or]

theorem Heap.Follows.takeWatchers (refs : List Nat) (heap : Heap) :
    Heap.Follows heap (takeWatchers heap refs).1 := by
  have hfollows (ref : Nat) (record : Record) :
      record.Follows (if ref ∈ refs then { record with watchers := [] } else record) := by
    split
    · exact ⟨rfl, rfl, fun _ => rfl, id⟩
    · exact .refl record
  constructor
  · intro ref record hlookup
    refine ⟨_, ?_, hfollows ref record⟩
    rw [lookup_takeWatchers, hlookup, Option.map_some]
  · intro ref record' hlookup
    rw [lookup_takeWatchers] at hlookup
    obtain ⟨record, hfound, rfl⟩ := Option.map_eq_some_iff.mp hlookup
    exact ⟨record, hfound, hfollows ref record⟩

/-! ## The maps -/

/-- The request of the record that is created after `ref` others. -/
def requestOf (instanceId : Bytes) (ref : Nat) : Bytes :=
  requestId instanceId (UInt64.ofNat (ref + 1))

/-- `records` and `active` agree, and requests that were refused are not recorded. -/
structure Maps (client : OpticalReadClient) : Prop where
  next : client.nextRequest.toNat = client.created + 1
  heap : ∀ ref record, client.heap.lookup ref = some record →
    ref < client.created ∧ record.handle = requestOf client.instanceId ref
  recorded : ∀ handle ref, client.records.lookup handle = some ref →
    ∃ record, client.heap.lookup ref = some record ∧ record.handle = handle
  active : ∀ key ref, client.active.lookup key = some ref →
    ∃ record, client.heap.lookup ref = some record ∧ record.key = key ∧
      client.records.lookup record.handle = some ref
  refused : ∀ handle ∈ client.refusals, client.records.lookup handle = none ∧
    ∃ ref < client.created, handle = requestOf client.instanceId ref

namespace Maps

variable {client : OpticalReadClient} {ref : Nat} {record : Record}

theorem requestOf_inj {instanceId : Bytes} {m n : Nat} (hm : m + 1 < 2 ^ 64) (hn : n + 1 < 2 ^ 64)
    (h : requestOf instanceId m = requestOf instanceId n) : m = n := by
  have hdecimal := decimal_injective (List.append_cancel_left h)
  rw [UInt64.toNat_ofNat_of_lt' hm, UInt64.toNat_ofNat_of_lt' hn] at hdecimal
  exact Nat.succ.inj hdecimal

theorem created_lt (h : Maps client) : client.created + 1 < 2 ^ 64 := by
  rw [← h.next]
  exact client.nextRequest.toNat_lt

/-- A request is of one record. -/
theorem unique (h : Maps client) {ref' : Nat} {record' : Record}
    (hlookup : client.heap.lookup ref = some record)
    (hlookup' : client.heap.lookup ref' = some record') (heq : record.handle = record'.handle) :
    ref = ref' := by
  obtain ⟨hlt, hhandle⟩ := h.heap ref record hlookup
  obtain ⟨hlt', hhandle'⟩ := h.heap ref' record' hlookup'
  have hbound := h.created_lt
  have hrequest : requestOf client.instanceId ref = requestOf client.instanceId ref' := by
    rw [← hhandle, ← hhandle', heq]
  exact requestOf_inj (by omega) (by omega) hrequest

/-- The maps stay, and the records go on. -/
theorem follows {heap : Heap} (h : Maps client) (hfollows : Heap.Follows client.heap heap) :
    Maps { client with heap := heap } where
  next := h.next
  heap ref record hlookup := by
    obtain ⟨before, hbefore, hnext⟩ := hfollows.old ref record hlookup
    rw [hnext.handle]
    exact h.heap ref before hbefore
  recorded handle ref hlookup := by
    obtain ⟨before, hbefore, hhandle⟩ := h.recorded handle ref hlookup
    obtain ⟨record, hrecord, hnext⟩ := hfollows.kept ref before hbefore
    exact ⟨record, hrecord, hnext.handle.trans hhandle⟩
  active key ref hlookup := by
    obtain ⟨before, hbefore, hkey, hrecorded⟩ := h.active key ref hlookup
    obtain ⟨record, hrecord, hnext⟩ := hfollows.kept ref before hbefore
    refine ⟨record, hrecord, hnext.key.trans hkey, ?_⟩
    rw [hnext.handle]
    exact hrecorded
  refused := h.refused

theorem setRecord {record' : Record} (h : Maps client)
    (hlookup : client.heap.lookup ref = some record) (hfollows : record.Follows record') :
    Maps (client.setRecord ref record') :=
  h.follows (.insert hlookup hfollows)

/-- What the maps have left is what they had. -/
theorem lookup_erase {κ β : Type} [DecidableEq κ] {map : AList fun _ : κ => β} {erased key : κ}
    {value : β} (h : (map.erase erased).lookup key = some value) :
    key ≠ erased ∧ map.lookup key = some value := by
  by_cases heq : key = erased
  · subst heq
    rw [AList.lookup_erase] at h
    cases h
  · rw [AList.lookup_erase_ne heq] at h
    exact ⟨heq, h⟩

theorem forget (h : Maps client) (hlookup : client.heap.lookup ref = some record) :
    Maps (client.forget record) where
  next := h.next
  heap := h.heap
  recorded handle other hother := h.recorded handle other (lookup_erase hother).2
  active key other hother := by
    obtain ⟨hne, hactive⟩ := lookup_erase hother
    obtain ⟨found, hfound, hkey, hrecorded⟩ := h.active key other hactive
    refine ⟨found, hfound, hkey, ?_⟩
    have hhandle : found.handle ≠ record.handle := by
      intro heq
      have hsame := h.unique hfound hlookup heq
      subst hsame
      cases hfound.symm.trans hlookup
      exact hne hkey.symm
    rw [OpticalReadClient.forget, AList.lookup_erase_ne hhandle]
    exact hrecorded
  refused handle hmem := by
    obtain ⟨hnone, hissued⟩ := h.refused handle hmem
    refine ⟨?_, hissued⟩
    rw [AList.lookup_eq_none] at hnone ⊢
    exact fun hin => hnone (AList.mem_erase.mp hin).2

theorem refuse (h : Maps client) (hlookup : client.heap.lookup ref = some record) :
    Maps { client.forget record with refusals := record.handle :: client.refusals } where
  next := h.next
  heap := h.heap
  recorded := (h.forget hlookup).recorded
  active := (h.forget hlookup).active
  refused handle hmem := by
    rcases List.mem_cons.mp hmem with rfl | hmem
    · exact ⟨AList.lookup_erase _ _, ref, h.heap ref record hlookup⟩
    · exact (h.forget hlookup).refused handle hmem

theorem lookup_emplace {κ β : Type} [DecidableEq κ] {map : AList fun _ : κ => β} {new key : κ}
    {value value' : β} (h : (emplace map new value).lookup key = some value') :
    key = new ∧ value' = value ∨ map.lookup key = some value' := by
  unfold emplace at h
  split at h
  · exact .inr h
  by_cases heq : key = new
  · subst heq
    rw [AList.lookup_insert] at h
    exact .inl ⟨rfl, (Option.some.inj h).symm⟩
  · rw [AList.lookup_insert_ne heq] at h
    exact .inr h

/-- Nothing is lost, and a key that is not there comes in. -/
theorem lookup_emplace_of {κ β : Type} [DecidableEq κ] {map : AList fun _ : κ => β} {new key : κ}
    {value value' : β} (h : map.lookup key = some value') :
    (emplace map new value).lookup key = some value' := by
  unfold emplace
  split
  · exact h
  · rename_i hnew
    have hne : key ≠ new := by
      intro heq
      subst heq
      exact hnew (AList.lookup_isSome.mp (by rw [h]; rfl))
    rw [AList.lookup_insert_ne hne]
    exact h

theorem lookup_emplace_new {κ β : Type} [DecidableEq κ] {map : AList fun _ : κ => β} {new : κ}
    {value : β} (h : map.lookup new = none) : (emplace map new value).lookup new = some value := by
  unfold emplace
  rw [if_neg (AList.lookup_eq_none.mp h)]
  exact AList.lookup_insert map

/-- The number of a new record has not been used. -/
theorem fresh (h : Maps client) : client.heap.lookup client.created = none := by
  cases hlookup : client.heap.lookup client.created with
  | none => rfl
  | some record => exact absurd (h.heap _ _ hlookup).1 (Nat.lt_irrefl _)

theorem requestId_next (h : Maps client) :
    requestId client.instanceId client.nextRequest =
      requestOf client.instanceId client.created := by
  rw [requestOf, ← h.next, UInt64.ofNat_toNat]

theorem unrecorded (h : Maps client) :
    client.records.lookup (requestId client.instanceId client.nextRequest) = none := by
  cases hlookup : client.records.lookup (requestId client.instanceId client.nextRequest) with
  | none => rfl
  | some ref =>
      obtain ⟨record, hrecord, hhandle⟩ := h.recorded _ ref hlookup
      obtain ⟨hlt, hissued⟩ := h.heap ref record hrecord
      have hbound := h.created_lt
      have hsame : requestOf client.instanceId ref = requestOf client.instanceId client.created := by
        rw [← hissued, hhandle, h.requestId_next]
      exact absurd (requestOf_inj (by omega) (by omega) hsame) (Nat.ne_of_lt hlt)

theorem insertRecord (h : Maps client) (hnext : client.nextRequest ≠ 0xffffffffffffffff)
    (file : FileInfo) (path : Bytes) : Maps (client.insertRecord file path) := by
  have hkept (ref : Nat) (record new : Record) (hlookup : client.heap.lookup ref = some record) :
      (client.heap.insert client.created new).lookup ref = some record := by
    rw [AList.lookup_insert_ne (Nat.ne_of_lt (h.heap ref record hlookup).1)]
    exact hlookup
  constructor
  · have hne : client.nextRequest.toNat ≠ 0xffffffffffffffff := fun heq =>
      hnext (UInt64.toNat_inj.mp heq)
    have hlt := client.nextRequest.toNat_lt
    dsimp only [OpticalReadClient.insertRecord]
    rw [UInt64.toNat_add, UInt64.toNat_one, Nat.mod_eq_of_lt (by omega), h.next]
  · intro ref record hlookup
    dsimp only [OpticalReadClient.insertRecord] at hlookup ⊢
    by_cases heq : ref = client.created
    · subst heq
      rw [AList.lookup_insert] at hlookup
      cases hlookup
      exact ⟨Nat.lt_succ_self _, h.requestId_next⟩
    · rw [AList.lookup_insert_ne heq] at hlookup
      obtain ⟨hlt, hhandle⟩ := h.heap ref record hlookup
      exact ⟨Nat.lt_succ_of_lt hlt, hhandle⟩
  · intro handle ref hlookup
    rcases lookup_emplace hlookup with ⟨rfl, rfl⟩ | hlookup
    · exact ⟨_, AList.lookup_insert _, rfl⟩
    · obtain ⟨record, hrecord, hhandle⟩ := h.recorded handle ref hlookup
      exact ⟨record, hkept ref record _ hrecord, hhandle⟩
  · intro key ref hlookup
    rcases lookup_emplace hlookup with ⟨rfl, rfl⟩ | hlookup
    · exact ⟨_, AList.lookup_insert _, rfl, lookup_emplace_new h.unrecorded⟩
    · obtain ⟨record, hrecord, hkey, hrecorded⟩ := h.active key ref hlookup
      exact ⟨record, hkept ref record _ hrecord, hkey, lookup_emplace_of hrecorded⟩
  · intro handle hmem
    obtain ⟨hnone, ref, hlt, hissued⟩ := h.refused handle hmem
    refine ⟨?_, ref, Nat.lt_succ_of_lt hlt, hissued⟩
    cases hlookup : (client.insertRecord file path).records.lookup handle with
    | none => rfl
    | some other =>
        rcases lookup_emplace hlookup with ⟨heq, -⟩ | hlookup
        · have hbound := h.created_lt
          have hsame : requestOf client.instanceId ref =
              requestOf client.instanceId client.created := by
            rw [← hissued, heq]
            exact h.requestId_next
          exact absurd (requestOf_inj (by omega) (by omega) hsame) (Nat.ne_of_lt hlt)
        · cases hnone.symm.trans hlookup

end Maps

/-! ## Successes -/

abbrev Received := List (ConnectionKey × ReadReadyEvent)

/-- The message is about this record: its request, its task and its file. -/
structure Names (event : ReadReadyEvent) (record : Record) : Prop where
  requestId : event.requestId = record.handle
  taskId : event.taskId = record.taskId
  inodeId : event.inodeId = record.file.inodeId
  fileSize : event.fileSize = record.file.fileSize
  hasFileVersion : event.hasFileVersion = record.file.fileVersion.isSome
  fileVersion : ∀ version ∈ record.file.fileVersion, event.fileVersion = version

/-- The node of the record has sent the message about it. -/
def Confirmed (heap : Heap) (received : Received) (ref : Nat) : Prop :=
  ∃ record, heap.lookup ref = some record ∧ record.taskId ≠ 0 ∧
    ∃ event, (record.file.connection, event) ∈ received ∧ Names event record

theorem Confirmed.mono {heap heap' : Heap} {received received' : Received} {ref : Nat}
    (hkept : ∀ ref record, heap.lookup ref = some record →
      ∃ record', heap'.lookup ref = some record' ∧ record.Follows record')
    (hreceived : ∀ message ∈ received, message ∈ received') (h : Confirmed heap received ref) :
    Confirmed heap' received' ref := by
  obtain ⟨record, hlookup, hne, event, hmem, hnames⟩ := h
  obtain ⟨record', hlookup', hfollows⟩ := hkept ref record hlookup
  have htask := hfollows.taskId hne
  refine ⟨record', hlookup', by rw [htask]; exact hne, event, ?_, ?_⟩
  · rw [hfollows.file]
    exact hreceived _ hmem
  · constructor
    · rw [hfollows.handle]
      exact hnames.requestId
    · rw [htask]
      exact hnames.taskId
    all_goals rw [hfollows.file]
    · exact hnames.inodeId
    · exact hnames.fileSize
    · exact hnames.hasFileVersion
    · exact hnames.fileVersion

/-- A callback is told of the file of the record that it waits for, and after the message. -/
def Told (heap : Heap) (received : Received) (completion : Completion)
    (callback : ReadyCallback) : Prop :=
  Confirmed heap received callback.record ∧
    ∃ record, heap.lookup callback.record = some record ∧ completion.file = record.result

theorem Told.mono {heap heap' : Heap} {received received' : Received} {completion : Completion}
    {callback : ReadyCallback}
    (hkept : ∀ ref record, heap.lookup ref = some record →
      ∃ record', heap'.lookup ref = some record' ∧ record.Follows record')
    (hreceived : ∀ message ∈ received, message ∈ received')
    (h : Told heap received completion callback) : Told heap' received' completion callback := by
  obtain ⟨hconfirmed, record, hlookup, hfile⟩ := h
  obtain ⟨record', hlookup', hfollows⟩ := hkept _ record hlookup
  exact ⟨hconfirmed.mono hkept hreceived, record', hlookup', hfile.trans hfollows.result.symm⟩

/-- What a record says is so: it is ready after the message, and an error if it failed. -/
structure Record.Honest (heap : Heap) (received : Received) (ref : Nat) (record : Record) :
    Prop where
  ready : record.state = .Ready → Confirmed heap received ref
  failed : record.state = .Failed → record.error ≠ none
  watchers : ∀ callback ∈ record.watchers, callback.record = ref

/-- Successes are reported of confirmed records only. -/
structure Truthful (client : OpticalReadClient) : Prop where
  records : ∀ ref record, client.heap.lookup ref = some record →
    record.Honest client.heap client.received ref
  deliveries : ∀ delivery ∈ client.deliveries, delivery.completion.error = none →
    ∀ callback ∈ delivery.callbacks,
      Told client.heap client.received delivery.completion callback
  invoked : ∀ entry ∈ client.invoked, entry.2.error = none →
    Told client.heap client.received entry.2 entry.1

namespace Truthful

variable {client : OpticalReadClient} {ref : Nat} {record : Record}

/-- The heap and the messages grow, and every record of the new heap is honest. -/
theorem grow {heap : Heap} {received : Received} (h : Truthful client)
    (hkept : ∀ ref record, client.heap.lookup ref = some record →
      ∃ record', heap.lookup ref = some record' ∧ record.Follows record')
    (hreceived : ∀ message ∈ client.received, message ∈ received)
    (hhonest : ∀ ref record, heap.lookup ref = some record → record.Honest heap received ref) :
    Truthful { client with heap := heap, received := received } where
  records := hhonest
  deliveries delivery hmem herror callback hcallback :=
    (h.deliveries delivery hmem herror callback hcallback).mono hkept hreceived
  invoked entry hmem herror := (h.invoked entry hmem herror).mono hkept hreceived

/-- Old records stay honest. -/
theorem honest_mono {heap : Heap} {received : Received} (h : Truthful client)
    (hkept : ∀ ref record, client.heap.lookup ref = some record →
      ∃ record', heap.lookup ref = some record' ∧ record.Follows record')
    (hreceived : ∀ message ∈ client.received, message ∈ received)
    (hlookup : client.heap.lookup ref = some record) : record.Honest heap received ref where
  ready hready := ((h.records ref record hlookup).ready hready).mono hkept hreceived
  failed := (h.records ref record hlookup).failed
  watchers := (h.records ref record hlookup).watchers

/-- A record changes, and messages come in. -/
theorem setRecord {record' : Record} {received : Received} (h : Truthful client)
    (hlookup : client.heap.lookup ref = some record) (hfollows : record.Follows record')
    (hreceived : ∀ message ∈ client.received, message ∈ received)
    (hhonest : record'.Honest (client.heap.insert ref record') received ref) :
    Truthful { client.setRecord ref record' with received := received } := by
  have hkept := (Heap.Follows.insert hlookup hfollows).kept
  refine h.grow hkept hreceived ?_
  intro other found hfound
  dsimp only [OpticalReadClient.setRecord] at hfound
  by_cases heq : other = ref
  · subst heq
    rw [AList.lookup_insert] at hfound
    cases hfound
    exact hhonest
  · rw [AList.lookup_insert_ne heq] at hfound
    exact h.honest_mono hkept hreceived hfound

/-- A state that neither claims a success nor a failure. -/
theorem setState {record' : Record} (h : Truthful client)
    (hlookup : client.heap.lookup ref = some record) (hfollows : record.Follows record')
    (hstate : record'.state = record.state ∨
      record'.state ≠ .Ready ∧ record'.state ≠ .Failed) (herror : record'.error = record.error)
    (hwatchers : ∀ callback ∈ record'.watchers, callback.record = ref) :
    Truthful (client.setRecord ref record') := by
  refine h.setRecord hlookup hfollows (fun _ hmem => hmem) ?_
  have hkept := (Heap.Follows.insert hlookup hfollows).kept
  have hold := h.honest_mono hkept (fun _ hmem => hmem) hlookup
  rcases hstate with hsame | ⟨hready, hfailed⟩
  · refine ⟨fun heq => hold.ready (hsame ▸ heq), ?_, hwatchers⟩
    intro heq
    rw [herror]
    exact hold.failed (hsame ▸ heq)
  · exact ⟨fun heq => absurd heq hready, fun heq => absurd heq hfailed, hwatchers⟩

theorem receive (h : Truthful client) (message : ConnectionKey × ReadReadyEvent) :
    Truthful { client with received := message :: client.received } := by
  have hkept (ref : Nat) (record : Record) (hlookup : client.heap.lookup ref = some record) :
      ∃ record', client.heap.lookup ref = some record' ∧ record.Follows record' :=
    ⟨record, hlookup, .refl record⟩
  have hreceived : ∀ other ∈ client.received, other ∈ message :: client.received :=
    fun _ hmem => List.mem_cons_of_mem _ hmem
  exact h.grow hkept hreceived fun ref record hlookup => h.honest_mono hkept hreceived hlookup

theorem insertRecord (h : Truthful client) (hmaps : Maps client) (file : FileInfo)
    (path : Bytes) : Truthful (client.insertRecord file path) := by
  have hkept (ref : Nat) (record : Record) (hlookup : client.heap.lookup ref = some record) :
      ∃ record', (client.insertRecord file path).heap.lookup ref = some record' ∧
        record.Follows record' := by
    refine ⟨record, ?_, .refl record⟩
    dsimp only [OpticalReadClient.insertRecord]
    rw [AList.lookup_insert_ne (Nat.ne_of_lt (hmaps.heap ref record hlookup).1)]
    exact hlookup
  have hgrown : Truthful { client with
      heap := (client.insertRecord file path).heap, received := client.received } := by
    refine h.grow hkept (fun _ hmem => hmem) ?_
    intro ref record hlookup
    dsimp only [OpticalReadClient.insertRecord] at hlookup
    by_cases heq : ref = client.created
    · subst heq
      rw [AList.lookup_insert] at hlookup
      cases hlookup
      exact ⟨(nomatch ·), (nomatch ·), fun _ hmem => (nomatch hmem)⟩
    · rw [AList.lookup_insert_ne heq] at hlookup
      exact h.honest_mono hkept (fun _ hmem => hmem) hlookup
  exact { hgrown with }

theorem takeWatchers (h : Truthful client) (refs : List Nat) :
    Truthful { client with heap := (takeWatchers client.heap refs).1 } := by
  have hkept := (Heap.Follows.takeWatchers refs client.heap).kept
  refine h.grow hkept (fun _ hmem => hmem) ?_
  intro ref record hlookup
  rw [lookup_takeWatchers] at hlookup
  obtain ⟨before, hbefore, rfl⟩ := Option.map_eq_some_iff.mp hlookup
  have hold := h.honest_mono hkept (fun _ hmem => hmem) hbefore
  split
  · exact ⟨hold.ready, hold.failed, fun _ hmem => (nomatch hmem)⟩
  · exact hold

/-- Callbacks are about to be told of a completion. -/
theorem deliver (h : Truthful client) {deliverer : Deliverer} {callbacks : List ReadyCallback}
    {completion : Completion} (htrue : completion.error = none →
      ∀ callback ∈ callbacks, Told client.heap client.received completion callback) :
    Truthful { client with
      deliveries := delivery deliverer callbacks completion ++ client.deliveries } where
  records := h.records
  deliveries other hmem herror callback hcallback := by
    rcases List.mem_append.mp hmem with hmem | hmem
    · unfold delivery at hmem
      split at hmem
      · cases hmem
      · cases List.mem_singleton.mp hmem
        exact htrue herror callback hcallback
    · exact h.deliveries other hmem herror callback hcallback
  invoked := h.invoked

/-- A message comes for a record that waits. -/
theorem onReady (h : Truthful client) {connection : ConnectionKey} {event : ReadReadyEvent}
    (hlookup : client.heap.lookup ref = some record) (hwaiting : record.Waiting)
    (hhandle : record.handle = event.requestId)
    (hnode : record.Answers connection.address event → connection = record.file.connection) :
    Truthful { { client with received := (connection, event) :: client.received }.setRecord ref
      (record.onReady connection.address event) with
      deliveries := delivery (.stream connection) record.watchers
        (record.onReady connection.address event).completion ++ client.deliveries } := by
  have hfollows := Record.Follows.onReady connection.address event hwaiting
  have hreceived : ∀ message ∈ client.received,
      message ∈ (connection, event) :: client.received := fun _ hmem => List.mem_cons_of_mem _ hmem
  have hwatchers := (h.records ref record hlookup).watchers
  have hconfirmed : (record.onReady connection.address event).error = none ∨
      (record.onReady connection.address event).state = .Ready →
      Confirmed (client.heap.insert ref (record.onReady connection.address event))
        ((connection, event) :: client.received) ref := by
    intro hsuccess
    refine ⟨_, AList.lookup_insert _, ?_⟩
    unfold Record.onReady at hsuccess ⊢
    by_cases hanswers : record.Answers connection.address event
    · rw [if_pos hanswers]
      obtain ⟨-, hne, htask, hinode, hsize, hhas, hversion⟩ := id hanswers
      have hsame : (if record.taskId = 0 then event.taskId else record.taskId) = event.taskId := by
        split
        · rfl
        · rename_i hold
          exact htask.resolve_left hold
      refine ⟨by rw [hsame]; exact hne, event, ?_, ?_⟩
      · rw [hnode hanswers]
        exact List.mem_cons_self
      · exact ⟨hhandle.symm, hsame.symm, hinode, hsize, hhas, hversion⟩
    · rw [if_neg hanswers] at hsuccess
      rcases hsuccess with herror | hstate
      · cases herror
      · cases hstate
  have hset := h.setRecord hlookup hfollows hreceived (by
    refine ⟨fun hready => hconfirmed (.inr hready), ?_, ?_⟩
    · unfold Record.onReady
      split
      · exact (nomatch ·)
      · exact fun _ => Option.some_ne_none _
    · unfold Record.onReady
      split
      · exact fun _ hmem => (nomatch hmem)
      · exact fun _ hmem => (nomatch hmem))
  refine hset.deliver ?_
  intro herror callback hmem
  have hsame := hwatchers callback hmem
  refine ⟨?_, record.onReady connection.address event, ?_, rfl⟩
  · rw [hsame]
    exact hconfirmed (.inl herror)
  · rw [hsame]
    exact AList.lookup_insert client.heap

end Truthful

/-! ## Where the callbacks are -/

/-- The callbacks that the stop has taken and not begun to invoke. -/
def StopCall.callbacks : StopCall → List ReadyCallback
  | .closing _ callbacks => callbacks
  | _ => []

namespace OpticalReadClient

/-- How often a callback waits at a record. -/
def waits (heap : Heap) (callback : ReadyCallback) : Nat :=
  total (fun _ record => record.watchers.count callback) heap

def delivering (deliveries : List Delivery) (callback : ReadyCallback) : Nat :=
  (deliveries.map fun delivery => delivery.callbacks.count callback).sum

/-- How often a callback is anywhere. -/
def count (client : OpticalReadClient) (callback : ReadyCallback) : Nat :=
  waits client.heap callback + delivering client.deliveries callback +
    client.stopCall.callbacks.count callback + (client.invoked.map Prod.fst).count callback

end OpticalReadClient

open OpticalReadClient

theorem delivering_delivery (deliverer : Deliverer) (callbacks : List ReadyCallback)
    (completion : Completion) (deliveries : List Delivery) (callback : ReadyCallback) :
    delivering (delivery deliverer callbacks completion ++ deliveries) callback =
      callbacks.count callback + delivering deliveries callback := by
  unfold delivery
  split
  · rename_i hnil
    rw [hnil, List.nil_append, List.count_nil, Nat.zero_add]
  · rfl

theorem delivering_erase {deliveries : List Delivery} {now : Delivery} (h : now ∈ deliveries)
    (callback : ReadyCallback) :
    delivering deliveries callback =
      now.callbacks.count callback + delivering (deliveries.erase now) callback := by
  have hperm := (List.perm_cons_erase h).map fun delivery => delivery.callbacks.count callback
  exact hperm.sum_eq

theorem waits_insert {heap : Heap} {ref : Nat} {record : Record}
    (hlookup : heap.lookup ref = some record) (record' : Record) (callback : ReadyCallback) :
    waits (heap.insert ref record') callback + record.watchers.count callback =
      waits heap callback + record'.watchers.count callback :=
  total_insert_replace hlookup

/-- Taking watchers out moves them. -/
theorem waits_takeWatchers (refs : List Nat) (heap : Heap) (callback : ReadyCallback) :
    waits (takeWatchers heap refs).1 callback + (takeWatchers heap refs).2.count callback =
      waits heap callback := by
  induction refs generalizing heap with
  | nil => rfl
  | cons ref refs ih =>
      rw [takeWatchers]
      cases hlookup : heap.lookup ref with
      | none => exact ih heap
      | some record =>
          have hrest := ih (heap.insert ref { record with watchers := [] })
          have hmoved := waits_insert hlookup { record with watchers := [] } callback
          rw [List.count_nil] at hmoved
          dsimp only
          rw [List.count_append]
          omega

/-- The result of a record has come. -/
def Settled (heap : Heap) (ref : Nat) : Prop :=
  ∃ record, heap.lookup ref = some record ∧ ¬record.Waiting

theorem Settled.mono {heap heap' : Heap} {ref : Nat}
    (hkept : ∀ ref record, heap.lookup ref = some record →
      ∃ record', heap'.lookup ref = some record' ∧ record.Follows record')
    (h : Settled heap ref) : Settled heap' ref := by
  obtain ⟨record, hlookup, hsettled⟩ := h
  obtain ⟨record', hlookup', hfollows⟩ := hkept ref record hlookup
  exact ⟨record', hlookup', fun hwaiting => hsettled (hfollows.waiting hwaiting)⟩

/-- Callbacks wait at records that wait, and each accepted callback is in one place. -/
structure Watches (client : OpticalReadClient) : Prop where
  watched : ∀ ref record, client.heap.lookup ref = some record → record.watchers ≠ [] →
    record.Waiting ∧ client.records.lookup record.handle = some ref ∧ client.stopped = false
  settled : ∀ ref, .acquiring ref ∈ client.pending ∨ .releasing ref ∈ client.pending →
    Settled client.heap ref
  counted : ∀ callback, client.count callback = client.accepted.count callback
  numbered : ∀ callback ∈ client.accepted, callback.number < client.accepted.length
  distinct : client.accepted.Nodup

namespace Watches

variable {client : OpticalReadClient} {ref : Nat} {record : Record}

/-- A call goes on. A call that takes the mutex of a record finds that it has settled. -/
theorem after (h : Watches client) (call : PendingCall) {next : List PendingCall}
    (hnext : ∀ ref, .acquiring ref ∈ next ∨ .releasing ref ∈ next → Settled client.heap ref) :
    Watches (client.after call next) where
  watched := h.watched
  settled ref hmem := by
    have hsplit (pending : PendingCall) (hin : pending ∈ next ++ client.pending.erase call) :
        pending ∈ next ∨ pending ∈ client.pending :=
      (List.mem_append.mp hin).imp_right List.mem_of_mem_erase
    rcases hmem with hmem | hmem <;> rcases hsplit _ hmem with hmem | hmem
    · exact hnext ref (.inl hmem)
    · exact h.settled ref (.inl hmem)
    · exact hnext ref (.inr hmem)
    · exact h.settled ref (.inr hmem)
  counted := h.counted
  numbered := h.numbered
  distinct := h.distinct

/-- A call comes that holds no record's mutex. -/
theorem begin (h : Watches client) {call : PendingCall} (hfree : ∀ ref, ¬call.operates ref) :
    Watches { client with pending := call :: client.pending } where
  watched := h.watched
  settled ref hmem := by
    have hne : call ≠ .acquiring ref ∧ call ≠ .releasing ref := by
      constructor <;> intro heq <;> subst heq <;> exact hfree ref (decide_eq_true rfl)
    rcases hmem with hmem | hmem
    · exact h.settled ref (.inl (List.mem_of_ne_of_mem hne.1.symm hmem))
    · exact h.settled ref (.inr (List.mem_of_ne_of_mem hne.2.symm hmem))
  counted := h.counted
  numbered := h.numbered
  distinct := h.distinct

/-- A record changes and keeps its watchers. -/
theorem setRecord {record' : Record} (h : Watches client)
    (hlookup : client.heap.lookup ref = some record) (hfollows : record.Follows record')
    (hwatchers : record'.watchers = record.watchers)
    (hwaiting : record.watchers ≠ [] → record'.Waiting) :
    Watches (client.setRecord ref record') where
  watched other found hfound hne := by
    dsimp only [OpticalReadClient.setRecord] at hfound
    by_cases heq : other = ref
    · subst heq
      rw [AList.lookup_insert] at hfound
      cases hfound
      rw [hwatchers] at hne
      obtain ⟨-, hrecorded, hstopped⟩ := h.watched other record hlookup hne
      rw [hfollows.handle]
      exact ⟨hwaiting hne, hrecorded, hstopped⟩
    · rw [AList.lookup_insert_ne heq] at hfound
      exact h.watched other found hfound hne
  settled other hmem := (h.settled other hmem).mono (Heap.Follows.insert hlookup hfollows).kept
  counted callback := by
    have hold := h.counted callback
    have hcount := waits_insert hlookup record' callback
    rw [hwatchers] at hcount
    dsimp only [count, OpticalReadClient.setRecord] at hold ⊢
    omega
  numbered := h.numbered
  distinct := h.distinct

/-- The maps forget a record that nobody waits for. -/
theorem forget (h : Watches client) (hmaps : Maps client)
    (hlookup : client.heap.lookup ref = some record) (hnone : record.watchers = []) :
    Watches (client.forget record) where
  watched other found hfound hne := by
    obtain ⟨hwaiting, hrecorded, hstopped⟩ := h.watched other found hfound hne
    refine ⟨hwaiting, ?_, hstopped⟩
    have hhandle : found.handle ≠ record.handle := by
      intro heq
      have hsame := hmaps.unique hfound hlookup heq
      subst hsame
      cases hfound.symm.trans hlookup
      exact hne hnone
    rw [OpticalReadClient.forget, AList.lookup_erase_ne hhandle]
    exact hrecorded
  settled := h.settled
  counted := h.counted
  numbered := h.numbered
  distinct := h.distinct

/-- A settled record has no watchers. -/
theorem unwatched (h : Watches client) (hlookup : client.heap.lookup ref = some record)
    (hsettled : ¬record.Waiting) : record.watchers = [] := by
  by_contra hne
  exact hsettled (h.watched ref record hlookup hne).1

theorem insertRecord (h : Watches client) (hmaps : Maps client) (file : FileInfo)
    (path : Bytes) : Watches (client.insertRecord file path) where
  watched ref record hlookup hne := by
    dsimp only [OpticalReadClient.insertRecord] at hlookup
    by_cases heq : ref = client.created
    · subst heq
      rw [AList.lookup_insert] at hlookup
      cases hlookup
      exact absurd rfl hne
    · rw [AList.lookup_insert_ne heq] at hlookup
      obtain ⟨hwaiting, hrecorded, hstopped⟩ := h.watched ref record hlookup hne
      exact ⟨hwaiting, Maps.lookup_emplace_of hrecorded, hstopped⟩
  settled ref hmem := by
    refine (h.settled ref hmem).mono fun ref record hlookup => ⟨record, ?_, .refl record⟩
    dsimp only [OpticalReadClient.insertRecord]
    rw [AList.lookup_insert_ne (Nat.ne_of_lt (hmaps.heap ref record hlookup).1)]
    exact hlookup
  counted callback := by
    have hold := h.counted callback
    dsimp only [count, OpticalReadClient.insertRecord, waits] at hold ⊢
    rw [total_insert_new hmaps.fresh, List.count_nil, Nat.zero_add]
    exact hold
  numbered := h.numbered
  distinct := h.distinct

/-- The next callback is a new one. -/
theorem new_callback (h : Watches client) (ref : Nat) :
    (⟨client.accepted.length, ref⟩ : ReadyCallback) ∉ client.accepted := fun hmem =>
  Nat.lt_irrefl _ (h.numbered _ hmem)

theorem numbered_cons (h : Watches client) (ref : Nat) :
    ∀ callback ∈ (⟨client.accepted.length, ref⟩ : ReadyCallback) :: client.accepted,
      callback.number < client.accepted.length + 1 := by
  intro callback hmem
  rcases List.mem_cons.mp hmem with rfl | hmem
  · exact Nat.lt_succ_self _
  · exact Nat.lt_succ_of_lt (h.numbered callback hmem)

/-- A callback waits at a record. -/
theorem watch (h : Watches client) (hlookup : client.heap.lookup ref = some record)
    (hrecorded : client.records.lookup record.handle = some ref) (hwaiting : record.Waiting)
    (hstopped : client.stopped = false) :
    Watches { client.setRecord ref { record with
        watchers := record.watchers ++ [⟨client.accepted.length, ref⟩] } with
      accepted := ⟨client.accepted.length, ref⟩ :: client.accepted } where
  watched other found hfound hne := by
    dsimp only [OpticalReadClient.setRecord] at hfound
    by_cases heq : other = ref
    · subst heq
      rw [AList.lookup_insert] at hfound
      cases hfound
      exact ⟨hwaiting, hrecorded, hstopped⟩
    · rw [AList.lookup_insert_ne heq] at hfound
      exact h.watched other found hfound hne
  settled other hmem := by
    have hfollows : record.Follows { record with
        watchers := record.watchers ++ [⟨client.accepted.length, ref⟩] } :=
      ⟨rfl, rfl, fun _ => rfl, id⟩
    exact (h.settled other hmem).mono (Heap.Follows.insert hlookup hfollows).kept
  counted callback := by
    have hold := h.counted callback
    have hcount := waits_insert hlookup { record with
      watchers := record.watchers ++ [⟨client.accepted.length, ref⟩] } callback
    dsimp only [count, OpticalReadClient.setRecord] at hold hcount ⊢
    rw [List.count_append] at hcount
    rw [List.count_cons]
    rw [List.count_singleton] at hcount
    omega
  numbered := h.numbered_cons ref
  distinct := List.nodup_cons.mpr ⟨h.new_callback ref, h.distinct⟩

/-- A callback is told at once. -/
theorem watch_settled (h : Watches client) (ref : Nat) (completion : Completion) :
    Watches { client with
      accepted := ⟨client.accepted.length, ref⟩ :: client.accepted
      deliveries := delivery .watch [⟨client.accepted.length, ref⟩] completion ++
        client.deliveries } where
  watched := h.watched
  settled := h.settled
  counted callback := by
    have hold := h.counted callback
    dsimp only [count] at hold ⊢
    rw [delivering_delivery, List.count_singleton, List.count_cons]
    omega
  numbered := h.numbered_cons ref
  distinct := List.nodup_cons.mpr ⟨h.new_callback ref, h.distinct⟩

/-- The watchers of a record leave it to be told. -/
theorem onReady {record' : Record} (h : Watches client)
    (hlookup : client.heap.lookup ref = some record) (hfollows : record.Follows record')
    (hnone : record'.watchers = []) (received : Received) (deliverer : Deliverer)
    (completion : Completion) :
    Watches { { client with received := received }.setRecord ref record' with
      deliveries := delivery deliverer record.watchers completion ++ client.deliveries } where
  watched other found hfound hne := by
    dsimp only [OpticalReadClient.setRecord] at hfound
    by_cases heq : other = ref
    · subst heq
      rw [AList.lookup_insert] at hfound
      cases hfound
      exact absurd hnone hne
    · rw [AList.lookup_insert_ne heq] at hfound
      exact h.watched other found hfound hne
  settled other hmem := (h.settled other hmem).mono (Heap.Follows.insert hlookup hfollows).kept
  counted callback := by
    have hold := h.counted callback
    have hcount := waits_insert hlookup record' callback
    rw [hnone, List.count_nil] at hcount
    dsimp only [count, OpticalReadClient.setRecord] at hold ⊢
    rw [delivering_delivery]
    omega
  numbered := h.numbered
  distinct := h.distinct

theorem invoke (h : Watches client) {now : Delivery} {callback : ReadyCallback}
    {callbacks : List ReadyCallback} (hmem : now ∈ client.deliveries)
    (hcallbacks : now.callbacks = callback :: callbacks) :
    Watches { client with
      deliveries := delivery now.deliverer callbacks now.completion ++ client.deliveries.erase now
      invoked := (callback, now.completion) :: client.invoked } where
  watched := h.watched
  settled := h.settled
  counted other := by
    have hold := h.counted other
    have htaken := delivering_erase hmem other
    rw [hcallbacks, List.count_cons] at htaken
    dsimp only [count] at hold ⊢
    have hmap : (((callback, now.completion) :: client.invoked).map Prod.fst) =
        callback :: client.invoked.map Prod.fst := rfl
    rw [delivering_delivery, hmap, List.count_cons]
    omega
  numbered := h.numbered
  distinct := h.distinct

/-- The stop takes all watchers. -/
theorem stop (h : Watches client) (hstop : client.stopCall = .none)
    (connections : List ConnectionKey) :
    Watches { client with
      stopped := true
      heap := (takeWatchers client.heap (client.records.entries.map (·.2))).1
      stopCall := .closing connections
        (takeWatchers client.heap (client.records.entries.map (·.2))).2 } where
  watched ref record hlookup hne := by
    rw [lookup_takeWatchers] at hlookup
    obtain ⟨before, hbefore, rfl⟩ := Option.map_eq_some_iff.mp hlookup
    split at hne
    · exact absurd rfl hne
    · rename_i hmem
      have hrecorded := (h.watched ref before hbefore hne).2.1
      exact absurd (List.mem_map_of_mem (AList.mem_lookup_iff.mp hrecorded)) hmem
  settled ref hmem := (h.settled ref hmem).mono (Heap.Follows.takeWatchers _ client.heap).kept
  counted callback := by
    have hold := h.counted callback
    have hmoved := waits_takeWatchers (client.records.entries.map (·.2)) client.heap callback
    dsimp only [count] at hold ⊢
    have hnone : client.stopCall.callbacks = [] := by
      rw [hstop]
      rfl
    rw [hnone, List.count_nil] at hold
    rw [StopCall.callbacks]
    omega
  numbered := h.numbered
  distinct := h.distinct

/-- The stop goes on with the callbacks that it has. -/
theorem stopCall (h : Watches client) {stopCall : StopCall}
    (hsame : stopCall.callbacks = client.stopCall.callbacks) :
    Watches { client with stopCall := stopCall } where
  watched := h.watched
  settled := h.settled
  counted callback := by
    have hold := h.counted callback
    dsimp only [count] at hold ⊢
    rw [hsame]
    exact hold
  numbered := h.numbered
  distinct := h.distinct

theorem deliverStopped (h : Watches client) {callbacks : List ReadyCallback}
    (hstop : client.stopCall = .closing [] callbacks) :
    Watches { client with
      stopCall := .delivering
      deliveries := delivery .stop callbacks stoppedCompletion ++ client.deliveries } where
  watched := h.watched
  settled := h.settled
  counted callback := by
    have hold := h.counted callback
    dsimp only [count] at hold ⊢
    have hnone : StopCall.delivering.callbacks = [] := rfl
    rw [hstop, StopCall.callbacks] at hold
    rw [delivering_delivery, hnone, List.count_nil]
    omega
  numbered := h.numbered
  distinct := h.distinct

end Watches

/-! ## The stop -/

/-- The streams that the stop has not closed. -/
def StopCall.toClose : StopCall → List ConnectionKey
  | .closing connections _ => connections
  | _ => []

/-- Once the client has stopped, nothing new is begun, and the stop outlasts the rest. -/
structure Stopping (client : OpticalReadClient) : Prop where
  halted : client.stopped = true ↔ client.stopCall ≠ .none
  connected : ∀ delivery ∈ client.deliveries, ∀ connection,
    delivery.deliverer = .stream connection → connection ∈ client.connections ∧
      (client.stopped = true → connection ∈ client.stopCall.toClose)
  stops : ∀ delivery ∈ client.deliveries, delivery.deliverer = .stop →
    client.stopCall = .delivering
  returned : client.stopReturned = true → client.stopCall = .returned ∧ client.deliveries = []

namespace Stopping

variable {client : OpticalReadClient}

/-- Deliveries are only taken away. -/
theorem fewer (h : Stopping client) {deliveries : List Delivery}
    (hmem : ∀ delivery ∈ deliveries, ∃ old ∈ client.deliveries,
      old.deliverer = delivery.deliverer) :
    Stopping { client with deliveries := deliveries } where
  halted := h.halted
  connected delivery hin connection heq := by
    obtain ⟨old, hold, hsame⟩ := hmem delivery hin
    exact h.connected old hold connection (hsame.trans heq)
  stops delivery hin heq := by
    obtain ⟨old, hold, hsame⟩ := hmem delivery hin
    exact h.stops old hold (hsame.trans heq)
  returned hreturned := by
    obtain ⟨hstop, hnone⟩ := h.returned hreturned
    refine ⟨hstop, List.eq_nil_iff_forall_not_mem.mpr ?_⟩
    intro delivery hin
    obtain ⟨old, hold, -⟩ := hmem delivery hin
    rw [hnone] at hold
    cases hold

/-- A delivery begins before the client has stopped. -/
theorem more (h : Stopping client) (hstopped : client.stopped = false) {new : List Delivery}
    (hnew : ∀ delivery ∈ new, delivery.deliverer ≠ .stop ∧
      ∀ connection, delivery.deliverer = .stream connection → connection ∈ client.connections) :
    Stopping { client with deliveries := new ++ client.deliveries } where
  halted := h.halted
  connected delivery hin connection heq := by
    rcases List.mem_append.mp hin with hin | hin
    · refine ⟨(hnew delivery hin).2 connection heq, fun htrue => ?_⟩
      cases hstopped.symm.trans htrue
    · exact h.connected delivery hin connection heq
  stops delivery hin heq := by
    rcases List.mem_append.mp hin with hin | hin
    · exact absurd heq (hnew delivery hin).1
    · exact h.stops delivery hin heq
  returned hreturned := by
    have hstop := (h.returned hreturned).1
    have htrue : client.stopped = true := h.halted.mpr (by rw [hstop]; exact nofun)
    cases hstopped.symm.trans htrue

theorem connections (h : Stopping client)
    {connections : AList fun _ : ConnectionKey => UInt64}
    (hkept : ∀ connection ∈ client.connections, connection ∈ connections) :
    Stopping { client with connections := connections } where
  halted := h.halted
  connected delivery hin connection heq :=
    ⟨hkept connection (h.connected delivery hin connection heq).1,
      (h.connected delivery hin connection heq).2⟩
  stops := h.stops
  returned := h.returned

/-- What was about to be delivered, if there was anything. -/
theorem deliverer_of_mem {deliverer : Deliverer} {callbacks : List ReadyCallback}
    {completion : Completion} {d : Delivery}
    (h : d ∈ delivery deliverer callbacks completion) : d.deliverer = deliverer := by
  unfold delivery at h
  split at h
  · cases h
  · rw [List.mem_singleton.mp h]

end Stopping

/-! ## The steps -/

structure Sound (client : OpticalReadClient) : Prop where
  maps : Maps client
  truthful : Truthful client
  watches : Watches client
  stopping : Stopping client

/-- A preparation that fails has nobody waiting, a message that answers a request comes
    from the node of its record, a stop is not called beside another and waits for the
    calls of `Watch`, and the numbers of requests do not run out. -/
def Orderly (client : OpticalReadClient) : ClientCall → Prop
  | .submit _ _ => client.nextRequest ≠ 0xffffffffffffffff
  | .forget ref => ∀ record ∈ client.heap.lookup ref, record.watchers = []
  | .onReady connection event => ∀ ref ∈ client.records.lookup event.requestId,
      ∀ record ∈ client.heap.lookup ref, record.Waiting →
        record.Answers connection.address event → connection = record.file.connection
  | .stop => client.stopped = true → client.stopReturned = true
  | .stopReturns => client.delivers .watch = false
  | _ => True

instance (client : OpticalReadClient) (call : ClientCall) : Decidable (Orderly client call) := by
  cases call <;> unfold Orderly <;> infer_instance

namespace Sound

variable {client client' : OpticalReadClient} {ref : Nat} {record : Record}

/-- A call goes on, and nothing else. -/
theorem after (h : Sound client) (call : PendingCall) {next : List PendingCall}
    (hnext : ∀ ref, .acquiring ref ∈ next ∨ .releasing ref ∈ next → Settled client.heap ref) :
    Sound (client.after call next) where
  maps := { h.maps with }
  truthful := { h.truthful with }
  watches := h.watches.after call hnext
  stopping := { h.stopping with }

/-- A call goes on that takes no record's mutex. -/
theorem after_free (h : Sound client) (call : PendingCall) {next : List PendingCall}
    (hfree : ∀ ref, .acquiring ref ∉ next ∧ .releasing ref ∉ next) :
    Sound (client.after call next) :=
  h.after call fun ref hmem => hmem.elim (absurd · (hfree ref).1) (absurd · (hfree ref).2)

theorem begin (h : Sound client) {call : PendingCall} (hfree : ∀ ref, ¬call.operates ref) :
    Sound { client with pending := call :: client.pending } where
  maps := { h.maps with }
  truthful := { h.truthful with }
  watches := h.watches.begin hfree
  stopping := { h.stopping with }

theorem connections (h : Sound client) {connections : AList fun _ : ConnectionKey => UInt64}
    (hkept : ∀ connection ∈ client.connections, connection ∈ connections) :
    Sound { client with connections := connections } where
  maps := { h.maps with }
  truthful := { h.truthful with }
  watches := { h.watches with }
  stopping := h.stopping.connections hkept

theorem insertRecord (h : Sound client) (hnext : client.nextRequest ≠ 0xffffffffffffffff)
    (file : FileInfo) (path : Bytes) : Sound (client.insertRecord file path) where
  maps := h.maps.insertRecord hnext file path
  truthful := h.truthful.insertRecord h.maps file path
  watches := h.watches.insertRecord h.maps file path
  stopping := { h.stopping with }

theorem setRecord {record' : Record} (h : Sound client)
    (hlookup : client.heap.lookup ref = some record) (hfollows : record.Follows record')
    (hstate : record'.state = record.state ∨
      record'.state ≠ .Ready ∧ record'.state ≠ .Failed) (herror : record'.error = record.error)
    (hwatchers : record'.watchers = record.watchers)
    (hwaiting : record.watchers ≠ [] → record'.Waiting) :
    Sound (client.setRecord ref record') where
  maps := h.maps.setRecord hlookup hfollows
  truthful := h.truthful.setState hlookup hfollows hstate herror (by
    rw [hwatchers]
    exact (h.truthful.records ref record hlookup).watchers)
  watches := h.watches.setRecord hlookup hfollows hwatchers hwaiting
  stopping := { h.stopping with }

/-- A record is released and forgotten. -/
theorem release (h : Sound client) (hlookup : client.heap.lookup ref = some record)
    (hsettled : ¬record.Waiting) :
    Sound ((client.setRecord ref { record with state := .Released }).forget record) := by
  have hnone := h.watches.unwatched hlookup hsettled
  have hset : Sound (client.setRecord ref { record with state := .Released }) := by
    refine h.setRecord hlookup ⟨rfl, rfl, fun _ => rfl, ?_⟩ (.inr ⟨nofun, nofun⟩) rfl rfl ?_
    · exact fun hwaiting => (nomatch hwaiting)
    · exact fun hne => absurd hnone hne
  have hreleased := AList.lookup_insert client.heap (a := ref)
    (b := { record with state := .Released })
  have hforgotten : Sound ((client.setRecord ref { record with state := .Released }).forget
      { record with state := .Released }) :=
    { maps := hset.maps.forget hreleased
      truthful := { hset.truthful with }
      watches := hset.watches.forget hset.maps hreleased hnone
      stopping := { hset.stopping with } }
  exact hforgotten

theorem accept (h : Sound client) (hlookup : client.heap.lookup ref = some record)
    (rpc : RpcEnd PrepareReadReply) : Sound (client.setRecord ref (record.accept rpc).1) := by
  have hwatched := fun hne => (h.watches.watched ref record hlookup hne).1
  refine h.setRecord hlookup (.accept rpc) ?_ ?_ ?_ ?_
  all_goals
    unfold Record.accept
    split
  · exact .inl rfl
  · split
    · exact .inl rfl
    dsimp only
    split
    · exact .inr ⟨nofun, nofun⟩
    · exact .inl rfl
  · rfl
  · split <;> rfl
  · rfl
  · split <;> rfl
  · exact hwatched
  · split
    · exact hwatched
    · intro hne
      rcases hwatched hne with hstate | hstate
      · exact .inr (if_pos hstate)
      · refine .inr ?_
        dsimp only
        rw [if_neg (by rw [hstate]; exact nofun)]
        exact hstate

/-- A preparation has failed, and nobody waits for it. -/
theorem refuse (h : Sound client) (hlookup : client.heap.lookup ref = some record)
    (hnone : record.watchers = []) :
    Sound { client.forget record with refusals := record.handle :: client.refusals } where
  maps := h.maps.refuse hlookup
  truthful := { h.truthful with }
  watches := { h.watches.forget h.maps hlookup hnone with }
  stopping := { h.stopping with }

theorem watch (h : Sound client) (hrecorded : client.records.lookup record.handle = some ref)
    (hlookup : client.heap.lookup ref = some record) (hwaiting : record.Waiting)
    (hstopped : client.stopped = false) :
    Sound { client.setRecord ref { record with
        watchers := record.watchers ++ [⟨client.accepted.length, ref⟩] } with
      accepted := ⟨client.accepted.length, ref⟩ :: client.accepted } := by
  have hfollows : record.Follows { record with
      watchers := record.watchers ++ [⟨client.accepted.length, ref⟩] } :=
    ⟨rfl, rfl, fun _ => rfl, id⟩
  have htruthful := h.truthful.setState hlookup hfollows (.inl rfl) rfl (by
    intro callback hmem
    rcases List.mem_append.mp hmem with hmem | hmem
    · exact (h.truthful.records ref record hlookup).watchers callback hmem
    · rw [List.mem_singleton.mp hmem])
  exact
    { maps := { h.maps.setRecord hlookup hfollows with }
      truthful := { htruthful with }
      watches := h.watches.watch hlookup hrecorded hwaiting hstopped
      stopping := { h.stopping with } }

theorem watch_settled (h : Sound client) (hlookup : client.heap.lookup ref = some record)
    (hstate : record.state = .Ready ∨ record.state = .Failed) (hstopped : client.stopped = false) :
    Sound { client with
      accepted := ⟨client.accepted.length, ref⟩ :: client.accepted
      deliveries := delivery .watch [⟨client.accepted.length, ref⟩] record.completion ++
        client.deliveries } := by
  have honest := h.truthful.records ref record hlookup
  have htold : Truthful { client with
      deliveries := delivery .watch [⟨client.accepted.length, ref⟩] record.completion ++
        client.deliveries } := by
    refine h.truthful.deliver ?_
    intro herror callback hmem
    rw [List.mem_singleton.mp hmem]
    rcases hstate with hready | hfailed
    · exact ⟨honest.ready hready, record, hlookup, rfl⟩
    · exact absurd herror (honest.failed hfailed)
  have hmore : Stopping { client with
      deliveries := delivery .watch [⟨client.accepted.length, ref⟩] record.completion ++
        client.deliveries } := by
    refine h.stopping.more hstopped ?_
    intro delivery hmem
    rw [Stopping.deliverer_of_mem hmem]
    exact ⟨nofun, nofun⟩
  exact
    { maps := { h.maps with }
      truthful := { htold with }
      watches := h.watches.watch_settled ref record.completion
      stopping := { hmore with } }

theorem receive (h : Sound client) (message : ConnectionKey × ReadReadyEvent) :
    Sound { client with received := message :: client.received } where
  maps := { h.maps with }
  truthful := h.truthful.receive message
  watches := { h.watches with }
  stopping := { h.stopping with }

theorem onReady (h : Sound client) {connection : ConnectionKey} {event : ReadReadyEvent}
    (hconnected : connection ∈ client.connections)
    (hrecorded : client.records.lookup event.requestId = some ref)
    (hlookup : client.heap.lookup ref = some record) (hwaiting : record.Waiting)
    (hstopped : client.stopped = false)
    (hnode : record.Answers connection.address event → connection = record.file.connection) :
    Sound { { client with received := (connection, event) :: client.received }.setRecord ref
        (record.onReady connection.address event) with
      deliveries := delivery (.stream connection) record.watchers
        (record.onReady connection.address event).completion ++ client.deliveries } := by
  have hfollows := Record.Follows.onReady connection.address event hwaiting
  have hhandle : record.handle = event.requestId := by
    obtain ⟨found, hfound, hhandle⟩ := h.maps.recorded _ ref hrecorded
    cases hfound.symm.trans hlookup
    exact hhandle
  have hnone : (record.onReady connection.address event).watchers = [] := by
    unfold Record.onReady
    split <;> rfl
  have hmore : Stopping { client with
      deliveries := delivery (.stream connection) record.watchers
        (record.onReady connection.address event).completion ++ client.deliveries } := by
    refine h.stopping.more hstopped ?_
    intro delivery hmem
    rw [Stopping.deliverer_of_mem hmem]
    refine ⟨nofun, fun other heq => ?_⟩
    cases heq
    exact hconnected
  exact
    { maps := { h.maps.setRecord hlookup hfollows with }
      truthful := h.truthful.onReady hlookup hwaiting hhandle hnode
      watches := h.watches.onReady hlookup hfollows hnone _ _ _
      stopping := { hmore with } }

theorem invoke (h : Sound client) {now : Delivery} {callback : ReadyCallback}
    {callbacks : List ReadyCallback} (hmem : now ∈ client.deliveries)
    (hcallbacks : now.callbacks = callback :: callbacks) :
    Sound { client with
      deliveries := delivery now.deliverer callbacks now.completion ++ client.deliveries.erase now
      invoked := (callback, now.completion) :: client.invoked } := by
  have hfewer : Stopping { client with
      deliveries := delivery now.deliverer callbacks now.completion ++ client.deliveries.erase now } := by
    refine h.stopping.fewer ?_
    intro delivery hin
    rcases List.mem_append.mp hin with hin | hin
    · exact ⟨now, hmem, (Stopping.deliverer_of_mem hin).symm⟩
    · exact ⟨delivery, List.mem_of_mem_erase hin, rfl⟩
  have hold := h.truthful.deliveries now hmem
  rw [hcallbacks] at hold
  have hrest : Truthful { client with deliveries := client.deliveries.erase now } :=
    { h.truthful with
      deliveries := fun other hin => h.truthful.deliveries other (List.mem_of_mem_erase hin) }
  have htold : Truthful { client with
      deliveries :=
        delivery now.deliverer callbacks now.completion ++ client.deliveries.erase now } :=
    hrest.deliver fun herror other hother => hold herror other (List.mem_cons_of_mem _ hother)
  refine ⟨{ h.maps with }, { htold with invoked := ?_ }, h.watches.invoke hmem hcallbacks,
    { hfewer with }⟩
  intro entry hin herror
  rcases List.mem_cons.mp hin with rfl | hin
  · exact hold herror callback List.mem_cons_self
  · exact h.truthful.invoked entry hin herror

theorem stop (h : Sound client) (hstopped : client.stopped = false) :
    Sound { client with
      stopped := true
      heap := (takeWatchers client.heap (client.records.entries.map (·.2))).1
      stopCall := .closing client.connections.keys
        (takeWatchers client.heap (client.records.entries.map (·.2))).2 } := by
  have hnone : client.stopCall = .none := by
    by_contra hne
    cases hstopped.symm.trans (h.stopping.halted.mpr hne)
  refine ⟨{ h.maps.follows (.takeWatchers _ client.heap) with },
    { h.truthful.takeWatchers _ with }, h.watches.stop hnone _, ?_⟩
  constructor
  · exact ⟨fun _ => nofun, fun _ => rfl⟩
  · intro delivery hmem connection heq
    have hconnected := (h.stopping.connected delivery hmem connection heq).1
    exact ⟨hconnected, fun _ => hconnected⟩
  · intro delivery hmem heq
    cases hnone.symm.trans (h.stopping.stops delivery hmem heq)
  · intro hreturned
    cases hnone.symm.trans (h.stopping.returned hreturned).1

/-- The stop has closed a stream, none of whose messages is being handled. -/
theorem closeStream (h : Sound client) {connection : ConnectionKey}
    {connections : List ConnectionKey} {callbacks : List ReadyCallback}
    (hstop : client.stopCall = .closing (connection :: connections) callbacks)
    (hnone : client.delivers (.stream connection) = false) :
    Sound { client with stopCall := .closing connections callbacks } := by
  have hstopped := h.stopping.halted.mpr (by rw [hstop]; exact nofun)
  refine ⟨{ h.maps with }, { h.truthful with }, h.watches.stopCall (by rw [hstop]; rfl), ?_⟩
  constructor
  · exact ⟨fun _ => nofun, fun _ => hstopped⟩
  · intro delivery hmem other heq
    obtain ⟨hconnected, hclose⟩ := h.stopping.connected delivery hmem other heq
    refine ⟨hconnected, fun hstopped => ?_⟩
    have hin := hclose hstopped
    rw [hstop, StopCall.toClose] at hin
    rcases List.mem_cons.mp hin with rfl | hin
    · have hdelivers := List.any_eq_false.mp hnone delivery hmem
      exact absurd (decide_eq_true heq) hdelivers
    · exact hin
  · intro delivery hmem heq
    cases hstop.symm.trans (h.stopping.stops delivery hmem heq)
  · intro hreturned
    cases hstop.symm.trans (h.stopping.returned hreturned).1

theorem deliverStopped (h : Sound client) {callbacks : List ReadyCallback}
    (hstop : client.stopCall = .closing [] callbacks) :
    Sound { client with
      stopCall := .delivering
      deliveries := delivery .stop callbacks stoppedCompletion ++ client.deliveries } := by
  have hstopped := h.stopping.halted.mpr (by rw [hstop]; exact nofun)
  have htold : Truthful { client with
      deliveries := delivery .stop callbacks stoppedCompletion ++ client.deliveries } :=
    h.truthful.deliver (nomatch ·)
  refine ⟨{ h.maps with }, { htold with }, h.watches.deliverStopped hstop, ?_⟩
  constructor
  · exact ⟨fun _ => nofun, fun _ => hstopped⟩
  · intro delivery hmem connection heq
    rcases List.mem_append.mp hmem with hmem | hmem
    · cases (Stopping.deliverer_of_mem hmem).symm.trans heq
    · have hin := (h.stopping.connected delivery hmem connection heq).2 hstopped
      rw [hstop, StopCall.toClose] at hin
      cases hin
  · exact fun _ _ _ => rfl
  · intro hreturned
    cases hstop.symm.trans (h.stopping.returned hreturned).1

/-- The stop returns when nothing is being delivered. -/
theorem stopReturns (h : Sound client) (hstop : client.stopCall = .delivering)
    (hstops : client.delivers .stop = false) (hwatches : client.delivers .watch = false) :
    Sound { client with stopCall := .returned, stopReturned := true } := by
  have hstopped := h.stopping.halted.mpr (by rw [hstop]; exact nofun)
  have hnone : client.deliveries = [] := by
    refine List.eq_nil_iff_forall_not_mem.mpr ?_
    intro delivery hmem
    cases hby : delivery.deliverer with
    | stream connection =>
        have hin := (h.stopping.connected delivery hmem connection hby).2 hstopped
        rw [hstop] at hin
        cases hin
    | watch => exact List.any_eq_false.mp hwatches delivery hmem (decide_eq_true hby)
    | stop => exact List.any_eq_false.mp hstops delivery hmem (decide_eq_true hby)
  refine ⟨{ h.maps with }, { h.truthful with }, ?_, ?_⟩
  · have hwatched : Watches { client with stopCall := .returned } :=
      h.watches.stopCall (by rw [hstop]; rfl)
    exact { hwatched with }
  constructor
  · exact ⟨fun _ => nofun, fun _ => hstopped⟩
  · intro delivery hmem
    rw [hnone] at hmem
    cases hmem
  · intro delivery hmem
    rw [hnone] at hmem
    cases hmem
  · exact fun _ => ⟨rfl, hnone⟩

/-- The mutex of a record is taken when the record is ready. -/
theorem settled_of_ready (hlookup : client.heap.lookup ref = some record)
    (hready : record.state = .Ready) : Settled client.heap ref := by
  refine ⟨record, hlookup, ?_⟩
  rintro (hstate | hstate) <;> cases hready.symm.trans hstate

theorem mem_emplace {κ β : Type} [DecidableEq κ] {map : AList fun _ : κ => β} {new key : κ}
    {value : β} (h : key ∈ map) : key ∈ emplace map new value := by
  unfold emplace
  split
  · exact h
  · exact (AList.mem_insert _).mpr (.inr h)

theorem serve {call : ClientCall} (h : Sound client) (hok : Orderly client call)
    (hserve : client.serve call = some client') : Sound client' := by
  cases call with
  | prepare file path =>
      simp only [OpticalReadClient.serve] at hserve
      split at hserve
      · cases hserve
      · cases hserve
        have hconnected : Sound { client with
            connections := emplace client.connections file.connection 0 } :=
          h.connections fun _ hmem => mem_emplace hmem
        have hfree (ref : Nat) : ¬(PendingCall.connecting file path).operates ref := nofun
        exact hconnected.begin hfree
  | subscribed file path rpc =>
      simp only [OpticalReadClient.serve] at hserve
      split at hserve
      · cases hserve
      split at hserve
      · cases hserve
        exact h.after_free _ fun _ => ⟨nofun, nofun⟩
      · cases hserve
        rename_i session _
        have hconnected : Sound { client with
            connections := client.connections.insert file.connection session } :=
          h.connections fun _ hmem => (AList.mem_insert _).mpr (.inr hmem)
        refine hconnected.after_free (.connecting file path) fun _ => ⟨?_, ?_⟩
        · exact fun hmem => nomatch List.mem_singleton.mp hmem
        · exact fun hmem => nomatch List.mem_singleton.mp hmem
  | submit file path =>
      simp only [OpticalReadClient.serve] at hserve
      split at hserve
      · cases hserve
      split at hserve
      · cases hserve
        refine (h.insertRecord hok file path).after_free (.connected file path) fun _ => ⟨?_, ?_⟩
        · exact fun hmem => nomatch List.mem_singleton.mp hmem
        · exact fun hmem => nomatch List.mem_singleton.mp hmem
      · cases hserve
        exact h.after_free _ fun _ => ⟨nofun, nofun⟩
  | prepared ref rpc =>
      simp only [OpticalReadClient.serve] at hserve
      split at hserve
      · cases hserve
      rename_i record hlookup
      split at hserve
      · cases hserve
      cases hserve
      refine (h.accept hlookup rpc).after_free (.submitting ref) fun _ => ?_
      split
      · constructor <;> exact fun hmem => nomatch List.mem_singleton.mp hmem
      · exact ⟨nofun, nofun⟩
  | forget ref =>
      simp only [OpticalReadClient.serve] at hserve
      split at hserve
      · cases hserve
      rename_i record hlookup
      split at hserve
      · cases hserve
      cases hserve
      exact (h.refuse hlookup (hok record hlookup)).after_free (.refused ref)
        fun _ => ⟨nofun, nofun⟩
  | watch handle =>
      simp only [OpticalReadClient.serve] at hserve
      split at hserve
      · cases hserve
      rename_i ref hrecorded
      split at hserve
      · cases hserve
      rename_i record hlookup
      have hhandle : client.records.lookup record.handle = some ref := by
        obtain ⟨found, hfound, hhandle⟩ := h.maps.recorded handle ref hrecorded
        cases hfound.symm.trans hlookup
        rw [hhandle]
        exact hrecorded
      split at hserve
      · cases hserve
      rename_i hstopped
      rw [Bool.not_eq_true] at hstopped
      split at hserve
      · rename_i hwaiting
        cases hserve
        exact h.watch hhandle hlookup hwaiting hstopped
      split at hserve
      · rename_i hstate
        cases hserve
        exact h.watch_settled hlookup hstate hstopped
      · cases hserve
  | open_ inodeId version =>
      simp only [OpticalReadClient.serve] at hserve
      split at hserve
      · cases hserve
      split at hserve
      · cases hserve
      · cases hserve
        exact h.begin fun _ => nofun
  | acquire ref =>
      simp only [OpticalReadClient.serve] at hserve
      split at hserve
      · cases hserve
      rename_i record hlookup
      split at hserve
      · cases hserve
      cases hserve
      refine h.after _ fun other hmem => ?_
      split at hmem
      · rename_i hready
        simp only [List.mem_singleton, PendingCall.acquiring.injEq, reduceCtorEq, or_false] at hmem
        subst hmem
        exact settled_of_ready hlookup hready
      · rcases hmem with hmem | hmem <;> cases hmem
  | acquired ref rpc =>
      simp only [OpticalReadClient.serve] at hserve
      split at hserve
      · cases hserve
      rename_i record hlookup
      split at hserve
      · cases hserve
      rename_i hmem
      rw [not_not] at hmem
      split at hserve
      · cases hserve
        obtain ⟨found, hfound, hsettled⟩ := h.watches.settled ref (.inl hmem)
        cases hfound.symm.trans hlookup
        exact (h.release hlookup hsettled).after_free _ fun _ => ⟨nofun, nofun⟩
      · cases hserve
        have hafter : Sound (client.after (.acquiring ref) []) :=
          h.after_free _ fun _ => ⟨nofun, nofun⟩
        exact ⟨{ hafter.maps with }, { hafter.truthful with }, { hafter.watches with },
          { hafter.stopping with }⟩
  | release handle =>
      simp only [OpticalReadClient.serve] at hserve
      split at hserve
      · cases hserve
      · cases hserve
        exact h.begin fun _ => nofun
  | sendRelease ref =>
      simp only [OpticalReadClient.serve] at hserve
      split at hserve
      · cases hserve
      rename_i record hlookup
      split at hserve
      · cases hserve
      split at hserve
      · rename_i hready
        cases hserve
        have hsettled := settled_of_ready hlookup hready
        have hset : Sound (client.setRecord ref { record with state := .Releasing }) := by
          refine h.setRecord hlookup ⟨rfl, rfl, fun _ => rfl, ?_⟩ (.inr ⟨nofun, nofun⟩) rfl rfl ?_
          · exact fun hwaiting => (nomatch hwaiting)
          · intro hne
            have hwaiting := (h.watches.watched ref record hlookup hne).1
            obtain ⟨found, hfound, hnot⟩ := hsettled
            cases hfound.symm.trans hlookup
            exact absurd hwaiting hnot
        refine hset.after _ fun other hmem => ?_
        simp only [List.mem_singleton, PendingCall.releasing.injEq, reduceCtorEq, false_or] at hmem
        subst hmem
        exact ⟨_, AList.lookup_insert _, fun hwaiting => (nomatch hwaiting)⟩
      · cases hserve
        exact h.after_free _ fun _ => ⟨nofun, nofun⟩
  | released ref rpc =>
      simp only [OpticalReadClient.serve] at hserve
      split at hserve
      · cases hserve
      rename_i record hlookup
      split at hserve
      · cases hserve
      rename_i hmem
      rw [not_not] at hmem
      split at hserve
      · cases hserve
        exact h.after_free _ fun _ => ⟨nofun, nofun⟩
      · cases hserve
        obtain ⟨found, hfound, hsettled⟩ := h.watches.settled ref (.inr hmem)
        cases hfound.symm.trans hlookup
        exact (h.release hlookup hsettled).after_free _ fun _ => ⟨nofun, nofun⟩
  | onReady connection event =>
      simp only [OpticalReadClient.serve] at hserve
      split at hserve
      · cases hserve
      rename_i hconnected
      rw [not_not] at hconnected
      split at hserve
      · cases hserve
        exact h.receive (connection, event)
      rename_i ref hrecorded
      split at hserve
      · cases hserve
        exact h.receive (connection, event)
      rename_i record hlookup
      split at hserve
      · cases hserve
        exact h.receive (connection, event)
      · rename_i hready
        rw [not_or, not_not, Bool.not_eq_true] at hready
        cases hserve
        exact h.onReady hconnected hrecorded hlookup hready.2 hready.1
          (hok ref hrecorded record hlookup hready.2)
  | invoke now =>
      simp only [OpticalReadClient.serve] at hserve
      split at hserve
      · cases hserve
      rename_i callback callbacks hcallbacks
      split at hserve
      · cases hserve
      rename_i hmem
      rw [not_not] at hmem
      cases hserve
      exact h.invoke hmem hcallbacks
  | stop =>
      simp only [OpticalReadClient.serve] at hserve
      split at hserve
      · rename_i hstopped
        cases hserve
        have hreturned := h.stopping.returned (hok hstopped)
        exact ⟨{ h.maps with }, { h.truthful with }, { h.watches with },
          { h.stopping with returned := fun _ => hreturned }⟩
      · rename_i hstopped
        rw [Bool.not_eq_true] at hstopped
        cases hserve
        exact h.stop hstopped
  | closeStream =>
      simp only [OpticalReadClient.serve] at hserve
      split at hserve
      · rename_i connection connections callbacks hstop
        split at hserve
        · cases hserve
        · rename_i hnone
          rw [Bool.not_eq_true] at hnone
          cases hserve
          exact h.closeStream hstop hnone
      · cases hserve
  | deliverStopped =>
      simp only [OpticalReadClient.serve] at hserve
      split at hserve
      · rename_i callbacks hstop
        cases hserve
        exact h.deliverStopped hstop
      · cases hserve
  | stopReturns =>
      simp only [OpticalReadClient.serve] at hserve
      split at hserve
      · cases hserve
      · rename_i hstop
        rw [not_or, not_not, Bool.not_eq_true] at hstop
        cases hserve
        exact h.stopReturns hstop.1 hstop.2 hok

theorem start (instanceId : Bytes) (readChunkBytes : UInt32) :
    Sound { instanceId := instanceId, readChunkBytes := readChunkBytes } where
  maps := ⟨rfl, nofun, nofun, nofun, nofun⟩
  truthful := ⟨nofun, nofun, nofun⟩
  watches := ⟨nofun, nofun, fun _ => rfl, nofun, .nil⟩
  stopping := ⟨⟨nofun, fun hne => absurd rfl hne⟩, nofun, nofun, nofun⟩

end Sound

/-! ## Runs -/

/-- Accepted callbacks are invoked once by the end of a stop, with a success only after
    the message for it; a request that was refused has no record; and the active records
    are recorded, one for each file. -/
structure CallbacksKept (client : OpticalReadClient) : Prop where
  once : client.stopReturned = true → ∀ callback ∈ client.accepted,
    (client.invoked.map Prod.fst).count callback = 1
  never_twice : ∀ callback, (client.invoked.map Prod.fst).count callback ≤ 1
  success : ∀ entry ∈ client.invoked, entry.2.error = none →
    Told client.heap client.received entry.2 entry.1
  refused : ∀ handle ∈ client.refusals, client.records.lookup handle = none
  recorded : ∀ key ref, client.active.lookup key = some ref →
    ∃ record, client.heap.lookup ref = some record ∧ record.key = key ∧
      client.records.lookup record.handle = some ref
  single : ∀ ref ref' record record', client.active.lookup record.key = some ref →
    client.active.lookup record'.key = some ref' → client.heap.lookup ref = some record →
    client.heap.lookup ref' = some record' → record.key = record'.key → ref = ref'

/-- A callback that is nowhere else has been invoked. -/
theorem Sound.callbacksKept {client : OpticalReadClient} (h : Sound client) :
    CallbacksKept client where
  once hreturned callback hmem := by
    obtain ⟨hstop, hnone⟩ := h.stopping.returned hreturned
    have hstopped := h.stopping.halted.mpr (by rw [hstop]; exact nofun)
    have hcount := h.watches.counted callback
    have hwaits : waits client.heap callback = 0 := by
      refine total_eq_zero_iff.mpr fun ref record hlookup => ?_
      have hempty : record.watchers = [] := by
        by_contra hne
        cases hstopped.symm.trans (h.watches.watched ref record hlookup hne).2.2
      rw [hempty, List.count_nil]
    have htaken : client.stopCall.callbacks = [] := by
      rw [hstop]
      rfl
    rw [count, hwaits, hnone, htaken, List.count_nil,
      List.count_eq_one_of_mem h.watches.distinct hmem] at hcount
    exact (Nat.zero_add _).symm.trans hcount
  never_twice callback := by
    have hcount := h.watches.counted callback
    have hle := List.nodup_iff_count_le_one.mp h.watches.distinct callback
    rw [count] at hcount
    omega
  success := h.truthful.invoked
  refused handle hmem := (h.maps.refused handle hmem).1
  recorded := h.maps.active
  single ref ref' record record' hactive hactive' _ _ hkey := by
    rw [hkey] at hactive
    exact Option.some.inj (hactive.symm.trans hactive')

theorem callbacks_kept (instanceId : Bytes) (readChunkBytes : UInt32)
    {hist : List (Served OpticalReadClient ClientCall)} {client : OpticalReadClient}
    (h : Serves OpticalReadClient.Serve Orderly
      { instanceId := instanceId, readChunkBytes := readChunkBytes } hist client) :
    CallbacksKept client := by
  have hsound : Sound client :=
    h.invariant (fun _ _ _ hbefore hok hserve => Sound.serve hbefore hok hserve)
      (.start instanceId readChunkBytes)
  exact hsound.callbacksKept

def preparedFile : FileInfo where
  nodeAddress := ofAscii "n:1"
  inodeId := 7
  diskId := ofAscii "d"
  imageId := ofAscii "i"
  fileSize := 2
  fileVersion := none
  nodeId := []
  instanceGeneration := 0

def readyEvent : ReadReadyEvent where
  requestId := ofAscii "m:1"
  taskId := 5
  inodeId := 7
  fileSize := 2
  hasFileVersion := false
  fileVersion := 0

/-- The calls up to the request of a preparation, by the mount `m`. -/
def submittedCalls : List ClientCall :=
  [.prepare preparedFile (ofAscii "p"), .subscribed preparedFile (ofAscii "p") (.replied .OK 1),
    .submit preparedFile (ofAscii "p")]

def stopCalls : List ClientCall := [.stop, .closeStream, .deliverStopped, .stopReturns]

/-- The message comes before the reply and once more, and the callback after both. -/
def readyRun : List (Served OpticalReadClient ClientCall) × OpticalReadClient :=
  runWhile OpticalReadClient.serve { instanceId := ofAscii "m" }
    (submittedCalls ++
      [.onReady preparedFile.connection readyEvent,
        .prepared 0 (.replied .OK ⟨ofAscii "m:1", 5⟩),
        .onReady preparedFile.connection readyEvent, .watch (ofAscii "m:1"),
        .invoke ⟨.watch, [⟨0, 0⟩], ⟨⟨ofAscii "m:1", ofAscii "p", 2⟩, none, []⟩⟩] ++ stopCalls)

theorem callbacks_kept_ready :
    readyRun.2.stopReturned = true ∧ readyRun.2.accepted = [⟨0, 0⟩] ∧
      (readyRun.2.invoked.map Prod.fst).count ⟨0, 0⟩ = 1 := by
  have hserves : Serves OpticalReadClient.Serve Orderly { instanceId := ofAscii "m" }
      readyRun.1 readyRun.2 :=
    serves_runWhile (fun _ _ _ hserve => hserve) _ _ (by decide +kernel)
  have hkept := callbacks_kept (ofAscii "m") 0 hserves
  exact ⟨by decide +kernel, by decide +kernel,
    hkept.once (by decide +kernel) ⟨0, 0⟩ (by decide +kernel)⟩

/-- The callback comes while the request is under way, and the request then fails. -/
def refusedRun : List (Served OpticalReadClient ClientCall) × OpticalReadClient :=
  runWhile OpticalReadClient.serve { instanceId := ofAscii "m" }
    (submittedCalls ++ [.watch (ofAscii "m:1"), .prepared 0 (.failed true), .forget 0] ++ stopCalls)

/-- A callback that waits for a request that fails is never invoked. -/
theorem callback_lost : ¬∀ hist client,
    Serves OpticalReadClient.Serve Any { instanceId := ofAscii "m" } hist client →
      CallbacksKept client := by
  intro h
  have hserves : Serves OpticalReadClient.Serve Any { instanceId := ofAscii "m" }
      refusedRun.1 refusedRun.2 :=
    serves_runWhile (fun _ _ _ hserve => hserve) _ _ fun _ _ => trivial
  have honce := (h _ _ hserves).once (by decide +kernel) ⟨0, 0⟩ (by decide +kernel)
  have hnone : refusedRun.2.invoked = [] := by decide +kernel
  rw [hnone] at honce
  cases honce

end Zb.Client.Optical
