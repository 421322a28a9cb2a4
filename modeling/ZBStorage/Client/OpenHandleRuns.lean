-- SUMMARY: Handles and read sessions of an idle mount are those of its tables.
import ZBStorage.Client.OpenRequests
import ZBStorage.Lib.TableSum

/-!
# Open handles over runs of a mount

The calls of `OpenRequests` run one operation at a time, in any order, over the tables of the
mount. A call keeps an account of what it has obtained and not yet given back or filed in the
tables; when it ends the account is empty, unless a reply that granted something was thrown
away.
-/

namespace Zb.Client.Handles

open Bytes Optical Prog

/-! ## Tables -/

structure OpenTables where
  nextLocalHandle : UInt64 := 1
  handleToInode : AList fun _ : UInt64 => UInt64 := ∅
  handleToMds : AList fun _ : UInt64 => UInt64 := ∅
  opticalSessions : AList fun _ : UInt64 => OpenSession := ∅

/-- `RegisterOpenHandle` -/
def OpenTables.register (tables : OpenTables) (inodeId mdsHandle : UInt64)
    (session : Option OpenSession) : UInt64 × OpenTables :=
  let localHandle := tables.nextLocalHandle
  (localHandle,
    { nextLocalHandle := localHandle + 1
      handleToInode := emplace tables.handleToInode localHandle inodeId
      handleToMds := emplace tables.handleToMds localHandle mdsHandle
      opticalSessions :=
        match session with
        | none => tables.opticalSessions
        | some session => emplace tables.opticalSessions localHandle session })

/-- The critical section of `ReleaseRequest`. -/
def OpenTables.take (tables : OpenTables) (handle : UInt64) :
    Option (UInt64 × Option OpenSession) × OpenTables :=
  match tables.handleToMds.lookup handle with
  | none => (none, tables)
  | some mdsHandle =>
      (some (mdsHandle, tables.opticalSessions.lookup handle),
        { tables with
          handleToInode := tables.handleToInode.erase handle
          handleToMds := tables.handleToMds.erase handle
          opticalSessions := tables.opticalSessions.erase handle })

/-- What an operation answers and leaves: calls of other components may answer anything. -/
def serve : (o : FuseOp) → OpenTables → o.Res → OpenTables → Prop
  | .register inodeId mdsHandle session, tables, r, tables' =>
      (r, tables') = tables.register inodeId mdsHandle session
  | .take handle, tables, r, tables' => (r, tables') = tables.take handle
  | _, tables, _, tables' => tables' = tables

inductive Call
  | fuseOpen (path : Bytes) (flags : UInt32)
  | fuseCreate (path : Bytes) (mode flags : UInt32)
  | fuseRelease (handle : UInt64)

def Call.program (readChunkBytes : UInt32) : Call → FuseProg (Except OpenError UInt64)
  | .fuseOpen path flags => openRequest readChunkBytes path flags
  | .fuseCreate path mode flags => Handles.fuseCreate path mode flags
  | .fuseRelease handle => releaseRequest handle

/-! ## What is obtained, given back and filed -/

/-- Something that another component keeps open for the mount. -/
inductive Resource
  | mdsHandle (handle : UInt64)
  | readSession (key : SessionKey)
  deriving DecidableEq

def sessionResources (session : Option OpenSession) : List Resource :=
  (session.map fun session => .readSession session.key).toList

def entryResources (entry : UInt64 × Option OpenSession) : List Resource :=
  .mdsHandle entry.1 :: sessionResources entry.2

def OpenTables.held (tables : OpenTables) : List Resource :=
  tables.handleToMds.entries.map (fun entry => .mdsHandle entry.2) ++
    tables.opticalSessions.entries.map fun entry => .readSession entry.2.key

/-- The replies that granted a resource, whatever the client makes of them. -/
def FuseOp.obtained : (o : FuseOp) → o.Res → List Resource
  | .mdsOpen _ _, r =>
      match r with
      | .failed _ => []
      | .ok reply => [.mdsHandle reply.handleId]
  | .acquireReadSession inodeId version _, r =>
      match check r with
      | .error _ => []
      | .ok reply =>
          if reply.readHandle = 0 then [] else [.readSession (inodeId, version, reply.readHandle)]
  | _, _ => []

/-- The requests that give a resource back, whatever comes of them. -/
def FuseOp.givenBack : (o : FuseOp) → o.Res → List Resource
  | .mdsClose handle, _ => [.mdsHandle handle]
  | .closeSession session, _ => [.readSession session.key]
  | _, _ => []

def FuseOp.filed : (o : FuseOp) → o.Res → List Resource
  | .register _ mdsHandle session, _ => entryResources (mdsHandle, session)
  | _, _ => []

def FuseOp.taken : (o : FuseOp) → o.Res → List Resource
  | .take _, r =>
      match r with
      | none => []
      | some entry => entryResources entry
  | _, _ => []

/-- The local handle that an operation has given out. -/
def FuseOp.registered : (o : FuseOp) → o.Res → List UInt64
  | .register _ _ _, r => [r]
  | _, _ => []

/-- A reply that grants something is one the client accepts: the location of an opened file can
    be read from or written to, and a session has a chunk size and the size of its file. -/
def FuseOp.Usable : (o : FuseOp) → o.Res → Prop
  | .mdsOpen _ _, r =>
      match r with
      | .failed _ => True
      | .ok reply => (selectLocationForIo reply.location).isSome
  | .acquireReadSession _ _ fileSize, r =>
      match check r with
      | .error _ => True
      | .ok reply => reply.readHandle = 0 ∨ reply.maxReadBytes ≠ 0 ∧ reply.fileSize = fileSize
  | _, _ => True

section Mount

variable {ι : Type}

/-- Local handles are left to give out. -/
def HandlesLeft (w : World ι FuseOp FuseOp.Res OpenTables) : FuseOp → Prop
  | .register _ _ _ => (listed FuseOp.registered w.trace).length < 2 ^ 64
  | _ => True

/-- A mount whose operations may answer as `may` says. -/
def mount (may : World ι FuseOp FuseOp.Res OpenTables → (o : FuseOp) → o.Res → Prop) :
    Machine ι FuseOp FuseOp.Res OpenTables :=
  { sem := fun _ => serve, may := fun w _ => may w }

/-- Nothing is open but what the tables hold. -/
structure NothingLeaks (w : World ι FuseOp FuseOp.Res OpenTables) : Prop where
  accounted : (listed FuseOp.givenBack w.trace ++ w.state.held).Perm
    (listed FuseOp.obtained w.trace)
  sameKeys : ∀ handle, handle ∈ w.state.handleToInode ↔ handle ∈ w.state.handleToMds
  sessionKeys : ∀ handle, handle ∈ w.state.opticalSessions → handle ∈ w.state.handleToMds
  unused : (listed FuseOp.registered w.trace).Nodup

end Mount

/-! ## Accounts of the calls -/

/-- What comes into the hands of a call. -/
def FuseOp.gained (o : FuseOp) (r : o.Res) : List Resource := o.obtained r ++ o.taken r

/-- What leaves the hands of a call. -/
def FuseOp.spent (o : FuseOp) (r : o.Res) : List Resource := o.givenBack r ++ o.filed r

def moved (o : FuseOp) (r : o.Res) : Resource → ℤ := tally (o.gained r) - tally (o.spent r)

theorem tally_entryResources {mdsHandle : UInt64} {session : Option OpenSession} :
    tally (entryResources (mdsHandle, session)) =
      tally [.mdsHandle mdsHandle] + tally (sessionResources session) := tally_cons

section Moved

attribute [local simp] FuseOp.gained FuseOp.spent FuseOp.obtained FuseOp.taken FuseOp.givenBack
  FuseOp.filed

@[simp] theorem moved_mdsOpen_failed {path : Bytes} {flags : UInt32} {errno : Int} :
    moved (.mdsOpen path flags) (.failed errno) = 0 := by
  simp [moved]

@[simp] theorem moved_mdsOpen_ok {path : Bytes} {flags : UInt32} {reply : OpenReply} :
    moved (.mdsOpen path flags) (.ok reply) = tally [.mdsHandle reply.handleId] := by
  simp [moved]

@[simp] theorem moved_mdsClose {handle : UInt64} {r : Option Int} :
    moved (.mdsClose handle) r = -tally [.mdsHandle handle] := by
  simp [moved]

@[simp] theorem moved_closeSession {session : OpenSession} {r : Option ErrorCode} :
    moved (.closeSession session) r = -tally [.readSession session.key] := by
  simp [moved]

theorem moved_acquire_error {inodeId : UInt64} {version : Option UInt64} {fileSize : UInt64}
    {r : RpcEnd AcquireReadSessionReply} {code : ErrorCode} (h : check r = .error code) :
    moved (.acquireReadSession inodeId version fileSize) r = 0 := by
  simp [moved, h]

theorem moved_acquire_ok {inodeId : UInt64} {version : Option UInt64} {fileSize : UInt64}
    {r : RpcEnd AcquireReadSessionReply} {reply : AcquireReadSessionReply}
    (h : check r = .ok reply) :
    moved (.acquireReadSession inodeId version fileSize) r =
      tally (if reply.readHandle = 0 then []
        else [.readSession (inodeId, version, reply.readHandle)]) := by
  simp [moved, h]

@[simp] theorem moved_register {inodeId mdsHandle : UInt64} {session : Option OpenSession}
    {r : UInt64} :
    moved (.register inodeId mdsHandle session) r =
      -(tally [.mdsHandle mdsHandle] + tally (sessionResources session)) := by
  simp [moved, tally_entryResources]

@[simp] theorem moved_take_none {handle : UInt64} : moved (.take handle) none = 0 := by
  simp [moved]

@[simp] theorem moved_take_some {handle mdsHandle : UInt64} {session : Option OpenSession} :
    moved (.take handle) (some (mdsHandle, session)) =
      tally [.mdsHandle mdsHandle] + tally (sessionResources session) := by
  simp [moved, tally_entryResources]

end Moved

/-- The account of a call, with usable replies. -/
abbrev Account {α : Type} (p : FuseProg α) (Q : α → (Resource → ℤ) → Prop)
    (start : Resource → ℤ) : Prop :=
  Ledger FuseOp.Usable moved p Q start

section Account

variable {start : Resource → ℤ} {ε α : Type}

/-- What a call has in hand when it answers. -/
def inHand (f : α → List Resource) : Except ε α → Resource → ℤ
  | .error _ => 0
  | .ok a => tally (f a)

/-- Operations that move nothing. -/
def FuseOp.IsQuery : FuseOp → Prop
  | .mdsCreate _ _ | .getOrFetchAnchor _ | .ensureReplicaNodeAddress _
  | .getOrFetchNodeFileMeta _ _ | .opticalReads | .findReady _ _ => True
  | _ => False

theorem account_query {α : Type} {Q : α → (Resource → ℤ) → Prop} {start : Resource → ℤ} {o : FuseOp}
    {k : o.Res → FuseProg α} (ho : o.IsQuery) (h : ∀ r, Account (k r) Q start) :
    Account (.call o k) Q start := by
  refine ledger_call.mpr fun r _ => ?_
  have hmoved : moved o r = 0 := by
    cases o <;> first | exact ho.elim | exact sub_self _
  rw [hmoved, add_zero]
  exact h r

theorem account_mdsClientOpen (path : Bytes) (flags : UInt32) :
    Account (mdsClientOpen path flags)
      (fun answer n => n = start + inHand (fun x => [.mdsHandle x.1]) answer) start := by
  rw [mdsClientOpen, mdsOpen, perform_bind]
  refine ledger_call.mpr fun r hgood => ?_
  cases r with
  | failed errno =>
      apply ledger_ret.mpr
      simp [inHand]
  | ok reply =>
      obtain ⟨anchor, hanchor⟩ := Option.isSome_iff_exists.mp hgood
      simp only [hanchor]
      apply ledger_ret.mpr
      simp [inHand]

theorem account_opticalOpen (readChunkBytes : UInt32) (inodeId : UInt64)
    (version : Option UInt64) :
    Account (opticalOpen readChunkBytes inodeId version)
      (fun answer n => n = start + inHand (fun session => [.readSession session.key]) answer)
      start := by
  rw [opticalOpen, findReady, perform_bind]
  refine account_query trivial fun r => ?_
  cases r with
  | error code =>
      apply ledger_ret.mpr
      simp [inHand]
  | ok fileSize =>
      simp only [acquireReadSession, perform_bind]
      refine ledger_call.mpr fun r hgood => ?_
      split
      · next reply =>
          have hrefused : check (.replied .NOT_FOUND reply) = .error .ENOENT := rfl
          apply ledger_ret.mpr
          simp [inHand, moved_acquire_error hrefused]
      · generalize hreply : check r = answer
        cases answer with
        | error code =>
            apply ledger_ret.mpr
            simp [inHand, moved_acquire_error hreply]
        | ok reply =>
            simp only [FuseOp.Usable, hreply] at hgood
            by_cases hzero : reply.readHandle = 0
            · simp only [hzero, true_or, if_true]
              apply ledger_ret.mpr
              simp [inHand, moved_acquire_ok hreply, hzero]
            · obtain ⟨hmax, hsize⟩ := hgood.resolve_left hzero
              simp only [hzero, hmax, hsize, not_true_eq_false, ne_eq, or_self, if_false]
              apply ledger_ret.mpr
              simp [inHand, moved_acquire_ok hreply, hzero, OpenSession.key]

/-- A body that files the handle when it ends well has nothing in hand in the end. -/
theorem account_withRollback {handle : UInt64} {body : FuseProg (Except OpenError UInt64)}
    (hbody : Account body (fun answer n => n + inHand (fun _ => [.mdsHandle handle]) answer = start)
      start) :
    Account (withRollback handle body) (fun _ n => n + tally [.mdsHandle handle] = start) start := by
  refine hbody.bind fun answer n hn => ?_
  cases answer with
  | ok localHandle => exact ledger_ret.mpr hn
  | error error =>
      simp only [mdsClose, perform_bind]
      refine ledger_call.mpr fun r _ => ledger_ret.mpr ?_
      simpa [inHand] using hn

theorem account_openAnchor (inodeId : UInt64) (anchor : ReplicaLocation) :
    Account (openAnchor inodeId anchor) (fun _ n => n = start) start := by
  rw [openAnchor]
  split
  · rw [getOrFetchAnchor, perform_bind]
    refine account_query trivial fun r => ?_
    cases r with
    | error errno => exact ledger_ret.mpr rfl
    | ok anchor =>
        simp only
        split
        · exact ledger_ret.mpr rfl
        · exact ledger_ret.mpr rfl
  · rw [ensureReplicaNodeAddress, perform_bind]
    refine account_query trivial fun r => ?_
    cases r with
    | error errno => exact ledger_ret.mpr rfl
    | ok nodeAddress => exact ledger_ret.mpr rfl

theorem account_register (inodeId handle : UInt64) (session : Option OpenSession) :
    Account
      (do return Except.ok (← registerOpenHandle inodeId handle session) :
        FuseProg (Except OpenError UInt64))
      (fun answer n => n + inHand (fun _ => [.mdsHandle handle]) answer +
        tally (sessionResources session) = start) start := by
  rw [registerOpenHandle, perform_bind]
  refine ledger_call.mpr fun r _ => ledger_ret.mpr ?_
  rw [moved_register, inHand]
  abel

/-- Without a session only the handle of the metadata server is filed. -/
theorem account_register_none (inodeId handle : UInt64) :
    Account
      (do return Except.ok (← registerOpenHandle inodeId handle none) :
        FuseProg (Except OpenError UInt64))
      (fun answer n => n + inHand (fun _ => [.mdsHandle handle]) answer = start) start :=
  (account_register inodeId handle none).mono fun _ _ hn => by
    simpa [sessionResources] using hn

theorem account_registerOnNode (inodeId handle : UInt64) (anchor : ReplicaLocation) :
    Account (registerOnNode inodeId handle anchor)
      (fun answer n => n + inHand (fun _ => [.mdsHandle handle]) answer = start) start := by
  rw [registerOnNode, getOrFetchNodeFileMeta, perform_bind]
  refine account_query trivial fun r => ?_
  cases r with
  | some errno => exact ledger_ret.mpr (by simp [inHand])
  | none => exact account_register_none inodeId handle

theorem account_registerOptical (readChunkBytes flags : UInt32) (attr : Rpc.InodeAttr)
    (handle : UInt64) :
    Account (registerOptical readChunkBytes flags attr handle)
      (fun answer n => n + inHand (fun _ => [.mdsHandle handle]) answer = start) start := by
  rw [registerOptical]
  split
  · exact ledger_ret.mpr (by simp [inHand])
  · rw [opticalReads, perform_bind]
    refine account_query trivial fun r => ?_
    split
    · refine (account_opticalOpen _ _ _).bind fun answer n hn => ?_
      subst hn
      cases answer with
      | error code => exact ledger_ret.mpr (by simp [inHand])
      | ok session =>
          refine (account_register _ handle (some session)).mono fun answer n hn => ?_
          exact add_right_cancel hn
    · exact account_register_none attr.inodeId handle

theorem account_openRequest (readChunkBytes : UInt32) (path : Bytes) (flags : UInt32) :
    Account (openRequest readChunkBytes path flags) (fun _ n => n = 0) 0 := by
  refine (account_mdsClientOpen path flags).bind fun answer n hn => ?_
  subst hn
  rcases answer with error | ⟨handle, location, anchor⟩
  · exact ledger_ret.mpr (by simp [inHand])
  · refine (@account_withRollback (0 + tally [.mdsHandle handle]) _ _ ?_).mono
      fun _ n hn => add_right_cancel hn
    dsimp only
    split
    · refine (account_openAnchor _ anchor).bind fun answer n hn => ?_
      subst hn
      cases answer with
      | error error => exact ledger_ret.mpr (by simp [inHand])
      | ok anchor =>
          dsimp only
          split
          · exact account_registerOptical readChunkBytes flags location.attr handle
          · exact account_registerOnNode location.attr.inodeId handle anchor
    · exact account_register_none location.attr.inodeId handle

theorem account_fuseCreate (path : Bytes) (mode flags : UInt32) :
    Account (Handles.fuseCreate path mode flags) (fun _ n => n = 0) 0 := by
  rw [Handles.fuseCreate, mdsCreate, perform_bind]
  refine account_query trivial fun r => ?_
  cases r with
  | failed errno => exact ledger_ret.mpr rfl
  | ok created =>
      dsimp only
      split
      · exact ledger_ret.mpr rfl
      · refine (account_mdsClientOpen path flags).bind fun answer n hn => ?_
        subst hn
        rcases answer with error | ⟨handle, location, anchor⟩
        · exact ledger_ret.mpr (by simp [inHand])
        · refine (account_withRollback ?_).mono fun _ n hn => add_right_cancel hn
          refine (account_openAnchor _ _).bind fun answer n hn => ?_
          subst hn
          cases answer with
          | error error => exact ledger_ret.mpr (by simp [inHand])
          | ok anchor => exact account_registerOnNode location.attr.inodeId handle anchor

theorem account_releaseRequest (handle : UInt64) :
    Account (releaseRequest handle) (fun _ n => n = 0) 0 := by
  rw [releaseRequest, takeOpenHandle, perform_bind]
  refine ledger_call.mpr fun r _ => ?_
  rcases r with - | ⟨mdsHandle, session⟩
  · exact ledger_ret.mpr (by simp)
  · rw [moved_take_some, zero_add]
    cases session with
    | none =>
        refine ledger_call.mpr fun r _ => ?_
        have hempty : tally [.mdsHandle mdsHandle] + tally (sessionResources none) +
            moved (.mdsClose mdsHandle) r = 0 := by
          simp [sessionResources]
        rw [hempty]
        cases r with
        | none => exact ledger_ret.mpr rfl
        | some errno => exact ledger_ret.mpr rfl
    | some session =>
        refine ledger_call.mpr fun closed _ => ledger_call.mpr fun r _ => ?_
        have hempty : tally [.mdsHandle mdsHandle] + tally (sessionResources (some session)) +
            moved (.closeSession session) closed + moved (.mdsClose mdsHandle) r = 0 := by
          simp [sessionResources]
        rw [hempty]
        rcases closed, r with ⟨_ | code, _ | errno⟩
        all_goals exact ledger_ret.mpr rfl

theorem Call.account (readChunkBytes : UInt32) (call : Call) :
    Account (call.program readChunkBytes) (fun _ n => n = 0) 0 := by
  cases call with
  | fuseOpen path flags => exact account_openRequest readChunkBytes path flags
  | fuseCreate path mode flags => exact account_fuseCreate path mode flags
  | fuseRelease handle => exact account_releaseRequest handle

end Account

/-! ## What the tables hold -/

section Tables

variable {tables : OpenTables} {handle inodeId mdsHandle : UInt64} {session : Option OpenSession}

theorem emplace_new {α β : Type} [DecidableEq α] {map : AList fun _ : α => β} {key : α}
    {value : β} (h : key ∉ map) : emplace map key value = map.insert key value := if_neg h

/-- Under a handle that is new everything is filed. -/
theorem tally_held_register (hmds : tables.nextLocalHandle ∉ tables.handleToMds)
    (hsession : tables.nextLocalHandle ∉ tables.opticalSessions) :
    tally (tables.register inodeId mdsHandle session).2.held =
      tally tables.held + tally (entryResources (mdsHandle, session)) := by
  rw [tally_entryResources]
  have hhandles : tally ((emplace tables.handleToMds tables.nextLocalHandle mdsHandle).entries.map
      fun entry => Resource.mdsHandle entry.2) =
        tally [.mdsHandle mdsHandle] +
          tally (tables.handleToMds.entries.map fun entry => .mdsHandle entry.2) := by
    rw [emplace_new hmds, TableSum.entries_insert_new (AList.lookup_eq_none.mpr hmds),
      List.map_cons, tally_cons]
  cases session with
  | none =>
      simp only [OpenTables.register, OpenTables.held, tally_append, hhandles, sessionResources,
        Option.map_none, Option.toList_none, tally_nil]
      abel
  | some session =>
      have hsessions : tally ((emplace tables.opticalSessions tables.nextLocalHandle
          session).entries.map fun entry => Resource.readSession entry.2.key) =
            tally [.readSession session.key] +
              tally (tables.opticalSessions.entries.map fun entry => .readSession entry.2.key) := by
        rw [emplace_new hsession, TableSum.entries_insert_new (AList.lookup_eq_none.mpr hsession),
          List.map_cons, tally_cons]
      simp only [OpenTables.register, OpenTables.held, tally_append, hhandles, hsessions,
        sessionResources, Option.map_some, Option.toList_some]
      abel

/-- What is taken is no longer held. -/
theorem tally_held_take :
    tally (tables.take handle).2.held + tally (FuseOp.taken (.take handle) (tables.take handle).1) =
      tally tables.held := by
  rw [OpenTables.take]
  cases hmds : tables.handleToMds.lookup handle with
  | none => simp [FuseOp.taken]
  | some mdsHandle =>
      have hhandles := ((TableSum.entries_perm_erase hmds).map fun entry =>
        Resource.mdsHandle entry.2)
      simp only [FuseOp.taken, tally_entryResources, OpenTables.held, tally_append,
        perm_iff_tally_eq.mp hhandles]
      rw [List.map_cons, @tally_cons _ _ (List.map _ _)]
      cases hsession : tables.opticalSessions.lookup handle with
      | none =>
          rw [TableSum.entries_erase_none hsession]
          simp only [sessionResources, Option.map_none, Option.toList_none, tally_nil]
          abel
      | some session =>
          have hsessions := ((TableSum.entries_perm_erase hsession).map fun entry =>
            Resource.readSession entry.2.key)
          rw [perm_iff_tally_eq.mp hsessions, List.map_cons, @tally_cons _ _ (List.map _ _)]
          simp only [sessionResources, Option.map_some, Option.toList_some]
          abel

end Tables

/-! ## Runs -/

section Runs

variable {ι : Type} {w : World ι FuseOp FuseOp.Res OpenTables}

/-- The handles are numbered from one in the order of the registrations, the tables agree on
    their keys, and they hold what was filed and not taken. -/
structure Kept (w : World ι FuseOp FuseOp.Res OpenTables) : Prop where
  numbered : listed FuseOp.registered w.trace =
    (List.range (listed FuseOp.registered w.trace).length).map fun k => UInt64.ofNat (k + 1)
  left : (listed FuseOp.registered w.trace).length ≤ 2 ^ 64
  next : w.state.nextLocalHandle =
    UInt64.ofNat ((listed FuseOp.registered w.trace).length + 1)
  known : ∀ handle, handle ∈ w.state.handleToMds → handle ∈ listed FuseOp.registered w.trace
  sameKeys : ∀ handle, handle ∈ w.state.handleToInode ↔ handle ∈ w.state.handleToMds
  sessionKeys : ∀ handle, handle ∈ w.state.opticalSessions → handle ∈ w.state.handleToMds
  holds : tally w.state.held + tally (listed FuseOp.taken w.trace) =
    tally (listed FuseOp.filed w.trace)

/-- The numbers of a full round of the counter are distinct. -/
theorem nodup_numbered {n : Nat} (h : n ≤ 2 ^ 64) :
    ((List.range n).map fun k => UInt64.ofNat (k + 1)).Nodup := by
  refine List.nodup_range.map_on fun a ha b hb heq => ?_
  rw [List.mem_range] at ha hb
  have hmod := congrArg UInt64.toNat heq
  simp only [UInt64.toNat_ofNat'] at hmod
  have hsize : UInt64.size = 2 ^ 64 := rfl
  omega

theorem Kept.unused (h : Kept w) : (listed FuseOp.registered w.trace).Nodup := by
  rw [h.numbered]
  exact nodup_numbered h.left

/-- As long as handles are left the next one is new. -/
theorem Kept.next_new (h : Kept w) (hleft : (listed FuseOp.registered w.trace).length < 2 ^ 64) :
    w.state.nextLocalHandle ∉ listed FuseOp.registered w.trace := by
  have hnodup := nodup_numbered (Nat.succ_le_of_lt hleft)
  rw [List.range_succ, List.map_append, ← h.numbered] at hnodup
  rw [h.next]
  exact fun hmem => List.disjoint_of_nodup_append hnodup hmem (List.mem_singleton_self _)

theorem kept_initial : Kept (⟨{}, []⟩ : World ι FuseOp FuseOp.Res OpenTables) where
  numbered := rfl
  left := Nat.zero_le _
  next := rfl
  known := fun handle h => absurd h (AList.notMem_empty handle)
  sameKeys := fun _ => Iff.rfl
  sessionKeys := fun _ h => h
  holds := by
    simp [listed, OpenTables.held]

/-- An operation that neither registers nor takes a handle leaves the tables as they are. -/
theorem Kept.idle (h : Kept w) {i : ι} {o : FuseOp} {r : o.Res} (hregistered : o.registered r = [])
    (htaken : o.taken r = []) (hfiled : o.filed r = []) : Kept (w.push i o r w.state) := by
  have hr : listed FuseOp.registered (w.push i o r w.state).trace =
      listed FuseOp.registered w.trace := by
    rw [World.push_trace, listed_snoc, hregistered, List.append_nil]
  constructor
  · rw [hr]
    exact h.numbered
  · rw [hr]
    exact h.left
  · rw [hr]
    exact h.next
  · rw [hr]
    exact h.known
  · exact h.sameKeys
  · exact h.sessionKeys
  · rw [World.push_trace, listed_snoc, listed_snoc, htaken, hfiled, List.append_nil,
      List.append_nil]
    exact h.holds

theorem mem_emplace {α β : Type} [DecidableEq α] {map : AList fun _ : α => β} {key key' : α}
    {value : β} : key' ∈ emplace map key value ↔ key' = key ∨ key' ∈ map := by
  unfold emplace
  split
  · next hmem =>
      constructor
      · exact .inr
      · rintro (rfl | h)
        · exact hmem
        · exact h
  · exact AList.mem_insert _

theorem Kept.register (h : Kept w) {i : ι} {inodeId mdsHandle : UInt64}
    {session : Option OpenSession}
    (hleft : (listed FuseOp.registered w.trace).length < 2 ^ 64) :
    Kept (w.push i (.register inodeId mdsHandle session)
      (w.state.register inodeId mdsHandle session).1
      (w.state.register inodeId mdsHandle session).2) := by
  have hnew : w.state.nextLocalHandle ∉ w.state.handleToMds :=
    fun hmem => h.next_new hleft (h.known _ hmem)
  have hr : listed FuseOp.registered (w.push i (.register inodeId mdsHandle session)
      (w.state.register inodeId mdsHandle session).1
      (w.state.register inodeId mdsHandle session).2).trace =
        listed FuseOp.registered w.trace ++ [w.state.nextLocalHandle] := by
    rw [World.push_trace, listed_snoc]
    rfl
  constructor
  · rw [hr, List.length_append, List.length_singleton, List.range_succ, List.map_append,
      ← h.numbered, h.next]
    rfl
  · rw [hr, List.length_append]
    exact hleft
  · rw [hr, List.length_append, List.length_singleton, UInt64.ofNat_add _ 1, ← h.next]
    rfl
  · rw [hr]
    intro handle hmem
    rcases mem_emplace.mp hmem with rfl | hmem
    · exact List.mem_append_right _ (List.mem_singleton_self _)
    · exact List.mem_append_left _ (h.known handle hmem)
  · intro handle
    exact mem_emplace.trans (Iff.trans (or_congr_right (h.sameKeys handle)) mem_emplace.symm)
  · intro handle hmem
    cases session with
    | none => exact mem_emplace.mpr (.inr (h.sessionKeys handle hmem))
    | some session =>
        exact mem_emplace.mpr ((mem_emplace.mp hmem).imp_right (h.sessionKeys handle))
  · rw [World.push_trace, listed_snoc, listed_snoc, World.push_state,
      tally_held_register hnew fun hmem => hnew (h.sessionKeys _ hmem), tally_append,
      tally_append, ← h.holds]
    simp only [FuseOp.taken, FuseOp.filed, tally_nil]
    abel

theorem Kept.take (h : Kept w) {i : ι} {handle : UInt64} :
    Kept (w.push i (.take handle) (w.state.take handle).1 (w.state.take handle).2) := by
  have hr : listed FuseOp.registered (w.push i (.take handle) (w.state.take handle).1
      (w.state.take handle).2).trace = listed FuseOp.registered w.trace := by
    rw [World.push_trace, listed_snoc]
    exact List.append_nil _
  have hholds := @tally_held_take w.state handle
  constructor
  · rw [hr]
    exact h.numbered
  · rw [hr]
    exact h.left
  · rw [hr, ← h.next, World.push_state, OpenTables.take]
    split
    · rfl
    · rfl
  · rw [hr, World.push_state, OpenTables.take]
    split
    · exact h.known
    · exact fun other hmem => h.known other (AList.mem_erase.mp hmem).2
  · rw [World.push_state, OpenTables.take]
    split
    · exact h.sameKeys
    · exact fun other => AList.mem_erase.trans
        (Iff.trans (and_congr_right fun _ => h.sameKeys other) AList.mem_erase.symm)
  · rw [World.push_state, OpenTables.take]
    split
    · exact h.sessionKeys
    · exact fun other hmem => AList.mem_erase.mpr
        ((AList.mem_erase.mp hmem).imp_right (h.sessionKeys other))
  · rw [World.push_trace, listed_snoc, listed_snoc, World.push_state, tally_append, ← add_assoc,
      add_right_comm, hholds]
    simp only [FuseOp.filed, List.append_nil]
    exact h.holds

theorem Kept.step (h : Kept w) {i : ι} {o : FuseOp} {r : o.Res} {tables : OpenTables}
    (hleft : HandlesLeft w o) (hserve : serve o w.state r tables) : Kept (w.push i o r tables) := by
  cases o with
  | register inodeId mdsHandle session =>
      obtain ⟨rfl, rfl⟩ := Prod.mk.inj hserve
      exact h.register hleft
  | take handle =>
      have hr : r = (w.state.take handle).1 := congrArg Prod.fst hserve
      have htables : tables = (w.state.take handle).2 := congrArg Prod.snd hserve
      subst hr htables
      exact h.take
  | _ =>
      cases hserve
      exact h.idle rfl rfl rfl

variable [DecidableEq ι] {readChunkBytes : UInt32} {calls : ι → Call}
  {pool : ι → FuseProg (Except OpenError UInt64)}

/-- The replies are usable and handles are left. -/
def Granted (w : World ι FuseOp FuseOp.Res OpenTables) (o : FuseOp) (r : o.Res) : Prop :=
  o.Usable r ∧ HandlesLeft w o

theorem kept
    (h : Steps (mount Granted) {} (fun i => (calls i).program readChunkBytes) w pool) :
    Kept w := by
  induction h with
  | start => exact kept_initial
  | step _ _ hsem hmay ih => exact ih.step hmay.2 hsem

/-- Outside of the calls nothing is open but what the tables hold. -/
theorem open_handles_do_not_leak
    (h : Steps (mount Granted) {} (fun i => (calls i).program readChunkBytes) w pool)
    (hquiet : Quiet w pool) : NothingLeaks w := by
  have hkept := kept h
  refine ⟨?_, hkept.sameKeys, hkept.sessionKeys, hkept.unused⟩
  have husable (w : World ι FuseOp FuseOp.Res OpenTables) (i : ι) (o : FuseOp) (r : o.Res)
      (hmay : (mount Granted).may w i o r) : o.Usable r := hmay.1
  have hzero : total moved w.trace = 0 :=
    Steps.total_eq_zero husable (fun i => (calls i).account readChunkBytes) h hquiet
  have hbalance : tally (listed FuseOp.obtained w.trace) + tally (listed FuseOp.taken w.trace) =
      tally (listed FuseOp.givenBack w.trace) + tally (listed FuseOp.filed w.trace) := by
    rw [← tally_listed_append, ← tally_listed_append]
    exact sub_eq_zero.mp (total_tally_sub.symm.trans hzero)
  rw [perm_iff_tally_eq, tally_append]
  apply add_right_cancel (b := tally (listed FuseOp.taken w.trace))
  rw [add_assoc, hkept.holds, hbalance]

end Runs

/-- A file is opened, and then its local handle released. -/
def openAndRelease : Bool → Call
  | false => .fuseOpen [47, 102] 0
  | true => .fuseRelease 1

def openedFile : Rpc.FileLocationView :=
  { attr := { inodeId := 7, type := .file, storageTier := .disk, diskNodeId := 1, diskId := 1 } }

theorem open_handles_do_not_leak_after_release :
    ∃ (w : World Bool FuseOp FuseOp.Res OpenTables)
      (pool : Bool → FuseProg (Except OpenError UInt64)),
      Steps (mount Granted) {} (fun i => (openAndRelease i).program 0) w pool ∧
        listed FuseOp.obtained w.trace = [.mdsHandle 5] ∧ NothingLeaks w := by
  have hopen := @Steps.step Bool FuseOp FuseOp.Res _ _ _ (mount Granted) {}
    (fun i => (openAndRelease i).program 0) ⟨{}, []⟩ _ false (.mdsOpen [47, 102] 0) _
    (.ok ⟨5, openedFile⟩) {} .start rfl rfl ⟨rfl, trivial⟩
  have haddress := Steps.step (i := false) (r := Except.ok [49]) hopen rfl rfl ⟨trivial, trivial⟩
  have hmeta := Steps.step (i := false) (r := none) haddress rfl rfl ⟨trivial, trivial⟩
  have hregister := Steps.step (i := false) hmeta rfl rfl
    ⟨trivial, (by decide : 0 < 2 ^ 64)⟩
  have htake := Steps.step (i := true) hregister rfl rfl ⟨trivial, trivial⟩
  have hclose := Steps.step (i := true) (r := none) htake rfl rfl ⟨trivial, trivial⟩
  refine ⟨_, _, hclose, rfl, open_handles_do_not_leak hclose fun i => ?_⟩
  cases i with
  | false => exact .inr ⟨_, rfl⟩
  | true => exact .inr ⟨_, rfl⟩

/-- A reply that opens a file which has no location yet is refused, and its handle forgotten. -/
theorem open_without_location_leaks :
    ∃ (w : World Unit FuseOp FuseOp.Res OpenTables)
      (pool : Unit → FuseProg (Except OpenError UInt64)),
      Steps (mount fun _ _ _ => True) {} (fun _ => (Call.fuseOpen [47, 102] 0).program 0) w pool ∧
        Quiet w pool ∧ ¬ NothingLeaks w := by
  have hopen := @Steps.step Unit FuseOp FuseOp.Res _ _ _ (mount fun _ _ _ => True) {}
    (fun _ => (Call.fuseOpen [47, 102] 0).program 0) ⟨{}, []⟩ _ () (.mdsOpen [47, 102] 0) _
    (.ok ⟨5, { attr := { inodeId := 7, type := .file } }⟩) {} .start rfl rfl trivial
  refine ⟨_, _, hopen, fun _ => .inr ⟨_, rfl⟩, fun hleaks => ?_⟩
  have hempty := hleaks.accounted.length_eq
  revert hempty
  decide

end Zb.Client.Handles
