-- SUMMARY: Opening files: handle ids from a counter without a lock, and when they are distinct.
import ZBStorage.Mds.Service.MdsServiceImpl

/-!
# Handles of open files

`Open` of `MdsServiceImpl.cpp`. A handle id is read off a counter, the counter is
written back one higher, and the inode is put under the id. Nothing keeps another
open from reading the counter in between.
-/

namespace Zb.Mds

open Zb.Rpc Bytes Handler Prog

/-! ## Open -/

/-- `MetaStoreRouter::ResolvePath`. -/
def MetaStoreRouter.resolvePath (path : Bytes) : Handler (Except String (UInt64 × InodeAttr)) := do
  match ← ask (.coldPath path) with
  | some answer => return answer
  | none => Zb.Mds.resolvePath MetaStoreRouter.getInode path

def isWriteOpenFlags (flags : UInt32) : Bool :=
  let accessMode := flags &&& 3
  accessMode == 1 || accessMode == 2 || flags &&& 0x200 != 0 || flags &&& 0x400 != 0

def buildFileLocationView (inodeId : UInt64) (attr : InodeAttr) :
    Handler (Except String FileLocationView) :=
  if inodeId = 0 ∨ attr.inodeId ≠ inodeId then return .error "invalid file location view args"
  else do
    match ← FileLocationResolver.resolveKnownInode attr with
    | .ok view => return .ok view
    | .error status =>
        if status.code ≠ .notFound then return .error status.message
        else
          match ← ask (.masstreeLocation inodeId) with
          | .ok optical => return .ok { attr, opticalLocation := some optical }
          | .error e => if e ≠ "" then return .error e else return .ok { attr }

/-- The counter under `X/next_handle`, from what was read there. -/
def nextHandleId : Except String Bytes → Except String UInt64
  | .ok value =>
      match decodeUInt64 value with
      | none => .error "Invalid next handle value"
      | some nextId => .ok nextId
  | .error e => if e = "" then .ok 1 else .error e

def allocateHandleId : Handler (Except String UInt64) := do
  match nextHandleId (← get .nextHandle) with
  | .error e => return .error e
  | .ok nextId =>
      match ← put .nextHandle (encodeUInt64 (nextId + 1)) with
      | .error e => return .error e
      | .ok () => return .ok nextId

structure OpenRequest where
  path : Bytes
  flags : UInt32 := 0

/-- What a failing reply says of the location is left out. -/
structure OpenReply where
  status : NamespaceStatus := {}
  handleId : UInt64 := 0
  location : Option FileLocationView := none

def openFailure (code : MdsStatusCode) (message : String) : OpenReply := { status := ⟨code, message⟩ }

/-- The end of `Open`, with a location for a file. -/
def openHandle (inodeId : UInt64) (location : FileLocationView) : Handler OpenReply := do
  match ← allocateHandleId with
  | .error e => return openFailure .internalError e
  | .ok handleId =>
      if handleId = 0 then return openFailure .internalError ""
      else
        match ← put (.handle handleId) (encodeUInt64 inodeId) with
        | .error e => return openFailure .internalError e
        | .ok () => return { handleId, location := some location }

/-- Answers the reply, and the inode that the path was resolved to. -/
def openFile (request : OpenRequest) : Handler (OpenReply × UInt64) :=
  if request.path = [] then return (openFailure .invalidArgument "path is empty", 0)
  else do
    match ← MetaStoreRouter.resolvePath request.path with
    | .error e => return ({ status := readFailure e "path not found" }, 0)
    | .ok (inodeId, attr) =>
        if attr.type = .file then
          match ← buildFileLocationView inodeId attr with
          | .error e =>
              let message := if e = "" then "failed to load file location" else e
              return (openFailure .internalError message, inodeId)
          | .ok view =>
              if isWriteOpenFlags request.flags ∧ attr.fileArchiveState = .archived then
                return (openFailure .invalidArgument kReadOnlyOpticalMessage, inodeId)
              else return (← openHandle inodeId view, inodeId)
        else return (← openHandle inodeId { attr }, inodeId)

/-! ## What an open does -/

theorem only_getDentry (parent : UInt64) (name : Bytes) :
    Only MdsOp.IsRead (getDentry parent name) := by
  unfold getDentry
  split
  · trivial
  refine only_get fun r => ?_
  cases r with
  | error e => trivial
  | ok data =>
      simp only
      split
      · trivial
      · trivial

theorem only_followDentries (current : UInt64) (names : List Bytes) :
    Only MdsOp.IsRead (followDentries current names) := by
  induction names generalizing current with
  | nil => trivial
  | cons name names ih =>
      refine (only_getDentry current name).bind fun r => ?_
      cases r with
      | error e => trivial
      | ok next => exact ih next

theorem only_resolvePath (path : Bytes) : Only MdsOp.IsRead (MetaStoreRouter.resolvePath path) := by
  refine only_ask fun answer => ?_
  cases answer with
  | some answer => trivial
  | none =>
      refine (only_followDentries _ _).bind fun r => ?_
      cases r with
      | error e => trivial
      | ok inodeId =>
          refine (FileLocationResolver.only_routerGetInode inodeId).bind fun r => ?_
          cases r with
          | error e => trivial
          | ok attr => trivial

theorem only_buildFileLocationView (inodeId : UInt64) (attr : InodeAttr) :
    Only MdsOp.IsRead (buildFileLocationView inodeId attr) := by
  unfold buildFileLocationView
  split
  · trivial
  refine (FileLocationResolver.only_resolveKnownInode attr).bind fun r => ?_
  cases r with
  | ok view => trivial
  | error status =>
      simp only
      split
      · trivial
      refine only_ask fun r => ?_
      cases r with
      | ok optical => trivial
      | error e =>
          simp only
          split
          · trivial
          · trivial

/-- What an open has seen of the counter, and the id it has taken off it. -/
structure HandleView where
  seen : Option UInt64 := none
  taken : Option UInt64 := none

def HandleView.step (v : HandleView) : (Σ o : MdsOp, o.Res) → HandleView
  | ⟨.get .nextHandle, r⟩ => { v with seen := (nextHandleId r).toOption }
  | ⟨.put .nextHandle _, .ok ()⟩ => { v with taken := v.seen }
  | _ => v

def handleView (h : MdsHistory) : HandleView := h.foldl HandleView.step {}

theorem handleView_snoc (h : MdsHistory) (x : Σ o : MdsOp, o.Res) :
    handleView (h ++ [x]) = (handleView h).step x := List.foldl_append

/-- The counter is written right after it was read, and the inode is put under the
    id right after that. -/
def HandleRule (h : MdsHistory) : MdsOp → Prop
  | .put .nextHandle value => ∃ d r next, h = d ++ [⟨.get .nextHandle, r⟩] ∧ Silent d ∧
      nextHandleId r = .ok next ∧ value = encodeUInt64 (next + 1)
  | .put (.handle handleId) _ => ∃ d value, h = d ++ [⟨.put .nextHandle value, .ok ()⟩] ∧
      Silent d ∧ (handleView h).taken = some handleId
  | .put _ _ | .writeBatch _ | .writeBatchIfValueEquals _ _ _ => False
  | _ => True

/-- An open that succeeds has put the inode under the id it has taken. -/
def OpenReturn (answer : OpenReply × UInt64) (h : MdsHistory) : Prop :=
  answer.1.status.isOk = true → (handleView h).taken = some answer.1.handleId ∧
    ⟨.put (.handle answer.1.handleId) (encodeUInt64 answer.2), .ok ()⟩ ∈ h

section Follows

variable {h : MdsHistory}

theorem handleRule_of_isRead (h : MdsHistory) (o : MdsOp) (ho : o.IsRead) : HandleRule h o := by
  cases o with
  | get k => trivial
  | ask q => trivial
  | _ => exact ho.elim

theorem openReturn_failure {code : MdsStatusCode} {message : String} {inodeId : UInt64}
    (hcode : code ≠ .ok) : OpenReturn (openFailure code message, inodeId) h := by
  intro hok
  have hcode' : code = .ok := by simpa [openFailure, NamespaceStatus.isOk] using hok
  exact absurd hcode' hcode

theorem follows_openHandle {inodeId : UInt64} {location : FileLocationView} (hsilent : Silent h) :
    Follows HandleRule (openHandle inodeId location)
      (fun reply h' => OpenReturn (reply, inodeId) h') h := by
  refine follows_bind.mpr (follows_op.mpr ⟨trivial, fun r => ?_⟩)
  cases hnext : nextHandleId r with
  | error e => exact openReturn_failure (by decide)
  | ok next =>
      refine follows_op.mpr ⟨⟨h, r, next, rfl, hsilent, hnext, rfl⟩, fun a => ?_⟩
      cases a with
      | error e => exact openReturn_failure (by decide)
      | ok u =>
          have htaken : (handleView (h ++ [⟨.get .nextHandle, r⟩] ++
              [⟨.put .nextHandle (encodeUInt64 (next + 1)), .ok ()⟩])).taken = some next := by
            rw [handleView_snoc, handleView_snoc]
            simp [HandleView.step, hnext, Except.toOption]
          show Follows HandleRule (if next = 0 then _ else _) _ _
          split
          · exact openReturn_failure (by decide)
          refine follows_op.mpr ⟨⟨_, _, rfl, by simp [hsilent], htaken⟩, fun a => ?_⟩
          cases a with
          | error e => exact openReturn_failure (by decide)
          | ok u =>
              intro _
              refine ⟨?_, List.mem_append_right _ List.mem_cons_self⟩
              rw [handleView_snoc]
              exact htaken

theorem follows_openFile (request : OpenRequest) :
    Follows HandleRule (openFile request) OpenReturn [] := by
  unfold openFile
  split
  · exact openReturn_failure (by decide)
  refine follows_bind.mpr ((only_resolvePath request.path).follows
    (fun d o _ ho => handleRule_of_isRead _ o ho) fun resolved d hd => ?_)
  cases resolved with
  | error e =>
      intro hok
      simp [readFailure_isOk] at hok
  | ok found =>
      obtain ⟨inodeId, attr⟩ := found
      have hsilent := silent_of_reads hd
      simp only
      split
      · refine follows_bind.mpr ((only_buildFileLocationView inodeId attr).follows
          (fun d o _ ho => handleRule_of_isRead _ o ho) fun built d' hd' => ?_)
        cases built with
        | error e => exact openReturn_failure (by decide)
        | ok view =>
            simp only
            split
            · exact openReturn_failure (by decide)
            · refine follows_bind.mpr (follows_openHandle ?_)
              simp [hsilent, silent_of_reads hd']
      · exact follows_bind.mpr (follows_openHandle (by simpa using hsilent))

end Follows

/-! ## Concurrent opens -/

/-- The next handle id, if the counter can be read. -/
def handleCounter (db : MetaMap) : Nat :=
  match nextHandleId (db.read .nextHandle) with
  | .ok next => next.toNat
  | .error _ => 0

variable {ι : Type} [DecidableEq ι]

/-- The counter is written only by an open that no other overtook since its read,
    and does not run over. -/
def Unraced (w : MdsWorld ι) (i : ι) (o : MdsOp) (r : o.Res) : Prop :=
  .nextHandle ∈ (o.writes r).map BatchEntry.key →
    (∀ e ∈ sinceLast i w.trace, .nextHandle ∉ (writesOf e).map BatchEntry.key) ∧
    handleCounter w.state.db + 1 < 2 ^ 64

instance (w : MdsWorld ι) (i : ι) (o : MdsOp) (r : o.Res) : Decidable (Unraced w i o r) :=
  inferInstanceAs (Decidable (_ → (∀ e ∈ sinceLast i w.trace, _) ∧ _))

section Runs

variable {requests : ι → OpenRequest} {s₀ : MdsState ι} {w : MdsWorld ι}
  {pool : ι → Handler (OpenReply × UInt64)}

/-- The handle id that thread `i` has taken. -/
def takenHandle (i : ι) (t : List (MdsEvent ι)) : Option UInt64 := (handleView (own i t)).taken

/-- What an open that writes the counter has read is the counter. -/
theorem handleCounter_of_put
    (h : Steps (mdsMachine Unraced) s₀ (fun i => openFile (requests i)) w pool) {i : ι}
    {value : Bytes} (hrule : HandleRule (own i w.trace) (.put .nextHandle value))
    (hmay : Unraced w i (.put .nextHandle value) (.ok ())) :
    ∃ next : UInt64, next.toNat = handleCounter w.state.db ∧ next.toNat + 1 < 2 ^ 64 ∧
      value = encodeUInt64 (next + 1) ∧ (handleView (own i w.trace)).seen = some next := by
  obtain ⟨d, r, next, hown, -, hnext, rfl⟩ := hrule
  obtain ⟨hfree, hroom⟩ := hmay (by simp [MdsOp.writes, BatchEntry.key])
  have hlast : own i w.trace = d ++ ⟨.get .nextHandle, r⟩ :: [] := hown
  obtain ⟨t₁, t₂, hsplit, -, hown₂⟩ := split_of_own hlast
  rw [hsplit, sinceLast_eq hown₂] at hfree
  have hread : r = w.state.db.read .nextHandle := by
    rcases Steps.read_or_set h hsplit with ⟨e, he, rfl⟩ | hread | ⟨e, hmem, hset⟩
    · simp [nextHandleId, he] at hnext
    · exact hread
    · obtain ⟨x, hx, hkey⟩ := hset.exists_key
      exact absurd (List.mem_map.mpr ⟨x, hx, hkey⟩) (hfree e hmem)
  have hcounter : next.toNat = handleCounter w.state.db := by rw [handleCounter, ← hread, hnext]
  refine ⟨next, hcounter, by rwa [hcounter], rfl, ?_⟩
  rw [hown, handleView_snoc]
  simp [HandleView.step, hnext, Except.toOption]

/-- A step takes an id off the counter, or leaves the counter as it is. -/
theorem handle_step (h : Steps (mdsMachine Unraced) s₀ (fun i => openFile (requests i)) w pool)
    {i : ι} {o : MdsOp} {r : o.Res} {s : MdsState ι} (hrule : HandleRule (own i w.trace) o)
    (hsem : o.Sem i w.state r s) (hmay : Unraced w i o r) :
    (handleCounter s.db = handleCounter w.state.db ∧
        takenHandle i (w.trace ++ [⟨i, o, r⟩]) = takenHandle i w.trace) ∨
      ∃ next : UInt64, next.toNat = handleCounter w.state.db ∧
        handleCounter s.db = next.toNat + 1 ∧
        takenHandle i (w.trace ++ [⟨i, o, r⟩]) = some next := by
  have hdb := MdsOp.Sem.db_eq hsem
  have htaken : takenHandle i (w.trace ++ [⟨i, o, r⟩]) =
      ((handleView (own i w.trace)).step ⟨o, r⟩).taken := by
    rw [takenHandle, own_snoc_self, handleView_snoc]
  have hidle : o.writes r = [] →
      ((handleView (own i w.trace)).step ⟨o, r⟩).taken = (handleView (own i w.trace)).taken →
      handleCounter s.db = handleCounter w.state.db ∧
        takenHandle i (w.trace ++ [⟨i, o, r⟩]) = takenHandle i w.trace := by
    intro hwrites hview
    refine ⟨?_, htaken.trans hview⟩
    rw [hdb, hwrites, MetaMap.write_nil]
  cases o with
  | put k value =>
      cases k with
      | nextHandle =>
          cases r with
          | error e => exact .inl (hidle rfl rfl)
          | ok u =>
              obtain ⟨next, hnext, hroom, rfl, hseen⟩ := handleCounter_of_put h hrule hmay
              refine .inr ⟨next, hnext, ?_, htaken.trans hseen⟩
              have hsum : (next + 1).toNat = next.toNat + 1 := by
                rw [UInt64.toNat_add, UInt64.toNat_one, Nat.mod_eq_of_lt hroom]
              have hput : s.db = w.state.db.insert .nextHandle (encodeUInt64 (next + 1)) := hdb
              rw [hput, handleCounter]
              simp [MetaMap.read, nextHandleId, decodeUInt64_encodeUInt64, hsum]
      | handle handleId =>
          cases r with
          | error e => exact .inl (hidle rfl rfl)
          | ok u =>
              refine .inl ⟨?_, htaken⟩
              have hput : s.db = w.state.db.insert (.handle handleId) value := hdb
              have hkey : MetaKey.nextHandle ≠ .handle handleId := fun heq => by cases heq
              rw [hput, handleCounter, handleCounter, MetaMap.read, MetaMap.read,
                AList.lookup_insert_ne hkey]
      | _ => exact hrule.elim
  | get k => cases k <;> exact .inl (hidle rfl rfl)
  | writeBatch batch => exact hrule.elim
  | writeBatchIfValueEquals k expected batch => exact hrule.elim
  | _ => exact .inl (hidle rfl rfl)

/-- The ids that opens have taken lie below the counter, and none is taken twice. -/
structure DistinctHandles (w : MdsWorld ι) : Prop where
  below : ∀ i id, takenHandle i w.trace = some id → id.toNat < handleCounter w.state.db
  apart : ∀ i j id, takenHandle i w.trace = some id → takenHandle j w.trace = some id → i = j

theorem takenHandle_push_of_ne {i j : ι} {o : MdsOp} {r : o.Res} {s : MdsState ι} (hij : j ≠ i) :
    takenHandle j (w.push i o r s).trace = takenHandle j w.trace := by
  rw [takenHandle, World.push_trace, own_snoc_of_ne hij.symm, takenHandle]

theorem distinctHandles_of_steps
    (h : Steps (mdsMachine Unraced) s₀ (fun i => openFile (requests i)) w pool) :
    DistinctHandles w := by
  refine Steps.invariant DistinctHandles (fun i => follows_openFile (requests i)) ?_ ?_ h
  · exact ⟨nofun, nofun⟩
  intro w pool i o r s hsteps ih hrule hsem hmay
  have hold := ih hsteps le_rfl
  rcases handle_step hsteps hrule hsem hmay with ⟨hcounter, hsame⟩ | ⟨next, hnext, hcounter, hnew⟩
  · have hall : ∀ j, takenHandle j (w.push i o r s).trace = takenHandle j w.trace := by
      intro j
      rcases eq_or_ne j i with rfl | hj
      · exact hsame
      · exact takenHandle_push_of_ne hj
    refine ⟨fun j id hj => ?_, fun j k id hj hk => ?_⟩
    · rw [World.push_state, hcounter]
      exact hold.below j id (hall j ▸ hj)
    · exact hold.apart j k id (hall j ▸ hj) (hall k ▸ hk)
  -- the others' ids lie below the new one
  have hothers : ∀ j id, j ≠ i → takenHandle j (w.push i o r s).trace = some id →
      id.toNat < next.toNat := by
    intro j id hj htaken
    rw [takenHandle_push_of_ne hj] at htaken
    rw [hnext]
    exact hold.below j id htaken
  have hself : ∀ id, takenHandle i (w.push i o r s).trace = some id → id = next := by
    intro id htaken
    exact Option.some.inj (htaken.symm.trans hnew)
  refine ⟨fun j id hj => ?_, fun j k id hj hk => ?_⟩
  · rw [World.push_state, hcounter]
    rcases eq_or_ne j i with rfl | hne
    · rw [hself id hj]
      exact Nat.lt_succ_self _
    · exact (hothers j id hne hj).trans (Nat.lt_succ_self _)
  · rcases eq_or_ne j i with rfl | hji
    · rcases eq_or_ne k j with rfl | hkj
      · rfl
      · have hlt := hothers k id hkj hk
        rw [hself id hj] at hlt
        exact absurd hlt (lt_irrefl _)
    · rcases eq_or_ne k i with rfl | hki
      · have hlt := hothers j id hji hj
        rw [hself id hk] at hlt
        exact absurd hlt (lt_irrefl _)
      · rw [takenHandle_push_of_ne hji] at hj
        rw [takenHandle_push_of_ne hki] at hk
        exact hold.apart j k id hj hk

theorem taken_step (v : HandleView) (o : MdsOp) (r : o.Res) :
    (v.step ⟨o, r⟩).taken = v.taken ∨
      ∃ value, (⟨o, r⟩ : Σ o : MdsOp, o.Res) = ⟨.put .nextHandle value, .ok ()⟩ := by
  cases o with
  | get k => cases k <;> exact .inl rfl
  | put k value =>
      cases k with
      | nextHandle =>
          cases r with
          | error e => exact .inl rfl
          | ok u => exact .inr ⟨value, rfl⟩
      | _ => exact .inl rfl
  | _ => exact .inl rfl

theorem taken_of_silent {d : MdsHistory} (h : Silent d) : (handleView d).taken = none := by
  induction d using List.reverseRecOn with
  | nil => rfl
  | append_singleton d x ih =>
      obtain ⟨hd, hx⟩ := silent_append.mp h
      rw [handleView_snoc]
      obtain ⟨o, r⟩ := x
      rcases taken_step (handleView d) o r with hsame | ⟨value, heq⟩
      · rw [hsame]
        exact ih hd
      · cases heq
        exact nomatch (silent_cons.mp hx).1

/-- An open takes one id only. -/
theorem takenHandle_stable
    (h : Steps (mdsMachine Unraced) s₀ (fun i => openFile (requests i)) w pool) {i : ι}
    {id : UInt64} {t₁ t₂ : List (MdsEvent ι)} (hsplit : w.trace = t₁ ++ t₂)
    (htaken : takenHandle i t₁ = some id) : takenHandle i w.trace = some id := by
  induction t₂ using List.reverseRecOn generalizing w pool with
  | nil => rwa [hsplit, List.append_nil]
  | append_singleton t₂ e ih =>
      have hevent : w.trace = (t₁ ++ t₂) ++ e :: [] := by rw [hsplit, List.append_assoc]
      obtain ⟨w₁, pool₁, k, s, hsteps, htrace, -⟩ := h.before_event hevent
      have hbefore : takenHandle i (t₁ ++ t₂) = some id := htrace ▸ ih hsteps htrace
      obtain ⟨j, o, r⟩ := e
      rw [hevent]
      rcases eq_or_ne j i with rfl | hne
      · rw [takenHandle, own_snoc_self, handleView_snoc]
        rcases taken_step (handleView (own j (t₁ ++ t₂))) o r with hsame | ⟨value, heq⟩
        · rw [hsame]
          exact hbefore
        · cases heq
          obtain ⟨d, r', next, hown, hsilent, -⟩ :=
            h.rule_of_event (fun i => follows_openFile (requests i)) hevent
          have hall : Silent (own j (t₁ ++ t₂)) := by
            rw [hown]
            exact silent_append.mpr ⟨hsilent, silent_cons.mpr ⟨rfl, silent_nil⟩⟩
          rw [takenHandle, taken_of_silent hall] at hbefore
          exact nomatch hbefore
      · rw [takenHandle, own_snoc_of_ne hne]
        exact hbefore

/-- An open's put of its inode is the only write under its id. -/
theorem lookup_handle (h : Steps (mdsMachine Unraced) s₀ (fun i => openFile (requests i)) w pool)
    {i : ι} {id : UInt64} {value : Bytes} (htaken : takenHandle i w.trace = some id)
    (hput : ⟨.put (.handle id) value, .ok ()⟩ ∈ own i w.trace) :
    w.state.db.lookup (.handle id) = some value := by
  obtain ⟨t₁, t₂, hsplit⟩ := List.append_of_mem (mem_own.mp hput)
  have hlater : ∀ e ∈ t₂, MetaKey.handle id ∉ (writesOf e).map BatchEntry.key := by
    intro e hmem hkey
    obtain ⟨u₁, u₂, rfl⟩ := List.append_of_mem hmem
    have hsplit' : w.trace = (t₁ ++ ⟨i, .put (.handle id) value, .ok ()⟩ :: u₁) ++ e :: u₂ := by
      rw [hsplit, List.append_assoc, List.cons_append]
    have hrule := h.rule_of_event (fun i => follows_openFile (requests i)) hsplit'
    obtain ⟨j, o, r⟩ := e
    have hother : ∃ value', o = .put (.handle id) value' := by
      cases o with
      | put k value' =>
          cases r with
          | error e => exact nomatch hkey
          | ok u =>
              have hkey' : MetaKey.handle id ∈ [k] := hkey
              obtain rfl := List.mem_singleton.mp hkey'
              exact ⟨value', rfl⟩
      | writeBatch batch => exact hrule.elim
      | writeBatchIfValueEquals k expected batch => exact hrule.elim
      | _ => exact nomatch hkey
    obtain ⟨value', rfl⟩ := hother
    obtain ⟨d, counted, hown, hsilent, htaken'⟩ := hrule
    have hji : j = i :=
      (distinctHandles_of_steps h).apart j i id (takenHandle_stable h hsplit' htaken') htaken
    subst hji
    have hmine : (⟨.put (.handle id) value, .ok ()⟩ : Σ o : MdsOp, o.Res) ∈ d ++
        [⟨.put .nextHandle counted, .ok ()⟩] := by
      rw [← hown]
      exact mem_own.mpr (List.mem_append_right _ List.mem_cons_self)
    rcases List.mem_append.mp hmine with hd | hlast
    · exact nomatch hsilent _ hd
    · exact nomatch List.mem_singleton.mp hlast
  rw [Steps.db_eq h, hsplit, List.flatMap_append, List.flatMap_cons, MetaMap.write_append,
    MetaMap.write_append]
  rw [MetaMap.lookup_write_of_notMem]
  · exact AList.lookup_insert _
  · intro e he hkey
    obtain ⟨e', hmem, hwrites⟩ := List.mem_flatMap.mp he
    exact hlater e' hmem (List.mem_map.mpr ⟨e, hwrites, hkey⟩)

theorem openReturn_of_result
    (h : Steps (mdsMachine Unraced) s₀ (fun i => openFile (requests i)) w pool) {i : ι}
    {reply : OpenReply} {inodeId : UInt64} (hresult : (pool i).result? = some (reply, inodeId)) :
    OpenReturn (reply, inodeId) (own i w.trace) := by
  have hfollows := h.follows (fun i => follows_openFile (requests i)) i
  rw [eq_ret_of_result? hresult] at hfollows
  exact hfollows

/-- Opens of which none overtakes another at the counter return handles of their own,
    and each handle stands for the inode that was opened. -/
theorem handles_unique (h : Steps (mdsMachine Unraced) s₀ (fun i => openFile (requests i)) w pool) :
    (∀ i j reply reply' inodeId inodeId', (pool i).result? = some (reply, inodeId) →
      (pool j).result? = some (reply', inodeId') → reply.status.isOk = true →
      reply'.status.isOk = true → i ≠ j → reply.handleId ≠ reply'.handleId) ∧
    ∀ i reply inodeId, (pool i).result? = some (reply, inodeId) → reply.status.isOk = true →
      w.state.db.lookup (.handle reply.handleId) = some (encodeUInt64 inodeId) := by
  refine ⟨fun i j reply reply' inodeId inodeId' hi hj hok hok' hne hsame => ?_,
    fun i reply inodeId hi hok => ?_⟩
  · have htaken := (openReturn_of_result h hi hok).1
    have htaken' := (openReturn_of_result h hj hok').1
    exact hne ((distinctHandles_of_steps h).apart i j _ htaken (hsame ▸ htaken'))
  · obtain ⟨htaken, hput⟩ := openReturn_of_result h hi hok
    exact lookup_handle h htaken hput

end Runs

/-- Two directories in an archived namespace. -/
def twoDirectories : Oracle where
  answer
    | .coldPath path =>
        if path = ofAscii "/a" then some (.ok (7, { type := .dir }))
        else some (.ok (8, { type := .dir }))
    | q => silentOracle.answer q

def twoOpens : Bool → OpenRequest
  | false => { path := ofAscii "/a" }
  | true => { path := ofAscii "/b" }

def noHandles : MdsState Bool := ⟨∅, fun _ => none, []⟩

/-- What an open has returned: its handle and the inode it resolved. -/
def opened (p : Handler (OpenReply × UInt64)) : Option (UInt64 × UInt64) :=
  p.result?.bind fun answer =>
    if answer.1.status.isOk then some (answer.1.handleId, answer.2) else none

theorem result_of_opened {p : Handler (OpenReply × UInt64)} {handleId inodeId : UInt64}
    (h : opened p = some (handleId, inodeId)) :
    ∃ reply, p.result? = some (reply, inodeId) ∧ reply.status.isOk = true ∧
      reply.handleId = handleId := by
  obtain ⟨⟨reply, inodeId'⟩, hresult, hok⟩ := Option.bind_eq_some_iff.mp h
  simp only [Option.ite_none_right_eq_some, Option.some.injEq, Prod.mk.injEq] at hok
  obtain ⟨hok, rfl, rfl⟩ := hok
  exact ⟨reply, hresult, hok, rfl⟩

theorem handles_of_opens_in_turn : ∃ w pool,
    Steps (mdsMachine Unraced) noHandles (fun i => openFile (twoOpens i)) w pool ∧
      opened (pool false) = some (1, 7) ∧ opened (pool true) = some (2, 8) ∧
      w.state.db.lookup (.handle 1) = some (encodeUInt64 7) := by
  have hrun : (schedule twoDirectories Unraced noHandles (fun i => openFile (twoOpens i))
      [false, true, false, false, true, true, false, true]).map
        (fun p => (opened (p.2 false), opened (p.2 true))) =
      some (some (1, 7), some (2, 8)) := by
    decide +kernel
  obtain ⟨⟨w, pool⟩, hw, hresults⟩ := Option.map_eq_some_iff.mp hrun
  obtain ⟨hfirst, hsecond⟩ := Prod.mk.inj hresults
  have hsteps := steps_of_schedule hw
  obtain ⟨reply, hresult, hok, hid⟩ := result_of_opened hfirst
  refine ⟨w, pool, hsteps, hfirst, hsecond, ?_⟩
  have hmapped := (handles_unique hsteps).2 false reply 7 hresult hok
  rw [hid] at hmapped
  exact hmapped

/-- Both opens read the counter before either writes it: they return the same handle,
    which stands for one of the two inodes. -/
theorem handle_shared : ∃ w pool,
    Steps (mdsMachine fun _ _ _ _ => True) noHandles (fun i => openFile (twoOpens i)) w pool ∧
      opened (pool false) = some (1, 7) ∧ opened (pool true) = some (1, 8) ∧
      w.state.db.lookup (.handle 1) = some (encodeUInt64 8) := by
  have hrun : (schedule twoDirectories (fun _ _ _ _ => True) noHandles
      (fun i => openFile (twoOpens i)) [false, true, false, true, false, true, false, true]).map
        (fun p => (opened (p.2 false), opened (p.2 true), p.1.state.db.lookup (.handle 1))) =
      some (some (1, 7), some (1, 8), some (encodeUInt64 8)) := by
    decide +kernel
  obtain ⟨⟨w, pool⟩, hw, hresults⟩ := Option.map_eq_some_iff.mp hrun
  obtain ⟨hfirst, hrest⟩ := Prod.mk.inj hresults
  obtain ⟨hsecond, hlookup⟩ := Prod.mk.inj hrest
  exact ⟨w, pool, steps_of_schedule hw, hfirst, hsecond, hlookup⟩

end Zb.Mds
