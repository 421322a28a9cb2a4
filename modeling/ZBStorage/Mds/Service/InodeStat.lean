-- SUMMARY: Concurrent attribute updates: versions are stored in order unless a write comes after a newer one.
import ZBStorage.Mds.Interleavings
import ZBStorage.Mds.Service.MdsServiceImpl
import ZBStorage.Mds.Storage.NamespaceRuns

/-!
# Concurrent attribute updates

`UpdateInodeStat` compares the version of the request with the one it read, and
writes through `PutInode`, which reads the inode again and does not compare. A
write is therefore in order if no newer request wrote since the call began.
-/

namespace Zb.Mds

open Zb.Rpc Bytes Handler Prog

/-! ## What an update stores -/

/-- The attributes were read, from the hot inode or from an archived one. -/
def AttrRead (inodeId : UInt64) (attr : InodeAttr) (h : MdsHistory) : Prop :=
  (∃ data, ⟨.get (.inode inodeId), .ok data⟩ ∈ h ∧ decodeUnifiedInodeAttr data = .ok attr) ∨
  (⟨.get (.inode inodeId), .error ""⟩ ∈ h ∧ ⟨.ask (.coldInode inodeId), .ok attr⟩ ∈ h)

/-- What an update that got as far as writing has seen: the attributes it checked,
    and what `PutInode` then read. -/
structure StatPut (request : UpdateInodeStatRequest) (h : MdsHistory) (payload : Bytes) : Prop where
  checked : ∃ attr now existing h', AttrRead request.inodeId attr h' ∧
    attr.type = .file ∧ attr.version ≤ request.version ∧ attr.fileArchiveState ≠ .archived ∧
    h = h' ++ [⟨.get (.inode request.inodeId), existing⟩] ∧
    putInodePayload (updatedAttr request now attr) existing = .ok payload

theorem AttrRead.mono {inodeId : UInt64} {attr : InodeAttr} {h h' : MdsHistory}
    (hread : AttrRead inodeId attr h) (hsub : h ⊆ h') : AttrRead inodeId attr h' := by
  rcases hread with ⟨data, hmem, hdec⟩ | ⟨hmem, hask⟩
  · exact .inl ⟨data, hsub hmem, hdec⟩
  · exact .inr ⟨hsub hmem, hsub hask⟩

theorem StatPut.payload_ok {request : UpdateInodeStatRequest} {h : MdsHistory} {payload : Bytes}
    (hput : StatPut request h payload) :
    ∃ record, decodeUnifiedInodeRecord payload = .ok record ∧
      record.versionNo = request.version ∧ record.sizeBytes = request.fileSize ∧
      record.fileArchiveState = InodeArchiveState.pending.toUInt32 := by
  obtain ⟨attr, now, existing, h', -, hfile, -, -, -, hpay⟩ := hput.checked
  obtain ⟨record, hdec, hversion, hstate, hsize⟩ := putInodePayload_ok hpay
  have hnotDir : ¬ (attr.type = .dir ∧ request.fileSize = 0) := by simp [hfile]
  refine ⟨record, hdec, hversion, ?_, hstate⟩
  rw [hsize hfile]
  exact if_neg hnotDir

/-! ## Rules -/

section Follows

variable {J : MdsHistory → MdsOp → Prop} {h : MdsHistory}

/-- A read of an inode that is not there reports an empty error, any other failure
    does not. -/
theorem follows_getInode_of (hget : ∀ h k, J h (.get k)) {inodeId : UInt64}
    {Q : Except String InodeAttr → MdsHistory → Prop}
    (hfail : ∀ e d, AllOps MdsOp.IsRead d → e ≠ "" → Q (.error e) (h ++ d))
    (hnone : Q (.error "") (h ++ [⟨.get (.inode inodeId), .error ""⟩]))
    (hsome : ∀ data attr, decodeUnifiedInodeAttr data = .ok attr →
      Q (.ok attr) (h ++ [⟨.get (.inode inodeId), .ok data⟩])) :
    Follows J (getInode inodeId) Q h := by
  unfold getInode
  split
  · simpa using hfail "invalid inode lookup args" [] allOps_nil (by decide)
  · refine follows_op.mpr ⟨hget h _, fun r => ?_⟩
    cases r with
    | error e =>
        by_cases he : e = ""
        · subst he
          exact hnone
        · exact hfail e _ (by simp) he
    | ok data =>
        cases hdec : decodeUnifiedInodeAttr data with
        | ok attr => simpa [hdec] using hsome data attr hdec
        | error e => simpa [hdec] using hfail e _ (by simp) (decodeUnifiedInodeAttr_error hdec)

theorem follows_routerGetInode (hget : ∀ h k, J h (.get k)) (hask : ∀ h q, J h (.ask q))
    {inodeId : UInt64} {Q : Except String InodeAttr → MdsHistory → Prop}
    (hfail : ∀ e d, AllOps MdsOp.IsRead d → Q (.error e) (h ++ d))
    (hhot : ∀ data attr, decodeUnifiedInodeAttr data = .ok attr →
      Q (.ok attr) (h ++ [⟨.get (.inode inodeId), .ok data⟩]))
    (hcold : ∀ attr, Q (.ok attr)
      (h ++ [⟨.get (.inode inodeId), .error ""⟩, ⟨.ask (.coldInode inodeId), .ok attr⟩])) :
    Follows J (MetaStoreRouter.getInode inodeId) Q h := by
  unfold MetaStoreRouter.getInode
  split
  · simpa using hfail "invalid inode lookup args" [] allOps_nil
  · refine follows_bind.mpr (follows_getInode_of hget ?_ ?_ hhot)
    · intro e d hd he
      simp only [ne_eq, he, not_false_eq_true, if_true]
      exact hfail e d hd
    · simp only [ne_eq, not_true_eq_false, if_false]
      refine follows_call.mpr ⟨hask _ _, fun r => ?_⟩
      cases r with
      | error e => simpa using hfail e [_, _] (by simp)
      | ok attr => simpa using hcold attr

theorem follows_putInode (hget : ∀ h k, J h (.get k)) {inodeId : UInt64} {attr : InodeAttr}
    {Q : Except String Unit → MdsHistory → Prop} (hfail : ∀ e d, Silent d → Q (.error e) (h ++ d))
    (hput : ∀ existing payload, putInodePayload attr existing = .ok payload →
      J (h ++ [⟨.get (.inode inodeId), existing⟩]) (.put (.inode inodeId) payload) ∧
      Q (.ok ()) (h ++ [⟨.get (.inode inodeId), existing⟩, ⟨.put (.inode inodeId) payload, .ok ()⟩])) :
    Follows J (putInode inodeId attr) Q h := by
  refine follows_op.mpr ⟨hget h _, fun existing => ?_⟩
  cases hpay : putInodePayload attr existing with
  | error e => simpa [hpay] using hfail e _ (by simp)
  | ok payload =>
      obtain ⟨hJ, hQ⟩ := hput existing payload hpay
      refine follows_call.mpr ⟨hJ, fun r => ?_⟩
      cases r with
      | error e => simpa using hfail e [_, _] (by simp)
      | ok u => simpa using hQ

/-- The operations of an update. -/
def StatRule (request : UpdateInodeStatRequest) (h : MdsHistory) : MdsOp → Prop
  | .get _ | .ask _ | .nowSeconds => True
  | .put (.inode inodeId) payload => inodeId = request.inodeId ∧ StatPut request h payload
  | _ => False

/-- An update answers OK if and only if it has written. -/
def StatReturn (request : UpdateInodeStatRequest) (reply : NamespaceStatus × Option InodeAttr)
    (h : MdsHistory) : Prop :=
  reply.1.isOk = true ↔ ∃ payload, ⟨.put (.inode request.inodeId) payload, .ok ()⟩ ∈ h

/-- A reply that reports a failure, when nothing was written. -/
theorem statReturn_failed {request : UpdateInodeStatRequest} {status : NamespaceStatus}
    (hfail : status.isOk = false) (hsilent : Silent h) : StatReturn request (status, none) h := by
  refine iff_of_false (by simp [hfail]) ?_
  rintro ⟨payload, hmem⟩
  cases hsilent _ hmem

/-- What is left of an update once the attributes were read. -/
theorem follows_checkedUpdate {request : UpdateInodeStatRequest} {attr : InodeAttr}
    (hsilent : Silent h) (hread : AttrRead request.inodeId attr h) :
    Follows (StatRule request)
      (if attr.type ≠ .file then pure (⟨.invalidArgument, "inode is not file"⟩, none)
      else if request.version < attr.version then
        pure (⟨.staleEpoch, "stale inode stat version"⟩, none)
      else if attr.fileArchiveState = .archived then
        pure (⟨.invalidArgument, kReadOnlyOpticalMessage⟩, none)
      else do
        let now ← nowSeconds
        let attr := updatedAttr request now attr
        match ← putInode request.inodeId attr with
        | .error e =>
            pure (⟨.internalError, if e = "" then "failed to persist inode stat" else e⟩, none)
        | .ok () => pure ({}, some attr)) (StatReturn request) h := by
  split
  · exact statReturn_failed rfl hsilent
  · next hfile =>
  split
  · exact statReturn_failed rfl hsilent
  · next hversion =>
  split
  · exact statReturn_failed rfl hsilent
  · next hstate =>
  refine follows_op.mpr ⟨trivial, fun now => follows_bind.mpr (follows_putInode ?_ ?_ ?_)⟩
  · exact fun _ _ => trivial
  · exact fun e d hd => statReturn_failed rfl (by simp [hsilent, hd])
  · intro existing payload hpay
    refine ⟨⟨rfl, ⟨attr, now, existing, _, hread.mono (by simp), not_not.mp hfile,
      UInt64.not_lt.mp hversion, hstate, rfl, hpay⟩⟩, iff_of_true rfl ⟨payload, by simp⟩⟩

theorem follows_updateInodeStat (request : UpdateInodeStatRequest) :
    Follows (StatRule request) (updateInodeStat request) (StatReturn request) [] := by
  unfold updateInodeStat
  split
  · exact statReturn_failed rfl silent_nil
  split
  · exact statReturn_failed rfl silent_nil
  refine follows_bind.mpr (follows_routerGetInode (fun _ _ => trivial) (fun _ _ => trivial) ?_ ?_ ?_)
  · exact fun e d hd =>
      statReturn_failed (readFailure_isOk _ _) (by simpa using silent_of_reads hd)
  · exact fun data attr hdec => follows_checkedUpdate (by simp) (.inl ⟨data, by simp, hdec⟩)
  · exact fun attr => follows_checkedUpdate (by simp) (.inr (by simp))

end Follows

/-! ## The log of an inode -/

/-- The record an entry of a batch stores for the inode. -/
def putRecord (id : UInt64) : BatchEntry → Option UnifiedInodeRecord
  | .put (.inode x) payload =>
      if x = id then (decodeUnifiedInodeRecord payload).toOption else none
  | _ => none

variable {ι : Type}

/-- The records stored for an inode, in the order of their writes. -/
def storedRecords (id : UInt64) (t : List (MdsEvent ι)) : List UnifiedInodeRecord :=
  t.flatMap fun e => (writesOf e).filterMap (putRecord id)

/-- The record an inode had at first and those stored since. -/
def recordLog (s₀ : MdsState ι) (id : UInt64) (t : List (MdsEvent ι)) : List UnifiedInodeRecord :=
  (recordOf s₀.db id).toList ++ storedRecords id t

theorem mem_storedRecords {id : UInt64} {t : List (MdsEvent ι)} {record : UnifiedInodeRecord} :
    record ∈ storedRecords id t ↔
      ∃ e ∈ t, ∃ payload, .put (.inode id) payload ∈ writesOf e ∧
        decodeUnifiedInodeRecord payload = .ok record := by
  simp only [storedRecords, List.mem_flatMap, List.mem_filterMap]
  constructor
  · rintro ⟨e, he, entry, hentry, hrec⟩
    cases entry with
    | delete k => cases hrec
    | put k v =>
        cases k with
        | inode x =>
            obtain ⟨rfl, hdec⟩ := Option.ite_none_right_eq_some.mp hrec
            refine ⟨e, he, v, hentry, ?_⟩
            cases h : decodeUnifiedInodeRecord v with
            | error _ => simp [h, Except.toOption] at hdec
            | ok r => simpa [h, Except.toOption] using hdec
        | _ => cases hrec
  · rintro ⟨e, he, payload, hput, hdec⟩
    exact ⟨e, he, _, hput, by simp [putRecord, hdec, Except.toOption]⟩

/-! ## Runs -/

variable [DecidableEq ι]

/-- A write lands only if no newer request wrote the inode since the call began. -/
def InOrder (requests : ι → UpdateInodeStatRequest) (w : MdsWorld ι) (i : ι) (o : MdsOp)
    (_ : o.Res) : Prop :=
  ∀ id ∈ o.putInode?, ∀ e ∈ since i w.trace, .inode id ∈ (writesOf e).map BatchEntry.key →
    (requests e.tid).version ≤ (requests i).version

instance (requests : ι → UpdateInodeStatRequest) (w : MdsWorld ι) (i : ι) (o : MdsOp) (r : o.Res) :
    Decidable (InOrder requests w i o r) :=
  inferInstanceAs (Decidable (∀ id ∈ o.putInode?, ∀ e ∈ since i w.trace,
    .inode id ∈ (writesOf e).map BatchEntry.key → (requests e.tid).version ≤ (requests i).version))

section Runs

variable {requests : ι → UpdateInodeStatRequest} {s₀ : MdsState ι} {w : MdsWorld ι}
  {pool : ι → Handler (NamespaceStatus × Option InodeAttr)}

/-- Every write of an inode stores the version and size of its request. -/
theorem record_of_write
    (h : Steps (mdsMachine (InOrder requests)) s₀ (fun i => updateInodeStat (requests i)) w pool)
    {e : MdsEvent ι} (he : e ∈ w.trace) {id : UInt64} {payload : Bytes}
    (hput : .put (.inode id) payload ∈ writesOf e) :
    e = ⟨e.tid, .put (.inode id) payload, .ok ()⟩ ∧
      ∃ record, decodeUnifiedInodeRecord payload = .ok record ∧
        record.versionNo = (requests e.tid).version ∧
        record.sizeBytes = (requests e.tid).fileSize := by
  obtain ⟨t₁, t₂, hsplit⟩ := List.append_of_mem he
  have hrule := h.rule_of_event (fun i => follows_updateInodeStat (requests i)) hsplit
  obtain ⟨i, o, r⟩ := e
  cases o with
  | put k v =>
      cases r with
      | error _ => cases hput
      | ok u =>
          cases List.mem_singleton.mp hput
          obtain ⟨-, hstat⟩ := hrule
          obtain ⟨record, hdec, hversion, hsize, -⟩ := hstat.payload_ok
          exact ⟨rfl, record, hdec, hversion, hsize⟩
  | writeBatch batch => exact hrule.elim
  | writeBatchIfValueEquals k expected batch => exact hrule.elim
  | _ => cases hput

/-- When a write lands, the version stored is at most that of its request. -/
theorem version_le_of_put
    (h : Steps (mdsMachine (InOrder requests)) s₀ (fun i => updateInodeStat (requests i)) w pool)
    {i : ι} {payload : Bytes} (hput : StatPut (requests i) (own i w.trace) payload)
    (hmay : ∀ e ∈ since i w.trace, .inode (requests i).inodeId ∈ (writesOf e).map BatchEntry.key →
      (requests e.tid).version ≤ (requests i).version)
    {record : UnifiedInodeRecord}
    (hrec : recordOf w.state.db (requests i).inodeId = some record) :
    record.versionNo ≤ (requests i).version := by
  obtain ⟨current, hlook, hdec⟩ := recordOf_eq_some.mp hrec
  -- a write since the check was in order
  have hsince : ∀ {t₁ t₂ r}, w.trace = t₁ ++ ⟨i, .get (.inode (requests i).inodeId), r⟩ :: t₂ →
      (∃ e ∈ t₂, Sets (writesOf e) (.inode (requests i).inodeId)
        (w.state.db.lookup (.inode (requests i).inodeId))) →
      record.versionNo ≤ (requests i).version := by
    rintro t₁ t₂ r hsplit ⟨e, hmem, hset⟩
    rw [hlook] at hset
    obtain ⟨-, record', hdec', hversion, -⟩ := record_of_write h (by simp [hsplit, hmem]) hset
    rw [hdec] at hdec'
    cases hdec'
    rw [hversion]
    refine hmay e ?_ (List.mem_map.mpr ⟨_, hset, rfl⟩)
    rw [hsplit]
    exact mem_since hmem
  obtain ⟨attr, now, existing, h', hread, -, hle, -, hown, -⟩ := hput.checked
  have hread : AttrRead (requests i).inodeId attr (own i w.trace) := hread.mono (by simp [hown])
  rcases hread with ⟨data, hmem, hattr⟩ | ⟨hmem, -⟩
  · obtain ⟨t₁, t₂, hsplit⟩ := List.append_of_mem (mem_own.mp hmem)
    rcases Steps.read_or_set h hsplit with ⟨_, -, ⟨⟩⟩ | hread | hset
    · rw [MetaMap.read_eq_ok.mp hread.symm] at hlook
      cases hlook
      rw [decodeUnifiedInodeAttr, hdec, Except.map] at hattr
      cases hattr
      exact hle
    · exact hsince hsplit hset
  · obtain ⟨t₁, t₂, hsplit⟩ := List.append_of_mem (mem_own.mp hmem)
    rcases Steps.read_or_set h hsplit with ⟨_, hne, ⟨⟩⟩ | hread | hset
    · exact absurd rfl hne
    · rw [(MetaMap.read_eq_error.mp hread.symm).1] at hlook
      cases hlook
    · exact hsince hsplit hset

/-- The log of an inode is in the order of versions and ends with its record. -/
structure LogInOrder (s₀ : MdsState ι) (id : UInt64) (w : MdsWorld ι) : Prop where
  sorted : (recordLog s₀ id w.trace).Pairwise (·.versionNo ≤ ·.versionNo)
  last : (recordLog s₀ id w.trace).getLast? = recordOf w.state.db id

omit [DecidableEq ι] in
/-- The record of an inode has the greatest version of its log. -/
theorem LogInOrder.version_le {id : UInt64} {record r : UnifiedInodeRecord}
    (h : LogInOrder s₀ id w) (hmem : r ∈ recordLog s₀ id w.trace)
    (hrec : recordOf w.state.db id = some record) : r.versionNo ≤ record.versionNo := by
  obtain ⟨log, hlog⟩ := List.getLast?_eq_some_iff.mp (h.last.trans hrec)
  have hsorted := h.sorted
  rw [hlog] at hmem hsorted
  rcases List.mem_append.mp hmem with hmem | hmem
  · exact (List.pairwise_append.mp hsorted).2.2 r hmem record List.mem_cons_self
  · rw [List.mem_singleton.mp hmem]
    exact UInt64.le_refl _

omit [DecidableEq ι] in
theorem recordLog_push {i : ι} {o : MdsOp} {r : o.Res} {s : MdsState ι} {id : UInt64} :
    recordLog s₀ id (w.push i o r s).trace =
      recordLog s₀ id w.trace ++ (o.writes r).filterMap (putRecord id) := by
  simp [recordLog, storedRecords, writesOf]

theorem logInOrder_of_steps
    (h : Steps (mdsMachine (InOrder requests)) s₀ (fun i => updateInodeStat (requests i)) w pool)
    (id : UInt64) : LogInOrder s₀ id w := by
  refine h.invariant (LogInOrder s₀ id) (fun i => follows_updateInodeStat (requests i)) ?_ ?_
  · cases hrec : recordOf s₀.db id with
    | none => exact ⟨by simp [recordLog, storedRecords, hrec], by simp [recordLog, storedRecords, hrec]⟩
    | some r => exact ⟨by simp [recordLog, storedRecords, hrec], by simp [recordLog, storedRecords, hrec]⟩
  · intro w pool i o r s hsteps hbefore hrule hsem hmay
    have hlog : LogInOrder s₀ id w := hbefore hsteps le_rfl
    have hdb : s.db = w.state.db.write (o.writes r) := MdsOp.Sem.db_eq hsem
    -- an operation that stores no record of this inode
    have hquiet : (o.writes r).filterMap (putRecord id) = [] →
        recordOf (w.state.db.write (o.writes r)) id = recordOf w.state.db id →
        LogInOrder s₀ id (w.push i o r s) := by
      intro hnil hsame
      constructor
      · rw [recordLog_push, hnil, List.append_nil]
        exact hlog.sorted
      · rw [recordLog_push, hnil, List.append_nil, World.push_state, hdb, hsame]
        exact hlog.last
    cases o with
    | put k payload =>
        cases k with
        | inode x =>
            obtain ⟨rfl, hput⟩ := hrule
            cases r with
            | error e => exact hquiet rfl rfl
            | ok u =>
                by_cases hx : (requests i).inodeId = id
                · subst hx
                  obtain ⟨record, hdec, hversion, -, -⟩ := hput.payload_ok
                  have hstored : (MdsOp.writes (.put (.inode (requests i).inodeId) payload)
                      (.ok u)).filterMap (putRecord (requests i).inodeId) = [record] := by
                    simp [MdsOp.writes, putRecord, hdec, Except.toOption]
                  constructor
                  · rw [recordLog_push, hstored, List.pairwise_append]
                    refine ⟨hlog.sorted, List.pairwise_singleton _ _, ?_⟩
                    intro r hmem r' hr'
                    rw [List.mem_singleton.mp hr', hversion]
                    cases hcur : recordOf w.state.db (requests i).inodeId with
                    | none =>
                        rw [List.getLast?_eq_none_iff.mp (hlog.last.trans hcur)] at hmem
                        cases hmem
                    | some current =>
                        exact UInt64.le_trans (hlog.version_le hmem hcur)
                          (version_le_of_put hsteps hput (hmay _ rfl) hcur)
                  · rw [recordLog_push, hstored, List.getLast?_concat, World.push_state, hdb]
                    simp [MdsOp.writes, hdec, Except.toOption]
                · refine hquiet ?_ ?_
                  · simp [MdsOp.writes, putRecord, hx]
                  · simp [MdsOp.writes, Ne.symm hx]
        | _ => exact hrule.elim
    | writeBatch batch => exact hrule.elim
    | writeBatchIfValueEquals k expected batch => exact hrule.elim
    | _ => exact hquiet rfl rfl

/-- An update was accepted: its write took place. -/
def Accepted (id : UInt64) (w : MdsWorld ι) (i : ι) : Prop :=
  ∃ payload, ⟨i, .put (.inode id) payload, .ok ()⟩ ∈ w.trace

/-- Concurrent updates keep versions in order: the records stored for an inode
    never decrease in version and the last of them is its record; the updates
    that answer OK are those accepted; and once one was accepted, the inode has
    the size and version of an accepted update that no accepted one exceeds. -/
theorem versions_in_order
    (h : Steps (mdsMachine (InOrder requests)) s₀ (fun i => updateInodeStat (requests i)) w pool)
    (id : UInt64) :
    (recordLog s₀ id w.trace).Pairwise (·.versionNo ≤ ·.versionNo) ∧
    (recordLog s₀ id w.trace).getLast? = recordOf w.state.db id ∧
    (∀ i reply, pool i = .ret reply →
      (reply.1.isOk = true ↔ Accepted (requests i).inodeId w i)) ∧
    ((∃ i, Accepted id w i) → ∃ j, Accepted id w j ∧
      (recordOf w.state.db id).map (fun r => (r.versionNo, r.sizeBytes)) =
        some ((requests j).version, (requests j).fileSize) ∧
      ∀ i, Accepted id w i → (requests i).version ≤ (requests j).version) := by
  have hlog := logInOrder_of_steps h id
  -- the record an accepted update stored
  have hstored : ∀ {i}, Accepted id w i → ∃ record ∈ storedRecords id w.trace,
      record.versionNo = (requests i).version := by
    rintro i ⟨payload, hmem⟩
    obtain ⟨-, record, hdec, hversion, -⟩ := record_of_write h hmem (List.mem_singleton.mpr rfl)
    exact ⟨record, mem_storedRecords.mpr ⟨_, hmem, payload, List.mem_singleton.mpr rfl, hdec⟩,
      hversion⟩
  refine ⟨hlog.sorted, hlog.last, ?_, ?_⟩
  · intro i reply hret
    have hfollows := h.follows (fun i => follows_updateInodeStat (requests i)) i
    rw [hret] at hfollows
    exact hfollows.trans (exists_congr fun payload => mem_own)
  · rintro ⟨i, hi⟩
    obtain ⟨r, hr, -⟩ := hstored hi
    have hne : storedRecords id w.trace ≠ [] := List.ne_nil_of_mem hr
    have hlast : recordOf w.state.db id = some ((storedRecords id w.trace).getLast hne) := by
      rw [← hlog.last, recordLog, List.getLast?_append_of_ne_nil _ hne, List.getLast?_eq_getLast_of_ne_nil hne]
    obtain ⟨e, he, payload, hput, hdec⟩ :=
      mem_storedRecords.mp (List.getLast_mem hne)
    obtain ⟨heq, record, hdec', hversion, hsize⟩ := record_of_write h he hput
    rw [hdec] at hdec'
    cases hdec'
    refine ⟨e.tid, ⟨payload, heq ▸ he⟩, ?_, ?_⟩
    · rw [hlast, Option.map_some, hversion, hsize]
    · intro i hi
      obtain ⟨r, hr, hri⟩ := hstored hi
      rw [← hri, ← hversion]
      exact hlog.version_le (List.mem_append_right _ hr) hlast

end Runs

/-- A file of ten bytes on disk, at version five. -/
def sampleRecord : UnifiedInodeRecord where
  storageTier := UnifiedStorageTier.kDisk
  inodeId := 2
  parentInodeId := kRootInodeId
  sizeBytes := 10
  nlink := 1
  blksize := 4096
  blocks512 := 1
  replica := 1
  versionNo := 5
  fileName := ofAscii "f"
  diskNodeId := 1
  diskId := 1

def sampleState : MdsState Bool where
  db := AList.insert (.inode 2) (layoutRecord (packedForm sampleRecord)) ∅
  owner := fun _ => none
  issued := []

/-- Two clients report the sixth and the seventh version of the file. -/
def twoUpdates : Bool → UpdateInodeStatRequest
  | false => { inodeId := 2, fileSize := 20, version := 6, mtime := 1 }
  | true => { inodeId := 2, fileSize := 30, version := 7, mtime := 1 }

/-- Both clients check first, and the writes come in the order of the versions. -/
theorem versions_in_order_of_late_write : ∃ w pool,
    Steps (mdsMachine (InOrder twoUpdates)) sampleState (fun i => updateInodeStat (twoUpdates i))
      w pool ∧
      (recordLog sampleState 2 w.trace).map (·.versionNo) = [5, 6, 7] ∧
      (recordLog sampleState 2 w.trace).Pairwise (·.versionNo ≤ ·.versionNo) := by
  have hrun : (schedule silentOracle (InOrder twoUpdates) sampleState
      (fun i => updateInodeStat (twoUpdates i))
      [false, true, false, false, false, true, true, true]).map
        (fun p => (recordLog sampleState 2 p.1.trace).map (·.versionNo)) = some [5, 6, 7] := by
    decide +kernel
  obtain ⟨⟨w, pool⟩, hw, hlog⟩ := Option.map_eq_some_iff.mp hrun
  exact ⟨w, pool, steps_of_schedule hw, hlog, (versions_in_order (steps_of_schedule hw) 2).1⟩

/-- The older update checks first and writes last: both are told OK, and the
    inode goes back from the seventh version to the sixth. -/
theorem older_update_written_last : ∃ w pool,
    Steps (mdsMachine fun _ _ _ _ => True) sampleState (fun i => updateInodeStat (twoUpdates i))
      w pool ∧
      (∀ i, (pool i).result?.map (·.1.isOk) = some true) ∧
      (recordLog sampleState 2 w.trace).map (·.versionNo) = [5, 7, 6] ∧
      (recordOf w.state.db 2).map (fun r => (r.versionNo, r.sizeBytes)) = some (6, 20) := by
  have hrun : (schedule silentOracle (fun _ _ _ _ => True) sampleState
      (fun i => updateInodeStat (twoUpdates i))
      [false, true, true, true, true, false, false, false]).map
        (fun p => decide ((∀ i, (p.2 i).result?.map (·.1.isOk) = some true) ∧
          (recordLog sampleState 2 p.1.trace).map (·.versionNo) = [5, 7, 6] ∧
          (recordOf p.1.state.db 2).map (fun r => (r.versionNo, r.sizeBytes)) = some (6, 20))) =
      some true := by
    decide +kernel
  obtain ⟨⟨w, pool⟩, hw, hdec⟩ := Option.map_eq_some_iff.mp hrun
  obtain ⟨hok, hlog, hrecord⟩ := of_decide_eq_true hdec
  exact ⟨w, pool, steps_of_schedule hw, hok, hlog, hrecord⟩

end Zb.Mds
