-- SUMMARY: Concurrent creates, renames and removes: sound if every batch lands while what its call checked still holds.
import ZBStorage.Mds.Interleavings
import ZBStorage.Mds.Storage.NamespaceMachine

/-!
# Concurrent changes of the namespace

The check that a name is free and the batch that binds it are separate store calls, and
no lock covers both. Two creations of one path can therefore both check, both write and
both answer OK; the second then overwrites the entry of the first.
-/

namespace Zb.Mds

open Zb.Rpc Bytes Handler Prog

/-! ## Calls -/

/-- A creation as the service performs it: reserve an id, then commit. -/
def reserveAndCommit (path : Bytes) (attr : InodeAttr) : Handler NamespaceStatus := do
  match ← reserveCreate path attr.type with
  | .error e => return ⟨.internalError, e⟩
  | .ok creation =>
      let result ← creation.commit { attr with inodeId := creation.id }
      return result.1

inductive TreeCall
  | create (path : Bytes) (attr : InodeAttr)
  | rename (oldPath newPath : Bytes)
  | remove (path : Bytes) (expectedType : InodeType)

def TreeCall.prog : TreeCall → Handler NamespaceStatus
  | .create path attr => reserveAndCommit path attr
  | .rename oldPath newPath => Zb.Mds.rename oldPath newPath
  | .remove path expectedType => Zb.Mds.remove path expectedType

/-- The calls that bind a name. -/
def TreeCall.BindsName : TreeCall → Prop
  | .remove _ _ => False
  | _ => True

/-! ## Rules -/

/-- The batches of the three operations, after the reads that led to them. -/
inductive Justified (h : MdsHistory) : WriteBatch → Prop
  | create {parent name inodeId payload} :
      ⟨.get (.dentry parent name), .error ""⟩ ∈ h →
      Justified h (createBatch parent name inodeId payload)
  | rename {oldParent oldName newParent newName data inode payload} :
      ⟨.get (.dentry oldParent oldName), .ok data⟩ ∈ h → decodeUInt64 data = some inode →
      ⟨.get (.dentry newParent newName), .error ""⟩ ∈ h →
      Justified h (renameBatch oldParent oldName newParent newName inode payload)
  | remove {parent name data inode} :
      ⟨.get (.dentry parent name), .ok data⟩ ∈ h → decodeUInt64 data = some inode →
      Justified h (removeBatch parent name inode)

/-- The operations a namespace call may perform. -/
def TreeRule (h : MdsHistory) : MdsOp → Prop
  | .get _ | .iterate _ | .lock _ | .unlock _ => True
  | .put k _ => k = .nextInode
  | .writeBatch batch => Justified h batch
  | _ => False

/-- An OK comes after a batch that succeeded and satisfies `B`. -/
def OkAfter (B : WriteBatch → Prop) (status : NamespaceStatus) (h : MdsHistory) : Prop :=
  status.isOk = true → ∃ batch, B batch ∧ ⟨.writeBatch batch, .ok ()⟩ ∈ h

section Follows

variable {α : Type} {h : MdsHistory}

theorem follows_getDentry {parent : UInt64} {name : Bytes}
    {Q : Except String UInt64 → MdsHistory → Prop} (hfail : ∀ e d, e ≠ "" → Q (.error e) (h ++ d))
    (hnone : Q (.error "") (h ++ [⟨.get (.dentry parent name), .error ""⟩]))
    (hsome : ∀ data id, decodeUInt64 data = some id →
      Q (.ok id) (h ++ [⟨.get (.dentry parent name), .ok data⟩])) :
    Follows TreeRule (getDentry parent name) Q h := by
  unfold getDentry
  split
  · simpa using hfail "invalid dentry lookup args" [] (by decide)
  · refine follows_op.mpr ⟨trivial, fun r => ?_⟩
    cases r with
    | error e =>
        by_cases he : e = ""
        · subst he
          exact hnone
        · exact hfail e _ he
    | ok data =>
        cases hdec : decodeUInt64 data with
        | none => simpa [hdec] using hfail "invalid dentry" _ (by decide)
        | some id => simpa [hdec] using hsome data id hdec

theorem follows_getInode {id : UInt64} {Q : Except String InodeAttr → MdsHistory → Prop}
    (hQ : ∀ r d, Q r (h ++ d)) : Follows TreeRule (getInode id) Q h := by
  unfold getInode
  split
  · simpa using hQ _ []
  · refine follows_op.mpr ⟨trivial, fun r => ?_⟩
    cases r with
    | error e => exact hQ _ _
    | ok data => exact hQ _ _

theorem follows_walkDentries {current : UInt64} {parts : List Bytes}
    {Q : Except String UInt64 → MdsHistory → Prop} (hQ : ∀ r d, Q r (h ++ d)) :
    Follows TreeRule (walkDentries current parts) Q h := by
  induction parts generalizing current h with
  | nil =>
      show Q (.ok current) h
      simpa using hQ _ []
  | cons part parts ih =>
      refine follows_op.mpr ⟨trivial, fun r => ?_⟩
      cases r with
      | error e => exact hQ _ _
      | ok data =>
          cases hdec : decodeUInt64 data with
          | none => simpa [hdec] using hQ _ _
          | some next =>
              simp only [hdec]
              exact ih fun r d => by simpa using hQ r (_ :: d)

theorem follows_resolveParent {path : Bytes}
    {Q : Except String (UInt64 × Bytes) → MdsHistory → Prop} (hQ : ∀ r d, Q r (h ++ d)) :
    Follows TreeRule (resolveParent path) Q h := by
  unfold resolveParent
  split
  · simpa using hQ _ []
  · refine follows_bind.mpr (follows_walkDentries fun r d => ?_)
    cases r with
    | error e => exact hQ _ d
    | ok parent => exact hQ _ d

theorem follows_finish {B : WriteBatch → Prop} {batch : WriteBatch} (hbatch : Justified h batch)
    (hB : B batch) : Follows TreeRule (do return finish (← writeBatch batch)) (OkAfter B) h := by
  refine follows_op.mpr ⟨hbatch, fun r => ?_⟩
  cases r with
  | error e => exact fun hok => absurd hok Bool.false_ne_true
  | ok u => exact fun _ => ⟨batch, hB, by simp⟩

/-- An answer that is not OK ends a call. -/
theorem okAfter_of_failed {B : WriteBatch → Prop} {status : NamespaceStatus}
    (hfail : status.isOk = false) : Follows TreeRule (.ret status) (OkAfter B) h :=
  fun hok => absurd hok (by simp [hfail])

theorem follows_allocateInodeId {type : InodeType} {Q : Except String UInt64 → MdsHistory → Prop}
    (hQ : ∀ r d, Q r (h ++ d)) : Follows TreeRule (allocateInodeId type) Q h := by
  unfold allocateInodeId
  split
  · simpa using hQ _ []
  · refine follows_withLock trivial (fun _ => trivial) (follows_op.mpr ⟨trivial, fun r => ?_⟩)
    cases hnext : nextInodeId r with
    | error e => simpa [hnext] using hQ _ _
    | ok next =>
        refine follows_op.mpr ⟨rfl, fun r' => ?_⟩
        cases r' with
        | error e => simpa using hQ _ _
        | ok u => simpa using hQ _ _

/-- The batch binds a name. -/
def BindsSome (batch : WriteBatch) : Prop :=
  ∃ parent name v, .put (.dentry parent name) v ∈ batch

theorem follows_create {path : Bytes} {attr : InodeAttr} :
    Follows TreeRule (create path attr) (OkAfter BindsSome) h := by
  refine follows_bind.mpr (follows_resolveParent fun r d₁ => ?_)
  cases r with
  | error e => exact okAfter_of_failed (readFailure_isOk _ _)
  | ok parentName =>
  refine follows_bind.mpr (follows_getDentry ?_ ?_ ?_)
  · intro e d he
    simp only [he, ne_eq, not_false_eq_true, if_true]
    exact okAfter_of_failed rfl
  · simp only [ne_eq, not_true_eq_false, if_false]
    refine follows_bind.mpr (follows_getInode fun r d₂ => ?_)
    cases r with
    | error e => exact okAfter_of_failed (readFailure_isOk _ _)
    | ok parentAttr =>
    simp only
    split
    · exact okAfter_of_failed rfl
    split
    · exact okAfter_of_failed rfl
    cases hpay : createPayload attr parentName.1 parentName.2 with
    | error e =>
        exact okAfter_of_failed rfl
    | ok payload =>
        exact follows_finish (.create (by simp)) ⟨_, _, _, List.mem_cons_self⟩
  · intro data id hdec
    exact okAfter_of_failed rfl

theorem follows_rename {oldPath newPath : Bytes} :
    Follows TreeRule (rename oldPath newPath) (OkAfter BindsSome) h := by
  refine follows_bind.mpr (follows_resolveParent fun r d₁ => ?_)
  cases r with
  | error e => exact okAfter_of_failed (readFailure_isOk _ _)
  | ok old =>
  refine follows_bind.mpr (follows_resolveParent fun r d₂ => ?_)
  cases r with
  | error e => exact okAfter_of_failed (readFailure_isOk _ _)
  | ok new =>
  refine follows_bind.mpr (follows_getDentry ?_ ?_ ?_)
  · intro e d he
    exact okAfter_of_failed (readFailure_isOk _ _)
  · exact okAfter_of_failed (readFailure_isOk _ _)
  intro data inode hdec
  refine follows_bind.mpr (follows_getDentry ?_ ?_ ?_)
  · intro e d he
    simp only [he, ne_eq, not_false_eq_true, if_true]
    exact okAfter_of_failed rfl
  · simp only [ne_eq, not_true_eq_false, if_false]
    refine follows_op.mpr ⟨trivial, fun r => ?_⟩
    cases r with
    | error e => exact okAfter_of_failed (readFailure_isOk _ _)
    | ok payload =>
    cases hpay : renamePayload payload new.1 new.2 with
    | error e =>
        simp only [hpay]
        exact okAfter_of_failed rfl
    | ok payload' =>
        simp only [hpay]
        exact follows_finish (.rename (by simp) hdec (by simp))
          ⟨_, _, _, List.mem_cons_of_mem _ List.mem_cons_self⟩
  · intro data' target hdec'
    exact okAfter_of_failed rfl

theorem follows_remove {path : Bytes} {expectedType : InodeType} :
    Follows TreeRule (remove path expectedType) (fun _ _ => True) h := by
  unfold remove
  split
  · trivial
  refine follows_bind.mpr (follows_resolveParent fun r d₁ => ?_)
  cases r with
  | error e => trivial
  | ok parentName =>
  refine follows_bind.mpr (follows_getDentry (fun _ _ _ => trivial) trivial fun data inode hdec => ?_)
  refine follows_bind.mpr (follows_getInode fun r d₂ => ?_)
  cases r with
  | error e => trivial
  | ok attr =>
  simp only
  split
  · trivial
  have hremove : ∀ d, Follows TreeRule (do return finish (← writeBatch
      (removeBatch parentName.1 parentName.2 inode))) (fun _ _ => True)
      (h ++ d₁ ++ [⟨.get (.dentry parentName.1 parentName.2), .ok data⟩] ++ d) := fun d =>
    follows_op.mpr ⟨.remove (by simp) hdec, fun _ => trivial⟩
  refine follows_bind.mpr ?_
  unfold checkEmpty
  split
  · refine follows_op.mpr ⟨trivial, fun r => ?_⟩
    cases r with
    | error e => trivial
    | ok entries =>
        simp only [pure_eq, follows_ret]
        split
        · trivial
        · simpa using hremove (d₂ ++ [_])
  · exact hremove d₂

theorem TreeCall.follows_prog (c : TreeCall) :
    Follows TreeRule c.prog (fun status h => c.BindsName → OkAfter BindsSome status h) h := by
  cases c with
  | create path attr =>
      refine follows_bind.mpr (follows_bind.mpr (follows_allocateInodeId fun r d => ?_))
      cases r with
      | error e => exact fun _ => okAfter_of_failed rfl
      | ok id =>
          simp only [pure_eq, follows_ret]
          split
          · exact fun _ => okAfter_of_failed rfl
          · refine follows_bind.mpr ?_
            unfold NamespaceCreation.commit
            split
            · exact fun _ => okAfter_of_failed rfl
            · refine follows_bind.mpr (follows_create.mono fun status h' hok => ?_)
              exact fun _ => hok
  | rename oldPath newPath => exact follows_rename.mono fun _ _ hok _ => hok
  | remove path expectedType => exact follows_remove.mono fun _ _ _ hbinds => hbinds.elim

end Follows

/-! ## What a batch finds -/

variable {ι : Type} [DecidableEq ι]

/-- Whether an entry of a batch still fits: a bound entry is free, a deleted one
    leads, if anywhere, to an inode of the batch. -/
def BatchEntry.Fits (db : MetaMap) (batch : WriteBatch) : BatchEntry → Prop
  | .put (.dentry parent name) _ => db.lookup (.dentry parent name) = none
  | .delete (.dentry parent name) =>
      ∀ id ∈ dentryOf db parent name, ∃ e ∈ batch, e.key = .inode id
  | _ => True

instance (db : MetaMap) (batch : WriteBatch) : DecidablePred (BatchEntry.Fits db batch) := fun e =>
  match e with
  | .put (.dentry parent name) _ =>
      inferInstanceAs (Decidable (db.lookup (.dentry parent name) = none))
  | .delete (.dentry parent name) =>
      inferInstanceAs (Decidable (∀ id ∈ dentryOf db parent name, ∃ e ∈ batch, e.key = .inode id))
  | .put (.inode _) _ | .put .nextInode _ | .put (.diskFileLocation _) _
  | .put (.opticalFileLocation _) _ | .put (.fileArchiveState _) _
  | .put (.modelOpticalArchiveCommit _) _ | .put (.opticalLibraryHandoff _) _
  | .put .nextHandle _ | .put (.handle _) _ | .delete (.inode _)
  | .delete .nextHandle | .delete (.handle _) | .delete .nextInode | .delete (.diskFileLocation _) | .delete (.opticalFileLocation _)
  | .delete (.fileArchiveState _) | .delete (.modelOpticalArchiveCommit _)
  | .delete (.opticalLibraryHandoff _) => inferInstanceAs (Decidable True)

/-- Since thread `i` began, an entry of the batch was written. -/
def Overtaken (t : List (MdsEvent ι)) (i : ι) (e : BatchEntry) : Prop :=
  ∃ e' ∈ since i t, e.key ∈ (writesOf e').map BatchEntry.key

/-- A batch that was overtaken by another call lands only if its entries fit. -/
def Undisturbed (w : MdsWorld ι) (i : ι) : (o : MdsOp) → o.Res → Prop
  | .writeBatch batch, _ => ∀ e ∈ batch, Overtaken w.trace i e → e.Fits w.state.db batch
  | _, _ => True

instance (w : MdsWorld ι) (i : ι) (o : MdsOp) (r : o.Res) : Decidable (Undisturbed w i o r) :=
  match o, r with
  | .writeBatch batch, _ =>
      inferInstanceAs (Decidable (∀ e ∈ batch,
        (∃ e' ∈ since i w.trace, e.key ∈ (writesOf e').map BatchEntry.key) →
          e.Fits w.state.db batch))
  | .get _, _ | .put _ _, _ | .writeBatchIfValueEquals _ _ _, _ | .iterate _, _ | .lock _, _
  | .unlock _, _ | .nowSeconds, _ | .nowMilliseconds, _ | .generateLeaseId, _ | .ask _, _ =>
      inferInstanceAs (Decidable True)

section Runs

variable {calls : ι → TreeCall} {s₀ : MdsState ι} {w : MdsWorld ι}
  {pool : ι → Handler NamespaceStatus}

/-- Without interference the reads of a call still hold at its batch. -/
theorem lookup_of_read (h : Steps (mdsMachine Undisturbed) s₀ (fun i => (calls i).prog) w pool)
    {i : ι} {parent : UInt64} {name : Bytes} {r : Except String Bytes} (hio : ¬ IoError r)
    (hread : ⟨.get (.dentry parent name), r⟩ ∈ own i w.trace) {e : BatchEntry}
    (hkey : e.key = .dentry parent name) (hfree : ¬ Overtaken w.trace i e) :
    r = w.state.db.read (.dentry parent name) := by
  obtain ⟨t₁, t₂, hsplit⟩ := List.append_of_mem (mem_own.mp hread)
  rcases Steps.read_or_set h hsplit with hio' | hread' | ⟨e', hmem, hset⟩
  · exact absurd hio' hio
  · exact hread'
  · refine absurd ⟨e', ?_, ?_⟩ hfree
    · rw [hsplit]
      exact mem_since hmem
    · rw [hkey]
      obtain ⟨e'', he'', hkey''⟩ := hset.exists_key
      exact List.mem_map.mpr ⟨e'', he'', hkey''⟩

/-- The entries of every batch that lands fit. -/
theorem fits_of_justified
    (h : Steps (mdsMachine Undisturbed) s₀ (fun i => (calls i).prog) w pool) {i : ι}
    {batch : WriteBatch} (hjust : Justified (own i w.trace) batch)
    (hmay : ∀ e ∈ batch, Overtaken w.trace i e → e.Fits w.state.db batch) {e : BatchEntry}
    (he : e ∈ batch) : e.Fits w.state.db batch := by
  by_cases hover : Overtaken w.trace i e
  · exact hmay e he hover
  -- a free name, and an entry that leads to the inode of the batch
  have hput : ∀ {parent name v}, ⟨.get (.dentry parent name), .error ""⟩ ∈ own i w.trace →
      e = .put (.dentry parent name) v → e.Fits w.state.db batch := by
    rintro parent name v hread rfl
    have hread' := lookup_of_read h (by rintro ⟨_, hne, ⟨⟩⟩; exact hne rfl) hread rfl hover
    exact (MetaMap.read_eq_error.mp hread'.symm).1
  have hdel : ∀ {parent name data inode}, ⟨.get (.dentry parent name), .ok data⟩ ∈ own i w.trace →
      decodeUInt64 data = some inode → (∃ e ∈ batch, e.key = .inode inode) →
      e = .delete (.dentry parent name) → e.Fits w.state.db batch := by
    rintro parent name data inode hread hdec hinode rfl id hid
    have hread' := lookup_of_read h (by rintro ⟨_, -, ⟨⟩⟩) hread rfl hover
    rw [dentryOf, MetaMap.read_eq_ok.mp hread'.symm, Option.bind_some, hdec] at hid
    cases hid
    exact hinode
  cases hjust with
  | create hread =>
      simp only [createBatch, List.mem_cons, List.not_mem_nil, or_false] at he
      rcases he with he | rfl
      · exact hput hread he
      · trivial
  | @rename _ _ _ _ _ inode payload hold hdec hnew =>
      simp only [renameBatch, List.mem_cons, List.not_mem_nil, or_false] at he
      rcases he with he | he | rfl
      · exact hdel hold hdec ⟨.put (.inode inode) payload, by simp [renameBatch], rfl⟩ he
      · exact hput hnew he
      · trivial
  | @remove _ _ _ inode hread hdec =>
      simp only [removeBatch, List.mem_cons, List.not_mem_nil, or_false] at he
      rcases he with he | rfl
      · exact hdel hread hdec ⟨.delete (.inode inode), by simp [removeBatch], rfl⟩ he
      · trivial

end Runs

/-! ## What a batch does -/

/-- An entry leads to the inode. -/
def Referenced (db : MetaMap) (id : UInt64) : Prop := ∃ parent name, dentryOf db parent name = some id

/-- The inode a stored entry leads to. -/
def leadsTo : (Σ k : MetaKey, k.Value) → Option UInt64
  | ⟨.dentry _ _, v⟩ => decodeUInt64 v
  | _ => none

/-- A batch that fits, binds each inode it writes and leaves what it says. -/
structure Clean (db : MetaMap) (batch : WriteBatch) : Prop where
  fits : ∀ e ∈ batch, e.Fits db batch
  bound : ∀ {parent name v}, .put (.dentry parent name) v ∈ batch →
    (db.write batch).lookup (.dentry parent name) = some v
  removed : ∀ {id}, .delete (.inode id) ∈ batch → (db.write batch).lookup (.inode id) = none
  led : ∀ {id v}, .put (.inode id) v ∈ batch →
    ∃ parent name, .put (.dentry parent name) (encodeUInt64 id) ∈ batch

theorem clean_of_justified {db : MetaMap} {h : MdsHistory} {batch : WriteBatch}
    (hjust : Justified h batch) (hfits : ∀ e ∈ batch, e.Fits db batch) : Clean db batch := by
  cases hjust with
  | @create parent name inodeId payload =>
      refine ⟨hfits, ?_, ?_, ?_⟩
      · simp +contextual [createBatch]
      · simp [createBatch]
      · intro id v hput
        obtain ⟨rfl, -⟩ : id = inodeId ∧ v = payload := by simpa [createBatch] using hput
        exact ⟨parent, name, by simp [createBatch]⟩
  | @rename oldParent oldName newParent newName data inode payload =>
      refine ⟨hfits, ?_, ?_, ?_⟩
      · simp +contextual [renameBatch]
      · simp [renameBatch]
      · intro id v hput
        obtain ⟨rfl, -⟩ : id = inode ∧ v = payload := by simpa [renameBatch] using hput
        exact ⟨newParent, newName, by simp [renameBatch]⟩
  | @remove parent name data inode =>
      refine ⟨hfits, ?_, ?_, ?_⟩
      · simp [removeBatch]
      · simp [removeBatch]
      · simp [removeBatch]

section Clean

variable {db : MetaMap} {batch : WriteBatch} {parent : UInt64} {name : Bytes}

/-- An entry that a clean batch does not delete stays. -/
theorem Clean.lookup_dentry (hc : Clean db batch) {v : Bytes}
    (hlook : db.lookup (.dentry parent name) = some v)
    (hkeep : .delete (.dentry parent name) ∉ batch) :
    (db.write batch).lookup (.dentry parent name) = some v := by
  rw [MetaMap.lookup_write_of_notMem, hlook]
  rintro e he hkey
  cases e with
  | put k w =>
      cases hkey
      have hfree : db.lookup (.dentry parent name) = none := hc.fits _ he
      rw [hlook] at hfree
      cases hfree
  | delete k =>
      cases hkey
      exact hkeep he

/-- After a clean batch an inode is referenced if it was or was just written. -/
theorem Clean.referenced (hc : Clean db batch) {id : UInt64}
    (hpresent : (db.write batch).lookup (.inode id) ≠ none)
    (hbefore : (∃ v, .put (.inode id) v ∈ batch) ∨ (db.lookup (.inode id) ≠ none → Referenced db id)) :
    Referenced (db.write batch) id := by
  by_cases hput : ∃ v, .put (.inode id) v ∈ batch
  · obtain ⟨v, hput⟩ := hput
    obtain ⟨parent, name, hbind⟩ := hc.led hput
    refine ⟨parent, name, ?_⟩
    rw [dentryOf, hc.bound hbind]
    exact decodeUInt64_encodeUInt64 id
  · have huntouched : ∀ e ∈ batch, e.key ≠ .inode id := by
      rintro e he hkey
      cases e with
      | put k v =>
          cases hkey
          exact hput ⟨v, he⟩
      | delete k =>
          cases hkey
          exact hpresent (hc.removed he)
    rw [MetaMap.lookup_write_of_notMem huntouched] at hpresent
    obtain ⟨parent, name, hentry⟩ := hbefore.resolve_left hput hpresent
    obtain ⟨v, hlook, hdec⟩ := Option.bind_eq_some_iff.mp hentry
    refine ⟨parent, name, ?_⟩
    rw [dentryOf, hc.lookup_dentry hlook]
    · exact hdec
    · intro hdel
      obtain ⟨e, he, hkey⟩ := hc.fits _ hdel id hentry
      exact huntouched e he hkey

end Clean

/-! ## Runs -/

/-- Nothing is lost: an entry stays until a batch deletes it, and an inode that
    was written is referenced as long as it is there. -/
structure NoLoss (w : MdsWorld ι) : Prop where
  kept : ∀ {t₁ t₂ e parent name v}, w.trace = t₁ ++ e :: t₂ →
    .put (.dentry parent name) v ∈ writesOf e →
    (∀ e' ∈ t₂, .delete (.dentry parent name) ∉ writesOf e') →
    w.state.db.lookup (.dentry parent name) = some v
  referenced : ∀ {e id v}, e ∈ w.trace → .put (.inode id) v ∈ writesOf e →
    w.state.db.lookup (.inode id) ≠ none → Referenced w.state.db id

omit [DecidableEq ι] in
theorem NoLoss.push {w : MdsWorld ι} {i : ι} {o : MdsOp} {r : o.Res} {s : MdsState ι}
    (h : NoLoss w) (hsem : o.Sem i w.state r s) (hc : Clean w.state.db (o.writes r)) :
    NoLoss (w.push i o r s) := by
  constructor
  · intro t₁ t₂ e parent name v hsplit hput hkeep
    rw [World.push_state, hsem.db_eq]
    rcases snoc_eq_append_cons hsplit with ⟨-, rfl, -⟩ | ⟨t₂', rfl, hsplit'⟩
    · exact hc.bound hput
    · have hlook := h.kept hsplit' hput fun e' he' => hkeep e' (List.mem_append_left _ he')
      exact hc.lookup_dentry hlook (hkeep _ (List.mem_append_right _ List.mem_cons_self))
  · intro e id v hmem hput hpresent
    rw [World.push_state, hsem.db_eq] at hpresent ⊢
    refine hc.referenced hpresent ?_
    rcases List.mem_append.mp hmem with hmem | hmem
    · exact .inr (h.referenced hmem hput)
    · rw [List.mem_singleton.mp hmem] at hput
      exact .inl ⟨v, hput⟩

section Runs

variable {calls : ι → TreeCall} {s₀ : MdsState ι} {w : MdsWorld ι}
  {pool : ι → Handler NamespaceStatus}

theorem clean_of_step (h : Steps (mdsMachine Undisturbed) s₀ (fun i => (calls i).prog) w pool)
    {i : ι} {o : MdsOp} {r : o.Res} (hrule : TreeRule (own i w.trace) o)
    (hmay : Undisturbed w i o r) : Clean w.state.db (o.writes r) := by
  have hnil : Clean w.state.db [] := ⟨by simp, by simp, by simp, by simp⟩
  cases o with
  | put k v =>
      cases r with
      | error e => exact hnil
      | ok u =>
          cases hrule
          exact ⟨by simp [MdsOp.writes, BatchEntry.Fits], by simp [MdsOp.writes],
            by simp [MdsOp.writes], by simp [MdsOp.writes]⟩
  | writeBatch batch =>
      cases r with
      | error e => exact hnil
      | ok u => exact clean_of_justified hrule fun e he => fits_of_justified h hrule hmay he
  | writeBatchIfValueEquals k expected batch => exact hrule.elim
  | _ => exact hnil

theorem noLoss_of_steps (h : Steps (mdsMachine Undisturbed) s₀ (fun i => (calls i).prog) w pool) :
    NoLoss w := by
  refine h.invariant NoLoss (fun i => (calls i).follows_prog) ⟨by simp, by simp⟩ ?_
  intro w pool i o r s hsteps hbefore hrule hsem hmay
  exact (hbefore hsteps le_rfl).push hsem (clean_of_step hsteps hrule hmay)

/-- Concurrent calls lose nothing when no batch lands on what another call
    changed: a call that answers OK has bound its name; two batches bind one name
    only with a batch between them that deletes it; a bound entry stays until it
    is deleted; and every inode written is referenced as long as it exists. -/
theorem nothing_lost_of_steps
    (h : Steps (mdsMachine Undisturbed) s₀ (fun i => (calls i).prog) w pool) :
    (∀ i status, pool i = .ret status → status.isOk = true → (calls i).BindsName →
      ∃ e ∈ w.trace, e.tid = i ∧ BindsSome (writesOf e)) ∧
    (∀ t₁ e₁ t₂ e₂ t₃ parent name v₁ v₂, w.trace = t₁ ++ e₁ :: (t₂ ++ e₂ :: t₃) →
      .put (.dentry parent name) v₁ ∈ writesOf e₁ → .put (.dentry parent name) v₂ ∈ writesOf e₂ →
      ∃ e ∈ t₂, .delete (.dentry parent name) ∈ writesOf e) ∧
    NoLoss w := by
  refine ⟨?_, ?_, noLoss_of_steps h⟩
  · intro i status hret hok hbinds
    have hfollows := h.follows (fun i => (calls i).follows_prog) i
    rw [hret] at hfollows
    obtain ⟨batch, hbatch, hmem⟩ := hfollows hbinds hok
    exact ⟨_, mem_own.mp hmem, rfl, hbatch⟩
  · intro t₁ e₁ t₂ e₂ t₃ parent name v₁ v₂ hsplit hput₁ hput₂
    by_contra! hkeep
    rw [← List.cons_append, ← List.append_assoc] at hsplit
    obtain ⟨w₁, pool₁, k, s, hsteps, htrace, -, -, hmay⟩ := h.before_event hsplit
    have hrule := h.rule_of_event (fun i => (calls i).follows_prog) hsplit
    rw [← htrace] at hrule
    have hlook := (noLoss_of_steps hsteps).kept htrace hput₁ hkeep
    have hfree : w₁.state.db.lookup (.dentry parent name) = none :=
      (clean_of_step hsteps hrule hmay).fits _ hput₂
    rw [hlook] at hfree
    cases hfree

end Runs

instance (db : MetaMap) (id : UInt64) : Decidable (Referenced db id) :=
  decidable_of_iff (∃ x ∈ db.entries, leadsTo x = some id) <| by
    constructor
    · rintro ⟨⟨k, v⟩, hmem, hlead⟩
      cases k with
      | dentry parent name =>
          refine ⟨parent, name, ?_⟩
          rw [dentryOf, AList.mem_lookup_iff.mpr hmem]
          exact hlead
      | _ => cases hlead
    · rintro ⟨parent, name, hentry⟩
      obtain ⟨v, hlook, hdec⟩ := Option.bind_eq_some_iff.mp hentry
      exact ⟨_, AList.mem_lookup_iff.mp hlook, hdec⟩

/-- Two clients create the same file. -/
def twoCreations : Bool → TreeCall := fun _ => .create (ofAscii "/f") {}

def rootMds : MdsState Bool := { rootStore.mds with owner := fun _ => none }

/-- The second client checks after the first one wrote. -/
theorem nothing_lost_of_late_check : ∃ w pool,
    Steps (mdsMachine Undisturbed) rootMds (fun i => (twoCreations i).prog) w pool ∧
      ((pool false).result?.map (·.code), (pool true).result?.map (·.code)) =
        (some .ok, some .alreadyExists) ∧ NoLoss w := by
  have hrun : (schedule silentOracle Undisturbed rootMds (fun i => (twoCreations i).prog)
      [false, false, false, false, true, true, true, true, false, false, false, true]).map
        (fun p => ((p.2 false).result?.map (·.code), (p.2 true).result?.map (·.code))) =
      some (some .ok, some .alreadyExists) := by
    decide +kernel
  obtain ⟨⟨w, pool⟩, hw, hcodes⟩ := Option.map_eq_some_iff.mp hrun
  exact ⟨w, pool, steps_of_schedule hw, hcodes, (nothing_lost_of_steps (steps_of_schedule hw)).2.2⟩

/-- Both clients check before either writes: both are told OK, the entry leads to
    the file of the second, and the file of the first is left without one. -/
theorem both_creations_ok : ∃ w pool,
    Steps (mdsMachine fun _ _ _ _ => True) rootMds (fun i => (twoCreations i).prog) w pool ∧
      (∀ i, (pool i).result?.map (·.isOk) = some true) ∧
      rootMds.db.lookup (.inode 2) = none ∧ w.state.db.lookup (.inode 2) ≠ none ∧
      dentryOf w.state.db kRootInodeId (ofAscii "f") = some 3 ∧ ¬ Referenced w.state.db 2 := by
  have hrun : (schedule silentOracle (fun _ _ _ _ => True) rootMds
      (fun i => (twoCreations i).prog)
      [false, false, false, false, true, true, true, true, false, true, false, true, false,
        true]).map (fun p => decide ((∀ i, (p.2 i).result?.map (·.isOk) = some true) ∧
          p.1.state.db.lookup (.inode 2) ≠ none ∧
          dentryOf p.1.state.db kRootInodeId (ofAscii "f") = some 3 ∧
          ¬ Referenced p.1.state.db 2)) = some true := by
    decide +kernel
  obtain ⟨⟨w, pool⟩, hw, hdec⟩ := Option.map_eq_some_iff.mp hrun
  obtain ⟨hok, hpresent, hentry, hlost⟩ := of_decide_eq_true hdec
  exact ⟨w, pool, steps_of_schedule hw, hok, by decide +kernel, hpresent, hentry, hlost⟩

end Zb.Mds
