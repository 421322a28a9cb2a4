-- SUMMARY: Attribute updates against archive commits: an archived file stays unless a commit overtakes a write.
import ZBStorage.Mds.Service.OpticalArchive

/-!
# Archived files

An update refuses a file that is archived when it checks it. The write comes
later, and `PutInode` keeps the tier it then finds but takes the archive state
from the update. An archive that commits in between is overwritten with a record
on optical storage that is `PENDING` again.
-/

namespace Zb.Mds

open Zb.Rpc Bytes Handler Prog

/-! ## Tiers -/

/-- Every file on optical storage is archived. -/
def OpticalArchived (db : MetaMap) : Prop :=
  ∀ id record, recordOf db id = some record → record.storageTier = UnifiedStorageTier.kOptical →
    record.fileArchiveState = InodeArchiveState.archived.toUInt32

/-- The payload is of no file on optical storage. -/
def NotOptical (payload : Bytes) : Prop :=
  ∀ record, decodeUnifiedInodeRecord payload = .ok record →
    record.storageTier ≠ UnifiedStorageTier.kOptical

/-- An update that its check let pass is not of a file on optical storage. -/
theorem OpticalArchived.notOptical {db : MetaMap} (h : OpticalArchived db) {id : UInt64}
    {data : Bytes} (hlook : db.lookup (.inode id) = some data) {attr : InodeAttr}
    (hattr : decodeUnifiedInodeAttr data = .ok attr) (hstate : attr.fileArchiveState ≠ .archived) :
    NotOptical data := by
  intro record hdec htier
  have harchived := h id record (recordOf_eq_some.mpr ⟨data, hlook, hdec⟩) htier
  rw [decodeUnifiedInodeAttr, hdec] at hattr
  cases hattr
  have hback : InodeArchiveState.ofUInt32 record.fileArchiveState = .archived := by
    rw [harchived]
    rfl
  exact hstate hback

/-- `PutInode` keeps the tier it read, and takes that of the attributes if it read
    none. -/
theorem putInodePayload_notOptical {attr : InodeAttr} {existing : Except String Bytes}
    {payload : Bytes} (h : putInodePayload attr existing = .ok payload)
    (hexisting : ∀ data, existing = .ok data → NotOptical data)
    (hattr : existing = .error "" → attr.storageTier ≠ .optical) : NotOptical payload := by
  cases existing with
  | ok data =>
      obtain ⟨record, hdec, hdec'⟩ := putInodePayload_existing h
      intro record' hrecord
      rw [hdec'] at hrecord
      cases hrecord
      exact hexisting data rfl record hdec
  | error e =>
      by_cases he : e = ""
      · rw [putInodePayload, if_neg (not_not.mpr he)] at h
        subst he
        cases hrec : attrToUnifiedInodeRecord attr 0 UnifiedStorageTier.kNone with
        | error e => simp [hrec, Bind.bind, Except.bind] at h
        | ok record =>
            simp only [hrec, Bind.bind, Except.bind] at h
            intro record' hrecord
            rw [decode_encode h] at hrecord
            cases hrecord
            obtain ⟨-, -, -, -, -, -, htier⟩ := attrToUnifiedInodeRecord_ok hrec
            have hkept := hattr rfl
            show record.storageTier ≠ _
            rw [htier]
            cases htag : attr.storageTier with
            | optical => exact absurd htag hkept
            | _ => simp [toUnifiedStorageTier, UnifiedStorageTier.kOptical,
                UnifiedStorageTier.kDisk, UnifiedStorageTier.kNone]
      · rw [putInodePayload, if_pos he] at h
        cases h

/-! ## Calls -/

/-- The calls that meet at a file. -/
inductive FileCall
  | update (request : UpdateInodeStatRequest)
  | archive (request : ModelOpticalArchiveRequest) (physical : Bool)

namespace FileCall

def prog : FileCall → Handler Unit
  | .update request => do discard (updateInodeStat request)
  | .archive request physical => do discard (handleOpticalArchive request physical)

def Rule : FileCall → MdsHistory → MdsOp → Prop
  | .update request => StatRule request
  | .archive request _ => ArchiveRule request

theorem follows_prog (c : FileCall) : Follows c.Rule c.prog (fun _ _ => True) [] := by
  cases c with
  | update request =>
      exact follows_bind.mpr ((follows_updateInodeStat request).mono fun _ _ _ => trivial)
  | archive request physical =>
      exact follows_bind.mpr ((follows_handleOpticalArchive request physical).mono
        fun _ _ _ => trivial)

end FileCall

variable {ι : Type}

/-- What calls write: an update a payload, an archive its batch. -/
theorem FileCall.write_cases {c : FileCall} {h : MdsHistory} {e : MdsEvent ι}
    (hrule : c.Rule h e.op) (hwrites : writesOf e ≠ []) :
    (∃ request payload, c = .update request ∧ StatPut request h payload ∧
      e = ⟨e.tid, .put (.inode request.inodeId) payload, .ok ()⟩) ∨
    ∃ request physical expected batch, c = .archive request physical ∧
      ArchiveCommit request h expected batch ∧
      e = ⟨e.tid, .writeBatchIfValueEquals (.inode request.inodeId) expected batch, .ok true⟩ := by
  cases c with
  | archive request physical =>
      obtain ⟨expected, batch, hcommit, he⟩ := archive_write hrule hwrites
      exact .inr ⟨request, physical, expected, batch, rfl, hcommit, he⟩
  | update request =>
      refine .inl ⟨request, ?_⟩
      obtain ⟨i, o, r⟩ := e
      cases o with
      | put k payload =>
          cases r with
          | error e => exact absurd rfl hwrites
          | ok u =>
              cases k with
              | inode id =>
                  obtain ⟨rfl, hput⟩ := hrule
                  exact ⟨payload, rfl, hput, rfl⟩
              | _ => exact hrule.elim
      | writeBatch batch => exact hrule.elim
      | writeBatchIfValueEquals k expected batch => exact hrule.elim
      | _ => exact absurd rfl hwrites

/-- The inode an archive installs, from what it read. -/
structure Installs (request : ModelOpticalArchiveRequest) (h : MdsHistory) (encoded : Bytes) :
    Prop where
  built : ∃ target entry data record, ⟨.get (.inode request.inodeId), .ok data⟩ ∈ h ∧
    decodeUnifiedInodeRecord data = .ok record ∧
    decodeUnifiedInodeRecord encoded = .ok (storedForm (archivedRecord target entry record))

/-- The batch of an archive installs an inode with its location, or writes neither. -/
theorem ArchiveCommit.batch_cases {request : ModelOpticalArchiveRequest} {h : MdsHistory}
    {expected : Bytes} {batch : WriteBatch} (hcommit : ArchiveCommit request h expected batch) :
    (∀ id, .inode id ∉ batch.map BatchEntry.key ∧ .opticalFileLocation id ∉ batch.map BatchEntry.key) ∨
    ∃ target encoded, Installs request h encoded ∧
      batch = archiveBatch request (opticalLocationBatch request.inodeId encoded target) := by
  obtain ⟨source, target, d, d', -, -, rfl, -, -, -, -, -, ⟨saved, hsaved, rfl⟩, -⟩ := hcommit.seen
  rcases hsaved with ⟨-, rfl⟩ | ⟨data, record, entry, encoded, hmem, hdec, henc, rfl⟩
  · exact .inl fun id => by simp [archiveBatch, BatchEntry.key]
  · refine .inr ⟨target, encoded, ⟨target, entry, data, record, ?_, hdec, decode_encode henc⟩, rfl⟩
    exact List.mem_cons_of_mem _ hmem

theorem Installs.optical {request : ModelOpticalArchiveRequest} {h : MdsHistory} {encoded : Bytes}
    (hinstalls : Installs request h encoded) :
    ∃ record, decodeUnifiedInodeRecord encoded = .ok record ∧
      record.storageTier = UnifiedStorageTier.kOptical ∧
      record.fileArchiveState = InodeArchiveState.archived.toUInt32 := by
  obtain ⟨target, entry, data, record, -, -, hdec⟩ := hinstalls.built
  refine ⟨_, hdec, ?_, rfl⟩
  cases entry <;> rfl

/-! ## Runs -/

variable [DecidableEq ι]

/-- The attributes an archived namespace answered with. -/
def coldAttr? : (o : MdsOp) → o.Res → Option InodeAttr
  | .ask (.coldInode _), .ok attr => some attr
  | _, _ => none

/-- The inode whose archive commits. -/
def archivedInode? : (o : MdsOp) → o.Res → Option UInt64
  | .writeBatchIfValueEquals (.inode id) _ _, .ok true => some id
  | _, _ => none

/-- What a read of the inode found. -/
def inodeRead? (id : UInt64) : (o : MdsOp) → o.Res → Option Bytes
  | .get (.inode id'), .ok data => if id' = id then some data else none
  | _, _ => none

/-- What a call has read of the inode so far. -/
def inodeReads (id : UInt64) (h : MdsHistory) : List Bytes := h.filterMap fun e => inodeRead? id e.1 e.2

theorem mem_inodeReads {id : UInt64} {h : MdsHistory} {data : Bytes}
    (hread : ⟨.get (.inode id), .ok data⟩ ∈ h) : data ∈ inodeReads id h :=
  List.mem_filterMap.mpr ⟨_, hread, if_pos rfl⟩

/-- An update writes only if no archive of the file committed since the update
    began. The archived namespaces, too, hold no file on optical storage that is
    not archived. An archive commits only if it has read the same inode each time:
    it checks the first read against the manifest, and installs a later one. -/
def Unarchived (w : MdsWorld ι) (i : ι) (o : MdsOp) (r : o.Res) : Prop :=
  (∀ id ∈ o.putInode?, ∀ e ∈ since i w.trace,
    .opticalFileLocation id ∉ (writesOf e).map BatchEntry.key) ∧
  (∀ attr ∈ coldAttr? o r, attr.storageTier = .optical → attr.fileArchiveState = .archived) ∧
  ∀ id ∈ archivedInode? o r, ∀ data ∈ inodeReads id (own i w.trace),
    ∀ data' ∈ inodeReads id (own i w.trace), data = data'

instance (w : MdsWorld ι) (i : ι) (o : MdsOp) (r : o.Res) : Decidable (Unarchived w i o r) :=
  inferInstanceAs (Decidable ((∀ id ∈ o.putInode?, ∀ e ∈ since i w.trace,
      .opticalFileLocation id ∉ (writesOf e).map BatchEntry.key) ∧
    (∀ attr ∈ coldAttr? o r, attr.storageTier = .optical → attr.fileArchiveState = .archived) ∧
    ∀ id ∈ archivedInode? o r, ∀ data ∈ inodeReads id (own i w.trace),
      ∀ data' ∈ inodeReads id (own i w.trace), data = data'))

/-- What holds of archived files throughout a run. -/
structure Frozen (w : MdsWorld ι) : Prop where
  archived : OpticalArchived w.state.db
  /-- only archives write a file on optical storage -/
  updates : ∀ e ∈ w.trace, ∀ id payload, .put (.inode id) payload ∈ writesOf e →
    .opticalFileLocation id ∉ (writesOf e).map BatchEntry.key → NotOptical payload
  /-- nobody writes it again -/
  kept : ∀ t₁ e t₂ id, w.trace = t₁ ++ e :: t₂ →
    .opticalFileLocation id ∈ (writesOf e).map BatchEntry.key →
    ∀ e' ∈ t₂, .inode id ∉ (writesOf e').map BatchEntry.key

omit [DecidableEq ι] in
theorem Frozen.push {w : MdsWorld ι} (h : Frozen w) {i : ι} {o : MdsOp} {r : o.Res} {s : MdsState ι}
    (harchived : OpticalArchived s.db)
    (hupdate : ∀ id payload, .put (.inode id) payload ∈ o.writes r →
      .opticalFileLocation id ∉ (o.writes r).map BatchEntry.key → NotOptical payload)
    (hkept : ∀ t₁ e t₂ id, w.trace = t₁ ++ e :: t₂ →
      .opticalFileLocation id ∈ (writesOf e).map BatchEntry.key →
      .inode id ∉ (o.writes r).map BatchEntry.key) : Frozen (w.push i o r s) where
  archived := harchived
  updates := by
    intro e he id payload
    rcases List.mem_append.mp he with he | he
    · exact h.updates e he id payload
    · cases List.mem_singleton.mp he
      exact hupdate id payload
  kept := by
    intro t₁ e t₂ id hsplit hcommit e' he'
    rcases snoc_eq_append_cons hsplit with ⟨rfl, -, -⟩ | ⟨t₂', rfl, hsplit'⟩
    · cases he'
    · rcases List.mem_append.mp he' with he' | he'
      · exact h.kept t₁ e t₂' id hsplit' hcommit e' he'
      · cases List.mem_singleton.mp he'
        exact hkept t₁ e t₂' id hsplit' hcommit

section Runs

variable {calls : ι → FileCall} {s₀ : MdsState ι} {w : MdsWorld ι} {pool : ι → Handler Unit}

/-- What an update has checked is still not on optical storage. -/
theorem notOptical_of_check (h : Steps (mdsMachine Unarchived) s₀ (fun i => (calls i).prog) w pool)
    (hw : Frozen w) {i : ι} {id : UInt64} {attr : InodeAttr}
    (hread : AttrRead id attr (own i w.trace)) (hstate : attr.fileArchiveState ≠ .archived)
    (hsince : ∀ e ∈ since i w.trace, .opticalFileLocation id ∉ (writesOf e).map BatchEntry.key)
    {data : Bytes} (hlook : w.state.db.lookup (.inode id) = some data) : NotOptical data := by
  -- what was written since the check was not written by an archive
  have hset : ∀ {t₁ t₂ r}, w.trace = t₁ ++ ⟨i, .get (.inode id), r⟩ :: t₂ →
      (∃ e ∈ t₂, Sets (writesOf e) (.inode id) (w.state.db.lookup (.inode id))) →
      NotOptical data := by
    rintro t₁ t₂ r hsplit ⟨e, hmem, hset⟩
    rw [hlook] at hset
    refine hw.updates e (by simp [hsplit, hmem]) id data hset (hsince e ?_)
    rw [hsplit]
    exact mem_since hmem
  rcases hread with ⟨data₀, hmem, hattr⟩ | ⟨hmem, -⟩
  · obtain ⟨t₁, t₂, hsplit⟩ := List.append_of_mem (mem_own.mp hmem)
    rcases Steps.read_or_set h hsplit with ⟨_, -, ⟨⟩⟩ | hnow | hlater
    · rw [MetaMap.read_eq_ok.mp hnow.symm] at hlook
      cases hlook
      exact hw.archived.notOptical (MetaMap.read_eq_ok.mp hnow.symm) hattr hstate
    · exact hset hsplit hlater
  · obtain ⟨t₁, t₂, hsplit⟩ := List.append_of_mem (mem_own.mp hmem)
    rcases Steps.read_or_set h hsplit with ⟨_, hne, ⟨⟩⟩ | hnow | hlater
    · exact absurd rfl hne
    · rw [(MetaMap.read_eq_error.mp hnow.symm).1] at hlook
      cases hlook
    · exact hset hsplit hlater

/-- Neither were the attributes it checked. -/
theorem attr_notOptical (h : Steps (mdsMachine Unarchived) s₀ (fun i => (calls i).prog) w pool)
    (hbefore : ∀ {w₁ pool₁}, Steps (mdsMachine Unarchived) s₀ (fun i => (calls i).prog) w₁ pool₁ →
      w₁.trace.length ≤ w.trace.length → Frozen w₁) {i : ι} {id : UInt64} {attr : InodeAttr}
    (hread : AttrRead id attr (own i w.trace)) (hstate : attr.fileArchiveState ≠ .archived) :
    attr.storageTier ≠ .optical := by
  rcases hread with ⟨data, hmem, hattr⟩ | ⟨-, hmem⟩
  · obtain ⟨t₁, t₂, hsplit⟩ := List.append_of_mem (mem_own.mp hmem)
    obtain ⟨w₁, pool₁, k, s, hsteps, rfl, -, ⟨-, hread⟩, -⟩ := h.before_event hsplit
    have hw₁ := hbefore hsteps (by simp [hsplit])
    rcases hread with hread | ⟨e, -, he⟩
    · have hkept := hw₁.archived.notOptical (MetaMap.read_eq_ok.mp hread.symm) hattr hstate
      cases hdec : decodeUnifiedInodeRecord data with
      | error e => simp [decodeUnifiedInodeAttr, hdec, Except.map] at hattr
      | ok record =>
          rw [decodeUnifiedInodeAttr, hdec] at hattr
          cases hattr
          exact fun htier => hkept record hdec (toProtoStorageTier_optical.mp htier)
    · cases he
  · obtain ⟨t₁, t₂, hsplit⟩ := List.append_of_mem (mem_own.mp hmem)
    obtain ⟨w₁, pool₁, k, s, -, -, -, -, -, hcold, -⟩ := h.before_event hsplit
    exact fun htier => hstate (hcold attr rfl htier)

/-- An update finds no archived file, and writes none. -/
theorem notOptical_of_put (h : Steps (mdsMachine Unarchived) s₀ (fun i => (calls i).prog) w pool)
    (hbefore : ∀ {w₁ pool₁}, Steps (mdsMachine Unarchived) s₀ (fun i => (calls i).prog) w₁ pool₁ →
      w₁.trace.length ≤ w.trace.length → Frozen w₁) {i : ι} {request : UpdateInodeStatRequest}
    {payload : Bytes} (hput : StatPut request (own i w.trace) payload)
    (hsince : ∀ e ∈ since i w.trace,
      .opticalFileLocation request.inodeId ∉ (writesOf e).map BatchEntry.key) :
    NotOptical payload ∧
      ∀ data, w.state.db.lookup (.inode request.inodeId) = some data → NotOptical data := by
  obtain ⟨attr, now, existing, h', hread, -, -, hstate, hown, hpay⟩ := hput.checked
  have hread' : AttrRead request.inodeId attr (own i w.trace) := hread.mono (by simp [hown])
  refine ⟨putInodePayload_notOptical hpay ?_ ?_, fun data hlook =>
    notOptical_of_check h (hbefore h le_rfl) hread' hstate hsince hlook⟩
  · -- the read of `PutInode`, in the world where it happened
    rintro data rfl
    obtain ⟨t₁, t₂, hsplit, rfl, -⟩ := split_of_own hown
    obtain ⟨w₁, pool₁, k, s, hsteps, rfl, -, ⟨-, hgot⟩, -⟩ := h.before_event hsplit
    rcases hgot with hgot | ⟨e, -, he⟩
    · refine notOptical_of_check hsteps (hbefore hsteps (by simp [hsplit])) hread hstate ?_
        (MetaMap.read_eq_ok.mp hgot.symm)
      intro e he
      refine hsince e ?_
      rw [hsplit]
      exact since_append he
    · cases he
  · intro _
    have hkept := attr_notOptical h hbefore hread' hstate
    exact hkept

/-- After an archive has committed, its inode is stored. -/
theorem installed_of_commit
    (h : Steps (mdsMachine Unarchived) s₀ (fun i => (calls i).prog) w pool) (hw : Frozen w)
    {t₁ t₂ : List (MdsEvent ι)} {e : MdsEvent ι} (hsplit : w.trace = t₁ ++ e :: t₂) {id : UInt64}
    (hcommit : .opticalFileLocation id ∈ (writesOf e).map BatchEntry.key) :
    ∃ request physical expected batch encoded, calls e.tid = .archive request physical ∧
      request.inodeId = id ∧ ArchiveCommit request (own e.tid t₁) expected batch ∧
      Installs request (own e.tid t₁) encoded ∧ w.state.db.lookup (.inode id) = some encoded := by
  have hrule := h.rule_of_event (fun i => (calls i).follows_prog) hsplit
  obtain ⟨x, hx, hkey⟩ := List.mem_map.mp hcommit
  rcases FileCall.write_cases hrule (List.ne_nil_of_mem hx) with
    ⟨request, payload, -, -, he⟩ | ⟨request, physical, expected, batch, hc, hcommit', he⟩
  · rw [he] at hx
    cases List.mem_singleton.mp hx
    cases hkey
  · have hbatch : writesOf e = batch := by rw [he]; rfl
    rcases hcommit'.batch_cases with hnone | ⟨target, encoded, hinstalls, rfl⟩
    · rw [hbatch] at hcommit
      exact absurd hcommit (hnone id).2
    obtain rfl : request.inodeId = id := by
      rw [hbatch] at hcommit
      simpa [archiveBatch, opticalLocationBatch, BatchEntry.key, eq_comm] using hcommit
    refine ⟨request, physical, expected, _, encoded, hc, rfl, hcommit', hinstalls, ?_⟩
    rw [Steps.db_eq h, hsplit, List.flatMap_append, List.flatMap_cons, MetaMap.write_append,
      MetaMap.write_append, MetaMap.lookup_write_of_notMem, hbatch]
    · simp [archiveBatch, opticalLocationBatch, BatchEntry.apply]
    · intro x hx hkey
      obtain ⟨e', he', hx⟩ := List.mem_flatMap.mp hx
      exact hw.kept t₁ e t₂ _ hsplit hcommit e' he' (List.mem_map.mpr ⟨x, hx, hkey⟩)

/-- An archived file is not archived again: its location was read under the mutex,
    after the first archive. -/
theorem not_archived_again
    (h : Steps (mdsMachine Unarchived) s₀ (fun i => (calls i).prog) w pool) (hw : Frozen w)
    {t₁ t₂ : List (MdsEvent ι)} {e : MdsEvent ι} (hsplit : w.trace = t₁ ++ e :: t₂)
    {request : ModelOpticalArchiveRequest}
    (hcommit : .opticalFileLocation request.inodeId ∈ (writesOf e).map BatchEntry.key) {i : ι}
    {expected : Bytes} {batch : WriteBatch} :
    ¬ ArchiveCommit request (own i w.trace) expected batch := by
  intro hagain
  obtain ⟨first, _, _, _, encoded, -, -, hfirst, hinstalls, hlook⟩ :=
    installed_of_commit h hw hsplit hcommit
  obtain ⟨d, hheld, hsilent, -, hdisk⟩ := hagain.holds_fileMigration
  have hwrites : writesOf e ≠ [] := fun hnone => by rw [hnone] at hcommit; cases hcommit
  obtain ⟨u₁, u₂, rfl, rfl⟩ := Steps.before_lock h hheld hsilent hsplit hwrites
    fun {w₁ pool₁} hsteps htrace _ => by
      obtain ⟨d₁, hheld₁, -⟩ := hfirst.holds_fileMigration
      exact .inr (Steps.owner_of_holds hsteps (htrace ▸ hheld₁))
  -- so the read still tells the tier
  have hnow : ∀ {r : Except String Bytes}, ⟨.get (.inode request.inodeId), r⟩ ∈ own i u₂ →
      IoError r ∨ r = w.state.db.read (.inode request.inodeId) := by
    intro r hmem
    obtain ⟨v₁, v₂, rfl⟩ := List.append_of_mem (mem_own.mp hmem)
    have hsplit' : w.trace = (t₁ ++ e :: (u₁ ++ ⟨i, .lock .fileMigration, ()⟩ :: v₁)) ++
        ⟨i, .get (.inode request.inodeId), r⟩ :: v₂ := by simp [hsplit]
    rcases Steps.read_or_set h hsplit' with hio | hnow | ⟨e', he', hset⟩
    · exact .inl hio
    · exact .inr hnow
    · obtain ⟨x, hx, hkey⟩ := hset.exists_key
      exact absurd (List.mem_map.mpr ⟨x, hx, hkey⟩)
        (hw.kept t₁ e _ _ hsplit hcommit e' (by simp [he']))
  obtain ⟨record, hdec, htier, -⟩ := hinstalls.optical
  rcases hdisk with ⟨data, attr, hmem, hattr, hdisk⟩ | hmem
  · rcases hnow hmem with ⟨_, -, ⟨⟩⟩ | hread
    rw [MetaMap.read_eq_ok.mp hread.symm] at hlook
    cases hlook
    rw [decodeUnifiedInodeAttr, hdec] at hattr
    cases hattr
    have hoptical := toProtoStorageTier_optical.mpr htier
    have hdisk : toProtoStorageTier record.storageTier = .disk := hdisk
    rw [hoptical] at hdisk
    cases hdisk
  · rcases hnow hmem with ⟨_, hne, ⟨⟩⟩ | hread
    · exact absurd rfl hne
    · rw [(MetaMap.read_eq_error.mp hread.symm).1] at hlook
      cases hlook

theorem OpticalArchived.of_write {db : MetaMap} (h : OpticalArchived db) {batch : WriteBatch}
    (hbatch : ∀ id payload record, .put (.inode id) payload ∈ batch →
      decodeUnifiedInodeRecord payload = .ok record →
      record.storageTier = UnifiedStorageTier.kOptical →
      record.fileArchiveState = InodeArchiveState.archived.toUInt32) :
    OpticalArchived (db.write batch) := by
  intro id record hrec htier
  obtain ⟨data, hlook, hdec⟩ := recordOf_eq_some.mp hrec
  rcases MetaMap.lookup_write db batch (.inode id) with hsame | hset
  · rw [hsame] at hlook
    exact h id record (recordOf_eq_some.mpr ⟨data, hlook, hdec⟩) htier
  · rw [hlook] at hset
    exact hbatch id data record hset hdec htier

theorem frozen_of_steps (h₀ : OpticalArchived s₀.db)
    (h : Steps (mdsMachine Unarchived) s₀ (fun i => (calls i).prog) w pool) : Frozen w := by
  refine h.invariant Frozen (fun i => (calls i).follows_prog) ⟨h₀, by simp, by simp⟩ ?_
  intro w pool i o r s hsteps hbefore hrule hsem hmay
  have hdb : s.db = w.state.db.write (o.writes r) := MdsOp.Sem.db_eq hsem
  have hw := hbefore hsteps le_rfl
  by_cases hwrites : o.writes r = []
  · rw [hwrites] at hdb
    exact hw.push (hdb ▸ hw.archived) (by simp [hwrites]) (by simp [hwrites])
  rcases FileCall.write_cases (e := ⟨i, o, r⟩) hrule hwrites with
    ⟨request, payload, -, hput, he⟩ | ⟨request, physical, expected, batch, -, hcommit, he⟩
  · cases he
    obtain ⟨hpayload, hfound⟩ := notOptical_of_put hsteps hbefore hput (hmay.1 _ rfl)
    refine hw.push ?_ ?_ ?_
    · rw [hdb]
      refine hw.archived.of_write fun id payload' record hmem hdec htier => ?_
      cases List.mem_singleton.mp hmem
      exact absurd htier (hpayload record hdec)
    · intro id payload' hmem _
      cases List.mem_singleton.mp hmem
      exact hpayload
    · intro t₁ e t₂ id hsplit hkey hmem
      obtain rfl : id = request.inodeId := by simpa [MdsOp.writes, BatchEntry.key] using hmem
      obtain ⟨_, _, _, _, encoded, -, -, -, hinstalls, hlook⟩ :=
        installed_of_commit hsteps hw hsplit hkey
      obtain ⟨record, hdec, htier, -⟩ := hinstalls.optical
      exact hfound encoded hlook record hdec htier
  · cases he
    rcases hcommit.batch_cases with hnone | ⟨target, encoded, hinstalls, rfl⟩
    · refine hw.push ?_ ?_ ?_
      · rw [hdb]
        refine hw.archived.of_write fun id payload record hmem _ _ => ?_
        exact absurd (List.mem_map.mpr ⟨_, hmem, rfl⟩) (hnone id).1
      · intro id payload hmem _
        exact absurd (List.mem_map.mpr ⟨_, hmem, rfl⟩) (hnone id).1
      · exact fun _ _ _ id _ _ => (hnone id).1
    · -- the batch writes one inode, with its location
      have hone : ∀ {id}, .inode id ∈ (archiveBatch request
          (opticalLocationBatch request.inodeId encoded target)).map BatchEntry.key →
          id = request.inodeId := by
        intro id hmem
        simpa [archiveBatch, opticalLocationBatch, BatchEntry.key] using hmem
      refine hw.push ?_ ?_ ?_
      · rw [hdb]
        refine hw.archived.of_write fun id payload record hmem hdec _ => ?_
        obtain ⟨rfl, rfl⟩ : id = request.inodeId ∧ payload = encoded := by
          simpa [MdsOp.writes, archiveBatch, opticalLocationBatch] using hmem
        obtain ⟨record', hdec', -, hstate⟩ := hinstalls.optical
        rw [hdec] at hdec'
        cases hdec'
        exact hstate
      · intro id payload hmem hkey
        obtain rfl := hone (List.mem_map.mpr ⟨_, hmem, rfl⟩)
        exact absurd (by simp [MdsOp.writes, archiveBatch, opticalLocationBatch, BatchEntry.key]) hkey
      · intro t₁ e t₂ id hsplit hkey hmem
        obtain rfl := hone hmem
        exact not_archived_again hsteps hw hsplit hkey hcommit

/-- The archive that committed had read one value of the inode. -/
theorem reads_agree_of_commit
    (h : Steps (mdsMachine Unarchived) s₀ (fun i => (calls i).prog) w pool)
    {t₁ t₂ : List (MdsEvent ι)} {e : MdsEvent ι} (hsplit : w.trace = t₁ ++ e :: t₂) {id : UInt64}
    (hcommit : .opticalFileLocation id ∈ (writesOf e).map BatchEntry.key) {data data' : Bytes}
    (hread : ⟨.get (.inode id), .ok data⟩ ∈ own e.tid t₁)
    (hread' : ⟨.get (.inode id), .ok data'⟩ ∈ own e.tid t₁) : data = data' := by
  obtain ⟨w₁, pool₁, k, s, -, rfl, -, -, -, -, hagree⟩ := h.before_event hsplit
  have hrule := h.rule_of_event (fun i => (calls i).follows_prog) hsplit
  obtain ⟨x, hx, hkey⟩ := List.mem_map.mp hcommit
  rcases FileCall.write_cases hrule (List.ne_nil_of_mem hx) with
    ⟨request, payload, -, -, he⟩ | ⟨request, physical, expected, batch, -, hcommit', he⟩
  · rw [he] at hx
    cases List.mem_singleton.mp hx
    cases hkey
  · have hbatch : writesOf e = batch := by rw [he]; rfl
    rw [hbatch] at hcommit
    obtain rfl : request.inodeId = id := by
      rcases hcommit'.batch_cases with hnone | ⟨target, encoded, -, rfl⟩
      · exact absurd hcommit (hnone id).2
      · simpa [archiveBatch, opticalLocationBatch, BatchEntry.key, eq_comm] using hcommit
    have hinode : archivedInode? e.op e.res = some request.inodeId := by rw [he]; rfl
    exact hagree _ hinode _ (mem_inodeReads hread) _ (mem_inodeReads hread')

/-- Archived files stay as they were installed. Every file on optical storage is
    archived, in every state; nobody writes the inode of a file after an archive of
    it has committed; and the stored inode has the version and size of the
    manifest. -/
theorem archived_files_stay (h₀ : OpticalArchived s₀.db)
    (h : Steps (mdsMachine Unarchived) s₀ (fun i => (calls i).prog) w pool) :
    OpticalArchived w.state.db ∧
    ∀ t₁ e t₂ id, w.trace = t₁ ++ e :: t₂ →
      .opticalFileLocation id ∈ (writesOf e).map BatchEntry.key →
      (∀ e' ∈ t₂, .inode id ∉ (writesOf e').map BatchEntry.key) ∧
      ∃ request physical record, calls e.tid = .archive request physical ∧ request.inodeId = id ∧
        recordOf w.state.db id = some record ∧
        record.storageTier = UnifiedStorageTier.kOptical ∧
        record.fileArchiveState = InodeArchiveState.archived.toUInt32 ∧
        record.versionNo = request.sourceVersion ∧
        (¬ IsDir record → record.sizeBytes = request.size) := by
  have hw := frozen_of_steps h₀ h
  refine ⟨hw.archived, fun t₁ e t₂ id hsplit hkey => ⟨hw.kept t₁ e t₂ id hsplit hkey, ?_⟩⟩
  obtain ⟨request, physical, expected, batch, encoded, hc, rfl, hcommit, hinstalls, hlook⟩ :=
    installed_of_commit h hw hsplit hkey
  obtain ⟨record, hdec, htier, hstate⟩ := hinstalls.optical
  refine ⟨request, physical, record, hc, rfl, recordOf_eq_some.mpr ⟨_, hlook, hdec⟩, htier, hstate,
    ?_⟩
  obtain ⟨target, entry, data, read, hmem, hread, hdec'⟩ := hinstalls.built
  obtain ⟨_, _, d, _, -, -, hown, -, -, hexpected, ⟨attr, hattr, hmatch⟩, -⟩ := hcommit.seen
  -- what was installed was built from the value that the check compared
  obtain rfl : data = expected :=
    reads_agree_of_commit h hsplit hkey hmem (by rw [hown]; simp [hexpected])
  rw [decodeUnifiedInodeAttr, hread] at hattr
  cases hattr
  obtain ⟨hversion, hsize⟩ := of_decide_eq_true hmatch
  rw [hdec] at hdec'
  cases hdec'
  have hkept : (archivedRecord target entry read).versionNo = read.versionNo ∧
      (archivedRecord target entry read).inodeType = read.inodeType ∧
      (archivedRecord target entry read).sizeBytes = read.sizeBytes := by
    cases entry <;> exact ⟨rfl, rfl, rfl⟩
  refine ⟨hkept.1.trans hversion, fun hfile => ?_⟩
  show normalizeDirectorySize _ _ = _
  rw [normalizeDirectorySize, if_neg fun hdir => hfile hdir.1, hkept.2.2]
  exact hsize

end Runs

/-- An attribute update and an archive of the same file. -/
def updateAndArchive : Bool → FileCall
  | false => .update { inodeId := 2, fileSize := 20, version := 6, mtime := 1 }
  | true => .archive sampleManifest false

theorem leasedState_archived : OpticalArchived leasedState.db := by
  have hstored : recordOf leasedState.db 2 = some (storedForm sampleRecord) := by decide +kernel
  intro id record hrec htier
  by_cases hid : id = 2
  · subst hid
    rw [hstored] at hrec
    cases hrec
    exact absurd htier (by decide)
  · obtain ⟨data, hlook, -⟩ := recordOf_eq_some.mp hrec
    rw [leasedState, AList.lookup_insert_ne (by simp), diskState, AList.lookup_insert_ne (by simp),
      sampleState, AList.lookup_insert_ne (by simpa using hid)] at hlook
    cases hlook

/-- The update comes after the archive and is refused. -/
theorem archived_files_stay_after_update : ∃ w pool,
    Steps (mdsMachine Unarchived) leasedState (fun i => (updateAndArchive i).prog) w pool ∧
      (pool false).result? = some () ∧
      (recordOf w.state.db 2).map (fun r => (r.storageTier, r.fileArchiveState, r.versionNo)) =
        some (UnifiedStorageTier.kOptical, InodeArchiveState.archived.toUInt32, 5) ∧
      OpticalArchived w.state.db := by
  have hrun : (schedule archiveRegistry Unarchived leasedState (fun i => (updateAndArchive i).prog)
      (List.replicate 20 true ++ [false])).map
        (fun p => decide ((p.2 false).result? = some () ∧
          (recordOf p.1.state.db 2).map (fun r => (r.storageTier, r.fileArchiveState, r.versionNo)) =
            some (UnifiedStorageTier.kOptical, InodeArchiveState.archived.toUInt32, 5))) =
      some true := by
    decide +kernel
  obtain ⟨⟨w, pool⟩, hw, hdec⟩ := Option.map_eq_some_iff.mp hrun
  obtain ⟨hdone, hrecord⟩ := of_decide_eq_true hdec
  exact ⟨w, pool, steps_of_schedule hw, hdone, hrecord,
    (archived_files_stay leasedState_archived (steps_of_schedule hw)).1⟩

/-- The archive commits between the check and the write of the update, which makes
    the archived file pending again, with another size and version. -/
theorem update_reopens_archived_file : ∃ w pool,
    OpticalArchived leasedState.db ∧
    Steps (mdsMachine fun _ _ _ _ => True) leasedState (fun i => (updateAndArchive i).prog) w pool ∧
      w.state.db.lookup (.modelOpticalArchiveCommit sampleManifest.operationId) =
        some sampleManifest ∧
      (recordOf w.state.db 2).map (fun r => (r.storageTier, r.fileArchiveState)) =
        some (UnifiedStorageTier.kOptical, InodeArchiveState.pending.toUInt32) ∧
      (recordOf w.state.db 2).map (fun r => (r.versionNo, r.sizeBytes)) = some (6, 20) ∧
      ¬ OpticalArchived w.state.db := by
  have hrun : (schedule archiveRegistry (fun _ _ _ _ => True) leasedState
      (fun i => (updateAndArchive i).prog)
      ([false, false] ++ List.replicate 20 true ++ [false, false])).map
        (fun p => decide (p.1.state.db.lookup (.modelOpticalArchiveCommit sampleManifest.operationId) =
            some sampleManifest ∧
          (recordOf p.1.state.db 2).map (fun r => (r.storageTier, r.fileArchiveState)) =
            some (UnifiedStorageTier.kOptical, InodeArchiveState.pending.toUInt32) ∧
          (recordOf p.1.state.db 2).map (fun r => (r.versionNo, r.sizeBytes)) = some (6, 20))) =
      some true := by
    decide +kernel
  obtain ⟨⟨w, pool⟩, hw, hdec⟩ := Option.map_eq_some_iff.mp hrun
  obtain ⟨hop, hstate, hsize⟩ := of_decide_eq_true hdec
  refine ⟨w, pool, leasedState_archived, steps_of_schedule hw, hop, hstate, hsize, fun harchived => ?_⟩
  obtain ⟨record, hrec, heq⟩ := Option.map_eq_some_iff.mp hstate
  obtain ⟨htier, hpending⟩ := Prod.mk.inj heq
  have hback := harchived 2 record hrec htier
  rw [hpending] at hback
  cases hback

end Zb.Mds
