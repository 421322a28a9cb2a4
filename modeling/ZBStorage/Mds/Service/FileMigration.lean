-- SUMMARY: Migrations against updates: packed and full location agree unless one overtakes a write.
import ZBStorage.Mds.Service.InodeStat

/-!
# Migrations and attribute updates

A disk location is stored twice, in full under its own key and packed into the
inode. A migration writes both with one batch, if the inode still has the payload
it read. `PutInode` writes the packed copy back as it read it, without such a
check.
-/

namespace Zb.Mds

open Zb.Rpc Bytes Handler Prog

/-! ## Rules -/

theorem only_loadDiskFileLocation (inodeId : UInt64) :
    Only MdsOp.IsRead (loadDiskFileLocation inodeId) := by
  refine (FileLocationResolver.only_resolve inodeId).bind fun r => ?_
  cases r with
  | error status => trivial
  | ok view =>
      simp only
      split <;> trivial

/-- The batch of a migration; empty if the inode was gone when it was built. -/
def MigrationBatch (inodeId : UInt64) (batch : WriteBatch) : Prop :=
  batch = [] ∨ ∃ location record encoded,
    encodeUnifiedInodeRecord (applyDiskLocationToUnifiedRecord location record) = .ok encoded ∧
    batch = diskLocationBatch inodeId encoded location

/-- The operations of migrations and attribute updates. -/
def LocationRule (h : MdsHistory) : MdsOp → Prop
  | .get _ | .ask _ | .nowSeconds | .lock _ | .unlock _ => True
  | .put (.inode inodeId) payload =>
      ∃ h' existing attr, h = h' ++ [⟨.get (.inode inodeId), existing⟩] ∧
        putInodePayload attr existing = .ok payload
  | .writeBatchIfValueEquals (.inode inodeId) _ batch => MigrationBatch inodeId batch
  | _ => False

/-- The calls that rewrite the inode of a file on disk. -/
inductive LocationCall
  | updateInodeStat (request : UpdateInodeStatRequest)
  | putInode (inodeId : UInt64) (attr : InodeAttr)
  | commitFileMigration (request : CommitFileMigrationRequest)

def LocationCall.prog : LocationCall → Handler Unit
  | .updateInodeStat request => do discard (Zb.Mds.updateInodeStat request)
  | .putInode inodeId attr => do discard (Zb.Mds.putInode inodeId attr)
  | .commitFileMigration request => do discard (Zb.Mds.commitFileMigration request)

section Follows

variable {h : MdsHistory}

theorem locationRule_of_isRead (h : MdsHistory) (o : MdsOp) (ho : o.IsRead) : LocationRule h o := by
  cases o with
  | get k => trivial
  | ask q => trivial
  | _ => exact ho.elim

theorem follows_saveDiskFileLocation {inodeId : UInt64} {location : DiskFileLocation}
    {Q : Option WriteBatch → MdsHistory → Prop} (hnone : ∀ d, Q none (h ++ d))
    (hsome : ∀ batch d, MigrationBatch inodeId batch → Q (some batch) (h ++ d)) :
    Follows LocationRule (saveDiskFileLocation inodeId location) Q h := by
  unfold saveDiskFileLocation
  split
  · simpa using hnone []
  refine follows_op.mpr ⟨trivial, fun r => ?_⟩
  cases r with
  | error e =>
      simp only [pure_eq, follows_ret]
      split
      · exact hnone _
      · exact hsome [] _ (.inl rfl)
  | ok payload =>
      cases hdec : decodeUnifiedInodeRecord payload with
      | error e => simpa [hdec] using hnone _
      | ok record =>
          simp only [hdec]
          cases henc : encodeUnifiedInodeRecord
              (applyDiskLocationToUnifiedRecord location record) with
          | error e => simpa [henc] using hnone _
          | ok encoded =>
              simpa [henc] using hsome _ _ (.inr ⟨location, record, encoded, henc, rfl⟩)

theorem follows_commitFileMigration (request : CommitFileMigrationRequest) :
    Follows LocationRule (commitFileMigration request) (fun _ _ => True) h := by
  unfold commitFileMigration
  split
  · split
    · trivial
    refine follows_op.mpr ⟨trivial, fun admitted => ?_⟩
    split
    · trivial
    refine follows_withLock trivial (fun _ => trivial) (follows_op.mpr ⟨trivial, fun r => ?_⟩)
    cases r with
    | error e => trivial
    | ok payload =>
    simp only
    split
    · trivial
    refine follows_bind.mpr ((only_loadDiskFileLocation _).follows
      (fun _ _ _ ho => locationRule_of_isRead _ _ ho) ?_)
    intro current d _
    cases current with
    | error e => trivial
    | ok current =>
    refine follows_op.mpr ⟨trivial, fun entry => ?_⟩
    cases entry with
    | none => trivial
    | some entry =>
    simp only
    split
    · trivial
    split
    · trivial
    split
    · trivial
    split
    · trivial
    refine follows_bind.mpr (follows_saveDiskFileLocation (fun _ => trivial) fun batch d hbatch => ?_)
    refine follows_op.mpr ⟨hbatch, fun r => ?_⟩
    cases r with
    | error e => trivial
    | ok matched => cases matched <;> trivial
  · trivial

theorem LocationCall.follows_prog (c : LocationCall) :
    Follows LocationRule c.prog (fun _ _ => True) [] := by
  cases c with
  | updateInodeStat request =>
      refine follows_bind.mpr ?_
      refine ((follows_updateInodeStat request).weaken fun h o hrule => ?_).mono fun _ _ _ => trivial
      cases o with
      | put k payload =>
          cases k with
          | inode inodeId =>
              obtain ⟨rfl, hput⟩ := hrule
              obtain ⟨attr, now, existing, h', -, -, -, -, hlast, hpay⟩ := hput.checked
              exact ⟨h', existing, _, hlast, hpay⟩
          | _ => exact hrule.elim
      | get k => trivial
      | ask q => trivial
      | nowSeconds => trivial
      | _ => exact hrule.elim
  | putInode inodeId attr =>
      refine follows_bind.mpr (follows_putInode (fun _ _ => trivial) (fun _ _ _ => trivial) ?_)
      exact fun existing payload hpay => ⟨⟨_, existing, attr, rfl, hpay⟩, trivial⟩
  | commitFileMigration request =>
      exact follows_bind.mpr ((follows_commitFileMigration request).mono fun _ _ _ => trivial)

end Follows

/-! ## Agreement of the two copies -/

/-- The record packs the location. -/
structure Packs (record : UnifiedInodeRecord) (location : DiskFileLocation) : Prop where
  tier : record.storageTier = UnifiedStorageTier.kDisk
  node : record.diskNodeId = (applyDiskLocationToUnifiedRecord location record).diskNodeId
  disk : record.diskId = (applyDiskLocationToUnifiedRecord location record).diskId

theorem packs_applied (location : DiskFileLocation) (record : UnifiedInodeRecord) :
    Packs (storedForm (applyDiskLocationToUnifiedRecord location record)) location :=
  ⟨rfl, rfl, rfl⟩

/-- An attribute update keeps what is packed. -/
theorem Packs.updated {record : UnifiedInodeRecord} {location : DiskFileLocation}
    (h : Packs record location) (attr : InodeAttr) :
    Packs (storedForm (updatedRecord attr record)) location := by
  have htier : (updatedRecord attr record).storageTier = UnifiedStorageTier.kDisk := h.tier
  refine ⟨htier, ?_, ?_⟩
  · simp only [storedForm, htier, if_true]
    exact h.node
  · simp only [storedForm, htier, if_true]
    exact h.disk

/-- Wherever a full location is stored, the inode packs it. -/
def LocationsAgree (db : MetaMap) : Prop :=
  ∀ id location, db.lookup (.diskFileLocation id) = some location →
    ∃ record, recordOf db id = some record ∧ Packs record location

section Batch

variable {db : MetaMap} {x id : UInt64} {encoded : Bytes} {location : DiskFileLocation}

theorem lookup_diskLocationBatch :
    (db.write (diskLocationBatch x encoded location)).lookup (.diskFileLocation x) =
      some location := by
  simp only [diskLocationBatch, MetaMap.write_cons, MetaMap.write_nil, BatchEntry.apply_put,
    BatchEntry.apply_delete]
  rw [AList.lookup_erase_ne (by simp), AList.lookup_insert]

theorem recordOf_diskLocationBatch :
    recordOf (db.write (diskLocationBatch x encoded location)) x =
      (decodeUnifiedInodeRecord encoded).toOption := by
  simp [recordOf, diskLocationBatch]

/-- A migration leaves the copies of its inode in agreement and others alone. -/
theorem LocationsAgree.of_migration (h : LocationsAgree db) {batch : WriteBatch}
    (hbatch : MigrationBatch x batch) : LocationsAgree (db.write batch) := by
  rcases hbatch with rfl | ⟨target, record, encoded, henc, rfl⟩
  · exact h
  intro id location hlook
  by_cases hid : id = x
  · subst hid
    rw [lookup_diskLocationBatch] at hlook
    cases hlook
    refine ⟨_, ?_, packs_applied target record⟩
    rw [recordOf_diskLocationBatch, decode_encode henc]
    rfl
  · rw [MetaMap.lookup_write_of_notMem (by simp [diskLocationBatch, BatchEntry.key, Ne.symm hid])]
      at hlook
    have hsame : recordOf (db.write (diskLocationBatch x encoded target)) id = recordOf db id := by
      rw [recordOf, recordOf,
        MetaMap.lookup_write_of_notMem (by simp [diskLocationBatch, BatchEntry.key, Ne.symm hid])]
    rw [hsame]
    exact h id location hlook

/-- An attribute update does, if the inode it rewrites packs the location. -/
theorem LocationsAgree.of_put (h : LocationsAgree db) {existing : Except String Bytes}
    {attr : InodeAttr} {payload : Bytes} (hpay : putInodePayload attr existing = .ok payload)
    (hread : ∀ location, db.lookup (.diskFileLocation x) = some location →
      ∃ data record, existing = .ok data ∧ decodeUnifiedInodeRecord data = .ok record ∧
        Packs record location) :
    LocationsAgree (db.insert (.inode x) payload) := by
  intro id location hlook
  rw [AList.lookup_insert_ne (by simp)] at hlook
  rw [recordOf_insert_inode]
  by_cases hid : id = x
  · subst hid
    obtain ⟨data, record, rfl, hdec, hpacks⟩ := hread location hlook
    obtain ⟨record', hdec', hpayload⟩ := putInodePayload_existing hpay
    rw [hdec] at hdec'
    cases hdec'
    exact ⟨_, by rw [if_pos rfl, hpayload]; rfl, hpacks.updated attr⟩
  · rw [if_neg hid]
    exact h id location hlook

end Batch

/-! ## Runs -/

variable {ι : Type} [DecidableEq ι]

/-- `PutInode` writes only if no migration of the inode committed since its read. -/
def Unmigrated (w : MdsWorld ι) (i : ι) (o : MdsOp) (_ : o.Res) : Prop :=
  ∀ id ∈ o.putInode?, ∀ e ∈ sinceLast i w.trace,
    .diskFileLocation id ∉ (writesOf e).map BatchEntry.key

instance (w : MdsWorld ι) (i : ι) (o : MdsOp) (r : o.Res) : Decidable (Unmigrated w i o r) :=
  inferInstanceAs (Decidable (∀ id ∈ o.putInode?, ∀ e ∈ sinceLast i w.trace,
    .diskFileLocation id ∉ (writesOf e).map BatchEntry.key))

section Runs

variable {calls : ι → LocationCall} {s₀ : MdsState ι} {w : MdsWorld ι} {pool : ι → Handler Unit}

/-- What `PutInode` read still packs the location when it writes. -/
theorem packs_of_read
    (h : Steps (mdsMachine Unmigrated) s₀ (fun i => (calls i).prog) w pool)
    (hbefore : ∀ {w₁ pool₁}, Steps (mdsMachine Unmigrated) s₀ (fun i => (calls i).prog) w₁ pool₁ →
      w₁.trace.length ≤ w.trace.length → LocationsAgree w₁.state.db)
    {i : ι} {id : UInt64} {h' : MdsHistory} {existing : Except String Bytes} {attr : InodeAttr}
    {payload : Bytes} (hlast : own i w.trace = h' ++ [⟨.get (.inode id), existing⟩])
    (hpay : putInodePayload attr existing = .ok payload)
    (hmay : ∀ e ∈ sinceLast i w.trace, .diskFileLocation id ∉ (writesOf e).map BatchEntry.key)
    {location : DiskFileLocation} (hlook : w.state.db.lookup (.diskFileLocation id) = some location) :
    ∃ data record, existing = .ok data ∧ decodeUnifiedInodeRecord data = .ok record ∧
      Packs record location := by
  obtain ⟨t₁, t₂, hsplit, -, hown⟩ := split_of_own hlast
  obtain ⟨w₁, pool₁, k, s, hsteps₁, rfl, hcall, hsem, -⟩ := h.before_event hsplit
  have hagree := hbefore hsteps₁ (by simp [hsplit])
  -- the full location is the one stored when the inode was read
  have hlook₁ : w₁.state.db.lookup (.diskFileLocation id) = some location := by
    rw [← hlook]
    symm
    refine Steps.lookup_eq h hsteps₁ hsplit fun e he => ?_
    rcases List.mem_cons.mp he with rfl | he
    · simp [writesOf]
    · refine hmay e ?_
      rw [hsplit, sinceLast_eq hown]
      exact he
  obtain ⟨record, hrec, hpacks⟩ := hagree id location hlook₁
  obtain ⟨data, hdata, hdec⟩ := recordOf_eq_some.mp hrec
  obtain ⟨-, hread⟩ := hsem
  rcases hread with hread | ⟨e, he, rfl⟩
  · exact ⟨data, record, hread.trans (MetaMap.read_eq_ok.mpr hdata), hdec, hpacks⟩
  · rw [putInodePayload, if_pos he] at hpay
    cases hpay

theorem locationsAgree_of_steps (h₀ : LocationsAgree s₀.db)
    (h : Steps (mdsMachine Unmigrated) s₀ (fun i => (calls i).prog) w pool) :
    LocationsAgree w.state.db := by
  refine h.invariant (fun w => LocationsAgree w.state.db) (fun i => (calls i).follows_prog) h₀ ?_
  intro w pool i o r s hsteps hbefore hrule hsem hmay
  have hdb : s.db = w.state.db.write (o.writes r) := MdsOp.Sem.db_eq hsem
  rw [World.push_state, hdb]
  have hagree := hbefore hsteps le_rfl
  cases o with
  | put k payload =>
      cases r with
      | error e => exact hagree
      | ok u =>
          cases k with
          | inode id =>
              obtain ⟨h', existing, attr, hlast, hpay⟩ := hrule
              exact hagree.of_put hpay fun location hlook =>
                packs_of_read hsteps hbefore hlast hpay (hmay _ rfl) hlook
          | _ => exact hrule.elim
  | writeBatchIfValueEquals k expected batch =>
      cases k with
      | inode id =>
          rcases r with e | (_ | _)
          · exact hagree
          · exact hagree
          · exact hagree.of_migration hrule
      | _ => exact hrule.elim
  | writeBatch batch => exact hrule.elim
  | _ => exact hagree

/-- Full locations are written by migrations. -/
theorem migration_of_write
    (h : Steps (mdsMachine Unmigrated) s₀ (fun i => (calls i).prog) w pool)
    {t₁ t₂ : List (MdsEvent ι)} {e : MdsEvent ι} (hsplit : w.trace = t₁ ++ e :: t₂) {id : UInt64}
    {location : DiskFileLocation} (hput : .put (.diskFileLocation id) location ∈ writesOf e) :
    ∃ encoded, writesOf e = diskLocationBatch id encoded location := by
  have hrule := h.rule_of_event (fun i => (calls i).follows_prog) hsplit
  obtain ⟨i, o, r⟩ := e
  cases o with
  | put k payload =>
      cases r with
      | error e => cases hput
      | ok u =>
          cases List.mem_singleton.mp hput
          exact hrule.elim
  | writeBatchIfValueEquals k expected batch =>
      cases k with
      | inode x =>
          rcases r with e | (_ | _)
          · cases hput
          · cases hput
          · rcases hrule with rfl | ⟨target, record, encoded, -, rfl⟩
            · cases hput
            · obtain ⟨rfl, rfl⟩ : id = x ∧ location = target := by
                simpa [writesOf, MdsOp.writes, diskLocationBatch] using hput
              exact ⟨encoded, rfl⟩
      | _ => exact hrule.elim
  | writeBatch batch => exact hrule.elim
  | _ => cases hput

/-- The two copies of a location agree in every state, and the last migration of
    an inode to commit stays in force. -/
theorem migrations_stay (h₀ : LocationsAgree s₀.db)
    (h : Steps (mdsMachine Unmigrated) s₀ (fun i => (calls i).prog) w pool) :
    LocationsAgree w.state.db ∧
    ∀ t₁ e t₂ id location, w.trace = t₁ ++ e :: t₂ →
      .put (.diskFileLocation id) location ∈ writesOf e →
      (∀ e' ∈ t₂, .diskFileLocation id ∉ (writesOf e').map BatchEntry.key) →
      w.state.db.lookup (.diskFileLocation id) = some location ∧
        ∃ record, recordOf w.state.db id = some record ∧ Packs record location := by
  have hagree := locationsAgree_of_steps h₀ h
  refine ⟨hagree, fun t₁ e t₂ id location hsplit hput hkeep => ?_⟩
  suffices hlook : w.state.db.lookup (.diskFileLocation id) = some location from
    ⟨hlook, hagree id location hlook⟩
  obtain ⟨encoded, hbatch⟩ := migration_of_write h hsplit hput
  rw [Steps.db_eq h, hsplit, List.flatMap_append, List.flatMap_cons, MetaMap.write_append,
    MetaMap.write_append, MetaMap.lookup_write_of_notMem, hbatch, lookup_diskLocationBatch]
  intro e' he' hkey
  obtain ⟨ev, hev, he'⟩ := List.mem_flatMap.mp he'
  exact hkeep ev hev (List.mem_map.mpr ⟨e', he', hkey⟩)

end Runs

def firstDisk : DiskFileLocation := { nodeId := ofAscii "node-real-01", diskId := ofAscii "disk-01" }

def secondDisk : DiskFileLocation := { nodeId := ofAscii "node-real-02", diskId := ofAscii "disk-02" }

/-- The sample file with its full location. -/
def diskState : MdsState Bool :=
  { sampleState with db := sampleState.db.insert (.diskFileLocation 2) firstDisk }

/-- A node registry that admits and has committed every node. -/
def openRegistry : Oracle :=
  { silentOracle with
    answer
      | .isWriteAdmitted _ => true
      | .getCommittedNode _ => some { executionMode := .physical, instanceGeneration := 1 }
      | q => silentOracle.answer q }

/-- An attribute update and a migration of the same file. -/
def updateAndMigration : Bool → LocationCall
  | false => .updateInodeStat { inodeId := 2, fileSize := 20, version := 6, mtime := 1 }
  | true => .commitFileMigration
      { migrationId := ofAscii "m", inodeId := 2, expectedSource := some firstDisk,
        target := some secondDisk }

theorem diskState_agrees : LocationsAgree diskState.db := by
  have hstored : recordOf diskState.db 2 = some (storedForm sampleRecord) := by decide +kernel
  intro id location hlook
  by_cases hid : id = 2
  · subst hid
    obtain rfl : location = firstDisk := by
      rw [diskState, AList.lookup_insert] at hlook
      exact (Option.some.inj hlook).symm
    exact ⟨_, hstored, by decide +kernel, by decide +kernel, by decide +kernel⟩
  · rw [diskState, AList.lookup_insert_ne (by simpa using hid), sampleState,
      AList.lookup_insert_ne (by simp)] at hlook
    cases hlook

/-- The migration commits between the check and the write of the update. -/
theorem migrations_stay_before_read : ∃ w pool,
    Steps (mdsMachine Unmigrated) diskState (fun i => (updateAndMigration i).prog) w pool ∧
      w.state.db.lookup (.diskFileLocation 2) = some secondDisk ∧
      (recordOf w.state.db 2).map (fun r => (r.diskNodeId, r.versionNo)) = some (2, 6) ∧
      LocationsAgree w.state.db := by
  have hrun : (schedule openRegistry Unmigrated diskState (fun i => (updateAndMigration i).prog)
      (false :: List.replicate 10 true ++ [false, false, false])).map
        (fun p => decide (p.1.state.db.lookup (.diskFileLocation 2) = some secondDisk ∧
          (recordOf p.1.state.db 2).map (fun r => (r.diskNodeId, r.versionNo)) = some (2, 6))) =
      some true := by
    decide +kernel
  obtain ⟨⟨w, pool⟩, hw, hdec⟩ := Option.map_eq_some_iff.mp hrun
  obtain ⟨hfull, hpacked⟩ := of_decide_eq_true hdec
  exact ⟨w, pool, steps_of_schedule hw, hfull, hpacked,
    (migrations_stay diskState_agrees (steps_of_schedule hw)).1⟩

/-- The migration commits between the read and the write of `PutInode`, which
    brings the old packed location back. -/
theorem update_undoes_migration : ∃ w pool,
    LocationsAgree diskState.db ∧
    Steps (mdsMachine fun _ _ _ _ => True) diskState (fun i => (updateAndMigration i).prog) w pool ∧
      w.state.db.lookup (.diskFileLocation 2) = some secondDisk ∧
      (recordOf w.state.db 2).map (·.diskNodeId) = some 1 ∧ ¬ LocationsAgree w.state.db := by
  have hrun : (schedule openRegistry (fun _ _ _ _ => True) diskState
      (fun i => (updateAndMigration i).prog)
      ([false, false, false] ++ List.replicate 10 true ++ [false])).map
        (fun p => decide (p.1.state.db.lookup (.diskFileLocation 2) = some secondDisk ∧
          (recordOf p.1.state.db 2).map (·.diskNodeId) = some 1)) = some true := by
    decide +kernel
  obtain ⟨⟨w, pool⟩, hw, hdec⟩ := Option.map_eq_some_iff.mp hrun
  obtain ⟨hfull, hpacked⟩ := of_decide_eq_true hdec
  refine ⟨w, pool, diskState_agrees, steps_of_schedule hw, hfull, hpacked, fun hagree => ?_⟩
  obtain ⟨record, hrec, hpacks⟩ := hagree 2 secondDisk hfull
  have hderived : (applyDiskLocationToUnifiedRecord secondDisk record).diskNodeId =
      (tryParseTrailingUint64 secondDisk.nodeId).getD 0 := rfl
  rw [hrec, Option.map_some, hpacks.node, hderived] at hpacked
  exact absurd hpacked (by decide +kernel)

end Zb.Mds
