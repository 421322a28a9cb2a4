-- SUMMARY: Entries and records mirror each other in every run, and a failed call changes neither.
import ZBStorage.Mds.Storage.NamespaceMachine

/-!
# Entries and back-pointers

A record repeats the parent and the name of the entry that leads to it. `Create`,
`Rename` and `Remove` write both sides in one batch. `PutInode` writes the record alone:
it keeps the stored parent, but stores the name of the attributes it is given, so
attributes read before a rename bring the old name back.
-/

namespace Zb.Mds

open Zb.Rpc Bytes LabelledGraph

structure IndexConsistent (db : MetaMap) : Prop where
  entry : ∀ parent name v, db.lookup (.dentry parent name) = some v →
    ∃ id record, dentryOf db parent name = some id ∧ recordOf db id = some record ∧
      record.parentInodeId = parent ∧ record.fileName = name
  referenced_once : ∀ id data, db.lookup (.inode id) = some data → id ≠ kRootInodeId →
    ∃! e : UInt64 × Bytes, dentryOf db e.1 e.2 = some id

/-- Both maps of the namespace are unchanged. -/
structure SameNamespace (db db' : MetaMap) : Prop where
  dentries : ∀ parent name, db'.lookup (.dentry parent name) = db.lookup (.dentry parent name)
  inodes : ∀ id, db'.lookup (.inode id) = db.lookup (.inode id)

/-- The attributes differ in their stat fields only. -/
def SameIdentity (a b : InodeAttr) : Prop :=
  a.inodeId = b.inodeId ∧ a.type = b.type ∧ a.fileName = b.fileName ∧
    a.storageTier = b.storageTier ∧ a.diskNodeId = b.diskNodeId ∧ a.diskId = b.diskId ∧
    a.diskNodeIsVirtual = b.diskNodeIsVirtual ∧ a.opticalNodeId = b.opticalNodeId ∧
    a.opticalDiskId = b.opticalDiskId ∧ a.opticalImageId = b.opticalImageId

instance (a b : InodeAttr) : Decidable (SameIdentity a b) := by
  unfold SameIdentity
  infer_instance

/-- Attributes are written to the inode they were read of. -/
def NsCall.FromHeld (c : NsCall) (s : NsState) : Prop :=
  match c with
  | .putInode id attr => ∃ a ∈ s.held, a.1 = id ∧ SameIdentity attr a.2
  | _ => True

/-- The calls that keep entries and records in step: an allocation does not wrap
    the counter, and attributes are written to an existing inode and carry its
    stored name or none. -/
def NsCall.KeepsIndex (c : NsCall) (s : NsState) : Prop :=
  match c with
  | .allocateInodeId _ | .reserveCreate _ _ => CounterBelowMax s.db
  | .putInode id attr =>
      ∃ record ∈ recordOf s.db id, attr.fileName = [] ∨ attr.fileName = record.fileName
  | _ => True

instance (c : NsCall) (s : NsState) : Decidable (c.FromHeld s) :=
  match c with
  | .putInode id attr =>
      inferInstanceAs (Decidable (∃ a ∈ s.held, a.1 = id ∧ SameIdentity attr a.2))
  | .allocateInodeId _ | .reserveCreate _ _ | .commit _ _ | .cancel _ | .rename _ _ | .remove _ _
  | .getInode _ => inferInstanceAs (Decidable True)

instance (c : NsCall) (s : NsState) : Decidable (c.KeepsIndex s) :=
  match c with
  | .allocateInodeId _ | .reserveCreate _ _ => inferInstanceAs (Decidable (CounterBelowMax s.db))
  | .putInode id attr => inferInstanceAs (Decidable
      (∃ record ∈ recordOf s.db id, attr.fileName = [] ∨ attr.fileName = record.fileName))
  | .commit _ _ | .cancel _ | .rename _ _ | .remove _ _ | .getInode _ =>
      inferInstanceAs (Decidable True)

/-! ## Steps -/

/-- Back-pointers and existence of an entry; uniqueness is part of the common
    invariant. -/
structure IndexCore (db : MetaMap) : Prop where
  back : ∀ parent name id record, dentryOf db parent name = some id →
    recordOf db id = some record → record.parentInodeId = parent ∧ record.fileName = name
  referenced : ∀ id data, db.lookup (.inode id) = some data → id ≠ kRootInodeId →
    ∃ parent name, dentryOf db parent name = some id

theorem IndexCore.consistent {db : MetaMap} (h : IndexCore db) (hlinked : Linked db) :
    IndexConsistent db := by
  constructor
  · intro parent name v hv
    obtain ⟨id, record, hd, hr⟩ := hlinked.target _ _ _ hv
    exact ⟨id, record, hd, hr, h.back _ _ _ _ hd hr⟩
  · intro id data hdata hne
    obtain ⟨parent, name, hd⟩ := h.referenced id data hdata hne
    refine ⟨(parent, name), hd, ?_⟩
    rintro ⟨parent', name'⟩ hd'
    obtain ⟨rfl, rfl⟩ := hlinked.arborescence.in_unique hd' hd
    rfl

section Steps

variable {db : MetaMap}

theorem IndexCore.of_create {path : Bytes} {attr : InodeAttr} {batch : WriteBatch}
    (h : IndexCore db) (hlinked : Linked db) (hunused : db.lookup (.inode attr.inodeId) = none)
    (hc : CreateEffect db path attr batch) : IndexCore (db.write batch) := by
  obtain ⟨parent, name, payload, -, habsent, -, -, hpay, rfl⟩ := hc
  obtain ⟨record, hdec, hparent, hname, -⟩ := createPayload_ok hpay
  constructor
  · intro p n id r hd hr
    rw [dentryOf_createBatch] at hd
    rw [recordOf_createBatch] at hr
    split at hd
    · next hpn =>
        rw [if_pos (Option.some.inj hd).symm, hdec] at hr
        cases hr
        exact ⟨hparent.trans hpn.1.symm, hname.trans hpn.2.symm⟩
    · have hne : id ≠ attr.inodeId := by
        rintro rfl
        obtain ⟨r', hr'⟩ := hlinked.target_of_dentryOf hd
        exact lookup_inode_of_recordOf hr' hunused
      rw [if_neg hne] at hr
      exact h.back p n id r hd hr
  · intro id data hdata hroot
    by_cases hx : id = attr.inodeId
    · exact ⟨parent, name, by rw [dentryOf_createBatch, if_pos ⟨rfl, rfl⟩, hx]⟩
    · obtain ⟨p, n, hd⟩ := h.referenced id data (by simpa [createBatch, hx] using hdata) hroot
      refine ⟨p, n, ?_⟩
      rw [dentryOf_createBatch, if_neg, hd]
      rintro ⟨rfl, rfl⟩
      rw [dentryOf, habsent] at hd
      cases hd

theorem IndexCore.of_rename {oldPath newPath : Bytes} {batch : WriteBatch} (h : IndexCore db)
    (hlinked : Linked db) (hc : RenameEffect db oldPath newPath batch) :
    IndexCore (db.write batch) := by
  obtain ⟨oldParent, oldName, newParent, newName, inode, data, payload, -, -, hsource, habsent,
    hdata, hpay, rfl⟩ := hc
  obtain ⟨old, new, -, hdec, hparent, hname, -⟩ := renamePayload_ok hpay
  constructor
  · intro p n id r hd hr
    rw [dentryOf_renameBatch] at hd
    rw [recordOf_renameBatch] at hr
    split at hd
    · next hpn =>
        rw [if_pos (Option.some.inj hd).symm, hdec] at hr
        cases hr
        exact ⟨hparent.trans hpn.1.symm, hname.trans hpn.2.symm⟩
    · split at hd
      · cases hd
      · next hold =>
          have hne : id ≠ inode := by
            rintro rfl
            exact hold (hlinked.arborescence.in_unique hd hsource)
          rw [if_neg hne] at hr
          exact h.back p n id r hd hr
  · intro id data' hdata' hroot
    by_cases hx : id = inode
    · exact ⟨newParent, newName, by rw [dentryOf_renameBatch, if_pos ⟨rfl, rfl⟩, hx]⟩
    · obtain ⟨p, n, hd⟩ := h.referenced id data' (by simpa [renameBatch, hx] using hdata') hroot
      refine ⟨p, n, ?_⟩
      rw [dentryOf_renameBatch, if_neg, if_neg, hd]
      · rintro ⟨rfl, rfl⟩
        exact hx (Option.some.inj (hd.symm.trans hsource))
      · rintro ⟨rfl, rfl⟩
        rw [dentryOf, habsent] at hd
        cases hd

theorem IndexCore.of_remove {path : Bytes} {batch : WriteBatch} (h : IndexCore db)
    (hc : RemoveEffect db path batch) : IndexCore (db.write batch) := by
  obtain ⟨parent, name, inode, record, -, hsource, -, -, rfl⟩ := hc
  constructor
  · intro p n id r hd hr
    rw [dentryOf_removeBatch] at hd
    rw [recordOf_removeBatch] at hr
    split at hd
    · cases hd
    · split at hr
      · cases hr
      · exact h.back p n id r hd hr
  · intro id data hdata hroot
    by_cases hx : id = inode
    · simp [removeBatch, hx] at hdata
    · obtain ⟨p, n, hd⟩ := h.referenced id data (by simpa [removeBatch, hx] using hdata) hroot
      refine ⟨p, n, ?_⟩
      rw [dentryOf_removeBatch, if_neg, hd]
      rintro ⟨rfl, rfl⟩
      exact hx (Option.some.inj (hd.symm.trans hsource))

/-- A write of attributes keeps the stored parent, and the stored name if it is
    given that name or none. -/
theorem updatedRecord_names {attr : InodeAttr} {record : UnifiedInodeRecord}
    (h : attr.fileName = [] ∨ attr.fileName = record.fileName) :
    (storedForm (updatedRecord attr record)).parentInodeId = record.parentInodeId ∧
      (storedForm (updatedRecord attr record)).fileName = record.fileName := by
  refine ⟨rfl, ?_⟩
  show (if attr.fileName ≠ [] ∨ record.fileName = [] then attr.fileName else record.fileName) = _
  split
  · next hnamed =>
      rcases h with hempty | hsame
      · rcases hnamed with hne | hstored
        · exact absurd hempty hne
        · rw [hempty, hstored]
      · exact hsame
  · rfl

theorem IndexCore.of_put {id : UInt64} {attr : InodeAttr} {record : UnifiedInodeRecord}
    {data payload : Bytes} (h : IndexCore db) (hdata : db.lookup (.inode id) = some data)
    (hrecord : decodeUnifiedInodeRecord data = .ok record)
    (hname : attr.fileName = [] ∨ attr.fileName = record.fileName)
    (hpay : putInodePayload attr (.ok data) = .ok payload) :
    IndexCore (db.insert (.inode id) payload) := by
  obtain ⟨record', hdec', hdec⟩ := putInodePayload_existing hpay
  obtain rfl : record' = record := Except.ok.inj (hdec'.symm.trans hrecord)
  constructor
  · intro p n x r hd hr
    rw [dentryOf_insert_inode] at hd
    rw [recordOf_insert_inode] at hr
    split at hr
    · next hx =>
        rw [hdec] at hr
        cases hr
        obtain ⟨hparent, hfile⟩ := updatedRecord_names hname
        obtain ⟨hp, hn⟩ := h.back p n x record' hd
          (recordOf_eq_some.mpr ⟨data, by rw [hx]; exact hdata, hrecord⟩)
        exact ⟨hparent.trans hp, hfile.trans hn⟩
    · exact h.back p n x r hd hr
  · intro x data' hdata' hroot
    have hstored : ∃ d, db.lookup (.inode x) = some d := by
      by_cases hx : x = id
      · exact ⟨data, by rw [hx]; exact hdata⟩
      · exact ⟨data', by simpa [hx] using hdata'⟩
    obtain ⟨d, hd⟩ := hstored
    obtain ⟨p, n, hentry⟩ := h.referenced x d hd hroot
    exact ⟨p, n, by rw [dentryOf_insert_inode, hentry]⟩

theorem IndexCore.of_count {v : Bytes} (h : IndexCore db) : IndexCore (db.insert .nextInode v) := by
  constructor
  · intro p n id r hd hr
    exact h.back p n id r (by simpa using hd) (by simpa using hr)
  · intro id data hdata hroot
    obtain ⟨p, n, hd⟩ := h.referenced id data (by simpa using hdata) hroot
    exact ⟨p, n, by simpa using hd⟩

end Steps

/-- A call that is not answered positively leaves both maps alone. -/
theorem NsCall.sameNamespace_of_failed {c : NsCall} {s s' : NsState} (h : c.Step s false s') :
    SameNamespace s.db s'.db := by
  have heffect := NsCall.effect_of_step h
  generalize s'.db = db', s'.reservations = reservations' at heffect
  cases heffect with
  | failed => exact ⟨fun _ _ => rfl, fun _ => rfl⟩
  | exhausted => exact ⟨fun _ _ => by simp, fun _ => by simp⟩

/-! ## Runs -/

theorem RootState.indexCore {s : NsState} (h : RootState s) : IndexCore s.db := by
  constructor
  · intro parent name id record hd
    rw [dentryOf, h.dentries] at hd
    cases hd
  · intro id data hdata hroot
    exact absurd (h.inodes id (by rw [hdata]; exact Option.some_ne_none data)) hroot

theorem IndexCore.step {s s' : NsState} {c : NsCall} {ok : Bool} (h : IndexCore s.db)
    (hbase : s.Base) (hstep : c.Step s ok s') (hkeeps : c.KeepsIndex s) : IndexCore s'.db := by
  have heffect := NsCall.effect_of_step hstep
  generalize s'.db = db', s'.reservations = reservations' at heffect
  cases heffect with
  | failed => exact h
  | read => exact h
  | count => exact h.of_count
  | reserve => exact h.of_count
  | exhausted => exact h.of_count
  | @commit n attr c batch hc hfin hid htype he =>
      exact h.of_create hbase.linked
        (hid ▸ hbase.fresh.unused c (List.mem_of_getElem? hc) hfin) he
  | cancel => exact h
  | rename he => exact h.of_rename hbase.linked he
  | remove he => exact h.of_remove he
  | put hpay =>
      obtain ⟨record, hrecord, hname⟩ := hkeeps
      obtain ⟨data, hdata, hdec⟩ := recordOf_eq_some.mp hrecord
      rw [MetaMap.read_eq_ok.mpr hdata] at hpay
      exact h.of_put hdata hdec hname hpay

theorem NsCall.ordinary_of_keepsIndex {c : NsCall} {s : NsState} (h : c.KeepsIndex s) :
    c.Ordinary s := by
  cases c
  case putInode id attr =>
    obtain ⟨record, hrecord, -⟩ := h
    exact lookup_inode_of_recordOf hrecord
  all_goals exact h

/-- In every state of a run entries and records mirror each other, and a call
    that fails there changes neither. -/
theorem indexConsistent_of_run {s₀ s : NsState} (hroot : RootState s₀)
    (hrun : NsRun (fun c s => c.FromHeld s ∧ c.KeepsIndex s) s₀ s) :
    IndexConsistent s.db ∧
      ∀ (c : NsCall) (s' : NsState), c.Step s false s' → SameNamespace s.db s'.db := by
  suffices h : s.Base ∧ IndexCore s.db from
    ⟨h.2.consistent h.1.linked, fun c s' => NsCall.sameNamespace_of_failed⟩
  induction hrun with
  | start => exact ⟨hroot.base, hroot.indexCore⟩
  | step _ hallowed hstep ih =>
      exact ⟨ih.1.step hstep (NsCall.ordinary_of_keepsIndex hallowed.2),
        ih.2.step ih.1 hstep hallowed.2⟩

/-- A file is created, read, renamed, read again and written back. -/
def writeBackScript : List NsCall :=
  [.reserveCreate (ofAscii "/a") .file, .commit 0 { inodeId := 2 },
    .rename (ofAscii "/a") (ofAscii "/b"), .getInode 2,
    .putInode 2 { inodeId := 2, fileName := ofAscii "b", size := 7 }]

theorem indexConsistent_after_writeBack :
    ∃ s, NsRun (fun c s => c.FromHeld s ∧ c.KeepsIndex s) rootStore s ∧
      dentryOf s.db 1 (ofAscii "b") = some 2 ∧ IndexConsistent s.db := by
  have hscript : (runScript silentOracle (fun c s => decide (c.FromHeld s ∧ c.KeepsIndex s))
      writeBackScript rootStore).map (fun s => dentryOf s.db 1 (ofAscii "b")) = some (some 2) := by
    decide +kernel
  obtain ⟨s, hs, hentry⟩ := Option.map_eq_some_iff.mp hscript
  have hrun : NsRun (fun c s => c.FromHeld s ∧ c.KeepsIndex s) rootStore s :=
    run_of_runScript (fun c s h => of_decide_eq_true h) .start hs
  exact ⟨s, hrun, hentry, (indexConsistent_of_run rootStore_rootState hrun).1⟩

/-- A file is created, read, renamed, and its attributes written back as read. -/
def staleNameScript : List NsCall :=
  [.reserveCreate (ofAscii "/a") .file, .commit 0 { inodeId := 2 }, .getInode 2,
    .rename (ofAscii "/a") (ofAscii "/b"),
    .putInode 2 { inodeId := 2, fileName := ofAscii "a", size := 7 }]

/-- The write brings the old name back into the record of the renamed file. -/
theorem putInode_restores_old_name :
    ∃ s, RootState rootStore ∧ NsRun NsCall.FromHeld rootStore s ∧
      dentryOf s.db 1 (ofAscii "b") = some 2 ∧
      (recordOf s.db 2).map (·.fileName) = some (ofAscii "a") ∧ ¬ IndexConsistent s.db := by
  have hscript : (runScript silentOracle (fun c s => decide (c.FromHeld s))
      staleNameScript rootStore).map
        (fun s => (dentryOf s.db 1 (ofAscii "b"), (recordOf s.db 2).map (·.fileName))) =
        some (some 2, some (ofAscii "a")) := by
    decide +kernel
  obtain ⟨s, hs, hstate⟩ := Option.map_eq_some_iff.mp hscript
  obtain ⟨hentry, hname⟩ := Prod.mk.inj hstate
  have hrun : NsRun NsCall.FromHeld rootStore s :=
    run_of_runScript (fun c s h => of_decide_eq_true h) .start hs
  refine ⟨s, rootStore_rootState, hrun, hentry, hname, fun hconsistent => ?_⟩
  obtain ⟨v, hv, -⟩ := dentryOf_eq_some.mp hentry
  obtain ⟨id, record, hid, hrecord, -, hback⟩ := hconsistent.entry _ _ _ hv
  obtain rfl : id = 2 := Option.some.inj (hid.symm.trans hentry)
  rw [hrecord, Option.map_some, hback] at hname
  exact absurd hname (by decide)

end Zb.Mds
