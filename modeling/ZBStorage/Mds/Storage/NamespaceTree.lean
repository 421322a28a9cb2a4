-- SUMMARY: The namespace is a tree in every run that does not move a directory below itself.
import ZBStorage.Mds.Storage.NamespaceMachine

/-!
# The namespace is a tree

`Rename` resolves both parents and checks that the target name is free. It does
not check that the new parent is a directory, nor that it lies outside the moved
subtree, so these are conditions on the calls here. Under them the directory
entries form a tree over the stored inodes.
-/

namespace Zb.Mds

open Zb.Rpc Bytes LabelledGraph

structure TreeShape (db : MetaMap) : Prop where
  parent_dir : ∀ parent name v, db.lookup (.dentry parent name) = some v →
    ∃ record, recordOf db parent = some record ∧ IsDir record
  reachable : ∀ id data, db.lookup (.inode id) = some data →
    Reach (dentryOf db) kRootInodeId id
  acyclic : ∀ id, ¬ Relation.TransGen (Edge (dentryOf db)) id id

/-- Attributes are written to inodes that exist. -/
def NsCall.OnExisting (c : NsCall) (s : NsState) : Prop :=
  match c with
  | .putInode id _ => s.db.lookup (.inode id) ≠ none
  | _ => True

/-- The calls that keep the tree: an allocation does not wrap the counter, a
    rename moves to a directory that is not at or below the moved path, and a
    directory with entries stays a directory. -/
def NsCall.KeepsTree (c : NsCall) (s : NsState) : Prop :=
  match c with
  | .allocateInodeId _ | .reserveCreate _ _ => CounterBelowMax s.db
  | .rename oldPath newPath =>
      ¬ splitPath oldPath <+: parentParts newPath ∧
      ∀ parent ∈ walk (dentryOf s.db) kRootInodeId (parentParts newPath),
        ∃ record ∈ recordOf s.db parent, IsDir record
  | .putInode id attr => s.db.dentries id ≠ [] → attr.type.toUInt32.toUInt8 = 1
  | _ => True

instance (c : NsCall) (s : NsState) : Decidable (c.OnExisting s) :=
  match c with
  | .putInode id _ => inferInstanceAs (Decidable (s.db.lookup (.inode id) ≠ none))
  | .allocateInodeId _ | .reserveCreate _ _ | .commit _ _ | .cancel _ | .rename _ _ | .remove _ _
  | .getInode _ => inferInstanceAs (Decidable True)

instance (c : NsCall) (s : NsState) : Decidable (c.KeepsTree s) :=
  match c with
  | .allocateInodeId _ | .reserveCreate _ _ => inferInstanceAs (Decidable (CounterBelowMax s.db))
  | .rename oldPath newPath => inferInstanceAs (Decidable (¬ splitPath oldPath <+: parentParts newPath ∧
      ∀ parent ∈ walk (dentryOf s.db) kRootInodeId (parentParts newPath),
        ∃ record ∈ recordOf s.db parent, IsDir record))
  | .putInode id attr =>
      inferInstanceAs (Decidable (s.db.dentries id ≠ [] → attr.type.toUInt32.toUInt8 = 1))
  | .commit _ _ | .cancel _ | .remove _ _ | .getInode _ => inferInstanceAs (Decidable True)

/-! ## Steps -/

/-- The two conditions of the shape from which the third follows. -/
structure TreeCore (db : MetaMap) : Prop where
  parent_dir : ∀ parent name v, db.lookup (.dentry parent name) = some v →
    ∃ record, recordOf db parent = some record ∧ IsDir record
  reachable : ∀ id data, db.lookup (.inode id) = some data →
    Reach (dentryOf db) kRootInodeId id

theorem TreeCore.shape {db : MetaMap} (h : TreeCore db) (hlinked : Linked db) : TreeShape db := by
  refine ⟨h.parent_dir, h.reachable, fun id hcycle => ?_⟩
  obtain ⟨b, -, l, hl⟩ := Relation.TransGen.tail'_iff.mp hcycle
  obtain ⟨record, hrecord⟩ := hlinked.target_of_dentryOf hl
  obtain ⟨data, hdata, -⟩ := recordOf_eq_some.mp hrecord
  exact hlinked.arborescence.acyclic (h.reachable _ _ hdata) hcycle

section Steps

variable {db : MetaMap}

theorem TreeCore.of_create {path : Bytes} {attr : InodeAttr} {batch : WriteBatch} (h : TreeCore db)
    (hunused : db.lookup (.inode attr.inodeId) = none) (hc : CreateEffect db path attr batch) :
    TreeCore (db.write batch) := by
  obtain ⟨parent, name, payload, -, habsent, ⟨record, hrecord, hdir⟩, -, -, rfl⟩ := hc
  have hne {x r} (hx : recordOf db x = some r) : x ≠ attr.inodeId := by
    rintro rfl
    exact lookup_inode_of_recordOf hx hunused
  have hgrow {a l b} (hd : dentryOf db a l = some b) :
      dentryOf (db.write (createBatch parent name attr.inodeId payload)) a l = some b := by
    rw [dentryOf_createBatch, if_neg, hd]
    rintro ⟨rfl, rfl⟩
    rw [dentryOf, habsent] at hd
    cases hd
  have hparent : Reach (dentryOf (db.write (createBatch parent name attr.inodeId payload)))
      kRootInodeId parent := by
    obtain ⟨data, hdata, -⟩ := recordOf_eq_some.mp hrecord
    exact (h.reachable _ _ hdata).mono hgrow
  constructor
  · intro p n v hv
    by_cases hpn : p = parent ∧ n = name
    · refine ⟨record, ?_, hdir⟩
      rw [hpn.1, recordOf_createBatch, if_neg (hne hrecord), hrecord]
    · obtain ⟨r, hr, hrdir⟩ := h.parent_dir p n v
        (by simpa [createBatch, hpn] using hv)
      exact ⟨r, by rw [recordOf_createBatch, if_neg (hne hr), hr], hrdir⟩
  · intro id data hdata
    by_cases hx : id = attr.inodeId
    · rw [hx]
      exact hparent.tail ⟨name, by simp⟩
    · exact (h.reachable _ data (by simpa [createBatch, hx] using hdata)).mono hgrow

theorem TreeCore.of_rename {oldPath newPath : Bytes} {batch : WriteBatch} (h : TreeCore db)
    (hlinked : Linked db) (hoff : ¬ splitPath oldPath <+: parentParts newPath)
    (hnewdir : ∀ parent ∈ walk (dentryOf db) kRootInodeId (parentParts newPath),
      ∃ record ∈ recordOf db parent, IsDir record)
    (hc : RenameEffect db oldPath newPath batch) : TreeCore (db.write batch) := by
  obtain ⟨oldParent, oldName, newParent, newName, inode, data, payload, hold, hnew, hsource,
    habsent, hdata, hpay, rfl⟩ := hc
  obtain ⟨old, new, hdecOld, hdecNew, -, -, htype⟩ := renamePayload_ok hpay
  have hkeep {a l b} (hcut : ¬ (a = oldParent ∧ l = oldName)) (hd : dentryOf db a l = some b) :
      dentryOf (db.write (renameBatch oldParent oldName newParent newName inode payload)) a l =
        some b := by
    rw [dentryOf_renameBatch, if_neg, if_neg hcut, hd]
    rintro ⟨rfl, rfl⟩
    rw [dentryOf, habsent] at hd
    cases hd
  -- the walk to the new parent does not go through the moved entry
  have hparent : Reach
      (dentryOf (db.write (renameBatch oldParent oldName newParent newName inode payload)))
      kRootInodeId newParent := by
    refine walk_reach_of_avoids (p := oldParent) (n := oldName) hkeep hnew.parent ?_
    intro ks hinitial hks
    have hsame : ks = parentParts oldPath := hlinked.arborescence.walk_unique hks hold.parent
    exact hoff (by rwa [hold.parts, ← hsame])
  have htyped {x r} (hr : recordOf db x = some r) (hdir : IsDir r) : ∃ r,
      recordOf (db.write (renameBatch oldParent oldName newParent newName inode payload)) x =
        some r ∧ IsDir r := by
    rw [recordOf_renameBatch]
    split
    · next hx =>
        obtain ⟨data', hdata', hdec⟩ := recordOf_eq_some.mp hr
        rw [hx] at hdata'
        obtain rfl : data' = data := Option.some.inj (hdata'.symm.trans hdata)
        obtain rfl : old = r := Except.ok.inj (hdecOld.symm.trans hdec)
        exact ⟨new, by simp [hdecNew, Except.toOption], htype.trans hdir⟩
    · exact ⟨r, hr, hdir⟩
  constructor
  · intro p n v hv
    by_cases hpn : p = newParent ∧ n = newName
    · obtain ⟨r, hr, hdir⟩ := hnewdir newParent hnew.parent
      rw [hpn.1]
      exact htyped hr hdir
    · have hv' : ¬ (p = oldParent ∧ n = oldName) ∧ db.lookup (.dentry p n) = some v := by
        simpa [renameBatch, hpn] using hv
      obtain ⟨r, hr, hdir⟩ := h.parent_dir _ _ _ hv'.2
      exact htyped hr hdir
  · intro id data' hdata'
    have hreach : Reach (dentryOf db) kRootInodeId id := by
      by_cases hx : id = inode
      · exact hx ▸ h.reachable _ _ hdata
      · exact h.reachable _ data' (by simpa [renameBatch, hx] using hdata')
    exact Reach.of_move hkeep hsource (by rw [dentryOf_renameBatch, if_pos ⟨rfl, rfl⟩]) hparent hreach

theorem TreeCore.of_remove {path : Bytes} {batch : WriteBatch} (h : TreeCore db)
    (hc : RemoveEffect db path batch) : TreeCore (db.write batch) := by
  obtain ⟨parent, name, inode, record, -, hsource, hrecord, hempty, rfl⟩ := hc
  -- a directory was checked to be empty, and entries lie below directories only
  have hleaf (n : Bytes) : db.lookup (.dentry inode n) = none := by
    by_contra hne
    obtain ⟨v, hv⟩ := Option.ne_none_iff_exists'.mp hne
    obtain ⟨r, hr, hdir⟩ := h.parent_dir _ _ _ hv
    obtain rfl : record = r := Option.some.inj (hrecord.symm.trans hr)
    exact hne (hempty hdir n)
  have hkeep {a l b} (hcut : ¬ (a = parent ∧ l = name)) (hd : dentryOf db a l = some b) :
      dentryOf (db.write (removeBatch parent name inode)) a l = some b := by
    rw [dentryOf_removeBatch, if_neg hcut, hd]
  constructor
  · intro p n v hv
    have hv' : ¬ (p = parent ∧ n = name) ∧ db.lookup (.dentry p n) = some v := by
      simpa [removeBatch] using hv
    obtain ⟨r, hr, hdir⟩ := h.parent_dir _ _ _ hv'.2
    have hp : p ≠ inode := by
      rintro rfl
      rw [hleaf n] at hv'
      cases hv'.2
    exact ⟨r, by rw [recordOf_removeBatch, if_neg hp, hr], hdir⟩
  · intro id data hdata
    by_cases hx : id = inode
    · simp [removeBatch, hx] at hdata
    · have hreach := h.reachable id data (by simpa [removeBatch, hx] using hdata)
      exact hreach.of_cut hkeep hsource (fun l => by rw [dentryOf, hleaf]; rfl) hx

theorem TreeCore.of_put {id : UInt64} {attr : InodeAttr} {data payload : Bytes} (h : TreeCore db)
    (hdata : db.lookup (.inode id) = some data)
    (htype : db.dentries id ≠ [] → attr.type.toUInt32.toUInt8 = 1)
    (hpay : putInodePayload attr (.ok data) = .ok payload) :
    TreeCore (db.insert (.inode id) payload) := by
  obtain ⟨record, -, hdec⟩ := putInodePayload_existing hpay
  have hsame : dentryOf (db.insert (.inode id) payload) = dentryOf db := by
    funext q m
    exact dentryOf_insert_inode
  constructor
  · intro p n v hv
    have hv' : db.lookup (.dentry p n) = some v := by simpa using hv
    by_cases hp : p = id
    · subst hp
      refine ⟨storedForm (updatedRecord attr record), by simp [hdec, Except.toOption], ?_⟩
      exact htype (List.ne_nil_of_mem (MetaMap.mem_dentries.mpr hv'))
    · obtain ⟨r, hr, hdir⟩ := h.parent_dir _ _ _ hv'
      exact ⟨r, by rw [recordOf_insert_inode, if_neg hp, hr], hdir⟩
  · intro x data' hdata'
    rw [hsame]
    by_cases hx : x = id
    · exact hx ▸ h.reachable _ _ hdata
    · exact h.reachable _ data' (by simpa [hx] using hdata')

theorem TreeCore.of_count {v : Bytes} (h : TreeCore db) : TreeCore (db.insert .nextInode v) := by
  have hsame : dentryOf (db.insert .nextInode v) = dentryOf db := by
    funext q m
    exact dentryOf_insert_nextInode
  constructor
  · intro p n w hw
    obtain ⟨r, hr, hdir⟩ := h.parent_dir p n w (by simpa using hw)
    exact ⟨r, by simpa using hr, hdir⟩
  · intro id data hdata
    rw [hsame]
    exact h.reachable _ data (by simpa using hdata)

end Steps

/-! ## Runs -/

theorem RootState.treeCore {s : NsState} (h : RootState s) : TreeCore s.db := by
  constructor
  · intro parent name v hv
    rw [h.dentries] at hv
    cases hv
  · intro id data hdata
    rw [h.inodes id (by rw [hdata]; exact Option.some_ne_none data)]
    exact .refl

theorem TreeCore.step {s s' : NsState} {c : NsCall} {ok : Bool} (h : TreeCore s.db)
    (hbase : s.Base) (hstep : c.Step s ok s') (hexist : c.OnExisting s) (hkeeps : c.KeepsTree s) :
    TreeCore s'.db := by
  have heffect := NsCall.effect_of_step hstep
  generalize s'.db = db', s'.reservations = reservations' at heffect
  cases heffect with
  | failed => exact h
  | read => exact h
  | count => exact h.of_count
  | reserve => exact h.of_count
  | exhausted => exact h.of_count
  | @commit n attr c batch hc hfin hid htype he =>
      exact h.of_create (hid ▸ hbase.fresh.unused c (List.mem_of_getElem? hc) hfin) he
  | cancel => exact h
  | rename he => exact h.of_rename hbase.linked hkeeps.1 hkeeps.2 he
  | remove he => exact h.of_remove he
  | put hpay =>
      obtain ⟨data, hdata, hread⟩ := read_inode_of_lookup hexist
      rw [hread] at hpay
      exact h.of_put hdata hkeeps hpay

theorem NsCall.ordinary_of_keepsTree {c : NsCall} {s : NsState} (hexist : c.OnExisting s)
    (hkeeps : c.KeepsTree s) : c.Ordinary s := by
  cases c <;> first | exact hkeeps | exact hexist

/-- Every state of a run from the root directory is a tree. -/
theorem treeShape_of_run {s₀ s : NsState} (hroot : RootState s₀)
    (hrun : NsRun (fun c s => c.OnExisting s ∧ c.KeepsTree s) s₀ s) : TreeShape s.db := by
  suffices h : s.Base ∧ TreeCore s.db from h.2.shape h.1.linked
  induction hrun with
  | start => exact ⟨hroot.base, hroot.treeCore⟩
  | step _ hallowed hstep ih =>
      exact ⟨ih.1.step hstep (NsCall.ordinary_of_keepsTree hallowed.1 hallowed.2),
        ih.2.step ih.1 hstep hallowed.1 hallowed.2⟩

/-- Two directories, the first moved below the second. -/
def moveScript : List NsCall :=
  [.reserveCreate (ofAscii "/a") .dir, .commit 0 { inodeId := 2, type := .dir },
    .reserveCreate (ofAscii "/b") .dir, .commit 1 { inodeId := 3, type := .dir },
    .rename (ofAscii "/a") (ofAscii "/b/c")]

theorem treeShape_after_move :
    ∃ s, NsRun (fun c s => c.OnExisting s ∧ c.KeepsTree s) rootStore s ∧
      dentryOf s.db 3 (ofAscii "c") = some 2 ∧ TreeShape s.db := by
  have hscript : (runScript silentOracle (fun c s => decide (c.OnExisting s ∧ c.KeepsTree s))
      moveScript rootStore).map (fun s => dentryOf s.db 3 (ofAscii "c")) = some (some 2) := by
    decide +kernel
  obtain ⟨s, hs, hentry⟩ := Option.map_eq_some_iff.mp hscript
  have hrun : NsRun (fun c s => c.OnExisting s ∧ c.KeepsTree s) rootStore s :=
    run_of_runScript (fun c s h => of_decide_eq_true h) .start hs
  exact ⟨s, hrun, hentry, treeShape_of_run rootStore_rootState hrun⟩

/-- A directory moved below itself. -/
def moveBelowItselfScript : List NsCall :=
  [.reserveCreate (ofAscii "/a") .dir, .commit 0 { inodeId := 2, type := .dir },
    .rename (ofAscii "/a") (ofAscii "/a/b")]

/-- The move is accepted, and cuts the directory off from the root. -/
theorem rename_below_itself :
    ∃ s, RootState rootStore ∧ NsRun NsCall.OnExisting rootStore s ∧
      s.db.lookup (.inode 2) ≠ none ∧ ¬ Reach (dentryOf s.db) kRootInodeId 2 := by
  have hscript : (runScript silentOracle (fun c s => decide (c.OnExisting s))
      moveBelowItselfScript rootStore).map
        (fun s => ((s.db.lookup (.inode 2)).isSome, s.db.dentries kRootInodeId)) =
        some (true, []) := by
    decide +kernel
  obtain ⟨s, hs, hstate⟩ := Option.map_eq_some_iff.mp hscript
  obtain ⟨hinode, hempty⟩ := Prod.mk.inj hstate
  have hrun : NsRun NsCall.OnExisting rootStore s :=
    run_of_runScript (fun c s h => of_decide_eq_true h) .start hs
  refine ⟨s, rootStore_rootState, hrun, Option.isSome_iff_ne_none.mp hinode, fun hreach => ?_⟩
  -- a walk to another inode would start with an entry of the root
  rcases Relation.ReflTransGen.cases_head hreach with heq | ⟨b, ⟨name, hname⟩, -⟩
  · exact absurd heq (by decide)
  · rw [dentryOf, MetaMap.dentries_eq_nil.mp hempty] at hname
    cases hname

end Zb.Mds
