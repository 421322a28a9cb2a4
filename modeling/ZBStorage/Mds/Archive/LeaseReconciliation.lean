-- SUMMARY: Reconciliation passes among lease calls and other writers: when one leaves leases and files alone.
import ZBStorage.Lib.CallHistory
import ZBStorage.Mds.Archive.ReconcileArchiveStates

/-!
# Reconciliation and leases

A pass decides from a snapshot and from inodes that it reads one after the other. For a
file that nobody else touches while the pass runs, what it has read is what is stored,
so its writes are the ones that it should make.
-/

namespace Zb.Mds

open Zb.Rpc Bytes Prog CallHistory

namespace Reconciler

/-! ## One file -/

/-- The optical location of the stored inode is recorded. -/
def located (db : MetaMap) (inodeId : UInt64) : Bool :=
  match (db.lookup (.inode inodeId)).map decodeUnifiedInodeAttr with
  | some (.ok attr) => (populateOpticalFileLocationFromInodeAttr attr inodeId).isSome
  | _ => false

/-- Held, and not expired. -/
def Live (now : UInt64) (record : ArchiveLeaseRecord) : Prop :=
  record.state = .archiving ∧ now < record.leaseExpireTsMs

/-- What a pass relies on for a file, and the clock as it has read it. -/
structure View where
  db : MetaMap
  now : UInt64

/-- Neither archived nor leased. -/
structure Free (inodeId : UInt64) (view : View) : Prop where
  notLocated : located view.db inodeId = false
  notHeld : ∀ record, view.db.lookup (.fileArchiveState inodeId) = some record →
    record.state ≠ .archiving

/-- What a batch may hold for a file. -/
structure Justified (inodeId : UInt64) (view : View) (batch : WriteBatch) : Prop where
  keys : ∀ e ∈ batch, ∃ inodeId, e.key = .fileArchiveState inodeId
  puts : ∀ record', .put (.fileArchiveState inodeId) record' ∈ batch →
    record'.state = .pending ∧ record'.inodeId = inodeId ∧ ∃ record,
      view.db.lookup (.fileArchiveState inodeId) = some record ∧ ¬Live view.now record
  deletes : .delete (.fileArchiveState inodeId) ∈ batch → located view.db inodeId = true

def SaysPending (payload : Bytes) : Prop :=
  ∃ attr, decodeUnifiedInodeAttr payload = .ok attr ∧ attr.fileArchiveState = .pending

/-- What the pass should do to a file only if it may. -/
def Guard (inodeId : UInt64) (view : View) : ReconcileOp → Prop
  | .writeBatch batch => Justified inodeId view batch
  | .put id payload => id = inodeId → SaysPending payload → Free inodeId view
  | .updateFileArchiveState _ request =>
      request.inodeId = inodeId → request.archiveState = .pending → Free inodeId view
  | _ => True

/-- The operations as they are for a file that nobody else touches. -/
def Moves (inodeId : UInt64) : (o : ReconcileOp) → View → o.Res → View → Prop
  | .now, view, r, view' => view' = { view with now := r }
  | .newIterator, view, r, view' => view' = view ∧ (∀ e ∈ r, e.2.inodeId = e.1 ∧ e.1 ≠ 0) ∧
      ∀ record, (inodeId, record) ∈ r →
        view.db.lookup (.fileArchiveState inodeId) = some record
  | .get id, view, r, view' =>
      view' = view ∧ (id = inodeId → r = view.db.read (.inode id) ∨ IoError r)
  | .put id payload, view, r, view' =>
      (r = .ok () ∧ view' = { view with db := view.db.insert (.inode id) payload }) ∨
      (IoError r ∧ view' = view)
  | .writeBatch batch, view, r, view' =>
      (r = .ok () ∧ view' = { view with db := view.db.write batch }) ∨ (IoError r ∧ view' = view)
  | .resolveDiskId _ _, view, _, view' | .resolveNodeAddress _, view, _, view'
  | .updateFileArchiveState _ _, view, _, view' => view' = view

variable {inodeId id : UInt64} {view : View} {α : Type}

theorem wp_op {σ : Type} {guard : σ → ReconcileOp → Prop}
    {moves : (o : ReconcileOp) → σ → o.Res → σ → Prop} {Q : α → σ → Prop} {s : σ}
    {o : ReconcileOp} {f : o.Res → Reconciler α} :
    Wp guard moves (op o >>= f) Q s ↔
      guard s o ∧ ∀ r s', moves o s r s' → Wp guard moves (f r) Q s' := Iff.rfl

theorem located_iff {db : MetaMap} : located db inodeId = true ↔
    ∃ data attr, db.lookup (.inode inodeId) = some data ∧ decodeUnifiedInodeAttr data = .ok attr ∧
      (populateOpticalFileLocationFromInodeAttr attr inodeId).isSome = true := by
  rw [located]
  cases hdata : db.lookup (.inode inodeId) with
  | none => simp
  | some data =>
      cases hattr : decodeUnifiedInodeAttr data with
      | error e => simp [hattr]
      | ok attr => simp [hattr]

theorem located_of_lookup {db : MetaMap} {data : Bytes} {attr : InodeAttr}
    (hdata : db.lookup (.inode inodeId) = some data)
    (hattr : decodeUnifiedInodeAttr data = .ok attr) :
    located db inodeId = (populateOpticalFileLocationFromInodeAttr attr inodeId).isSome := by
  rw [located, hdata, Option.map_some, hattr]

/-! ## Reading -/

/-- What is read of a file is what is stored, or an error if calls may fail. -/
structure ReadsStore {σ : Type} (guard : σ → ReconcileOp → Prop)
    (moves : (o : ReconcileOp) → σ → o.Res → σ → Prop) (db : σ → MetaMap) (fails : Prop)
    (inodeId : UInt64) : Prop where
  get : ∀ s id, guard s (.get id) ∧ ∀ r s', moves (.get id) s r s' →
    s' = s ∧ (id = inodeId → r = (db s).read (.inode id) ∨ (fails ∧ IoError r))
  resolveDiskId : ∀ s nodeId diskId, guard s (.resolveDiskId nodeId diskId) ∧
    ∀ r s', moves (.resolveDiskId nodeId diskId) s r s' → s' = s
  resolveNodeAddress : ∀ s nodeId, guard s (.resolveNodeAddress nodeId) ∧
    ∀ r s', moves (.resolveNodeAddress nodeId) s r s' → s' = s

theorem readsStore_view :
    ReadsStore (Guard inodeId) (Moves inodeId) View.db True inodeId where
  get _ _ := ⟨trivial, fun _ _ hmoves =>
    ⟨hmoves.1, fun hid => (hmoves.2 hid).imp_right fun herror => ⟨trivial, herror⟩⟩⟩
  resolveDiskId _ _ _ := ⟨trivial, fun _ _ hmoves => hmoves⟩
  resolveNodeAddress _ _ := ⟨trivial, fun _ _ hmoves => hmoves⟩

/-- The stored inode has these attributes. -/
def Stored (db : MetaMap) (inodeId : UInt64) (attr : InodeAttr) : Prop :=
  ∃ data, db.lookup (.inode inodeId) = some data ∧ decodeUnifiedInodeAttr data = .ok attr

section Reading

variable {σ : Type} {guard : σ → ReconcileOp → Prop}
  {moves : (o : ReconcileOp) → σ → o.Res → σ → Prop} {db : σ → MetaMap} {fails : Prop} {s : σ}

theorem wp_loadInodeAttr (h : ReadsStore guard moves db fails inodeId) :
    Wp guard moves (loadInodeAttr id)
      (fun r s' => s' = s ∧ (∀ attr, r = .ok attr → id = inodeId → Stored (db s) inodeId attr) ∧
        (¬fails → id = inodeId → ∀ attr, Stored (db s) inodeId attr → r = .ok attr)) s := by
  refine wp_op.mpr ⟨(h.get s id).1, fun r s' hmoves => ?_⟩
  obtain ⟨rfl, hread⟩ := (h.get s id).2 r s' hmoves
  cases r with
  | error e =>
      refine ⟨rfl, fun attr hattr => (nomatch hattr), ?_⟩
      rintro hworks rfl attr ⟨data, hdata, -⟩
      rcases hread rfl with hread | ⟨hfails, -⟩
      · rw [MetaMap.read_eq_ok.mpr hdata] at hread
        exact nomatch hread
      · exact absurd hfails hworks
  | ok data =>
      have hstored : id = inodeId → (db s').lookup (.inode inodeId) = some data := by
        intro hid
        rcases hread hid with hread | ⟨-, e, -, he⟩
        · exact hid ▸ MetaMap.read_eq_ok.mp hread.symm
        · exact nomatch he
      refine ⟨rfl, fun attr hattr hid => ⟨data, hstored hid, hattr⟩, ?_⟩
      rintro - hid attr ⟨data', hdata, hattr⟩
      rw [hstored hid] at hdata
      exact Option.some.inj hdata ▸ hattr

theorem wp_resolveLocation (h : ReadsStore guard moves db fails inodeId)
    {location : OpticalFileLocation} {opticalDiskId : UInt64} (husable : isUsable location = true) :
    Wp guard moves (resolveLocation location opticalDiskId)
      (fun resolved s' => s' = s ∧ isUsable resolved = true) s := by
  have hrest : ∀ (diskId : Option Bytes) (nodeAddress : Bytes),
      isUsable { location with diskId := knownOr diskId location.diskId, nodeAddress } = true := by
    intro diskId nodeAddress
    simp only [isUsable, decide_eq_true_eq] at husable ⊢
    refine ⟨husable.1, ?_⟩
    cases diskId with
    | none => exact husable.2
    | some diskId =>
        rw [knownOr]
        split
        · exact husable.2
        · assumption
  rw [resolveLocation]
  split
  · refine wp_op.mpr ⟨(h.resolveDiskId s _ _).1, fun diskId s₁ hmoves => ?_⟩
    obtain rfl := (h.resolveDiskId s _ _).2 diskId s₁ hmoves
    refine wp_op.mpr ⟨(h.resolveNodeAddress s₁ _).1, fun nodeAddress s₂ hmoves => ?_⟩
    exact ⟨(h.resolveNodeAddress s₁ _).2 nodeAddress s₂ hmoves, hrest diskId _⟩
  · refine wp_op.mpr ⟨(h.resolveNodeAddress s _).1, fun nodeAddress s₁ hmoves => ?_⟩
    exact ⟨(h.resolveNodeAddress s _).2 nodeAddress s₁ hmoves, hrest none _⟩

theorem isUsable_ofAttr {attr : InodeAttr} {location : OpticalFileLocation}
    (h : populateOpticalFileLocationFromInodeAttr attr id = some location) :
    isUsable location = true := by
  rw [populateOpticalFileLocationFromInodeAttr] at h
  split at h
  · exact nomatch h
  · cases h
    rfl

theorem isUsable_ofRecord {record : UnifiedInodeRecord} {location : OpticalFileLocation}
    (h : populateOpticalFileLocationFromUnifiedRecord record = some location) :
    isUsable location = true := by
  rw [populateOpticalFileLocationFromUnifiedRecord] at h
  split at h
  · exact nomatch h
  · cases h
    rfl

theorem toUnifiedStorageTier_optical {tier : InodeStorageTier} :
    toUnifiedStorageTier tier = UnifiedStorageTier.kOptical ↔ tier = .optical := by
  cases tier with
  | optical => exact iff_of_true rfl rfl
  | none => exact iff_of_false (by decide) (by decide)
  | disk => exact iff_of_false (by decide) (by decide)
  | unrecognized v h =>
      exact iff_of_false (show ¬UnifiedStorageTier.kNone = UnifiedStorageTier.kOptical by decide)
        (by rintro ⟨⟩)

/-- The record and the attributes made of it tell the same. -/
theorem isSome_ofRecord {record : UnifiedInodeRecord} (hid : id ≠ 0) :
    (populateOpticalFileLocationFromInodeAttr (unifiedInodeRecordToAttr record) id).isSome =
      (populateOpticalFileLocationFromUnifiedRecord record).isSome := by
  rw [populateOpticalFileLocationFromInodeAttr, populateOpticalFileLocationFromUnifiedRecord]
  by_cases hoptical : record.storageTier = UnifiedStorageTier.kOptical
  · by_cases hnode : record.opticalNodeId = 0
    · rw [if_pos (.inr (.inr (by simp [unifiedInodeRecordToAttr, hnode]))), if_pos (.inr hnode)]
    · rw [if_neg, if_neg]
      · rfl
      · exact fun h => h.elim (fun h => h hoptical) hnode
      · rintro (h | h | h)
        · exact hid h
        · exact h (toProtoStorageTier_optical.mpr hoptical)
        · exact hnode (by simpa [unifiedInodeRecordToAttr, hoptical] using h)
  · rw [if_pos (.inr (.inl fun h => hoptical (toProtoStorageTier_optical.mp h))),
      if_pos (.inl hoptical)]

theorem wp_loadOpticalFileLocation (h : ReadsStore guard moves db fails inodeId) (hid : id ≠ 0) :
    Wp guard moves (loadOpticalFileLocation id)
      (fun r s' => s' = s ∧ ∀ location, r = some location →
        isUsable location = true ∧ (id = inodeId → located (db s) inodeId = true)) s := by
  refine wp_op.mpr ⟨(h.get s id).1, fun r s' hmoves => ?_⟩
  obtain ⟨rfl, hread⟩ := (h.get s id).2 r s' hmoves
  cases r with
  | error e => exact ⟨rfl, fun _ h => nomatch h⟩
  | ok payload =>
      dsimp only
      cases hdec : decodeUnifiedInodeRecord payload with
      | error e => exact ⟨rfl, fun _ h => nomatch h⟩
      | ok record =>
          dsimp only
          cases hlocation : populateOpticalFileLocationFromUnifiedRecord record with
          | none => exact ⟨rfl, fun _ h => nomatch h⟩
          | some location =>
              refine (wp_resolveLocation h (isUsable_ofRecord hlocation)).bind ?_
              rintro resolved s'' ⟨rfl, husable⟩
              refine ⟨rfl, fun location' hsame => ⟨Option.some.inj hsame ▸ husable, ?_⟩⟩
              intro heq
              have hstored : (db s'').lookup (.inode id) = some payload := by
                rcases hread heq with hread | ⟨-, e, -, he⟩
                · exact MetaMap.read_eq_ok.mp hread.symm
                · exact nomatch he
              rw [← heq, located_of_lookup hstored (by rw [decodeUnifiedInodeAttr, hdec]; rfl),
                isSome_ofRecord hid, hlocation]
              rfl

/-- A pass finds a location exactly if one is recorded. -/
theorem wp_hasUsableOpticalLocation (h : ReadsStore guard moves db fails inodeId) :
    Wp guard moves (hasUsableOpticalLocation id)
      (fun r s' => s' = s ∧
        (∀ archived, r = .ok archived → id = inodeId → located (db s) inodeId = archived) ∧
        (¬fails → id = inodeId → id ≠ 0 → ∀ attr, Stored (db s) inodeId attr →
          ∃ archived, r = .ok archived)) s := by
  rw [hasUsableOpticalLocation]
  split
  · rename_i hzero
    exact ⟨rfl, fun _ h => (nomatch h), fun _ _ hne => absurd hzero hne⟩
  rename_i hid
  refine (wp_loadInodeAttr h).bind ?_
  rintro r s' ⟨rfl, hread, hreadable⟩
  cases r with
  | error e =>
      exact ⟨rfl, fun _ h => (nomatch h),
        fun hworks heq _ attr hstored => nomatch hreadable hworks heq attr hstored⟩
  | ok attr =>
      dsimp only
      have hlocated : id = inodeId → located (db s') inodeId =
          (populateOpticalFileLocationFromInodeAttr attr id).isSome := by
        intro heq
        obtain ⟨data, hdata, hattr⟩ := hread attr rfl heq
        rw [heq]
        exact located_of_lookup hdata hattr
      have hanswer : ∀ found : Bool, (id = inodeId → located (db s') inodeId = found) →
          s' = s' ∧ (∀ archived, Except.ok (ε := String) found = .ok archived → id = inodeId →
            located (db s') inodeId = archived) ∧
          (¬fails → id = inodeId → id ≠ 0 → ∀ attr, Stored (db s') inodeId attr →
            ∃ archived, Except.ok (ε := String) found = .ok archived) :=
        fun found hfound => ⟨rfl, fun archived hsame heq => Except.ok.inj hsame ▸ hfound heq,
          fun _ _ _ _ _ => ⟨found, rfl⟩⟩
      rw [buildOpticalFileLocationFromAttr]
      cases hlocation : populateOpticalFileLocationFromInodeAttr attr id with
      | some location =>
          rw [hlocation] at hlocated
          refine wp_bind.mpr ((wp_resolveLocation h (isUsable_ofAttr hlocation)).bind ?_)
          rintro resolved s'' ⟨rfl, husable⟩
          exact hanswer _ fun heq => (hlocated heq).trans husable.symm
      | none =>
          rw [hlocation] at hlocated
          refine (wp_loadOpticalFileLocation h hid).bind ?_
          rintro found s'' ⟨rfl, hfound⟩
          cases found with
          | none => exact hanswer false hlocated
          | some location =>
              refine hanswer _ fun heq => ?_
              rw [(hfound location rfl).1, (hfound location rfl).2 heq]

end Reading

/-! ## The scan -/

/-- What the scan has collected that concerns a file. -/
structure Gathered (inodeId : UInt64) (view : View) (collected : Collected) : Prop where
  batch : Justified inodeId view collected.batch
  updates : ∀ update ∈ collected.sourceUpdates, update.inodeId = inodeId →
    update.archiveState = .pending → located view.db inodeId = false ∧
      ∃ record', .put (.fileArchiveState inodeId) record' ∈ collected.batch

theorem gathered_nil : Gathered inodeId view {} :=
  ⟨⟨by simp, by simp, by simp⟩, by simp⟩

/-- A snapshot of the record that agrees with what is stored. -/
structure Snapshot (inodeId : UInt64) (view : View) (key : UInt64) (record : ArchiveLeaseRecord) :
    Prop where
  keyed : record.inodeId = key
  nonzero : key ≠ 0
  stored : key = inodeId → view.db.lookup (.fileArchiveState inodeId) = some record

/-- An entry for another file. -/
theorem Justified.other {batch : WriteBatch} (h : Justified inodeId view batch) {e : BatchEntry}
    {key : UInt64} (hkey : e.key = .fileArchiveState key) (hne : key ≠ inodeId) :
    Justified inodeId view (batch ++ [e]) where
  keys e' hmem := by
    rcases List.mem_append.mp hmem with hmem | hmem
    · exact h.keys e' hmem
    · exact ⟨key, List.mem_singleton.mp hmem ▸ hkey⟩
  puts record' hmem := by
    rcases List.mem_append.mp hmem with hmem | hmem
    · exact h.puts record' hmem
    · rw [← List.mem_singleton.mp hmem, BatchEntry.key] at hkey
      exact absurd (MetaKey.fileArchiveState.inj hkey).symm hne
  deletes hmem := by
    rcases List.mem_append.mp hmem with hmem | hmem
    · exact h.deletes hmem
    · rw [← List.mem_singleton.mp hmem, BatchEntry.key] at hkey
      exact absurd (MetaKey.fileArchiveState.inj hkey).symm hne

theorem Justified.delete {batch : WriteBatch} (h : Justified inodeId view batch)
    (hlocated : located view.db inodeId = true) :
    Justified inodeId view (batch ++ [.delete (.fileArchiveState inodeId)]) where
  keys e' hmem := by
    rcases List.mem_append.mp hmem with hmem | hmem
    · exact h.keys e' hmem
    · exact ⟨inodeId, List.mem_singleton.mp hmem ▸ rfl⟩
  puts record' hmem := by
    rcases List.mem_append.mp hmem with hmem | hmem
    · exact h.puts record' hmem
    · exact nomatch List.mem_singleton.mp hmem
  deletes _ := hlocated

theorem Justified.put {batch : WriteBatch} (h : Justified inodeId view batch)
    {record record' : ArchiveLeaseRecord} (hstate : record'.state = .pending)
    (hkeyed : record'.inodeId = inodeId)
    (hstored : view.db.lookup (.fileArchiveState inodeId) = some record)
    (hdead : ¬Live view.now record) :
    Justified inodeId view (batch ++ [.put (.fileArchiveState inodeId) record']) where
  keys e' hmem := by
    rcases List.mem_append.mp hmem with hmem | hmem
    · exact h.keys e' hmem
    · exact ⟨inodeId, List.mem_singleton.mp hmem ▸ rfl⟩
  puts other hmem := by
    rcases List.mem_append.mp hmem with hmem | hmem
    · exact h.puts other hmem
    · cases List.mem_singleton.mp hmem
      exact ⟨hstate, hkeyed, record, hstored, hdead⟩
  deletes hmem := by
    rcases List.mem_append.mp hmem with hmem | hmem
    · exact h.deletes hmem
    · exact nomatch List.mem_singleton.mp hmem

theorem not_live_of_decided {now : UInt64} {record : ArchiveLeaseRecord}
    (h : isExpired now record = true ∨ (record.state ≠ .pending ∧ record.state ≠ .archiving)) :
    ¬Live now record := by
  rintro ⟨harchiving, hlive⟩
  rcases h with hexpired | hother
  · exact absurd hlive (UInt64.not_lt.mpr (of_decide_eq_true hexpired).2.2)
  · exact hother.2 harchiving

theorem Gathered.decided {collected : Collected} {record : ArchiveLeaseRecord} {key : UInt64}
    {archived : Bool} {entry : BatchEntry} {archiveState : FileArchiveState} {version : UInt64}
    {nodeAddress : Bytes} (h : Gathered inodeId view collected)
    (hsnapshot : Snapshot inodeId view key record)
    (hlocated : record.inodeId = inodeId → located view.db inodeId = archived)
    (hdecided : decideRecord view.now record archived = some (entry, archiveState, version)) :
    Gathered inodeId view {
      batch := collected.batch ++ [entry]
      sourceUpdates := collected.sourceUpdates ++
        [{ inodeId := record.inodeId, nodeAddress, diskId := record.ownerDiskId, archiveState,
           version }] } := by
  have holder : ∀ update ∈ collected.sourceUpdates, update.inodeId = inodeId →
      update.archiveState = .pending → located view.db inodeId = false ∧
        ∃ record', .put (.fileArchiveState inodeId) record' ∈ collected.batch ++ [entry] := by
    intro update hmem hid hpending
    obtain ⟨hnone, record', hput⟩ := h.updates update hmem hid hpending
    exact ⟨hnone, record', List.mem_append_left _ hput⟩
  rw [decideRecord] at hdecided
  by_cases hsame : record.inodeId = inodeId
  · subst hsame
    split at hdecided
    · rename_i harchived
      cases hdecided
      refine ⟨h.batch.delete (hlocated rfl ▸ harchived), fun update hmem hid hpending => ?_⟩
      rcases List.mem_append.mp hmem with hmem | hmem
      · exact holder update hmem hid hpending
      · rw [List.mem_singleton.mp hmem] at hpending
        exact nomatch hpending
    · rename_i harchived
      split at hdecided
      · rename_i hreset
        cases hdecided
        have hstored := hsnapshot.stored hsnapshot.keyed.symm
        refine ⟨h.batch.put rfl rfl hstored (not_live_of_decided hreset),
          fun update hmem hid hpending => ?_⟩
        rcases List.mem_append.mp hmem with hmem | hmem
        · exact holder update hmem hid hpending
        · exact ⟨(hlocated rfl).trans (Bool.eq_false_iff.mpr harchived), resetRecord view.now record,
            List.mem_append_right _ (List.mem_singleton.mpr rfl)⟩
      · exact nomatch hdecided
  · have hkey : entry.key = .fileArchiveState record.inodeId := by
      split at hdecided
      · cases hdecided
        rfl
      · split at hdecided
        · cases hdecided
          rfl
        · exact nomatch hdecided
    refine ⟨h.batch.other hkey hsame, fun update hmem hid hpending => ?_⟩
    rcases List.mem_append.mp hmem with hmem | hmem
    · exact holder update hmem hid hpending
    · rw [List.mem_singleton.mp hmem] at hid
      exact absurd hid hsame

theorem wp_visit {collected : Collected} {key : UInt64} {record : ArchiveLeaseRecord}
    (h : Gathered inodeId view collected) (hsnapshot : Snapshot inodeId view key record) :
    Wp (Guard inodeId) (Moves inodeId) (visit view.now collected key record)
      (fun collected view' => view' = view ∧ Gathered inodeId view collected) view := by
  have hid : record.inodeId ≠ 0 := hsnapshot.keyed ▸ hsnapshot.nonzero
  rw [visit, if_neg hid]
  refine (wp_loadInodeAttr readsStore_view).bind ?_
  rintro r view' ⟨rfl, -⟩
  cases r with
  | error e => exact ⟨rfl, h⟩
  | ok attr =>
      refine (wp_hasUsableOpticalLocation readsStore_view).bind ?_
      rintro r view'' ⟨rfl, hlocated, -⟩
      cases r with
      | error e => exact ⟨rfl, h⟩
      | ok archived =>
          dsimp only
          cases hdecided : decideRecord view''.now record archived with
          | none => exact ⟨rfl, h⟩
          | some decision =>
              obtain ⟨entry, archiveState, version⟩ := decision
              refine wp_op.mpr ⟨trivial, ?_⟩
              rintro nodeAddress view' rfl
              exact ⟨rfl, h.decided hsnapshot (hlocated archived rfl) hdecided⟩

theorem wp_visitAll {entries : List (UInt64 × ArchiveLeaseRecord)} {collected : Collected}
    (h : Gathered inodeId view collected)
    (hentries : ∀ e ∈ entries, Snapshot inodeId view e.1 e.2) :
    Wp (Guard inodeId) (Moves inodeId) (visitAll view.now collected entries)
      (fun collected view' => view' = view ∧ Gathered inodeId view collected) view := by
  induction entries generalizing collected with
  | nil => exact ⟨rfl, h⟩
  | cons first entries ih =>
      refine (wp_visit h (hentries first List.mem_cons_self)).bind ?_
      rintro collected view' ⟨rfl, h⟩
      exact ih h fun e hmem => hentries e (List.mem_cons_of_mem _ hmem)

/-! ## The states pushed -/

theorem opticalNodeId_ofAttr {attr : InodeAttr} {parent : UInt64} {tier : UInt8}
    {record : UnifiedInodeRecord} (h : attrToUnifiedInodeRecord attr parent tier = .ok record) :
    record.storageTier = UnifiedStorageTier.kOptical → record.opticalNodeId = attr.opticalNodeId := by
  unfold attrToUnifiedInodeRecord at h
  split at h
  · cases h
  split at h
  · cases h
  split at h
  · cases h
  split at h
  · cases h
  split at h
  · cases h
  obtain ⟨_, _, _, rfl⟩ := normalizePackedLocation_frame h
  intro hoptical
  exact if_pos hoptical

/-- A payload with a new state has this state, and no location that was not there. -/
theorem archiveStatePayload_ok {data payload : Bytes} {attr : InodeAttr}
    {state : InodeArchiveState} {current : Except String Bytes} (hid : id ≠ 0)
    (hattr : decodeUnifiedInodeAttr data = .ok attr) (hcurrent : current = .ok data ∨ IoError current)
    (hnone : populateOpticalFileLocationFromInodeAttr attr id = none)
    (h : archiveStatePayload { attr with fileArchiveState := state } current = .ok payload) :
    ∃ attr', decodeUnifiedInodeAttr payload = .ok attr' ∧
      populateOpticalFileLocationFromInodeAttr attr' id = none := by
  obtain ⟨record, hrecord, rfl⟩ : ∃ record, decodeUnifiedInodeRecord data = .ok record ∧
      unifiedInodeRecordToAttr record = attr := by
    rw [decodeUnifiedInodeAttr] at hattr
    cases hdec : decodeUnifiedInodeRecord data with
    | error e => rw [hdec] at hattr; cases hattr
    | ok record => rw [hdec] at hattr; exact ⟨record, rfl, Except.ok.inj hattr⟩
  have hunlocated : populateOpticalFileLocationFromUnifiedRecord record = none := by
    rw [← Option.isNone_iff_eq_none, ← Option.not_isSome, ← isSome_ofRecord hid, hnone]
    rfl
  have hnode : record.storageTier = UnifiedStorageTier.kOptical → record.opticalNodeId = 0 := by
    intro hoptical
    rw [populateOpticalFileLocationFromUnifiedRecord] at hunlocated
    split at hunlocated
    · rename_i hcase
      exact hcase.resolve_left (not_not.mpr hoptical)
    · cases hunlocated
  have hwritten : ∀ written : UnifiedInodeRecord,
      (written.storageTier = UnifiedStorageTier.kOptical → written.opticalNodeId = 0) →
      encodeUnifiedInodeRecord written = .ok payload →
      ∃ attr', decodeUnifiedInodeAttr payload = .ok attr' ∧
        populateOpticalFileLocationFromInodeAttr attr' id = none := by
    intro written hzero hencode
    refine ⟨_, by rw [decodeUnifiedInodeAttr, decode_encode hencode]; rfl, ?_⟩
    rw [← Option.isNone_iff_eq_none, ← Option.not_isSome, isSome_ofRecord hid,
      populateOpticalFileLocationFromUnifiedRecord, if_pos]
    · rfl
    · by_cases hoptical : written.storageTier = UnifiedStorageTier.kOptical
      · refine .inr ?_
        show (if storedForm.keepsOptical written then written.opticalNodeId else 0) = 0
        rw [hzero hoptical, ite_self]
      · exact .inl hoptical
  rw [archiveStatePayload] at h
  rcases hcurrent with rfl | ⟨e, -, rfl⟩
  · rw [Except.toOption, Option.bind_some, hrecord] at h
    exact hwritten (applyAttrToUnifiedRecord _ record) hnode h
  · simp only [Except.toOption, Option.bind_none] at h
    split at h
    · cases h
    · rename_i written hmade
      refine hwritten written (fun hoptical => ?_) h
      have htier := (attrToUnifiedInodeRecord_ok hmade).2.2.2.2.2.2
      rw [opticalNodeId_ofAttr hmade hoptical]
      have hrecordTier : record.storageTier = UnifiedStorageTier.kOptical := by
        rw [hoptical] at htier
        split at htier
        · exact absurd htier (by decide)
        · exact toProtoStorageTier_optical.mp (toUnifiedStorageTier_optical.mp htier.symm)
      simp [unifiedInodeRecordToAttr, hrecordTier, hnode hrecordTier]

/-- A payload says pending only if pending was to be pushed. -/
theorem pending_of_payload {inode : InodeAttr} {state : FileArchiveState}
    {current : Except String Bytes} {payload : Bytes}
    (h : archiveStatePayload { inode with fileArchiveState := toInodeArchiveState state } current =
      .ok payload) (hpending : SaysPending payload) : state = .pending := by
  obtain ⟨attr, hattr, hstate⟩ := hpending
  have hwritten : ∀ written : UnifiedInodeRecord,
      written.fileArchiveState = (toInodeArchiveState state).toUInt32 →
      encodeUnifiedInodeRecord written = .ok payload → state = .pending := by
    intro written hsame hencode
    rw [decodeUnifiedInodeAttr, decode_encode hencode] at hattr
    rw [← Except.ok.inj hattr] at hstate
    have hstored : InodeArchiveState.ofUInt32 written.fileArchiveState = .pending := hstate
    rw [hsame] at hstored
    cases state with
    | pending => rfl
    | archiving => exact absurd hstored (by decide)
    | archived => exact absurd hstored (by decide)
  rw [archiveStatePayload] at h
  split at h
  · exact hwritten _ rfl h
  · split at h
    · cases h
    · rename_i written hmade
      exact hwritten written (attrToUnifiedInodeRecord_ok hmade).2.2.2.2.1 h

theorem Free.put {payload : Bytes} (h : Free inodeId view)
    (hpayload : id = inodeId → ∃ attr, decodeUnifiedInodeAttr payload = .ok attr ∧
      populateOpticalFileLocationFromInodeAttr attr inodeId = none) :
    Free inodeId { view with db := view.db.insert (.inode id) payload } where
  notLocated := by
    by_cases hsame : id = inodeId
    · obtain ⟨attr, hattr, hnone⟩ := hpayload hsame
      rw [hsame]
      rw [located_of_lookup (AList.lookup_insert _) hattr, hnone]
      rfl
    · have hother : MetaKey.inode inodeId ≠ .inode id := fun h => hsame (MetaKey.inode.inj h).symm
      have hnone := h.notLocated
      rw [located] at hnone ⊢
      rwa [AList.lookup_insert_ne hother]
  notHeld record hstored := by
    rw [AList.lookup_insert_ne (by rintro ⟨⟩)] at hstored
    exact h.notHeld record hstored

/-- A state that may be pushed leaves the file as free as it was. -/
theorem wp_updateInodeArchiveState {state : FileArchiveState}
    (hfree : id = inodeId → state = .pending → Free inodeId view) :
    Wp (Guard inodeId) (Moves inodeId) (updateInodeArchiveState id (toInodeArchiveState state))
      (fun _ view' => Free inodeId view → Free inodeId view') view := by
  rw [updateInodeArchiveState]
  split
  · exact fun h => h
  rename_i hid
  refine (wp_loadInodeAttr readsStore_view).bind ?_
  rintro r view' ⟨rfl, hread, -⟩
  cases r with
  | error e => exact fun h => h
  | ok inode =>
      dsimp only
      split
      · exact fun h => h
      split
      · exact fun h => h
      refine wp_op.mpr ⟨trivial, ?_⟩
      rintro current view'' ⟨rfl, hcurrent⟩
      cases hpayload : archiveStatePayload
          { inode with fileArchiveState := toInodeArchiveState state } current with
      | error e => exact fun h => h
      | ok payload =>
          dsimp only
          have hkept : Free inodeId view'' → id = inodeId →
              ∃ attr, decodeUnifiedInodeAttr payload = .ok attr ∧
                populateOpticalFileLocationFromInodeAttr attr inodeId = none := by
            intro h heq
            obtain ⟨data, hdata, hattr⟩ := hread inode rfl heq
            subst heq
            refine archiveStatePayload_ok hid hattr ?_ ?_ hpayload
            · refine (hcurrent rfl).imp_left fun hcurrent => ?_
              rw [hcurrent]
              exact MetaMap.read_eq_ok.mpr hdata
            · have hnone := h.notLocated
              rw [located_of_lookup hdata hattr] at hnone
              exact Option.not_isSome_iff_eq_none.mp (Bool.eq_false_iff.mp hnone)
          refine ⟨fun heq hpending => hfree heq ?_, ?_⟩
          · exact pending_of_payload hpayload hpending
          · rintro r view' (⟨rfl, rfl⟩ | ⟨-, rfl⟩)
            · exact fun h => h.put (hkept h)
            · exact fun h => h

theorem wp_updateSourceFileArchiveState {update : FileStateUpdate}
    (hfree : update.inodeId = inodeId → update.archiveState = .pending → Free inodeId view) :
    Wp (Guard inodeId) (Moves inodeId) (updateSourceFileArchiveState update)
      (fun _ view' => Free inodeId view → Free inodeId view') view := by
  rw [updateSourceFileArchiveState]
  split
  · exact fun h => h
  refine (wp_updateInodeArchiveState hfree).bind ?_
  intro r view' hkept
  cases r with
  | error e => exact hkept
  | ok done =>
      dsimp only
      split
      · exact hkept
      · refine ⟨fun hid hpending => hkept (hfree hid hpending), ?_⟩
        rintro r view'' rfl
        exact hkept

theorem wp_pushAll {updates : List FileStateUpdate} {error : String}
    (hfree : ∀ update ∈ updates, update.inodeId = inodeId → update.archiveState = .pending →
      Free inodeId view) :
    Wp (Guard inodeId) (Moves inodeId) (pushAll error updates) (fun _ _ => True) view := by
  induction updates generalizing view error with
  | nil => trivial
  | cons update updates ih =>
      refine (wp_updateSourceFileArchiveState (hfree update List.mem_cons_self)).bind ?_
      intro r view' hkept
      have hlater : ∀ update ∈ updates, update.inodeId = inodeId →
          update.archiveState = .pending → Free inodeId view' :=
        fun update hmem hid hpending =>
          hkept (hfree update (List.mem_cons_of_mem _ hmem) hid hpending)
      cases r with
      | error e => exact ih hlater
      | ok done => exact ih hlater

/-! ## The whole pass -/

/-- A key of a batch has the value that the batch gave it. -/
theorem sets_of_mem (db : MetaMap) {batch : WriteBatch} {k : MetaKey}
    (h : ∃ e ∈ batch, e.key = k) : Sets batch k ((db.write batch).lookup k) := by
  induction batch using List.reverseRecOn with
  | nil => simp at h
  | append_singleton batch e ih =>
      rw [MetaMap.write_append, MetaMap.write_cons, MetaMap.write_nil]
      by_cases hk : e.key = k
      · subst hk
        cases e with
        | put k v => simp [Sets, BatchEntry.key]
        | delete k => simp [Sets, BatchEntry.key]
      · obtain ⟨e', hmem, hkey⟩ := h
        have hearlier : ∃ e ∈ batch, e.key = k := by
          rcases List.mem_append.mp hmem with hmem | hmem
          · exact ⟨e', hmem, hkey⟩
          · exact absurd (List.mem_singleton.mp hmem ▸ hkey) hk
        have hsame : (e.apply (db.write batch)).lookup k = (db.write batch).lookup k := by
          cases e with
          | put k' v => exact AList.lookup_insert_ne (Ne.symm hk)
          | delete k' => exact AList.lookup_erase_ne (Ne.symm hk)
        rw [hsame]
        have hset := ih hearlier
        cases hv : (db.write batch).lookup k with
        | some v =>
            rw [hv] at hset
            exact List.mem_append_left _ hset
        | none =>
            rw [hv] at hset
            exact List.mem_append_left _ hset

/-- Batches of lease records leave inodes alone. -/
theorem Justified.located_write {batch : WriteBatch} (h : Justified inodeId view batch)
    (db : MetaMap) (id : UInt64) : located (db.write batch) id = located db id := by
  have hsame : (db.write batch).lookup (.inode id) = db.lookup (.inode id) := by
    refine MetaMap.lookup_write_of_notMem fun e hmem hkey => ?_
    obtain ⟨other, hother⟩ := h.keys e hmem
    rw [hkey] at hother
    exact nomatch hother
  rw [located, located, hsame]

theorem Gathered.free {collected : Collected} (h : Gathered inodeId view collected)
    {update : FileStateUpdate} (hmem : update ∈ collected.sourceUpdates)
    (hid : update.inodeId = inodeId) (hpending : update.archiveState = .pending) :
    Free inodeId { view with db := view.db.write collected.batch } := by
  obtain ⟨hnone, record', hput⟩ := h.updates update hmem hid hpending
  refine ⟨(h.batch.located_write view.db inodeId).trans hnone, fun record hstored => ?_⟩
  have hset : Sets collected.batch (.fileArchiveState inodeId)
      ((view.db.write collected.batch).lookup (.fileArchiveState inodeId)) :=
    sets_of_mem view.db ⟨_, hput, rfl⟩
  rw [hstored] at hset
  rw [(h.batch.puts record hset).1]
  decide

/-- For a file that nobody else touches, a pass does what it may. -/
theorem wp_reconcileArchiveStates {maxRecords : UInt32} :
    Wp (Guard inodeId) (Moves inodeId) (reconcileArchiveStates maxRecords) (fun _ _ => True)
      view := by
  rw [reconcileArchiveStates]
  split
  · trivial
  refine wp_op.mpr ⟨trivial, ?_⟩
  rintro now view' hview
  obtain rfl : now = view'.now := by rw [hview]
  refine wp_op.mpr ⟨trivial, ?_⟩
  rintro entries view' ⟨rfl, hkeyed, hstored⟩
  have hentries : ∀ e ∈ entries.take maxRecords.toNat, Snapshot inodeId view' e.1 e.2 := by
    intro e hmem
    have hfound := List.mem_of_mem_take hmem
    exact ⟨(hkeyed e hfound).1, (hkeyed e hfound).2, fun heq => hstored e.2 (heq ▸ hfound)⟩
  refine (wp_visitAll gathered_nil hentries).bind ?_
  rintro collected view'' ⟨rfl, hgathered⟩
  have hpush : ∀ view', (∀ update ∈ collected.sourceUpdates, update.inodeId = inodeId →
        update.archiveState = .pending → Free inodeId view') →
      Wp (Guard inodeId) (Moves inodeId)
        (do return (true, ← pushAll "" collected.sourceUpdates) : Reconciler (Bool × String))
        (fun _ _ => True) view' :=
    fun view' hfree => (wp_pushAll hfree).bind fun _ _ _ => trivial
  by_cases hbatch : collected.batch = []
  · rw [if_pos hbatch]
    refine hpush _ fun update hmem hid hpending => ?_
    obtain ⟨-, record', hput⟩ := hgathered.updates update hmem hid hpending
    rw [hbatch] at hput
    exact nomatch hput
  · rw [if_neg hbatch]
    refine wp_op.mpr ⟨hgathered.batch, ?_⟩
    rintro r view' (⟨rfl, rfl⟩ | ⟨⟨e, -, rfl⟩, rfl⟩)
    · exact hpush _ fun update hmem hid hpending => hgathered.free hmem hid hpending
    · trivial

end Reconciler

end Zb.Mds
