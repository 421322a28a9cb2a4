-- SUMMARY: What an optical archive commit has seen when it writes, read off its program.
import ZBStorage.Mds.Service.FileMigration

/-!
# Optical archive commits

`HandleOpticalArchive` performs its checks and its commit under
`file_migration_mu_`, and its last check of the lease and the conditional batch
under the mutex of the leases.
-/

namespace Zb.Mds

open Zb.Rpc Bytes Handler Prog ArchiveLeaseManager

/-- The operations of an archive call besides its batch and its outer lock. -/
def ArchiveOp : MdsOp → Prop
  | .get _ | .ask _ | .nowMilliseconds | .lock .lease | .unlock .lease => True
  | _ => False

theorem archiveOp_of_isRead {o : MdsOp} (h : o.IsRead) : ArchiveOp o := by
  cases o with
  | get k => trivial
  | ask q => trivial
  | _ => exact h.elim

/-- A history of such operations. -/
abbrev Checks (d : MdsHistory) : Prop := AllOps ArchiveOp d

theorem silent_of_checks {d : MdsHistory} (h : Checks d) : Silent d := by
  rintro ⟨o, r⟩ hmem
  have ho : ArchiveOp o := h _ hmem
  cases o with
  | put k v => exact ho.elim
  | writeBatch batch => exact ho.elim
  | writeBatchIfValueEquals k expected batch => exact ho.elim
  | _ => rfl

theorem unlock_notMem_of_checks {d : MdsHistory} (h : Checks d) :
    ⟨.unlock .fileMigration, ()⟩ ∉ d := fun hmem => h _ hmem

/-! ## What a commit has seen -/

/-- The location of the source was read: from a hot inode on disk, or from an
    archived one. -/
def DiskRead (inodeId : UInt64) (d : MdsHistory) : Prop :=
  (∃ data attr, ⟨.get (.inode inodeId), .ok data⟩ ∈ d ∧ decodeUnifiedInodeAttr data = .ok attr ∧
    attr.storageTier = .disk) ∨
  ⟨.get (.inode inodeId), .error ""⟩ ∈ d

/-- The entries that install the location, built from another read of the inode;
    none if that read found nothing. -/
def SavedEntries (inodeId : UInt64) (target : OpticalFileLocation) (d : MdsHistory)
    (saved : WriteBatch) : Prop :=
  ((∃ e, ⟨.get (.inode inodeId), .error e⟩ ∈ d) ∧ saved = []) ∨
  ∃ data record entry encoded, ⟨.get (.inode inodeId), .ok data⟩ ∈ d ∧
    decodeUnifiedInodeRecord data = .ok record ∧
    encodeUnifiedInodeRecord (archivedRecord target entry record) = .ok encoded ∧
    saved = opticalLocationBatch inodeId encoded target

/-- The batch of a commit. -/
def archiveBatch (request : ModelOpticalArchiveRequest) (saved : WriteBatch) : WriteBatch :=
  saved ++ [.put (.modelOpticalArchiveCommit request.operationId) { request with commit := true }] ++
    [.delete (.fileArchiveState request.inodeId)]

/-- The lease was found held as the manifest says, and not expired. -/
def LeaseRead (request : ModelOpticalArchiveRequest) (source : DiskFileLocation)
    (d : MdsHistory) : Prop :=
  ∃ lease now, d = [⟨.get (.fileArchiveState request.inodeId), .ok lease⟩, ⟨.nowMilliseconds, now⟩] ∧
    heldBy lease source.nodeId source.diskId request.sourceLeaseId = true ∧
    now < lease.leaseExpireTsMs

theorem DiskRead.mono {inodeId : UInt64} {d d' : MdsHistory} (h : DiskRead inodeId d) (hsub : d ⊆ d') :
    DiskRead inodeId d' := by
  rcases h with ⟨data, attr, hmem, hdec⟩ | hmem
  · exact .inl ⟨data, attr, hsub hmem, hdec⟩
  · exact .inr (hsub hmem)

theorem SavedEntries.mono {inodeId : UInt64} {target : OpticalFileLocation} {d d' : MdsHistory}
    {saved : WriteBatch} (h : SavedEntries inodeId target d saved) (hsub : d ⊆ d') :
    SavedEntries inodeId target d' saved := by
  rcases h with ⟨⟨e, hmem⟩, hsaved⟩ | ⟨data, record, entry, encoded, hmem, hrest⟩
  · exact .inl ⟨⟨e, hsub hmem⟩, hsaved⟩
  · exact .inr ⟨data, record, entry, encoded, hsub hmem, hrest⟩

theorem LeaseRead.checks {request : ModelOpticalArchiveRequest} {source : DiskFileLocation}
    {d : MdsHistory} (h : LeaseRead request source d) :
    Checks (⟨.lock .lease, ()⟩ :: d) ∧ ⟨.unlock .lease, ()⟩ ∉ d := by
  obtain ⟨lease, now, rfl, -, -⟩ := h
  exact ⟨by simp [ArchiveOp], by simp⟩

/-- What an archive call has seen when it writes `batch` over `expected`. -/
structure ArchiveCommit (request : ModelOpticalArchiveRequest) (h : MdsHistory) (expected : Bytes)
    (batch : WriteBatch) : Prop where
  seen : ∃ source target d d', request.expectedSource = some source ∧ request.target = some target ∧
    h = ⟨.lock .fileMigration, ()⟩ :: d ∧ Checks d ∧
    ⟨.get (.modelOpticalArchiveCommit request.operationId), .error ""⟩ ∈ d ∧
    ⟨.get (.inode request.inodeId), .ok expected⟩ ∈ d ∧
    (∃ attr, decodeUnifiedInodeAttr expected = .ok attr ∧ manifestMatches request attr = true) ∧
    DiskRead request.inodeId d ∧
    (∃ saved, SavedEntries request.inodeId target d saved ∧ batch = archiveBatch request saved) ∧
    Holds .lease h d' ∧ LeaseRead request source d'

/-- The operations of an archive call. -/
def ArchiveRule (request : ModelOpticalArchiveRequest) (h : MdsHistory) : MdsOp → Prop
  | .writeBatchIfValueEquals (.inode inodeId) expected batch =>
      inodeId = request.inodeId ∧ ArchiveCommit request h expected batch
  | .lock .fileMigration | .unlock .fileMigration => True
  | o => ArchiveOp o

/-- A call answers "committed" after its batch, and anything else after writing
    nothing. -/
def ArchiveReturn (reply : ModelOpticalArchiveReply) (h : MdsHistory) : Prop :=
  Silent h ∨ (reply = { status := ⟨.ok, "committed"⟩ } ∧
    ∃ k expected batch, ⟨.writeBatchIfValueEquals k expected batch, .ok true⟩ ∈ h)

theorem archiveRule_of_archiveOp {request : ModelOpticalArchiveRequest} {h : MdsHistory} {o : MdsOp}
    (ho : ArchiveOp o) : ArchiveRule request h o := by
  cases o with
  | writeBatchIfValueEquals k expected batch => exact ho.elim
  | lock m => cases m <;> trivial
  | unlock m => cases m <;> trivial
  | _ => exact ho

/-! ## The stages of a call -/

section Follows

variable {request : ModelOpticalArchiveRequest} {h : MdsHistory}

/-- A part of a call that only checks extends its history by checks. -/
theorem follows_of_reads {α : Type} {p : Handler α} {Q : α → MdsHistory → Prop}
    (hp : Only MdsOp.IsRead p) (hQ : ∀ a d, Checks d → Q a (h ++ d)) :
    Follows (ArchiveRule request) p Q h :=
  hp.follows (fun _ _ _ ho => archiveRule_of_archiveOp (archiveOp_of_isRead ho))
    fun a d hd => hQ a d (hd.mono archiveOp_of_isRead)

/-- A resolution that finds a disk location started from an inode on disk. -/
theorem follows_resolveKnownInode {attr : InodeAttr}
    {Q : Except NamespaceStatus FileLocationView → MdsHistory → Prop}
    (hQ : ∀ r d, Checks d → (∀ view, r = .ok view → view.diskLocation ≠ none →
      attr.storageTier = .disk) → Q r (h ++ d)) :
    Follows (ArchiveRule request) (FileLocationResolver.resolveKnownInode attr) Q h := by
  have hfailed : ∀ {status d}, Checks d → Follows (ArchiveRule request)
      (.ret (.error status)) Q (h ++ d) := fun hd => hQ _ _ hd (by rintro view ⟨⟩)
  by_cases hdisk : attr.storageTier = .disk
  · exact follows_of_reads (FileLocationResolver.only_resolveKnownInode attr)
      fun r d hd => hQ r d hd fun _ _ _ => hdisk
  unfold FileLocationResolver.resolveKnownInode
  split
  · simpa using hfailed (d := []) allOps_nil
  split
  · refine follows_op.mpr ⟨trivial, fun r => ?_⟩
    cases hread : FileLocationResolver.readRecord r with
    | error status =>
        exact hfailed (by simp [ArchiveOp])
    | ok full =>
        refine follows_bind.mpr (follows_of_reads
          (FileLocationResolver.only_opticalLocation attr full) fun r d hd => ?_)
        rw [List.append_assoc]
        cases r with
        | error status => exact hfailed (by simp [ArchiveOp, hd])
        | ok location =>
            refine follows_op.mpr ⟨trivial, fun r => ?_⟩
            rw [List.append_assoc]
            cases r with
            | error e => exact hfailed (by simp [ArchiveOp, hd])
            | ok location =>
                refine follows_bind.mpr (follows_of_reads
                  (FileLocationResolver.only_resolveNode _ _ _) fun r d' hd' => ?_)
                rw [List.append_assoc]
                refine hQ _ _ (by simp [ArchiveOp, hd, hd']) ?_
                rintro view ⟨⟩ hview
                exact absurd rfl hview
  · next heq => exact absurd heq hdisk
  · simpa using hfailed (d := []) allOps_nil

/-- The last step of a load, which drops everything but a disk location. -/
theorem follows_diskLocationOf {inodeId : UInt64}
    {Q : Except String DiskFileLocation → MdsHistory → Prop}
    (hfail : ∀ e d, Checks d → Q (.error e) (h ++ d))
    (hok : ∀ location d, Checks d → DiskRead inodeId d → Q (.ok location) (h ++ d))
    {r : Except NamespaceStatus FileLocationView} {d : MdsHistory} (hd : Checks d)
    (hview : ∀ view, r = .ok view → view.diskLocation ≠ none → DiskRead inodeId d) :
    Follows (ArchiveRule request) (match r with
      | .error status => pure (.error (if status.code ≠ .notFound then status.message else ""))
      | .ok view =>
          match view.diskLocation with
          | none => pure (.error "")
          | some location => pure (.ok location)) Q (h ++ d) := by
  cases r with
  | error status => exact hfail _ _ hd
  | ok view =>
      cases hloc : view.diskLocation with
      | none => simpa [hloc] using hfail "" d hd
      | some location => simpa [hloc] using hok location d hd (hview view rfl (by simp [hloc]))

theorem follows_loadDiskFileLocation {inodeId : UInt64}
    {Q : Except String DiskFileLocation → MdsHistory → Prop}
    (hfail : ∀ e d, Checks d → Q (.error e) (h ++ d))
    (hok : ∀ location d, Checks d → DiskRead inodeId d → Q (.ok location) (h ++ d)) :
    Follows (ArchiveRule request) (loadDiskFileLocation inodeId) Q h := by
  have hlast := @follows_diskLocationOf request h inodeId Q hfail hok
  refine follows_bind.mpr ?_
  unfold FileLocationResolver.resolve
  split
  · have h₀ := hlast (d := []) (r := .error ⟨.invalidArgument, "invalid location query"⟩)
      allOps_nil (by rintro view ⟨⟩)
    rwa [List.append_nil] at h₀
  refine follows_bind.mpr (follows_routerGetInode (fun _ _ => trivial) (fun _ _ => trivial) ?_ ?_ ?_)
  · intro e d hd
    exact hlast (r := .error _) (hd.mono archiveOp_of_isRead) (by rintro view ⟨⟩)
  · intro data attr hdec
    simp only
    split
    · exact hlast (r := .error _) (by simp [ArchiveOp]) (by rintro view ⟨⟩)
    · refine follows_resolveKnownInode fun r d hd hview => ?_
      rw [List.append_assoc]
      refine hlast (by simp [ArchiveOp, hd]) fun view hr hloc => .inl ⟨data, attr, ?_, hdec, ?_⟩
      · simp
      · exact hview view hr hloc
  · intro attr
    simp only
    split
    · exact hlast (r := .error _) (by simp [ArchiveOp]) (by rintro view ⟨⟩)
    · refine follows_of_reads (FileLocationResolver.only_resolveKnownInode attr) fun r d hd => ?_
      rw [List.append_assoc]
      exact hlast (by simp [ArchiveOp, hd]) fun view hr hloc => .inr (by simp)

theorem follows_saveOpticalFileLocation {inodeId : UInt64} {target : OpticalFileLocation}
    {Q : Option WriteBatch → MdsHistory → Prop} (hnone : ∀ d, Checks d → Q none (h ++ d))
    (hsome : ∀ saved d, Checks d → SavedEntries inodeId target d saved → Q (some saved) (h ++ d)) :
    Follows (ArchiveRule request) (saveOpticalFileLocation inodeId target) Q h := by
  unfold saveOpticalFileLocation
  split
  · simpa using hnone [] allOps_nil
  refine follows_op.mpr ⟨trivial, fun r => ?_⟩
  cases r with
  | error e => exact hsome [] _ (by simp [ArchiveOp]) (.inl ⟨⟨e, by simp⟩, rfl⟩)
  | ok data =>
      cases hdec : decodeUnifiedInodeRecord data with
      | error e =>
          simp only [hdec]
          exact hnone _ (by simp [ArchiveOp])
      | ok record =>
          simp only [hdec]
          refine follows_op.mpr ⟨trivial, fun entry => ?_⟩
          rw [List.append_assoc]
          cases henc : encodeUnifiedInodeRecord (archivedRecord target entry record) with
          | error e => exact hnone _ (by simp [ArchiveOp])
          | ok encoded =>
              exact hsome _ _ (by simp [ArchiveOp])
                (.inr ⟨data, record, entry, encoded, by simp, hdec, henc, rfl⟩)

theorem only_checkLeaseLocked (inodeId : UInt64) (nodeId diskId leaseId : Bytes) :
    Only ArchiveOp (checkLeaseLocked inodeId nodeId diskId leaseId) := by
  refine ⟨trivial, fun r => ?_⟩
  cases r with
  | error e => trivial
  | ok lease =>
      show Only ArchiveOp (ite _ _ _)
      split
      · trivial
      · refine ⟨trivial, fun now => ?_⟩
        show Only ArchiveOp (ite _ _ _)
        split <;> trivial

theorem only_validateModelLease (inodeId : UInt64) (nodeId diskId leaseId : Bytes) :
    Only ArchiveOp (validateModelLease inodeId nodeId diskId leaseId) := by
  unfold validateModelLease
  split
  · trivial
  · refine ⟨trivial, fun _ => ?_⟩
    exact (only_checkLeaseLocked inodeId nodeId diskId leaseId).bind fun _ => ⟨trivial, fun _ => trivial⟩

theorem only_checkPhysical (physical : Bool) (source : DiskFileLocation)
    (entry : CmsNodeCatalogEntry) :
    Only MdsOp.IsRead (checkPhysical physical request source entry) := by
  unfold checkPhysical
  split
  · trivial
  · refine only_ask fun r => ?_
    cases r <;> trivial

/-- The fenced batch: the lease was just found held under its mutex. -/
theorem follows_commitModelLeaseWithInodeCas {source : DiskFileLocation} {expected : Bytes}
    {batch : WriteBatch} {Q : Except String Bool → MdsHistory → Prop}
    (hsilent : ∀ r d, r ≠ .ok true → Silent d → Q r (h ++ d))
    (hmatched : ∀ d, ⟨.writeBatchIfValueEquals (.inode request.inodeId) expected
      (batch ++ [.delete (.fileArchiveState request.inodeId)]), .ok true⟩ ∈ d → Q (.ok true) (h ++ d))
    (hcas : ∀ d, LeaseRead request source d → ArchiveRule request (h ++ ⟨.lock .lease, ()⟩ :: d)
      (.writeBatchIfValueEquals (.inode request.inodeId) expected
        (batch ++ [.delete (.fileArchiveState request.inodeId)]))) :
    Follows (ArchiveRule request) (commitModelLeaseWithInodeCas request.inodeId source.nodeId
      source.diskId request.sourceLeaseId expected batch) Q h := by
  unfold commitModelLeaseWithInodeCas
  split
  · simpa using hsilent (.error "incomplete modeled archive commit") [] (by simp) silent_nil
  -- every other end of the critical section
  have hend : ∀ r d, r ≠ .ok true → Silent d →
      Q r (h ++ [⟨.lock .lease, ()⟩] ++ d ++ [⟨.unlock .lease, ()⟩]) := by
    intro r d hr hd
    rw [List.append_assoc, List.append_assoc]
    refine hsilent r _ hr ?_
    have hlock : Silent [⟨.lock .lease, ()⟩] := silent_of_checks (by simp [ArchiveOp])
    have hunlock : Silent [⟨.unlock .lease, ()⟩] := silent_of_checks (by simp [ArchiveOp])
    exact silent_append.mpr ⟨hlock, silent_append.mpr ⟨hd, hunlock⟩⟩
  refine follows_withLock trivial (fun _ => trivial) (follows_bind.mpr ?_)
  refine follows_op.mpr ⟨trivial, fun r => ?_⟩
  cases r with
  | error e => exact hend (.error _) [_] (by simp) (by simp)
  | ok lease =>
      simp only
      split
      · exact hend (.error _) [_] (by simp) (by simp)
      · next hheld =>
          refine follows_op.mpr ⟨trivial, fun now => ?_⟩
          rw [List.append_assoc]
          split
          · exact hend (.error _) [_, _] (by simp) (silent_of_checks (by simp [ArchiveOp]))
          · next hexpire =>
              have hread : LeaseRead request source [⟨.get (.fileArchiveState request.inodeId),
                  .ok lease⟩, ⟨.nowMilliseconds, now⟩] :=
                ⟨lease, now, rfl, by simpa using hheld, UInt64.not_le.mp hexpire⟩
              refine follows_call.mpr ⟨?_, fun r => ?_⟩
              · rw [List.append_assoc]
                exact hcas _ hread
              · rw [List.append_assoc (h ++ _)]
                rcases r with e | (_ | _)
                · exact hend (.error e) [_, _, _] (by simp) (by simp [MdsOp.writes])
                · exact hend (.ok false) [_, _, _] (by simp) (by simp [MdsOp.writes])
                · rw [follows_ret, List.append_assoc, List.append_assoc]
                  exact hmatched _ (by simp)

/-! The stages under `file_migration_mu_`, after the checks `d`. -/

section Locked

variable {source : DiskFileLocation} {target : OpticalFileLocation} {d : MdsHistory}

/-- What is left to show of an answer given under the mutex. -/
def LockedReturn (reply : ModelOpticalArchiveReply) (h : MdsHistory) : Prop :=
  ArchiveReturn reply (h ++ [⟨.unlock .fileMigration, ()⟩])

theorem lockedReturn_of_silent {reply : ModelOpticalArchiveReply} {h : MdsHistory}
    (hd : Silent d) (hh : h = [⟨.lock .fileMigration, ()⟩] ++ d) : LockedReturn reply h := by
  subst hh
  refine .inl (silent_append.mpr ⟨silent_append.mpr ⟨?_, hd⟩, ?_⟩)
  · simp [MdsOp.writes]
  · simp [MdsOp.writes]

theorem follows_commitOpticalArchive {expected : Bytes} {attr : InodeAttr}
    (hsource : request.expectedSource = some source) (htarget : request.target = some target)
    (hd : Checks d)
    (hop : ⟨.get (.modelOpticalArchiveCommit request.operationId), .error ""⟩ ∈ d)
    (hread : ⟨.get (.inode request.inodeId), .ok expected⟩ ∈ d)
    (hattr : decodeUnifiedInodeAttr expected = .ok attr)
    (hmatch : manifestMatches request attr = true) (hdisk : DiskRead request.inodeId d) :
    Follows (ArchiveRule request) (commitOpticalArchive request source target expected)
      LockedReturn ([⟨.lock .fileMigration, ()⟩] ++ d) := by
  refine follows_bind.mpr (follows_saveOpticalFileLocation ?_ ?_)
  · intro d₁ hd₁
    exact lockedReturn_of_silent (silent_of_checks (allOps_append.mpr ⟨hd, hd₁⟩))
      (List.append_assoc _ _ _)
  · intro saved d₁ hd₁ hsaved
    have hchecks : Checks (d ++ d₁) := allOps_append.mpr ⟨hd, hd₁⟩
    rw [List.append_assoc]
    refine follows_bind.mpr (follows_commitModelLeaseWithInodeCas ?_ ?_ ?_)
    · intro r d₂ hr hd₂
      have hsilent : Silent (d ++ d₁ ++ d₂) := silent_append.mpr ⟨silent_of_checks hchecks, hd₂⟩
      rcases r with e | (_ | _)
      · exact lockedReturn_of_silent hsilent (List.append_assoc _ _ _)
      · exact lockedReturn_of_silent hsilent (List.append_assoc _ _ _)
      · exact absurd rfl hr
    · intro d₂ hmem
      refine .inr ⟨rfl, _, _, _, List.mem_append_left _ (List.mem_append_right _ hmem)⟩
    · intro d' hlease
      obtain ⟨hlock, hunlock⟩ := hlease.checks
      refine ⟨rfl, ⟨source, target, d ++ d₁ ++ ⟨.lock .lease, ()⟩ :: d', d', hsource, htarget, ?_, ?_,
        by simp [hop], by simp [hread], ⟨attr, hattr, hmatch⟩, ?_, ⟨saved, ?_, rfl⟩,
        ⟨⟨_, rfl⟩, hunlock⟩, hlease⟩⟩
      · simp
      · exact allOps_append.mpr ⟨hchecks, hlock⟩
      · exact hdisk.mono (by simp)
      · exact hsaved.mono (by simp)

theorem follows_validateOpticalArchive {physical : Bool} {sourceEntry : CmsNodeCatalogEntry}
    (hsource : request.expectedSource = some source) (htarget : request.target = some target)
    (hd : Checks d)
    (hop : ⟨.get (.modelOpticalArchiveCommit request.operationId), .error ""⟩ ∈ d) :
    Follows (ArchiveRule request)
      (validateOpticalArchive request source target physical sourceEntry)
      LockedReturn ([⟨.lock .fileMigration, ()⟩] ++ d) := by
  have hfailed : ∀ {reply d₁}, Checks d₁ → Follows (ArchiveRule request) (.ret reply) LockedReturn
      ([⟨.lock .fileMigration, ()⟩] ++ (d ++ d₁)) := fun hd₁ =>
    lockedReturn_of_silent (silent_of_checks (allOps_append.mpr ⟨hd, hd₁⟩)) rfl
  refine follows_op.mpr ⟨trivial, fun r => ?_⟩
  rw [List.append_assoc]
  cases r with
  | error e => exact hfailed (by simp [ArchiveOp])
  | ok expected =>
  cases hattr : decodeUnifiedInodeAttr expected with
  | error e =>
      simp only [hattr]
      exact hfailed (by simp [ArchiveOp])
  | ok attr =>
  simp only [hattr]
  refine follows_bind.mpr (follows_loadDiskFileLocation ?_ ?_)
  · intro e d₁ hd₁
    rw [List.append_assoc, List.append_assoc]
    exact hfailed (by simp [ArchiveOp, hd₁])
  intro current d₁ hd₁ hdisk
  rw [List.append_assoc, List.append_assoc]
  simp only
  split
  · exact hfailed (by simp [ArchiveOp, hd₁])
  · next hmatches =>
  have hmatch : manifestMatches request attr = true := by
    simp only [Bool.not_eq_true', not_or, Bool.not_eq_false] at hmatches
    exact hmatches.1
  refine follows_bind.mpr ((only_validateModelLease _ _ _ _).follows
    (fun _ _ _ ho => archiveRule_of_archiveOp ho) fun r d₂ hd₂ => ?_)
  rw [List.append_assoc, List.append_assoc, List.append_assoc]
  cases r with
  | error e => exact hfailed (by simp [ArchiveOp, hd₁, hd₂])
  | ok u =>
  refine follows_bind.mpr (follows_of_reads (only_checkPhysical physical source sourceEntry)
    fun r d₃ hd₃ => ?_)
  rw [List.append_assoc, List.append_assoc, List.append_assoc, List.append_assoc]
  cases r with
  | some e => exact hfailed (by simp [ArchiveOp, hd₁, hd₂, hd₃])
  | none =>
  simp only
  split
  · exact hfailed (by simp [ArchiveOp, hd₁, hd₂, hd₃])
  · exact follows_commitOpticalArchive hsource htarget (by simp [ArchiveOp, hd, hd₁, hd₂, hd₃])
      (by simp [hop]) (by simp) hattr hmatch (hdisk.mono fun x hx => by simp [hx])

theorem follows_handleOpticalArchive (request : ModelOpticalArchiveRequest) (physical : Bool) :
    Follows (ArchiveRule request) (handleOpticalArchive request physical) ArchiveReturn [] := by
  unfold handleOpticalArchive
  split
  · next source target hsource htarget =>
    split
    · exact .inl silent_nil
    refine follows_withLock trivial (fun _ => trivial) ?_
    show Follows _ _ LockedReturn ([⟨.lock .fileMigration, ()⟩])
    have hfailed : ∀ {reply d₁}, Checks d₁ → Follows (ArchiveRule request) (.ret reply) LockedReturn
        ([⟨.lock .fileMigration, ()⟩] ++ d₁) := fun hd₁ =>
      lockedReturn_of_silent (silent_of_checks hd₁) rfl
    refine follows_op.mpr ⟨trivial, fun r => ?_⟩
    cases r with
    | ok previous =>
        simp only
        split <;> exact hfailed (by simp [ArchiveOp])
    | error e =>
    by_cases he : e = ""
    · subst he
      simp only [ne_eq, not_true_eq_false, if_false]
      refine follows_op.mpr ⟨trivial, fun r => ?_⟩
      rw [List.append_assoc]
      cases r with
      | none => exact hfailed (by simp [ArchiveOp])
      | some sourceEntry =>
      simp only
      split
      · exact hfailed (by simp [ArchiveOp])
      refine follows_op.mpr ⟨trivial, fun r => ?_⟩
      rw [List.append_assoc]
      cases r with
      | none => exact hfailed (by simp [ArchiveOp])
      | some targetEntry =>
      simp only
      split
      · exact hfailed (by simp [ArchiveOp])
      · exact follows_validateOpticalArchive hsource htarget (by simp [ArchiveOp]) (by simp)
    · simp only [ne_eq, he, not_false_eq_true, if_true]
      exact hfailed (by simp [ArchiveOp])
  · exact .inl silent_nil

end Locked

end Follows

/-! ## Commits -/

variable {ι : Type}

/-- What an archive call writes, it writes with its conditional batch. -/
theorem archive_write {request : ModelOpticalArchiveRequest} {h : MdsHistory} {e : MdsEvent ι}
    (hrule : ArchiveRule request h e.op) (hwrites : writesOf e ≠ []) :
    ∃ expected batch, ArchiveCommit request h expected batch ∧
      e = ⟨e.tid, .writeBatchIfValueEquals (.inode request.inodeId) expected batch, .ok true⟩ := by
  obtain ⟨i, o, r⟩ := e
  cases o with
  | writeBatchIfValueEquals k expected batch =>
      cases k with
      | inode id =>
          rcases r with e | (_ | _)
          · exact absurd rfl hwrites
          · exact absurd rfl hwrites
          · obtain ⟨rfl, hcommit⟩ := hrule
            exact ⟨expected, batch, hcommit, rfl⟩
      | _ => exact hrule.elim
  | put k v => exact hrule.elim
  | writeBatch batch => exact hrule.elim
  | _ => exact absurd rfl hwrites

theorem ArchiveCommit.holds_fileMigration {request : ModelOpticalArchiveRequest} {h : MdsHistory}
    {expected : Bytes} {batch : WriteBatch} (hcommit : ArchiveCommit request h expected batch) :
    ∃ d, Holds .fileMigration h d ∧ Silent d ∧
      ⟨.get (.modelOpticalArchiveCommit request.operationId), .error ""⟩ ∈ d ∧
      DiskRead request.inodeId d := by
  obtain ⟨source, target, d, d', -, -, rfl, hchecks, hop, -, -, hdisk, -⟩ := hcommit.seen
  exact ⟨d, ⟨⟨[], rfl⟩, unlock_notMem_of_checks hchecks⟩, silent_of_checks hchecks, hop, hdisk⟩

/-! ## A file to be archived -/

def sampleLibrary : OpticalFileLocation where
  nodeId := ofAscii "optical-07"
  nodeAddress := ofAscii "optical-07:8100"
  diskId := ofAscii "disc-1"
  imageId := ofAscii "img-1"
  instanceGeneration := 1

def sampleManifest : ModelOpticalArchiveRequest where
  operationId := ofAscii "op-1"
  sourceLeaseId := ofAscii "lease-1"
  inodeId := 2
  sourceVersion := 5
  size := 10
  expectedSource := some firstDisk
  target := some sampleLibrary
  commit := true

/-- The sample file, leased by the node that stores it. -/
def leasedState : MdsState Bool :=
  { diskState with
    db := diskState.db.insert (.fileArchiveState 2)
      { state := .archiving, ownerNodeId := firstDisk.nodeId, ownerDiskId := firstDisk.diskId,
        leaseId := ofAscii "lease-1", leaseExpireTsMs := 60000, version := 2, inodeId := 2 } }

/-- A node registry with virtual nodes only. The library is ready. -/
def archiveRegistry : Oracle :=
  { openRegistry with
    milliseconds := 1000
    answer
      | .getCommittedNode nodeId =>
          some (if nodeId = sampleLibrary.nodeId then
            { kind := .opticalLibrary, executionMode := .virtual, lifecycle := .working
              readiness := some true, serviceAddress := sampleLibrary.nodeAddress
              instanceGeneration := 1, compactId := 7 }
          else { kind := .storage, executionMode := .virtual, instanceGeneration := 1 })
      | q => openRegistry.answer q }

end Zb.Mds
