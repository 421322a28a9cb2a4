-- SUMMARY: Runs of the stager that a crash ends between two steps on its files, and when a new stager holds the batch.
import ZBStorage.Mds.Archive.StagingDirectory

/-!
# Crashes of the stager

The manifest is removed before the new one takes its place, and the file of an object
that is done or removed goes before the manifest stops naming it: a crash in between
loses the batch, or leaves an object without its bytes.
-/

namespace Zb.Mds.ArchiveBatchStager

open Bytes TextFields FileSteps CallHistory
open DataNode (Plain)

variable {scores : ScoreText} {stager stager' : ArchiveBatchStager} {objectId : Bytes}
  {staged staged' : StagedArchiveObject} {files : StagingFiles} {content : Bytes → Bytes}
  {entries : List StagedArchiveObject}

/-! ## What the operations do to the batch -/

variable {request : StageRequest} {now : UInt64} {w : Staging} {op : Operation}

/-- What an operation does to the files of the objects before it writes the manifest: nothing,
    and then the objects that stay keep their files; it puts the file of a new object there; or
    it removes the file of an object that it takes out of the batch. -/
inductive Prelude (stager after : ArchiveBatchStager) (content : Bytes → Bytes) :
    List (Step Bytes Bytes) → (Bytes → Bytes) → Prop
  | nothing
      (hkept : ∀ staged ∈ after.pending, ∃ old ∈ stager.pending,
        old.dataFile = staged.dataFile ∧ old.candidate.objectId = staged.candidate.objectId) :
      Prelude stager after content [] content
  | put (request : StageRequest) (hnew : request.candidate.objectId ∉ stager.objects)
      (hpending : after.pending = stager.pending ++ [request.staged stager]) :
      Prelude stager after content
        (replace (tmpPath (stager.objectFilePath request.candidate.objectId))
          (stager.objectFilePath request.candidate.objectId) request.data)
        (Function.update content request.candidate.objectId request.data)
  | drop (staged : StagedArchiveObject) (hmem : staged ∈ stager.ordered)
      (hpending : after.pending = stager.pending.filter
        fun other => other.candidate.objectId ≠ staged.candidate.objectId) :
      Prelude stager after content [.remove staged.dataFile] content

/-- What an operation does: nothing at all, or it writes the batch that it leaves. -/
structure Effect (scores : ScoreText) (w : Staging) (op : Operation) : Prop where
  batch : Batch scores (w.stager.after op)
  stagingDir : (w.stager.after op).stagingDir = w.stager.stagingDir
  steps : w.stager.stepsBefore op = none ∧ w.stager.after op = w.stager ∧
      w.contentAfter op = w.content ∨
    ∃ steps, w.stager.stepsBefore op = some steps ∧
      Prelude w.stager (w.stager.after op) w.content steps (w.contentAfter op)

theorem Effect.idle (h : Batch scores w.stager) (hsteps : w.stager.stepsBefore op = none)
    (hafter : w.stager.after op = w.stager) (hcontent : w.contentAfter op = w.content) :
    Effect scores w op :=
  ⟨hafter.symm ▸ h, by rw [hafter], .inl ⟨hsteps, hafter, hcontent⟩⟩

theorem stageObject_stored (stager : ArchiveBatchStager) (request : StageRequest) (now : UInt64) :
    ((stager.stageObject request .stored now .stored).2 = stager ∧
        ∀ result, (stager.stageObject request .stored now .stored).1 = .ok result → result = {}) ∨
      stager.Accepted request ∧ stager.stageObject request .stored now .stored =
        (.ok { deferred := true }, { stager with isSealed := true }) ∨
      stager.Accepted request ∧ stager.stageObject request .stored now .stored =
        (.ok { inserted := true }, stager.add request now) := by
  by_cases haccepted : stager.Accepted request
  swap
  · exact .inl (stageObject_of_not_accepted .stored now .stored haccepted)
  unfold stageObject
  rw [if_neg haccepted.named, if_neg (by rw [haccepted.inited]; exact Bool.false_ne_true),
    if_neg (by rw [haccepted.unsealed]; exact Bool.false_ne_true), if_neg haccepted.new,
    if_neg (UInt64.not_lt.mpr haccepted.small)]
  rcases stager.spills (UInt64.ofNat request.data.length) with _ | _
  · exact .inr (.inr ⟨haccepted, rfl⟩)
  · exact .inr (.inl ⟨haccepted, rfl⟩)

theorem plain_objectFilePath {dir : Bytes} (hdir : Plain dir)
    (hid : Plain objectId) (hstager : stager.stagingDir = dir) :
    Plain (stager.objectFilePath objectId) := by
  have hmiddle : Plain (ofAscii "/objects/") := by decide
  have hend : Plain (ofAscii ".bin") := by decide
  simp only [Plain, objectFilePath, hstager, List.mem_append, not_or] at *
  exact ⟨⟨⟨⟨hdir.1, hmiddle.1⟩, hid.1⟩, hend.1⟩, ⟨⟨hdir.2, hmiddle.2⟩, hid.2⟩, hend.2⟩

/-- A batch whose objects are the same in memory. -/
theorem Batch.congr (h : Batch scores stager) (hinited : stager'.inited = stager.inited)
    (hdir : stager'.stagingDir = stager.stagingDir) (hbatch : stager'.batchId = stager.batchId)
    (hobjects : stager'.objects = stager.objects)
    (horder : stager'.objectOrder = stager.objectOrder)
    (htotal : stager'.totalBytes = stager.totalBytes) : Batch scores stager' := by
  have hordered : stager'.ordered = stager.ordered := ordered_congr hobjects horder
  exact
    { inited := hinited.trans h.inited
      stagingDir := hdir ▸ h.stagingDir
      stagingDir_ne := hdir ▸ h.stagingDir_ne
      batchId := hbatch ▸ h.batchId
      batchId_ne := hbatch ▸ h.batchId_ne
      indexed := h.indexed.congr hobjects horder
      plain := hordered ▸ h.plain
      dataFile := by
        rw [hordered]
        intro staged hmem
        rw [h.dataFile staged hmem, objectFilePath, objectFilePath, hdir]
      bytes := by rw [hordered, htotal]; exact h.bytes }

theorem Prelude.same (hordered : stager'.ordered = stager.ordered) {content : Bytes → Bytes} :
    Prelude stager stager' content [] content := by
  refine .nothing fun staged hmem => ⟨staged, ?_, rfl, rfl⟩
  rw [pending, hordered] at hmem
  exact hmem

theorem Batch.sealed (h : Batch scores stager) : Batch scores { stager with isSealed := true } :=
  h.congr rfl rfl rfl rfl rfl rfl

/-- The batch with an object more, whatever else changes with it. -/
theorem Batch.add (h : Batch scores stager) (hnew : request.candidate.objectId ∉ stager.objects)
    (hplain : PlainObject scores (request.staged stager))
    (hwrap : stager.totalBytes.toNat + request.data.length < 2 ^ 64) :
    Batch scores (stager.add request now) ∧
      (stager.add request now).pending = stager.pending ++ [request.staged stager] := by
  have hordered : (stager.add request now).ordered = stager.ordered ++ [request.staged stager] :=
    (ordered_congr rfl rfl).trans
      (@Indexed.ordered_append stager (request.staged stager) h.indexed hnew)
  have hindexed : (stager.add request now).Indexed :=
    (@Indexed.append stager (request.staged stager) h.indexed hnew).congr rfl rfl
  refine ⟨?_, ?_⟩
  · exact
      { inited := h.inited
        stagingDir := h.stagingDir
        stagingDir_ne := h.stagingDir_ne
        batchId := h.batchId
        batchId_ne := h.batchId_ne
        indexed := hindexed
        plain := by
          rw [hordered]
          intro staged hmem
          rcases List.mem_append.mp hmem with hmem | hmem
          · exact h.plain staged hmem
          · rw [List.mem_singleton.mp hmem]
            exact hplain
        dataFile := by
          rw [hordered]
          intro staged hmem
          rcases List.mem_append.mp hmem with hmem | hmem
          · exact h.dataFile staged hmem
          · rw [List.mem_singleton.mp hmem]
            rfl
        bytes := by
          have htotal : (stager.add request now).totalBytes =
              stager.totalBytes + UInt64.ofNat request.data.length := rfl
          have hbytes := h.bytes
          rw [hordered, List.map_append, List.sum_append, htotal, toNat_add_length hwrap]
          simp only [List.map_cons, List.map_nil, List.sum_singleton, StageRequest.staged,
            toNat_ofNat_length hwrap]
          omega }
  · rw [pending, hordered, List.filter_append, pending]
    rfl

theorem Batch.stageObject (h : Batch scores w.stager)
    (hcarried : Operation.Carried scores w (.stageObject request now)) :
    Effect scores w (.stageObject request now) := by
  obtain ⟨hcandidate, hlease, hop, hkey, -, hwrap⟩ := hcarried
  have hplain : PlainObject scores (request.staged w.stager) :=
    ⟨hcandidate, hlease, hop, hkey, plain_objectFilePath h.stagingDir hcandidate.objectId rfl,
      List.append_ne_nil_of_right_ne_nil _ (by decide)⟩
  rcases stageObject_stored w.stager request now with
    ⟨hsame, hresult⟩ | ⟨-, hspilled⟩ | ⟨haccepted, hadded⟩
  · refine .idle h ?_ hsame ?_
    · simp only [stepsBefore]
      split
      · rfl
      · next result hok =>
          rw [hresult result hok]
          rfl
    · simp only [Staging.contentAfter]
      split
      · next hok => exact absurd (congrArg StageResult.inserted (hresult _ hok)) (by simp)
      · rfl
  · have hafter : w.stager.after (.stageObject request now) =
        { w.stager with isSealed := true } := congrArg Prod.snd hspilled
    have hcontent : w.contentAfter (.stageObject request now) = w.content := by
      simp only [Staging.contentAfter, hspilled]
    refine ⟨hafter ▸ h.sealed, by rw [hafter], .inr ⟨[], ?_, ?_⟩⟩
    · simp only [stepsBefore, hspilled]
      rfl
    · have hordered : ({ w.stager with isSealed := true } : ArchiveBatchStager).ordered =
          w.stager.ordered := ordered_congr rfl rfl
      rw [hcontent, hafter]
      exact .same hordered
  · have hafter : w.stager.after (.stageObject request now) = w.stager.add request now :=
      congrArg Prod.snd hadded
    have hcontent : w.contentAfter (.stageObject request now) =
        Function.update w.content request.candidate.objectId request.data := by
      simp only [Staging.contentAfter, hadded]
    obtain ⟨hbatch, hpending⟩ := @Batch.add _ _ _ now h haccepted.new hplain hwrap
    refine ⟨hafter ▸ hbatch, by rw [hafter]; rfl, .inr
      ⟨FileSteps.replace (tmpPath (w.stager.objectFilePath request.candidate.objectId))
        (w.stager.objectFilePath request.candidate.objectId) request.data, ?_, ?_⟩⟩
    · simp only [stepsBefore, hadded]
      rfl
    · rw [hcontent, hafter]
      exact .put request haccepted.new hpending

theorem Batch.sealIfReady (h : Batch scores w.stager) : Effect scores w (.sealIfReady now) := by
  by_cases hready : (w.stager.inited && !w.stager.isSealed && w.stager.isReadyToSeal now) = true
  · have hafter : w.stager.after (.sealIfReady now) = { w.stager with isSealed := true } := by
      simp only [Bool.and_eq_true, Bool.not_eq_true'] at hready
      simp [after, ArchiveBatchStager.sealIfReady, hready]
    have hordered : ({ w.stager with isSealed := true } : ArchiveBatchStager).ordered =
        w.stager.ordered := ordered_congr rfl rfl
    refine ⟨hafter ▸ h.sealed, by rw [hafter], .inr ⟨[], if_pos hready, ?_⟩⟩
    rw [hafter]
    exact .same hordered
  · refine .idle h (if_neg hready) ?_ rfl
    simp only [after, ArchiveBatchStager.sealIfReady]
    split
    · rfl
    · split
      · rfl
      · next hinited hsealed =>
          rw [if_pos]
          simpa [Bool.eq_false_of_not_eq_true hsealed, h.inited] using hready

/-- An object changes in what its file does not tell. -/
structure SameFile (staged staged' : StagedArchiveObject) : Prop where
  candidate : staged'.candidate = staged.candidate
  sizeBytes : staged'.sizeBytes = staged.sizeBytes
  dataFile : staged'.dataFile = staged.dataFile

theorem Batch.update (h : Batch scores stager)
    (hlookup : stager.objects.lookup objectId = some staged) (hsame : SameFile staged staged')
    (hplain : PlainObject scores staged') :
    Batch scores { stager with objects := stager.objects.insert objectId staged' } := by
  have hname := h.indexed.named hlookup
  have hmem : objectId ∈ stager.objects := AList.lookup_isSome.mp (Option.isSome_of_eq_some hlookup)
  have hstaged : staged ∈ stager.ordered := h.indexed.mem_ordered.mpr (hname.symm ▸ hlookup)
  have hordered := @Indexed.ordered_replace _ objectId staged' h.indexed
  have honly : ∀ other ∈ stager.ordered, other.candidate.objectId = objectId → other = staged := by
    intro other hother hid
    have hlookup' := h.indexed.mem_ordered.mp hother
    rw [hid, hlookup] at hlookup'
    exact (Option.some.inj hlookup').symm
  exact
    { inited := h.inited
      stagingDir := h.stagingDir
      stagingDir_ne := h.stagingDir_ne
      batchId := h.batchId
      batchId_ne := h.batchId_ne
      indexed := h.indexed.replace hmem (hsame.candidate ▸ hname)
      plain := by
        rw [hordered]
        intro other hother
        obtain ⟨old, hold, rfl⟩ := List.mem_map.mp hother
        split
        · exact hplain
        · exact h.plain old hold
      dataFile := by
        rw [hordered]
        intro other hother
        obtain ⟨old, hold, rfl⟩ := List.mem_map.mp hother
        split
        · rw [hsame.dataFile, hsame.candidate]
          exact h.dataFile staged hstaged
        · exact h.dataFile old hold
      bytes := by
        rw [hordered, List.map_map]
        refine Nat.le_trans (Nat.le_of_eq (congrArg List.sum ?_)) h.bytes
        refine List.map_congr_left fun old hold => ?_
        show (if old.candidate.objectId = objectId then staged' else old).sizeBytes.toNat = _
        split
        · next hid => rw [honly old hold hid, hsame.sizeBytes]
        · rfl }

theorem Batch.updateObjectLease {leaseId opId : Bytes} {version : UInt64}
    (h : Batch scores w.stager) (hlease : Plain leaseId) (hop : Plain opId) :
    Effect scores w (.updateObjectLease objectId leaseId opId version) := by
  cases hlookup : w.stager.objects.lookup objectId with
  | none =>
      refine .idle h ?_ ?_ rfl
      · simp only [stepsBefore, hlookup, Option.map_none]
      · simp only [after, ArchiveBatchStager.updateObjectLease, hlookup]
  | some staged =>
      have hname := h.indexed.named hlookup
      have hstaged : staged ∈ w.stager.ordered :=
        h.indexed.mem_ordered.mpr (hname.symm ▸ hlookup)
      have hplain := h.plain staged hstaged
      have hafter : w.stager.after (.updateObjectLease objectId leaseId opId version) =
          { w.stager with
            objects := w.stager.objects.insert objectId { staged with leaseId, opId, version } } := by
        simp only [after, ArchiveBatchStager.updateObjectLease, hlookup]
      have hbatch := @Batch.update _ _ _ _ { staged with leaseId, opId, version } h hlookup
        ⟨rfl, rfl, rfl⟩
        ⟨hplain.candidate, hlease, hop, hplain.objectKey, hplain.dataFile, hplain.dataFile_ne⟩
      refine ⟨hafter ▸ hbatch, by rw [hafter], .inr ⟨[], ?_, ?_⟩⟩
      · simp only [stepsBefore, hlookup, Option.map_some]
      · rw [hafter]
        refine .nothing fun other hother => ?_
        obtain ⟨hmem, hdone⟩ := mem_pending.mp hother
        rw [@Indexed.ordered_replace _ objectId _ h.indexed] at hmem
        obtain ⟨old, hold, rfl⟩ := List.mem_map.mp hmem
        split at hdone
        · next hid =>
            have hlookup' := h.indexed.mem_ordered.mp hold
            rw [hid, hlookup] at hlookup'
            cases hlookup'
            rw [if_pos hid]
            exact ⟨staged, mem_pending.mpr ⟨hold, hdone⟩, rfl, rfl⟩
        · next hid =>
            rw [if_neg hid]
            exact ⟨old, mem_pending.mpr ⟨hold, hdone⟩, rfl, rfl⟩

/-- An object that becomes done is no longer pending. -/
theorem filter_map_done (hdone : staged'.done = true) :
    (entries.map fun staged => if staged.candidate.objectId = objectId then staged' else staged).filter
        (fun staged => !staged.done) =
      (entries.filter fun staged => !staged.done).filter
        fun staged => staged.candidate.objectId ≠ objectId := by
  induction entries with
  | nil => rfl
  | cons staged entries ih =>
      rw [List.map_cons]
      by_cases hid : staged.candidate.objectId = objectId
      · rw [if_pos hid, List.filter_cons_of_neg (by simp [hdone]), ih]
        by_cases hstaged : staged.done = true
        · rw [List.filter_cons_of_neg (a := staged) (by simp [hstaged])]
        · rw [List.filter_cons_of_pos (a := staged) (by simp [hstaged]),
            List.filter_cons_of_neg (by simp [hid])]
      · rw [if_neg hid]
        by_cases hstaged : staged.done = true
        · rw [List.filter_cons_of_neg (by simp [hstaged]), ih,
            List.filter_cons_of_neg (by simp [hstaged])]
        · rw [List.filter_cons_of_pos (by simp [hstaged]), ih,
            List.filter_cons_of_pos (by simp [hstaged]), List.filter_cons_of_pos (by simp [hid])]

theorem Batch.markObjectDone (h : Batch scores w.stager) :
    Effect scores w (.markObjectDone objectId) := by
  cases hlookup : w.stager.objects.lookup objectId with
  | none =>
      refine .idle h ?_ ?_ rfl
      · simp only [stepsBefore, hlookup]
      · simp only [after, ArchiveBatchStager.markObjectDone, hlookup]
  | some staged =>
      have hname := h.indexed.named hlookup
      have hstaged : staged ∈ w.stager.ordered :=
        h.indexed.mem_ordered.mpr (hname.symm ▸ hlookup)
      have hplain := h.plain staged hstaged
      by_cases hdone : staged.done = true
      · refine .idle h ?_ ?_ rfl
        · simp only [stepsBefore, hlookup, hdone, if_true]
        · simp only [after, ArchiveBatchStager.markObjectDone, hlookup, hdone, if_true]
      · have hafter : w.stager.after (.markObjectDone objectId) =
            { w.stager with
              objects := w.stager.objects.insert objectId { staged with done := true } } := by
          simp only [after, ArchiveBatchStager.markObjectDone, hlookup, hdone]
          rfl
        have hbatch := @Batch.update _ _ _ _ { staged with done := true } h hlookup
          ⟨rfl, rfl, rfl⟩
          ⟨hplain.candidate, hplain.leaseId, hplain.opId, hplain.objectKey, hplain.dataFile,
            hplain.dataFile_ne⟩
        refine ⟨hafter ▸ hbatch, by rw [hafter], .inr ⟨[.remove staged.dataFile], ?_, ?_⟩⟩
        · simp only [stepsBefore, hlookup, hdone]
          rfl
        · rw [hafter]
          refine .drop staged hstaged ?_
          rw [pending, @Indexed.ordered_replace _ objectId _ h.indexed, hname, pending]
          exact filter_map_done rfl

/-- Without an object the sizes are less by its size. -/
theorem sum_filter_add_le {p : StagedArchiveObject → Bool} (hmem : staged ∈ entries)
    (hout : p staged = false) :
    ((entries.filter p).map (·.sizeBytes.toNat)).sum + staged.sizeBytes.toNat ≤
      (entries.map (·.sizeBytes.toNat)).sum := by
  induction entries with
  | nil => cases hmem
  | cons first entries ih =>
      have hle : ((entries.filter p).map (·.sizeBytes.toNat)).sum ≤
          (entries.map (·.sizeBytes.toNat)).sum :=
        (List.filter_sublist.map _).sum_le_sum fun _ _ => Nat.zero_le _
      rcases List.mem_cons.mp hmem with rfl | hmem
      · rw [List.filter_cons_of_neg (by simp [hout]), List.map_cons, List.sum_cons]
        omega
      · have hrest := ih hmem
        rw [List.map_cons, List.sum_cons]
        by_cases hfirst : p first = true
        · rw [List.filter_cons_of_pos hfirst, List.map_cons, List.sum_cons]
          omega
        · rw [List.filter_cons_of_neg hfirst]
          omega

theorem Batch.removeObject (h : Batch scores w.stager) :
    Effect scores w (.removeObject objectId) := by
  cases hlookup : w.stager.objects.lookup objectId with
  | none =>
      refine .idle h ?_ ?_ rfl
      · simp only [stepsBefore, hlookup, Option.map_none]
      · simp only [after, ArchiveBatchStager.removeObject, hlookup]
  | some staged =>
      have hname := h.indexed.named hlookup
      have hstaged : staged ∈ w.stager.ordered :=
        h.indexed.mem_ordered.mpr (hname.symm ▸ hlookup)
      generalize htotal : (if w.stager.totalBytes > staged.sizeBytes then
        w.stager.totalBytes - staged.sizeBytes else 0) = total
      have hafter : w.stager.after (.removeObject objectId) =
          { w.stager.without objectId with totalBytes := total } := by
        simp only [after, ArchiveBatchStager.removeObject, hlookup, htotal]
        rfl
      have hordered : ({ w.stager.without objectId with totalBytes := total } :
          ArchiveBatchStager).ordered =
            w.stager.ordered.filter fun other => other.candidate.objectId ≠ objectId :=
        (ordered_congr rfl rfl).trans h.indexed.ordered_without
      have hbatch : Batch scores { w.stager.without objectId with totalBytes := total } :=
        { inited := h.inited
          stagingDir := h.stagingDir
          stagingDir_ne := h.stagingDir_ne
          batchId := h.batchId
          batchId_ne := h.batchId_ne
          indexed := h.indexed.without.congr rfl rfl
          plain := by
            rw [hordered]
            exact fun other hother => h.plain other (List.mem_filter.mp hother).1
          dataFile := by
            rw [hordered]
            exact fun other hother => h.dataFile other (List.mem_filter.mp hother).1
          bytes := by
            have hbytes := h.bytes
            have hrest := @sum_filter_add_le staged w.stager.ordered
              (fun other => other.candidate.objectId ≠ objectId) hstaged (by simp [hname])
            rw [hordered]
            show _ ≤ total.toNat
            rw [← htotal]
            split
            · next hlarger =>
                rw [UInt64.toNat_sub_of_le _ _ (UInt64.le_of_lt hlarger)]
                omega
            · next hnot =>
                rw [gt_iff_lt, UInt64.lt_iff_toNat_lt] at hnot
                rw [UInt64.toNat_zero]
                omega }
      refine ⟨hafter ▸ hbatch, by rw [hafter]; rfl, .inr ⟨[.remove staged.dataFile], ?_, ?_⟩⟩
      · simp only [stepsBefore, hlookup, Option.map_some]
      · rw [hafter]
        refine .drop staged hstaged ?_
        rw [pending, hordered, hname, pending, List.filter_filter, List.filter_filter]
        exact List.filter_congr fun other _ => Bool.and_comm _ _

theorem plain_buildBatchId {now : UInt64} : Plain (buildBatchId now) := by
  have hstart : Plain (ofAscii "batch_") := by decide
  have hnumber := DataNode.plain_decimal now.toNat
  simp only [Plain, buildBatchId, List.mem_append, not_or]
  exact ⟨⟨hstart.1, hnumber.1⟩, hstart.2, hnumber.2⟩

theorem buildBatchId_ne_nil {now : UInt64} : buildBatchId now ≠ [] :=
  List.append_ne_nil_of_right_ne_nil _ (decimal_ne_nil _)

theorem Batch.resetIfDrained (h : Batch scores w.stager) :
    Effect scores w (.resetIfDrained now) := by
  by_cases hidle : (!w.stager.inited || !w.stager.isSealed) = true
  · refine .idle h (if_pos hidle) ?_ rfl
    simp only [after, ArchiveBatchStager.resetIfDrained, hidle, if_true]
  · by_cases hpending : (w.stager.objects.entries.any fun item => !item.2.done) = true
    · refine .idle h ((if_neg hidle).trans (if_pos hpending)) ?_ rfl
      simp only [after, ArchiveBatchStager.resetIfDrained, hidle, hpending, if_true]
      rfl
    · have hafter : w.stager.after (.resetIfDrained now) =
          { w.stager with
            objects := ∅
            objectOrder := []
            totalBytes := 0
            isSealed := false
            createdTsMs := now
            batchId := buildBatchId now } := by
        simp only [after, ArchiveBatchStager.resetIfDrained, hidle, hpending]
        rfl
      refine ⟨?_, by rw [hafter], .inr ⟨[], (if_neg hidle).trans (if_neg hpending), ?_⟩⟩
      · rw [hafter]
        exact
          { inited := h.inited
            stagingDir := h.stagingDir
            stagingDir_ne := h.stagingDir_ne
            batchId := plain_buildBatchId
            batchId_ne := buildBatchId_ne_nil
            indexed := ⟨List.nodup_nil,
              fun id => iff_of_false List.not_mem_nil (AList.notMem_empty id), nofun⟩
            plain := fun staged hmem => absurd hmem List.not_mem_nil
            dataFile := fun staged hmem => absurd hmem List.not_mem_nil
            bytes := Nat.zero_le _ }
      · rw [hafter]
        exact .nothing fun staged hmem => absurd hmem List.not_mem_nil

theorem Batch.effect (h : Batch scores w.stager) (hcarried : op.Carried scores w) :
    Effect scores w op := by
  cases op with
  | stageObject request now => exact h.stageObject hcarried
  | sealIfReady now => exact h.sealIfReady
  | updateObjectLease objectId leaseId opId version =>
      exact h.updateObjectLease hcarried.1 hcarried.2
  | markObjectDone objectId => exact h.markObjectDone
  | removeObject objectId => exact h.removeObject
  | resetIfDrained now => exact h.resetIfDrained
  | restart options now createdNow => exact .idle h rfl rfl rfl

/-! ## The paths of the files -/

theorem getLast?_objectFilePath : (stager.objectFilePath objectId).getLast? = some 110 := by
  rw [objectFilePath, List.getLast?_append]
  rfl

theorem getLast?_tmpPath {path : Bytes} : (tmpPath path).getLast? = some 112 := by
  rw [tmpPath, List.getLast?_append]
  rfl

theorem getLast?_manifestPath {dir : Bytes} : (manifestPath dir).getLast? = some 116 := by
  rw [manifestPath, List.getLast?_append]
  rfl

theorem objectFilePath_ne_tmpPath {path : Bytes} : stager.objectFilePath objectId ≠ tmpPath path :=
  fun heq => absurd (getLast?_objectFilePath.symm.trans ((congrArg _ heq).trans getLast?_tmpPath))
    (by decide)

theorem objectFilePath_ne_manifestPath {dir : Bytes} :
    stager.objectFilePath objectId ≠ manifestPath dir :=
  fun heq => absurd
    (getLast?_objectFilePath.symm.trans ((congrArg _ heq).trans getLast?_manifestPath)) (by decide)

theorem tmpPath_ne_manifestPath {path dir : Bytes} : tmpPath path ≠ manifestPath dir :=
  fun heq => absurd (getLast?_tmpPath.symm.trans ((congrArg _ heq).trans getLast?_manifestPath))
    (by decide)

theorem objectFilePath_inj {other : Bytes}
    (h : stager.objectFilePath objectId = stager.objectFilePath other) : objectId = other :=
  List.append_cancel_left (List.append_cancel_right h)

/-! ## What the steps leave in the files -/

/-- The steps before the manifest leave it alone. -/
theorem Prelude.manifest_untouched {steps : List (Step Bytes Bytes)} {content' : Bytes → Bytes}
    (h : Prelude stager stager' content steps content') (hbatch : Batch scores stager)
    {dir : Bytes} : ∀ step ∈ steps, manifestPath dir ∉ step.paths := by
  intro step hstep hpath
  cases h with
  | nothing hkept => cases hstep
  | put request hnew hpending =>
      rcases paths_replace hstep _ hpath with heq | heq
      · exact tmpPath_ne_manifestPath heq.symm
      · exact objectFilePath_ne_manifestPath heq.symm
  | drop staged hmem hpending =>
      rw [List.mem_singleton.mp hstep, Step.paths, List.mem_singleton, hbatch.dataFile staged hmem]
        at hpath
      exact objectFilePath_ne_manifestPath hpath.symm

/-- And they leave the file of an object alone, unless they remove it. -/
theorem Prelude.data_untouched {steps : List (Step Bytes Bytes)} {content' : Bytes → Bytes}
    (h : Prelude stager stager' content steps content') (hbatch : Batch scores stager)
    (hmem : staged ∈ stager.ordered) {step : Step Bytes Bytes} (hstep : step ∈ steps)
    (hkeep : step ≠ .remove staged.dataFile) : staged.dataFile ∉ step.paths := by
  intro hpath
  cases h with
  | nothing hkept => cases hstep
  | put request hnew hpending =>
      rw [hbatch.dataFile staged hmem] at hpath
      rcases paths_replace hstep _ hpath with heq | heq
      · exact objectFilePath_ne_tmpPath heq
      · have hlookup := hbatch.indexed.mem_ordered.mp hmem
        rw [objectFilePath_inj heq] at hlookup
        exact hnew (AList.lookup_isSome.mp (Option.isSome_of_eq_some hlookup))
  | drop other hother hpending =>
      have hremove := List.mem_singleton.mp hstep
      rw [hremove, Step.paths, List.mem_singleton] at hpath
      exact hkeep (hpath ▸ hremove)

/-- Where the file of an object is removed, the object leaves the batch. -/
theorem Prelude.removed {steps : List (Step Bytes Bytes)} {content' : Bytes → Bytes}
    (h : Prelude stager stager' content steps content') (hbatch : Batch scores stager)
    (hmem : staged ∈ stager.ordered) (hremoved : .remove staged.dataFile ∈ steps) :
    steps = [.remove staged.dataFile] ∧
      ∀ other ∈ stager'.pending, other.candidate.objectId ≠ staged.candidate.objectId := by
  have hpath := hbatch.dataFile staged hmem
  cases h with
  | nothing hkept => cases hremoved
  | put request hnew hpending =>
      simp only [FileSteps.replace, List.mem_cons, List.not_mem_nil, or_false, Step.remove.injEq,
        reduceCtorEq, false_or] at hremoved
      have hlookup := hbatch.indexed.mem_ordered.mp hmem
      rw [objectFilePath_inj (hpath.symm.trans hremoved)] at hlookup
      exact absurd (AList.lookup_isSome.mp (Option.isSome_of_eq_some hlookup)) hnew
  | drop other hother hpending =>
      rw [List.mem_singleton, Step.remove.injEq] at hremoved
      rw [hbatch.dataFile other hother, hpath] at hremoved
      rw [hpath, hbatch.dataFile other hother, hremoved, hpending, objectFilePath_inj hremoved]
      exact ⟨rfl, fun other hother => of_decide_eq_true (List.mem_filter.mp hother).2⟩

/-- The batch that an operation writes is filed. -/
theorem Effect.filed (h : Effect scores w op) (hbatch : Batch scores w.stager)
    (hfiled : Filed scores w.files w.content w.stager) :
    Filed scores (run w.files (fileSteps scores w.stager op)) (w.contentAfter op)
      (w.stager.after op) := by
  rcases h.steps with ⟨hnone, hafter, hcontent⟩ | ⟨steps, hsteps, hprelude⟩
  · rw [fileSteps, hnone, hafter, hcontent]
    exact hfiled
  · have hall : fileSteps scores w.stager op = steps ++ persistSteps scores (w.stager.after op) := by
      rw [fileSteps, hsteps]
    rw [hall, run_append]
    refine ⟨⟨_, run_replace tmpPath_ne_manifestPath, ?_⟩, fun staged hmem => ?_⟩
    · exact parseManifest_manifestText h.batch.batchId h.batch.plain_pending
    · have hpath := h.batch.dataFile staged (mem_pending.mp hmem).1
      have hmanifest : run (run w.files steps) (persistSteps scores (w.stager.after op))
          staged.dataFile = run w.files steps staged.dataFile := by
        refine run_of_untouched fun step hstep hmem => ?_
        rw [hpath] at hmem
        rcases paths_replace hstep _ hmem with heq | heq
        · exact objectFilePath_ne_tmpPath heq
        · exact objectFilePath_ne_manifestPath heq
      rw [hmanifest]
      generalize hafter : w.stager.after op = stager' at hprelude hmem hpath
      generalize hcontent : w.contentAfter op = content' at hprelude ⊢
      cases hprelude with
      | nothing hkept =>
          obtain ⟨old, hold, hfile, hid⟩ := hkept staged hmem
          rw [run_nil, ← hfile, ← hid]
          exact hfiled.data old hold
      | put request hnew hpending =>
          rw [hpending, List.mem_append, List.mem_singleton] at hmem
          rcases hmem with hmem | rfl
          · have hordered := (mem_pending.mp hmem).1
            have hne : staged.candidate.objectId ≠ request.candidate.objectId := by
              intro heq
              have hlookup := hbatch.indexed.mem_ordered.mp hordered
              rw [heq] at hlookup
              exact hnew (AList.lookup_isSome.mp (Option.isSome_of_eq_some hlookup))
            rw [Function.update_of_ne hne, ← hfiled.data staged hmem]
            refine run_of_untouched fun step hstep => ?_
            refine Prelude.data_untouched (.put request hnew hpending : Prelude _ _ w.content _ _)
              hbatch hordered hstep fun heq => ?_
            rw [heq] at hstep
            simp only [FileSteps.replace, List.mem_cons, List.not_mem_nil, or_false, Step.remove.injEq,
              reduceCtorEq, false_or] at hstep
            rw [hbatch.dataFile staged hordered] at hstep
            exact hne (objectFilePath_inj hstep)
          · rw [StageRequest.staged, Function.update_self]
            exact run_replace objectFilePath_ne_tmpPath.symm
      | drop other hother hpending =>
          rw [hpending, List.mem_filter, decide_eq_true_iff] at hmem
          have hordered := (mem_pending.mp hmem.1).1
          rw [← hfiled.data staged hmem.1]
          refine run_of_untouched fun step hstep => ?_
          refine Prelude.data_untouched (.drop other hother hpending : Prelude _ _ w.content _ _)
            hbatch hordered hstep fun heq => ?_
          rw [heq, List.mem_singleton, Step.remove.injEq, hbatch.dataFile staged hordered,
            hbatch.dataFile other hother] at hstep
          exact hmem.2 (objectFilePath_inj hstep)

/-! ## Runs -/

theorem serve_eq (hsteps : (w.stager.stepsBefore op).isSome) :
    w.serve scores op =
      { stager := w.stager.after op
        files := run w.files (fileSteps scores w.stager op)
        content := w.contentAfter op } := by
  cases op with
  | restart options now createdNow => cases hsteps
  | _ => rfl

theorem Batch.serve (h : Batch scores w.stager) (hfiled : Filed scores w.files w.content w.stager)
    (hcarried : op.Carried scores w) :
    Batch scores (w.serve scores op).stager ∧
      Filed scores (w.serve scores op).files (w.serve scores op).content
        (w.serve scores op).stager := by
  have heffect := h.effect hcarried
  cases op with
  | restart options now createdNow =>
      obtain ⟨stager', hinit, hbatch, -, -, -, hrestored⟩ :=
        @Batch.reload _ _ _ w.content h hfiled.manifest options now createdNow
      have hserve : w.serve scores (.restart options now createdNow) =
          { w with stager := stager' } := by
        simp only [Staging.serve, hinit]
      rw [hserve]
      exact ⟨hbatch, (hrestored hfiled).2⟩
  | _ => exact ⟨heffect.batch, heffect.filed h hfiled⟩

/-- What a new stager finds in a directory without a manifest. -/
theorem initOn_new {dir : Bytes} {options : Options} {now createdNow : UInt64} (hdir : dir ≠ [])
    (hnone : files (manifestPath dir) = none) :
    ∃ stager, initOn scores dir options now createdNow files =
        .ok (stager, run files (persistSteps scores stager)) ∧
      stager.inited = true ∧ stager.stagingDir = dir ∧ stager.batchId = buildBatchId now ∧
      stager.objects = ∅ ∧ stager.objectOrder = [] := by
  have hlines : (initAnswers scores dir now createdNow files).manifest = [] := by
    simp only [initAnswers, hnone, Option.elim_none]
  refine ⟨{ inited := true
            stagingDir := dir
            options := { options with
              discSizeBytes := if options.discSizeBytes = 0 then 1 else options.discSizeBytes }
            batchId := buildBatchId now
            createdTsMs := createdNow }, ?_, rfl, rfl, rfl, rfl, rfl⟩
  rw [initOn, init, if_neg hdir, hlines]
  rfl

/-- The first stager on a directory. -/
structure Started (scores : ScoreText) (dir : Bytes) (w : Staging) : Prop where
  plain : Plain dir
  named : dir ≠ []
  init : ∃ options now createdNow files, files (manifestPath dir) = none ∧
    initOn scores dir options now createdNow files = .ok (w.stager, w.files)

theorem Started.batch {dir : Bytes} (h : Started scores dir w) :
    Batch scores w.stager ∧ Filed scores w.files w.content w.stager := by
  obtain ⟨options, now, createdNow, files, hnone, hinit⟩ := h.init
  obtain ⟨stager, hnew, hinited, hdir, hbatch, hobjects, horder⟩ :=
    @initOn_new scores files dir options now createdNow h.named hnone
  have hpair := Except.ok.inj (hinit.symm.trans hnew)
  have hstager : w.stager = stager := congrArg Prod.fst hpair
  have hfiles : w.files = run files (persistSteps scores stager) := congrArg Prod.snd hpair
  have hordered : stager.ordered = [] := by
    rw [ordered, horder]
    rfl
  have hpending : stager.pending = [] := by
    rw [pending, hordered]
    rfl
  rw [hstager, hfiles]
  refine ⟨?_, ⟨stager.manifestText scores, ?_, ?_⟩, ?_⟩
  · exact
      { inited := hinited
        stagingDir := hdir ▸ h.plain
        stagingDir_ne := hdir ▸ h.named
        batchId := hbatch ▸ plain_buildBatchId
        batchId_ne := hbatch ▸ buildBatchId_ne_nil
        indexed :=
          { nodup := horder ▸ List.nodup_nil
            mem_order := fun id => by
              rw [horder, hobjects]
              exact iff_of_false List.not_mem_nil (AList.notMem_empty id)
            named := by
              rw [hobjects]
              intro id object hfound
              rw [AList.lookup_empty] at hfound
              cases hfound }
        plain := hordered ▸ fun _ hmem => absurd hmem List.not_mem_nil
        dataFile := hordered ▸ fun _ hmem => absurd hmem List.not_mem_nil
        bytes := hordered ▸ Nat.zero_le _ }
  · exact run_replace tmpPath_ne_manifestPath
  · exact parseManifest_manifestText (hbatch ▸ plain_buildBatchId)
      (hpending ▸ fun _ hmem => absurd hmem List.not_mem_nil)
  · exact hpending ▸ fun _ hmem => absurd hmem List.not_mem_nil

/-- The batch and its files over a run. -/
theorem batch_of_run {dir : Bytes} {w₀ : Staging} {hist : List (Served Staging Operation)}
    (hstart : Started scores dir w₀)
    (hrun : Serves (fun w op w' => w' = w.serve scores op) (fun w op => op.Carried scores w) w₀
      hist w) :
    Batch scores w.stager ∧ Filed scores w.files w.content w.stager := by
  have hserve (w : Staging) (op : Operation) (w' : Staging)
      (hw : Batch scores w.stager ∧ Filed scores w.files w.content w.stager)
      (hcarried : op.Carried scores w) (heq : w' = w.serve scores op) :
      Batch scores w'.stager ∧ Filed scores w'.files w'.content w'.stager :=
    heq ▸ hw.1.serve hw.2 hcarried
  exact @Serves.invariant _ _ _ _ _ _ _
    (fun w => Batch scores w.stager ∧ Filed scores w.files w.content w.stager) hserve hstart.batch
    hrun

/-! ## Crashes -/

theorem Effect.fileSteps_eq {steps : List (Step Bytes Bytes)} (h : Effect scores w op)
    (hsteps : w.stager.stepsBefore op = some steps) :
    fileSteps scores w.stager op = steps ++
      FileSteps.replace (tmpPath (manifestPath w.stager.stagingDir))
        (manifestPath w.stager.stagingDir) ((w.stager.after op).manifestText scores) := by
  rw [fileSteps, hsteps, persistSteps, h.stagingDir]

/-- As long as it is not removed the manifest stands. -/
theorem Effect.manifest_crashed {k : Nat} (h : Effect scores w op) (hbatch : Batch scores w.stager)
    (hmanifest : .remove (manifestPath w.stager.stagingDir) ∉
      (fileSteps scores w.stager op).take k) :
    w.crashed scores op k (manifestPath w.stager.stagingDir) =
      w.files (manifestPath w.stager.stagingDir) := by
  rcases h.steps with ⟨hnone, -, -⟩ | ⟨steps, hsteps, hprelude⟩
  · rw [Staging.crashed, fileSteps, hnone, List.take_nil, run_nil]
  · rw [h.fileSteps_eq hsteps] at hmanifest
    rw [Staging.crashed, h.fileSteps_eq hsteps]
    refine run_of_untouched fun step hstep hpath => ?_
    rcases mem_take_of_not_removed hmanifest hstep with hbefore | rfl
    · exact hprelude.manifest_untouched hbatch step hbefore hpath
    · exact tmpPath_ne_manifestPath (List.mem_singleton.mp hpath).symm

/-- A crash before anything is removed leaves the batch before the operation filed. -/
theorem Effect.filed_crashed {k : Nat} (h : Effect scores w op) (hbatch : Batch scores w.stager)
    (hfiled : Filed scores w.files w.content w.stager)
    (hmanifest : .remove (manifestPath w.stager.stagingDir) ∉
      (fileSteps scores w.stager op).take k)
    (hdata : ∀ staged ∈ w.stager.pending,
      .remove staged.dataFile ∉ (fileSteps scores w.stager op).take k) :
    Filed scores (w.crashed scores op k) w.content w.stager := by
  obtain ⟨text, htext, hparse⟩ := hfiled.manifest
  refine ⟨⟨text, (h.manifest_crashed hbatch hmanifest).trans htext, hparse⟩,
    fun staged hmem => ?_⟩
  rw [← hfiled.data staged hmem]
  rcases h.steps with ⟨hnone, -, -⟩ | ⟨steps, hsteps, hprelude⟩
  · rw [Staging.crashed, fileSteps, hnone, List.take_nil, run_nil]
  · rw [h.fileSteps_eq hsteps] at hmanifest hdata
    rw [Staging.crashed, h.fileSteps_eq hsteps]
    have hordered := (mem_pending.mp hmem).1
    refine run_of_untouched fun step hstep hpath => ?_
    rcases mem_take_of_not_removed hmanifest hstep with hbefore | rfl
    · exact hprelude.data_untouched hbatch hordered hbefore
        (fun heq => hdata staged hmem (heq ▸ hstep)) hpath
    · rw [hbatch.dataFile staged hordered] at hpath
      exact objectFilePath_ne_tmpPath (List.mem_singleton.mp hpath)

theorem Effect.survives {k : Nat} (h : Effect scores w op) (hbatch : Batch scores w.stager)
    (hfiled : Filed scores w.files w.content w.stager) (hsafe : Safe scores w op k) :
    Survives scores w op (w.crashed scores op k) := by
  intro options now createdNow
  -- all steps are taken, and there are some
  by_cases hall : (w.stager.stepsBefore op).isSome ∧ (fileSteps scores w.stager op).drop k = []
  · have hcrashed : w.crashed scores op k = run w.files (fileSteps scores w.stager op) := by
      rw [Staging.crashed, List.take_of_length_le (List.drop_eq_nil_iff.mp hall.2)]
    have hafter := h.filed hbatch hfiled
    rw [← hcrashed] at hafter
    obtain ⟨stager', hinit, -, -, -, -, hrestored⟩ :=
      @Batch.reload _ _ _ (w.contentAfter op) h.batch hafter.manifest options now createdNow
    rw [h.stagingDir] at hinit
    refine ⟨stager', _, hinit, .inr ?_⟩
    rw [serve_eq hall.1]
    exact (hrestored hafter).1
  · have hbefore : Filed scores (w.crashed scores op k) w.content w.stager := by
      rcases hsafe with hdrop | ⟨hmanifest, hdata⟩
      · have hnone : w.stager.stepsBefore op = none :=
          Option.not_isSome_iff_eq_none.mp fun hsome => hall ⟨hsome, hdrop⟩
        rw [Staging.crashed, fileSteps, hnone, List.take_nil]
        exact hfiled
      · exact h.filed_crashed hbatch hfiled hmanifest hdata
    obtain ⟨stager', hinit, -, -, -, -, hrestored⟩ :=
      @Batch.reload _ _ _ w.content hbatch hbefore.manifest options now createdNow
    exact ⟨stager', _, hinit, .inl (hrestored hbefore).1⟩

/-- Of three new ids one is not among two. -/
theorem exists_buildBatchId_ne (a b : Bytes) :
    ∃ now, buildBatchId now ≠ a ∧ buildBatchId now ≠ b := by
  have h₀₁ : buildBatchId 0 ≠ buildBatchId 1 := by decide
  have h₀₂ : buildBatchId 0 ≠ buildBatchId 2 := by decide
  have h₁₂ : buildBatchId 1 ≠ buildBatchId 2 := by decide
  by_contra hall
  have hone (now : UInt64) : buildBatchId now = a ∨ buildBatchId now = b := by
    by_contra hnot
    exact hall ⟨now, not_or.mp hnot⟩
  rcases hone 0 with h0 | h0
  · rcases hone 1 with h1 | h1
    · exact h₀₁ (h0.trans h1.symm)
    · rcases hone 2 with h2 | h2
      · exact h₀₂ (h0.trans h2.symm)
      · exact h₁₂ (h1.trans h2.symm)
  · rcases hone 1 with h1 | h1
    · rcases hone 2 with h2 | h2
      · exact h₁₂ (h1.trans h2.symm)
      · exact h₀₂ (h0.trans h2.symm)
    · exact h₀₁ (h0.trans h1.symm)

/-- Without the manifest a new batch begins. -/
theorem not_survives_of_no_manifest (hbatch : Batch scores w.stager)
    (hnone : files (manifestPath w.stager.stagingDir) = none) : ¬ Survives scores w op files := by
  intro hsurvives
  obtain ⟨now, hbefore, hafter⟩ :=
    exists_buildBatchId_ne w.stager.batchId (w.serve scores op).stager.batchId
  obtain ⟨stager, hnew, -, -, hid, -⟩ :=
    @initOn_new scores files _ {} now now hbatch.stagingDir_ne hnone
  obtain ⟨stager', files', hinit, hrestored⟩ := hsurvives {} now now
  obtain ⟨rfl, -⟩ := Prod.mk.inj (Except.ok.inj (hnew.symm.trans hinit))
  rcases hrestored with hrestored | hrestored
  · exact hbefore (hid.symm.trans hrestored.batchId)
  · exact hafter (hid.symm.trans hrestored.batchId)

/-- With the manifest, but without the file of an object that it names, the batch is not as it
    was; and the batch after the operation does not name the object. -/
theorem not_survives_of_no_data (h : Batch scores w.stager)
    (hmanifest : ∃ text, files (manifestPath w.stager.stagingDir) = some text ∧
      parseManifest scores text = manifestLines scores w.stager)
    (hmem : staged ∈ w.stager.pending) (hgone : files staged.dataFile = none)
    (hafter : ∀ other ∈ (w.serve scores op).stager.pending,
      other.candidate.objectId ≠ staged.candidate.objectId) : ¬ Survives scores w op files := by
  intro hsurvives
  obtain ⟨stager, hload, -, -, horder, hpending, -⟩ :=
    @Batch.reload _ _ _ w.content h hmanifest {} 0 0
  obtain ⟨stager', files', hinit, hrestored⟩ := hsurvives {} 0 0
  obtain ⟨rfl, rfl⟩ := Prod.mk.inj (Except.ok.inj (hload.symm.trans hinit))
  rcases hrestored with hrestored | hrestored
  · have hdata := hrestored.data (rounded scores staged)
      (hpending ▸ List.mem_map_of_mem hmem)
    have hfile : (rounded scores staged).dataFile = staged.dataFile := rfl
    rw [hfile, hgone] at hdata
    cases hdata
  · have hin : staged.candidate.objectId ∈
        (w.serve scores op).stager.pending.map (·.candidate.objectId) := by
      rw [← hrestored.objectOrder, horder]
      exact List.mem_map_of_mem hmem
    obtain ⟨other, hother, heq⟩ := List.mem_map.mp hin
    exact hafter other hother heq

theorem Effect.not_survives {k : Nat} (h : Effect scores w op) (hbatch : Batch scores w.stager)
    (hfiled : Filed scores w.files w.content w.stager) (hbad : ¬ Safe scores w op k) :
    ¬ Survives scores w op (w.crashed scores op k) := by
  rw [Safe, not_or] at hbad
  obtain ⟨hrest, hbad⟩ := hbad
  rcases h.steps with ⟨hnone, -, -⟩ | ⟨steps, hsteps, hprelude⟩
  · rw [fileSteps, hnone, List.drop_nil] at hrest
    exact absurd rfl hrest
  have hout : .remove (manifestPath w.stager.stagingDir) ∉ steps := fun hmem =>
    hprelude.manifest_untouched hbatch _ hmem (List.mem_singleton_self _)
  by_cases hmanifest : .remove (manifestPath w.stager.stagingDir) ∈
      (fileSteps scores w.stager op).take k
  · apply not_survives_of_no_manifest hbatch
    rw [Staging.crashed, h.fileSteps_eq hsteps]
    rw [h.fileSteps_eq hsteps] at hmanifest hrest
    exact run_take_none hout hmanifest hrest
  · have hstands := h.manifest_crashed hbatch hmanifest
    rw [not_and] at hbad
    have hexists := hbad hmanifest
    simp only [not_forall, not_not] at hexists
    obtain ⟨staged, hmem, hremoved⟩ := hexists
    have hordered := (mem_pending.mp hmem).1
    obtain ⟨text, htext, hparse⟩ := hfiled.manifest
    rw [h.fileSteps_eq hsteps] at hremoved hmanifest
    have hbefore := (mem_take_of_not_removed hmanifest hremoved).resolve_right nofun
    obtain ⟨hgone, hafter⟩ := hprelude.removed hbatch hordered hbefore
    refine not_survives_of_no_data hbatch ⟨text, hstands.trans htext, hparse⟩ hmem ?_ ?_
    · rw [Staging.crashed, h.fileSteps_eq hsteps, hgone]
      rw [hgone] at hremoved
      cases k with
      | zero => cases hremoved
      | succ k =>
          rw [List.singleton_append, List.take_succ_cons, run_cons, run_take_replace_of_ne]
          · exact Function.update_self _ _ _
          · rw [hbatch.dataFile staged hordered]
            exact objectFilePath_ne_tmpPath
          · rw [hbatch.dataFile staged hordered]
            exact objectFilePath_ne_manifestPath
    · rw [serve_eq (Option.isSome_of_eq_some hsteps)]
      exact hafter

/-- A new stager holds the batch before or after the last operation exactly where all of its
    steps are taken, or none that removes the manifest or the file of a pending object. -/
theorem staged_batch_survives_iff {dir : Bytes} {w₀ : Staging}
    {hist : List (Served Staging Operation)} (hstart : Started scores dir w₀)
    (hrun : Serves (fun w op w' => w' = w.serve scores op) (fun w op => op.Carried scores w) w₀
      hist w)
    (hcarried : op.Carried scores w) (k : Nat) :
    Survives scores w op (w.crashed scores op k) ↔ Safe scores w op k := by
  obtain ⟨hbatch, hfiled⟩ := batch_of_run hstart hrun
  have heffect := hbatch.effect hcarried
  constructor
  · intro hsurvives
    by_contra hbad
    exact heffect.not_survives hbatch hfiled hbad hsurvives
  · exact heffect.survives hbatch hfiled

/-- Scores that are written and read as the number of their bits, as zero is. -/
def bitScores : ScoreText where
  text score := decimal score.toNat
  stod := stoull
  plain_text score := DataNode.plain_decimal score.toNat
  stod_stable {score rounded} h := by
    rw [stoull_decimal] at h
    rw [← Option.some.inj h]
    exact stoull_decimal score

/-- A new directory, and then one object. -/
def sampleStaging : Staging where
  stager := sampleStager
  files := run (fun _ => none) (persistSteps bitScores sampleStager)
  content := fun _ => []

def stagedOne : Staging := sampleStaging.serve bitScores (.stageObject (sampleRequest [1] 1) 2)

theorem started_sampleStaging : Started bitScores (ofAscii "s") sampleStaging :=
  ⟨by decide, by decide, sampleOptions, 1, 1, fun _ => none, rfl, rfl⟩

theorem carried_sampleRequest :
    Operation.Carried bitScores sampleStaging (.stageObject (sampleRequest [1] 1) 2) := by
  refine ⟨⟨by decide, by decide, by decide, by decide, by decide, rfl, rfl⟩, by decide, by decide,
    by decide, by decide, by decide⟩

/-- A second object has its file, and the new manifest is in its temporary file: the batch with
    the first object survives. -/
theorem staged_batch_survives_of_one :
    Survives bitScores stagedOne (.stageObject (sampleRequest [2] 1) 3)
      (stagedOne.crashed bitScores (.stageObject (sampleRequest [2] 1) 3) 4) := by
  have hrun := (@Serves.nil _ _ (fun w op w' => w' = Staging.serve bitScores w op)
    (fun w op => Operation.Carried bitScores w op) sampleStaging).snoc carried_sampleRequest
      (rfl : stagedOne = _)
  have hcarried : Operation.Carried bitScores stagedOne (.stageObject (sampleRequest [2] 1) 3) :=
    ⟨⟨by decide, by decide, by decide, by decide, by decide, rfl, rfl⟩, by decide, by decide,
      by decide, by decide, by decide⟩
  exact (staged_batch_survives_iff started_sampleStaging hrun hcarried 4).mpr
    (.inr ⟨by decide, by decide⟩)

/-- When the object is done its file goes first. After a crash the manifest names it, and it has
    no bytes. -/
theorem staged_batch_lost :
    ∃ w₀ w, Started bitScores (ofAscii "s") w₀ ∧
      Serves (fun w op w' => w' = Staging.serve bitScores w op)
        (fun w op => op.Carried bitScores w) w₀
        [⟨w₀, .stageObject (sampleRequest [1] 1) 2, w⟩] w ∧
      ¬ Survives bitScores w (.markObjectDone [1]) (w.crashed bitScores (.markObjectDone [1]) 1) := by
  have hrun := (@Serves.nil _ _ (fun w op w' => w' = Staging.serve bitScores w op)
    (fun w op => Operation.Carried bitScores w op) sampleStaging).snoc carried_sampleRequest
      (rfl : stagedOne = _)
  obtain ⟨hbatch, hfiled⟩ := batch_of_run started_sampleStaging hrun
  refine ⟨_, _, started_sampleStaging, hrun, ?_⟩
  have hcarried : Operation.Carried bitScores stagedOne (.markObjectDone [1]) := trivial
  refine (hbatch.effect hcarried).not_survives hbatch hfiled ?_
  rintro (hall | ⟨-, hdata⟩)
  · cases hall
  · exact hdata _ List.mem_cons_self List.mem_cons_self

end Zb.Mds.ArchiveBatchStager
