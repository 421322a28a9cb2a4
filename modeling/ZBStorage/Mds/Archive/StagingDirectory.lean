-- SUMMARY: The staging directory: the stager's steps on its files, and that a filed batch is restored.
import Mathlib.Algebra.BigOperators.Group.List.Lemmas
import ZBStorage.Lib.FileSteps
import ZBStorage.Mds.Archive.StagedManifest

/-!
# The staging directory

The operations of `ArchiveBatchStager` with the steps that they take on the files of the staging
directory. The manifest is replaced by way of a temporary file, after the file of an object was
put there or removed; `Init` reads what is there. The calls on the files are taken to succeed.
-/

namespace Zb.Mds.ArchiveBatchStager

open Bytes TextFields FileSteps CallHistory

abbrev StagingFiles := Files Bytes Bytes

/-- The stager, the files of its directory, and the bytes that were staged for each object. -/
structure Staging where
  stager : ArchiveBatchStager
  files : StagingFiles
  content : Bytes → Bytes

/-! ## Operations -/

inductive Operation
  | stageObject (request : StageRequest) (now : UInt64)
  | sealIfReady (now : UInt64)
  | updateObjectLease (objectId leaseId opId : Bytes) (version : UInt64)
  | markObjectDone (objectId : Bytes)
  | removeObject (objectId : Bytes)
  | resetIfDrained (now : UInt64)
  /-- A new stager takes the place of the old one. -/
  | restart (options : Options) (now createdNow : UInt64)

section Steps

variable (scores : ScoreText)

def manifestPath (stagingDir : Bytes) : Bytes := stagingDir ++ ofAscii "/batch.manifest"

def tmpPath (path : Bytes) : Bytes := path ++ ofAscii ".tmp"

/-- `PersistManifestLocked` -/
def persistSteps (stager : ArchiveBatchStager) : List (Step Bytes Bytes) :=
  replace (tmpPath (manifestPath stager.stagingDir)) (manifestPath stager.stagingDir)
    (stager.manifestText scores)

/-- What `Init` reads, and the lines it finds there. -/
def initAnswers (stagingDir : Bytes) (now createdNow : UInt64) (files : StagingFiles) :
    InitAnswers where
  ensureDirs := .ok ()
  manifest := (files (manifestPath stagingDir)).elim [] (parseManifest scores)
  now
  createdNow
  persist := .stored

/-- The stager of `Init`, and the files: a batch without an id is a new one and is written. -/
def initOn (stagingDir : Bytes) (options : Options) (now createdNow : UInt64)
    (files : StagingFiles) : Except Bytes (ArchiveBatchStager × StagingFiles) := do
  let answers := initAnswers scores stagingDir now createdNow files
  let stager ← init stagingDir options answers
  let loaded ← loadManifest { stagingDir, options } answers.manifest
  return (stager, if loaded.batchId = [] then run files (persistSteps scores stager) else files)

/-- The stager after an operation whose calls on files succeed. -/
def after (stager : ArchiveBatchStager) : Operation → ArchiveBatchStager
  | .stageObject request now => (stager.stageObject request .stored now .stored).2
  | .sealIfReady now => (stager.sealIfReady now .stored).2
  | .updateObjectLease objectId leaseId opId version =>
      (stager.updateObjectLease objectId leaseId opId version .stored).2
  | .markObjectDone objectId => (stager.markObjectDone objectId .stored).2
  | .removeObject objectId => (stager.removeObject objectId .stored).2
  | .resetIfDrained now => (stager.resetIfDrained now .stored).2
  | .restart _ _ _ => stager

/-- The steps of an operation before it writes the manifest; none if it does not. -/
def stepsBefore (stager : ArchiveBatchStager) :
    Operation → Option (List (Step Bytes Bytes))
  | .stageObject request now =>
      let path := stager.objectFilePath request.candidate.objectId
      match (stager.stageObject request .stored now .stored).1 with
      | .error _ => none
      | .ok result =>
          if result.inserted then some (replace (tmpPath path) path request.data)
          else if result.deferred then some []
          else none
  | .sealIfReady now =>
      if stager.inited && !stager.isSealed && stager.isReadyToSeal now then some [] else none
  | .updateObjectLease objectId _ _ _ => (stager.objects.lookup objectId).map fun _ => []
  | .markObjectDone objectId =>
      match stager.objects.lookup objectId with
      | none => none
      | some staged => if staged.done then none else some [.remove staged.dataFile]
  | .removeObject objectId =>
      (stager.objects.lookup objectId).map fun staged => [.remove staged.dataFile]
  | .resetIfDrained _ =>
      if !stager.inited || !stager.isSealed then none
      else if stager.objects.entries.any fun item => !item.2.done then none
      else some []
  | .restart _ _ _ => none

def fileSteps (stager : ArchiveBatchStager) (op : Operation) : List (Step Bytes Bytes) :=
  match stager.stepsBefore op with
  | none => []
  | some steps => steps ++ persistSteps scores (stager.after op)

/-- The bytes that an operation stages. -/
def Staging.contentAfter (w : Staging) : Operation → Bytes → Bytes
  | .stageObject request now =>
      match (w.stager.stageObject request .stored now .stored).1 with
      | .ok { inserted := true, .. } =>
          Function.update w.content request.candidate.objectId request.data
      | _ => w.content
  | _ => w.content

/-- A restart that fails leaves everything as it is. -/
def Staging.serve (w : Staging) : Operation → Staging
  | .restart options now createdNow =>
      match initOn scores w.stager.stagingDir options now createdNow w.files with
      | .error _ => w
      | .ok (stager, files) => { w with stager, files }
  | op =>
      { stager := w.stager.after op
        files := run w.files (fileSteps scores w.stager op)
        content := w.contentAfter op }

/-- The files when the operation stops after `k` steps. -/
def Staging.crashed (w : Staging) (op : Operation) (k : Nat) : StagingFiles :=
  run w.files ((fileSteps scores w.stager op).take k)

/-! ## What is restored -/

/-- The stager holds the batch: the objects that are not done, in their order and with their
    scores rounded, each with its bytes in its file. -/
structure Restores (files : StagingFiles) (batch : ArchiveBatchStager) (content : Bytes → Bytes)
    (stager : ArchiveBatchStager) : Prop where
  batchId : stager.batchId = batch.batchId
  isSealed : stager.isSealed = batch.isSealed
  createdTsMs : stager.createdTsMs = batch.createdTsMs
  objectOrder : stager.objectOrder = batch.pending.map (·.candidate.objectId)
  mem_order : ∀ objectId, objectId ∈ stager.objectOrder ↔ objectId ∈ stager.objects
  pending : stager.pending = batch.pending.map (rounded scores)
  totalBytes : stager.totalBytes = batch.totalBytes
  data : ∀ staged ∈ stager.pending,
    files staged.dataFile = some (content staged.candidate.objectId)

/-- Whatever the clock says at the start, a new stager holds the batch before the operation or
    the one after it. -/
def Survives (w : Staging) (op : Operation) (files : StagingFiles) : Prop :=
  ∀ options now createdNow, ∃ stager files',
    initOn scores w.stager.stagingDir options now createdNow files = .ok (stager, files') ∧
      (Restores scores files' w.stager w.content stager ∨
        Restores scores files' (w.serve scores op).stager (w.serve scores op).content stager)

/-- All steps are taken, or none that removes the manifest or the file of an object which is
    not done. -/
def Safe (w : Staging) (op : Operation) (k : Nat) : Prop :=
  (fileSteps scores w.stager op).drop k = [] ∨
    .remove (manifestPath w.stager.stagingDir) ∉ (fileSteps scores w.stager op).take k ∧
      ∀ staged ∈ w.stager.pending,
        .remove staged.dataFile ∉ (fileSteps scores w.stager op).take k

/-- What is written can be read: texts without tabs and newlines, scores that `std::stod` reads,
    ids that name one file each, and sizes that add up in 64 bits. -/
def Operation.Carried (w : Staging) : Operation → Prop
  | .stageObject request _ =>
      PlainCandidate scores request.candidate ∧ DataNode.Plain request.leaseId ∧
        DataNode.Plain request.opId ∧ DataNode.Plain request.objectKey ∧
        (47 : UInt8) ∉ request.candidate.objectId ∧
        w.stager.totalBytes.toNat + request.data.length < 2 ^ 64
  | .updateObjectLease _ leaseId opId _ => DataNode.Plain leaseId ∧ DataNode.Plain opId
  | _ => True

end Steps

/-! ## The batch as a list -/

variable {scores : ScoreText} {stager stager' : ArchiveBatchStager} {objectId : Bytes}
  {staged staged' : StagedArchiveObject}

/-- The order names the objects of the table, each once. -/
structure Indexed (stager : ArchiveBatchStager) : Prop where
  nodup : stager.objectOrder.Nodup
  mem_order : ∀ objectId, objectId ∈ stager.objectOrder ↔ objectId ∈ stager.objects
  named : ∀ {objectId staged}, stager.objects.lookup objectId = some staged →
    staged.candidate.objectId = objectId

theorem Indexed.congr (h : stager.Indexed) (hobjects : stager'.objects = stager.objects)
    (horder : stager'.objectOrder = stager.objectOrder) : stager'.Indexed where
  nodup := horder ▸ h.nodup
  mem_order objectId := by rw [horder, hobjects, h.mem_order]
  named hlookup := h.named (hobjects ▸ hlookup)

theorem ordered_congr (hobjects : stager'.objects = stager.objects)
    (horder : stager'.objectOrder = stager.objectOrder) : stager'.ordered = stager.ordered := by
  rw [ordered, hobjects, horder, ordered]

theorem filterMap_lookup_cons {objects : Objects} {ids : List Bytes}
    (h : objects.lookup objectId = some staged) :
    (objectId :: ids).filterMap objects.lookup = staged :: ids.filterMap objects.lookup :=
  List.filterMap_cons_some (f := objects.lookup) h

theorem Indexed.mem_ordered (h : stager.Indexed) :
    staged ∈ stager.ordered ↔
      stager.objects.lookup staged.candidate.objectId = some staged := by
  rw [ordered, List.mem_filterMap]
  constructor
  · rintro ⟨objectId, -, hlookup⟩
    rw [h.named hlookup]
    exact hlookup
  · intro hlookup
    have hmem : staged.candidate.objectId ∈ stager.objects :=
      AList.lookup_isSome.mp (Option.isSome_of_eq_some hlookup)
    exact ⟨_, (h.mem_order _).mpr hmem, hlookup⟩

theorem Indexed.map_ordered (h : stager.Indexed) :
    stager.ordered.map (·.candidate.objectId) = stager.objectOrder := by
  have hids (ids : List Bytes) (hmem : ∀ objectId ∈ ids, objectId ∈ stager.objects) :
      (ids.filterMap stager.objects.lookup).map (·.candidate.objectId) = ids := by
    induction ids with
    | nil => rfl
    | cons objectId ids ih =>
        obtain ⟨staged, hlookup⟩ :=
          Option.isSome_iff_exists.mp (AList.lookup_isSome.mpr (hmem objectId List.mem_cons_self))
        rw [filterMap_lookup_cons hlookup, List.map_cons, h.named hlookup,
          ih fun other hother => hmem other (List.mem_cons_of_mem _ hother)]
  exact hids _ fun objectId hobject => (h.mem_order objectId).mp hobject

/-- The stager with one object more. -/
def append (stager : ArchiveBatchStager) (staged : StagedArchiveObject) : ArchiveBatchStager :=
  { stager with
    objects := stager.objects.insert staged.candidate.objectId staged
    objectOrder := stager.objectOrder ++ [staged.candidate.objectId] }

theorem Indexed.append (h : stager.Indexed) (hnew : staged.candidate.objectId ∉ stager.objects) :
    (stager.append staged).Indexed where
  nodup := by
    refine List.nodup_append.mpr ⟨h.nodup, List.nodup_singleton _, ?_⟩
    intro a ha b hb hab
    rw [List.mem_singleton] at hb
    exact hnew ((h.mem_order _).mp (hb ▸ hab ▸ ha))
  mem_order id := by
    show id ∈ stager.objectOrder ++ [_] ↔ id ∈ stager.objects.insert _ _
    rw [AList.mem_insert stager.objects, List.mem_append, List.mem_singleton, h.mem_order, or_comm]
  named {id other} hlookup := by
    have hlookup : (stager.objects.insert staged.candidate.objectId staged).lookup id =
        some other := hlookup
    by_cases hid : id = staged.candidate.objectId
    · rw [hid, AList.lookup_insert] at hlookup
      cases hlookup
      exact hid.symm
    · rw [AList.lookup_insert_ne hid] at hlookup
      exact h.named hlookup

theorem Indexed.ordered_append (h : stager.Indexed)
    (hnew : staged.candidate.objectId ∉ stager.objects) :
    (stager.append staged).ordered = stager.ordered ++ [staged] := by
  have hold : ∀ id ∈ stager.objectOrder,
      (stager.objects.insert staged.candidate.objectId staged).lookup id =
        stager.objects.lookup id := by
    intro id hid
    have hne : id ≠ staged.candidate.objectId :=
      fun heq => hnew (heq ▸ (h.mem_order id).mp hid)
    exact AList.lookup_insert_ne hne
  rw [ordered, ArchiveBatchStager.append, List.filterMap_append, List.filterMap_congr hold,
    filterMap_lookup_cons (AList.lookup_insert _), List.filterMap_nil, ordered]

theorem Indexed.replace (h : stager.Indexed) (hmem : objectId ∈ stager.objects)
    (hname : staged'.candidate.objectId = objectId) :
    ({ stager with objects := stager.objects.insert objectId staged' } :
      ArchiveBatchStager).Indexed where
  nodup := h.nodup
  mem_order id := by
    show _ ↔ id ∈ stager.objects.insert objectId staged'
    rw [AList.mem_insert stager.objects, h.mem_order id]
    exact (or_iff_right_of_imp fun heq => heq ▸ hmem).symm
  named {id other} hlookup := by
    have hlookup : (stager.objects.insert objectId staged').lookup id = some other := hlookup
    by_cases hid : id = objectId
    · rw [hid, AList.lookup_insert] at hlookup
      cases hlookup
      rw [hname, hid]
    · rw [AList.lookup_insert_ne hid] at hlookup
      exact h.named hlookup

theorem Indexed.ordered_replace (h : stager.Indexed) :
    ({ stager with objects := stager.objects.insert objectId staged' } :
      ArchiveBatchStager).ordered =
      stager.ordered.map fun staged =>
        if staged.candidate.objectId = objectId then staged' else staged := by
  have hids (ids : List Bytes) (hmem : ∀ id ∈ ids, id ∈ stager.objects) :
      ids.filterMap (stager.objects.insert objectId staged').lookup =
        (ids.filterMap stager.objects.lookup).map fun staged =>
          if staged.candidate.objectId = objectId then staged' else staged := by
    induction ids with
    | nil => rfl
    | cons id ids ih =>
        obtain ⟨staged, hlookup⟩ :=
          Option.isSome_iff_exists.mp (AList.lookup_isSome.mpr (hmem id List.mem_cons_self))
        have hrest := ih fun other hother => hmem other (List.mem_cons_of_mem _ hother)
        rw [filterMap_lookup_cons hlookup, List.map_cons, h.named hlookup]
        by_cases hid : id = objectId
        · subst hid
          rw [if_pos rfl, filterMap_lookup_cons (AList.lookup_insert _), hrest]
        · rw [if_neg hid, filterMap_lookup_cons ((AList.lookup_insert_ne hid).trans hlookup),
            hrest]
  exact hids _ fun id hid => (h.mem_order id).mp hid

/-- The stager without an object. -/
def without (stager : ArchiveBatchStager) (objectId : Bytes) : ArchiveBatchStager :=
  { stager with
    objects := stager.objects.erase objectId
    objectOrder := stager.objectOrder.filter (· ≠ objectId) }

theorem Indexed.without (h : stager.Indexed) : (stager.without objectId).Indexed where
  nodup := h.nodup.filter _
  mem_order id := by
    rw [ArchiveBatchStager.without, List.mem_filter, h.mem_order, decide_eq_true_iff]
    exact and_comm.trans AList.mem_erase.symm
  named {id other} hlookup := by
    have hlookup : (stager.objects.erase objectId).lookup id = some other := hlookup
    by_cases hid : id = objectId
    · rw [hid, AList.lookup_erase] at hlookup
      cases hlookup
    · rw [AList.lookup_erase_ne hid] at hlookup
      exact h.named hlookup

theorem Indexed.ordered_without (h : stager.Indexed) :
    (stager.without objectId).ordered =
      stager.ordered.filter fun staged => staged.candidate.objectId ≠ objectId := by
  have hids (ids : List Bytes) (hmem : ∀ id ∈ ids, id ∈ stager.objects) :
      (ids.filter (· ≠ objectId)).filterMap (stager.objects.erase objectId).lookup =
        (ids.filterMap stager.objects.lookup).filter
          fun staged => staged.candidate.objectId ≠ objectId := by
    induction ids with
    | nil => rfl
    | cons id ids ih =>
        obtain ⟨staged, hlookup⟩ :=
          Option.isSome_iff_exists.mp (AList.lookup_isSome.mpr (hmem id List.mem_cons_self))
        have hrest := ih fun other hother => hmem other (List.mem_cons_of_mem _ hother)
        have hname := h.named hlookup
        rw [filterMap_lookup_cons hlookup]
        by_cases hid : id = objectId
        · rw [List.filter_cons_of_neg (by simpa using hid), List.filter_cons_of_neg
            (by simpa [hname] using hid), hrest]
        · rw [List.filter_cons_of_pos (by simpa using hid), List.filter_cons_of_pos
            (by simpa [hname] using hid), filterMap_lookup_cons
            ((AList.lookup_erase_ne hid).trans hlookup), hrest]
  exact hids _ fun id hid => (h.mem_order id).mp hid

/-! ## Loading -/

variable {files : StagingFiles} {content : Bytes → Bytes} {entries : List StagedArchiveObject}

theorem loadLines_entries {total : UInt64}
    (h : ∀ staged ∈ entries, staged.done = false ∧ staged.dataFile ≠ []) :
    loadLines stager total (entries.map .entry) =
      .ok (entries.foldl append stager,
        entries.foldl (fun total staged => total + staged.sizeBytes) total) := by
  induction entries generalizing stager total with
  | nil => rfl
  | cons staged entries ih =>
      obtain ⟨hdone, hfile⟩ := h staged List.mem_cons_self
      have hline : loadLine stager total (.entry staged) =
          .ok (stager.append staged, total + staged.sizeBytes) := by
        simp only [loadLine, hfile, if_false, ← hdone]
        rfl
      rw [List.map_cons, loadLines, hline]
      exact ih fun other hmem => h other (List.mem_cons_of_mem _ hmem)

/-- What an append leaves alone, all of them do. -/
theorem foldl_append_eq {α : Type} (f : ArchiveBatchStager → α)
    (hf : ∀ stager staged, f (append stager staged) = f stager) :
    f (entries.foldl append stager) = f stager := by
  induction entries generalizing stager with
  | nil => rfl
  | cons staged entries ih => exact ih.trans (hf stager staged)

theorem Indexed.foldl (h : stager.Indexed)
    (hnodup : (entries.map (·.candidate.objectId)).Nodup)
    (hnew : ∀ staged ∈ entries, staged.candidate.objectId ∉ stager.objects) :
    (entries.foldl ArchiveBatchStager.append stager).Indexed ∧
      (entries.foldl ArchiveBatchStager.append stager).ordered = stager.ordered ++ entries := by
  induction entries generalizing stager with
  | nil => exact ⟨h, (List.append_nil _).symm⟩
  | cons staged entries ih =>
      obtain ⟨hfirst, hrest⟩ := List.nodup_cons.mp hnodup
      have hstaged := hnew staged List.mem_cons_self
      have hothers : ∀ other ∈ entries,
          other.candidate.objectId ∉ (stager.append staged).objects := by
        intro other hother hmem
        rcases (AList.mem_insert stager.objects).mp hmem with heq | hold
        · exact hfirst (List.mem_map.mpr ⟨other, hother, heq⟩)
        · exact hnew other (List.mem_cons_of_mem _ hother) hold
      obtain ⟨hindexed, hordered⟩ := ih (h.append hstaged) hrest hothers
      refine ⟨hindexed, ?_⟩
      rw [List.foldl_cons, hordered, h.ordered_append hstaged, List.append_assoc]
      rfl

theorem foldl_sizes_zero (h : (entries.map (·.sizeBytes.toNat)).sum = 0) :
    entries.foldl (fun total staged => total + staged.sizeBytes) 0 = (0 : UInt64) := by
  induction entries with
  | nil => rfl
  | cons staged entries ih =>
      rw [List.map_cons, List.sum_cons, Nat.add_eq_zero_iff] at h
      have hzero : staged.sizeBytes = 0 := UInt64.toNat_inj.mp h.1
      rw [List.foldl_cons, hzero]
      exact ih h.2

/-- A batch as the operations leave it in memory. -/
structure Batch (scores : ScoreText) (stager : ArchiveBatchStager) : Prop where
  inited : stager.inited = true
  stagingDir : DataNode.Plain stager.stagingDir
  stagingDir_ne : stager.stagingDir ≠ []
  batchId : DataNode.Plain stager.batchId
  batchId_ne : stager.batchId ≠ []
  indexed : stager.Indexed
  plain : ∀ staged ∈ stager.ordered, PlainObject scores staged
  dataFile : ∀ staged ∈ stager.ordered,
    staged.dataFile = stager.objectFilePath staged.candidate.objectId
  bytes : (stager.ordered.map (·.sizeBytes.toNat)).sum ≤ stager.totalBytes.toNat

/-- A batch as it is in the files. -/
structure Filed (scores : ScoreText) (files : StagingFiles) (content : Bytes → Bytes)
    (stager : ArchiveBatchStager) : Prop where
  manifest : ∃ text, files (manifestPath stager.stagingDir) = some text ∧
    parseManifest scores text = manifestLines scores stager
  data : ∀ staged ∈ stager.pending,
    files staged.dataFile = some (content staged.candidate.objectId)

theorem mem_pending : staged ∈ stager.pending ↔ staged ∈ stager.ordered ∧ staged.done = false := by
  rw [pending, List.mem_filter, Bool.not_eq_true']

theorem Batch.plain_pending (h : Batch scores stager) :
    ∀ staged ∈ stager.pending, PlainObject scores staged :=
  fun staged hmem => h.plain staged (mem_pending.mp hmem).1

theorem PlainObject.rounded (h : PlainObject scores staged) :
    PlainObject scores (rounded scores staged) where
  candidate :=
    { h.candidate with
      heatScore := h.candidate.heatScore.rounded.1
      score := h.candidate.score.rounded.1 }
  leaseId := h.leaseId
  opId := h.opId
  objectKey := h.objectKey
  dataFile := h.dataFile
  dataFile_ne := h.dataFile_ne

theorem PlainObject.rounded_rounded (h : PlainObject scores staged) :
    ArchiveBatchStager.rounded scores (ArchiveBatchStager.rounded scores staged) =
      ArchiveBatchStager.rounded scores staged := by
  simp only [ArchiveBatchStager.rounded, h.candidate.heatScore.rounded.2,
    h.candidate.score.rounded.2]

theorem sum_pending_le :
    (stager.pending.map (·.sizeBytes.toNat)).sum ≤ (stager.ordered.map (·.sizeBytes.toNat)).sum :=
  (List.filter_sublist.map _).sum_le_sum fun _ _ => Nat.zero_le _

/-- What the header of the manifest restores. -/
def headed (stager : ArchiveBatchStager) (options : Options) : ArchiveBatchStager where
  stagingDir := stager.stagingDir
  options := options
  batchId := stager.batchId
  createdTsMs := stager.createdTsMs
  isSealed := stager.isSealed
  totalBytes := stager.totalBytes

/-- The stager that the manifest is loaded into. -/
def loaded (scores : ScoreText) (stager : ArchiveBatchStager) (options : Options) :
    ArchiveBatchStager :=
  (stager.pending.map (rounded scores)).foldl append (stager.headed options)

theorem loaded_eq {α : Type} {options : Options} (f : ArchiveBatchStager → α)
    (hf : ∀ stager staged, f (append stager staged) = f stager) :
    f (loaded scores stager options) = f (stager.headed options) := foldl_append_eq f hf

theorem Batch.load_manifestLines (h : Batch scores stager) (options : Options) :
    loadManifest { stagingDir := stager.stagingDir, options } (manifestLines scores stager) =
      .ok (loaded scores stager options) := by
  have hentries : ∀ staged ∈ stager.pending.map (rounded scores),
      staged.done = false ∧ staged.dataFile ≠ [] := by
    intro staged hmem
    obtain ⟨old, hold, rfl⟩ := List.mem_map.mp hmem
    exact ⟨rfl, (h.plain_pending old hold).dataFile_ne⟩
  have hlines : stager.pending.map (fun staged => ManifestLine.entry (rounded scores staged)) =
      (stager.pending.map (rounded scores)).map .entry := by
    rw [List.map_map]
    rfl
  have hload : loadLines { stagingDir := stager.stagingDir, options } 0
      (manifestLines scores stager) =
        .ok (loaded scores stager options, (stager.pending.map (rounded scores)).foldl
          (fun total staged => total + staged.sizeBytes) 0) := by
    rw [manifestLines, hlines]
    exact loadLines_entries hentries
  rw [loadManifest, hload]
  simp only [bind, Except.bind, pure, Except.pure]
  have hkept : (loaded scores stager options).totalBytes = stager.totalBytes :=
    loaded_eq (·.totalBytes) fun _ _ => rfl
  split
  · next hzero =>
      have htotal : stager.totalBytes = 0 := hkept.symm.trans hzero
      have hle := Nat.le_trans sum_pending_le h.bytes
      rw [htotal] at hle
      have hsum : ((stager.pending.map (rounded scores)).map (·.sizeBytes.toNat)).sum = 0 := by
        rw [List.map_map]
        exact Nat.le_zero.mp hle
      rw [foldl_sizes_zero hsum, ← hzero]
  · rfl

theorem Batch.indexed_loaded (h : Batch scores stager) (options : Options) :
    (loaded scores stager options).Indexed ∧
      (loaded scores stager options).ordered = stager.pending.map (rounded scores) := by
  have hempty : (stager.headed options).Indexed :=
    ⟨List.nodup_nil, fun id => iff_of_false List.not_mem_nil (AList.notMem_empty id), nofun⟩
  have hnodup : ((stager.pending.map (rounded scores)).map (·.candidate.objectId)).Nodup := by
    rw [List.map_map]
    have hall : (stager.ordered.map (·.candidate.objectId)).Nodup := by
      rw [h.indexed.map_ordered]
      exact h.indexed.nodup
    exact (List.filter_sublist.map _).nodup hall
  exact hempty.foldl hnodup fun _ _ => AList.notMem_empty _

theorem pending_of_ordered (h : stager.ordered = entries.map (rounded scores)) :
    stager.pending = entries.map (rounded scores) := by
  rw [pending, h]
  apply List.filter_eq_self.mpr
  intro staged hmem
  obtain ⟨old, -, rfl⟩ := List.mem_map.mp hmem
  rfl

/-- A batch whose manifest is there is loaded, and if its objects are there too it is restored
    and filed again. -/
theorem Batch.reload (h : Batch scores stager)
    (hmanifest : ∃ text, files (manifestPath stager.stagingDir) = some text ∧
      parseManifest scores text = manifestLines scores stager)
    (options : Options) (now createdNow : UInt64) :
    ∃ stager', initOn scores stager.stagingDir options now createdNow files = .ok (stager', files) ∧
      Batch scores stager' ∧ stager'.stagingDir = stager.stagingDir ∧
      stager'.objectOrder = stager.pending.map (·.candidate.objectId) ∧
      stager'.pending = stager.pending.map (rounded scores) ∧
      (Filed scores files content stager →
        Restores scores files stager content stager' ∧ Filed scores files content stager') := by
  obtain ⟨text, htext, hparse⟩ := hmanifest
  have hlines : (initAnswers scores stager.stagingDir now createdNow files).manifest =
      manifestLines scores stager := by
    simp only [initAnswers, htext, Option.elim_some, hparse]
  generalize hoptions : ({ options with
    discSizeBytes := if options.discSizeBytes = 0 then 1 else options.discSizeBytes } : Options) =
      sized
  obtain ⟨hindexed, hordered⟩ := h.indexed_loaded sized
  have hbatch (options : Options) : (loaded scores stager options).batchId = stager.batchId :=
    loaded_eq (·.batchId) fun _ _ => rfl
  have hdir : (loaded scores stager sized).stagingDir = stager.stagingDir :=
    loaded_eq (·.stagingDir) fun _ _ => rfl
  have htotal : (loaded scores stager sized).totalBytes = stager.totalBytes :=
    loaded_eq (·.totalBytes) fun _ _ => rfl
  have hinit : init stager.stagingDir options
      (initAnswers scores stager.stagingDir now createdNow files) =
        .ok { loaded scores stager sized with inited := true } := by
    unfold init
    rw [if_neg h.stagingDir_ne, hlines, hoptions]
    simp only [initAnswers, bind, Except.bind, h.load_manifestLines sized]
    rw [if_neg (by rw [hbatch]; exact h.batchId_ne)]
    rfl
  have hindexed' : ({ loaded scores stager sized with inited := true } :
      ArchiveBatchStager).Indexed := hindexed.congr rfl rfl
  have hordered' : ({ loaded scores stager sized with inited := true } :
      ArchiveBatchStager).ordered = stager.pending.map (rounded scores) :=
    (ordered_congr rfl rfl).trans hordered
  have hpending' := pending_of_ordered hordered'
  have horder : ({ loaded scores stager sized with inited := true } :
      ArchiveBatchStager).objectOrder = stager.pending.map (·.candidate.objectId) := by
    rw [← hindexed'.map_ordered, hordered', List.map_map]
    rfl
  refine ⟨{ loaded scores stager sized with inited := true }, ?_, ?_, hdir, horder, hpending',
    fun hfiled => ?_⟩
  · rw [initOn, hinit, hlines]
    simp only [bind, Except.bind, pure, Except.pure, h.load_manifestLines options]
    rw [if_neg (by rw [hbatch]; exact h.batchId_ne)]
  · exact
      { inited := rfl
        stagingDir := hdir ▸ h.stagingDir
        stagingDir_ne := fun heq => h.stagingDir_ne (hdir.symm.trans heq)
        batchId := hbatch sized ▸ h.batchId
        batchId_ne := fun heq => h.batchId_ne ((hbatch sized).symm.trans heq)
        indexed := hindexed'
        plain := by
          rw [hordered']
          intro staged hmem
          obtain ⟨old, hold, rfl⟩ := List.mem_map.mp hmem
          exact (h.plain_pending old hold).rounded
        dataFile := by
          rw [hordered']
          intro staged hmem
          obtain ⟨old, hold, rfl⟩ := List.mem_map.mp hmem
          refine (h.dataFile old (mem_pending.mp hold).1).trans ?_
          rw [objectFilePath, objectFilePath]
          exact congrArg (fun dir => dir ++ _ ++ _ ++ _) hdir.symm
        bytes := by
          rw [hordered', List.map_map]
          exact htotal ▸ Nat.le_trans sum_pending_le h.bytes }
  · have hdata : ∀ staged ∈ stager.pending.map (rounded scores),
        files staged.dataFile = some (content staged.candidate.objectId) := by
      intro staged hmem
      obtain ⟨old, hold, rfl⟩ := List.mem_map.mp hmem
      exact hfiled.data old hold
    refine ⟨?_, ⟨text, ?_, hparse.trans ?_⟩, hpending' ▸ hdata⟩
    · exact
        { batchId := hbatch sized
          isSealed := loaded_eq (·.isSealed) fun _ _ => rfl
          createdTsMs := loaded_eq (·.createdTsMs) fun _ _ => rfl
          objectOrder := horder
          mem_order := hindexed'.mem_order
          pending := hpending'
          totalBytes := htotal
          data := hpending' ▸ hdata }
    · exact hdir ▸ htext
    · rw [manifestLines, manifestLines, hpending', List.map_map]
      have hhead : ManifestLine.header stager.batchId stager.createdTsMs stager.isSealed
          stager.totalBytes =
            .header (loaded scores stager sized).batchId (loaded scores stager sized).createdTsMs
              (loaded scores stager sized).isSealed (loaded scores stager sized).totalBytes := by
        rw [hbatch, htotal, loaded_eq (·.createdTsMs) fun _ _ => rfl,
          loaded_eq (·.isSealed) fun _ _ => rfl]
        rfl
      refine congrArg₂ List.cons hhead (List.map_congr_left fun staged hmem => ?_)
      exact congrArg ManifestLine.entry (h.plain_pending staged hmem).rounded_rounded.symm

end Zb.Mds.ArchiveBatchStager
