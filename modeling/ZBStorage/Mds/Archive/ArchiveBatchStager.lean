-- SUMMARY: The batch staged for one disc: staging with its undo, sealing, and its accounts over runs.
import Mathlib.Order.Lattice
import ZBStorage.Lib.Bytes
import ZBStorage.Lib.CallHistory
import ZBStorage.Lib.TableSum

/-!
# The batch of staged objects

`ArchiveBatchStager.cpp`. Objects are collected until they fill a disc; the batch
is then sealed and takes no more. Every change writes the manifest, which may
fail. `StageObject` undoes by hand what it did when it does, and the other
operations do not.
-/

namespace Zb.Mds

open Bytes CallHistory

/-- A candidate for the archive. The scores are the bits of the doubles. -/
structure ArchiveCandidateEntry where
  nodeId : Bytes := []
  nodeAddress : Bytes := []
  diskId : Bytes := []
  objectId : Bytes := []
  lastAccessTsMs : UInt64 := 0
  sizeBytes : UInt64 := 0
  checksum : UInt64 := 0
  heatScore : UInt64 := 0
  archiveState : Bytes := ofAscii "pending"
  version : UInt64 := 0
  score : UInt64 := 0
  reportTsMs : UInt64 := 0
  deriving DecidableEq

structure StagedArchiveObject where
  candidate : ArchiveCandidateEntry := {}
  leaseId : Bytes := []
  opId : Bytes := []
  objectKey : Bytes := []
  version : UInt64 := 0
  sizeBytes : UInt64 := 0
  dataFile : Bytes := []
  done : Bool := false
  deriving DecidableEq

structure ArchiveBatchStager.Options where
  discSizeBytes : UInt64 := 1024 * 1024 * 1024 * 1024
  strictFullDisc : Bool := true
  maxBatchAgeMs : UInt64 := 0

abbrev ArchiveBatchStager.Objects := AList (fun _ : Bytes => StagedArchiveObject)

structure ArchiveBatchStager where
  inited : Bool := false
  stagingDir : Bytes := []
  options : ArchiveBatchStager.Options := {}
  batchId : Bytes := []
  createdTsMs : UInt64 := 0
  isSealed : Bool := false
  totalBytes : UInt64 := 0
  objects : ArchiveBatchStager.Objects := ∅
  objectOrder : List Bytes := []

namespace ArchiveBatchStager

def buildBatchId (nowMs : UInt64) : Bytes := ofAscii "batch_" ++ decimal nowMs.toNat

def objectFilePath (stager : ArchiveBatchStager) (objectId : Bytes) : Bytes :=
  stager.stagingDir ++ ofAscii "/objects/" ++ objectId ++ ofAscii ".bin"

/-! ## The manifest -/

/-- Where `PersistManifestLocked` fails, if it does. -/
inductive Persist
  | stagingDir
  | objectDir
  | openTemp
  | writeTemp
  | rotate
  | stored
  deriving DecidableEq

def Persist.result : Persist → Except Bytes Unit
  | .stagingDir => .error (ofAscii "failed to create staging dir")
  | .objectDir => .error (ofAscii "failed to create staging object dir")
  | .openTemp => .error (ofAscii "failed to open staging manifest temp file")
  | .writeTemp => .error (ofAscii "failed to write staging manifest temp file")
  | .rotate => .error (ofAscii "failed to rotate staging manifest")
  | .stored => .ok ()

/-- A line of the manifest. An empty line is none, and a bad one comes with its error. -/
inductive ManifestLine
  | header (batchId : Bytes) (createdTsMs : UInt64) (isSealed : Bool) (totalBytes : UInt64)
  | entry (staged : StagedArchiveObject)
  | bad (error : Bytes)

/-- One round of the loop of `LoadManifestLocked`, with the sum of the sizes so far. -/
def loadLine (stager : ArchiveBatchStager) (recalculatedTotal : UInt64) :
    ManifestLine → Except Bytes (ArchiveBatchStager × UInt64)
  | .header batchId createdTsMs isSealed totalBytes =>
      .ok ({ stager with batchId, createdTsMs, isSealed, totalBytes }, recalculatedTotal)
  | .bad error => .error error
  | .entry staged =>
      let objectId := staged.candidate.objectId
      let staged := { staged with
        done := false
        dataFile := if staged.dataFile = [] then stager.objectFilePath objectId else staged.dataFile }
      .ok
        ({ stager with
            objects := stager.objects.insert objectId staged
            objectOrder := stager.objectOrder ++ [objectId] },
          recalculatedTotal + staged.sizeBytes)

def loadLines : ArchiveBatchStager → UInt64 → List ManifestLine →
    Except Bytes (ArchiveBatchStager × UInt64)
  | stager, recalculatedTotal, [] => .ok (stager, recalculatedTotal)
  | stager, recalculatedTotal, line :: lines => do
      let (stager, recalculatedTotal) ← loadLine stager recalculatedTotal line
      loadLines stager recalculatedTotal lines

def loadManifest (stager : ArchiveBatchStager) (lines : List ManifestLine) :
    Except Bytes ArchiveBatchStager := do
  let (stager, recalculatedTotal) ← loadLines stager 0 lines
  return if stager.totalBytes = 0 then { stager with totalBytes := recalculatedTotal } else stager

/-- What the surroundings answer to `Init`: the directories, the manifest, two readings of the
clock and the write of a new manifest. Without a manifest there are no lines. -/
structure InitAnswers where
  ensureDirs : Except Bytes Unit
  manifest : List ManifestLine
  now : UInt64
  createdNow : UInt64
  persist : Persist

def init (stagingDir : Bytes) (options : Options) (answers : InitAnswers) :
    Except Bytes ArchiveBatchStager := do
  if stagingDir = [] then .error (ofAscii "archive staging dir is empty")
  else
    answers.ensureDirs
    let options := { options with
      discSizeBytes := if options.discSizeBytes = 0 then 1 else options.discSizeBytes }
    let stager ← loadManifest { stagingDir, options } answers.manifest
    if stager.batchId = [] then
      answers.persist.result
      return { stager with
        batchId := buildBatchId answers.now
        createdTsMs := answers.createdNow
        inited := true }
    else return { stager with inited := true }

/-! ## Staging -/

structure StageRequest where
  candidate : ArchiveCandidateEntry
  leaseId : Bytes := []
  opId : Bytes := []
  objectKey : Bytes := []
  version : UInt64 := 0
  data : Bytes

/-- What becomes of the object's file. -/
inductive FileOutcome
  | openFailed
  | writeFailed
  | moveFailed
  | stored
  deriving DecidableEq

def FileOutcome.result : FileOutcome → Except Bytes Unit
  | .openFailed => .error (ofAscii "failed to open staging object temp file")
  | .writeFailed => .error (ofAscii "failed to write staging object data")
  | .moveFailed => .error (ofAscii "failed to move staging object data")
  | .stored => .ok ()

structure StageResult where
  inserted : Bool := false
  deferred : Bool := false
  deriving DecidableEq

def isReadyToSeal (stager : ArchiveBatchStager) (now : UInt64) : Bool :=
  if stager.totalBytes = stager.options.discSizeBytes then true
  else if stager.options.strictFullDisc then false
  else if stager.options.maxBatchAgeMs = 0 then false
  else stager.createdTsMs > 0 && now > stager.createdTsMs &&
    decide (stager.options.maxBatchAgeMs.toNat ≤ now.toNat - stager.createdTsMs.toNat)

def StageRequest.staged (request : StageRequest) (stager : ArchiveBatchStager) :
    StagedArchiveObject where
  candidate := request.candidate
  leaseId := request.leaseId
  opId := request.opId
  objectKey := request.objectKey
  version := request.version
  sizeBytes := UInt64.ofNat request.data.length
  dataFile := stager.objectFilePath request.candidate.objectId
  done := false

/-- The batch with one object more, sealed when that makes it full. -/
def add (stager : ArchiveBatchStager) (request : StageRequest) (now : UInt64) :
    ArchiveBatchStager :=
  let objectId := request.candidate.objectId
  let added := { stager with
    objects := stager.objects.insert objectId (request.staged stager)
    objectOrder := stager.objectOrder ++ [objectId]
    totalBytes := stager.totalBytes + UInt64.ofNat request.data.length }
  { added with isSealed := added.isReadyToSeal now || added.isSealed }

/-- The undo of `add`. It leaves the seal as it is. -/
def undoAdd (stager : ArchiveBatchStager) (request : StageRequest) : ArchiveBatchStager :=
  let objectId := request.candidate.objectId
  let dataSize := UInt64.ofNat request.data.length
  { stager with
    objects := stager.objects.erase objectId
    objectOrder := if stager.objectOrder.getLast? = some objectId then stager.objectOrder.dropLast
      else stager.objectOrder
    totalBytes := if stager.totalBytes ≥ dataSize then stager.totalBytes - dataSize else 0 }

/-- The object does not fit into the batch, but into the next one. -/
def spills (stager : ArchiveBatchStager) (dataSize : UInt64) : Bool :=
  stager.totalBytes > 0 && stager.totalBytes + dataSize > stager.options.discSizeBytes

def stageObject (stager : ArchiveBatchStager) (request : StageRequest) (file : FileOutcome)
    (now : UInt64) (persist : Persist) : Except Bytes StageResult × ArchiveBatchStager :=
  let objectId := request.candidate.objectId
  let dataSize := UInt64.ofNat request.data.length
  if objectId = [] then (.error (ofAscii "archive object id is empty"), stager)
  else if !stager.inited then (.error (ofAscii "archive batch stager not initialized"), stager)
  else if stager.isSealed then (.error (ofAscii "current archive batch is sealed"), stager)
  else if objectId ∈ stager.objects then (.ok {}, stager)
  else if dataSize > stager.options.discSizeBytes then
    (.error (ofAscii "object size exceeds disc capacity"), stager)
  else if stager.spills dataSize then
    match persist.result with
    | .error error => (.error error, { stager with isSealed := true })
    | .ok _ => (.ok { deferred := true }, { stager with isSealed := true })
  else
    match file.result with
    | .error error => (.error error, stager)
    | .ok _ =>
        match persist.result with
        | .error error => (.error error, (stager.add request now).undoAdd request)
        | .ok _ => (.ok { inserted := true }, stager.add request now)

/-! ## The other operations -/

def sealIfReady (stager : ArchiveBatchStager) (now : UInt64) (persist : Persist) :
    Except Bytes Unit × ArchiveBatchStager :=
  if !stager.inited then (.error (ofAscii "archive batch stager not initialized"), stager)
  else if stager.isSealed then (.ok (), stager)
  else if !stager.isReadyToSeal now then (.ok (), stager)
  else (persist.result, { stager with isSealed := true })

def updateObjectLease (stager : ArchiveBatchStager) (objectId leaseId opId : Bytes)
    (version : UInt64) (persist : Persist) : Except Bytes Unit × ArchiveBatchStager :=
  match stager.objects.lookup objectId with
  | none => (.error (ofAscii "staged object not found"), stager)
  | some staged =>
      (persist.result,
        { stager with
          objects := stager.objects.insert objectId { staged with leaseId, opId, version } })

def markObjectDone (stager : ArchiveBatchStager) (objectId : Bytes) (persist : Persist) :
    Except Bytes Unit × ArchiveBatchStager :=
  match stager.objects.lookup objectId with
  | none => (.error (ofAscii "staged object not found"), stager)
  | some staged =>
      if staged.done then (.ok (), stager)
      else
        (persist.result,
          { stager with objects := stager.objects.insert objectId { staged with done := true } })

def removeObject (stager : ArchiveBatchStager) (objectId : Bytes) (persist : Persist) :
    Except Bytes Unit × ArchiveBatchStager :=
  match stager.objects.lookup objectId with
  | none => (.ok (), stager)
  | some staged =>
      (persist.result,
        { stager with
          totalBytes :=
            if stager.totalBytes > staged.sizeBytes then stager.totalBytes - staged.sizeBytes else 0
          objects := stager.objects.erase objectId
          objectOrder := stager.objectOrder.filter (· ≠ objectId) })

def resetIfDrained (stager : ArchiveBatchStager) (now : UInt64) (persist : Persist) :
    Except Bytes Unit × ArchiveBatchStager :=
  if !stager.inited || !stager.isSealed then (.ok (), stager)
  else if stager.objects.entries.any fun item => !item.2.done then (.ok (), stager)
  else
    (persist.result,
      { stager with
        objects := ∅
        objectOrder := []
        totalBytes := 0
        isSealed := false
        createdTsMs := now
        batchId := buildBatchId now })

/-- The calls, each with what its surroundings answer. -/
inductive Call
  | stageObject (request : StageRequest) (file : FileOutcome) (now : UInt64) (persist : Persist)
  | sealIfReady (now : UInt64) (persist : Persist)
  | updateObjectLease (objectId leaseId opId : Bytes) (version : UInt64) (persist : Persist)
  | markObjectDone (objectId : Bytes) (persist : Persist)
  | removeObject (objectId : Bytes) (persist : Persist)
  | resetIfDrained (now : UInt64) (persist : Persist)

def serve (stager : ArchiveBatchStager) : Call → ArchiveBatchStager
  | .stageObject request file now persist => (stager.stageObject request file now persist).2
  | .sealIfReady now persist => (stager.sealIfReady now persist).2
  | .updateObjectLease objectId leaseId opId version persist =>
      (stager.updateObjectLease objectId leaseId opId version persist).2
  | .markObjectDone objectId persist => (stager.markObjectDone objectId persist).2
  | .removeObject objectId persist => (stager.removeObject objectId persist).2
  | .resetIfDrained now persist => (stager.resetIfDrained now persist).2

/-! ## Accounting -/

/-- The sizes of the objects of a batch, summed up. -/
def bytes (objects : Objects) : Nat := TableSum.total (fun _ staged => staged.sizeBytes.toNat) objects

/-- The total and the order of the batch tell what its objects are. -/
structure Accounted (stager : ArchiveBatchStager) : Prop where
  totalBytes_eq : stager.totalBytes.toNat = bytes stager.objects
  totalBytes_le : stager.totalBytes ≤ stager.options.discSizeBytes
  order_nodup : stager.objectOrder.Nodup
  mem_order : ∀ objectId, objectId ∈ stager.objectOrder ↔ objectId ∈ stager.objects

/-- The batch has not changed. -/
structure SameBatch (a b : ArchiveBatchStager) : Prop where
  objects : a.objects = b.objects
  objectOrder : a.objectOrder = b.objectOrder
  totalBytes : a.totalBytes = b.totalBytes
  isSealed : a.isSealed = b.isSealed

theorem SameBatch.of_eq {a b : ArchiveBatchStager} (h : a = b) : SameBatch a b :=
  h ▸ ⟨rfl, rfl, rfl, rfl⟩

variable {stager stager' : ArchiveBatchStager} {request : StageRequest} {file : FileOutcome}
  {now : UInt64} {persist : Persist} {objectId : Bytes} {staged staged' : StagedArchiveObject}

theorem Accounted.congr (h : stager.Accounted) (hobjects : stager'.objects = stager.objects)
    (horder : stager'.objectOrder = stager.objectOrder)
    (htotal : stager'.totalBytes = stager.totalBytes) (hoptions : stager'.options = stager.options) :
    stager'.Accounted where
  totalBytes_eq := by rw [hobjects, htotal, h.totalBytes_eq]
  totalBytes_le := by rw [htotal, hoptions]; exact h.totalBytes_le
  order_nodup := horder ▸ h.order_nodup
  mem_order objectId := by rw [horder, hobjects, h.mem_order]

/-- An object changes in what is not counted. -/
theorem Accounted.update (h : stager.Accounted)
    (hstaged : stager.objects.lookup objectId = some staged)
    (hsize : staged'.sizeBytes = staged.sizeBytes) :
    ({ stager with objects := stager.objects.insert objectId staged' } : ArchiveBatchStager).Accounted where
  totalBytes_eq := by
    have hreplace : bytes (stager.objects.insert objectId staged') + staged.sizeBytes.toNat =
        bytes stager.objects + staged'.sizeBytes.toNat := TableSum.total_insert_replace hstaged
    rw [hsize] at hreplace
    exact h.totalBytes_eq.trans (Nat.add_right_cancel hreplace).symm
  totalBytes_le := h.totalBytes_le
  order_nodup := h.order_nodup
  mem_order id := by
    have hmem : objectId ∈ stager.objects := AList.lookup_isSome.mp (by rw [hstaged]; rfl)
    rw [h.mem_order id]
    show _ ↔ id ∈ stager.objects.insert objectId staged'
    rw [AList.mem_insert stager.objects]
    exact (or_iff_right_of_imp fun heq => heq ▸ hmem).symm

theorem toNat_ofNat_length {data : Bytes} {total : UInt64}
    (hwrap : total.toNat + data.length < 2 ^ 64) :
    (UInt64.ofNat data.length).toNat = data.length :=
  UInt64.toNat_ofNat_of_lt' (Nat.lt_of_le_of_lt (Nat.le_add_left _ _) hwrap)

theorem toNat_add_length {data : Bytes} {total : UInt64}
    (hwrap : total.toNat + data.length < 2 ^ 64) :
    (total + UInt64.ofNat data.length).toNat = total.toNat + data.length := by
  rw [UInt64.toNat_add, toNat_ofNat_length hwrap, Nat.mod_eq_of_lt hwrap]

/-- An object that fits is counted. -/
theorem Accounted.add (h : stager.Accounted) (hnew : request.candidate.objectId ∉ stager.objects)
    (hwrap : stager.totalBytes.toNat + request.data.length < 2 ^ 64)
    (hsize : UInt64.ofNat request.data.length ≤ stager.options.discSizeBytes)
    (hfits : stager.spills (UInt64.ofNat request.data.length) = false) :
    (stager.add request now).Accounted where
  totalBytes_eq := by
    have hlookup : stager.objects.lookup request.candidate.objectId = none :=
      AList.lookup_eq_none.mpr hnew
    have hinsert : bytes (stager.objects.insert request.candidate.objectId (request.staged stager)) =
        (UInt64.ofNat request.data.length).toNat + bytes stager.objects :=
      TableSum.total_insert_new hlookup
    have htotal := h.totalBytes_eq
    show (stager.totalBytes + UInt64.ofNat request.data.length).toNat = bytes (AList.insert _ _ _)
    rw [hinsert, toNat_add_length hwrap, toNat_ofNat_length hwrap]
    omega
  totalBytes_le := by
    show stager.totalBytes + UInt64.ofNat request.data.length ≤ stager.options.discSizeBytes
    rw [spills, Bool.and_eq_false_iff] at hfits
    rcases hfits with hempty | hsmall
    · have hzero : stager.totalBytes = 0 := by
        have hnot := of_decide_eq_false hempty
        rw [gt_iff_lt, UInt64.lt_iff_toNat_lt] at hnot
        exact UInt64.toNat_inj.mp (Nat.eq_zero_of_not_pos hnot)
      rw [hzero, UInt64.zero_add]
      exact hsize
    · exact UInt64.not_lt.mp (of_decide_eq_false hsmall)
  order_nodup := by
    show (stager.objectOrder ++ [request.candidate.objectId]).Nodup
    refine List.nodup_append.mpr ⟨h.order_nodup, List.nodup_singleton _, ?_⟩
    intro a ha b hb hab
    rw [List.mem_singleton] at hb
    exact hnew ((h.mem_order _).mp (hb ▸ hab ▸ ha))
  mem_order id := by
    show id ∈ stager.objectOrder ++ [request.candidate.objectId] ↔
      id ∈ stager.objects.insert request.candidate.objectId (request.staged stager)
    rw [AList.mem_insert stager.objects, List.mem_append, List.mem_singleton, h.mem_order, or_comm]

/-- The undo brings everything back but the seal. -/
theorem undoAdd_add (hnew : request.candidate.objectId ∉ stager.objects)
    (hwrap : stager.totalBytes.toNat + request.data.length < 2 ^ 64) :
    (stager.add request now).undoAdd request =
      { stager with isSealed := (stager.add request now).isSealed } := by
  have hobjects : (stager.objects.insert request.candidate.objectId
      (request.staged stager)).erase request.candidate.objectId = stager.objects := by
    apply AList.ext
    show List.kerase _ (AList.insert _ _ stager.objects).entries = stager.objects.entries
    rw [AList.entries_insert_of_notMem hnew]
    exact List.kerase_cons_eq rfl
  have hge : stager.totalBytes + UInt64.ofNat request.data.length ≥
      UInt64.ofNat request.data.length := by
    rw [ge_iff_le, UInt64.le_iff_toNat_le, toNat_add_length hwrap, toNat_ofNat_length hwrap]
    exact Nat.le_add_left _ _
  unfold undoAdd
  simp only [ArchiveBatchStager.add, hobjects, List.getLast?_concat, List.dropLast_concat, if_true,
    hge, UInt64.add_sub_cancel]

/-- The object reaches the manifest: nothing before it fails. -/
structure Accepted (stager : ArchiveBatchStager) (request : StageRequest) : Prop where
  named : request.candidate.objectId ≠ []
  inited : stager.inited = true
  unsealed : stager.isSealed = false
  new : request.candidate.objectId ∉ stager.objects
  small : UInt64.ofNat request.data.length ≤ stager.options.discSizeBytes

/-- With the object, or because of it, the batch is sealed. -/
def sealsWith (stager : ArchiveBatchStager) (request : StageRequest) (file : FileOutcome)
    (now : UInt64) : Bool :=
  let dataSize := UInt64.ofNat request.data.length
  stager.spills dataSize || (file = .stored &&
    isReadyToSeal { stager with totalBytes := stager.totalBytes + dataSize } now)

/-- A refused or known object changes nothing, and is not answered with news. -/
theorem stageObject_of_not_accepted (file : FileOutcome) (now : UInt64) (persist : Persist)
    (h : ¬stager.Accepted request) : (stager.stageObject request file now persist).2 = stager ∧
      ∀ result, (stager.stageObject request file now persist).1 = .ok result → result = {} := by
  unfold stageObject
  by_cases hname : request.candidate.objectId = []
  · rw [if_pos hname]
    exact ⟨rfl, nofun⟩
  rw [if_neg hname]
  by_cases hinited : stager.inited = true
  swap
  · rw [if_pos (by rw [Bool.eq_false_of_not_eq_true hinited]; rfl)]
    exact ⟨rfl, nofun⟩
  rw [if_neg (by rw [hinited]; exact Bool.false_ne_true)]
  by_cases hsealed : stager.isSealed = true
  · rw [if_pos hsealed]
    exact ⟨rfl, nofun⟩
  rw [if_neg hsealed]
  by_cases hknown : request.candidate.objectId ∈ stager.objects
  · rw [if_pos hknown]
    exact ⟨rfl, fun result hresult => (Except.ok.inj hresult).symm⟩
  rw [if_neg hknown]
  by_cases hlarge : UInt64.ofNat request.data.length > stager.options.discSizeBytes
  · rw [if_pos hlarge]
    exact ⟨rfl, nofun⟩
  · exact absurd ⟨hname, hinited, Bool.eq_false_of_not_eq_true hsealed, hknown,
      UInt64.not_lt.mp hlarge⟩ h

/-- What `StageObject` does: it refuses the object, knows it, or gets to the manifest. -/
theorem stageObject_cases (stager : ArchiveBatchStager) (request : StageRequest)
    (file : FileOutcome) (now : UInt64) (persist : Persist) :
    (¬stager.Accepted request ∧ (stager.stageObject request file now persist).2 = stager) ∨
      stager.Accepted request ∧
        ((stager.spills (UInt64.ofNat request.data.length) = true ∧
            (stager.stageObject request file now persist).2 = { stager with isSealed := true } ∧
            ((∃ error, (stager.stageObject request file now persist).1 = .error error) ↔
              persist ≠ .stored)) ∨
          (stager.spills (UInt64.ofNat request.data.length) = false ∧ file ≠ .stored ∧
            (stager.stageObject request file now persist).2 = stager) ∨
          (stager.spills (UInt64.ofNat request.data.length) = false ∧ file = .stored ∧
            persist ≠ .stored ∧
            (∃ error, (stager.stageObject request file now persist).1 = .error error) ∧
            (stager.stageObject request file now persist).2 = (stager.add request now).undoAdd request) ∨
          (stager.spills (UInt64.ofNat request.data.length) = false ∧ file = .stored ∧
            persist = .stored ∧
            (stager.stageObject request file now persist).1 = .ok { inserted := true } ∧
            (stager.stageObject request file now persist).2 = stager.add request now)) := by
  by_cases haccepted : stager.Accepted request
  swap
  · exact .inl ⟨haccepted, (stageObject_of_not_accepted file now persist haccepted).1⟩
  refine .inr ⟨haccepted, ?_⟩
  unfold stageObject
  rw [if_neg haccepted.named, if_neg (by rw [haccepted.inited]; exact Bool.false_ne_true),
    if_neg (by rw [haccepted.unsealed]; exact Bool.false_ne_true), if_neg haccepted.new,
    if_neg (UInt64.not_lt.mpr haccepted.small)]
  rcases hspills : stager.spills (UInt64.ofNat request.data.length) with _ | _
  · rw [if_neg Bool.false_ne_true]
    cases file with
    | openFailed => exact .inr (.inl ⟨rfl, nofun, rfl⟩)
    | writeFailed => exact .inr (.inl ⟨rfl, nofun, rfl⟩)
    | moveFailed => exact .inr (.inl ⟨rfl, nofun, rfl⟩)
    | stored =>
        refine .inr (.inr ?_)
        cases persist with
        | stored => exact .inr ⟨rfl, rfl, rfl, rfl, rfl⟩
        | _ => exact .inl ⟨rfl, rfl, nofun, ⟨_, rfl⟩, rfl⟩
  · rw [if_pos rfl]
    refine .inl ⟨rfl, ?_⟩
    cases persist with
    | stored => exact ⟨rfl, iff_of_false nofun fun h => h rfl⟩
    | _ => exact ⟨rfl, iff_of_true ⟨_, rfl⟩ nofun⟩

theorem Accounted.stageObject (h : stager.Accounted)
    (hwrap : stager.totalBytes.toNat + request.data.length < 2 ^ 64) :
    (stager.stageObject request file now persist).2.Accounted := by
  rcases stageObject_cases stager request file now persist with
    ⟨_, hsame⟩ | ⟨haccepted, ⟨_, hsealed, _⟩ | ⟨_, _, hsame⟩ | ⟨_, _, _, _, hundone⟩ |
      ⟨hfits, _, _, _, hadded⟩⟩
  · rw [hsame]
    exact h
  · rw [hsealed]
    exact h.congr rfl rfl rfl rfl
  · rw [hsame]
    exact h
  · rw [hundone, undoAdd_add haccepted.new hwrap]
    exact h.congr rfl rfl rfl rfl
  · rw [hadded]
    exact h.add haccepted.new hwrap haccepted.small hfits

theorem Accounted.updateObjectLease {leaseId opId : Bytes} {version : UInt64} (h : stager.Accounted) :
    (stager.updateObjectLease objectId leaseId opId version persist).2.Accounted := by
  unfold ArchiveBatchStager.updateObjectLease
  split
  · exact h
  · rename_i staged hstaged
    exact h.update hstaged rfl

theorem Accounted.markObjectDone (h : stager.Accounted) :
    (stager.markObjectDone objectId persist).2.Accounted := by
  unfold ArchiveBatchStager.markObjectDone
  split
  · exact h
  · rename_i staged hstaged
    split
    · exact h
    · exact h.update hstaged rfl

/-- The bytes of a removed object are taken off, all of them. -/
theorem Accounted.removeObject (h : stager.Accounted) :
    (stager.removeObject objectId persist).2.Accounted := by
  unfold ArchiveBatchStager.removeObject
  split
  · exact h
  · rename_i staged hstaged
    have hbytes : bytes stager.objects = staged.sizeBytes.toNat + bytes (stager.objects.erase objectId) :=
      TableSum.total_erase hstaged
    have htotal := h.totalBytes_eq
    have hrest : (if stager.totalBytes > staged.sizeBytes then stager.totalBytes - staged.sizeBytes
        else 0).toNat = bytes (stager.objects.erase objectId) := by
      split
      · rename_i hlarger
        rw [UInt64.toNat_sub_of_le _ _ (UInt64.le_of_lt hlarger)]
        omega
      · rename_i hnot
        rw [gt_iff_lt, UInt64.lt_iff_toNat_lt] at hnot
        rw [UInt64.toNat_zero]
        omega
    exact
      { totalBytes_eq := hrest
        totalBytes_le := by
          have hle := UInt64.le_iff_toNat_le.mp h.totalBytes_le
          refine UInt64.le_iff_toNat_le.mpr (Nat.le_trans ?_ hle)
          rw [hrest]
          omega
        order_nodup := h.order_nodup.filter _
        mem_order := fun id => by
          rw [List.mem_filter, h.mem_order, decide_eq_true_iff]
          exact (and_comm.trans AList.mem_erase.symm) }

theorem Accounted.resetIfDrained (h : stager.Accounted) :
    (stager.resetIfDrained now persist).2.Accounted := by
  unfold ArchiveBatchStager.resetIfDrained
  split
  · exact h
  · split
    · exact h
    · exact
        { totalBytes_eq := rfl
          totalBytes_le := UInt64.le_iff_toNat_le.mpr (Nat.zero_le _)
          order_nodup := List.nodup_nil
          mem_order := fun id => iff_of_false List.not_mem_nil (AList.notMem_empty id) }

theorem Accounted.sealIfReady (h : stager.Accounted) :
    (stager.sealIfReady now persist).2.Accounted := by
  unfold ArchiveBatchStager.sealIfReady
  split
  · exact h
  · split
    · exact h
    · split
      · exact h
      · exact h.congr rfl rfl rfl rfl

/-- The bytes of the batch and of the object can be counted in 64 bits. -/
def Call.Counts (stager : ArchiveBatchStager) : Call → Prop
  | .stageObject request _ _ _ => stager.totalBytes.toNat + request.data.length < 2 ^ 64
  | _ => True

theorem Accounted.serve {call : Call} (h : stager.Accounted) (hcounts : call.Counts stager) :
    (stager.serve call).Accounted := by
  cases call with
  | stageObject request file now persist => exact h.stageObject hcounts
  | sealIfReady now persist => exact h.sealIfReady
  | updateObjectLease objectId leaseId opId version persist => exact h.updateObjectLease
  | markObjectDone objectId persist => exact h.markObjectDone
  | removeObject objectId persist => exact h.removeObject
  | resetIfDrained now persist => exact h.resetIfDrained

/-! ## The undo -/

/-- The manifest of an accepted object cannot be written, and the batch is sealed with it. -/
def FailsSealing (stager : ArchiveBatchStager) (request : StageRequest) (file : FileOutcome)
    (now : UInt64) (persist : Persist) : Prop :=
  stager.Accepted request ∧ persist ≠ .stored ∧ stager.sealsWith request file now = true

/-- A failed call leaves the batch as it was, unless it fails while it seals. -/
theorem stageObject_undone_iff
    (hwrap : stager.totalBytes.toNat + request.data.length < 2 ^ 64) :
    (∀ error, (stager.stageObject request file now persist).1 = .error error →
        SameBatch (stager.stageObject request file now persist).2 stager) ↔
      ¬FailsSealing stager request file now persist := by
  rcases stageObject_cases stager request file now persist with
    ⟨hrefused, hsame⟩ | ⟨haccepted, ⟨hspills, hsealed, herror⟩ | ⟨hfits, hfile, hsame⟩ |
      ⟨hfits, hfile, hpersist, hfails, hundone⟩ | ⟨_, _, hpersist, hok, _⟩⟩
  · exact iff_of_true (fun _ _ => .of_eq hsame) fun h => hrefused h.1
  · rcases eq_or_ne persist .stored with hstored | hpersist
    · refine iff_of_true (fun error he => ?_) fun h => h.2.1 hstored
      exact absurd hstored (herror.mp ⟨error, he⟩)
    · refine iff_of_false (fun hall => ?_) fun h => h ⟨haccepted, hpersist, ?_⟩
      · obtain ⟨error, he⟩ := herror.mpr hpersist
        have hseal := (hall error he).isSealed
        rw [hsealed, haccepted.unsealed] at hseal
        exact nomatch hseal
      · rw [sealsWith, hspills, Bool.true_or]
  · refine iff_of_true (fun _ _ => .of_eq hsame) fun h => ?_
    have hseals := h.2.2
    rw [sealsWith, hfits, decide_eq_false hfile] at hseals
    exact nomatch hseals
  · have hseals : stager.sealsWith request file now = (stager.add request now).isSealed := by
      show _ = (_ || stager.isSealed)
      rw [sealsWith, hfits, decide_eq_true hfile, haccepted.unsealed, Bool.or_false]
      rfl
    rw [hundone, undoAdd_add haccepted.new hwrap]
    constructor
    · intro hall hbad
      obtain ⟨error, he⟩ := hfails
      have hseal : (stager.add request now).isSealed = stager.isSealed := (hall error he).isSealed
      rw [← hseals, hbad.2.2, haccepted.unsealed] at hseal
      exact nomatch hseal
    · intro hgood _ _
      refine ⟨rfl, rfl, rfl, ?_⟩
      rw [← hseals, haccepted.unsealed]
      exact Bool.eq_false_of_not_eq_true fun hbad => hgood ⟨haccepted, hpersist, hbad⟩
  · refine iff_of_true (fun error he => ?_) fun h => h.2.1 hpersist
    rw [hok] at he
    exact nomatch he

/-! ## The batch found in the manifest -/

def ManifestLine.entry? : ManifestLine → Option StagedArchiveObject
  | .entry staged => some staged
  | _ => none

/-- The objects of the manifest. -/
def entriesOf (lines : List ManifestLine) : List StagedArchiveObject :=
  lines.filterMap ManifestLine.entry?

/-- The total that the last header says, or else the one before. -/
def headerTotal : UInt64 → List ManifestLine → UInt64
  | total, [] => total
  | _, .header _ _ _ totalBytes :: lines => headerTotal totalBytes lines
  | total, _ :: lines => headerTotal total lines

def entryBytes (lines : List ManifestLine) : Nat :=
  ((entriesOf lines).map (·.sizeBytes.toNat)).sum

/-- The manifest names its objects once each, and if it says their total, says it right. -/
structure Consistent (options : Options) (lines : List ManifestLine) : Prop where
  nodup : ((entriesOf lines).map (·.candidate.objectId)).Nodup
  total : (headerTotal 0 lines).toNat = 0 ∨ (headerTotal 0 lines).toNat = entryBytes lines
  small : entryBytes lines ≤ max 1 options.discSizeBytes.toNat

/-- The objects read so far, and the sum of their sizes. -/
structure Loaded (options : Options) (total : UInt64) (read : Nat) (stager : ArchiveBatchStager) :
    Prop where
  options_eq : stager.options = options
  bytes_eq : bytes stager.objects = read
  total_eq : stager.totalBytes = total
  order_nodup : stager.objectOrder.Nodup
  mem_order : ∀ objectId, objectId ∈ stager.objectOrder ↔ objectId ∈ stager.objects

theorem Loaded.lines {options : Options} {lines : List ManifestLine} {total recalculated : UInt64}
    {read : Nat} {loaded : ArchiveBatchStager × UInt64} (h : Loaded options total read stager)
    (hnodup : ((entriesOf lines).map (·.candidate.objectId)).Nodup)
    (hnew : ∀ staged ∈ entriesOf lines, staged.candidate.objectId ∉ stager.objects)
    (hload : loadLines stager recalculated lines = .ok loaded) :
    Loaded options (headerTotal total lines) (read + entryBytes lines) loaded.1 ∧
      loaded.2 = recalculated + UInt64.ofNat (entryBytes lines) := by
  induction lines generalizing stager total recalculated read with
  | nil =>
      cases hload
      exact ⟨h, (UInt64.add_zero _).symm⟩
  | cons line lines ih =>
      cases line with
      | header batchId createdTsMs isSealed totalBytes =>
          have hrest : loadLines { stager with batchId, createdTsMs, isSealed, totalBytes }
              recalculated lines = .ok loaded := hload
          have hread : Loaded options totalBytes read
              { stager with batchId, createdTsMs, isSealed, totalBytes } :=
            ⟨h.options_eq, h.bytes_eq, rfl, h.order_nodup, h.mem_order⟩
          exact ih hread hnodup hnew hrest
      | bad error => exact nomatch hload
      | entry staged =>
          have hentries : entriesOf (.entry staged :: lines) = staged :: entriesOf lines := rfl
          rw [hentries, List.map_cons] at hnodup
          rw [hentries] at hnew
          obtain ⟨hfirst, hrest⟩ := List.nodup_cons.mp hnodup
          have hnot := hnew staged List.mem_cons_self
          obtain ⟨next, hstep, hnext⟩ : ∃ next, loadLine stager recalculated (.entry staged) =
              .ok (next, recalculated + staged.sizeBytes) ∧
              loadLines next (recalculated + staged.sizeBytes) lines = .ok loaded := ⟨_, rfl, hload⟩
          have hread : Loaded options total (read + staged.sizeBytes.toNat) next := by
            cases hstep
            refine ⟨h.options_eq, ?_, h.total_eq, ?_, fun id => ?_⟩
            · refine (TableSum.total_insert_new (AList.lookup_eq_none.mpr hnot)).trans ?_
              rw [Nat.add_comm]
              exact congrArg (· + staged.sizeBytes.toNat) h.bytes_eq
            · refine List.nodup_append.mpr ⟨h.order_nodup, List.nodup_singleton _, ?_⟩
              intro a ha b hb hab
              rw [List.mem_singleton] at hb
              exact hnot ((h.mem_order _).mp (hb ▸ hab ▸ ha))
            · rw [List.mem_append, List.mem_singleton, h.mem_order, or_comm]
              exact (AList.mem_insert stager.objects).symm
          have hothers : ∀ other ∈ entriesOf lines, other.candidate.objectId ∉ next.objects := by
            cases hstep
            intro other hother hmem
            rcases (AList.mem_insert stager.objects).mp hmem with heq | hold
            · exact hfirst (List.mem_map.mpr ⟨other, hother, heq⟩)
            · exact hnew other (List.mem_cons_of_mem _ hother) hold
          obtain ⟨htail, hsum⟩ := ih hread hrest hothers hnext
          have hbytes : entryBytes (.entry staged :: lines) =
              staged.sizeBytes.toNat + entryBytes lines := rfl
          rw [hbytes, ← Nat.add_assoc]
          refine ⟨htail, ?_⟩
          rw [hsum, UInt64.ofNat_add, UInt64.ofNat_toNat, UInt64.add_assoc]

theorem exists_of_bind_eq_ok {α β : Type} {x : Except Bytes α} {f : α → Except Bytes β} {b : β}
    (h : (x >>= f) = .ok b) : ∃ a, x = .ok a ∧ f a = .ok b := by
  cases x with
  | error e => exact nomatch h
  | ok a => exact ⟨a, rfl, h⟩

/-- The total of the header stands, or else the sum of the sizes takes its place. -/
theorem accounted_of_loadManifest {options : Options} {lines : List ManifestLine}
    (hempty : Loaded options 0 0 stager) (hobjects : stager.objects = ∅)
    (hdisc : options.discSizeBytes ≠ 0) (hconsistent : Consistent options lines)
    (hload : loadManifest stager lines = .ok stager') :
    stager'.Accounted := by
  obtain ⟨⟨loaded, recalculated⟩, hlines, hloaded⟩ := exists_of_bind_eq_ok hload
  obtain ⟨hread, hsum⟩ := hempty.lines hconsistent.nodup
    (fun _ _ => hobjects ▸ AList.notMem_empty _) hlines
  rw [Nat.zero_add] at hread
  have hsum : recalculated = UInt64.ofNat (entryBytes lines) := hsum.trans (UInt64.zero_add _)
  have hpos : 1 ≤ options.discSizeBytes.toNat :=
    Nat.one_le_iff_ne_zero.mpr fun h => hdisc (UInt64.toNat_inj.mp h)
  have hsmall : entryBytes lines ≤ options.discSizeBytes.toNat :=
    hconsistent.small.trans (max_le hpos (le_refl _))
  have hrecalculated : recalculated.toNat = entryBytes lines := by
    rw [hsum]
    exact UInt64.toNat_ofNat_of_lt' (hsmall.trans_lt (UInt64.toNat_lt _))
  have htotal : stager'.totalBytes.toNat = entryBytes lines ∧ stager'.objects = loaded.objects ∧
      stager'.objectOrder = loaded.objectOrder ∧ stager'.options = loaded.options := by
    have hwhich : stager' = if loaded.totalBytes = 0 then { loaded with totalBytes := recalculated }
        else loaded := (Except.ok.inj hloaded).symm
    rw [hwhich]
    split
    · exact ⟨hrecalculated, rfl, rfl, rfl⟩
    · rename_i hne
      refine ⟨?_, rfl, rfl, rfl⟩
      rw [hread.total_eq] at hne ⊢
      exact hconsistent.total.resolve_left fun hzero => hne (UInt64.toNat_inj.mp hzero)
  obtain ⟨htotal, hobjects', horder, hoptions⟩ := htotal
  exact
    { totalBytes_eq := by rw [htotal, hobjects', hread.bytes_eq]
      totalBytes_le := by
        rw [UInt64.le_iff_toNat_le, htotal, hoptions, hread.options_eq]
        exact hsmall
      order_nodup := horder ▸ hread.order_nodup
      mem_order := fun id => by rw [horder, hobjects', hread.mem_order] }

/-- What a consistent manifest holds is accounted for. -/
theorem accounted_of_init {stagingDir : Bytes} {options : Options} {answers : InitAnswers}
    (hinit : init stagingDir options answers = .ok stager)
    (hconsistent : Consistent options answers.manifest) : stager.Accounted := by
  unfold init at hinit
  split at hinit
  · exact nomatch hinit
  obtain ⟨_, _, hinit⟩ := exists_of_bind_eq_ok hinit
  obtain ⟨read, hread, hinit⟩ := exists_of_bind_eq_ok hinit
  have hdisc : (if options.discSizeBytes = 0 then 1 else options.discSizeBytes) ≠ 0 := by
    split
    · decide
    · rename_i hne
      exact hne
  have hmax : max 1 options.discSizeBytes.toNat ≤
      max 1 (if options.discSizeBytes = 0 then 1 else options.discSizeBytes).toNat := by
    split
    · rename_i hzero
      rw [hzero]
      exact le_refl _
    · exact le_refl _
  have haccounted : read.Accounted := accounted_of_loadManifest
    ⟨rfl, rfl, rfl, List.nodup_nil, fun id => iff_of_false List.not_mem_nil (AList.notMem_empty id)⟩
    rfl hdisc ⟨hconsistent.nodup, hconsistent.total, hconsistent.small.trans hmax⟩ hread
  split at hinit
  · obtain ⟨_, _, hinit⟩ := exists_of_bind_eq_ok hinit
    rw [← Except.ok.inj hinit]
    exact haccounted.congr rfl rfl rfl rfl
  · rw [← Except.ok.inj hinit]
    exact haccounted.congr rfl rfl rfl rfl

/-! ## Runs -/

/-- From a consistent manifest on, the accounts are right after any calls with any failures,
and a failed `StageObject` changes nothing exactly when it does not fail while it seals. -/
theorem accounted_and_undone {stagingDir : Bytes} {options : Options} {answers : InitAnswers}
    (hinit : init stagingDir options answers = .ok stager)
    (hconsistent : Consistent options answers.manifest)
    {hist : List (Served ArchiveBatchStager Call)}
    (hrun : Serves (fun s call t => t = s.serve call) (fun s call => call.Counts s) stager hist
      stager') :
    stager'.Accounted ∧
      ∀ (request : StageRequest) (file : FileOutcome) (now : UInt64) (persist : Persist),
        stager'.totalBytes.toNat + request.data.length < 2 ^ 64 →
        ((∀ error, (stager'.stageObject request file now persist).1 = .error error →
            SameBatch (stager'.stageObject request file now persist).2 stager') ↔
          ¬FailsSealing stager' request file now persist) := by
  refine ⟨?_, fun request file now persist hwrap => stageObject_undone_iff hwrap⟩
  refine hrun.invariant (fun s call t hs hcounts hserve => ?_) (accounted_of_init hinit hconsistent)
  rw [hserve]
  exact hs.serve hcounts

/-- A disc of two bytes, in a new directory. -/
def sampleOptions : Options := { discSizeBytes := 2 }

def sampleAnswers : InitAnswers where
  ensureDirs := .ok ()
  manifest := []
  now := 1
  createdNow := 1
  persist := .stored

def sampleStager : ArchiveBatchStager where
  inited := true
  stagingDir := ofAscii "s"
  options := sampleOptions
  batchId := ofAscii "batch_1"
  createdTsMs := 1

def sampleRequest (objectId : Bytes) (size : Nat) : StageRequest where
  candidate := { objectId := objectId }
  data := List.replicate size 0

theorem init_sample : init (ofAscii "s") sampleOptions sampleAnswers = .ok sampleStager := by
  rfl

theorem accounted_and_undone_of_two :
    ∃ stager, stager = (sampleStager.serve
        (.stageObject (sampleRequest [1] 1) .stored 2 .stored)).serve (.removeObject [1] .rotate) ∧
      stager.Accounted ∧
      ((∀ error, (stager.stageObject (sampleRequest [2] 1) .stored 3 .openTemp).1 = .error error →
          SameBatch (stager.stageObject (sampleRequest [2] 1) .stored 3 .openTemp).2 stager) ↔
        ¬FailsSealing stager (sampleRequest [2] 1) .stored 3 .openTemp) := by
  have hconsistent : Consistent sampleOptions sampleAnswers.manifest :=
    ⟨List.nodup_nil, .inl rfl, Nat.zero_le _⟩
  have hfirst : Serves (fun s call t => t = s.serve call) (fun s call => call.Counts s) sampleStager
      ([] ++ [⟨sampleStager, .stageObject (sampleRequest [1] 1) .stored 2 .stored, _⟩]) _ :=
    Serves.nil.snoc (by decide : (0 : UInt64).toNat + 1 < 2 ^ 64) rfl
  have hcounts (s : ArchiveBatchStager) : Call.Counts s (.removeObject [1] .rotate) := trivial
  obtain ⟨haccounted, hundone⟩ := accounted_and_undone init_sample hconsistent
    (hfirst.snoc (hcounts _) rfl)
  exact ⟨_, rfl, haccounted, hundone _ _ _ _ (by decide)⟩

/-- An object that fills the disc is undone when the manifest fails, but the seal stays. And
what a manifest says after an object is done is not what its entries say. -/
theorem sealed_after_failure :
    (∃ error, (sampleStager.stageObject (sampleRequest [1] 2) .stored 2 .writeTemp).1 = .error error) ∧
      sampleStager.isSealed = false ∧
      (sampleStager.stageObject (sampleRequest [1] 2) .stored 2 .writeTemp).2.isSealed = true ∧
      (sampleStager.stageObject (sampleRequest [1] 2) .stored 2 .writeTemp).2.objectOrder = [] ∧
      ∃ stager, init (ofAscii "s") sampleOptions
          { sampleAnswers with manifest := [.header (ofAscii "batch_1") 1 true 2] } = .ok stager ∧
        stager.totalBytes.toNat ≠ bytes stager.objects :=
  ⟨⟨_, rfl⟩, rfl, rfl, rfl, _, rfl, by decide⟩

end ArchiveBatchStager

end Zb.Mds
