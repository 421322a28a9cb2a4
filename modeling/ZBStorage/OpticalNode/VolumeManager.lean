-- SUMMARY: The volume manager: collecting compressed files, packing, mounting and reading them.
import ZBStorage.OpticalNode.VolumeFormat
import Mathlib.Data.List.AList
import Mathlib.Data.List.DropRight

/-!
# The volume manager

Mirrors `volume_manager/volume_manager.cpp`. A compressed file waits in the temporary
directory under its inode id until its volume is packed. Packing decides by the sizes of
the compressed files alone; the head and the records come on top.
-/

namespace Zb.OpticalNode.Volumes

open Bytes

/-! ## Compression -/

/-- The two calls of zlib, which fail as `none`. -/
structure Zlib where
  compress2 : Bytes → Option Bytes
  uncompress : Bytes → Nat → Option Bytes

def compressData (zlib : Zlib) (input : Bytes) : Option Bytes :=
  if input = [] then some [] else zlib.compress2 input

def decompressData (zlib : Zlib) (input : Bytes) (originalSize : UInt64) : Option Bytes :=
  if input = [] then some []
  else
    match zlib.uncompress input originalSize.toNat with
    | none => none
    | some output => if output.length = originalSize.toNat then some output else none

def Zlib.Inverts (zlib : Zlib) : Prop :=
  ∀ input output, compressData zlib input = some output →
    decompressData zlib output (UInt64.ofNat input.length) = some input

/-- `.compressed` -/
def kCompressedSuffix : Bytes := ofAscii ".compressed"

def getCompressedFileName (originalName : Bytes) : Bytes := originalName ++ kCompressedSuffix

/-- What stands behind the last slash or backslash. -/
def getFileName (path : Bytes) : Bytes := path.rtakeWhile fun b => b ≠ 47 && b ≠ 92

/-! ## The manager -/

/-- The files of the temporary directory are the compressed files under their inode ids and
    the packed images under their volume ids; the images to mount stand in a directory of
    their own. -/
structure VolumeManager where
  tempFiles : AList fun _ : UInt64 => Bytes := ∅
  packedImages : AList fun _ : UInt64 => Bytes := ∅
  images : AList fun _ : UInt64 => Bytes := ∅
  mountedVolumes : AList fun _ : UInt64 => VolumeMetadata := ∅
  fileMetadataCache : AList fun _ : UInt64 => FileMetadata := ∅
  pendingFiles : List FileMetadata := []
  pendingSize : UInt64 := 0
  volumeSize : UInt64

/-- What a call makes of the files it was given, in order. -/
inductive Event
  | accepted (inodeId : UInt64) (content : Bytes)
  | packed (volumeId : UInt64) (image : Bytes)
  deriving DecidableEq

abbrev Answer := ErrorCode × List Event × VolumeManager

/-- What the file system and the generator of ids answer while a volume is packed. -/
structure PackEnv where
  generatedId : UInt64
  opened : Bool := true
  readable : UInt64 → Bool := fun _ => true

/-- The files behind one another from the offset on, with offsets that may wrap. -/
def placeFiles : UInt64 → List FileMetadata → List FileMetadata
  | _, [] => []
  | offset, file :: files =>
      { file with offsetInVolume := offset } :: placeFiles (offset + file.compressedSize) files

def metadataSize (files : List FileMetadata) : UInt64 :=
  UInt64.ofNat (files.flatMap serializeFileMetadata).length

def payloadSize (files : List FileMetadata) : UInt64 := (files.map (·.compressedSize)).sum

def packedHead (volumeSize volumeId : UInt64) (files : List FileMetadata) : VolumeMetadata :=
  let directoryOffset := UInt64.ofNat kVolumeMetadataSize + metadataSize files
  { volumeId, volumeSize
    metadataOffset := UInt64.ofNat kVolumeMetadataSize
    metadataSize := metadataSize files
    directoryOffset, directorySize := 0
    userDataOffset := directoryOffset
    userDataSize := payloadSize files
    fileCount := UInt32.ofNat files.length }

/-- The records as they are packed. -/
def packedFiles (volumeId : UInt64) (files : List FileMetadata) : List FileMetadata :=
  placeFiles (UInt64.ofNat kVolumeMetadataSize + metadataSize files)
    (files.map ({ · with volumeId }))

def updateCached (cache : AList fun _ : UInt64 => FileMetadata) (file : FileMetadata) :
    AList fun _ : UInt64 => FileMetadata :=
  match cache.lookup file.inodeId with
  | none => cache
  | some cached =>
      cache.insert file.inodeId
        { cached with volumeId := file.volumeId, offsetInVolume := file.offsetInVolume }

/-- Appends the compressed files and deletes each one that is appended. -/
def writePayload (readable : UInt64 → Bool) :
    List FileMetadata → (AList fun _ : UInt64 => Bytes) →
      ErrorCode × Bytes × AList fun _ : UInt64 => Bytes
  | [], tempFiles => (.success, [], tempFiles)
  | file :: files, tempFiles =>
      match tempFiles.lookup file.inodeId with
      | none => (.fileNotFound, [], tempFiles)
      | some content =>
          if !readable file.inodeId then (.ioError, [], tempFiles)
          else
            let (code, payload, tempFiles) :=
              writePayload readable files (tempFiles.erase file.inodeId)
            (code, content ++ payload, tempFiles)

/-- The id of a volume that is packed. -/
def PackEnv.idOf (env : PackEnv) (volumeId : UInt64) : UInt64 :=
  if volumeId ≠ 0 then volumeId else env.generatedId

def imageOf (head : VolumeMetadata) (files : List FileMetadata) (payload : Bytes) : Bytes :=
  serializeVolumeMetadata head ++ (files.flatMap serializeFileMetadata ++ payload)

/-- The packed volume counts as mounted. When a compressed file cannot be read, those before
    it are deleted already. -/
def packVolume (manager : VolumeManager) (volumeId : UInt64) (env : PackEnv) : Answer :=
  if manager.pendingFiles = [] then (.invalidParameter, [], manager)
  else
    let volumeId := env.idOf volumeId
    let head := packedHead manager.volumeSize volumeId manager.pendingFiles
    let files := packedFiles volumeId manager.pendingFiles
    let manager := { manager with pendingFiles := files }
    if !env.opened then (.ioError, [], manager)
    else
      let manager := { manager with
        fileMetadataCache := files.foldl updateCached manager.fileMetadataCache }
      let (code, payload, tempFiles) := writePayload env.readable files manager.tempFiles
      let image := imageOf head files payload
      let manager := { manager with
        tempFiles, packedImages := manager.packedImages.insert volumeId image }
      if code ≠ .success then (code, [], manager)
      else
        (.success, [.packed volumeId image],
          { manager with
            mountedVolumes := manager.mountedVolumes.insert volumeId head
            pendingFiles := []
            pendingSize := 0 })

structure SourceFile where
  content : Bytes
  fileMode : UInt32
  lastModified : UInt64

inductive Found
  | missing
  | directory
  | unreadable
  | regular (file : SourceFile)

/-- How writing a compressed file ends: done, before the file is opened, or with another
    content. -/
inductive TempWrite
  | written
  | unopened
  | torn (left : Bytes)

structure AddCall where
  filePath : Bytes
  inodeId : UInt64
  volumeId : UInt64
  found : Found
  tempWrite : TempWrite := .written
  pack : PackEnv

variable (zlib : Zlib) (reached : UInt64 → UInt64 → Bool)

/-- `reached` compares the share of the second number that the first one is with the
    threshold. -/
def shouldPackVolume (manager : VolumeManager) : Bool :=
  manager.pendingFiles ≠ [] && reached manager.pendingSize manager.volumeSize

def collectedMetadata (call : AddCall) (file : SourceFile) (compressed : Bytes) : FileMetadata where
  inodeId := call.inodeId
  fileSize := UInt64.ofNat file.content.length
  compressedSize := UInt64.ofNat compressed.length
  volumeId := call.volumeId
  fileName := getFileName call.filePath
  compressedFileName := getCompressedFileName (getFileName call.filePath)
  fileMode := file.fileMode
  lastModified := file.lastModified
  isCompressed := true

def pushPending (manager : VolumeManager) (metadata : FileMetadata) : VolumeManager :=
  { manager with
    pendingFiles := manager.pendingFiles ++ [metadata]
    pendingSize := manager.pendingSize + metadata.compressedSize
    fileMetadataCache := manager.fileMetadataCache.insert metadata.inodeId metadata }

/-- What follows once the compressed file is in the temporary directory. -/
def collect (manager : VolumeManager) (call : AddCall) (content : Bytes) (metadata : FileMetadata) :
    Answer :=
  if manager.volumeSize < metadata.compressedSize then (.volumeFull, [], manager)
  else if manager.volumeSize < manager.pendingSize + metadata.compressedSize then
    let (code, events, manager) := packVolume manager call.volumeId call.pack
    if code ≠ .success then (code, events, manager)
    else
      (.success, events ++ [.accepted call.inodeId content], pushPending manager metadata)
  else
    let manager := pushPending manager metadata
    if shouldPackVolume reached manager then
      let (code, events, manager) := packVolume manager call.volumeId call.pack
      (code, .accepted call.inodeId content :: events, manager)
    else (.success, [.accepted call.inodeId content], manager)

/-- The compressed file is written before the size is checked, over another one of the same
    inode id. -/
def addFileToCollect (manager : VolumeManager) (call : AddCall) : Answer :=
  if call.filePath = [] then (.invalidPath, [], manager)
  else
    match call.found with
    | .missing => (.fileNotFound, [], manager)
    | .directory => (.invalidPath, [], manager)
    | .unreadable => (.ioError, [], manager)
    | .regular file =>
        match compressData zlib file.content with
        | none => (.serializationError, [], manager)
        | some compressed =>
            match call.tempWrite with
            | .unopened => (.ioError, [], manager)
            | .torn left =>
                (.ioError, [],
                  { manager with tempFiles := manager.tempFiles.insert call.inodeId left })
            | .written =>
                collect reached
                  { manager with tempFiles := manager.tempFiles.insert call.inodeId compressed }
                  call file.content (collectedMetadata call file compressed)

/-! ## Mounted volumes -/

/-- The bytes of the next record: a fixed part, and twice a length and as many bytes. -/
def nextRecord : Reader Bytes := do
  let fixed ← readRaw kFileMetadataFixedSize
  let length1 ← readRaw 4
  let fileName ← readRaw (toNatLE length1)
  let length2 ← readRaw 4
  let compressedFileName ← readRaw (toNatLE length2)
  return fixed ++ (length1 ++ (fileName ++ (length2 ++ compressedFileName)))

/-- The records that were read before a bad one stay in the table. A record of these parts is
    not read past its end. -/
def mountRecords : Nat → Bytes → (AList fun _ : UInt64 => FileMetadata) →
    ErrorCode × AList fun _ : UInt64 => FileMetadata
  | 0, _, cache => (.success, cache)
  | count + 1, file, cache =>
      match nextRecord file with
      | none => (.invalidVolumeFormat, cache)
      | some (record, file) =>
          match deserializeFileMetadata record with
          | .refused | .beyond => (.serializationError, cache)
          | .read metadata _ => mountRecords count file (cache.insert metadata.inodeId metadata)

def mountImage (manager : VolumeManager) (image : Bytes) : ErrorCode × VolumeManager :=
  match deserializeVolumeMetadata image with
  | none => (.invalidVolumeFormat, manager)
  | some metadata =>
      if !validateVolumeMetadata metadata then (.invalidVolumeFormat, manager)
      else if metadata.volumeId ∈ manager.mountedVolumes then (.invalidVolumeId, manager)
      else
        let (code, fileMetadataCache) := mountRecords metadata.fileCount.toNat
          (image.drop metadata.metadataOffset.toNat) manager.fileMetadataCache
        let manager := { manager with fileMetadataCache }
        if code ≠ .success then (code, manager)
        else
          (.success,
            { manager with
              mountedVolumes := manager.mountedVolumes.insert metadata.volumeId metadata })

/-- The name of the image is made of the decimal numeral of the id. -/
def mountVolume (manager : VolumeManager) (volumeId : UInt64) : ErrorCode × VolumeManager :=
  match manager.images.lookup volumeId with
  | none => (.fileNotFound, manager)
  | some image => mountImage manager image

def readFile (manager : VolumeManager) (inodeId : UInt64) : Except ErrorCode Bytes :=
  match manager.fileMetadataCache.lookup inodeId with
  | none => .error .inodeNotFound
  | some metadata =>
      match manager.mountedVolumes.lookup metadata.volumeId with
      | none => .error .volumeNotFound
      | some volume =>
          match manager.images.lookup volume.volumeId with
          | none => .error .ioError
          | some image =>
              let size := metadata.compressedSize.toNat
              if 0 < size ∧ image.length < metadata.offsetInVolume.toNat + size then .error .ioError
              else
                let content := slice image metadata.offsetInVolume.toNat size
                match decompressData zlib content metadata.fileSize with
                | none => .error .serializationError
                | some content => .ok content

/-! ## What packing does -/

variable {manager after : VolumeManager} {volumeId : UInt64} {env : PackEnv}
  {events : List Event} {readable : UInt64 → Bool} {files : List FileMetadata}
  {tempFiles tempFiles' : AList fun _ : UInt64 => Bytes} {payload : Bytes}

/-- The compressed files of the pending files, as they stand in the temporary directory. -/
def storedPayload (tempFiles : AList fun _ : UInt64 => Bytes) (files : List FileMetadata) : Bytes :=
  files.flatMap fun file => (tempFiles.lookup file.inodeId).getD []

theorem packVolume_success (h : packVolume manager volumeId env = (.success, events, after)) :
    ∃ payload tempFiles,
      manager.pendingFiles ≠ [] ∧
      writePayload env.readable (packedFiles (env.idOf volumeId) manager.pendingFiles)
        manager.tempFiles = (.success, payload, tempFiles) ∧
      events = [.packed (env.idOf volumeId)
        (imageOf (packedHead manager.volumeSize (env.idOf volumeId) manager.pendingFiles)
          (packedFiles (env.idOf volumeId) manager.pendingFiles) payload)] ∧
      after.tempFiles = tempFiles ∧ after.pendingFiles = [] ∧ after.pendingSize = 0 ∧
      after.volumeSize = manager.volumeSize ∧
      after.packedImages = manager.packedImages.insert (env.idOf volumeId)
        (imageOf (packedHead manager.volumeSize (env.idOf volumeId) manager.pendingFiles)
          (packedFiles (env.idOf volumeId) manager.pendingFiles) payload) := by
  unfold packVolume at h
  dsimp only at h
  split at h
  · cases h
  · rename_i hpending
    split at h
    · cases h
    · generalize hpayload : writePayload env.readable
        (packedFiles (env.idOf volumeId) manager.pendingFiles) manager.tempFiles = result at h
      obtain ⟨code, payload, tempFiles⟩ := result
      dsimp only at h
      split at h
      · rename_i hcode
        cases h
        exact absurd rfl hcode
      · rename_i hcode
        rw [not_not] at hcode
        subst hcode
        cases h
        exact ⟨payload, tempFiles, hpending, rfl, rfl, rfl, rfl, rfl, rfl, rfl⟩

theorem writePayload_cons {file : FileMetadata}
    (h : writePayload readable (file :: files) tempFiles = (.success, payload, tempFiles')) :
    ∃ content later, tempFiles.lookup file.inodeId = some content ∧
      writePayload readable files (tempFiles.erase file.inodeId) = (.success, later, tempFiles') ∧
        payload = content ++ later := by
  rw [writePayload] at h
  split at h
  · cases h
  · rename_i content hcontent
    split at h
    · cases h
    · generalize hlater : writePayload readable files (tempFiles.erase file.inodeId) = result at h
      obtain ⟨code, later, remaining⟩ := result
      cases h
      exact ⟨content, later, hcontent, rfl, rfl⟩

theorem storedPayload_erase {inodeId : UInt64} (h : inodeId ∉ files.map (·.inodeId)) :
    storedPayload (tempFiles.erase inodeId) files = storedPayload tempFiles files := by
  induction files with
  | nil => rfl
  | cons file files ih =>
      rw [List.map_cons, List.mem_cons, not_or] at h
      have hlookup := @AList.lookup_erase_ne _ _ _ _ _ tempFiles (Ne.symm h.1)
      simp only [storedPayload, List.flatMap_cons, hlookup] at ih ⊢
      rw [ih h.2]

/-- The payload of a packed volume is what stood in the temporary directory. -/
theorem payload_of_success (hnodup : (files.map (·.inodeId)).Nodup)
    (h : writePayload readable files tempFiles = (.success, payload, tempFiles')) :
    payload = storedPayload tempFiles files := by
  induction files generalizing tempFiles payload with
  | nil =>
      cases h
      rfl
  | cons file files ih =>
      rw [List.map_cons, List.nodup_cons] at hnodup
      obtain ⟨content, later, hcontent, hlater, rfl⟩ := writePayload_cons h
      rw [ih hnodup.2 hlater, storedPayload_erase hnodup.1, storedPayload, storedPayload,
        List.flatMap_cons, hcontent]
      rfl

@[simp] theorem length_placeFiles (offset : UInt64) (files : List FileMetadata) :
    (placeFiles offset files).length = files.length := by
  induction files generalizing offset with
  | nil => rfl
  | cons file files ih => simp [placeFiles, ih]

theorem map_inodeId_placeFiles (offset : UInt64) (files : List FileMetadata) :
    (placeFiles offset files).map (·.inodeId) = files.map (·.inodeId) := by
  induction files generalizing offset with
  | nil => rfl
  | cons file files ih => simp [placeFiles, ih]

theorem map_inodeId_packedFiles (volumeId : UInt64) (files : List FileMetadata) :
    (packedFiles volumeId files).map (·.inodeId) = files.map (·.inodeId) := by
  simp [packedFiles, map_inodeId_placeFiles]

/-- The length of a record does not depend on the volume and the offset. -/
theorem length_records_packedFiles (volumeId : UInt64) (files : List FileMetadata) :
    ((packedFiles volumeId files).flatMap serializeFileMetadata).length =
      (files.flatMap serializeFileMetadata).length := by
  rw [packedFiles]
  generalize UInt64.ofNat kVolumeMetadataSize + metadataSize files = offset
  induction files generalizing offset with
  | nil => rfl
  | cons file files ih =>
      simp only [List.map_cons, placeFiles, List.flatMap_cons, List.length_append,
        length_serializeFileMetadata, ih]

theorem storedPayload_packedFiles (volumeId : UInt64) (files : List FileMetadata) :
    storedPayload tempFiles (packedFiles volumeId files) = storedPayload tempFiles files := by
  rw [packedFiles]
  generalize UInt64.ofNat kVolumeMetadataSize + metadataSize files = offset
  induction files generalizing offset with
  | nil => rfl
  | cons file files ih =>
      simp only [storedPayload, List.map_cons, placeFiles, List.flatMap_cons] at ih ⊢
      rw [ih]

end Zb.OpticalNode.Volumes
