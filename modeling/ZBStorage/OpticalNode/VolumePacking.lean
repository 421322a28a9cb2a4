-- SUMMARY: Collecting and packing over whole runs: when every packed volume mounts and gives its files back.
import ZBStorage.Lib.CallHistory
import ZBStorage.Lib.TableFill
import ZBStorage.OpticalNode.ArchivedImages

/-!
# Volumes over runs

A run collects and packs files. Beside the manager it keeps what was given: the files that
wait, and the files of each packed volume with the image. A volume restores its files when
its head is valid, mounting it succeeds wherever it is not mounted, and each file is read
back then.
-/

namespace Zb.OpticalNode.Volumes

open Bytes CallHistory

/-! ## What was given -/

structure PackedVolume where
  volumeId : UInt64
  image : Bytes
  files : List (UInt64 × Bytes)

structure Archiving where
  manager : VolumeManager
  waiting : List (UInt64 × Bytes) := []
  volumes : List PackedVolume := []

def note (state : Archiving) : Event → Archiving
  | .accepted inodeId content => { state with waiting := state.waiting ++ [(inodeId, content)] }
  | .packed volumeId image =>
      { state with
        waiting := []
        volumes := state.volumes ++ [{ volumeId, image, files := state.waiting }] }

def answered (state : Archiving) (answer : Answer) : Archiving :=
  { answer.2.1.foldl note state with manager := answer.2.2 }

inductive ArchiveCall
  | add (call : AddCall)
  | pack (volumeId : UInt64) (env : PackEnv)

variable (zlib : Zlib) (reached : UInt64 → UInt64 → Bool)

def Archiving.serve (state : Archiving) : ArchiveCall → Archiving
  | .add call => answered state (addFileToCollect zlib reached state.manager call)
  | .pack volumeId env => answered state (packVolume state.manager volumeId env)

def Archiving.Serving (state : Archiving) (call : ArchiveCall) (state' : Archiving) : Prop :=
  state.serve zlib reached call = state'

/-- The volume gives its files back wherever it is mounted. -/
def Restores (volume : PackedVolume) : Prop :=
  (∃ head, deserializeVolumeMetadata volume.image = some head ∧
    validateVolumeMetadata head = true) ∧
  ∀ reader : VolumeManager, volume.volumeId ∉ reader.mountedVolumes →
    reader.images.lookup volume.volumeId = some volume.image →
      ∃ reader', mountVolume reader volume.volumeId = (.success, reader') ∧
        ∀ file ∈ volume.files, readFile zlib reader' file.1 = .ok file.2

/-- The entry and the compressed file of a file that waits. -/
def Stored (tempFiles : AList fun _ : UInt64 => Bytes) (metadata : FileMetadata)
    (file : UInt64 × Bytes) : Prop :=
  metadata.inodeId = file.1 ∧ ∃ compressed, tempFiles.lookup metadata.inodeId = some compressed ∧
    metadata.compressedSize.toNat = compressed.length ∧
      decompressData zlib compressed metadata.fileSize = some file.2

/-- What the claim promises of a state. -/
structure KeepsFiles (state : Archiving) : Prop where
  waiting : List.Forall₂ (Stored zlib state.manager.tempFiles) state.manager.pendingFiles
    state.waiting
  volumes : ∀ volume ∈ state.volumes,
    state.manager.packedImages.lookup volume.volumeId = some volume.image ∧ Restores zlib volume

/-! ## The condition -/

/-- The head and the records fit beside the compressed files. -/
structure Fits (volumeSize : UInt64) (files : List FileMetadata) : Prop where
  size : kVolumeMetadataSize + (files.flatMap serializeFileMetadata).length +
    (files.map (·.compressedSize.toNat)).sum ≤ volumeSize.toNat
  count : files.length < 2 ^ 32
  records : ∀ file ∈ files, (serializeFileMetadata file).length < 2 ^ 32

/-- A packing that opens its image takes a new id; when it begins to delete compressed files,
    it can read them all and the image fits. -/
def PackOk (volumes : List PackedVolume) (manager : VolumeManager) (volumeId : UInt64)
    (env : PackEnv) : Prop :=
  env.opened = true → ∀ first rest, manager.pendingFiles = first :: rest →
    env.idOf volumeId ∉ volumes.map (·.volumeId) ∧
      (env.readable first.inodeId = true →
        env.idOf volumeId ≠ 0 ∧ (∀ file ∈ rest, env.readable file.inodeId = true) ∧
          Fits manager.volumeSize manager.pendingFiles)

/-- A file whose compressed file is written does not wait already, and the packing that it
    leads to is in order. -/
def AddOk (state : Archiving) (call : AddCall) : Prop :=
  call.filePath ≠ [] → ∀ file, call.found = .regular file →
    ∀ compressed, compressData zlib file.content = some compressed →
      let metadata := collectedMetadata call file compressed
      let stored : VolumeManager :=
        { state.manager with tempFiles := state.manager.tempFiles.insert call.inodeId compressed }
      (call.tempWrite ≠ .unopened → call.inodeId ∉ state.waiting.map (·.1)) ∧
      (call.tempWrite = .written → ¬state.manager.volumeSize < metadata.compressedSize →
        (state.manager.volumeSize < state.manager.pendingSize + metadata.compressedSize →
          PackOk state.volumes stored call.volumeId call.pack) ∧
        (¬state.manager.volumeSize < state.manager.pendingSize + metadata.compressedSize →
          shouldPackVolume reached (pushPending stored metadata) = true →
            PackOk state.volumes (pushPending stored metadata) call.volumeId call.pack))

def CallOk (state : Archiving) : ArchiveCall → Prop
  | .add call => AddOk zlib reached state call
  | .pack volumeId env => PackOk state.volumes state.manager volumeId env

/-- zlib gives back what it compressed, and its outputs have a 64-bit size. -/
structure Zlib.Sound (zlib : Zlib) : Prop where
  inverts : zlib.Inverts
  small : ∀ input output, compressData zlib input = some output → output.length < 2 ^ 64

variable {zlib reached}

/-! ## The records of a packed volume -/

variable {tempFiles tempFiles' : AList fun _ : UInt64 => Bytes} {files : List FileMetadata}
  {waiting : List (UInt64 × Bytes)} {whole payload : Bytes} {volumeId volumeSize : UInt64}
  {metadata : FileMetadata} {readable : UInt64 → Bool} {manager after : VolumeManager}
  {env : PackEnv} {state : Archiving}

theorem isString_putString {text : Bytes} (h : text.length < 2 ^ 32) : IsString (putString text) := by
  refine ⟨putU32 (UInt32.ofNat text.length), text, rfl, length_putU32 _, ?_⟩
  rw [putU32, toNatLE_ofNatLE, toNat_ofNat_small h, Nat.mod_eq_of_lt (by omega)]

theorem isRecord_serialize (h : (serializeFileMetadata metadata).length < 2 ^ 32) :
    IsRecord (serializeFileMetadata metadata) := by
  rw [length_serializeFileMetadata] at h
  exact ⟨_, _, _, rfl, length_serializeFixedPart metadata, isString_putString (by omega),
    isString_putString (by omega)⟩

/-- Mounting files the records of a table one after another. -/
theorem mountRecords_serialize (h : ∀ file ∈ files, (serializeFileMetadata file).length < 2 ^ 32)
    (tail : Bytes) (cache : AList fun _ : UInt64 => FileMetadata) :
    mountRecords files.length (files.flatMap serializeFileMetadata ++ tail) cache =
      (.success, TableFill.fill (·.inodeId) some files cache) := by
  induction files generalizing cache with
  | nil => rfl
  | cons file files ih =>
      have hfile := h file List.mem_cons_self
      rw [List.length_cons, List.flatMap_cons, List.append_assoc, mountRecords,
        (isRecord_serialize hfile).reads]
      dsimp only
      rw [deserialize_serialize hfile]
      exact ih (fun other hmem => h other (List.mem_cons_of_mem _ hmem)) _

/-- A file of a mounted volume can be found at its place. -/
def Placed (zlib : Zlib) (whole : Bytes) (metadata : FileMetadata) (file : UInt64 × Bytes) : Prop :=
  metadata.inodeId = file.1 ∧
    metadata.offsetInVolume.toNat + metadata.compressedSize.toNat ≤ whole.length ∧
      decompressData zlib
        (slice whole metadata.offsetInVolume.toNat metadata.compressedSize.toNat)
        metadata.fileSize = some file.2

/-- Files that are placed where their compressed files stand are found there. -/
theorem placed_placeFiles {offset : UInt64}
    (h : List.Forall₂ (Stored zlib tempFiles) files waiting)
    (hwhole : whole.drop offset.toNat = storedPayload tempFiles files)
    (hsmall : offset.toNat + (files.map (·.compressedSize.toNat)).sum < 2 ^ 64)
    (hend : offset.toNat ≤ whole.length) :
    List.Forall₂ (Placed zlib whole) (placeFiles offset files) waiting := by
  induction h generalizing offset with
  | nil => exact .nil
  | @cons metadata file files waiting hstored hrest ih =>
      obtain ⟨hinode, compressed, hlookup, hsize, hcontent⟩ := hstored
      rw [List.map_cons, List.sum_cons] at hsmall
      rw [storedPayload, List.flatMap_cons, hlookup, Option.getD_some] at hwhole
      have hnext : (offset + metadata.compressedSize).toNat =
          offset.toNat + compressed.length := by
        rw [UInt64.toNat_add, hsize, Nat.mod_eq_of_lt (by omega)]
      have hlength : whole.length - offset.toNat =
          compressed.length + (storedPayload tempFiles files).length := by
        rw [← List.length_drop, hwhole, List.length_append]
        rfl
      refine .cons ⟨hinode, ?_, ?_⟩ (ih ?_ ?_ ?_)
      · dsimp only
        omega
      · dsimp only
        rw [slice, hwhole, hsize, List.take_left]
        exact hcontent
      · rw [hnext, ← List.drop_drop, hwhole, List.drop_left]
        rfl
      · omega
      · omega

theorem mem_placeFiles {offset : UInt64} (h : metadata ∈ placeFiles offset files) :
    ∃ file ∈ files, ∃ place, metadata = { file with offsetInVolume := place } := by
  induction files generalizing offset with
  | nil => cases h
  | cons file files ih =>
      rcases List.mem_cons.mp h with rfl | h
      · exact ⟨file, List.mem_cons_self, offset, rfl⟩
      · obtain ⟨found, hmem, place, rfl⟩ := ih h
        exact ⟨found, List.mem_cons_of_mem _ hmem, place, rfl⟩

theorem mem_packedFiles (h : metadata ∈ packedFiles volumeId files) :
    ∃ file ∈ files, ∃ place, metadata = { file with volumeId, offsetInVolume := place } := by
  obtain ⟨moved, hmem, place, rfl⟩ := mem_placeFiles h
  obtain ⟨file, hfile, rfl⟩ := List.mem_map.mp hmem
  exact ⟨file, hfile, place, rfl⟩

theorem exists_of_forall₂ {α β : Type} {R : α → β → Prop} {as : List α} {bs : List β} {b : β}
    (h : List.Forall₂ R as bs) (hmem : b ∈ bs) : ∃ a ∈ as, R a b := by
  induction h with
  | nil => cases hmem
  | cons hfirst hrest ih =>
      rcases List.mem_cons.mp hmem with rfl | hmem
      · exact ⟨_, List.mem_cons_self, hfirst⟩
      · obtain ⟨a, ha, hab⟩ := ih hmem
        exact ⟨a, List.mem_cons_of_mem _ ha, hab⟩

/-! ## A packed volume restores its files -/

/-- The image that packing writes of these files. -/
def packedImage (volumeSize volumeId : UInt64) (tempFiles : AList fun _ : UInt64 => Bytes)
    (files : List FileMetadata) : Bytes :=
  imageOf (packedHead volumeSize volumeId files) (packedFiles volumeId files)
    (storedPayload tempFiles files)

theorem Fits.toNat_metadataSize (h : Fits volumeSize files) :
    (metadataSize files).toNat = (files.flatMap serializeFileMetadata).length := by
  have hsize := h.size
  have hlt := volumeSize.toNat_lt
  have hword : UInt64.size = 2 ^ 64 := rfl
  exact UInt64.toNat_ofNat_of_lt' (by omega)

theorem Fits.toNat_start (h : Fits volumeSize files) :
    (UInt64.ofNat kVolumeMetadataSize + metadataSize files).toNat =
      kVolumeMetadataSize + (files.flatMap serializeFileMetadata).length := by
  have hsize := h.size
  have hlt := volumeSize.toNat_lt
  have hhead : (UInt64.ofNat kVolumeMetadataSize).toNat = kVolumeMetadataSize := rfl
  rw [UInt64.toNat_add, h.toNat_metadataSize, hhead, Nat.mod_eq_of_lt (by omega)]

theorem Fits.toNat_payloadSize (h : Fits volumeSize files) :
    (payloadSize files).toNat = (files.map (·.compressedSize.toNat)).sum := by
  have hsize := h.size
  have hlt := volumeSize.toNat_lt
  rw [Volumes.toNat_payloadSize, Nat.mod_eq_of_lt (by omega)]

theorem Fits.valid (h : Fits volumeSize files) (hid : volumeId ≠ 0) :
    validateVolumeMetadata (packedHead volumeSize volumeId files) = true := by
  have hsize := h.size
  have hstart : UInt64.ofNat kVolumeMetadataSize + metadataSize files ≤ volumeSize := by
    rw [UInt64.le_iff_toNat_le, h.toNat_start]
    omega
  have hroom : payloadSize files ≤
      volumeSize - (UInt64.ofNat kVolumeMetadataSize + metadataSize files) := by
    rw [UInt64.le_iff_toNat_le, UInt64.toNat_sub_of_le _ _ hstart, h.toNat_start,
      h.toNat_payloadSize]
    omega
  unfold validateVolumeMetadata packedHead
  dsimp only
  simp only [Bool.and_eq_true, decide_eq_true_eq, UInt64.add_zero]
  exact ⟨⟨⟨⟨⟨⟨⟨trivial, trivial⟩, hid⟩, Nat.le_refl _⟩, UInt64.le_refl _⟩, UInt64.le_refl _⟩, hstart⟩, hroom⟩

theorem deserialize_packedImage (volumeSize volumeId : UInt64) (files : List FileMetadata) :
    deserializeVolumeMetadata (packedImage volumeSize volumeId tempFiles files) =
      some (packedHead volumeSize volumeId files) := by
  rw [deserializeVolumeMetadata, packedImage, imageOf, reads_volumeMetadata]
  rfl

theorem length_packedImage (volumeSize volumeId : UInt64) (files : List FileMetadata) :
    (packedImage volumeSize volumeId tempFiles files).length =
      kVolumeMetadataSize + (files.flatMap serializeFileMetadata).length +
        (storedPayload tempFiles files).length := by
  rw [packedImage, imageOf, List.length_append, List.length_append,
    length_serializeVolumeMetadata, length_records_packedFiles, Nat.add_assoc]

/-- The files of a packed image are found where its records say. -/
theorem placed_packedFiles (hstored : List.Forall₂ (Stored zlib tempFiles) files waiting)
    (hfits : Fits volumeSize files) :
    List.Forall₂ (Placed zlib (packedImage volumeSize volumeId tempFiles files))
      (packedFiles volumeId files) waiting := by
  have hsize := hfits.size
  have hlt := volumeSize.toNat_lt
  have hstart := hfits.toNat_start
  have hmoved : List.Forall₂ (Stored zlib tempFiles)
      (files.map fun file => { file with volumeId }) waiting :=
    List.forall₂_map_left_iff.mpr hstored
  refine placed_placeFiles hmoved ?_ ?_ ?_
  · rw [hstart, packedImage, imageOf, ← List.drop_drop,
      List.drop_left' (length_serializeVolumeMetadata _),
      List.drop_left' (length_records_packedFiles volumeId files), storedPayload, storedPayload,
      List.flatMap_map]
  · rw [hstart, List.map_map]
    exact Nat.lt_of_le_of_lt hsize hlt
  · rw [hstart, length_packedImage]
    omega

/-- Mounting a packed image anywhere files its records. -/
theorem mountImage_packedImage (hfits : Fits volumeSize files) (hid : volumeId ≠ 0)
    {reader : VolumeManager} (hreader : volumeId ∉ reader.mountedVolumes) :
    mountImage reader (packedImage volumeSize volumeId tempFiles files) =
      (.success,
        { reader with
          fileMetadataCache := TableFill.fill (·.inodeId) some (packedFiles volumeId files)
            reader.fileMetadataCache
          mountedVolumes := reader.mountedVolumes.insert volumeId
            (packedHead volumeSize volumeId files) }) := by
  have hcount : (packedHead volumeSize volumeId files).fileCount.toNat =
      (packedFiles volumeId files).length := by
    rw [packedFiles, length_placeFiles, List.length_map]
    exact toNat_ofNat_small hfits.count
  have hrecords : ∀ file ∈ packedFiles volumeId files,
      (serializeFileMetadata file).length < 2 ^ 32 := by
    intro file hmem
    obtain ⟨pending, hpending, place, rfl⟩ := mem_packedFiles hmem
    have hlength := hfits.records pending hpending
    rw [length_serializeFileMetadata] at hlength ⊢
    exact hlength
  have htable : (packedImage volumeSize volumeId tempFiles files).drop
      (packedHead volumeSize volumeId files).metadataOffset.toNat =
        (packedFiles volumeId files).flatMap serializeFileMetadata ++
          storedPayload tempFiles files := by
    rw [packedImage, imageOf]
    exact List.drop_left' (length_serializeVolumeMetadata _)
  have hmount := mountRecords_serialize hrecords (storedPayload tempFiles files)
    reader.fileMetadataCache
  have hunmounted : (packedHead volumeSize volumeId files).volumeId ∉ reader.mountedVolumes :=
    hreader
  rw [mountImage, deserialize_packedImage]
  dsimp only
  rw [hfits.valid hid, if_neg hunmounted, hcount, htable, hmount]
  rfl

theorem mountVolume_of_lookup {image : Bytes} (h : manager.images.lookup volumeId = some image) :
    mountVolume manager volumeId = mountImage manager image := by
  rw [mountVolume, h]

theorem restores_packedImage (hstored : List.Forall₂ (Stored zlib tempFiles) files waiting)
    (hnodup : (files.map (·.inodeId)).Nodup) (hfits : Fits volumeSize files)
    (hid : volumeId ≠ 0) :
    Restores zlib
      { volumeId, image := packedImage volumeSize volumeId tempFiles files, files := waiting } := by
  refine ⟨⟨_, deserialize_packedImage volumeSize volumeId files, hfits.valid hid⟩, ?_⟩
  intro reader hreader himage
  dsimp only at hreader himage
  have hmount := @mountImage_packedImage tempFiles files volumeId volumeSize hfits hid reader hreader
  refine ⟨_, (mountVolume_of_lookup himage).trans hmount, fun file hmem => ?_⟩
  obtain ⟨record, hrecord, hinode, hend, hcontent⟩ :=
    exists_of_forall₂ (placed_packedFiles hstored hfits) hmem
  obtain ⟨pending, -, place, rfl⟩ := mem_packedFiles hrecord
  have hdistinct : ((packedFiles volumeId files).map (·.inodeId)).Nodup :=
    (map_inodeId_packedFiles volumeId files).symm ▸ hnodup
  have hlookup := @TableFill.lookup_fill _ _ _ _ (fun file : FileMetadata => file.inodeId) some _
    reader.fileMetadataCache _ hdistinct hrecord
  have hvolume := @AList.lookup_insert _ _ _ volumeId (packedHead volumeSize volumeId files)
    reader.mountedVolumes
  rw [readFile, ← hinode]
  dsimp only at hlookup hinode hend hcontent ⊢
  rw [hlookup, Option.some_or]
  dsimp only
  rw [hvolume]
  dsimp only
  rw [show reader.images.lookup (packedHead volumeSize volumeId files).volumeId = _ from himage]
  dsimp only
  rw [if_neg (by omega), hcontent]

/-! ## Packing -/

theorem lookup_writePayload {inodeId : UInt64} (h : inodeId ∉ files.map (·.inodeId)) :
    (writePayload readable files tempFiles).2.2.lookup inodeId = tempFiles.lookup inodeId := by
  induction files generalizing tempFiles with
  | nil => rfl
  | cons file files ih =>
      rw [List.map_cons, List.mem_cons, not_or] at h
      rw [writePayload]
      split
      · rfl
      · split
        · rfl
        · exact (ih h.2).trans (AList.lookup_erase_ne h.1)

theorem writePayload_all (hstored : ∀ file ∈ files, (tempFiles.lookup file.inodeId).isSome)
    (hreadable : ∀ file ∈ files, readable file.inodeId = true)
    (hnodup : (files.map (·.inodeId)).Nodup) :
    (writePayload readable files tempFiles).1 = .success ∧
      (writePayload readable files tempFiles).2.1 = storedPayload tempFiles files := by
  induction files generalizing tempFiles with
  | nil => exact ⟨rfl, rfl⟩
  | cons file files ih =>
      rw [List.map_cons, List.nodup_cons] at hnodup
      obtain ⟨content, hcontent⟩ := Option.isSome_iff_exists.mp (hstored file List.mem_cons_self)
      have hrest (other : FileMetadata) (hmem : other ∈ files) :
          ((tempFiles.erase file.inodeId).lookup other.inodeId).isSome := by
        have hne : other.inodeId ≠ file.inodeId := fun heq =>
          hnodup.1 (heq ▸ List.mem_map_of_mem hmem)
        rw [AList.lookup_erase_ne hne]
        exact hstored other (List.mem_cons_of_mem _ hmem)
      obtain ⟨hcode, hpayload⟩ := ih hrest
        (fun other hmem => hreadable other (List.mem_cons_of_mem _ hmem)) hnodup.2
      rw [writePayload, hcontent]
      dsimp only
      rw [hreadable file List.mem_cons_self]
      refine ⟨hcode, ?_⟩
      rw [storedPayload, List.flatMap_cons, hcontent]
      exact congrArg (content ++ ·) (hpayload.trans (storedPayload_erase hnodup.1))

theorem isSome_of_stored (h : List.Forall₂ (Stored zlib tempFiles) files waiting) :
    ∀ file ∈ files, (tempFiles.lookup file.inodeId).isSome := by
  induction h with
  | nil => exact nofun
  | cons hfirst _ ih =>
      obtain ⟨-, compressed, hlookup, -⟩ := hfirst
      rw [List.forall_mem_cons]
      exact ⟨Option.isSome_of_eq_some hlookup, ih⟩

/-- Nothing is deleted when the first file cannot be read. -/
theorem writePayload_unreadable {first : UInt64} {rest : List UInt64}
    (hstored : List.Forall₂ (Stored zlib tempFiles) files waiting)
    (hfirst : files.map (·.inodeId) = first :: rest) (hunreadable : readable first = false) :
    writePayload readable files tempFiles = (.ioError, [], tempFiles) := by
  cases hstored with
  | nil => cases hfirst
  | cons hhead _ =>
      obtain ⟨-, compressed, hlookup, -⟩ := hhead
      rw [List.map_cons, List.cons.injEq] at hfirst
      obtain ⟨rfl, -⟩ := hfirst
      rw [writePayload, hlookup]
      dsimp only
      rw [hunreadable]
      rfl

theorem stored_packedFiles (h : List.Forall₂ (Stored zlib tempFiles) files waiting)
    (volumeId : UInt64) :
    List.Forall₂ (Stored zlib tempFiles) (packedFiles volumeId files) waiting := by
  rw [packedFiles]
  generalize UInt64.ofNat kVolumeMetadataSize + metadataSize files = offset
  induction h generalizing offset with
  | nil => exact .nil
  | cons hfirst _ ih => exact .cons hfirst (ih _)

/-- How a packing in order ends: nothing is packed and nothing lost, or the volume restores
    the files that waited. -/
inductive PackOutcome (zlib : Zlib) (volumes : List PackedVolume) (waiting : List (UInt64 × Bytes))
    (manager : VolumeManager) : Answer → Prop
  | kept {code : ErrorCode} {after : VolumeManager} : code ≠ .success →
      List.Forall₂ (Stored zlib after.tempFiles) after.pendingFiles waiting →
      after.pendingFiles.map (·.inodeId) = manager.pendingFiles.map (·.inodeId) →
      (∀ volume ∈ volumes, after.packedImages.lookup volume.volumeId =
        manager.packedImages.lookup volume.volumeId) →
      PackOutcome zlib volumes waiting manager (code, [], after)
  | packed {volumeId : UInt64} {image : Bytes} {after : VolumeManager} :
      Restores zlib { volumeId, image, files := waiting } → after.pendingFiles = [] →
      after.packedImages.lookup volumeId = some image →
      (∀ volume ∈ volumes, after.packedImages.lookup volume.volumeId =
        manager.packedImages.lookup volume.volumeId) →
      PackOutcome zlib volumes waiting manager (.success, [.packed volumeId image], after)

theorem packVolume_outcome {volumes : List PackedVolume}
    (hstored : List.Forall₂ (Stored zlib manager.tempFiles) manager.pendingFiles waiting)
    (hnodup : (manager.pendingFiles.map (·.inodeId)).Nodup)
    (hok : PackOk volumes manager volumeId env) :
    PackOutcome zlib volumes waiting manager (packVolume manager volumeId env) := by
  unfold packVolume
  dsimp only
  split
  · exact .kept nofun hstored rfl fun _ _ => rfl
  · rename_i hpending
    split
    · exact .kept nofun (stored_packedFiles hstored _) (map_inodeId_packedFiles _ _) fun _ _ => rfl
    · rename_i hopened
      rw [Bool.not_eq_true, Bool.not_eq_false'] at hopened
      obtain ⟨first, rest, hfirst⟩ := List.exists_cons_of_ne_nil hpending
      obtain ⟨hnew, hreads⟩ := hok hopened first rest hfirst
      have hother (after : Bytes) (volume : PackedVolume) (hmem : volume ∈ volumes) :
          (manager.packedImages.insert (env.idOf volumeId) after).lookup volume.volumeId =
            manager.packedImages.lookup volume.volumeId :=
        AList.lookup_insert_ne fun heq => hnew (heq ▸ List.mem_map_of_mem hmem)
      have hinodes := map_inodeId_packedFiles (env.idOf volumeId) manager.pendingFiles
      have hmoved := stored_packedFiles hstored (env.idOf volumeId)
      by_cases hreadable : env.readable first.inodeId = true
      · obtain ⟨hid, hrest, hfits⟩ := hreads hreadable
        have hall : ∀ inodeId ∈ manager.pendingFiles.map (·.inodeId),
            env.readable inodeId = true := by
          rw [hfirst, List.map_cons, List.forall_mem_cons, List.forall_mem_map]
          exact ⟨hreadable, hrest⟩
        obtain ⟨hcode, hpayload⟩ := writePayload_all (isSome_of_stored hmoved)
          (fun file hmem => hall _ (hinodes ▸ List.mem_map_of_mem hmem)) (hinodes.symm ▸ hnodup)
        rw [storedPayload_packedFiles] at hpayload
        rw [hcode, hpayload, if_neg (not_not.mpr rfl)]
        exact .packed (restores_packedImage hstored hnodup hfits hid) rfl
          (AList.lookup_insert _) (hother _)
      · have hunread := writePayload_unreadable hmoved (hinodes.trans (congrArg _ hfirst))
          (Bool.eq_false_of_not_eq_true hreadable)
        rw [hunread, if_pos nofun]
        exact .kept nofun hmoved hinodes (hother _)

/-- What a state keeps, and that no file waits twice. -/
structure Kept (zlib : Zlib) (state : Archiving) : Prop extends KeepsFiles zlib state where
  nodup : (state.manager.pendingFiles.map (·.inodeId)).Nodup

/-- What is noted does not depend on the manager. -/
theorem foldl_note_manager (events : List Event) (state : Archiving) (manager : VolumeManager) :
    events.foldl note { state with manager } = { events.foldl note state with manager } := by
  induction events generalizing state with
  | nil => rfl
  | cons event events ih =>
      rw [List.foldl_cons, List.foldl_cons, ← ih]
      cases event <;> rfl

theorem answered_with (state : Archiving) (manager : VolumeManager) (answer : Answer) :
    answered { state with manager } answer = answered state answer := by
  rw [answered, foldl_note_manager]
  rfl

/-- The inode ids of the entries are those of the files that wait. -/
theorem map_inodeId_of_stored (h : List.Forall₂ (Stored zlib tempFiles) files waiting) :
    files.map (·.inodeId) = waiting.map (·.1) := by
  induction h with
  | nil => rfl
  | cons hfirst _ ih => rw [List.map_cons, List.map_cons, hfirst.1, ih]

/-- Only the compressed files of the pending files are deleted. -/
theorem lookup_tempFiles_packVolume {inodeId : UInt64}
    (h : inodeId ∉ manager.pendingFiles.map (·.inodeId)) :
    (packVolume manager volumeId env).2.2.tempFiles.lookup inodeId =
      manager.tempFiles.lookup inodeId := by
  unfold packVolume
  dsimp only
  split
  · rfl
  · split
    · rfl
    · rw [← map_inodeId_packedFiles (env.idOf volumeId)] at h
      have hlookup := @lookup_writePayload manager.tempFiles _ env.readable _ h
      split
      · exact hlookup
      · exact hlookup

theorem Stored.congr {file : UInt64 × Bytes} (h : Stored zlib tempFiles metadata file)
    (hlookup : tempFiles'.lookup metadata.inodeId = tempFiles.lookup metadata.inodeId) :
    Stored zlib tempFiles' metadata file := by
  obtain ⟨hinode, compressed, hstored, hcontent⟩ := h
  exact ⟨hinode, compressed, hlookup.trans hstored, hcontent⟩

/-- Another compressed file in the directory is no matter. -/
theorem stored_insert {inodeId : UInt64} {content : Bytes}
    (h : List.Forall₂ (Stored zlib tempFiles) files waiting) (hnew : inodeId ∉ waiting.map (·.1)) :
    List.Forall₂ (Stored zlib (tempFiles.insert inodeId content)) files waiting := by
  induction h with
  | nil => exact .nil
  | cons hfirst _ ih =>
      rw [List.map_cons, List.mem_cons, not_or] at hnew
      exact .cons (hfirst.congr (AList.lookup_insert_ne (hfirst.1 ▸ Ne.symm hnew.1))) (ih hnew.2)

theorem Kept.store {inodeId : UInt64} {content : Bytes} (h : Kept zlib state)
    (hnew : inodeId ∉ state.waiting.map (·.1)) :
    Kept zlib { state with
      manager := { state.manager with
        tempFiles := state.manager.tempFiles.insert inodeId content } } :=
  { waiting := stored_insert h.waiting hnew, volumes := h.volumes, nodup := h.nodup }

/-- A file whose compressed file is stored can be pushed. -/
theorem Kept.push {file : UInt64 × Bytes} (code : ErrorCode) (h : Kept zlib state)
    (hstored : Stored zlib state.manager.tempFiles metadata file)
    (hnew : file.1 ∉ state.waiting.map (·.1)) :
    Kept zlib (answered state
      (code, [.accepted file.1 file.2], pushPending state.manager metadata)) := by
  have hinodes := map_inodeId_of_stored h.waiting
  refine { waiting := ?_, volumes := h.volumes, nodup := ?_ }
  · exact List.rel_append h.waiting (.cons hstored .nil)
  · change ((state.manager.pendingFiles ++ [metadata]).map (·.inodeId)).Nodup
    rw [List.map_append, List.nodup_append]
    refine ⟨h.nodup, List.nodup_singleton _, fun inodeId hmem other hother heq => ?_⟩
    rw [hinodes] at hmem
    rw [List.map_singleton, List.mem_singleton, hstored.1] at hother
    exact hnew (hother ▸ heq ▸ hmem)

/-- A packing in order keeps what was given. -/
theorem Kept.pack (h : Kept zlib state)
    (hok : PackOk state.volumes state.manager volumeId env) :
    Kept zlib (answered state (packVolume state.manager volumeId env)) := by
  have houtcome := packVolume_outcome h.waiting h.nodup hok
  generalize packVolume state.manager volumeId env = answer at houtcome
  cases houtcome with
  | kept hcode hwaiting hinodes himages =>
      exact
        { waiting := hwaiting
          volumes := fun volume hmem =>
            ⟨(himages volume hmem).trans (h.volumes volume hmem).1, (h.volumes volume hmem).2⟩
          nodup := hinodes ▸ h.nodup }
  | @packed newId image after hrestores hpending himage himages =>
      refine { waiting := ?_, volumes := fun volume hmem => ?_, nodup := ?_ }
      · change List.Forall₂ (Stored zlib after.tempFiles) after.pendingFiles []
        rw [hpending]
        exact .nil
      · rcases List.mem_append.mp hmem with hmem | hmem
        · exact ⟨(himages volume hmem).trans (h.volumes volume hmem).1, (h.volumes volume hmem).2⟩
        · rw [List.mem_singleton.mp hmem]
          exact ⟨himage, hrestores⟩
      · change (after.pendingFiles.map (·.inodeId)).Nodup
        rw [hpending]
        exact List.nodup_nil

/-! ## Collecting -/

/-- The compressed file and the entry of a file that was compressed. -/
theorem stored_collected {call : AddCall} {file : SourceFile} {compressed : Bytes}
    (hzlib : zlib.Sound) (hcompressed : compressData zlib file.content = some compressed)
    (hlookup : tempFiles.lookup call.inodeId = some compressed) :
    Stored zlib tempFiles (collectedMetadata call file compressed)
      (call.inodeId, file.content) :=
  ⟨rfl, compressed, hlookup,
    UInt64.toNat_ofNat_of_lt' (hzlib.small _ _ hcompressed), hzlib.inverts _ _ hcompressed⟩

/-- A file that is packed apart is pushed after the packing. -/
theorem Kept.pack_push {file : UInt64 × Bytes} (h : Kept zlib state)
    (hok : PackOk state.volumes state.manager volumeId env)
    (hstored : Stored zlib state.manager.tempFiles metadata file)
    (hnew : file.1 ∉ state.waiting.map (·.1)) :
    Kept zlib (answered state
      (let (code, events, manager) := packVolume state.manager volumeId env
       if code ≠ .success then (code, events, manager)
       else (.success, events ++ [.accepted file.1 file.2], pushPending manager metadata))) := by
  have hpacked := h.pack hok
  have houtcome := packVolume_outcome h.waiting h.nodup hok
  have hfresh : metadata.inodeId ∉ state.manager.pendingFiles.map (·.inodeId) := by
    rw [map_inodeId_of_stored h.waiting, hstored.1]
    exact hnew
  have hlookup := @lookup_tempFiles_packVolume volumeId state.manager env _ hfresh
  generalize packVolume state.manager volumeId env = answer at hpacked houtcome hlookup ⊢
  cases houtcome with
  | kept hcode _ _ _ =>
      dsimp only
      rw [if_pos hcode]
      exact hpacked
  | packed _ _ _ _ =>
      dsimp only
      rw [if_neg (not_not.mpr rfl)]
      exact hpacked.push .success (hstored.congr hlookup) List.not_mem_nil

theorem Kept.collect {call : AddCall} {content : Bytes} (h : Kept zlib state)
    (hstored : Stored zlib state.manager.tempFiles metadata (call.inodeId, content))
    (hnew : call.inodeId ∉ state.waiting.map (·.1))
    (hfull : ¬state.manager.volumeSize < metadata.compressedSize →
      state.manager.volumeSize < state.manager.pendingSize + metadata.compressedSize →
        PackOk state.volumes state.manager call.volumeId call.pack)
    (hreached : ¬state.manager.volumeSize < metadata.compressedSize →
      ¬state.manager.volumeSize < state.manager.pendingSize + metadata.compressedSize →
        shouldPackVolume reached (pushPending state.manager metadata) = true →
          PackOk state.volumes (pushPending state.manager metadata) call.volumeId call.pack) :
    Kept zlib (answered state (collect reached state.manager call content metadata)) := by
  unfold Volumes.collect
  split
  · exact h
  · rename_i hfits
    split
    · rename_i hexceeds
      exact h.pack_push (hfull hfits hexceeds) hstored hnew
    · rename_i hroom
      have hpushed := h.push .success hstored hnew
      dsimp only
      split
      · rename_i hpack
        have hpacked : Kept zlib (answered
            { note state (.accepted call.inodeId content) with
              manager := pushPending state.manager metadata }
            (packVolume (pushPending state.manager metadata) call.volumeId call.pack)) :=
          hpushed.pack (hreached hfits hroom hpack)
        rw [answered_with] at hpacked
        exact hpacked
      · exact hpushed

theorem Kept.add {call : AddCall} (hzlib : zlib.Sound) (h : Kept zlib state)
    (hok : AddOk zlib reached state call) :
    Kept zlib (answered state (addFileToCollect zlib reached state.manager call)) := by
  unfold addFileToCollect
  split
  · exact h
  · rename_i hpath
    split
    · exact h
    · exact h
    · exact h
    · rename_i file hfound
      split
      · exact h
      · rename_i compressed hcompressed
        obtain ⟨hnew, hpacks⟩ := hok hpath file hfound compressed hcompressed
        split
        · exact h
        · rename_i left hwrite
          exact h.store (hnew (hwrite ▸ nofun))
        · rename_i hwrite
          have hwaits := hnew (hwrite ▸ nofun)
          have hcollected := (h.store hwaits).collect
            (stored_collected hzlib hcompressed (AList.lookup_insert _)) hwaits
            (fun hfits => (hpacks hwrite hfits).1) (fun hfits => (hpacks hwrite hfits).2)
          rw [answered_with] at hcollected
          exact hcollected

theorem Kept.serve {call : ArchiveCall} (hzlib : zlib.Sound) (h : Kept zlib state)
    (hok : CallOk zlib reached state call) : Kept zlib (state.serve zlib reached call) := by
  cases call with
  | add call => exact h.add hzlib hok
  | pack volumeId env => exact h.pack hok

/-! ## The pending size -/

def SizeOk (manager : VolumeManager) : Prop :=
  manager.pendingSize = payloadSize manager.pendingFiles

theorem payloadSize_packedFiles (volumeId : UInt64) (files : List FileMetadata) :
    payloadSize (packedFiles volumeId files) = payloadSize files := by
  rw [packedFiles]
  generalize UInt64.ofNat kVolumeMetadataSize + metadataSize files = offset
  rw [payloadSize, payloadSize]
  congr 1
  induction files generalizing offset with
  | nil => rfl
  | cons file files ih =>
      rw [List.map_cons, placeFiles, List.map_cons, List.map_cons, ih]

theorem SizeOk.pack (h : SizeOk manager) (volumeId : UInt64) (env : PackEnv) :
    SizeOk (packVolume manager volumeId env).2.2 := by
  have hmoved : manager.pendingSize =
      payloadSize (packedFiles (env.idOf volumeId) manager.pendingFiles) :=
    (payloadSize_packedFiles _ _).symm ▸ h
  unfold packVolume
  dsimp only
  split
  · exact h
  · split
    · exact hmoved
    · split
      · exact hmoved
      · rfl

theorem SizeOk.push (h : SizeOk manager) (metadata : FileMetadata) :
    SizeOk (pushPending manager metadata) := by
  change manager.pendingSize + _ = payloadSize (manager.pendingFiles ++ [metadata])
  rw [h, payloadSize, payloadSize, List.map_append, List.sum_append, List.map_singleton,
    List.sum_singleton]

theorem SizeOk.add {call : AddCall} (h : SizeOk manager) :
    SizeOk (addFileToCollect zlib reached manager call).2.2 := by
  have hcollect (tempFiles : AList fun _ : UInt64 => Bytes) (content : Bytes)
      (metadata : FileMetadata) :
      SizeOk (collect reached { manager with tempFiles } call content metadata).2.2 := by
    have hstored : SizeOk { manager with tempFiles } := h
    unfold Volumes.collect
    split
    · exact hstored
    · split
      · have hpacked := hstored.pack call.volumeId call.pack
        dsimp only
        split
        · exact hpacked
        · exact hpacked.push metadata
      · dsimp only
        split
        · exact (hstored.push metadata).pack call.volumeId call.pack
        · exact hstored.push metadata
  unfold addFileToCollect
  split
  · exact h
  · split
    · exact h
    · exact h
    · exact h
    · split
      · exact h
      · split
        · exact h
        · exact h
        · exact hcollect _ _ _

/-! ## Runs -/

section Examples

end Examples

end Zb.OpticalNode.Volumes
