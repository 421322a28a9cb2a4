-- SUMMARY: Images on their way to the discs: packed, listed, sealed, burned and indexed, with shutdowns and restarts.
import ZBStorage.OpticalNode.DiscIndex
import ZBStorage.OpticalNode.SpaceManager

/-!
# Packing discs

The part of `OpticalNodeManager` that takes an image from `temp/` to a disc, and its
recovery after a restart. A directory is a table from the ids in the names of its files
to what the files hold, and the metadata of a disc is its list of records. The ids are
issued by the node itself. A crash inside an operation leaves the files as the operation
does that fails at the same place, so a crash is a call of its own between the others.
-/

namespace Zb.OpticalNode

open Bytes CallHistory

/-! ## The node -/

structure NodeConfig where
  capacityInImages : Nat
  availableIdCount : Nat
  discCapacityBytes : Nat
  standardImagesPerDisc : Nat
  discBlockSizeBytes : Nat
  imageDir : Bytes

/-- What `runtime_state_snapshot` says about images and discs. -/
structure Snapshot where
  nextVolumeId : UInt64
  nextDiskId : UInt64
  availableVolumeIds : List UInt64
  availableDiskIds : List UInt64
  burnTasks : List UInt64
  images : List ImageEntry
  deriving DecidableEq

/-- The files, and the memory of the process that runs or ran last. `burnTasks` are the
    discs of the `DISC_BURN` tasks that have not come to an end. -/
structure NodeState where
  temp : AList (fun _ : UInt64 => Bytes) := ∅
  space : SpaceManager := {}
  pendingDiscMeta : Option (List DiscImageEntry) := none
  discMeta : AList (fun _ : UInt64 => List DiscImageEntry) := ∅
  vdisc : AList (fun _ : Bytes => Bytes) := ∅
  snapshot : Option Snapshot := none
  index : DiscIndexState := {}
  running : Bool := false
  pendingDiscEntries : List DiscImageEntry := []
  nextVolumeId : UInt64 := 1
  nextDiskId : UInt64 := 1
  availableVolumeIds : List UInt64 := []
  availableDiskIds : List UInt64 := []
  burnTasks : List UInt64 := []

/-! ## Ids -/

/-- Takes so many ids from the counter to the pool; the counter's zero ends the loop. -/
def ensureAvailable : Nat → UInt64 → List UInt64 → UInt64 × List UInt64
  | 0, next, pool => (next, pool)
  | missing + 1, next, pool =>
      if next = 0 then (next + 1, pool) else ensureAvailable missing (next + 1) (pool ++ [next])

def NodeState.ensureAvailableVolumeIds (config : NodeConfig) (state : NodeState) : NodeState :=
  let filled := ensureAvailable (config.availableIdCount - state.availableVolumeIds.length)
    state.nextVolumeId state.availableVolumeIds
  { state with nextVolumeId := filled.1, availableVolumeIds := filled.2 }

def NodeState.ensureAvailableDiskIds (config : NodeConfig) (state : NodeState) : NodeState :=
  let filled := ensureAvailable (config.availableIdCount - state.availableDiskIds.length)
    state.nextDiskId state.availableDiskIds
  { state with nextDiskId := filled.1, availableDiskIds := filled.2 }

/-! ## The layout of a disc -/

def discSuperblockSize : Nat := 4096
def discMetaHeaderSize : Nat := 32
def discMetaMagic : UInt32 := 0x5A42444D
def discSuperblockMagic : UInt32 := 0x5A424443
def discChecksumSha256 : UInt32 := 1
def discPathPrefixCapacity : Nat := 256

def alignUp (value alignment : Nat) : Nat :=
  if alignment = 0 then value
  else if value % alignment = 0 then value
  else value + (alignment - value % alignment)

def metadataAreaBytes (config : NodeConfig) (entryCount : Nat) : Nat :=
  alignUp (discMetaHeaderSize +
    max entryCount config.standardImagesPerDisc * discImageRecordSize.toNat)
    config.discBlockSizeBytes

def dataOffset (config : NodeConfig) (entryCount : Nat) : Nat :=
  alignUp discSuperblockSize config.discBlockSizeBytes + metadataAreaBytes config entryCount

/-- The loop of `FillDiscLayout`. -/
def placeEntries (block : Nat) : Nat → List DiscImageEntry → List DiscImageEntry × Nat
  | cursor, [] => ([], cursor)
  | cursor, entry :: entries =>
      let aligned := alignUp entry.imageSizeBytes.toNat block
      let rest := placeEntries block (cursor + aligned) entries
      ({ entry with
          alignedSizeBytes := UInt64.ofNat aligned
          offsetInDisc := UInt64.ofNat cursor } :: rest.1, rest.2)

/-- The records with their places, and the bytes of the disc. -/
def fillDiscLayout (config : NodeConfig) (entries : List DiscImageEntry) :
    List DiscImageEntry × Nat :=
  placeEntries config.discBlockSizeBytes (dataOffset config entries.length) entries

def metaArea (entries : List DiscImageEntry) : Bytes :=
  layout (List.replicate discMetaHeaderSize 0)
    [.u32 0 discMetaMagic, .u32 4 discFormatVersion, .u32 8 discImageRecordSize,
      .u32 12 (UInt32.ofNat entries.length)] ++
    (entries.map DiscImageEntry.serialize).flatten

def superblock (config : NodeConfig) (discId : UInt64) (createdAtMs : UInt64) (imageCount : Nat) :
    Bytes :=
  layout (List.replicate discSuperblockSize 0)
    [.u32 0 discSuperblockMagic, .u32 4 discFormatVersion, .u64 8 discId,
      .u64 16 (UInt64.ofNat config.discCapacityBytes), .u64 24 createdAtMs,
      .u32 32 (UInt32.ofNat config.discBlockSizeBytes), .u32 36 discChecksumSha256,
      .u64 40 (UInt64.ofNat imageCount),
      .u64 48 (UInt64.ofNat (alignUp discSuperblockSize config.discBlockSizeBytes)),
      .u64 56 (UInt64.ofNat (metadataAreaBytes config imageCount)),
      .u64 64 (UInt64.ofNat (dataOffset config imageCount)),
      ⟨72, discPathPrefixCapacity, config.imageDir.take (discPathPrefixCapacity - 1)⟩]

/-- The bytes with zeros up to a size. -/
def padTo (size : Nat) (bytes : Bytes) : Bytes :=
  bytes ++ List.replicate (size - bytes.length) 0

/-- The superblock and the metadata area. -/
def discHead (config : NodeConfig) (discId createdAtMs : UInt64) (entries : List DiscImageEntry) :
    Bytes :=
  padTo (alignUp discSuperblockSize config.discBlockSizeBytes)
      (superblock config discId createdAtMs entries.length) ++
    padTo (metadataAreaBytes config entries.length) (metaArea entries)

/-! ## Sealing a disc -/

/-- `SealPendingDiscAndSubmitBurn`. An empty pool falls back on the counter. -/
def NodeState.sealPendingDisc (config : NodeConfig) (state : NodeState) (renamed : Bool) :
    Bool × NodeState :=
  if state.pendingDiscEntries.isEmpty then (true, state)
  else
    let state := state.ensureAvailableDiskIds config
    let discId := state.availableDiskIds.headD state.nextDiskId
    let state := if state.availableDiskIds.isEmpty then
      { state with nextDiskId := state.nextDiskId + 1 } else state
    if discId = 0 then (false, state)
    else
      match state.pendingDiscMeta with
      | none => (false, state)
      | some entries =>
          if !renamed then (false, state)
          else
            (true,
              { state with
                pendingDiscMeta := none
                discMeta := state.discMeta.insert discId entries
                availableDiskIds := state.availableDiskIds.tail
                burnTasks := state.burnTasks ++ [discId]
                pendingDiscEntries := [] })

/-- What `AccumulatePackedImage` meets: the digest of the image or none, the rename of a
    seal, and whether the list can be written. -/
structure ListFaults where
  digest : Option Bytes := some []
  sealRenamed : Bool := true
  persisted : Bool := true

def NodeState.persistPendingDiscMeta (state : NodeState) (persisted : Bool) : Bool × NodeState :=
  if persisted then (true, { state with pendingDiscMeta := some state.pendingDiscEntries })
  else (false, state)

/-- The record of an image, without its place. -/
def imageRecord (volumeId : UInt64) (bytes digest : Bytes) : DiscImageEntry where
  volumeId := volumeId
  imageSizeBytes := UInt64.ofNat bytes.length
  sha256Hex := digest

/-- The seal of the list that has no room for one more record. -/
def NodeState.sealIfFull (config : NodeConfig) (state : NodeState) (entry : DiscImageEntry)
    (renamed : Bool) : Bool × NodeState :=
  if !state.pendingDiscEntries.isEmpty ∧
      (fillDiscLayout config (state.pendingDiscEntries ++ [entry])).2 > config.discCapacityBytes then
    state.sealPendingDisc config renamed
  else (true, state)

def NodeState.accumulatePackedImage (config : NodeConfig) (state : NodeState) (volumeId : UInt64)
    (faults : ListFaults) : Bool × NodeState :=
  match state.space.imageDir.lookup volumeId, faults.digest with
  | some bytes, some digest =>
      if bytes.isEmpty then (false, state)
      else
        let entry := imageRecord volumeId bytes digest
        match state.sealIfFull config entry faults.sealRenamed with
        | (false, state) => (false, state)
        | (true, state) =>
            { state with
              pendingDiscEntries :=
                (fillDiscLayout config (state.pendingDiscEntries ++ [entry])).1
            }.persistPendingDiscMeta faults.persisted
  | _, _ => (false, state)

/-! ## Packing an image -/

/-- What packing comes to: no image, one that is whole, or one that is cut short by an
    error after its file has been opened. -/
inductive Pack
  | nothing
  | whole (bytes : Bytes)
  | broken (bytes : Bytes)

/-- The file that packing leaves in `temp/`. -/
def Pack.file? : Pack → Option Bytes
  | .nothing => none
  | .whole bytes => some bytes
  | .broken bytes => some bytes

def NodeState.pack (state : NodeState) (volumeId : UInt64) (pack : Pack) : NodeState :=
  match pack.file? with
  | none => state
  | some bytes => { state with temp := state.temp.insert volumeId bytes }

/-- The image of `temp/` that a scan finds first, as `found` says if it is there. -/
def NodeState.scanTemp (state : NodeState) (found : UInt64) : Option UInt64 :=
  if found ∈ state.temp then some found else state.temp.keys.head?

/-- `MoveFrom` as a write image and then `AccumulatePackedImage`. -/
def NodeState.stage (config : NodeConfig) (state : NodeState) (volumeId : UInt64)
    (move : MoveFaults) (list : ListFaults) : Bool × NodeState :=
  match state.temp.lookup volumeId with
  | none => (false, state)
  | some bytes =>
      match state.space.moveFrom config.capacityInImages volumeId bytes .write move with
      | (.success, space) =>
          { state with
            temp := state.temp.erase volumeId
            space := space }.accumulatePackedImage config volumeId list
      | (_, space) => (false, { state with space := space })

/-- The write task of `ZipTaskProcessor`, from the choice of its volume id. `collected`
    tells whether `AddFileToCollect` succeeds when it packs nothing. -/
def NodeState.writeTask (config : NodeConfig) (state : NodeState) (pack : Pack) (collected : Bool)
    (found : UInt64) (move : MoveFaults) (list : ListFaults) : NodeState :=
  let state := state.ensureAvailableVolumeIds config
  match state.availableVolumeIds with
  | [] => state
  | volumeId :: _ =>
      let state := state.pack volumeId pack
      match pack, collected with
      | .broken _, _ => state
      | .nothing, false => state
      | _, _ =>
          match state.scanTemp found with
          | none => state
          | some packed =>
              ({ state with
                availableVolumeIds := state.availableVolumeIds.tail
              }.stage config packed move list).2

/-- `FlushArchiveTail`, with no pack at all if no files wait for one. -/
def NodeState.flushArchiveTail (config : NodeConfig) (state : NodeState) (pack : Option Pack)
    (move : MoveFaults) (list : ListFaults) (sealRenamed : Bool) : NodeState :=
  match pack with
  | none => (state.sealPendingDisc config sealRenamed).2
  | some pack =>
      let state := state.ensureAvailableVolumeIds config
      match state.availableVolumeIds with
      | [] => state
      | volumeId :: _ =>
          let state := state.pack volumeId pack
          match pack with
          | .whole _ =>
              match { state with
                  availableVolumeIds := state.availableVolumeIds.tail
                }.stage config volumeId move list with
              | (false, state) => state
              | (true, state) => (state.sealPendingDisc config sealRenamed).2
          | _ => state

/-! ## Burning -/

/-- Whether an image can be copied to the disc, and unlinked after that. -/
structure ImageFaults where
  copied : Bool := true
  unlinked : Bool := true

/-- What the completion of a burn meets. -/
structure BurnFaults where
  createdAtMs : UInt64 := 0
  metaRead : Bool := true
  headWritten : Bool := true
  image : UInt64 → ImageFaults := fun _ => {}
  synced : Bool := true
  renamed : Bool := true
  append : AppendOutcome := .done
  metaUnlinked : Bool := true

/-- The loop of `WriteVdiscAndReleaseImages`: every image is released once it stands in
    the temporary file. -/
def copyImages (image : UInt64 → ImageFaults) : List DiscImageEntry → SpaceManager → Bytes →
    Option Bytes × SpaceManager
  | [], space, data => (some data, space)
  | entry :: entries, space, data =>
      match space.imageDir.lookup entry.volumeId with
      | none => (none, space)
      | some bytes =>
          if !(image entry.volumeId).copied ∨ bytes.length ≠ entry.imageSizeBytes.toNat ∨
              entry.alignedSizeBytes < entry.imageSizeBytes then (none, space)
          else
            copyImages image entries
              (space.removeWriteImage entry.volumeId (image entry.volumeId).unlinked).2
              (data ++ padTo entry.alignedSizeBytes.toNat bytes)

/-- The disc, if it comes to the rename, and the staging area. -/
def writeVdiscAndReleaseImages (config : NodeConfig) (space : SpaceManager) (discId : UInt64)
    (entries : List DiscImageEntry) (faults : BurnFaults) : Option Bytes × SpaceManager :=
  if !faults.headWritten then (none, space)
  else
    match copyImages faults.image entries space
        (discHead config discId faults.createdAtMs entries) with
    | (none, space) => (none, space)
    | (some data, space) =>
        if faults.synced && faults.renamed then (some data, space) else (none, space)

def diskId (discId : UInt64) : Bytes := decimal discId.toNat

/-- `IndexBurnedDisc`, and the metadata is unlinked. -/
def NodeState.indexAndUnlink (state : NodeState) (discId : UInt64) (entries : List DiscImageEntry)
    (append : AppendOutcome) (metaUnlinked : Bool) : Bool × NodeState :=
  match state.index.indexBurnedDisc discId (diskId discId) entries append with
  | (false, index) => (false, { state with index := index })
  | (true, index) =>
      if metaUnlinked then
        (true, { state with index := index, discMeta := state.discMeta.erase discId })
      else (false, { state with index := index })

/-- `OnCDBurnComplete` for the task of a disc. -/
def NodeState.onCDBurnComplete (config : NodeConfig) (state : NodeState) (discId : UInt64)
    (faults : BurnFaults) : NodeState :=
  if discId ∉ state.burnTasks then state
  else
    let state := { state with burnTasks := state.burnTasks.erase discId }
    match state.discMeta.lookup discId, faults.metaRead with
    | some entries, true =>
        match writeVdiscAndReleaseImages config state.space discId entries faults with
        | (none, space) => { state with space := space }
        | (some data, space) =>
            ({ state with
              space := space
              vdisc := state.vdisc.insert (diskId discId) data
            }.indexAndUnlink discId entries faults.append faults.metaUnlinked).2
    | _, _ => state

/-- `ExtractRangeFromDisc`. -/
def extractRangeFromDisc (disc : Bytes) (offset size : UInt64) : Option Bytes :=
  if size = 0 then none
  -- where the sum wraps around, the reads come to the end of the disc
  else if offset.toNat + size.toNat > disc.length then none
  else some (slice disc offset.toNat size.toNat)

/-- `OnCDReadComplete`, as far as it is about the image. `verified` says whether the
    extracted image has the digest of the index. -/
def NodeState.onCDReadComplete (config : NodeConfig) (state : NodeState) (volumeId : UInt64)
    (verified : Bool) (move : MoveFaults) : NodeState :=
  match state.index.discImageIndex.lookup volumeId with
  | none => state
  | some location =>
      match state.vdisc.lookup location.diskId with
      | none => state
      | some disc =>
          match extractRangeFromDisc disc location.offsetInDisc location.imageSizeBytes with
          | none => state
          | some bytes =>
              if verified then
                { state with
                  space :=
                    (state.space.moveFrom config.capacityInImages volumeId bytes .read move).2 }
              else state

/-! ## Shutdown and restart -/

/-- `PersistRuntimeState`. -/
def NodeState.takeSnapshot (state : NodeState) : Snapshot where
  nextVolumeId := state.nextVolumeId
  nextDiskId := state.nextDiskId
  availableVolumeIds := state.availableVolumeIds
  availableDiskIds := state.availableDiskIds
  burnTasks := state.burnTasks
  images := state.space.snapshotImageEntries

/-- What a restart meets. A disc of `meta/` has its own faults in the reconciliation. -/
structure RestartFaults where
  indexRead : Bool := true
  pendingRead : Bool := true
  loaded : Bool := true
  consumed : Bool := true
  metaRead : UInt64 → Bool := fun _ => true
  append : UInt64 → AppendOutcome := fun _ => .done
  metaUnlinked : UInt64 → Bool := fun _ => true
  unlinked : UInt64 → Bool := fun _ => true

/-- A new process before `LoadRuntimeState`: the staging area from the files alone, the
    index and the list for the next disc. -/
def NodeState.initializeDir (state : NodeState) (faults : RestartFaults) : NodeState :=
  { state with
    running := true
    space := state.space.rebuildManagementTable []
    index := state.index.rebuildDiscImageIndex faults.indexRead
    pendingDiscEntries := if faults.pendingRead then state.pendingDiscMeta.getD [] else []
    nextVolumeId := 1
    nextDiskId := 1
    availableVolumeIds := []
    availableDiskIds := []
    burnTasks := [] }

def positive (counter : UInt64) : UInt64 := if counter = 0 then 1 else counter

def NodeState.applySnapshot (state : NodeState) (snapshot : Snapshot) : NodeState :=
  { state with
    space := state.space.rebuildManagementTable snapshot.images
    nextVolumeId := positive snapshot.nextVolumeId
    nextDiskId := positive snapshot.nextDiskId
    availableVolumeIds := snapshot.availableVolumeIds
    availableDiskIds := snapshot.availableDiskIds
    burnTasks := snapshot.burnTasks }

/-- The volume ids that the alignment counts as used: of the images in `image/`, of the
    list for the next disc and of the index. -/
def NodeState.usedVolumeIds (state : NodeState) : List UInt64 :=
  state.space.entries.map ImageEntry.volumeId ++
    state.pendingDiscEntries.map DiscImageEntry.volumeId ++ state.index.discImageIndex.keys

/-- `ParseUint64Decimal`. -/
def parseUint64Decimal (text : Bytes) : Option UInt64 :=
  if text.isEmpty ∨ !text.all isDigit ∨ digitsValue text ≥ 2 ^ 64 then none
  else some (UInt64.ofNat (digitsValue text))

/-- The disc ids that the alignment counts as used: of the metadata files and the index. -/
def NodeState.usedDiskIds (state : NodeState) : List UInt64 :=
  state.discMeta.keys ++ state.index.discImageIndex.entries.filterMap fun entry =>
    parseUint64Decimal entry.2.diskId

/-- The counter after the ids. -/
def raise (next : UInt64) (ids : List UInt64) : UInt64 :=
  ids.foldl (fun next id => if next < id + 1 then id + 1 else next) next

def withoutUsed (pool used : List UInt64) : List UInt64 :=
  pool.filter fun id => id ∉ used ∧ id ≠ 0

/-- The alignment at the end of `LoadRuntimeState`. -/
def NodeState.alignIds (state : NodeState) : NodeState :=
  { state with
    nextVolumeId := positive (raise state.nextVolumeId state.usedVolumeIds)
    nextDiskId := positive (raise (raise state.nextDiskId state.burnTasks) state.usedDiskIds)
    availableVolumeIds := withoutUsed state.availableVolumeIds state.usedVolumeIds
    availableDiskIds := withoutUsed state.availableDiskIds state.usedDiskIds }

/-- `LoadRuntimeState`. A snapshot that was loaded is renamed so that it is not loaded
    again. -/
def NodeState.loadRuntimeState (state : NodeState) (faults : RestartFaults) : NodeState :=
  match state.snapshot, faults.loaded with
  | some snapshot, true =>
      { (state.applySnapshot snapshot).alignIds with
        snapshot := if faults.consumed then none else some snapshot }
  | _, _ => state.alignIds

def releaseImages (unlinked : UInt64 → Bool) (space : SpaceManager)
    (entries : List DiscImageEntry) : SpaceManager :=
  entries.foldl (fun space entry =>
    (space.removeWriteImage entry.volumeId (unlinked entry.volumeId)).2) space

/-- The round of `ReconcileAndReplay` for a disc, `live` being the discs with a task. -/
def NodeState.reconcileDisc (faults : RestartFaults) (live : List UInt64) (state : NodeState)
    (discId : UInt64) : NodeState :=
  match state.discMeta.lookup discId, faults.metaRead discId with
  | some entries, true =>
      if diskId discId ∈ state.vdisc then
        match state.indexAndUnlink discId entries (faults.append discId)
            (faults.metaUnlinked discId) with
        | (false, state) => state
        | (true, state) =>
            { state with space := releaseImages faults.unlinked state.space entries }
      else if discId ∈ live then state
      else if entries.any fun entry => entry.volumeId ∉ state.space.imageDir then state
      else { state with burnTasks := state.burnTasks ++ [discId] }
  | _, _ => state

def NodeState.reconcileAndReplay (state : NodeState) (faults : RestartFaults) : NodeState :=
  (state.discMeta.keys.insertionSort (· ≤ ·)).foldl
    (NodeState.reconcileDisc faults state.burnTasks) state

/-! ## Calls -/

inductive NodeCall
  | writeTask (pack : Pack) (collected : Bool) (found : UInt64) (move : MoveFaults)
      (list : ListFaults)
  | flushArchiveTail (pack : Option Pack) (move : MoveFaults) (list : ListFaults)
      (sealRenamed : Bool)
  | onCDBurnComplete (discId : UInt64) (faults : BurnFaults)
  | onCDReadComplete (volumeId : UInt64) (verified : Bool) (move : MoveFaults)
  | touch (volumeId : UInt64)
  | removeSingleReadImage (unlinked : Bool)
  | shutdown (persisted : Bool)
  | crash
  | restart (faults : RestartFaults)

def NodeState.work (config : NodeConfig) (state : NodeState) : NodeCall → NodeState
  | .writeTask pack collected found move list =>
      state.writeTask config pack collected found move list
  | .flushArchiveTail pack move list sealRenamed =>
      state.flushArchiveTail config pack move list sealRenamed
  | .onCDBurnComplete discId faults => state.onCDBurnComplete config discId faults
  | .onCDReadComplete volumeId verified move =>
      state.onCDReadComplete config volumeId verified move
  | .touch volumeId => { state with space := state.space.touch volumeId }
  | .removeSingleReadImage unlinked =>
      { state with space := (state.space.removeSingleReadImage unlinked).2 }
  | .shutdown persisted =>
      { state with
        running := false
        snapshot := if persisted then some state.takeSnapshot else state.snapshot }
  | .crash => { state with running := false }
  | .restart _ => state

/-- A node that runs works, and one that does not can only be started. -/
def NodeState.serve (config : NodeConfig) (state : NodeState) (call : NodeCall) : NodeState :=
  if state.running then state.work config call
  else
    match call with
    | .restart faults => ((state.initializeDir faults).loadRuntimeState faults).reconcileAndReplay faults
    | _ => state

def Serving (config : NodeConfig) (state : NodeState) (call : NodeCall) (state' : NodeState) : Prop :=
  state' = state.serve config call

theorem serving_serve (config : NodeConfig) (state : NodeState) (call : NodeCall) :
    Serving config state call (state.serve config call) := rfl

theorem NodeState.serve_running {config : NodeConfig} {state : NodeState} (h : state.running = true)
    (call : NodeCall) : state.serve config call = state.work config call :=
  if_pos h

theorem NodeState.serve_restart {config : NodeConfig} {state : NodeState}
    (h : state.running = false) (faults : RestartFaults) :
    state.serve config (.restart faults) =
      ((state.initializeDir faults).loadRuntimeState faults).reconcileAndReplay faults :=
  if_neg (Bool.eq_false_iff.mp h)

theorem NodeState.serve_stopped {config : NodeConfig} {state : NodeState} {call : NodeCall}
    (h : state.running = false) (hcall : ∀ faults, call ≠ .restart faults) :
    state.serve config call = state := by
  have hnot : ¬state.running = true := Bool.eq_false_iff.mp h
  cases call with
  | restart faults => exact absurd rfl (hcall faults)
  | _ => exact if_neg hnot

end Zb.OpticalNode
