-- SUMMARY: The file metadata of a data node with the last transaction of each file: allocation and commit of a write.
import Mathlib.Data.List.AList
import ZBStorage.Lib.Bytes

/-!
# File metadata of a data node

A client that writes to a file asks the node for a transaction, writes the
objects, and commits the new size. The node keeps the metadata of every file and,
for every file, the transaction committed last, so that a commit that is sent
again is answered with what it did.
-/

namespace Zb.DataNode

open Bytes

/-! ## Messages -/

inductive StatusCode
  | ok
  | invalidArgument
  | notFound
  | busy
  | ioError
  | internalError
  deriving DecidableEq

structure Status where
  code : StatusCode := .ok
  message : String := ""
  deriving DecidableEq

structure FileMeta where
  inodeId : UInt64 := 0
  fileSize : UInt64 := 0
  objectUnitSize : UInt64 := 0
  version : UInt64 := 0
  mtimeSec : UInt64 := 0
  updateTsMs : UInt64 := 0
  deriving DecidableEq

structure FileObjectSlice where
  objectIndex : UInt32
  objectId : Bytes
  diskId : Bytes
  objectOffset : Nat
  length : Nat
  deriving DecidableEq

structure ApplyFileMetaRequest where
  fileMeta : FileMeta
  expectedVersion : UInt64
  allowCreate : Bool

structure ApplyFileMetaReply where
  status : Status := {}
  fileMeta : FileMeta := {}
  deriving DecidableEq

structure AllocateFileWriteRequest where
  inodeId : UInt64
  offset : UInt64
  size : UInt64
  diskId : Bytes
  objectUnitSizeHint : UInt64

structure AllocateFileWriteReply where
  status : Status := {}
  fileMeta : FileMeta := {}
  txid : Bytes := []
  slices : List FileObjectSlice := []
  deriving DecidableEq

structure CommitFileWriteRequest where
  inodeId : UInt64
  txid : Bytes
  fileSize : UInt64
  objectUnitSize : UInt64
  expectedVersion : UInt64
  allowCreate : Bool
  mtimeSec : UInt64

structure CommitFileWriteReply where
  status : Status := {}
  fileMeta : FileMeta := {}
  deriving DecidableEq

/-! ## Slices -/

def kDefaultObjectUnitSize : UInt64 := 4 * 1024 * 1024

def buildStableObjectId (inodeId : UInt64) (objectIndex : UInt32) : Bytes :=
  ofAscii "obj-" ++ decimal inodeId.toNat ++ ofAscii "-" ++ decimal objectIndex.toNat

theorem buildStableObjectId_injective {inodeId : UInt64} {index index' : UInt32}
    (h : buildStableObjectId inodeId index = buildStableObjectId inodeId index') :
    index = index' :=
  UInt32.toNat_inj.mp (decimal_injective (List.append_cancel_left h))

/-- The slice of the range from `offset` to `stop` that lies in the object `i`, which
    ends at `objectEnd`. -/
def objectSlice (inodeId : UInt64) (offset stop unit : Nat) (diskId : Bytes) (objectEnd i : Nat) :
    Option FileObjectSlice :=
  let objectStart := i * unit
  let segStart := max objectStart offset
  let segEnd := min objectEnd stop
  if segEnd ≤ segStart then none
  else
    some
      { objectIndex := UInt32.ofNat i
        objectId := buildStableObjectId inodeId (UInt32.ofNat i)
        diskId := diskId
        objectOffset := segStart - objectStart
        length := segEnd - segStart }

/-- The slices of the objects that a range touches, one by one. -/
def objectSlices (inodeId : UInt64) (offset size unit : Nat) (diskId : Bytes)
    (objectEnd : Nat → Nat) : List FileObjectSlice :=
  let stop := offset + size
  let startIndex := offset / unit
  let endIndex := (stop - 1) / unit
  (List.range' startIndex (endIndex - startIndex + 1)).filterMap fun i =>
    objectSlice inodeId offset stop unit diskId (objectEnd i) i

namespace StorageServiceImpl

/-- The end of an object is computed in 64 bits. -/
def buildObjectSlices (inodeId : UInt64) (offset size unit : Nat) (diskId : Bytes) :
    List FileObjectSlice :=
  if inodeId = 0 ∨ size = 0 ∨ unit = 0 then []
  else objectSlices inodeId offset size unit diskId fun i => (i * unit + unit) % 2 ^ 64

end StorageServiceImpl

namespace VirtualStorageServiceImpl

def kMaxFileSlicesPerRequest : Nat := 4096

def validateFileSliceRange (offset size unit : Nat) : Except String Unit :=
  if unit = 0 ∨ 2 ^ 64 ≤ offset + size then
    throw "invalid file slice range or object unit size"
  else if size = 0 then pure ()
  else
    let first := offset / unit
    let last := (offset + size - 1) / unit
    if 2 ^ 32 - 1 ≤ last then throw "file object index exceeds supported range"
    else if kMaxFileSlicesPerRequest < last - first + 1 then throw "MODEL_SLICE_LIMIT"
    else pure ()

def buildObjectSlices (inodeId : UInt64) (offset size unit : Nat) (diskId : Bytes) :
    List FileObjectSlice :=
  if inodeId = 0 ∨ size = 0 ∨ unit = 0 then []
  else objectSlices inodeId offset size unit diskId fun i => i * unit + unit

end VirtualStorageServiceImpl

/-! ## The table -/

/-- The signatures of the last commits are kept by a virtual node with a store. -/
structure FileMetaTable where
  fileMetaByInode : AList (fun _ : UInt64 => FileMeta) := ∅
  lastCommitTxidByInode : AList (fun _ : UInt64 => Bytes) := ∅
  lastCommitSignatureByInode : AList (fun _ : UInt64 => Bytes) := ∅

namespace FileMetaTable

/-- The metadata of the file, when the transaction is the one committed last. -/
def repeated (table : FileMetaTable) (inodeId : UInt64) (txid : Bytes) : Option FileMeta :=
  if txid ≠ [] ∧ table.lastCommitTxidByInode.lookup inodeId = some txid then
    table.fileMetaByInode.lookup inodeId
  else none

/-- The metadata is put in place together with the transaction. -/
def put (table : FileMetaTable) (signed : Bool) (inodeId : UInt64) (txid signature : Bytes)
    (fileMeta : FileMeta) : FileMetaTable :=
  { fileMetaByInode := table.fileMetaByInode.insert inodeId fileMeta
    lastCommitTxidByInode :=
      if txid = [] then table.lastCommitTxidByInode
      else table.lastCommitTxidByInode.insert inodeId txid
    lastCommitSignatureByInode :=
      if txid ≠ [] ∧ signed then table.lastCommitSignatureByInode.insert inodeId signature
      else table.lastCommitSignatureByInode }

end FileMetaTable

/-- The metadata that a request makes of the old one. -/
def createdMeta (request : ApplyFileMetaRequest) (nowMs : UInt64) : FileMeta :=
  { request.fileMeta with
    version := if request.fileMeta.version > 0 then request.fileMeta.version else 1
    mtimeSec :=
      if request.fileMeta.mtimeSec > 0 then request.fileMeta.mtimeSec else nowMs / 1000
    updateTsMs := nowMs }

def nextMeta (old : FileMeta) (request : ApplyFileMetaRequest) (nowMs : UInt64) : FileMeta :=
  { old with
    fileSize := request.fileMeta.fileSize
    objectUnitSize := request.fileMeta.objectUnitSize
    version := old.version + 1
    mtimeSec :=
      if request.fileMeta.mtimeSec > 0 then request.fileMeta.mtimeSec else nowMs / 1000
    updateTsMs := nowMs }

/-- What the environment contributes to a commit: the time, and the errors of the two
    stores, if any. -/
structure CommitEnv where
  nowMs : UInt64
  persistError : Option String := none
  archived : Bool := true

def persistStatus (error : String) : Status :=
  { code := .ioError
    message := if error = "" then "failed to persist file meta store" else error }

/-- `ApplyFileMetaInternal` of both nodes. A node that keeps signatures answers a commit
    sent again only when the signature is the same. When the table cannot be written,
    what was there before is put back. -/
def FileMetaTable.applyFileMeta (table : FileMetaTable) (signed : Bool)
    (request : ApplyFileMetaRequest) (txid signature : Bytes) (env : CommitEnv) :
    ApplyFileMetaReply × FileMetaTable :=
  let inodeId := request.fileMeta.inodeId
  if inodeId = 0 then ({ status := ⟨.invalidArgument, "inode_id is empty"⟩ }, table)
  else if request.fileMeta.objectUnitSize = 0 then
    ({ status := ⟨.invalidArgument, "object_unit_size is zero"⟩ }, table)
  else
    match table.repeated inodeId txid with
    | some last =>
        if signed ∧ table.lastCommitSignatureByInode.lookup inodeId ≠ some signature then
          ({ status := ⟨.ioError, "TXID_PARAMETER_MISMATCH"⟩ }, table)
        else ({ fileMeta := last }, table)
    | none =>
        match table.fileMetaByInode.lookup inodeId with
        | none =>
            if request.allowCreate = false then
              ({ status := ⟨.notFound, "file meta not found"⟩ }, table)
            else if request.expectedVersion > 0 then
              ({ status := ⟨.ioError, "VERSION_MISMATCH"⟩ }, table)
            else
              match env.persistError with
              | none =>
                  let created := createdMeta request env.nowMs
                  ({ fileMeta := created }, table.put signed inodeId txid signature created)
              | some error =>
                  ({ status := persistStatus error },
                    { table with lastCommitSignatureByInode :=
                        table.lastCommitSignatureByInode.erase inodeId })
        | some old =>
            if request.expectedVersion > 0 ∧ request.expectedVersion ≠ old.version then
              ({ status := ⟨.ioError, "VERSION_MISMATCH"⟩ }, table)
            else
              match env.persistError with
              | none =>
                  let next := nextMeta old request env.nowMs
                  ({ fileMeta := next }, table.put signed inodeId txid signature next)
              | some error => ({ status := persistStatus error }, table)

/-! ## Commits -/

def commitRequest (request : CommitFileWriteRequest) (nowMs : UInt64) : ApplyFileMetaRequest :=
  { fileMeta :=
      { inodeId := request.inodeId
        fileSize := request.fileSize
        objectUnitSize := request.objectUnitSize
        version := request.expectedVersion
        mtimeSec := if request.mtimeSec > 0 then request.mtimeSec else nowMs / 1000
        updateTsMs := nowMs }
    expectedVersion := request.expectedVersion
    allowCreate := request.allowCreate }

/-- All the parameters of a commit that the caller controls. -/
def commitSignature (request : CommitFileWriteRequest) : Bytes :=
  decimal request.fileSize.toNat ++ ofAscii ":" ++ decimal request.objectUnitSize.toNat ++
    ofAscii ":" ++ decimal request.expectedVersion.toNat ++ ofAscii ":" ++
    (if request.allowCreate then ofAscii "1" else ofAscii "0") ++ ofAscii ":" ++
    decimal request.mtimeSec.toNat

/-- The commit on both nodes, after the checks of the one node: the table first, then
    the archive metadata, whose failure is reported although the table has changed. -/
def FileMetaTable.commitFileWrite (table : FileMetaTable) (signed : Bool)
    (request : CommitFileWriteRequest) (env : CommitEnv) : CommitFileWriteReply × FileMetaTable :=
  let applied := table.applyFileMeta signed (commitRequest request env.nowMs) request.txid
    (commitSignature request) env
  if applied.1.status.code = .ok ∧ env.archived = false then
    ({ status := ⟨.ioError, "failed to persist archive file meta"⟩
       fileMeta := applied.1.fileMeta }, applied.2)
  else ({ status := applied.1.status, fileMeta := applied.1.fileMeta }, applied.2)

/-- The metadata that an allocation answers with. -/
def FileMetaTable.planMeta (table : FileMetaTable) (request : AllocateFileWriteRequest)
    (nowMs : UInt64) : FileMeta :=
  (table.fileMetaByInode.lookup request.inodeId).getD
    { inodeId := request.inodeId
      fileSize := 0
      objectUnitSize :=
        if request.objectUnitSizeHint > 0 then request.objectUnitSizeHint
        else kDefaultObjectUnitSize
      version := 0
      mtimeSec := nowMs / 1000
      updateTsMs := nowMs }

def FileMeta.unit (fileMeta : FileMeta) : UInt64 :=
  if fileMeta.objectUnitSize > 0 then fileMeta.objectUnitSize else kDefaultObjectUnitSize

/-- The start of the transaction id on both nodes. -/
def txidStart (request : AllocateFileWriteRequest) (nowMs : UInt64) : Bytes :=
  ofAscii "tx-" ++ decimal request.inodeId.toNat ++ ofAscii "-" ++ decimal nowMs.toNat ++
    ofAscii "-" ++ decimal request.offset.toNat ++ ofAscii "-"

def Status.admission : Status :=
  { code := .ioError, message := "NODE_DRAINING: write admission is closed" }

def Status.noInode : Status := { code := .invalidArgument, message := "inode_id is empty" }

def Status.rangeOverflow : Status :=
  { code := .invalidArgument, message := "offset + size overflow" }

/-- The file metadata of a real node. -/
structure StorageServiceImpl where
  table : FileMetaTable := {}
  nextTxid : UInt64 := 1
  writeAdmissionClosed : Bool := false

namespace StorageServiceImpl

def allocateFileWrite (service : StorageServiceImpl) (request : AllocateFileWriteRequest)
    (nowMs : UInt64) : AllocateFileWriteReply × StorageServiceImpl :=
  if service.writeAdmissionClosed then ({ status := .admission }, service)
  else if request.inodeId = 0 then ({ status := .noInode }, service)
  else if 2 ^ 64 ≤ request.offset.toNat + request.size.toNat then
    ({ status := .rangeOverflow }, service)
  else
    let plan := service.table.planMeta request nowMs
    ({ fileMeta := plan
       txid := txidStart request nowMs ++ decimal service.nextTxid.toNat
       slices := buildObjectSlices request.inodeId request.offset.toNat request.size.toNat
         plan.unit.toNat request.diskId },
      { service with nextTxid := service.nextTxid + 1 })

def commitFileWrite (service : StorageServiceImpl) (request : CommitFileWriteRequest)
    (env : CommitEnv) : CommitFileWriteReply × StorageServiceImpl :=
  if service.writeAdmissionClosed then ({ status := .admission }, service)
  else if request.inodeId = 0 then ({ status := .noInode }, service)
  else if request.txid = [] then
    ({ status := ⟨.invalidArgument, "txid is empty"⟩ }, service)
  else if request.objectUnitSize = 0 then
    ({ status := ⟨.invalidArgument, "object_unit_size is zero"⟩ }, service)
  else
    let committed := service.table.commitFileWrite false request env
    (committed.1, { service with table := committed.2 })

end StorageServiceImpl

/-- The file metadata of a virtual node; `modelState` when it has a store of its own. -/
structure VirtualStorageServiceImpl where
  table : FileMetaTable := {}
  modelState : Bool := false

namespace VirtualStorageServiceImpl

def allocateFileWrite (service : VirtualStorageServiceImpl) (request : AllocateFileWriteRequest)
    (nowMs : UInt64) : AllocateFileWriteReply × VirtualStorageServiceImpl :=
  if request.inodeId = 0 then ({ status := .noInode }, service)
  else if 2 ^ 64 ≤ request.offset.toNat + request.size.toNat then
    ({ status := .rangeOverflow }, service)
  else
    let plan := service.table.planMeta request nowMs
    match validateFileSliceRange request.offset.toNat request.size.toNat plan.unit.toNat with
    | .error message => ({ status := ⟨.invalidArgument, message⟩, fileMeta := plan }, service)
    | .ok _ =>
        ({ fileMeta := plan
           txid := txidStart request nowMs ++ decimal request.size.toNat
           slices := buildObjectSlices request.inodeId request.offset.toNat request.size.toNat
             plan.unit.toNat request.diskId },
          service)

def commitFileWrite (service : VirtualStorageServiceImpl) (request : CommitFileWriteRequest)
    (env : CommitEnv) : CommitFileWriteReply × VirtualStorageServiceImpl :=
  if request.inodeId = 0 then ({ status := .noInode }, service)
  else if request.txid = [] then
    ({ status := ⟨.invalidArgument, "txid is empty"⟩ }, service)
  else if request.objectUnitSize = 0 then
    ({ status := ⟨.invalidArgument, "object_unit_size is zero"⟩ }, service)
  else if request.fileSize > 0 ∧
      2 ^ 32 - 1 < 1 + (request.fileSize.toNat - 1) / request.objectUnitSize.toNat then
    ({ status := ⟨.invalidArgument, "file object count exceeds supported range"⟩ }, service)
  else
    let committed := service.table.commitFileWrite service.modelState request env
    (committed.1, { service with table := committed.2 })

end VirtualStorageServiceImpl

end Zb.DataNode
