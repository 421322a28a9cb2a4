-- SUMMARY: The namespace operations over the metadata store, from path resolution to directory listing.
import ZBStorage.Mds.Runtime
import ZBStorage.Mds.Storage.UnifiedInodeLocation

/-!
# The namespace store

`RocksNamespaceStore.cpp` and the reservations of `NamespaceStore.h`. A
directory entry is stored under `D/<parent>/<name>` and holds the inode id; the
inode record is stored under `I/<id>` and repeats its parent and its name.
-/

namespace Zb.Mds

open Zb.Rpc Bytes Handler

/-! ## Codecs -/

def encodeUInt64 (value : UInt64) : Bytes := ofNatLE 8 value.toNat

def decodeUInt64 (data : Bytes) : Option UInt64 :=
  if data.length = 8 then some (readU64 data 0) else none

theorem decodeUInt64_encodeUInt64 (value : UInt64) :
    decodeUInt64 (encodeUInt64 value) = some value := by
  have hlen : (encodeUInt64 value).length = 8 := length_ofNatLE 8 _
  have hslice : slice (encodeUInt64 value) 0 8 = encodeUInt64 value := by
    rw [slice, List.drop_zero, List.take_of_length_le hlen.le]
  have hlt : value.toNat < 256 ^ 8 := value.toNat_lt
  rw [decodeUInt64, if_pos hlen, readU64, hslice, encodeUInt64, toNatLE_ofNatLE,
    Nat.mod_eq_of_lt hlt, UInt64.ofNat_toNat]

def decodeUnifiedInodeAttr (data : Bytes) : Except String InodeAttr :=
  (decodeUnifiedInodeRecord data).map unifiedInodeRecordToAttr

/-- A byte string inside an error message. -/
def toText (bs : Bytes) : String := String.ofList (bs.map fun b => Char.ofNat b.toNat)

/-! ## Status -/

structure NamespaceStatus where
  code : MdsStatusCode := .ok
  message : String := "OK"
  deriving DecidableEq

def NamespaceStatus.isOk (status : NamespaceStatus) : Bool := status.code == .ok

/-- An empty error means that the key was absent. -/
def readFailure (error missing : String) : NamespaceStatus :=
  if error = "" then ⟨.notFound, missing⟩ else ⟨.internalError, error⟩

@[simp] theorem readFailure_isOk (error missing : String) :
    (readFailure error missing).isOk = false := by
  unfold readFailure
  split <;> rfl

/-! ## Reads -/

/-- The nonempty components of a path. -/
def splitPath (path : Bytes) : List Bytes := (path.splitOn 47).filter (· ≠ [])

def getInode (id : UInt64) : Handler (Except String InodeAttr) :=
  if id = 0 then return .error "invalid inode lookup args"
  else do
    match ← get (.inode id) with
    | .error e => return .error e
    | .ok data => return decodeUnifiedInodeAttr data

def getDentry (parentInode : UInt64) (name : Bytes) : Handler (Except String UInt64) :=
  if parentInode = 0 ∨ name = [] then return .error "invalid dentry lookup args"
  else do
    match ← get (.dentry parentInode name) with
    | .error e => return .error e
    | .ok data =>
        match decodeUInt64 data with
        | none => return .error "invalid dentry"
        | some inodeId => return .ok inodeId

/-- The loop of `ResolvePath`. -/
def followDentries (current : UInt64) : List Bytes → Handler (Except String UInt64)
  | [] => return .ok current
  | name :: names => do
      match ← getDentry current name with
      | .error e => return .error e
      | .ok next => followDentries next names

section Visible

-- path and directory reads see hot and cold inodes
variable (readVisibleInode : UInt64 → Handler (Except String InodeAttr))

def resolvePath (path : Bytes) : Handler (Except String (UInt64 × InodeAttr)) := do
  match ← followDentries kRootInodeId (splitPath path) with
  | .error e => return .error e
  | .ok inodeId =>
      match ← readVisibleInode inodeId with
      | .error e => return .error e
      | .ok attr => return .ok (inodeId, attr)

structure Dentry where
  name : Bytes
  inodeId : UInt64
  type : InodeType

structure ReaddirPage where
  entries : List Dentry := []
  hasMore : Bool := false
  nextToken : Bytes := []

/-- The loop of `Readdir` over the entries the iterator still has to visit. -/
def readdirLoop (startAfter : Bytes) (limit : UInt32) (page : ReaddirPage) :
    List (Bytes × Bytes) → Handler (Except String ReaddirPage)
  | [] => return .ok page
  | (name, value) :: rest =>
      if startAfter ≠ [] ∧ name ≤ startAfter then readdirLoop startAfter limit page rest
      else
        match decodeUInt64 value with
        | none => return .error ("invalid directory entry: " ++ toText name)
        | some child => do
            match ← readVisibleInode child with
            | .error e =>
                return .error (if e = "" then "directory entry inode is missing: " ++ toText name else e)
            | .ok attr =>
                let page : ReaddirPage :=
                  ⟨page.entries ++ [⟨name, child, attr.type⟩], false, name⟩
                if limit > 0 ∧ page.entries.length ≥ limit.toNat then
                  return .ok { page with hasMore := rest.any fun e => decide (name < e.1) }
                else readdirLoop startAfter limit page rest

def readdir (path startAfter : Bytes) (limit : UInt32) : Handler (Except String ReaddirPage) := do
  match ← resolvePath readVisibleInode path with
  | .error e => return .error e
  | .ok (parentInode, attr) =>
      if attr.type ≠ .dir then return .error "not a directory"
      else if parentInode = 0 then return .error "invalid readdir args"
      else
        match ← iterate parentInode with
        | .error e => return .error e
        | .ok entries =>
            -- `Seek` positions at the first name that is not below `startAfter`
            readdirLoop readVisibleInode startAfter limit {}
              (entries.dropWhile fun e => decide (e.1 < startAfter))

end Visible

/-- The loop of `ResolveParent`, which reads the store directly. -/
def walkDentries (current : UInt64) : List Bytes → Handler (Except String UInt64)
  | [] => return .ok current
  | part :: parts => do
      match ← get (.dentry current part) with
      | .error e => return .error e
      | .ok data =>
          match decodeUInt64 data with
          | none => return .error "invalid dentry"
          | some next => walkDentries next parts

/-- The parent directory of a path and the last component. -/
def resolveParent (path : Bytes) : Handler (Except String (UInt64 × Bytes)) :=
  match (splitPath path).getLast? with
  | none => return .error "invalid path"
  | some name => do
      match ← walkDentries kRootInodeId (splitPath path).dropLast with
      | .error e => return .error e
      | .ok parentInode => return .ok (parentInode, name)

/-! ## Inodes and ids -/

/-- The record `PutInode` writes over an existing one. A hot primary may also
    carry an archive copy; the primary location is kept. -/
def updatedRecord (attr : InodeAttr) (record : UnifiedInodeRecord) : UnifiedInodeRecord :=
  let record := applyAttrToUnifiedRecord attr record
  let isDisk := record.storageTier = UnifiedStorageTier.kDisk
  { record with
    opticalNodeId := if isDisk then attr.opticalNodeId else record.opticalNodeId
    opticalDiskId := if isDisk then attr.opticalDiskId else record.opticalDiskId
    opticalImageId := if isDisk then attr.opticalImageId else record.opticalImageId }

/-- The payload `PutInode` writes, from what it read. -/
def putInodePayload (attr : InodeAttr) : Except String Bytes → Except String Bytes
  | .ok existing => do
      let record ← decodeUnifiedInodeRecord existing
      encodeUnifiedInodeRecord (updatedRecord attr record)
  | .error e =>
      if e ≠ "" then .error e
      else do
        let record ← attrToUnifiedInodeRecord attr 0 UnifiedStorageTier.kNone
        encodeUnifiedInodeRecord record

def putInode (inodeId : UInt64) (attr : InodeAttr) : Handler (Except String Unit) := do
  let existing ← get (.inode inodeId)
  match putInodePayload attr existing with
  | .error e => return .error e
  | .ok payload => put (.inode inodeId) payload

/-- The counter under `X/next_inode`, from what was read there. -/
def nextInodeId : Except String Bytes → Except String UInt64
  | .ok value =>
      match decodeUInt64 value with
      | none => .error "Invalid next inode value"
      | some nextId => .ok nextId
  | .error e => if e = "" then .ok (kRootInodeId + 1) else .error e

def allocateInodeId (type : InodeType) : Handler (Except String UInt64) :=
  if type ≠ .file ∧ type ≠ .dir then return .error "invalid inode type"
  else withLock .inodeId do
    match nextInodeId (← get .nextInode) with
    | .error e => return .error e
    | .ok nextId =>
        match ← put .nextInode (encodeUInt64 (nextId + 1)) with
        | .error e => return .error e
        | .ok () => return .ok nextId

/-! ## Changes of the tree -/

/-- The record and payload of a new inode. -/
def createPayload (attr : InodeAttr) (parent : UInt64) (name : Bytes) : Except String Bytes := do
  let record ← attrToUnifiedInodeRecord { attr with fileName := name } parent
    UnifiedStorageTier.kNone
  encodeUnifiedInodeRecord record

def createBatch (parent : UInt64) (name : Bytes) (inodeId : UInt64) (payload : Bytes) :
    WriteBatch :=
  [.put (.dentry parent name) (encodeUInt64 inodeId), .put (.inode inodeId) payload]

/-- The outcome of an operation that ends with its write batch. -/
def finish : Except String Unit → NamespaceStatus
  | .error e => ⟨.internalError, e⟩
  | .ok () => {}

def create (path : Bytes) (attr : InodeAttr) : Handler NamespaceStatus := do
  match ← resolveParent path with
  | .error e => return readFailure e "parent not found"
  | .ok (parent, name) =>
      match ← getDentry parent name with
      | .ok _ => return ⟨.alreadyExists, "path already exists"⟩
      | .error e =>
          if e ≠ "" then return ⟨.internalError, e⟩
          else
            match ← getInode parent with
            | .error e => return readFailure e "parent not found"
            | .ok parentAttr =>
                if parentAttr.type ≠ .dir then
                  return ⟨.invalidArgument, "parent is not a directory"⟩
                else if attr.inodeId ≤ kRootInodeId then
                  return ⟨.invalidArgument, "invalid inode ID"⟩
                else
                  match createPayload attr parent name with
                  | .error e => return ⟨.internalError, e⟩
                  | .ok payload =>
                      return finish (← writeBatch (createBatch parent name attr.inodeId payload))

/-- The payload of a renamed inode. -/
def renamePayload (payload : Bytes) (newParent : UInt64) (newName : Bytes) :
    Except String Bytes := do
  let record ← decodeUnifiedInodeRecord payload
  encodeUnifiedInodeRecord { record with
    parentInodeId := newParent
    fileName := newName
    fileNameLen := UInt16.ofNat newName.length }

def renameBatch (oldParent : UInt64) (oldName : Bytes) (newParent : UInt64) (newName : Bytes)
    (inode : UInt64) (payload : Bytes) : WriteBatch :=
  [.delete (.dentry oldParent oldName), .put (.dentry newParent newName) (encodeUInt64 inode),
    .put (.inode inode) payload]

def rename (oldPath newPath : Bytes) : Handler NamespaceStatus := do
  match ← resolveParent oldPath with
  | .error e => return readFailure e "old parent not found"
  | .ok (oldParent, oldName) =>
      match ← resolveParent newPath with
      | .error e => return readFailure e "new parent not found"
      | .ok (newParent, newName) =>
          match ← getDentry oldParent oldName with
          | .error e => return readFailure e "source not found"
          | .ok inode =>
              match ← getDentry newParent newName with
              | .ok _ => return ⟨.alreadyExists, "target exists"⟩
              | .error e =>
                  if e ≠ "" then return ⟨.internalError, e⟩
                  else
                    match ← get (.inode inode) with
                    | .error e => return readFailure e "inode not found"
                    | .ok data =>
                        match renamePayload data newParent newName with
                        | .error e => return ⟨.internalError, e⟩
                        | .ok payload =>
                            return finish (← writeBatch
                              (renameBatch oldParent oldName newParent newName inode payload))

def removeBatch (parent : UInt64) (name : Bytes) (inode : UInt64) : WriteBatch :=
  [.delete (.dentry parent name), .delete (.inode inode)]

/-- Whether a directory may be removed: it has no entry left. -/
def checkEmpty (expectedType : InodeType) (inode : UInt64) : Handler (Option NamespaceStatus) :=
  if expectedType = .dir then do
    match ← iterate inode with
    | .error e => return some ⟨.internalError, e⟩
    | .ok entries =>
        return if entries = [] then none else some ⟨.notEmpty, "directory not empty"⟩
  else return none

def remove (path : Bytes) (expectedType : InodeType) : Handler NamespaceStatus :=
  if splitPath path = [] then return ⟨.invalidArgument, "cannot remove root"⟩
  else do
    match ← resolveParent path with
    | .error e => return readFailure e "parent not found"
    | .ok (parent, name) =>
        match ← getDentry parent name with
        | .error e => return readFailure e "path not found"
        | .ok inode =>
            match ← getInode inode with
            | .error e => return readFailure e "inode not found"
            | .ok attr =>
                if attr.type ≠ expectedType then
                  return ⟨.invalidArgument,
                    if expectedType = .dir then "not a directory" else "not a file"⟩
                else
                  match ← checkEmpty expectedType inode with
                  | some status => return status
                  | none => return finish (← writeBatch (removeBatch parent name inode))

/-! ## Reservations -/

/-- A reserved creation, `NamespaceStore.h`. -/
structure NamespaceCreation where
  path : Bytes
  type : InodeType
  id : UInt64
  finished : Bool := false

def reserveCreate (path : Bytes) (type : InodeType) : Handler (Except String NamespaceCreation) := do
  match ← allocateInodeId type with
  | .error e => return .error e
  | .ok id => return if id = 0 then .error "" else .ok { path, type, id }

def NamespaceCreation.commit (c : NamespaceCreation) (attr : InodeAttr) :
    Handler (NamespaceStatus × NamespaceCreation) :=
  if c.finished ∨ attr.inodeId ≠ c.id ∨ attr.type ≠ c.type then
    return (⟨.invalidArgument, "invalid creation reservation"⟩, c)
  else do
    let result ← create c.path attr
    return (result, if result.isOk then { c with finished := true } else c)

def NamespaceCreation.cancel (c : NamespaceCreation) : NamespaceCreation :=
  { c with finished := true }

end Zb.Mds
