-- SUMMARY: The objects of a real node: files below its mount points, their reads and writes, and the write locks.
import ZBStorage.DataNode.FileMetaTable
import ZBStorage.Lib.BlockBytes

/-!
# Objects of a real node

The bytes of a file lie in objects of a fixed size, each a file of its own on a
disk of the node. An object exists once something has been written to it, and it is
as long as what has been written.
-/

namespace Zb.DataNode

open Bytes BlockBytes

/-! ## Files -/

abbrev Files := AList fun _ : Bytes => Bytes

namespace LocalPathResolver

def isHex (b : UInt8) : Bool :=
  48 ≤ b && b ≤ 57 || 97 ≤ b && b ≤ 102 || 65 ≤ b && b ≤ 70

def lower (b : UInt8) : UInt8 := if 65 ≤ b && b ≤ 70 then b - 65 + 97 else b

/-- The first four hexadecimal digits, and zeros if there are not as many. -/
def buildPrefix (objectId : Bytes) : Bytes :=
  let digits := ((objectId.filter isHex).take 4).map lower
  digits ++ List.replicate (4 - digits.length) 48

def directory (root : Bytes) : Bytes :=
  if root.getLast? = some 47 then root else root ++ ofAscii "/"

def resolve (root objectId : Bytes) : Bytes :=
  if root = [] ∨ objectId = [] then []
  else
    let digits := buildPrefix objectId
    directory root ++ digits.take 2 ++ ofAscii "/" ++ slice digits 2 2 ++ ofAscii "/" ++ objectId

end LocalPathResolver

namespace IOExecutor

/-- Each byte as a character. -/
def text (b : Bytes) : String := String.ofList (b.map fun x => Char.ofNat x.toNat)

def maxOff : Nat := 2 ^ 63 - 1

def range (offset size : Nat) : Bool := offset ≤ maxOff && size ≤ maxOff - offset

/-- `pwrite` fills a gap with zeros. A file that is not there is created. -/
def write (files : Files) (path : Bytes) (offset : Nat) (data : Bytes) : Status × Files :=
  if path = [] ∨ range offset data.length = false then
    ({ code := .invalidArgument, message := "invalid write range" }, files)
  else
    let content := (files.lookup path).getD []
    ({}, files.insert path (if data = [] then content else patch content offset data))

/-- What is there of the range, which may be less. -/
def read (files : Files) (path : Bytes) (offset size : Nat) : Except Status Bytes :=
  if path = [] ∨ range offset size = false then
    .error { code := .invalidArgument, message := "invalid read range" }
  else
    match files.lookup path with
    | none => .error { code := .notFound, message := "open " ++ text path ++ ": No such file or directory" }
    | some content => .ok (slice content offset size)

end IOExecutor

/-! ## The node -/

/-- `mountPoint` is empty for a disk that is not there. -/
structure RealNode where
  service : StorageServiceImpl := {}
  files : Files := ∅
  mountPoint : Bytes → Bytes
  lockSession : Bytes := []
  lockSequence : UInt64 := 0

structure ResolveFileReadRequest where
  inodeId : UInt64
  offset : UInt64
  size : UInt64
  diskId : Bytes

namespace RealNode

def objectPath (node : RealNode) (diskId objectId : Bytes) : Except Status Bytes :=
  if diskId = [] ∨ objectId = [] then
    .error { code := .invalidArgument, message := "disk_id or object_id is empty" }
  else if node.mountPoint diskId = [] then
    .error { code := .notFound, message := "Disk not found or unhealthy" }
  else if LocalPathResolver.resolve (node.mountPoint diskId) objectId = [] then
    .error { code := .invalidArgument, message := "Failed to resolve path" }
  else .ok (LocalPathResolver.resolve (node.mountPoint diskId) objectId)

def writeObject (node : RealNode) (diskId objectId : Bytes) (offset : Nat) (data : Bytes) :
    Status × RealNode :=
  if node.service.writeAdmissionClosed then (.admission, node)
  else
    match node.objectPath diskId objectId with
    | .error status => (status, node)
    | .ok path =>
        let written := IOExecutor.write node.files path offset data
        (written.1, { node with files := written.2 })

def readObject (node : RealNode) (diskId objectId : Bytes) (offset size : Nat) :
    Except Status Bytes :=
  match node.objectPath diskId objectId with
  | .error status => .error status
  | .ok path => IOExecutor.read node.files path offset size

/-- The token of a write lock. -/
def lockToken (session : Bytes) (sequence : UInt64) : Bytes :=
  session ++ ofAscii "-" ++ decimal sequence.toNat

def acquireFileWriteLock (node : RealNode) : Bytes × RealNode :=
  (lockToken node.lockSession (node.lockSequence + 1),
    { node with lockSequence := node.lockSequence + 1 })

end RealNode

/-- The metadata of the file, with the slices of the part of the range that lies below
    its length. -/
def StorageServiceImpl.resolveFileRead (service : StorageServiceImpl)
    (request : ResolveFileReadRequest) : Except Status (FileMeta × List FileObjectSlice) :=
  if request.inodeId = 0 then .error .noInode
  else if 2 ^ 64 ≤ request.offset.toNat + request.size.toNat then .error .rangeOverflow
  else
    match service.table.fileMetaByInode.lookup request.inodeId with
    | none => .error { code := .notFound, message := "file meta not found" }
    | some fileMeta =>
        if request.size = 0 ∨ fileMeta.fileSize.toNat ≤ request.offset.toNat then
          .ok (fileMeta, [])
        else
          let readSize := min request.size.toNat (fileMeta.fileSize.toNat - request.offset.toNat)
          .ok (fileMeta, buildObjectSlices request.inodeId request.offset.toNat readSize
            fileMeta.unit.toNat request.diskId)

end Zb.DataNode
