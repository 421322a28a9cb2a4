-- SUMMARY: Where a file is stored: inode reads over both tiers, and the resolution of locations.
import ZBStorage.Mds.Interleavings
import ZBStorage.Mds.Storage.RocksNamespaceStore

/-!
# File locations

`MetaStoreRouter::GetInode` and `FileLocationResolver.cpp`. A full location under
its own key takes precedence over the numbers packed into the inode.
-/

namespace Zb.Mds

open Zb.Rpc Bytes Handler

/-- `MetaStoreRouter::GetInode`: the archived namespaces are asked for what the
    hot store does not have. -/
def MetaStoreRouter.getInode (inodeId : UInt64) : Handler (Except String InodeAttr) :=
  if inodeId = 0 then return .error "invalid inode lookup args"
  else do
    match ← Zb.Mds.getInode inodeId with
    | .ok attr => return .ok attr
    | .error e => if e ≠ "" then return .error e else ask (.coldInode inodeId)

namespace FileLocationResolver

/-- Address and generation of a node, where they are known. -/
def resolveNode (nodeId address : Bytes) (generation : UInt64) : Handler (Bytes × UInt64) := do
  let (resolved, current) ← ask (.resolveNode nodeId)
  return (resolved.getD address, current.getD generation)

/-- The full location of an optical file, or the one packed into its inode. -/
def opticalLocation (attr : InodeAttr) (full : Option OpticalFileLocation) :
    Handler (Except NamespaceStatus OpticalFileLocation) :=
  match full with
  | some location =>
      if location.nodeId = [] ∨ location.diskId = [] then
        return .error ⟨.internalError, "corrupt full optical location"⟩
      else return .ok location
  | none =>
      match populateOpticalFileLocationFromInodeAttr attr attr.inodeId with
      | none => return .error ⟨.notFound, "optical location missing"⟩
      | some location =>
          if attr.opticalDiskId ≤ 0xFFFFFFFF then do
            match ← ask (.resolveDiskId location.nodeId attr.opticalDiskId.toUInt32) with
            | some disk => return .ok (if disk ≠ [] then { location with diskId := disk } else location)
            | none => return .ok location
          else return .ok location

def diskLocation (attr : InodeAttr) (full : Option DiskFileLocation) :
    Handler (Except NamespaceStatus DiskFileLocation) :=
  match full with
  | some location =>
      if location.nodeId = [] ∨ location.diskId = [] then
        return .error ⟨.internalError, "corrupt full disk location"⟩
      else return .ok location
  | none =>
      match populateDiskFileLocationFromInodeAttr attr with
      | none => return .error ⟨.notFound, "disk location missing"⟩
      | some location => do
          match ← ask (.resolveDiskId location.nodeId attr.diskId) with
          | some disk => return .ok (if disk ≠ [] then { location with diskId := disk } else location)
          | none => return .ok location

/-- A full location record, if there is one. -/
def readRecord {k : MetaKey} : Except String k.Value → Except NamespaceStatus (Option k.Value)
  | .ok record => .ok (some record)
  | .error e => if e ≠ "" then .error ⟨.internalError, e⟩ else .ok none

def resolveKnownInode (attr : InodeAttr) : Handler (Except NamespaceStatus FileLocationView) :=
  if attr.inodeId = 0 ∨ attr.type ≠ .file then
    return .error ⟨.invalidArgument, "location requires a file inode"⟩
  else
    match attr.storageTier with
    | .optical => do
        match readRecord (← get (.opticalFileLocation attr.inodeId)) with
        | .error status => return .error status
        | .ok full =>
            match ← opticalLocation attr full with
            | .error status => return .error status
            | .ok location =>
                match ← ask (.resolveOptical location full.isNone) with
                | .error e => return .error ⟨.internalError, e⟩
                | .ok location =>
                    let (nodeAddress, instanceGeneration) ← resolveNode location.nodeId
                      location.nodeAddress location.instanceGeneration
                    return .ok
                      { attr
                        opticalLocation := some { location with nodeAddress, instanceGeneration } }
    | .disk => do
        match readRecord (← get (.diskFileLocation attr.inodeId)) with
        | .error status => return .error status
        | .ok full =>
            match ← diskLocation attr full with
            | .error status => return .error status
            | .ok location =>
                let (nodeAddress, instanceGeneration) ← resolveNode location.nodeId
                  location.nodeAddress location.instanceGeneration
                return .ok
                  { attr, diskLocation := some { location with nodeAddress, instanceGeneration } }
    | _ => return .error ⟨.notFound, "file has no storage location"⟩

def resolve (inodeId : UInt64) : Handler (Except NamespaceStatus FileLocationView) :=
  if inodeId = 0 then return .error ⟨.invalidArgument, "invalid location query"⟩
  else do
    match ← MetaStoreRouter.getInode inodeId with
    | .error e => return .error (readFailure e "inode not found")
    | .ok attr =>
        if attr.inodeId ≠ inodeId then
          return .error ⟨.internalError, "location inode identity mismatch"⟩
        else resolveKnownInode attr

/-! ## A resolution only reads -/

section Only

open Prog

theorem only_getInode (inodeId : UInt64) : Only MdsOp.IsRead (getInode inodeId) := by
  unfold getInode
  split
  · trivial
  refine only_get fun r => ?_
  cases r <;> trivial

theorem only_routerGetInode (inodeId : UInt64) :
    Only MdsOp.IsRead (MetaStoreRouter.getInode inodeId) := by
  unfold MetaStoreRouter.getInode
  split
  · trivial
  refine (only_getInode inodeId).bind fun r => ?_
  cases r with
  | ok attr => trivial
  | error e =>
      simp only
      split
      · trivial
      · exact ⟨trivial, fun _ => trivial⟩

theorem only_resolveNode (nodeId address : Bytes) (generation : UInt64) :
    Only MdsOp.IsRead (resolveNode nodeId address generation) := only_ask fun _ => trivial

theorem only_opticalLocation (attr : InodeAttr) (full : Option OpticalFileLocation) :
    Only MdsOp.IsRead (opticalLocation attr full) := by
  unfold opticalLocation
  split
  · split <;> trivial
  · split
    · trivial
    · split
      · refine only_ask fun r => ?_
        cases r <;> trivial
      · trivial

theorem only_diskLocation (attr : InodeAttr) (full : Option DiskFileLocation) :
    Only MdsOp.IsRead (diskLocation attr full) := by
  unfold diskLocation
  split
  · split <;> trivial
  · split
    · trivial
    · refine only_ask fun r => ?_
      cases r <;> trivial

theorem only_resolveKnownInode (attr : InodeAttr) :
    Only MdsOp.IsRead (resolveKnownInode attr) := by
  unfold resolveKnownInode
  split
  · trivial
  split
  · refine only_get fun r => ?_
    cases hread : FileLocationResolver.readRecord r with
    | error status => trivial
    | ok full =>
        refine (only_opticalLocation attr full).bind fun r => ?_
        cases r with
        | error status => trivial
        | ok location =>
            refine only_ask fun r => ?_
            cases r with
            | error e => trivial
            | ok location => exact (only_resolveNode _ _ _).bind fun _ => trivial
  · refine only_get fun r => ?_
    cases hread : FileLocationResolver.readRecord r with
    | error status => trivial
    | ok full =>
        refine (only_diskLocation attr full).bind fun r => ?_
        cases r with
        | error status => trivial
        | ok location => exact (only_resolveNode _ _ _).bind fun _ => trivial
  · trivial

theorem only_resolve (inodeId : UInt64) : Only MdsOp.IsRead (resolve inodeId) := by
  unfold resolve
  split
  · trivial
  refine (only_routerGetInode inodeId).bind fun r => ?_
  cases r with
  | error e => trivial
  | ok attr =>
      simp only
      split
      · trivial
      · exact only_resolveKnownInode attr

end Only

end FileLocationResolver

end Zb.Mds
