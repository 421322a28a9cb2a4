-- SUMMARY: The scan of a subtree in batches, by paged directory reads.
import ZBStorage.Mds.Location.FileLocationResolver

/-!
# Scanning a subtree

`NamespaceScan.cpp`. The scanner keeps a stack of directories, each with the page
of entries it has still to visit. A call of `Next` takes a bounded number of
steps and collects a bounded number of inodes.
-/

namespace Zb.Mds

open Zb.Rpc Bytes

/-- A directory being scanned, with the entries of its page that are left. -/
structure ScanFrame where
  path : Bytes
  token : Bytes := []
  page : List Dentry := []
  lastPage : Bool := false

structure SubtreeScanOptions where
  filesOnly : Bool := true
  workBudget : UInt32 := 1024

structure SubtreeScanBatch where
  entries : List InodeAttr := []
  done : Bool := false

structure ReaddirScanner where
  options : SubtreeScanOptions
  /-- the innermost directory first -/
  stack : List ScanFrame
  failure : NamespaceStatus := {}

def childPath (path name : Bytes) : Bytes :=
  if path = ofAscii "/" then ofAscii "/" ++ name else path ++ ofAscii "/" ++ name

/-- The reads of a namespace store that a scan makes. -/
structure NamespaceReads (m : Type → Type) where
  readdir : Bytes → Bytes → UInt32 → m (Except String ReaddirPage)
  getInode : UInt64 → m (Except String InodeAttr)

namespace NamespaceReads

variable {m : Type → Type} [Monad m]

/-- The loop of `Next` with the steps it may still take. -/
def scanLoop (store : NamespaceReads m) (filesOnly : Bool) (maxEntries : UInt32) :
    Nat → List ScanFrame → List InodeAttr →
      m (Except String (List ScanFrame × List InodeAttr))
  | 0, stack, entries => return .ok (stack, entries)
  | _ + 1, [], entries => return .ok ([], entries)
  | work + 1, frame :: stack, entries =>
      if entries.length ≥ maxEntries.toNat then return .ok (frame :: stack, entries)
      else
        match frame.page with
        | [] =>
            if frame.lastPage then scanLoop store filesOnly maxEntries work stack entries
            else do
              match ← store.readdir frame.path frame.token (min maxEntries 128) with
              | .error e => return .error (if e = "" then "scan directory disappeared" else e)
              | .ok page =>
                  if page.hasMore ∧ (page.entries = [] ∨ page.nextToken = frame.token) then
                    return .error "Readdir made no progress"
                  else
                    let frame := { frame with
                      page := page.entries
                      token := page.nextToken
                      lastPage := !page.hasMore }
                    scanLoop store filesOnly maxEntries work (frame :: stack) entries
        | entry :: page => do
            match ← store.getInode entry.inodeId with
            | .error e => return .error (if e = "" then "scan inode disappeared" else e)
            | .ok attr =>
                if attr.inodeId ≠ entry.inodeId ∨ attr.type ≠ entry.type then
                  return .error "scan inode identity/type mismatch"
                else
                  let stack := { frame with page := page } :: stack
                  let stack :=
                    if entry.type = .dir then { path := childPath frame.path entry.name } :: stack
                    else stack
                  let entries :=
                    if !filesOnly ∨ attr.type = .file then entries ++ [attr] else entries
                  scanLoop store filesOnly maxEntries work stack entries

/-- `Next`; a failure ends the scan for good. -/
def next (store : NamespaceReads m) (scanner : ReaddirScanner) (maxEntries : UInt32) :
    m (NamespaceStatus × SubtreeScanBatch × ReaddirScanner) :=
  if maxEntries = 0 then
    return (⟨.invalidArgument, "batch and positive max_entries required"⟩, {}, scanner)
  else if !scanner.failure.isOk then return (scanner.failure, {}, scanner)
  else do
    match ← store.scanLoop scanner.options.filesOnly maxEntries scanner.options.workBudget.toNat
      scanner.stack [] with
    | .error e =>
        let failure : NamespaceStatus := ⟨.internalError, e⟩
        return (failure, {}, { scanner with stack := [], failure })
    | .ok (stack, entries) =>
        return ({}, { entries, done := stack.isEmpty }, { scanner with stack })

end NamespaceReads

end Zb.Mds
