-- SUMMARY: Inode segments of an archive generation: their two layouts, the sparse index, and finding an inode.
import Mathlib.Data.List.AList
import ZBStorage.Lib.ByteReader
import ZBStorage.Mds.Storage.RocksNamespaceStore

/-!
# Archive data files

`ArchiveDataFile.cpp` and `ArchiveSparseIndex.cpp`, as far as they are about inodes. A
segment without a page size is read from its front; one with pages is searched in the
page that the sparse index names.
-/

namespace Zb.Mds

open Zb.Rpc Bytes

/-- The files of the archive by their paths. -/
abbrev ArchiveFiles := AList fun _ : Bytes => Bytes

inductive ArchiveTableKind
  | unknown
  | inode
  | dentry
  deriving DecidableEq

def ArchiveTableKind.toUInt8 : ArchiveTableKind → UInt8
  | .unknown => 0
  | .inode => 1
  | .dentry => 2

def kArchiveFormatVersion : UInt8 := 1
def kArchiveSegmentFileHeaderSize : UInt64 := 24
def kArchivePageHeaderSize : Nat := 8

/-! ## The sparse index -/

/-- The largest key of a page. -/
structure SparseIndexEntry where
  maxKey : Bytes
  pageId : UInt64
  deriving DecidableEq

namespace ArchiveSparseIndex

def kArchiveIndexMagic : Bytes := ofAscii "ARCIDX1" ++ [0]

def readEntry : Reader SparseIndexEntry := do
  let pageId ← nextU64
  let keyLen ← readRaw 2
  let maxKey ← readRaw (toNatLE keyLen)
  return { maxKey, pageId }

def load (files : ArchiveFiles) (indexPath : Bytes) (expectedKind : ArchiveTableKind) :
    Except String (List SparseIndexEntry) :=
  match files.lookup indexPath with
  | none => .error "failed to open archive sparse index"
  | some data =>
      if data.take 8 ≠ kArchiveIndexMagic then .error "invalid archive sparse index header"
      else if data.length < 20 then .error "corrupted archive sparse index header"
      else if readU8 data 8 ≠ expectedKind.toUInt8 then .error "archive sparse index kind mismatch"
      else if readU8 data 9 ≠ kArchiveFormatVersion then
        .error "unsupported archive sparse index version"
      else
        match nextMany readEntry (readU64 data 12).toNat (data.drop 20) with
        | none => .error "corrupted archive sparse index body"
        | some (entries, _) => .ok entries

/-- The first page whose largest key is not before the key. -/
def lookupPage (entries : List SparseIndexEntry) (key : Bytes) : Option UInt64 :=
  (entries.find? fun entry => ¬entry.maxKey < key).map SparseIndexEntry.pageId

end ArchiveSparseIndex

/-! ## Pages -/

structure InodeRecordView where
  inodeId : UInt64
  payload : Bytes
  deriving DecidableEq

/-- The number of records and where they begin. -/
def readPageHeader (page : Bytes) : Option (Nat × Nat) :=
  if page.length < kArchivePageHeaderSize then none
  else
    let recordCount := (readU32 page 0).toNat
    let dataBegin := (readU32 page 4).toNat
    if kArchivePageHeaderSize + recordCount * 4 ≤ dataBegin ∧ dataBegin ≤ page.length then
      some (recordCount, dataBegin)
    else none

def readRecordOffset (page : Bytes) (recordIndex recordCount : Nat) : Option Nat :=
  if page.length < kArchivePageHeaderSize + recordCount * 4 then none
  else
    let offset := (readU32 page (kArchivePageHeaderSize + recordIndex * 4)).toNat
    if offset < page.length then some offset else none

/-- The bytes of an inode id, most significant first. -/
def encodeBe64 (value : UInt64) : Bytes := (ofNatLE 8 value.toNat).reverse

def decodeBe64 (data : Bytes) : UInt64 := UInt64.ofNat (toNatLE data.reverse)

def parseInodeRecord (page : Bytes) (recordIndex : Nat) : Option InodeRecordView :=
  match readPageHeader page with
  | none => none
  | some (recordCount, dataBegin) =>
      if recordIndex ≥ recordCount then none
      else
        match readRecordOffset page recordIndex recordCount with
        | none => none
        | some offset =>
            if offset < dataBegin ∨ offset + 12 > page.length then none
            else
              let payloadLen := (readU32 page (offset + 8)).toNat
              if offset + 12 + payloadLen > page.length then none
              else some
                { inodeId := decodeBe64 (slice page offset 8)
                  payload := slice page (offset + 12) payloadLen }

/-- The loop of `LowerBoundInode`; nothing if a record on its way is broken. Every round
    narrows the range, so its width bounds the rounds. -/
def searchInode (page : Bytes) (inodeId : UInt64) : Nat → Nat → Nat → Option Nat
  | 0, low, _ => some low
  | rounds + 1, low, high =>
      if low < high then
        let mid := low + (high - low) / 2
        match parseInodeRecord page mid with
        | none => none
        | some view =>
            if view.inodeId < inodeId then searchInode page inodeId rounds (mid + 1) high
            else searchInode page inodeId rounds low mid
      else some low

/-- `LowerBoundInode` and the record there, if it is the one that is looked for. -/
def exactInode (page : Bytes) (inodeId : UInt64) : Option InodeRecordView :=
  match readPageHeader page with
  | none => none
  | some (recordCount, _) =>
      match searchInode page inodeId recordCount 0 recordCount with
      | none => none
      | some low => (parseInodeRecord page low).filter fun view => view.inodeId = inodeId

/-! ## Data files -/

/-- An opened data file. Without pages it has the legacy layout. -/
structure ArchiveDataFile where
  kind : ArchiveTableKind
  paged : Bool := false
  dataPath : Bytes
  pageSizeBytes : UInt32 := 0
  pageCount : UInt64 := 0
  sparseIndex : List SparseIndexEntry := []
  deriving DecidableEq

namespace ArchiveDataFile

def kArchiveSegmentMagic : Bytes := ofAscii "ARCDAT1" ++ [0]

/-- The page size and the number of pages. -/
def validateSegmentHeader (files : ArchiveFiles) (kind : ArchiveTableKind) (dataPath : Bytes)
    (pageSizeBytes : UInt32) : Except String (UInt32 × UInt64) :=
  match files.lookup dataPath with
  | none => .error "failed to open archive segment file"
  | some data =>
      if data.length < 24 then .error "corrupted archive segment header"
      else if data.take 8 ≠ kArchiveSegmentMagic then .error "invalid archive segment header"
      else if readU8 data 8 ≠ kind.toUInt8 then .error "archive segment kind mismatch"
      else if readU8 data 9 ≠ kArchiveFormatVersion then .error "unsupported archive segment version"
      else
        let actualPageSize := readU32 data 12
        if actualPageSize = 0 then .error "invalid archive segment geometry"
        else if pageSizeBytes ≠ 0 ∧ pageSizeBytes ≠ actualPageSize then
          .error "archive segment page_size_bytes mismatch"
        else .ok (actualPageSize, readU64 data 16)

/-- `Open`. -/
def openFile (files : ArchiveFiles) (kind : ArchiveTableKind) (dataPath indexPath : Bytes)
    (pageSizeBytes : UInt32) : Except String ArchiveDataFile :=
  if kind = .unknown ∨ dataPath = [] then .error "invalid archive data file open args"
  else if pageSizeBytes = 0 then .ok { kind, dataPath }
  else if indexPath = [] ∨ indexPath ∉ files then .error "missing archive sparse index"
  else
    match validateSegmentHeader files kind dataPath pageSizeBytes with
    | .error e => .error e
    | .ok (pageSizeBytes, pageCount) =>
        match ArchiveSparseIndex.load files indexPath kind with
        | .error e => .error e
        | .ok sparseIndex => .ok { kind, paged := true, dataPath, pageSizeBytes, pageCount, sparseIndex }

/-- A position past `2^63` cannot be sought. -/
def readPage (files : ArchiveFiles) (file : ArchiveDataFile) (pageId : UInt64) :
    Except String Bytes :=
  if !file.paged ∨ pageId ≥ file.pageCount then .error "invalid archive page read args"
  else
    match files.lookup file.dataPath with
    | none => .error "failed to open archive segment file"
    | some data =>
        let offset := (kArchiveSegmentFileHeaderSize + pageId * file.pageSizeBytes.toUInt64).toNat
        if offset ≥ 2 ^ 63 then .error "failed to seek archive segment page"
        else if data.length < offset + file.pageSizeBytes.toNat then
          .error "failed to read archive segment page"
        else .ok (slice data offset file.pageSizeBytes.toNat)

/-- The next record of the legacy layout and what follows it; nothing at the end. -/
def nextLegacy (buffer : Bytes) : Except String (Option (InodeRecordView × Bytes)) :=
  if buffer.length < 8 then .ok none
  else if buffer.length < 12 then .error "corrupted archive inode data file"
  else
    let valueLen := (readU32 buffer 8).toNat
    if buffer.length < 12 + valueLen then .error "corrupted archive inode payload"
    else .ok (some (⟨readU64 buffer 0, slice buffer 12 valueLen⟩, buffer.drop (12 + valueLen)))

/-- The loop of `FindInodeLegacy`. Every record takes bytes, so the length of the file
    bounds the rounds. -/
def searchLegacy (inodeId : UInt64) : Nat → Bytes → Except String (Option InodeAttr)
  | 0, _ => .ok none
  | rounds + 1, buffer =>
      match nextLegacy buffer with
      | .error e => .error e
      | .ok none => .ok none
      | .ok (some (view, rest)) =>
          if view.inodeId = inodeId then (decodeUnifiedInodeAttr view.payload).map some
          else if view.inodeId > inodeId then .ok none
          else searchLegacy inodeId rounds rest

def findInodeLegacy (files : ArchiveFiles) (file : ArchiveDataFile) (inodeId : UInt64) :
    Except String (Option InodeAttr) :=
  match files.lookup file.dataPath with
  | none => .error "failed to open archive inode data file"
  | some data => searchLegacy inodeId (data.length + 1) data

def findInodePaged (files : ArchiveFiles) (file : ArchiveDataFile) (inodeId : UInt64) :
    Except String (Option InodeAttr) :=
  if file.pageCount = 0 then .ok none
  else
    match ArchiveSparseIndex.lookupPage file.sparseIndex (encodeBe64 inodeId) with
    | none => .ok none
    | some pageId =>
        match readPage files file pageId with
        | .error e => .error e
        | .ok page =>
            match exactInode page inodeId with
            | none => .ok none
            | some view => (decodeUnifiedInodeAttr view.payload).map some

def findInode (files : ArchiveFiles) (file : ArchiveDataFile) (inodeId : UInt64) :
    Except String (Option InodeAttr) :=
  if inodeId = 0 ∨ file.kind ≠ .inode then .error "invalid inode lookup args"
  else if file.paged then findInodePaged files file inodeId
  else findInodeLegacy files file inodeId

/-! ## The inodes of a segment -/

/-- A record of the legacy layout behind whole records. -/
inductive LegacyRecord (inodeId : UInt64) : Bytes → Prop
  | here {buffer rest : Bytes} {view : InodeRecordView} :
      nextLegacy buffer = .ok (some (view, rest)) → view.inodeId = inodeId →
        LegacyRecord inodeId buffer
  | behind {buffer rest : Bytes} {view : InodeRecordView} :
      nextLegacy buffer = .ok (some (view, rest)) → LegacyRecord inodeId rest →
        LegacyRecord inodeId buffer

/-- The segment has a record of the inode. -/
def HasInode (files : ArchiveFiles) (file : ArchiveDataFile) (inodeId : UInt64) : Prop :=
  if file.paged then
    ∃ pageId page index view, readPage files file pageId = .ok page ∧
      parseInodeRecord page index = some view ∧ view.inodeId = inodeId
  else ∃ data, files.lookup file.dataPath = some data ∧ LegacyRecord inodeId data

variable {files : ArchiveFiles} {file : ArchiveDataFile} {inodeId : UInt64} {attr : InodeAttr}

theorem legacyRecord_of_search {rounds : Nat} {buffer : Bytes}
    (h : searchLegacy inodeId rounds buffer = .ok (some attr)) : LegacyRecord inodeId buffer := by
  induction rounds generalizing buffer with
  | zero => exact nomatch h
  | succ rounds ih =>
      rw [searchLegacy] at h
      split at h
      · exact nomatch h
      · exact nomatch h
      · rename_i view rest hnext
        split at h
        · rename_i hsame
          exact .here hnext hsame
        · split at h
          · exact nomatch h
          · exact .behind hnext (ih h)

/-- What is found has a record. -/
theorem hasInode_of_find (h : findInode files file inodeId = .ok (some attr)) :
    file.HasInode files inodeId := by
  rw [findInode] at h
  rw [HasInode]
  split at h
  · exact nomatch h
  split at h
  · rename_i hpaged
    rw [if_pos hpaged]
    rw [findInodePaged] at h
    repeat' split at h
    · exact nomatch h
    · exact nomatch h
    · exact nomatch h
    · exact nomatch h
    · rename_i pageId _ _ page hpage _ view hexact
      rw [exactInode] at hexact
      repeat' split at hexact
      · exact nomatch hexact
      · exact nomatch hexact
      · rename_i low _
        obtain ⟨hparse, hsame⟩ := Option.filter_eq_some_iff.mp hexact
        exact ⟨pageId, page, low, view, hpage, hparse, of_decide_eq_true hsame⟩
  · rename_i hpaged
    rw [if_neg hpaged]
    rw [findInodeLegacy] at h
    split at h
    · exact nomatch h
    · rename_i data hdata
      exact ⟨data, hdata, legacyRecord_of_search h⟩

end ArchiveDataFile

end Zb.Mds
