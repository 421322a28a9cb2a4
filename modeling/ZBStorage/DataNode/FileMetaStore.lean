-- SUMMARY: The stored file metadata of a node: a line of text a file, read back by a lenient and a strict loader.
import ZBStorage.DataNode.FileMetaTable
import ZBStorage.Lib.TableFill
import ZBStorage.Lib.TextFields

/-!
# The store of the file metadata

Every change of the file metadata writes the whole table: a line for each file, its
numbers and the transaction committed last separated by tabs. The transaction is the
text that the client sent, and it is written as it is. The loader of the real node
passes over the lines that it cannot read, the one of the virtual node refuses the file.
-/

namespace Zb.DataNode

open Bytes TextFields TableFill

/-! ## Rows -/

def tab : UInt8 := 9

def newline : UInt8 := 10

/-- A text that the rows can carry. -/
def Plain (text : Bytes) : Prop := tab ∉ text ∧ newline ∉ text

instance (text : Bytes) : Decidable (Plain text) := inferInstanceAs (Decidable (_ ∧ _))

theorem plain_decimal (n : Nat) : Plain (decimal n) :=
  ⟨notMem_decimal (by decide) n, notMem_decimal (by decide) n⟩

/-- A row of plain fields, of which the last one is not empty, is cut into them, -/
theorem getLines_fields {fields : List Bytes} {last : Bytes} (h : ∀ field ∈ fields, Plain field)
    (hlast : Plain last) (hne : last ≠ []) :
    getLines tab [] (fields.flatMap (· ++ [tab]) ++ last) = fields ++ [last] := by
  rw [getLines_flatMap_append fun field hmem => (h field hmem).1, getLines_last hlast.1 hne]

/-- and it is one line. -/
theorem newline_notMem_fields {fields : List Bytes} {last : Bytes}
    (h : ∀ field ∈ fields, Plain field) (hlast : Plain last) :
    newline ∉ fields.flatMap (· ++ [tab]) ++ last := by
  intro hmem
  rcases List.mem_append.mp hmem with hmem | hmem
  · obtain ⟨field, hfield, hbyte⟩ := List.mem_flatMap.mp hmem
    rcases List.mem_append.mp hbyte with hbyte | hbyte
    · exact (h field hfield).2 hbyte
    · exact absurd (List.mem_singleton.mp hbyte) (by decide)
  · exact hlast.2 hmem

/-- A file that was put on the node by hand, and whose content is generated. -/
structure PreloadedFileObjectInfo where
  homeDiskId : Bytes := []
  seed : UInt64 := 0
  deriving DecidableEq

/-- The tables of the node that are stored. A real node has no preloaded files. -/
structure StoredFiles where
  fileMetaByInode : AList (fun _ : UInt64 => FileMeta) := ∅
  lastCommitTxidByInode : AList (fun _ : UInt64 => Bytes) := ∅
  preloadedFileObjects : AList (fun _ : UInt64 => PreloadedFileObjectInfo) := ∅

structure FileRow where
  fileMeta : FileMeta
  txid : Option Bytes
  preload : Option PreloadedFileObjectInfo
  deriving DecidableEq

def StoredFiles.add (files : StoredFiles) (row : FileRow) : StoredFiles :=
  { fileMetaByInode := put files.fileMetaByInode row.fileMeta.inodeId (some row.fileMeta)
    lastCommitTxidByInode := put files.lastCommitTxidByInode row.fileMeta.inodeId row.txid
    preloadedFileObjects := put files.preloadedFileObjects row.fileMeta.inodeId row.preload }

abbrev FileOrder := RowOrder (Sigma fun _ : UInt64 => FileMeta)

def numbersText (inode : UInt64) (fileMeta : FileMeta) : Bytes :=
  ([inode, fileMeta.fileSize, fileMeta.objectUnitSize, fileMeta.version, fileMeta.mtimeSec,
    fileMeta.updateTsMs].map fun n => decimal n.toNat).flatMap (· ++ [tab])

def txidText (table : FileMetaTable) (inode : UInt64) : Bytes :=
  (table.lastCommitTxidByInode.lookup inode).getD []

/-- A field that may be left empty. -/
def nonEmpty (token : Option Bytes) : Option Bytes := token.filter fun text => text ≠ []

/-! ## The real node -/

namespace StorageServiceImpl

def rowText (table : FileMetaTable) (inode : UInt64) (fileMeta : FileMeta) : Bytes :=
  numbersText inode fileMeta ++ txidText table inode

/-- `PersistFileMetaStoreLocked`: the content of the file that it leaves. -/
def persistFileMetaStore (table : FileMetaTable) (order : FileOrder) : Bytes :=
  (order.arrange table.fileMetaByInode.entries).flatMap fun entry =>
    rowText table entry.1 entry.2 ++ [newline]

def parseRow (line : Bytes) : Option FileRow :=
  match getLines tab [] line with
  | inode :: size :: unit :: version :: mtime :: update :: rest =>
      if strtoull inode = 0 then none
      else
        some
          { fileMeta :=
              { inodeId := strtoull inode
                fileSize := strtoull size
                objectUnitSize := strtoull unit
                version := strtoull version
                mtimeSec := strtoull mtime
                updateTsMs := strtoull update }
            txid := nonEmpty rest[0]?
            preload := none }
  | _ => none

def addLine (files : StoredFiles) (line : Bytes) : StoredFiles :=
  match parseRow line with
  | none => files
  | some row => files.add row

/-- `LoadFileMetaStoreLocked`: a file that is not there is an empty table, and a line that
    cannot be read is passed over. -/
def loadFileMetaStore : Option Bytes → StoredFiles
  | none => {}
  | some text => (getLines newline [] text).foldl addLine {}

end StorageServiceImpl

/-! ## The virtual node -/

namespace VirtualStorageServiceImpl

def preloadText : Option PreloadedFileObjectInfo → Bytes
  | none => []
  | some preload => [tab] ++ preload.homeDiskId ++ [tab] ++ decimal preload.seed.toNat

def rowText (table : FileMetaTable)
    (preloaded : AList fun _ : UInt64 => PreloadedFileObjectInfo) (inode : UInt64)
    (fileMeta : FileMeta) : Bytes :=
  numbersText inode fileMeta ++ txidText table inode ++ preloadText (preloaded.lookup inode)

def persistFileMetaStore (table : FileMetaTable)
    (preloaded : AList fun _ : UInt64 => PreloadedFileObjectInfo) (order : FileOrder) : Bytes :=
  (order.arrange table.fileMetaByInode.entries).flatMap fun entry =>
    rowText table preloaded entry.1 entry.2 ++ [newline]

/-- The preload columns; a seed without a disk is refused. -/
def parsePreload (home seed : Option Bytes) : Option (Option PreloadedFileObjectInfo) :=
  match home, seed with
  | none, none => some none
  | some home, none => some (some { homeDiskId := home })
  | none, some _ => none
  | some home, some seed => (fromChars seed).map fun seed => some { homeDiskId := home, seed := seed }

def parseRow (line : Bytes) : Option FileRow :=
  match getLines tab [] line with
  | inode :: size :: unit :: version :: mtime :: update :: rest => do
      let inodeId ← fromChars inode
      let fileSize ← fromChars size
      let objectUnitSize ← fromChars unit
      let version ← fromChars version
      let mtimeSec ← fromChars mtime
      let updateTsMs ← fromChars update
      if inodeId = 0 ∨ objectUnitSize = 0 then none
      else
        let preload ← parsePreload (nonEmpty rest[1]?) (nonEmpty rest[2]?)
        some
          { fileMeta := { inodeId, fileSize, objectUnitSize, version, mtimeSec, updateTsMs }
            txid := nonEmpty rest[0]?
            preload }
  | _ => none

def invalidRow (path : String) (lineNumber : Nat) : String :=
  "invalid file meta row " ++ toString lineNumber ++ " in " ++ path

/-- The lines from `lineNumber` on, each of another file than the lines before it. -/
def loadLines (path : String) : Nat → List Bytes → StoredFiles → Except String StoredFiles
  | _, [], files => .ok files
  | lineNumber, line :: lines, files =>
      if line = [] then loadLines path (lineNumber + 1) lines files
      else
        match parseRow line with
        | none => .error (invalidRow path lineNumber)
        | some row =>
            if row.fileMeta.inodeId ∈ files.fileMetaByInode then
              .error (invalidRow path lineNumber)
            else loadLines path (lineNumber + 1) lines (files.add row)

def loadFileMetaStore (path : String) : Option Bytes → Except String StoredFiles
  | none => .ok {}
  | some text => loadLines path 1 (getLines newline [] text) {}

end VirtualStorageServiceImpl

/-! ## What is read back -/

namespace StoredFiles

/-- The same files with the same data. -/
structure Same (loaded files : StoredFiles) : Prop where
  metas : ∀ inode, loaded.fileMetaByInode.lookup inode = files.fileMetaByInode.lookup inode
  txids : ∀ inode,
    loaded.lastCommitTxidByInode.lookup inode = files.lastCommitTxidByInode.lookup inode
  preloads : ∀ inode,
    loaded.preloadedFileObjects.lookup inode = files.preloadedFileObjects.lookup inode

/-- What holds of the tables at all times: every entry has its file, and what a row cannot
    carry is not there, but for the transactions. -/
structure Sound (files : StoredFiles) : Prop where
  identity : ∀ inode fileMeta, files.fileMetaByInode.lookup inode = some fileMeta →
    fileMeta.inodeId = inode ∧ inode ≠ 0
  txid : ∀ inode txid, files.lastCommitTxidByInode.lookup inode = some txid →
    txid ≠ [] ∧ inode ∈ files.fileMetaByInode
  preload : ∀ inode preload, files.preloadedFileObjects.lookup inode = some preload →
    preload.homeDiskId ≠ [] ∧ Plain preload.homeDiskId ∧ inode ∈ files.fileMetaByInode

/-- Every file has an object size. -/
def Sized (files : StoredFiles) : Prop :=
  ∀ inode fileMeta, files.fileMetaByInode.lookup inode = some fileMeta →
    fileMeta.objectUnitSize ≠ 0

/-- No transaction breaks a row. -/
def PlainTxids (files : StoredFiles) : Prop :=
  ∀ inode txid, files.lastCommitTxidByInode.lookup inode = some txid → Plain txid

def row (files : StoredFiles) (inode : UInt64) (fileMeta : FileMeta) : FileRow :=
  { fileMeta := fileMeta
    txid := files.lastCommitTxidByInode.lookup inode
    preload := files.preloadedFileObjects.lookup inode }

def addAll (files : StoredFiles) (rows : List FileRow) : StoredFiles := rows.foldl add files

variable {files loaded : StoredFiles} {rows : List FileRow}

theorem addAll_eq (files : StoredFiles) (rows : List FileRow) :
    files.addAll rows =
      { fileMetaByInode := fill (·.fileMeta.inodeId) (some ·.fileMeta) rows files.fileMetaByInode
        lastCommitTxidByInode :=
          fill (·.fileMeta.inodeId) (·.txid) rows files.lastCommitTxidByInode
        preloadedFileObjects :=
          fill (·.fileMeta.inodeId) (·.preload) rows files.preloadedFileObjects } := by
  induction rows generalizing files with
  | nil => rfl
  | cons row rows ih =>
      rw [addAll, List.foldl_cons, ← addAll, ih]
      rfl

/-- The rows of all the files, in any order, make the same tables. -/
theorem Sound.addAll_same (h : files.Sound) (order : FileOrder) :
    (({} : StoredFiles).addAll ((order.arrange files.fileMetaByInode.entries).map fun entry =>
      files.row entry.1 entry.2)).Same files := by
  have hperm := order.perm files.fileMetaByInode.entries
  have hkey : ((order.arrange files.fileMetaByInode.entries).map fun entry =>
      files.row entry.1 entry.2).map (·.fileMeta.inodeId) =
        (order.arrange files.fileMetaByInode.entries).map Sigma.fst := by
    rw [List.map_map]
    refine List.map_congr_left fun entry hmem => ?_
    exact (h.identity entry.1 entry.2 (AList.mem_lookup_iff.mpr (hperm.mem_iff.mp hmem))).1
  have hnodup : (((order.arrange files.fileMetaByInode.entries).map fun entry =>
      files.row entry.1 entry.2).map (·.fileMeta.inodeId)).Nodup := by
    rw [hkey]
    exact (hperm.map Sigma.fst).nodup_iff.mpr files.fileMetaByInode.nodupKeys
  rw [addAll_eq]
  have hfound (inode : UInt64) (hmem : inode ∈ files.fileMetaByInode) :
      ∃ fileMeta, files.fileMetaByInode.lookup inode = some fileMeta ∧
        fileMeta.inodeId = inode ∧
          files.row inode fileMeta ∈ (order.arrange files.fileMetaByInode.entries).map fun entry =>
            files.row entry.1 entry.2 := by
    obtain ⟨fileMeta, hlookup⟩ := Option.isSome_iff_exists.mp (AList.lookup_isSome.mpr hmem)
    have hentry := hperm.mem_iff.mpr (AList.mem_lookup_iff.mp hlookup)
    exact ⟨fileMeta, hlookup, (h.identity inode fileMeta hlookup).1,
      List.mem_map_of_mem (f := fun entry => files.row entry.1 entry.2) hentry⟩
  have hmissing (inode : UInt64) (hmem : inode ∉ files.fileMetaByInode) :
      inode ∉ ((order.arrange files.fileMetaByInode.entries).map fun entry =>
        files.row entry.1 entry.2).map (·.fileMeta.inodeId) := by
    rw [hkey]
    exact fun hin => hmem (AList.mem_keys.mpr ((hperm.map Sigma.fst).mem_iff.mp hin))
  refine ⟨fun inode => ?_, fun inode => ?_, fun inode => ?_⟩
  · by_cases hmem : inode ∈ files.fileMetaByInode
    · obtain ⟨fileMeta, hlookup, rfl, hrow⟩ := hfound inode hmem
      exact (lookup_fill hnodup hrow).trans hlookup.symm
    · rw [lookup_fill_of_notMem (hmissing inode hmem), AList.lookup_eq_none.mpr hmem]
      rfl
  · by_cases hmem : inode ∈ files.fileMetaByInode
    · obtain ⟨fileMeta, hlookup, rfl, hrow⟩ := hfound inode hmem
      exact (lookup_fill hnodup hrow).trans (Option.or_none)
    · rw [lookup_fill_of_notMem (hmissing inode hmem)]
      exact (Option.eq_none_iff_forall_not_mem.mpr fun txid hlookup =>
        hmem (h.txid inode txid hlookup).2).symm
  · by_cases hmem : inode ∈ files.fileMetaByInode
    · obtain ⟨fileMeta, hlookup, rfl, hrow⟩ := hfound inode hmem
      exact (lookup_fill hnodup hrow).trans (Option.or_none)
    · rw [lookup_fill_of_notMem (hmissing inode hmem)]
      exact (Option.eq_none_iff_forall_not_mem.mpr fun preload hlookup =>
        hmem (h.preload inode preload hlookup).2.2).symm

theorem Same.symm_plainTxids (h : loaded.Same files) (hplain : loaded.PlainTxids) :
    files.PlainTxids := fun inode txid hlookup =>
  hplain inode txid ((h.txids inode).trans hlookup)

theorem Same.refl (files : StoredFiles) : files.Same files := ⟨fun _ => rfl, fun _ => rfl, fun _ => rfl⟩

end StoredFiles

/-! ## Writing and reading a row -/

section Row

variable {table : FileMetaTable} {inode : UInt64} {fileMeta : FileMeta} {files : StoredFiles}
  {preload : Option PreloadedFileObjectInfo} {order : FileOrder} {rest : Bytes}

theorem getLines_numbersText (inode : UInt64) (fileMeta : FileMeta) (rest : Bytes) :
    getLines tab [] (numbersText inode fileMeta ++ rest) =
      decimal inode.toNat :: decimal fileMeta.fileSize.toNat ::
        decimal fileMeta.objectUnitSize.toNat :: decimal fileMeta.version.toNat ::
          decimal fileMeta.mtimeSec.toNat :: decimal fileMeta.updateTsMs.toNat ::
            getLines tab [] rest := by
  refine getLines_flatMap_append fun field hmem => ?_
  obtain ⟨n, -, rfl⟩ := List.mem_map.mp hmem
  exact notMem_decimal (by decide) n.toNat

theorem newline_notMem_numbersText : newline ∉ numbersText inode fileMeta := by
  have hfields := @newline_notMem_fields ([inode, fileMeta.fileSize, fileMeta.objectUnitSize,
    fileMeta.version, fileMeta.mtimeSec, fileMeta.updateTsMs].map fun n => decimal n.toNat) []
    (fun field hmem => by
      obtain ⟨n, -, rfl⟩ := List.mem_map.mp hmem
      exact plain_decimal n.toNat)
    ⟨List.not_mem_nil, List.not_mem_nil⟩
  rwa [List.append_nil] at hfields

theorem nonEmpty_some {text : Bytes} (h : text ≠ []) : nonEmpty (some text) = some text :=
  Option.filter_some_pos (decide_eq_true h)

theorem nonEmpty_eq_some {token : Option Bytes} {text : Bytes} :
    nonEmpty token = some text ↔ token = some text ∧ text ≠ [] := by
  rw [nonEmpty, Option.filter_eq_some_iff, decide_eq_true_eq]

theorem plain_txidText
    (h : ∀ txid, table.lastCommitTxidByInode.lookup inode = some txid → Plain txid) :
    Plain (txidText table inode) := by
  unfold txidText
  cases hlookup : table.lastCommitTxidByInode.lookup inode with
  | none => exact ⟨List.not_mem_nil, List.not_mem_nil⟩
  | some txid => exact h txid hlookup

theorem nonEmpty_txidText
    (h : ∀ txid, table.lastCommitTxidByInode.lookup inode = some txid → txid ≠ []) :
    nonEmpty (some (txidText table inode)) = table.lastCommitTxidByInode.lookup inode := by
  unfold txidText
  cases hlookup : table.lastCommitTxidByInode.lookup inode with
  | none => rfl
  | some txid => exact nonEmpty_some (h txid hlookup)

/-- The last field of a row, when nothing follows it. -/
theorem nonEmpty_getLines_txidText
    (h : ∀ txid, table.lastCommitTxidByInode.lookup inode = some txid → txid ≠ [] ∧ Plain txid) :
    nonEmpty (getLines tab [] (txidText table inode))[0]? =
        table.lastCommitTxidByInode.lookup inode ∧
      (getLines tab [] (txidText table inode)).length ≤ 1 := by
  by_cases hempty : txidText table inode = []
  · rw [← nonEmpty_txidText fun txid hlookup => (h txid hlookup).1, hempty]
    exact ⟨rfl, Nat.zero_le 1⟩
  · rw [getLines_last (plain_txidText fun txid hlookup => (h txid hlookup).2).1 hempty]
    exact ⟨nonEmpty_txidText fun txid hlookup => (h txid hlookup).1, Nat.le_refl 1⟩

theorem StorageServiceImpl.parseRow_rowText (hidentity : fileMeta.inodeId = inode) (hinode : inode ≠ 0)
    (htxid : ∀ txid, table.lastCommitTxidByInode.lookup inode = some txid →
      txid ≠ [] ∧ Plain txid) :
    parseRow (rowText table inode fileMeta) =
      some { fileMeta := fileMeta, txid := table.lastCommitTxidByInode.lookup inode,
             preload := none } := by
  subst hidentity
  rw [parseRow, rowText, getLines_numbersText]
  dsimp only
  simp only [strtoull_decimal]
  rw [if_neg hinode, (nonEmpty_getLines_txidText htxid).1]

theorem StorageServiceImpl.newline_notMem_rowText
    (htxid : ∀ txid, table.lastCommitTxidByInode.lookup inode = some txid → Plain txid) :
    newline ∉ rowText table inode fileMeta := by
  rw [rowText, List.mem_append, not_or]
  exact ⟨newline_notMem_numbersText, (plain_txidText htxid).2⟩

namespace VirtualStorageServiceImpl

theorem getLines_preloadText {txid : Bytes} {preload : PreloadedFileObjectInfo}
    (htxid : tab ∉ txid) (hhome : tab ∉ preload.homeDiskId) :
    getLines tab [] (txid ++ preloadText (some preload)) =
      [txid, preload.homeDiskId, decimal preload.seed.toNat] := by
  have hclean : ∀ field ∈ [txid, preload.homeDiskId], tab ∉ field := by
    intro field hmem
    rcases List.mem_cons.mp hmem with rfl | hmem
    · exact htxid
    · rwa [List.mem_singleton.mp hmem]
  have hfields := @getLines_flatMap_append tab (decimal preload.seed.toNat) _ hclean
  rw [getLines_last (notMem_decimal (by decide) _) (decimal_ne_nil _)] at hfields
  have hjoin : txid ++ preloadText (some preload) =
      [txid, preload.homeDiskId].flatMap (· ++ [tab]) ++ decimal preload.seed.toNat := by
    simp only [preloadText, List.flatMap_cons, List.flatMap_nil, List.append_assoc,
      List.append_nil]
  rw [hjoin, hfields]
  rfl

/-- The three columns behind the numbers. -/
theorem columns_rowText
    (htxid : ∀ txid, table.lastCommitTxidByInode.lookup inode = some txid →
      txid ≠ [] ∧ Plain txid)
    (hpreload : ∀ info ∈ preload, info.homeDiskId ≠ [] ∧ Plain info.homeDiskId) :
    let columns := getLines tab [] (txidText table inode ++ preloadText preload)
    nonEmpty columns[0]? = table.lastCommitTxidByInode.lookup inode ∧
      parsePreload (nonEmpty columns[1]?) (nonEmpty columns[2]?) = some preload := by
  have hplain := plain_txidText fun txid hlookup => (htxid txid hlookup).2
  cases preload with
  | none =>
      obtain ⟨htext, hlength⟩ := nonEmpty_getLines_txidText htxid
      rw [preloadText, List.append_nil]
      dsimp only
      rw [List.getElem?_eq_none hlength, List.getElem?_eq_none (Nat.le_succ_of_le hlength)]
      exact ⟨htext, rfl⟩
  | some info =>
      obtain ⟨hhome, hclean⟩ := hpreload info rfl
      rw [getLines_preloadText hplain.1 hclean.1]
      refine ⟨nonEmpty_txidText fun txid hlookup => (htxid txid hlookup).1, ?_⟩
      show parsePreload (nonEmpty (some info.homeDiskId))
        (nonEmpty (some (decimal info.seed.toNat))) = some (some info)
      rw [nonEmpty_some hhome, nonEmpty_some (decimal_ne_nil _), parsePreload, fromChars_decimal]
      rfl

theorem parseRow_rowText {preloaded : AList fun _ : UInt64 => PreloadedFileObjectInfo}
    (hidentity : fileMeta.inodeId = inode) (hinode : inode ≠ 0)
    (hunit : fileMeta.objectUnitSize ≠ 0)
    (htxid : ∀ txid, table.lastCommitTxidByInode.lookup inode = some txid →
      txid ≠ [] ∧ Plain txid)
    (hpreload : ∀ info, preloaded.lookup inode = some info →
      info.homeDiskId ≠ [] ∧ Plain info.homeDiskId) :
    parseRow (rowText table preloaded inode fileMeta) =
      some { fileMeta := fileMeta, txid := table.lastCommitTxidByInode.lookup inode,
             preload := preloaded.lookup inode } := by
  subst hidentity
  obtain ⟨hcolumn, hparse⟩ := columns_rowText htxid hpreload
  rw [parseRow, rowText, List.append_assoc, getLines_numbersText]
  dsimp only
  simp only [fromChars_decimal, Option.bind_eq_bind, Option.bind_some]
  rw [if_neg (not_or.mpr ⟨hinode, hunit⟩), hparse, hcolumn]
  rfl

theorem newline_notMem_rowText {preloaded : AList fun _ : UInt64 => PreloadedFileObjectInfo}
    (htxid : ∀ txid, table.lastCommitTxidByInode.lookup inode = some txid → Plain txid)
    (hpreload : ∀ info, preloaded.lookup inode = some info → Plain info.homeDiskId) :
    newline ∉ rowText table preloaded inode fileMeta := by
  rw [rowText, List.mem_append, List.mem_append, not_or, not_or]
  refine ⟨⟨newline_notMem_numbersText, (plain_txidText htxid).2⟩, ?_⟩
  cases hlookup : preloaded.lookup inode with
  | none => exact List.not_mem_nil
  | some info =>
      have htab : newline ∉ [tab] := by decide
      rw [preloadText, List.mem_append, List.mem_append, List.mem_append, not_or, not_or, not_or]
      exact ⟨⟨⟨htab, (hpreload info hlookup).2⟩, htab⟩, notMem_decimal (by decide) _⟩

theorem rowText_ne_nil {preloaded : AList fun _ : UInt64 => PreloadedFileObjectInfo} :
    rowText table preloaded inode fileMeta ≠ [] := by
  intro h
  have hfirst := getLines_numbersText inode fileMeta []
  rw [rowText, List.append_eq_nil_iff, List.append_eq_nil_iff] at h
  rw [h.1.1] at hfirst
  cases hfirst

end VirtualStorageServiceImpl

end Row

/-! ## Writing and reading the table -/

/-- What the node has in memory. -/
def FileMetaTable.files (table : FileMetaTable)
    (preloaded : AList fun _ : UInt64 => PreloadedFileObjectInfo) : StoredFiles :=
  { fileMetaByInode := table.fileMetaByInode
    lastCommitTxidByInode := table.lastCommitTxidByInode
    preloadedFileObjects := preloaded }

section Table

variable {table : FileMetaTable} {preloaded : AList fun _ : UInt64 => PreloadedFileObjectInfo}
  {files : StoredFiles} {order : FileOrder} {row : FileRow} {rows : List FileRow}
  {text line : Bytes} {stored : Option Bytes} {path : String}

theorem StoredFiles.Sound.ofEntry (h : files.Sound) {entry : Sigma fun _ : UInt64 => FileMeta}
    (hmem : entry ∈ order.arrange files.fileMetaByInode.entries) :
    files.fileMetaByInode.lookup entry.1 = some entry.2 ∧ entry.2.inodeId = entry.1 ∧
      entry.1 ≠ 0 := by
  have hlookup := AList.mem_lookup_iff.mpr ((order.perm _).mem_iff.mp hmem)
  exact ⟨hlookup, h.identity entry.1 entry.2 hlookup⟩

theorem StoredFiles.Sound.plainTxid (h : files.Sound) (hplain : files.PlainTxids)
    (inode : UInt64) (txid : Bytes) (hlookup : files.lastCommitTxidByInode.lookup inode = some txid) :
    txid ≠ [] ∧ Plain txid := ⟨(h.txid inode txid hlookup).1, hplain inode txid hlookup⟩

theorem getLines_rows {entries : List (Sigma fun _ : UInt64 => FileMeta)}
    {text : (Sigma fun _ : UInt64 => FileMeta) → Bytes}
    (h : ∀ entry ∈ entries, newline ∉ text entry) :
    getLines newline [] (entries.flatMap fun entry => text entry ++ [newline]) =
      entries.map text := by
  have hclean : ∀ line ∈ entries.map text, newline ∉ line := by
    intro line hmem
    obtain ⟨entry, hentry, rfl⟩ := List.mem_map.mp hmem
    exact h entry hentry
  rw [← getLines_flatMap hclean, List.flatMap_map]

namespace StorageServiceImpl

/-- The real node reads back what it wrote, when no transaction breaks a row. -/
theorem load_persist (hsound : (table.files ∅).Sound) (hplain : (table.files ∅).PlainTxids) :
    (loadFileMetaStore (some (persistFileMetaStore table order))).Same (table.files ∅) := by
  have hsame := hsound.addAll_same order
  rw [StoredFiles.addAll, List.foldl_map] at hsame
  rw [loadFileMetaStore, persistFileMetaStore, getLines_rows fun entry _ =>
    newline_notMem_rowText fun txid => hplain entry.1 txid, List.foldl_map]
  rw [List.foldl_ext _ _ _ fun loaded entry hmem => by
    obtain ⟨-, hidentity, hinode⟩ := hsound.ofEntry hmem
    exact congrArg (fun row => match row with | none => loaded | some row => loaded.add row)
      (parseRow_rowText hidentity hinode fun txid => hsound.plainTxid hplain entry.1 txid)]
  exact hsame

end StorageServiceImpl

namespace VirtualStorageServiceImpl

/-- The strict loader takes rows of different files one after another. -/
theorem loadLines_rows {entries : List (Sigma fun _ : UInt64 => FileMeta)}
    {text : (Sigma fun _ : UInt64 => FileMeta) → Bytes}
    {row : (Sigma fun _ : UInt64 => FileMeta) → FileRow}
    (hparse : ∀ entry ∈ entries, text entry ≠ [] ∧ parseRow (text entry) = some (row entry))
    (hnodup : (entries.map fun entry => (row entry).fileMeta.inodeId).Nodup)
    (hnew : ∀ entry ∈ entries, (row entry).fileMeta.inodeId ∉ files.fileMetaByInode)
    (lineNumber : Nat) :
    loadLines path lineNumber (entries.map text) files = .ok (files.addAll (entries.map row)) := by
  induction entries generalizing files lineNumber with
  | nil => rfl
  | cons entry entries ih =>
      obtain ⟨hne, hrow⟩ := hparse entry List.mem_cons_self
      rw [List.map_cons, List.nodup_cons] at hnodup
      rw [List.map_cons, loadLines, if_neg hne, hrow]
      dsimp only
      rw [if_neg (hnew entry List.mem_cons_self), List.map_cons]
      refine ih (fun other hmem => hparse other (List.mem_cons_of_mem _ hmem)) hnodup.2
        (fun other hmem hin => ?_) (lineNumber + 1)
      rcases AList.mem_insert _ |>.mp hin with heq | hin
      · exact hnodup.1 (heq ▸ List.mem_map_of_mem hmem)
      · exact hnew other (List.mem_cons_of_mem _ hmem) hin

/-- So does the virtual node. -/
theorem load_persist (hsound : (table.files preloaded).Sound)
    (hsized : (table.files preloaded).Sized) (hplain : (table.files preloaded).PlainTxids) :
    ∃ loaded, loadFileMetaStore path (some (persistFileMetaStore table preloaded order)) =
      .ok loaded ∧ loaded.Same (table.files preloaded) := by
  have hpreload (inode : UInt64) (info : PreloadedFileObjectInfo)
      (hlookup : preloaded.lookup inode = some info) :
      info.homeDiskId ≠ [] ∧ Plain info.homeDiskId :=
    ⟨(hsound.preload inode info hlookup).1, (hsound.preload inode info hlookup).2.1⟩
  refine ⟨_, ?_, hsound.addAll_same order⟩
  rw [loadFileMetaStore, persistFileMetaStore, getLines_rows fun entry _ =>
    newline_notMem_rowText (fun txid => hplain entry.1 txid)
      fun info hlookup => (hpreload entry.1 info hlookup).2]
  refine loadLines_rows (fun entry hmem => ⟨rowText_ne_nil, ?_⟩) ?_ (fun _ _ => AList.notMem_empty _) 1
  · obtain ⟨hlookup, hidentity, hinode⟩ := hsound.ofEntry hmem
    exact parseRow_rowText hidentity hinode (hsized entry.1 entry.2 hlookup)
      (fun txid => hsound.plainTxid hplain entry.1 txid) (hpreload entry.1)
  · have hkeys : (order.arrange table.fileMetaByInode.entries).map
        (fun entry => ((table.files preloaded).row entry.1 entry.2).fileMeta.inodeId) =
          (order.arrange table.fileMetaByInode.entries).map Sigma.fst :=
      List.map_congr_left fun entry hmem => (hsound.ofEntry hmem).2.1
    exact hkeys ▸ ((order.perm _).map Sigma.fst).nodup_iff.mpr table.fileMetaByInode.nodupKeys

end VirtualStorageServiceImpl

/-! ## What can be read -/

/-- What a line can say, whatever the text. -/
structure FileRow.Good (row : FileRow) : Prop where
  inode : row.fileMeta.inodeId ≠ 0
  txid : ∀ txid, row.txid = some txid → txid ≠ []
  preload : ∀ info, row.preload = some info → info.homeDiskId ≠ [] ∧ Plain info.homeDiskId

def FileRow.PlainTxid (row : FileRow) : Prop := ∀ txid, row.txid = some txid → Plain txid

theorem plain_field {field : Bytes} (hline : line ∈ getLines newline [] text)
    (h : field ∈ getLines tab [] line) : Plain field := by
  have hnewline : newline ∉ line := notMem_of_mem_getLines List.not_mem_nil hline
  refine ⟨notMem_of_mem_getLines List.not_mem_nil h, fun hmem => ?_⟩
  exact hnewline ((mem_of_mem_getLines h hmem).resolve_left List.not_mem_nil)

/-- The fields behind the numbers. -/
theorem good_nonEmpty {fields rest : List Bytes} {i : Nat} {field : Bytes}
    (hline : line ∈ getLines newline [] text) (hfields : getLines tab [] line = fields ++ rest)
    (h : nonEmpty rest[i]? = some field) : field ≠ [] ∧ Plain field := by
  obtain ⟨hfield, hne⟩ := nonEmpty_eq_some.mp h
  have hmem : field ∈ getLines tab [] line :=
    hfields ▸ List.mem_append_right fields (List.mem_of_getElem? hfield)
  exact ⟨hne, plain_field hline hmem⟩

theorem StorageServiceImpl.good_parseRow (hline : line ∈ getLines newline [] text)
    (h : parseRow line = some row) : row.Good ∧ row.PlainTxid ∧ row.preload = none := by
  unfold parseRow at h
  split at h
  · rename_i inode size unit version mtime update rest hfields
    split at h
    · cases h
    · rename_i hinode
      cases h
      have hsplit : getLines tab [] line = [inode, size, unit, version, mtime, update] ++ rest :=
        hfields
      exact ⟨⟨hinode, fun txid htxid => (good_nonEmpty hline hsplit htxid).1, nofun⟩,
        fun txid htxid => (good_nonEmpty hline hsplit htxid).2, rfl⟩
  · cases h

theorem VirtualStorageServiceImpl.parsePreload_home {home seed : Option Bytes}
    {info : PreloadedFileObjectInfo} (h : parsePreload home seed = some (some info)) :
    home = some info.homeDiskId := by
  unfold parsePreload at h
  split at h
  · cases h
  · cases h
    rfl
  · cases h
  · obtain ⟨n, -, hinfo⟩ := Option.map_eq_some_iff.mp h
    cases hinfo
    rfl

theorem VirtualStorageServiceImpl.good_parseRow (hline : line ∈ getLines newline [] text)
    (h : parseRow line = some row) :
    row.Good ∧ row.PlainTxid ∧ row.fileMeta.objectUnitSize ≠ 0 := by
  unfold parseRow at h
  split at h
  · rename_i inode size unit version mtime update rest hfields
    have hsplit : getLines tab [] line = [inode, size, unit, version, mtime, update] ++ rest :=
      hfields
    simp only [Option.bind_eq_bind, Option.bind_eq_some_iff] at h
    obtain ⟨inodeId, -, fileSize, -, objectUnitSize, -, version, -, mtimeSec, -, updateTsMs, -, h⟩ := h
    split at h
    · cases h
    · rename_i hzero
      rw [not_or] at hzero
      obtain ⟨preload, hpreload, hrow⟩ := Option.bind_eq_some_iff.mp h
      cases hrow
      refine ⟨⟨hzero.1, fun txid htxid => (good_nonEmpty hline hsplit htxid).1, fun info hinfo => ?_⟩,
        fun txid htxid => (good_nonEmpty hline hsplit htxid).2, hzero.2⟩
      cases hinfo
      exact good_nonEmpty hline hsplit (parsePreload_home hpreload)
  · cases h

namespace StoredFiles

theorem mem_add {inode : UInt64} :
    inode ∈ (files.add row).fileMetaByInode ↔
      inode = row.fileMeta.inodeId ∨ inode ∈ files.fileMetaByInode := AList.mem_insert _

theorem Sound.add (h : files.Sound) (hrow : row.Good) : (files.add row).Sound where
  identity inode fileMeta hlookup := by
    by_cases heq : inode = row.fileMeta.inodeId
    · subst heq
      have hfound := (lookup_put row.fileMeta.inodeId (some row.fileMeta)).symm.trans hlookup
      cases Option.some.inj hfound
      exact ⟨rfl, hrow.inode⟩
    · exact h.identity inode fileMeta ((lookup_put_ne heq (some row.fileMeta)).symm.trans hlookup)
  txid inode txid hlookup := by
    by_cases heq : inode = row.fileMeta.inodeId
    · subst heq
      have hfound := (lookup_put row.fileMeta.inodeId row.txid).symm.trans hlookup
      refine ⟨?_, mem_add.mpr (.inl rfl)⟩
      rcases Option.or_eq_some_iff.mp hfound with htxid | ⟨-, hold⟩
      · exact hrow.txid txid htxid
      · exact (h.txid _ txid hold).1
    · have hold := h.txid inode txid ((lookup_put_ne heq row.txid).symm.trans hlookup)
      exact ⟨hold.1, mem_add.mpr (.inr hold.2)⟩
  preload inode info hlookup := by
    by_cases heq : inode = row.fileMeta.inodeId
    · subst heq
      have hfound := (lookup_put row.fileMeta.inodeId row.preload).symm.trans hlookup
      rcases Option.or_eq_some_iff.mp hfound with hinfo | ⟨-, hold⟩
      · have hgood := hrow.preload info hinfo
        exact ⟨hgood.1, hgood.2, mem_add.mpr (.inl rfl)⟩
      · have hgood := h.preload _ info hold
        exact ⟨hgood.1, hgood.2.1, mem_add.mpr (.inl rfl)⟩
    · have hold := h.preload inode info ((lookup_put_ne heq row.preload).symm.trans hlookup)
      exact ⟨hold.1, hold.2.1, mem_add.mpr (.inr hold.2.2)⟩

theorem PlainTxids.add (h : files.PlainTxids) (hrow : row.PlainTxid) : (files.add row).PlainTxids := by
  intro inode txid hlookup
  by_cases heq : inode = row.fileMeta.inodeId
  · subst heq
    have hfound := (lookup_put row.fileMeta.inodeId row.txid).symm.trans hlookup
    rcases Option.or_eq_some_iff.mp hfound with htxid | ⟨-, hold⟩
    · exact hrow txid htxid
    · exact h _ txid hold
  · exact h inode txid ((lookup_put_ne heq row.txid).symm.trans hlookup)

theorem lookup_erase_eq_some {α β : Type} [DecidableEq α] {rows : AList fun _ : α => β} {inode other : α}
    {value : β} (h : (rows.erase inode).lookup other = some value) :
    other ≠ inode ∧ rows.lookup other = some value := by
  have hne : other ≠ inode := fun heq =>
    Option.some_ne_none value (h.symm.trans (heq ▸ AList.lookup_erase inode rows))
  exact ⟨hne, (AList.lookup_erase_ne hne).symm.trans h⟩

/-- Taking a file away takes all its rows away. -/
theorem Sound.erase (h : files.Sound) (inode : UInt64) :
    (StoredFiles.mk (files.fileMetaByInode.erase inode) (files.lastCommitTxidByInode.erase inode)
      (files.preloadedFileObjects.erase inode)).Sound where
  identity other fileMeta hlookup := h.identity other fileMeta (lookup_erase_eq_some hlookup).2
  txid other txid hlookup := by
    obtain ⟨hne, hold⟩ := lookup_erase_eq_some hlookup
    obtain ⟨htxid, hmem⟩ := h.txid other txid hold
    exact ⟨htxid, AList.mem_erase.mpr ⟨hne, hmem⟩⟩
  preload other info hlookup := by
    obtain ⟨hne, hold⟩ := lookup_erase_eq_some hlookup
    obtain ⟨hdisk, hplain, hmem⟩ := h.preload other info hold
    exact ⟨hdisk, hplain, AList.mem_erase.mpr ⟨hne, hmem⟩⟩

theorem Sized.add (h : files.Sized) (hrow : row.fileMeta.objectUnitSize ≠ 0) :
    (files.add row).Sized := by
  intro inode fileMeta hlookup
  by_cases heq : inode = row.fileMeta.inodeId
  · subst heq
    have hfound := (lookup_put row.fileMeta.inodeId (some row.fileMeta)).symm.trans hlookup
    cases Option.some.inj hfound
    exact hrow
  · exact h inode fileMeta ((lookup_put_ne heq (some row.fileMeta)).symm.trans hlookup)

theorem sound_empty : ({} : StoredFiles).Sound := ⟨nofun, nofun, nofun⟩

theorem plainTxids_empty : ({} : StoredFiles).PlainTxids := nofun

theorem sized_empty : ({} : StoredFiles).Sized := nofun

end StoredFiles

namespace StorageServiceImpl

/-- Whatever file the real node finds, no transaction that it reads breaks a row. -/
theorem load_sound (stored : Option Bytes) :
    (loadFileMetaStore stored).Sound ∧ (loadFileMetaStore stored).PlainTxids ∧
      (loadFileMetaStore stored).preloadedFileObjects = ∅ := by
  have hempty := And.intro StoredFiles.sound_empty (And.intro StoredFiles.plainTxids_empty
    (rfl : ({} : StoredFiles).preloadedFileObjects = ∅))
  cases stored with
  | none => exact hempty
  | some text =>
      have hfold (lines : List Bytes) (hlines : ∀ line ∈ lines, line ∈ getLines newline [] text)
          (files : StoredFiles)
          (hfiles : files.Sound ∧ files.PlainTxids ∧ files.preloadedFileObjects = ∅) :
          (lines.foldl addLine files).Sound ∧ (lines.foldl addLine files).PlainTxids ∧
            (lines.foldl addLine files).preloadedFileObjects = ∅ := by
        induction lines generalizing files with
        | nil => exact hfiles
        | cons line lines ih =>
            refine ih (fun line hmem => hlines line (List.mem_cons_of_mem _ hmem)) _ ?_
            unfold addLine
            split
            · exact hfiles
            · rename_i row hrow
              obtain ⟨hgood, hplain, hnone⟩ :=
                good_parseRow (hlines line List.mem_cons_self) hrow
              refine ⟨hfiles.1.add hgood, hfiles.2.1.add hplain, ?_⟩
              rw [StoredFiles.add, hnone]
              exact hfiles.2.2
      exact hfold _ (fun _ => id) {} hempty

end StorageServiceImpl

namespace VirtualStorageServiceImpl

theorem loadLines_sound {lines : List Bytes} {lineNumber : Nat} {loaded : StoredFiles}
    (hlines : ∀ line ∈ lines, line ∈ getLines newline [] text)
    (hfiles : files.Sound ∧ files.PlainTxids ∧ files.Sized)
    (h : loadLines path lineNumber lines files = .ok loaded) :
    loaded.Sound ∧ loaded.PlainTxids ∧ loaded.Sized := by
  induction lines generalizing files lineNumber with
  | nil =>
      cases h
      exact hfiles
  | cons line lines ih =>
      have hrest := fun line hmem => hlines line (List.mem_cons_of_mem _ hmem)
      rw [loadLines] at h
      split at h
      · exact ih hrest hfiles h
      · split at h
        · cases h
        · rename_i row hrow
          split at h
          · cases h
          · obtain ⟨hgood, hplain, hunit⟩ := good_parseRow (hlines line List.mem_cons_self) hrow
            exact ih hrest ⟨hfiles.1.add hgood, hfiles.2.1.add hplain, hfiles.2.2.add hunit⟩ h

theorem load_sound {loaded : StoredFiles} (h : loadFileMetaStore path stored = .ok loaded) :
    loaded.Sound ∧ loaded.PlainTxids ∧ loaded.Sized := by
  have hempty := And.intro StoredFiles.sound_empty
    (And.intro StoredFiles.plainTxids_empty StoredFiles.sized_empty)
  cases stored with
  | none =>
      cases h
      exact hempty
  | some text => exact loadLines_sound (fun _ => id) hempty h

end VirtualStorageServiceImpl

end Table

end Zb.DataNode
