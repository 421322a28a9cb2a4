-- SUMMARY: The ranges that data nodes accept and answer with: when every byte has its own place in the objects.
import ZBStorage.DataNode.FileObjects

/-!
# Ranges of a file and slices of its objects

A node that accepts a range of a file answers with the slices of the objects that
hold it. The byte at a position belongs to the object whose index is the quotient by
the unit, at the remainder. Two things can go wrong at the top: the end of the last
object need not fit into 64 bits, and then the slice is lost; and the index of an
object is kept in 32 bits, so that far away objects share an identifier. A virtual
node refuses the ranges where this happens, a real node does not.
-/

namespace Zb.DataNode

open Bytes BlockBytes

/-- A range that a node was asked for, with the unit of the file. -/
structure FileRange where
  inodeId : UInt64
  offset : Nat
  size : Nat
  unit : Nat
  diskId : Bytes
  deriving DecidableEq

namespace FileRange

variable (range : FileRange)

/-- The index of the object that holds the last byte. -/
def endIndex : Nat := (range.offset + range.size - 1) / range.unit

/-- All the slices of the range. -/
def slices : List FileObjectSlice :=
  VirtualStorageServiceImpl.buildObjectSlices range.inodeId range.offset range.size range.unit
    range.diskId

/-- What the loops of both nodes put into a slice. -/
def cut (i objectStart segStart segEnd : Nat) : Option FileObjectSlice :=
  if segEnd ≤ segStart then none
  else
    some
      { objectIndex := UInt32.ofNat i
        objectId := buildStableObjectId range.inodeId (UInt32.ofNat i)
        diskId := range.diskId
        objectOffset := segStart - objectStart
        length := segEnd - segStart }

end FileRange

/-! ## Loops -/

/-- The loop from the object `i` to the last, for the given number of rounds at most. The
    counter has 64 bits. -/
def sliceLoop (body : Nat → Option FileObjectSlice) (endIndex : Nat) :
    Nat → Nat → Option (List FileObjectSlice)
  | 0, _ => none
  | rounds + 1, i =>
      if i ≤ endIndex then
        (sliceLoop body endIndex rounds ((i + 1) % 2 ^ 64)).map fun rest =>
          (body i).toList ++ rest
      else some []

def StorageServiceImpl.sliceAt (range : FileRange) (i : Nat) : Option FileObjectSlice :=
  let stop := (range.offset + range.size) % 2 ^ 64
  let objectStart := i * range.unit % 2 ^ 64
  let objectEnd := (objectStart + range.unit) % 2 ^ 64
  let segStart := max objectStart range.offset
  let segEnd := min objectEnd stop
  range.cut i objectStart segStart segEnd

def VirtualStorageServiceImpl.sliceAt (range : FileRange) (i : Nat) : Option FileObjectSlice :=
  let stop := (range.offset + range.size) % 2 ^ 64
  let objectStart := i * range.unit % 2 ^ 64
  let segStart := max objectStart range.offset
  let left := (2 ^ 64 + range.unit - (segStart - objectStart)) % 2 ^ 64
  let segEnd := (segStart + min left ((2 ^ 64 + stop - segStart) % 2 ^ 64)) % 2 ^ 64
  range.cut i objectStart segStart segEnd

/-! ## Answers -/

/-- The read of a virtual node checks the range after it has been clipped. -/
def VirtualStorageServiceImpl.resolveFileRead (service : VirtualStorageServiceImpl)
    (request : ResolveFileReadRequest) : Except Status (FileMeta × List FileObjectSlice) :=
  if request.inodeId = 0 then .error .noInode
  else if 2 ^ 64 ≤ request.offset.toNat + request.size.toNat then .error .rangeOverflow
  else
    match service.table.fileMetaByInode.lookup request.inodeId with
    | none => .error { code := .notFound, message := "file meta not found" }
    | some fileMeta =>
        if request.size = 0 ∨ fileMeta.fileSize.toNat ≤ request.offset.toNat then
          .ok (fileMeta, [])
        else
          let readSize := min request.size.toNat (fileMeta.fileSize.toNat - request.offset.toNat)
          match validateFileSliceRange request.offset.toNat readSize fileMeta.unit.toNat with
          | .error message => .error { code := .invalidArgument, message := message }
          | .ok _ =>
              .ok (fileMeta, buildObjectSlices request.inodeId request.offset.toNat readSize
                fileMeta.unit.toNat request.diskId)

inductive Node
  | real (service : StorageServiceImpl)
  | virtual (service : VirtualStorageServiceImpl)

namespace Node

def allocateFileWrite (request : AllocateFileWriteRequest) (nowMs : UInt64) :
    Node → AllocateFileWriteReply
  | real service => (service.allocateFileWrite request nowMs).1
  | virtual service => (service.allocateFileWrite request nowMs).1

def resolveFileRead (request : ResolveFileReadRequest) :
    Node → Except Status (FileMeta × List FileObjectSlice)
  | real service => service.resolveFileRead request
  | virtual service => service.resolveFileRead request

def sliceAt : Node → FileRange → Nat → Option FileObjectSlice
  | real _ => StorageServiceImpl.sliceAt
  | virtual _ => VirtualStorageServiceImpl.sliceAt

/-- `BuildObjectSlices` in 64 bits, with its loop. -/
def buildObjectSlices (node : Node) (range : FileRange) (rounds : Nat) :
    Option (List FileObjectSlice) :=
  if range.inodeId = 0 ∨ range.size = 0 ∨ range.unit = 0 then some []
  else sliceLoop (node.sliceAt range) range.endIndex rounds (range.offset / range.unit)

/-- The node accepts a request and answers with the slices of the range. A read is
    clipped to the length of the file. -/
inductive Answers (node : Node) : FileRange → List FileObjectSlice → Prop
  | write (request : AllocateFileWriteRequest) (nowMs : UInt64)
      (hok : (node.allocateFileWrite request nowMs).status.code = .ok) :
      Answers node
        { inodeId := request.inodeId
          offset := request.offset.toNat
          size := request.size.toNat
          unit := (node.allocateFileWrite request nowMs).fileMeta.unit.toNat
          diskId := request.diskId }
        (node.allocateFileWrite request nowMs).slices
  | read (request : ResolveFileReadRequest) (fileMeta : FileMeta)
      (slices : List FileObjectSlice)
      (hok : node.resolveFileRead request = .ok (fileMeta, slices)) :
      Answers node
        { inodeId := request.inodeId
          offset := request.offset.toNat
          size := min request.size.toNat (fileMeta.fileSize.toNat - request.offset.toNat)
          unit := fileMeta.unit.toNat
          diskId := request.diskId }
        slices

end Node

/-! ## Places -/

/-- The object and the position in it, byte by byte. -/
def places (slices : List FileObjectSlice) : List (Nat × Nat) :=
  slices.flatMap fun s =>
    (List.range' s.objectOffset s.length).map fun position => (s.objectIndex.toNat, position)

/-- The same with the identifiers that the objects are stored under. -/
def homes (slices : List FileObjectSlice) : List (Bytes × Nat) :=
  slices.flatMap fun s =>
    (List.range' s.objectOffset s.length).map fun position => (s.objectId, position)

/-- The slices are the bytes of the range, in order, each in its object. -/
structure FileRange.Maps (range : FileRange) (slices : List FileObjectSlice) : Prop where
  inside : ∀ s ∈ slices, s.objectOffset + s.length ≤ range.unit
  object : ∀ s ∈ slices, s.objectId = buildStableObjectId range.inodeId s.objectIndex
  total : (slices.map FileObjectSlice.length).sum = range.size
  bytes : places slices =
    (List.range' range.offset range.size).map fun p => (p / range.unit, p % range.unit)

/-- Different positions of a file have different homes. -/
def Apart (range range' : FileRange) (slices slices' : List FileObjectSlice) : Prop :=
  ∀ (k k' : Nat) (home : Bytes × Nat), (homes slices)[k]? = some home →
    (homes slices')[k']? = some home → range.offset + k = range'.offset + k'

/-- The range is empty, or its last object has an index of 32 bits and an end of 64. -/
def FileRange.Fits (range : FileRange) : Prop :=
  range.size = 0 ∨
    range.endIndex < 2 ^ 32 ∧ range.endIndex * range.unit + range.unit < 2 ^ 64

/-- A virtual node accepts nothing else. -/
def Node.Fits : Node → FileRange → Prop
  | .real _, range => range.Fits
  | .virtual _, _ => True

variable {range range' : FileRange} {slices slices' : List FileObjectSlice} {node node' : Node}
  {i : Nat}

/-! ## The loops end -/

/-- By induction on the objects that are left. The last index is not the largest number,
    so the counter gets past it. -/
theorem sliceLoop_eq (body : Nat → Option FileObjectSlice) {endIndex : Nat}
    (hend : endIndex + 1 < 2 ^ 64) (n i rounds : Nat) (hi : i + n = endIndex + 1)
    (hrounds : n < rounds) :
    sliceLoop body endIndex rounds i = some ((List.range' i n).filterMap body) := by
  induction n generalizing i rounds with
  | zero =>
      obtain ⟨rounds, rfl⟩ := Nat.exists_eq_add_of_lt hrounds
      have hpast : ¬ i ≤ endIndex := by omega
      simp only [sliceLoop, if_neg hpast, List.range'_zero, List.filterMap_nil]
  | succ n ih =>
      obtain ⟨rounds, rfl⟩ := Nat.exists_eq_succ_of_ne_zero (Nat.ne_zero_of_lt hrounds)
      have hle : i ≤ endIndex := by omega
      have hnext : (i + 1) % 2 ^ 64 = i + 1 := Nat.mod_eq_of_lt (by omega)
      rw [sliceLoop, if_pos hle, hnext, ih (i + 1) rounds (by omega) (by omega),
        Option.map_some, List.range'_succ]
      cases hbody : body i with
      | none => rw [List.filterMap_cons_none hbody]; rfl
      | some s => rw [List.filterMap_cons_some hbody]; rfl

/-- What a node checks before it answers with slices. -/
structure FileRange.Valid (range : FileRange) : Prop where
  inode : range.inodeId ≠ 0
  unit_pos : 0 < range.unit
  unit_lt : range.unit < 2 ^ 64
  stop_lt : range.offset + range.size < 2 ^ 64

namespace FileRange

theorem Valid.not_empty (h : range.Valid) (hsize : range.size ≠ 0) :
    ¬ (range.inodeId = 0 ∨ range.size = 0 ∨ range.unit = 0) :=
  not_or.mpr ⟨h.inode, not_or.mpr ⟨hsize, Nat.pos_iff_ne_zero.mp h.unit_pos⟩⟩

theorem lt_stop (hsize : range.size ≠ 0) : range.offset < range.offset + range.size :=
  Nat.lt_add_of_pos_right (Nat.pos_of_ne_zero hsize)

theorem mem_touched (hsize : range.size ≠ 0) :
    i ∈ touched range.unit range.offset (range.offset + range.size) ↔
      range.offset / range.unit ≤ i ∧ i ≤ range.endIndex :=
  BlockBytes.mem_touched (lt_stop hsize)

/-- A touched object begins inside the range, or the range inside it. -/
theorem Valid.start_lt (h : range.Valid) (hsize : range.size ≠ 0) (hi : i ≤ range.endIndex) :
    i * range.unit < range.offset + range.size := by
  have hbelow := (block_bounds h.unit_pos (range.offset + range.size - 1)).1
  have hle := Nat.mul_le_mul_right range.unit hi
  have hpos := lt_stop hsize
  rw [endIndex] at hle
  omega

theorem Valid.end_index_lt (h : range.Valid) : range.endIndex + 1 < 2 ^ 64 := by
  have hle : range.endIndex ≤ range.offset + range.size - 1 := Nat.div_le_self _ _
  have hstop := h.stop_lt
  by_cases hzero : range.offset + range.size = 0
  · rw [hzero] at hle
    omega
  · omega

end FileRange

/-- The bodies of both loops cut the object out of the range; the ends of the objects are
    taken in 64 bits on the real node only. -/
theorem StorageServiceImpl.sliceAt_eq (h : range.Valid) (hsize : range.size ≠ 0)
    (hi : i ≤ range.endIndex) :
    sliceAt range i =
      objectSlice range.inodeId range.offset (range.offset + range.size) range.unit range.diskId
        ((i * range.unit + range.unit) % 2 ^ 64) i := by
  have hstart := h.start_lt hsize hi
  have hstop := h.stop_lt
  simp only [sliceAt, Nat.mod_eq_of_lt hstop, Nat.mod_eq_of_lt (Nat.lt_trans hstart hstop)]
  rfl

theorem VirtualStorageServiceImpl.sliceAt_eq (h : range.Valid) (hsize : range.size ≠ 0)
    (hi : i ∈ touched range.unit range.offset (range.offset + range.size)) :
    sliceAt range i =
      objectSlice range.inodeId range.offset (range.offset + range.size) range.unit range.diskId
        (i * range.unit + range.unit) i := by
  obtain ⟨hfirst, hlast⟩ := (FileRange.mem_touched hsize).mp hi
  have hstart := h.start_lt hsize hlast
  have hstop := h.stop_lt
  have hunit := h.unit_lt
  have hseg := seg_lt h.unit_pos (FileRange.lt_stop hsize) hi
  simp only [segStart, segEnd] at hseg
  -- nothing wraps around, as the segment is not empty
  have hend : (max (i * range.unit) range.offset + min
      ((2 ^ 64 + range.unit - (max (i * range.unit) range.offset - i * range.unit)) % 2 ^ 64)
      ((2 ^ 64 + (range.offset + range.size) - max (i * range.unit) range.offset) % 2 ^ 64)) %
        2 ^ 64 = min (i * range.unit + range.unit) (range.offset + range.size) := by
    have hleft : (2 ^ 64 + range.unit - (max (i * range.unit) range.offset - i * range.unit)) %
        2 ^ 64 = range.unit - (max (i * range.unit) range.offset - i * range.unit) := by
      omega
    have hrest : (2 ^ 64 + (range.offset + range.size) - max (i * range.unit) range.offset) %
        2 ^ 64 = range.offset + range.size - max (i * range.unit) range.offset := by
      omega
    rw [hleft, hrest]
    omega
  simp only [sliceAt, Nat.mod_eq_of_lt hstop, Nat.mod_eq_of_lt (Nat.lt_trans hstart hstop), hend]
  rfl

/-! ## What the nodes answer -/

theorem FileMeta.unit_pos (fileMeta : FileMeta) : 0 < fileMeta.unit.toNat := by
  unfold FileMeta.unit
  split
  · rename_i hpos
    exact UInt64.lt_iff_toNat_lt.mp hpos
  · decide

/-- The slices as the model of the node has them. -/
def Node.sliced : Node → FileRange → List FileObjectSlice
  | .real _, range =>
      StorageServiceImpl.buildObjectSlices range.inodeId range.offset range.size range.unit
        range.diskId
  | .virtual _, range => range.slices

/-- What an answer of a node tells about the range. -/
structure Node.Accepted (node : Node) (range : FileRange) (slices : List FileObjectSlice) :
    Prop where
  valid : range.Valid
  slices_eq : slices = node.sliced range
  limit : ∀ service, node = .virtual service →
    range.size = 0 ∨ range.endIndex < 2 ^ 32 - 1

theorem VirtualStorageServiceImpl.endIndex_lt {offset size unit : Nat}
    (h : validateFileSliceRange offset size unit = .ok ()) :
    size = 0 ∨ (offset + size - 1) / unit < 2 ^ 32 - 1 := by
  by_contra hnot
  obtain ⟨hsize, hlast⟩ := not_or.mp hnot
  unfold validateFileSliceRange at h
  split at h
  · cases h
  · simp only [if_pos (Nat.le_of_not_lt hlast)] at h
    cases h

theorem Node.sliced_nil (hempty : range.size = 0) : node.sliced range = [] := by
  cases node with
  | real => exact if_pos (.inr (.inl hempty))
  | virtual => exact if_pos (.inr (.inl hempty))

theorem Node.Answers.write_accepted (request : AllocateFileWriteRequest) (nowMs : UInt64)
    (hok : (node.allocateFileWrite request nowMs).status.code = .ok) :
    node.Accepted
      { inodeId := request.inodeId
        offset := request.offset.toNat
        size := request.size.toNat
        unit := (node.allocateFileWrite request nowMs).fileMeta.unit.toNat
        diskId := request.diskId }
      (node.allocateFileWrite request nowMs).slices := by
  cases node with
  | real service =>
      revert hok
      simp only [Node.allocateFileWrite, StorageServiceImpl.allocateFileWrite]
      split
      · exact nofun
      split
      · exact nofun
      split
      · exact nofun
      rename_i hinode hstop
      exact fun _ => ⟨⟨hinode, FileMeta.unit_pos _, UInt64.toNat_lt _, Nat.lt_of_not_le hstop⟩,
        rfl, nofun⟩
  | virtual service =>
      revert hok
      simp only [Node.allocateFileWrite, VirtualStorageServiceImpl.allocateFileWrite]
      split
      · exact nofun
      split
      · exact nofun
      rename_i hinode hstop
      split
      · exact nofun
      rename_i hlimit
      exact fun _ => ⟨⟨hinode, FileMeta.unit_pos _, UInt64.toNat_lt _, Nat.lt_of_not_le hstop⟩,
        rfl, fun _ _ => VirtualStorageServiceImpl.endIndex_lt hlimit⟩

theorem Node.Answers.read_accepted (request : ResolveFileReadRequest) (fileMeta : FileMeta)
    (hok : node.resolveFileRead request = .ok (fileMeta, slices)) :
    node.Accepted
      { inodeId := request.inodeId
        offset := request.offset.toNat
        size := min request.size.toNat (fileMeta.fileSize.toNat - request.offset.toNat)
        unit := fileMeta.unit.toNat
        diskId := request.diskId }
      slices := by
  have hvalid (hinode : request.inodeId ≠ 0)
      (hstop : ¬ 2 ^ 64 ≤ request.offset.toNat + request.size.toNat) (fileMeta : FileMeta) :
      FileRange.Valid
        { inodeId := request.inodeId
          offset := request.offset.toNat
          size := min request.size.toNat (fileMeta.fileSize.toNat - request.offset.toNat)
          unit := fileMeta.unit.toNat
          diskId := request.diskId } :=
    ⟨hinode, FileMeta.unit_pos _, UInt64.toNat_lt _, by
      dsimp only
      omega⟩
  have hclipped {size offset length : Nat} (h : size = 0 ∨ length ≤ offset) :
      min size (length - offset) = 0 := by
    omega
  have hsize {size : UInt64} (h : size = 0) : size.toNat = 0 := congrArg UInt64.toNat h
  cases node with
  | real service =>
      simp only [Node.resolveFileRead, StorageServiceImpl.resolveFileRead] at hok
      split at hok
      · cases hok
      split at hok
      · cases hok
      rename_i hinode hstop
      split at hok
      · cases hok
      split at hok
      · rename_i hempty
        obtain ⟨rfl, rfl⟩ := Prod.mk.inj (Except.ok.inj hok)
        exact ⟨hvalid hinode hstop _, (Node.sliced_nil (hclipped (hempty.imp_left hsize))).symm,
          nofun⟩
      · obtain ⟨rfl, rfl⟩ := Prod.mk.inj (Except.ok.inj hok)
        exact ⟨hvalid hinode hstop _, rfl, nofun⟩
  | virtual service =>
      simp only [Node.resolveFileRead, VirtualStorageServiceImpl.resolveFileRead] at hok
      split at hok
      · cases hok
      split at hok
      · cases hok
      rename_i hinode hstop
      split at hok
      · cases hok
      split at hok
      · rename_i hempty
        obtain ⟨rfl, rfl⟩ := Prod.mk.inj (Except.ok.inj hok)
        have hnone := hclipped (hempty.imp_left hsize)
        exact ⟨hvalid hinode hstop _, (Node.sliced_nil hnone).symm, fun _ _ => .inl hnone⟩
      split at hok
      · cases hok
      rename_i hlimit
      obtain ⟨rfl, rfl⟩ := Prod.mk.inj (Except.ok.inj hok)
      exact ⟨hvalid hinode hstop _, rfl,
        fun _ _ => VirtualStorageServiceImpl.endIndex_lt hlimit⟩

theorem Node.Answers.accepted (h : node.Answers range slices) :
    node.Accepted range slices := by
  cases h with
  | write request nowMs hok => exact Node.Answers.write_accepted request nowMs hok
  | read request fileMeta slices hok => exact Node.Answers.read_accepted request fileMeta hok

/-- With enough rounds the loop of a node returns what its model says. -/
theorem Node.Accepted.loop_ends (h : node.Accepted range slices) :
    ∃ enough, ∀ rounds ≥ enough, node.buildObjectSlices range rounds = some slices := by
  by_cases hsize : range.size = 0
  · refine ⟨0, fun rounds _ => ?_⟩
    rw [Node.buildObjectSlices, if_pos (.inr (.inl hsize)), h.slices_eq, Node.sliced_nil hsize]
  · have hle : range.offset / range.unit ≤ range.endIndex := Nat.div_le_div_right
      (Nat.le_sub_one_of_lt (FileRange.lt_stop hsize))
    refine ⟨range.endIndex - range.offset / range.unit + 1 + 1, fun rounds hrounds => ?_⟩
    rw [Node.buildObjectSlices, if_neg (h.valid.not_empty hsize),
      sliceLoop_eq _ h.valid.end_index_lt (range.endIndex - range.offset / range.unit + 1)
        (range.offset / range.unit) rounds (by omega) hrounds, h.slices_eq]
    refine congrArg some ?_
    cases node with
    | real service =>
        rw [Node.sliced, StorageServiceImpl.buildObjectSlices,
          if_neg (h.valid.not_empty hsize)]
        exact List.filterMap_congr fun i hi => StorageServiceImpl.sliceAt_eq h.valid hsize
          ((FileRange.mem_touched hsize).mp hi).2
    | virtual service =>
        rw [Node.sliced, FileRange.slices, VirtualStorageServiceImpl.buildObjectSlices,
          if_neg (h.valid.not_empty hsize)]
        exact List.filterMap_congr fun i hi => VirtualStorageServiceImpl.sliceAt_eq h.valid hsize hi

/-! ## Every byte in its place -/

/-- The slice of a touched object. -/
def FileRange.slice (range : FileRange) (i : Nat) : FileObjectSlice :=
  { objectIndex := UInt32.ofNat i
    objectId := buildStableObjectId range.inodeId (UInt32.ofNat i)
    diskId := range.diskId
    objectOffset := segStart range.unit range.offset i - i * range.unit
    length := segEnd range.unit (range.offset + range.size) i -
      segStart range.unit range.offset i }

theorem FileRange.Valid.slices_eq (h : range.Valid) (hsize : range.size ≠ 0) :
    range.slices =
      (touched range.unit range.offset (range.offset + range.size)).map range.slice := by
  rw [slices, VirtualStorageServiceImpl.buildObjectSlices, if_neg (h.not_empty hsize),
    ← List.filterMap_eq_map]
  apply List.filterMap_congr
  intro i hi
  have hseg := seg_lt h.unit_pos (lt_stop hsize) hi
  exact if_neg (Nat.not_le_of_lt hseg)

theorem FileRange.slices_nil (hsize : range.size = 0) : range.slices = [] :=
  if_pos (.inr (.inl hsize))

/-- The positions of the touched objects are the range. -/
theorem FileRange.Valid.positions (h : range.Valid) (hsize : range.size ≠ 0) :
    ((touched range.unit range.offset (range.offset + range.size)).flatMap fun i =>
      List.range' (segStart range.unit range.offset i)
        (segEnd range.unit (range.offset + range.size) i -
          segStart range.unit range.offset i)) = List.range' range.offset range.size := by
  have hfirst := block_bounds h.unit_pos range.offset
  have hlast := block_bounds h.unit_pos (range.offset + range.size - 1)
  have hpos := lt_stop hsize
  have hle : range.offset / range.unit ≤ (range.offset + range.size - 1) / range.unit :=
    Nat.div_le_div_right (Nat.le_sub_one_of_lt hpos)
  have hzero : segStart range.unit range.offset (range.offset / range.unit) = range.offset :=
    Nat.max_eq_right hfirst.1
  have hcount : range.offset / range.unit + ((range.offset + range.size - 1) / range.unit -
      range.offset / range.unit + 1) = (range.offset + range.size - 1) / range.unit + 1 := by
    omega
  have hcover : range.offset + range.size ≤ (range.offset / range.unit +
      ((range.offset + range.size - 1) / range.unit - range.offset / range.unit + 1)) *
        range.unit := by
    rw [hcount, Nat.succ_mul]
    omega
  have hflat := flatMap_positions h.unit_pos _ _ hfirst.2 hcover (hzero.le.trans hpos.le)
  rw [hzero, Nat.add_sub_cancel_left] at hflat
  exact hflat

/-- A position in a touched object is at its remainder. -/
theorem FileRange.Valid.place (h : range.Valid) {p : Nat}
    (hp : p ∈ List.range' (segStart range.unit range.offset i)
      (segEnd range.unit (range.offset + range.size) i - segStart range.unit range.offset i)) :
    p / range.unit = i ∧ p % range.unit = p - i * range.unit := by
  obtain ⟨hfrom, hto⟩ := List.mem_range'_1.mp hp
  simp only [segStart, segEnd] at hfrom hto
  have hdiv : p / range.unit = i := by
    rw [Nat.div_eq_iff h.unit_pos]
    have hnext := Nat.succ_mul i range.unit
    omega
  have hmod := Nat.div_add_mod p range.unit
  rw [hdiv, Nat.mul_comm] at hmod
  exact ⟨hdiv, by omega⟩

/-- What a slice says about each of its bytes, with the positions of the file. -/
theorem FileRange.Valid.slice_places (h : range.Valid) {α : Type} (f : Nat → Nat → α) (i : Nat) :
    ((List.range' (range.slice i).objectOffset (range.slice i).length).map (f i)) =
      (List.range' (segStart range.unit range.offset i)
        (segEnd range.unit (range.offset + range.size) i -
          segStart range.unit range.offset i)).map
        fun p => f (p / range.unit) (p % range.unit) := by
  have hstart : i * range.unit ≤ segStart range.unit range.offset i := Nat.le_max_left _ _
  have hshift : List.range' (segStart range.unit range.offset i)
      (segEnd range.unit (range.offset + range.size) i - segStart range.unit range.offset i) =
      (List.range' (range.slice i).objectOffset (range.slice i).length).map
        (fun position => i * range.unit + position) := by
    rw [List.map_add_range', slice]
    congr 1
    dsimp only
    omega
  rw [hshift, List.map_map]
  refine List.map_congr_left fun position hposition => ?_
  obtain ⟨hdiv, hmod⟩ := h.place (hshift ▸ List.mem_map_of_mem hposition :
    i * range.unit + position ∈ _)
  simp only [Function.comp_apply, hdiv, hmod, Nat.add_sub_cancel_left]

/-- The slices, byte by byte. -/
theorem FileRange.Valid.bytes (h : range.Valid) {α : Type} (f : Nat → Nat → α) :
    (range.slices.flatMap fun s =>
      (List.range' s.objectOffset s.length).map (f s.objectIndex.toNat)) =
      (List.range' range.offset range.size).map fun p =>
        f (p / range.unit % 2 ^ 32) (p % range.unit) := by
  by_cases hsize : range.size = 0
  · rw [slices_nil hsize, hsize]
    rfl
  · rw [h.slices_eq hsize, List.flatMap_map, ← h.positions hsize, List.map_flatMap]
    refine List.flatMap_congr fun i _ => ?_
    exact h.slice_places (fun i position => f (i % 2 ^ 32) position) i

/-- The index of a position of the range. -/
theorem FileRange.index_le (hp : i ∈ List.range' range.offset range.size) :
    i / range.unit ≤ range.endIndex := by
  have hbounds := List.mem_range'_1.mp hp
  exact Nat.div_le_div_right (by omega)

/-- All the slices map the range, as long as the last index has 32 bits. -/
theorem FileRange.Valid.maps (h : range.Valid)
    (hindex : range.size = 0 ∨ range.endIndex < 2 ^ 32) : range.Maps range.slices where
  inside := by
    intro s hs
    by_cases hsize : range.size = 0
    · rw [slices_nil hsize] at hs
      cases hs
    · rw [h.slices_eq hsize] at hs
      obtain ⟨i, hi, rfl⟩ := List.mem_map.mp hs
      have hseg := seg_lt h.unit_pos (lt_stop hsize) hi
      simp only [slice, segStart, segEnd] at hseg ⊢
      omega
  object := by
    intro s hs
    by_cases hsize : range.size = 0
    · rw [slices_nil hsize] at hs
      cases hs
    · rw [h.slices_eq hsize] at hs
      obtain ⟨i, -, rfl⟩ := List.mem_map.mp hs
      rfl
  total := by
    have hlength := congrArg List.length (h.bytes fun _ _ => ())
    simpa only [List.length_flatMap, List.length_map, List.length_range'] using hlength
  bytes := by
    refine (h.bytes fun i position => (i, position)).trans (List.map_congr_left fun p hp => ?_)
    have hle := index_le hp
    have hpos : range.size ≠ 0 := by
      have hbounds := List.mem_range'_1.mp hp
      omega
    exact congrArg (·, _) (Nat.mod_eq_of_lt (Nat.lt_of_le_of_lt hle (hindex.resolve_left hpos)))

/-- The homes of the bytes of a range that is mapped. -/
theorem FileRange.Maps.homes_eq (h : range.Maps slices) :
    homes slices = (List.range' range.offset range.size).map fun p =>
      (buildStableObjectId range.inodeId (UInt32.ofNat (p / range.unit)), p % range.unit) := by
  have hhomes : homes slices = (places slices).map fun place =>
      (buildStableObjectId range.inodeId (UInt32.ofNat place.1), place.2) := by
    rw [homes, places, List.map_flatMap]
    refine List.flatMap_congr fun s hs => ?_
    rw [List.map_map]
    refine List.map_congr_left fun position _ => ?_
    simp only [Function.comp_apply, UInt32.ofNat_toNat, h.object s hs]
  rw [hhomes, h.bytes, List.map_map]
  rfl

theorem FileRange.Maps.index_lt (h : range.Maps slices) {p : Nat}
    (hp : p ∈ List.range' range.offset range.size) : p / range.unit < 2 ^ 32 := by
  have hplace : (p / range.unit, p % range.unit) ∈ places slices := by
    rw [h.bytes]
    exact List.mem_map_of_mem hp
  obtain ⟨s, -, hs⟩ := List.mem_flatMap.mp hplace
  obtain ⟨position, -, hposition⟩ := List.mem_map.mp hs
  rw [← (Prod.mk.inj hposition).1]
  exact UInt32.toNat_lt _

/-- Where two ranges of a file are mapped, its bytes are apart. -/
theorem FileRange.Maps.apart (h : range.Maps slices) (h' : range'.Maps slices')
    (hinode : range'.inodeId = range.inodeId) (hunit : range'.unit = range.unit) :
    Apart range range' slices slices' := by
  have hposition {range : FileRange} {slices : List FileObjectSlice} {k : Nat}
      {home : Bytes × Nat} (h : range.Maps slices) (hk : (homes slices)[k]? = some home) :
      (range.offset + k) / range.unit < 2 ^ 32 ∧
        home = (buildStableObjectId range.inodeId
          (UInt32.ofNat ((range.offset + k) / range.unit)), (range.offset + k) % range.unit) := by
    rw [h.homes_eq, List.getElem?_map] at hk
    obtain ⟨p, hp, rfl⟩ := Option.map_eq_some_iff.mp hk
    obtain ⟨hlt, rfl⟩ := List.getElem?_eq_some_iff.mp hp
    have hmem := List.getElem_mem hlt
    rw [List.getElem_range', Nat.one_mul] at hmem ⊢
    exact ⟨h.index_lt hmem, rfl⟩
  intro k k' home hk hk'
  obtain ⟨hlt, rfl⟩ := hposition h hk
  obtain ⟨hlt', heq⟩ := hposition h' hk'
  obtain ⟨hid, hmod⟩ := Prod.mk.inj heq
  rw [hinode] at hid
  rw [hunit] at hid hmod hlt'
  have hindex := congrArg UInt32.toNat (buildStableObjectId_injective hid)
  rw [UInt32.toNat_ofNat_of_lt' hlt, UInt32.toNat_ofNat_of_lt' hlt'] at hindex
  rw [← Nat.div_add_mod (range.offset + k) range.unit, hindex, hmod, Nat.div_add_mod]

/-! ## The ranges that fit -/

/-- A real node answers with all the slices of a range that fits. -/
theorem Node.Accepted.slices_of_fits (h : node.Accepted range slices) (hfits : node.Fits range) :
    slices = range.slices := by
  refine h.slices_eq.trans ?_
  cases node with
  | virtual service => rfl
  | real service =>
      by_cases hsize : range.size = 0
      · rw [Node.sliced_nil hsize, FileRange.slices_nil hsize]
      · have hend := (hfits.resolve_left hsize).2
        rw [Node.sliced, FileRange.slices, StorageServiceImpl.buildObjectSlices,
          VirtualStorageServiceImpl.buildObjectSlices, if_neg (h.valid.not_empty hsize),
          if_neg (h.valid.not_empty hsize), objectSlices, objectSlices]
        refine List.filterMap_congr fun i hi => ?_
        have hle := Nat.mul_le_mul_right range.unit ((FileRange.mem_touched hsize).mp hi).2
        rw [Nat.mod_eq_of_lt (by omega)]

theorem Node.Accepted.index_lt (h : node.Accepted range slices) (hfits : node.Fits range) :
    range.size = 0 ∨ range.endIndex < 2 ^ 32 := by
  cases node with
  | real service => exact hfits.imp_right And.left
  | virtual service => exact (h.limit service rfl).imp_right fun hlt => by omega

/-- A mapped range fits: the last byte shows its index, and its object has a slice only if
    the end of the object has not wrapped around. -/
theorem Node.Accepted.fits_of_maps (h : node.Accepted range slices) (hmaps : range.Maps slices) :
    node.Fits range := by
  cases node with
  | virtual service => trivial
  | real service =>
      refine or_iff_not_imp_left.mpr fun hsize => ?_
      have hpos := FileRange.lt_stop hsize
      have hlast : range.offset + range.size - 1 ∈ List.range' range.offset range.size := by
        rw [List.mem_range'_1]
        omega
      have hindex : range.endIndex < 2 ^ 32 := hmaps.index_lt hlast
      refine ⟨hindex, ?_⟩
      have hplace : (range.endIndex, (range.offset + range.size - 1) % range.unit) ∈
          places slices := by
        rw [hmaps.bytes]
        exact List.mem_map_of_mem hlast
      obtain ⟨s, hs, hsplace⟩ := List.mem_flatMap.mp hplace
      obtain ⟨position, -, hposition⟩ := List.mem_map.mp hsplace
      rw [h.slices_eq, Node.sliced, StorageServiceImpl.buildObjectSlices,
        if_neg (h.valid.not_empty hsize)] at hs
      obtain ⟨i, hi, hcut⟩ := List.mem_filterMap.mp hs
      have hle := ((FileRange.mem_touched hsize).mp hi).2
      by_contra hwrap
      simp only [objectSlice] at hcut
      split at hcut
      · cases hcut
      rename_i hseg
      obtain rfl := Option.some.inj hcut
      have hi' : i = range.endIndex := by
        rw [← (Prod.mk.inj hposition).1]
        exact (UInt32.toNat_ofNat_of_lt' (Nat.lt_of_le_of_lt hle hindex)).symm
      subst hi'
      have hstart := h.valid.start_lt hsize Nat.le.refl
      have hstop := h.valid.stop_lt
      have hunit := h.valid.unit_lt
      omega

/-- A node answers with slices that map the range, apart from those of every other range of
    the file, and the same that every other node answers with, exactly when the range fits. -/
theorem maps_iff_fits (h : node.Answers range slices) (h' : node'.Answers range' slices')
    (hinode : range'.inodeId = range.inodeId) (hunit : range'.unit = range.unit) :
    ((range.Maps slices ∧ range'.Maps slices' ∧ Apart range range' slices slices' ∧
        (range' = range → slices' = slices)) ↔ node.Fits range ∧ node'.Fits range') ∧
      ∃ enough, ∀ rounds ≥ enough, node.buildObjectSlices range rounds = some slices := by
  refine ⟨⟨fun ⟨hmaps, hmaps', _⟩ => ⟨h.accepted.fits_of_maps hmaps,
    h'.accepted.fits_of_maps hmaps'⟩, fun ⟨hfits, hfits'⟩ => ?_⟩, h.accepted.loop_ends⟩
  have hslices := h.accepted.slices_of_fits hfits
  have hslices' := h'.accepted.slices_of_fits hfits'
  have hmaps : range.Maps slices := by
    rw [hslices]
    exact h.accepted.valid.maps (h.accepted.index_lt hfits)
  have hmaps' : range'.Maps slices' := by
    rw [hslices']
    exact h'.accepted.valid.maps (h'.accepted.index_lt hfits')
  refine ⟨hmaps, hmaps', hmaps.apart hmaps' hinode hunit, fun hsame => ?_⟩
  rw [hslices, hslices', hsame]

/-- A range over the border of two objects, on a new node of either kind. -/
theorem maps_iff_fits_of_border : ∃ slices,
    (Node.real {}).Answers ⟨7, 4194303, 2, 4194304, []⟩ slices ∧
      (Node.virtual {}).Answers ⟨7, 4194303, 2, 4194304, []⟩ slices ∧
        FileRange.Maps ⟨7, 4194303, 2, 4194304, []⟩ slices := by
  have hanswers : (Node.real {}).Answers ⟨7, 4194303, 2, 4194304, []⟩ _ :=
    .write ⟨7, 4194303, 2, [], 0⟩ 0 (by decide +kernel)
  have hanswers' : (Node.virtual {}).Answers ⟨7, 4194303, 2, 4194304, []⟩ _ :=
    .write ⟨7, 4194303, 2, [], 0⟩ 0 (by decide +kernel)
  obtain ⟨hmaps, -, -, hsame⟩ := (maps_iff_fits hanswers hanswers' rfl rfl).1.mpr
    ⟨.inr (by decide), trivial⟩
  exact ⟨_, hanswers, (hsame rfl) ▸ hanswers', hmaps⟩

/-- The first byte of a file and a byte far away have the same home on a real node. -/
theorem far_object_shared : ∃ slices slices',
    (Node.real {}).Answers ⟨7, 0, 1, 4194304, []⟩ slices ∧
      (Node.real {}).Answers ⟨7, 2 ^ 54, 1, 4194304, []⟩ slices' ∧
        ¬ Apart ⟨7, 0, 1, 4194304, []⟩ ⟨7, 2 ^ 54, 1, 4194304, []⟩ slices slices' := by
  refine ⟨_, _, .write ⟨7, 0, 1, [], 0⟩ 0 (by decide +kernel),
    .write ⟨7, 2 ^ 54, 1, [], 0⟩ 0 (by decide +kernel), fun happart => ?_⟩
  have hhome : (homes ((Node.real {}).allocateFileWrite ⟨7, 0, 1, [], 0⟩ 0).slices)[0]? =
      some (ofAscii "obj-7-0", 0) := by
    decide +kernel
  have hhome' : (homes ((Node.real {}).allocateFileWrite ⟨7, 2 ^ 54, 1, [], 0⟩ 0).slices)[0]? =
      some (ofAscii "obj-7-0", 0) := by
    decide +kernel
  exact absurd (happart 0 0 _ hhome hhome') (by decide)

end Zb.DataNode
