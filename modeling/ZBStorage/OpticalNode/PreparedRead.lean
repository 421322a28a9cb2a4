-- SUMMARY: Ranged reads of a prepared artifact through mmap: which ranges give exactly the slice.
import ZBStorage.OpticalNode.ReadSessions

/-!
# Reads of prepared files

`ReadPreparedFile` and `ReadFileToStringMmap` of `optical_node_manager.cpp`. The range
is mapped at the offset of the request, and `mmap` takes only offsets that are a
multiple of the page size.
-/

namespace Zb.OpticalNode

open Bytes

inductive PreparedReadError
  | managerNotReady
  | taskNotFound
  | invalidParameter
  | fileNotFound
  | ioError
  deriving DecidableEq

structure ReadPreparedFileResult where
  bytesRead : Nat
  eof : Bool
  deriving DecidableEq

/-- Whether `mmap` succeeds. -/
def Maps (pageSize length offset : Nat) : Prop := length ≠ 0 ∧ pageSize ∣ offset

instance (pageSize length offset : Nat) : Decidable (Maps pageSize length offset) := by
  unfold Maps
  infer_instance

/-- The bytes of the range, and whether it is the last one. -/
def readFileToStringMmap (pageSize : Nat) (file : Bytes) (offset readSize : UInt64) :
    Except PreparedReadError (Bytes × Bool) :=
  let fileSize := file.length
  let isLast := decide ((offset + readSize).toNat ≥ fileSize)
  if offset.toNat ≥ fileSize then .ok ([], isLast)
  else if readSize = 0 then .ok ([], isLast)
  else
    let fileRemaining := fileSize - offset.toNat
    let effectiveSize := if readSize.toNat > fileRemaining then fileRemaining else readSize.toNat
    if ¬ Maps pageSize effectiveSize offset.toNat then .error .ioError
    else .ok ((file.drop offset.toNat).take effectiveSize, isLast)

/-- `ReadPreparedFile` in a manager that is running or not, with its sessions and the
    files of the node. -/
def readPreparedFile (pageSize : Nat) (running : Bool) (table : ReadSessionTable)
    (files : Bytes → Option Bytes) (readHandle offset size : UInt64) :
    Except PreparedReadError (Bytes × ReadPreparedFileResult) := do
  if running = false then .error .managerNotReady
  else
    match table.sessions.lookup readHandle with
    | none => .error .taskNotFound
    | some session =>
        if size.toNat > session.maxReadBytes.toNat then .error .invalidParameter
        else
          match files session.artifactPath with
          | none => .error .fileNotFound
          | some file =>
              let (out, eof) ← readFileToStringMmap pageSize file offset size
              .ok (out, { bytesRead := out.length, eof := eof })

/-- The slice of the file, and the end of the file by unbounded arithmetic. -/
def exactSlice (file : Bytes) (offset size : UInt64) : Bytes × ReadPreparedFileResult :=
  let out := (file.drop offset.toNat).take size.toNat
  (out, { bytesRead := out.length, eof := decide (offset.toNat + size.toNat ≥ file.length) })

/-- Reads consecutive ranges from an offset on and puts them together. -/
def readRanges (pageSize : Nat) (running : Bool) (table : ReadSessionTable)
    (files : Bytes → Option Bytes) (readHandle : UInt64) :
    Nat → List UInt64 → Except PreparedReadError Bytes
  | _, [] => .ok []
  | offset, size :: sizes => do
      let (out, _) ← readPreparedFile pageSize running table files readHandle
        (UInt64.ofNat offset) size
      let rest ← readRanges pageSize running table files readHandle (offset + size.toNat) sizes
      .ok (out ++ rest)

/-- Every range that is not empty begins at a page. -/
def RangesAligned (pageSize : Nat) : Nat → List UInt64 → Prop
  | _, [] => True
  | offset, size :: sizes =>
      (size = 0 ∨ pageSize ∣ offset) ∧ RangesAligned pageSize (offset + size.toNat) sizes

instance decidableRangesAligned (pageSize : Nat) :
    (offset : Nat) → (sizes : List UInt64) → Decidable (RangesAligned pageSize offset sizes)
  | _, [] => .isTrue trivial
  | offset, size :: sizes =>
      have := decidableRangesAligned pageSize (offset + size.toNat) sizes
      inferInstanceAs (Decidable (_ ∧ _))

variable {pageSize : Nat} {table : ReadSessionTable} {files : Bytes → Option Bytes}
  {readHandle offset size : UInt64} {session : ReadSession} {file out : Bytes}

/-! ## One range -/

theorem length_sub_min (remaining wanted : Nat) :
    (if wanted > remaining then remaining else wanted) = min wanted remaining := by
  rw [Nat.min_def]
  split <;> split <;> omega

/-- What the mapped range holds, wherever the mapping succeeds. -/
theorem readFileToStringMmap_eq (h : offset.toNat ≥ file.length ∨ size = 0 ∨ pageSize ∣ offset.toNat) :
    readFileToStringMmap pageSize file offset size =
      .ok ((file.drop offset.toNat).take size.toNat,
        decide ((offset + size).toNat ≥ file.length)) := by
  unfold readFileToStringMmap
  dsimp only
  split
  · rename_i hpast
    rw [List.drop_of_length_le hpast, List.take_nil]
  · rename_i hinside
    split
    · rename_i hzero
      rw [hzero]
      rfl
    · rename_i hsize
      have hpos : size.toNat ≠ 0 := fun hzero => hsize (UInt64.toNat_inj.mp hzero)
      have hpage := (h.resolve_left hinside).resolve_left hsize
      rw [length_sub_min, if_neg (not_not_intro ⟨by omega, hpage⟩), ← List.length_drop,
        List.take_eq_take_min (i := size.toNat)]

theorem readFileToStringMmap_error (hinside : offset.toNat < file.length) (hsize : size ≠ 0)
    (hpage : ¬ pageSize ∣ offset.toNat) :
    readFileToStringMmap pageSize file offset size = .error .ioError := by
  unfold readFileToStringMmap
  dsimp only
  rw [if_neg (Nat.not_le.mpr hinside), if_neg hsize, if_pos fun hmaps => hpage hmaps.2]

/-- In a session that allows the size, a read is one of the artifact. -/
theorem readPreparedFile_eq (pageSize : Nat) (offset : UInt64)
    (hsession : table.sessions.lookup readHandle = some session)
    (hsize : size.toNat ≤ session.maxReadBytes.toNat)
    (hfile : files session.artifactPath = some file) :
    readPreparedFile pageSize true table files readHandle offset size =
      (readFileToStringMmap pageSize file offset size).map
        fun read => (read.1, { bytesRead := read.1.length, eof := read.2 }) := by
  unfold readPreparedFile
  rw [if_neg nofun, hsession]
  dsimp only
  rw [if_neg (Nat.not_lt.mpr hsize), hfile]
  dsimp only
  cases readFileToStringMmap pageSize file offset size with
  | error e => rfl
  | ok read => rfl

/-- The end of the file is seen unless the addition wraps around to a place inside it. -/
theorem eof_iff (offset size : UInt64) {length : Nat} (hlength : length < 2 ^ 64) :
    decide ((offset + size).toNat ≥ length) = decide (offset.toNat + size.toNat ≥ length) ↔
      offset.toNat + size.toNat < 2 ^ 64 ∨ length ≤ offset.toNat + size.toNat - 2 ^ 64 := by
  have hoffset := offset.toNat_lt
  have hsize := size.toNat_lt
  rw [decide_eq_decide, UInt64.toNat_add]
  omega

theorem readPreparedFile_exact_iff_range
    (hsession : table.sessions.lookup readHandle = some session)
    (hsize : size.toNat ≤ session.maxReadBytes.toNat)
    (hfile : files session.artifactPath = some file) (hlength : file.length < 2 ^ 64) :
    readPreparedFile pageSize true table files readHandle offset size =
        .ok (exactSlice file offset size) ↔
      (file.length ≤ offset.toNat ∨ size = 0 ∨ pageSize ∣ offset.toNat) ∧
        (offset.toNat + size.toNat < 2 ^ 64 ∨
          file.length ≤ offset.toNat + size.toNat - 2 ^ 64) := by
  rw [readPreparedFile_eq pageSize offset hsession hsize hfile, ← eof_iff offset size hlength]
  constructor
  · intro hexact
    by_cases hmaps : file.length ≤ offset.toNat ∨ size = 0 ∨ pageSize ∣ offset.toNat
    · refine ⟨hmaps, ?_⟩
      rw [readFileToStringMmap_eq hmaps] at hexact
      have hread := Except.ok.inj hexact
      exact congrArg (fun read : Bytes × ReadPreparedFileResult => read.2.eof) hread
    · rw [not_or, not_or] at hmaps
      rw [readFileToStringMmap_error (Nat.lt_of_not_le hmaps.1) hmaps.2.1 hmaps.2.2] at hexact
      cases hexact
  · rintro ⟨hmaps, heof⟩
    rw [readFileToStringMmap_eq hmaps]
    show Except.ok (_, ReadPreparedFileResult.mk _ _) = _
    rw [heof]
    rfl

/-! ## Partitions -/

/-- Ranges that are all read add up to the slice that they cover. -/
theorem readRanges_eq (pageSize : Nat)
    (hsession : table.sessions.lookup readHandle = some session)
    (hfile : files session.artifactPath = some file) (hlength : file.length < 2 ^ 64)
    (sizes : List UInt64) (hsizes : ∀ size ∈ sizes, size.toNat ≤ session.maxReadBytes.toNat)
    (start : Nat) (hcover : start + (sizes.map UInt64.toNat).sum = file.length) :
    (RangesAligned pageSize start sizes →
      readRanges pageSize true table files readHandle start sizes = .ok (file.drop start)) ∧
    (¬ RangesAligned pageSize start sizes →
      readRanges pageSize true table files readHandle start sizes = .error .ioError) := by
  induction sizes generalizing start with
  | nil =>
      have hend : file.drop start = [] := List.drop_of_length_le (by simpa using hcover.ge)
      rw [hend]
      exact ⟨fun _ => rfl, fun h => absurd trivial h⟩
  | cons size sizes ih =>
      rw [List.map_cons, List.sum_cons] at hcover
      have hstart : (UInt64.ofNat start).toNat = start := 
        UInt64.toNat_ofNat_of_lt' (show start < 2 ^ 64 by omega)
      have hread := readPreparedFile_eq pageSize (UInt64.ofNat start)
        hsession (hsizes size List.mem_cons_self) hfile
      have hrest := ih (fun other hmem => hsizes other (List.mem_cons_of_mem _ hmem))
        (start + size.toNat) (by omega)
      rw [readRanges, hread]
      by_cases hpage : size = 0 ∨ pageSize ∣ start
      · rw [readFileToStringMmap_eq (by rw [hstart]; exact .inr hpage), hstart]
        have hsplit : file.drop start =
            (file.drop start).take size.toNat ++ file.drop (start + size.toNat) := by
          rw [← List.drop_drop, List.take_append_drop]
        constructor
        · intro haligned
          show (readRanges _ _ _ _ _ _ _ >>= _) = _
          rw [hrest.1 haligned.2]
          exact congrArg Except.ok hsplit.symm
        · intro hnot
          show (readRanges _ _ _ _ _ _ _ >>= _) = _
          rw [hrest.2 fun haligned => hnot ⟨hpage, haligned⟩]
          rfl
      · refine ⟨fun haligned => absurd haligned.1 hpage, fun _ => ?_⟩
        rw [not_or] at hpage
        have hpos : size.toNat ≠ 0 := fun hzero => hpage.1 (UInt64.toNat_inj.mp hzero)
        rw [readFileToStringMmap_error (by rw [hstart]; omega) hpage.1 (by rw [hstart]; exact hpage.2)]
        rfl

/-- A read is exact when its range is empty, behind the end or at a page boundary, and
    its end does not wrap around into the file. A partition gives the file back when all
    its ranges begin at pages. -/
theorem readPreparedFile_exact_iff (pageSize : Nat) (table : ReadSessionTable)
    (files : Bytes → Option Bytes) (readHandle : UInt64) (session : ReadSession) (file : Bytes)
    (hsession : table.sessions.lookup readHandle = some session)
    (hfile : files session.artifactPath = some file) (hlength : file.length < 2 ^ 64) :
    (∀ offset size : UInt64, size.toNat ≤ session.maxReadBytes.toNat →
      (readPreparedFile pageSize true table files readHandle offset size =
          .ok (exactSlice file offset size) ↔
        (file.length ≤ offset.toNat ∨ size = 0 ∨ pageSize ∣ offset.toNat) ∧
          (offset.toNat + size.toNat < 2 ^ 64 ∨
            file.length ≤ offset.toNat + size.toNat - 2 ^ 64))) ∧
      ∀ sizes : List UInt64, (∀ size ∈ sizes, size.toNat ≤ session.maxReadBytes.toNat) →
        (sizes.map UInt64.toNat).sum = file.length →
        (readRanges pageSize true table files readHandle 0 sizes = .ok file ↔
          RangesAligned pageSize 0 sizes) := by
  refine ⟨?_, ?_⟩
  · intro offset size hsize
    exact readPreparedFile_exact_iff_range hsession hsize hfile hlength
  intro sizes hsizes hcover
  have hranges := readRanges_eq pageSize hsession hfile hlength sizes hsizes 0
    (by rw [Nat.zero_add]; exact hcover)
  constructor
  · intro hread
    by_contra hnot
    rw [hranges.2 hnot] at hread
    cases hread
  · intro haligned
    rw [hranges.1 haligned, List.drop_zero]

/-- A session of a file of six bytes. -/
def sampleSession : ReadSession := ⟨1, 5, [47, 97], 6, kMaxReadBytes⟩

def sampleTable : ReadSessionTable := { sessions := (∅ : AList _).insert 1 sampleSession }

def sampleFiles (path : Bytes) : Option Bytes :=
  if path = [47, 97] then some [1, 2, 3, 4, 5, 6] else none

theorem readPreparedFile_exact_of_page :
    readPreparedFile 4 true sampleTable sampleFiles 1 4 9 = .ok (exactSlice [1, 2, 3, 4, 5, 6] 4 9) :=
  ((readPreparedFile_exact_iff 4 sampleTable sampleFiles 1 sampleSession [1, 2, 3, 4, 5, 6]
    (by decide) (by decide) (by decide)).1 4 9 (by decide)).mpr (by decide)

/-- From offset three on, the last bytes cannot be read. -/
theorem unaligned_read_fails :
    sampleTable.sessions.lookup 1 = some sampleSession ∧ (2 : UInt64).toNat ≤ kMaxReadBytes.toNat ∧
      readPreparedFile 4096 true sampleTable sampleFiles 1 3 2 = .error .ioError := by
  refine ⟨by decide, by decide, by decide⟩

end Zb.OpticalNode
