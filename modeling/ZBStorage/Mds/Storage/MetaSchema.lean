-- SUMMARY: The keys of the metadata store, and that no two of them share a string.
import ZBStorage.Mds.Messages

/-!
# Keys of the metadata store

`MetaSchema.h`. A key is a kind with its components, and `MetaKey.render` is the
string the source builds for it. Rendering is injective, so the store can be
indexed by keys instead of strings.
-/

namespace Zb.Mds

open Zb.Rpc Bytes

inductive MetaKey
  | inode (inodeId : UInt64)
  | dentry (parentInode : UInt64) (name : Bytes)
  | nextInode
  | diskFileLocation (inodeId : UInt64)
  | opticalFileLocation (inodeId : UInt64)
  | fileArchiveState (inodeId : UInt64)
  | modelOpticalArchiveCommit (operationId : Bytes)
  | opticalLibraryHandoff (nodeId : Bytes)
  | nextHandle
  | handle (handleId : UInt64)
  deriving DecidableEq

/-- What is stored under a key. Unified records and numbers are stored as their
    bytes, protocol messages as themselves. -/
abbrev MetaKey.Value : MetaKey → Type
  | .inode _ | .dentry _ _ | .nextInode | .nextHandle | .handle _ => Bytes
  | .diskFileLocation _ => DiskFileLocation
  | .opticalFileLocation _ => OpticalFileLocation
  | .fileArchiveState _ => ArchiveLeaseRecord
  | .modelOpticalArchiveCommit _ => ModelOpticalArchiveRequest
  | .opticalLibraryHandoff _ => OpticalLibraryHandoffRecord

instance (k : MetaKey) : DecidableEq k.Value := by
  cases k <;> infer_instance

def kRootInodeId : UInt64 := 1

def dentryPrefix (parentInode : UInt64) : Bytes :=
  ofAscii "D/" ++ decimal parentInode.toNat ++ ofAscii "/"

def MetaKey.render : MetaKey → Bytes
  | .inode inodeId => ofAscii "I/" ++ decimal inodeId.toNat
  | .dentry parentInode name => dentryPrefix parentInode ++ name
  | .nextInode => ofAscii "X/next_inode"
  | .diskFileLocation inodeId => ofAscii "DL/" ++ decimal inodeId.toNat
  | .opticalFileLocation inodeId => ofAscii "OL/" ++ decimal inodeId.toNat
  | .fileArchiveState inodeId => ofAscii "AF/" ++ decimal inodeId.toNat
  | .modelOpticalArchiveCommit operationId => ofAscii "MOA/" ++ operationId
  | .opticalLibraryHandoff nodeId => ofAscii "OLH/" ++ nodeId
  | .nextHandle => ofAscii "X/next_handle"
  | .handle handleId => ofAscii "H/" ++ decimal handleId.toNat

/-! ## Rendering -/

theorem decimal_toNat_injective {a b : UInt64} (h : decimal a.toNat = decimal b.toNat) : a = b :=
  UInt64.toNat_inj.mp (decimal_injective h)

/-- The number of a dentry key ends at the first byte that is no digit. -/
theorem takeWhile_isDigit_decimal (n : Nat) (s : Bytes) :
    (decimal n ++ 47 :: s).takeWhile isDigit = decimal n := by
  rw [List.takeWhile_append_of_pos fun b hb => isDigit_of_mem_decimal hb,
    List.takeWhile_cons_of_neg (by decide), List.append_nil]

theorem dentryPrefix_append_inj {p q : UInt64} {s t : Bytes}
    (h : dentryPrefix p ++ s = dentryPrefix q ++ t) : p = q ∧ s = t := by
  have hslash : ofAscii "/" = [47] := by decide
  simp only [dentryPrefix, hslash, List.append_assoc, List.append_cancel_left_eq,
    List.cons_append, List.nil_append] at h
  have hnum : decimal p.toNat = decimal q.toNat := by
    rw [← takeWhile_isDigit_decimal p.toNat s, h, takeWhile_isDigit_decimal]
  rw [hnum, List.append_cancel_left_eq, List.cons.injEq] at h
  exact ⟨decimal_toNat_injective hnum, h.2⟩

theorem MetaKey.render_injective : Function.Injective MetaKey.render := by
  have hI : ofAscii "I/" = [73, 47] := by decide
  have hD : ofAscii "D/" = [68, 47] := by decide
  have hX : ofAscii "X/next_inode" = [88, 47, 110, 101, 120, 116, 95, 105, 110, 111, 100, 101] := by
    decide
  have hDL : ofAscii "DL/" = [68, 76, 47] := by decide
  have hOL : ofAscii "OL/" = [79, 76, 47] := by decide
  have hAF : ofAscii "AF/" = [65, 70, 47] := by decide
  have hMOA : ofAscii "MOA/" = [77, 79, 65, 47] := by decide
  have hOLH : ofAscii "OLH/" = [79, 76, 72, 47] := by decide
  have hXH : ofAscii "X/next_handle" =
      [88, 47, 110, 101, 120, 116, 95, 104, 97, 110, 100, 108, 101] := by decide
  have hH : ofAscii "H/" = [72, 47] := by decide
  intro a b h
  cases a <;> cases b <;>
    simp [render, dentryPrefix, hI, hD, hX, hDL, hOL, hAF, hMOA, hOLH, hXH, hH] at h
  case inode.inode a b => rw [decimal_toNat_injective h]
  case dentry.dentry p s q t =>
    obtain ⟨rfl, rfl⟩ := dentryPrefix_append_inj (p := p) (q := q) (s := s) (t := t)
      (by simp [dentryPrefix, h])
    rfl
  case nextInode.nextInode => rfl
  case diskFileLocation.diskFileLocation a b => rw [decimal_toNat_injective h]
  case opticalFileLocation.opticalFileLocation a b => rw [decimal_toNat_injective h]
  case fileArchiveState.fileArchiveState a b => rw [decimal_toNat_injective h]
  case modelOpticalArchiveCommit.modelOpticalArchiveCommit a b => rw [h]
  case opticalLibraryHandoff.opticalLibraryHandoff a b => rw [h]
  case nextHandle.nextHandle => rfl
  case handle.handle a b => rw [decimal_toNat_injective h]

end Zb.Mds
