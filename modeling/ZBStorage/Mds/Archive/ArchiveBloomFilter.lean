-- SUMMARY: The Bloom filter of an archive generation, and the file that it is saved in and loaded from.
import ZBStorage.Lib.BitArray
import ZBStorage.Lib.ByteReader

/-!
# Bloom filters

`ArchiveBloomFilter.cpp`. Every value has a place for each of the hashes; adding it sets
their bits, and it may be in the filter if all of them are set. A filter without bits
takes nothing in and contains nothing.
-/

namespace Zb.Mds

open Bytes BitArray

structure ArchiveBloomFilter where
  bitCount : UInt64 := 0
  hashCount : UInt32 := 0
  itemCount : UInt64 := 0
  bits : Bytes := []
  deriving DecidableEq

namespace ArchiveBloomFilter

/-- `{'A', 'R', 'C', 'B', 'L', 'M', '1', '\0'}` -/
def kArchiveBloomMagic : Bytes := ofAscii "ARCBLM1" ++ [0]

/-- The filter that `Initialize` leaves, with the sizes that it computes in floating
    point. -/
def sized (bitCount : UInt64) (hashCount : UInt32) : ArchiveBloomFilter where
  bitCount := bitCount
  hashCount := hashCount
  bits := List.replicate ((bitCount + 7) / 8).toNat 0

def mix64 (value : UInt64) : UInt64 :=
  let value := value ^^^ (value >>> 33)
  let value := value * 0xff51afd7ed558ccd
  let value := value ^^^ (value >>> 33)
  let value := value * 0xc4ceb9fe1a85ec53
  value ^^^ (value >>> 33)

/-- The place of a value for one of the hashes. -/
def place (bitCount value : UInt64) (hash : Nat) : Nat :=
  let h1 := mix64 (value ^^^ 0x9e3779b97f4a7c15)
  let h2 := mix64 (value ^^^ 0xc2b2ae3d27d4eb4f) ||| 1
  ((h1 + UInt64.ofNat hash * h2) % bitCount).toNat

def Empty (filter : ArchiveBloomFilter) : Prop :=
  filter.bitCount = 0 ∨ filter.hashCount = 0 ∨ filter.bits = []

instance (filter : ArchiveBloomFilter) : Decidable filter.Empty := inferInstanceAs (Decidable (_ ∨ _))

def addUInt64 (filter : ArchiveBloomFilter) (value : UInt64) : ArchiveBloomFilter :=
  if filter.Empty then filter
  else
    { filter with
      bits := (List.range filter.hashCount.toNat).foldl
        (fun bits hash => setBit bits (place filter.bitCount value hash)) filter.bits
      itemCount := filter.itemCount + 1 }

def mayContainUInt64 (filter : ArchiveBloomFilter) (value : UInt64) : Bool :=
  if filter.Empty then false
  else (List.range filter.hashCount.toNat).all fun hash =>
    getBit filter.bits (place filter.bitCount value hash)

/-- What `SaveToFile` writes. -/
def save (filter : ArchiveBloomFilter) : Bytes :=
  kArchiveBloomMagic ++ (putU64 filter.bitCount ++ (putU32 filter.hashCount ++
    (putU64 filter.itemCount ++ filter.bits)))

/-- The magic and the sizes. -/
def readHeader : Reader (Bytes × UInt64 × UInt32 × UInt64) := do
  let magic ← readRaw kArchiveBloomMagic.length
  let bitCount ← nextU64
  let hashCount ← nextU32
  let itemCount ← nextU64
  return (magic, bitCount, hashCount, itemCount)

/-- `LoadFromFile`, from what the file holds. -/
def load (data : Bytes) : Except String ArchiveBloomFilter :=
  match readHeader data with
  | none => .error "corrupted bloom filter file"
  | some ((magic, bitCount, hashCount, itemCount), rest) =>
      if magic ≠ kArchiveBloomMagic then .error "invalid bloom filter header"
      else
        match readRaw ((bitCount + 7) / 8).toNat rest with
        | none => .error "corrupted bloom filter bitset"
        | some (bits, _) => .ok { bitCount, hashCount, itemCount, bits }

/-! ## No value is missed -/

variable {filter : ArchiveBloomFilter} {value other : UInt64} {values : List UInt64}

/-- There is a bit for every place. -/
structure Allocated (filter : ArchiveBloomFilter) : Prop where
  bitCount : filter.bitCount ≠ 0
  hashCount : filter.hashCount ≠ 0
  bits : filter.bits.length = ((filter.bitCount + 7) / 8).toNat
  room : filter.bitCount.toNat + 7 < 2 ^ 64

theorem Allocated.length_bits (h : filter.Allocated) :
    filter.bits.length = (filter.bitCount.toNat + 7) / 8 := by
  have hseven : (7 : UInt64).toNat = 7 := rfl
  have height : (8 : UInt64).toNat = 8 := rfl
  rw [h.bits, UInt64.toNat_div, UInt64.toNat_add, hseven, height, Nat.mod_eq_of_lt h.room]

theorem Allocated.pos (h : filter.Allocated) : 0 < filter.bitCount.toNat :=
  Nat.pos_of_ne_zero fun hzero => h.bitCount (UInt64.toNat_inj.mp hzero)

theorem Allocated.not_empty (h : filter.Allocated) : ¬filter.Empty := by
  rintro (hbits | hhash | hnil)
  · exact h.bitCount hbits
  · exact h.hashCount hhash
  · have hlength := h.length_bits
    have hpos := h.pos
    rw [hnil, List.length_nil] at hlength
    omega

theorem Allocated.place_lt (h : filter.Allocated) (value : UInt64) (hash : Nat) :
    place filter.bitCount value hash / 8 < filter.bits.length := by
  have hlt : place filter.bitCount value hash < filter.bitCount.toNat := by
    rw [place, UInt64.toNat_mod]
    exact Nat.mod_lt _ h.pos
  rw [h.length_bits]
  omega

theorem Allocated.add (h : filter.Allocated) (value : UInt64) : (filter.addUInt64 value).Allocated := by
  rw [addUInt64, if_neg h.not_empty]
  exact ⟨h.bitCount, h.hashCount, (length_foldl _ _ _).trans h.bits, h.room⟩

theorem Allocated.mayContain_iff (h : filter.Allocated) : filter.mayContainUInt64 value = true ↔
    ∀ hash < filter.hashCount.toNat, getBit filter.bits (place filter.bitCount value hash) = true := by
  rw [mayContainUInt64, if_neg h.not_empty, List.all_eq_true]
  simp only [List.mem_range]

theorem Allocated.mayContain_self (h : filter.Allocated) (value : UInt64) :
    (filter.addUInt64 value).mayContainUInt64 value = true := by
  rw [(h.add value).mayContain_iff, addUInt64, if_neg h.not_empty]
  intro hash hlt
  exact getBit_foldl_of_mem (List.mem_range.mpr hlt) (h.place_lt value hash)

theorem Allocated.mayContain_add (h : filter.Allocated) (other : UInt64)
    (hold : filter.mayContainUInt64 value = true) :
    (filter.addUInt64 other).mayContainUInt64 value = true := by
  rw [(h.add other).mayContain_iff, addUInt64, if_neg h.not_empty]
  intro hash hlt
  exact getBit_foldl_of_getBit _ _ (h.mayContain_iff.mp hold hash hlt)

/-- A filter may contain whatever was added to it. -/
theorem Allocated.mayContain_foldl (h : filter.Allocated)
    (hvalue : value ∈ values ∨ filter.mayContainUInt64 value = true) :
    (values.foldl addUInt64 filter).mayContainUInt64 value = true := by
  induction values generalizing filter with
  | nil => exact hvalue.resolve_left fun hmem => nomatch hmem
  | cons first values ih =>
      refine ih (h.add first) ?_
      rcases hvalue with hmem | hold
      · rcases List.mem_cons.mp hmem with rfl | hmem
        · exact .inr (h.mayContain_self _)
        · exact .inl hmem
      · exact .inr (h.mayContain_add first hold)

theorem Allocated.foldl (h : filter.Allocated) (values : List UInt64) :
    (values.foldl addUInt64 filter).Allocated := by
  induction values generalizing filter with
  | nil => exact h
  | cons first values ih => exact ih (h.add first)

theorem allocated_sized {bitCount : UInt64} {hashCount : UInt32} (hbits : bitCount ≠ 0)
    (hhash : hashCount ≠ 0) (hroom : bitCount.toNat + 7 < 2 ^ 64) :
    (sized bitCount hashCount).Allocated :=
  ⟨hbits, hhash, List.length_replicate, hroom⟩

theorem reads_header (filter : ArchiveBloomFilter) :
    Reads readHeader (kArchiveBloomMagic ++ (putU64 filter.bitCount ++ (putU32 filter.hashCount ++
        putU64 filter.itemCount)))
      (kArchiveBloomMagic, filter.bitCount, filter.hashCount, filter.itemCount) := by
  apply (Reads.raw rfl).bind
  apply (reads_u64 _).bind
  apply (reads_u32 _).bind
  exact (reads_u64 _).map (f := fun itemCount =>
    (kArchiveBloomMagic, filter.bitCount, filter.hashCount, itemCount))

/-- A saved filter is loaded back. -/
theorem Allocated.load_save (h : filter.Allocated) : load filter.save = .ok filter := by
  have hheader := reads_header filter filter.bits
  have hsave : filter.save = kArchiveBloomMagic ++ (putU64 filter.bitCount ++
      (putU32 filter.hashCount ++ putU64 filter.itemCount)) ++ filter.bits := by
    simp only [save, List.append_assoc]
  have hbits : readRaw ((filter.bitCount + 7) / 8).toNat filter.bits = some (filter.bits, []) := by
    have hread := Reads.raw h.bits []
    rwa [List.append_nil] at hread
  rw [load, hsave, hheader]
  dsimp only
  rw [if_neg fun hne => hne rfl, hbits]

end ArchiveBloomFilter

end Zb.Mds
