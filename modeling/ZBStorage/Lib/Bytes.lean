-- SUMMARY: Byte strings and fixed-size buffers: little-endian fields written and read back at offsets, decimal numerals.
import Mathlib.Data.UInt
import Mathlib.Data.List.Basic
import Mathlib.Data.List.DropRight
import Mathlib.Tactic.NormNum

abbrev Bytes := List UInt8

namespace Bytes

section Decidable

-- What holds of the members of a list or an option is decided on the members, not
-- by trying every number of a fixed width.

variable {α : Type} {p : α → Prop} [DecidablePred p]

instance (priority := 1100) decidableForallMemOption (o : Option α) : Decidable (∀ a ∈ o, p a) :=
  Option.decidableForallMem o

instance (priority := 1100) decidableExistsMemOption (o : Option α) : Decidable (∃ a ∈ o, p a) :=
  Option.decidableExistsMem o

instance (priority := 1100) decidableForallMemList (l : List α) : Decidable (∀ a ∈ l, p a) :=
  List.decidableBAll p l

instance (priority := 1100) decidableExistsMemList (l : List α) : Decidable (∃ a ∈ l, p a) :=
  List.decidableBEx p l

instance (priority := 1100) decidableMemList [DecidableEq α] (a : α) (l : List α) :
    Decidable (a ∈ l) := List.instDecidableMemOfLawfulBEq a l

end Decidable

/-! ## Little-endian numbers -/

/-- The `n` low bytes of `v`, least significant first. -/
def ofNatLE : Nat → Nat → Bytes
  | 0, _ => []
  | n + 1, v => UInt8.ofNat v :: ofNatLE n (v / 256)

def toNatLE : Bytes → Nat
  | [] => 0
  | b :: bs => b.toNat + 256 * toNatLE bs

@[simp] theorem length_ofNatLE (n v : Nat) : (ofNatLE n v).length = n := by
  induction n generalizing v with
  | zero => rfl
  | succ n ih => simp [ofNatLE, ih]

theorem toNatLE_ofNatLE (n v : Nat) : toNatLE (ofNatLE n v) = v % 256 ^ n := by
  induction n generalizing v with
  | zero => simp [ofNatLE, toNatLE, Nat.mod_one]
  | succ n ih =>
      have hbyte : (UInt8.ofNat v).toNat = v % 256 := by simp
      simp only [ofNatLE, toNatLE, ih, hbyte]
      rw [Nat.pow_succ', Nat.mod_mul]

/-! ## Buffers -/

/-- Copy `bs` over the bytes of `buf` that start at `off`. The buffer keeps its
    length: what would fall past the end is dropped. -/
def overwrite (buf : Bytes) (off : Nat) (bs : Bytes) : Bytes :=
  buf.take off ++ (bs.take (buf.length - off) ++ buf.drop (off + bs.length))

def slice (buf : Bytes) (off n : Nat) : Bytes :=
  (buf.drop off).take n

@[simp] theorem length_overwrite (buf : Bytes) (off : Nat) (bs : Bytes) :
    (overwrite buf off bs).length = buf.length := by
  simp only [overwrite, List.length_append, List.length_take, List.length_drop]
  omega

theorem getElem?_overwrite (buf : Bytes) (off : Nat) (bs : Bytes) (i : Nat) :
    (overwrite buf off bs)[i]? =
      buf[i]?.map fun b => if off ≤ i then (bs[i - off]?).getD b else b := by
  by_cases hbuf : buf.length ≤ i
  · rw [List.getElem?_eq_none hbuf, List.getElem?_eq_none ((length_overwrite buf off bs).trans_le hbuf)]
    rfl
  have hi : buf[i]? = some (buf.get ⟨i, by omega⟩) := List.getElem?_eq_getElem (by omega)
  by_cases hoff : i < off
  · -- before the copy
    rw [overwrite, List.getElem?_append_left (by rw [List.length_take]; omega),
      List.getElem?_take_of_lt hoff, hi, Option.map_some, if_neg (by omega)]
  have hlen : (buf.take off).length = off := by
    rw [List.length_take]
    omega
  rw [overwrite, List.getElem?_append_right (by omega), hlen, hi, Option.map_some,
    if_pos (by omega)]
  by_cases hcopy : i - off < bs.length
  · -- inside the copy
    rw [List.getElem?_append_left (by rw [List.length_take]; omega),
      List.getElem?_take_of_lt (by omega), List.getElem?_eq_getElem hcopy, Option.getD_some]
  · -- past the copy
    have htake : bs.take (buf.length - off) = bs := List.take_of_length_le (by omega)
    rw [htake, List.getElem?_append_right (by omega), List.getElem?_drop,
      List.getElem?_eq_none (by omega : bs.length ≤ i - off), Option.getD_none, ← hi]
    congr 1
    omega

theorem getElem?_slice (buf : Bytes) (off n i : Nat) :
    (slice buf off n)[i]? = if i < n then buf[off + i]? else none := by
  simp [slice, List.getElem?_take]

/-- A slice is what was last written over exactly that range. -/
theorem slice_overwrite_self {buf : Bytes} {off : Nat} {bs : Bytes}
    (h : off + bs.length ≤ buf.length) :
    slice (overwrite buf off bs) off bs.length = bs := by
  apply List.ext_getElem?
  intro i
  rw [getElem?_slice]
  split
  · next hi =>
      have hbuf : off + i < buf.length := by omega
      simp [getElem?_overwrite, List.getElem?_eq_getElem hbuf, List.getElem?_eq_getElem hi]
  · next hi => simp [List.getElem?_eq_none (Nat.le_of_not_lt hi)]

/-- A slice does not see an overwrite of a disjoint range. -/
theorem slice_overwrite_disjoint {buf : Bytes} {off off' n : Nat} {bs : Bytes}
    (h : off' + n ≤ off ∨ off + bs.length ≤ off') :
    slice (overwrite buf off bs) off' n = slice buf off' n := by
  apply List.ext_getElem?
  intro i
  simp only [getElem?_slice, getElem?_overwrite]
  split
  · next hi =>
      rcases h with h | h
      · have hlt : ¬ off ≤ off' + i := by omega
        simp [hlt]
      · have hout : bs[off' + i - off]? = none := List.getElem?_eq_none (by omega)
        simp [hout]
  · rfl

/-! ## Records laid out field by field -/

/-- One write of a record: `data` copied to the slot of `size` bytes at `offset`. -/
structure Field where
  offset : Nat
  size : Nat
  data : Bytes

namespace Field

def u8 (offset : Nat) (v : UInt8) : Field := ⟨offset, 1, ofNatLE 1 v.toNat⟩
def u16 (offset : Nat) (v : UInt16) : Field := ⟨offset, 2, ofNatLE 2 v.toNat⟩
def u32 (offset : Nat) (v : UInt32) : Field := ⟨offset, 4, ofNatLE 4 v.toNat⟩
def u64 (offset : Nat) (v : UInt64) : Field := ⟨offset, 8, ofNatLE 8 v.toNat⟩

def Fits (f : Field) : Prop := f.data.length ≤ f.size

/-- The slots of two fields do not overlap. -/
def Disjoint (f g : Field) : Prop :=
  f.offset + f.size ≤ g.offset ∨ g.offset + g.size ≤ f.offset

end Field

/-- Perform the writes of `fields` on `buf`, in order. -/
def layout (buf : Bytes) (fields : List Field) : Bytes :=
  fields.foldl (fun out f => overwrite out f.offset f.data) buf

@[simp] theorem length_layout (buf : Bytes) (fields : List Field) :
    (layout buf fields).length = buf.length := by
  induction fields generalizing buf with
  | nil => rfl
  | cons f fields ih => rw [layout, List.foldl_cons, ← layout, ih, length_overwrite]

/-- Writes to other slots leave a slice as it was. -/
theorem slice_layout_untouched {buf : Bytes} {fields : List Field} {off n : Nat}
    (hfits : ∀ f ∈ fields, f.Fits)
    (hout : ∀ f ∈ fields, off + n ≤ f.offset ∨ f.offset + f.size ≤ off) :
    slice (layout buf fields) off n = slice buf off n := by
  induction fields generalizing buf with
  | nil => rfl
  | cons f fields ih =>
      rw [layout, List.foldl_cons, ← layout]
      rw [ih (fun g hg => hfits g (List.mem_cons_of_mem _ hg))
        (fun g hg => hout g (List.mem_cons_of_mem _ hg))]
      have hf : f.data.length ≤ f.size := hfits f List.mem_cons_self
      exact slice_overwrite_disjoint (by
        rcases hout f List.mem_cons_self with h | h
        · exact .inl h
        · exact .inr (by omega))

/-- With pairwise disjoint slots, every field is read back from where it was
    written, whatever the order of the writes. -/
theorem slice_layout {buf : Bytes} {fields : List Field} {f : Field}
    (hmem : f ∈ fields) (hdisj : fields.Pairwise Field.Disjoint) (hfits : ∀ f ∈ fields, f.Fits)
    (hin : f.offset + f.size ≤ buf.length) :
    slice (layout buf fields) f.offset f.data.length = f.data := by
  induction fields generalizing buf with
  | nil => cases hmem
  | cons g fields ih =>
      rw [layout, List.foldl_cons, ← layout]
      obtain ⟨hg, htail⟩ := List.pairwise_cons.mp hdisj
      have hfitsTail : ∀ f ∈ fields, f.Fits := fun f hf => hfits f (List.mem_cons_of_mem _ hf)
      rcases List.mem_cons.mp hmem with rfl | hmem
      · -- the field just written: no later write reaches its slot
        have hfit : f.data.length ≤ f.size := hfits f List.mem_cons_self
        rw [slice_layout_untouched hfitsTail ?_, slice_overwrite_self (by omega)]
        intro h hh
        rcases hg h hh with hd | hd
        · exact .inl (by omega)
        · exact .inr hd
      · exact ih hmem htail hfitsTail (by simpa using hin)

/-! ## Fixed-width fields -/

def readU8 (buf : Bytes) (off : Nat) : UInt8 := UInt8.ofNat (toNatLE (slice buf off 1))
def readU16 (buf : Bytes) (off : Nat) : UInt16 := UInt16.ofNat (toNatLE (slice buf off 2))
def readU32 (buf : Bytes) (off : Nat) : UInt32 := UInt32.ofNat (toNatLE (slice buf off 4))
def readU64 (buf : Bytes) (off : Nat) : UInt64 := UInt64.ofNat (toNatLE (slice buf off 8))

section ReadBack

variable {buf : Bytes} {fields : List Field} {off : Nat}

/-- A number of `n` bytes read back from its own slot. -/
theorem toNatLE_slice_layout {n v : Nat} (hmem : (⟨off, n, ofNatLE n v⟩ : Field) ∈ fields)
    (hdisj : fields.Pairwise Field.Disjoint) (hfits : ∀ f ∈ fields, f.Fits)
    (hin : off + n ≤ buf.length) (hv : v < 256 ^ n) :
    toNatLE (slice (layout buf fields) off n) = v := by
  have h := slice_layout hmem hdisj hfits hin
  simp only [length_ofNatLE] at h
  rw [h, toNatLE_ofNatLE, Nat.mod_eq_of_lt hv]

theorem readU8_layout {v : UInt8} (hmem : Field.u8 off v ∈ fields)
    (hdisj : fields.Pairwise Field.Disjoint) (hfits : ∀ f ∈ fields, f.Fits)
    (hin : off + 1 ≤ buf.length) : readU8 (layout buf fields) off = v := by
  rw [readU8, toNatLE_slice_layout hmem hdisj hfits hin v.toNat_lt, UInt8.ofNat_toNat]

theorem readU16_layout {v : UInt16} (hmem : Field.u16 off v ∈ fields)
    (hdisj : fields.Pairwise Field.Disjoint) (hfits : ∀ f ∈ fields, f.Fits)
    (hin : off + 2 ≤ buf.length) : readU16 (layout buf fields) off = v := by
  rw [readU16, toNatLE_slice_layout hmem hdisj hfits hin v.toNat_lt, UInt16.ofNat_toNat]

theorem readU32_layout {v : UInt32} (hmem : Field.u32 off v ∈ fields)
    (hdisj : fields.Pairwise Field.Disjoint) (hfits : ∀ f ∈ fields, f.Fits)
    (hin : off + 4 ≤ buf.length) : readU32 (layout buf fields) off = v := by
  rw [readU32, toNatLE_slice_layout hmem hdisj hfits hin v.toNat_lt, UInt32.ofNat_toNat]

theorem readU64_layout {v : UInt64} (hmem : Field.u64 off v ∈ fields)
    (hdisj : fields.Pairwise Field.Disjoint) (hfits : ∀ f ∈ fields, f.Fits)
    (hin : off + 8 ≤ buf.length) : readU64 (layout buf fields) off = v := by
  rw [readU64, toNatLE_slice_layout hmem hdisj hfits hin v.toNat_lt, UInt64.ofNat_toNat]

end ReadBack

/-! ## Text -/

/-- The bytes of an ASCII literal. -/
def ofAscii (s : String) : Bytes := s.toList.map fun c => UInt8.ofNat c.toNat

/-- `std::to_string` of an unsigned number. -/
def decimal (n : Nat) : Bytes := (Nat.toDigits 10 n).map fun c => UInt8.ofNat c.toNat

def isDigit (b : UInt8) : Bool := 48 ≤ b && b ≤ 57

/-- The value of a string of decimal digits. -/
def digitsValue (bs : Bytes) : Nat := bs.foldl (fun n b => 10 * n + (b.toNat - 48)) 0

theorem toNat_ofNat_digitChar {c : Char} (h : c.isDigit = true) :
    (UInt8.ofNat c.toNat).toNat = c.toNat := by
  have hle : c.toNat ≤ 57 := by
    simp only [Char.isDigit, Bool.and_eq_true, decide_eq_true_eq] at h
    exact h.2
  simp
  omega

theorem isDigit_of_mem_decimal {n : Nat} {b : UInt8} (h : b ∈ decimal n) : isDigit b = true := by
  obtain ⟨c, hc, rfl⟩ := List.mem_map.mp h
  have hdigit := Nat.isDigit_of_mem_toDigits (by decide) (by decide) hc
  have hnat := toNat_ofNat_digitChar hdigit
  simp only [Char.isDigit, Bool.and_eq_true, decide_eq_true_eq] at hdigit
  simp only [isDigit, Bool.and_eq_true, decide_eq_true_eq, UInt8.le_iff_toNat_le, hnat]
  exact hdigit

theorem digitsValue_map {cs : List Char} (h : ∀ c ∈ cs, c.isDigit = true) (n : Nat) :
    (cs.map fun c => UInt8.ofNat c.toNat).foldl (fun n b => 10 * n + (b.toNat - 48)) n =
      Nat.ofDigitChars 10 cs n := by
  induction cs generalizing n with
  | nil => rfl
  | cons c cs ih =>
      have hc := toNat_ofNat_digitChar (h c List.mem_cons_self)
      rw [List.map_cons, List.foldl_cons, ih fun d hd => h d (List.mem_cons_of_mem c hd),
        Nat.ofDigitChars_cons, hc]
      rfl

theorem digitsValue_decimal (n : Nat) : digitsValue (decimal n) = n := by
  rw [digitsValue, decimal,
    digitsValue_map fun c hc => Nat.isDigit_of_mem_toDigits (by decide) (by decide) hc,
    Nat.ofDigitChars_ten_toDigits]

theorem decimal_injective : Function.Injective decimal :=
  Function.LeftInverse.injective digitsValue_decimal

/-- A numeral ends where something that is no digit follows. -/
theorem decimal_append_inj {m n : Nat} {b : UInt8} {xs ys : Bytes} (hb : isDigit b = false)
    (h : decimal m ++ b :: xs = decimal n ++ b :: ys) : m = n ∧ xs = ys := by
  have htake (n : Nat) (xs : Bytes) :
      (decimal n ++ b :: xs).takeWhile isDigit = decimal n := by
    rw [List.takeWhile_append_of_pos fun _ hmem => isDigit_of_mem_decimal hmem,
      List.takeWhile_cons_of_neg (by rw [hb]; exact Bool.false_ne_true), List.append_nil]
  have hnumeral := congrArg (List.takeWhile isDigit) h
  rw [htake, htake] at hnumeral
  have hrest := List.append_cancel_left (hnumeral ▸ h)
  exact ⟨decimal_injective hnumeral, (List.cons.inj hrest).2⟩

end Bytes
