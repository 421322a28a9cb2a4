-- SUMMARY: Byte arrays kept in blocks of a fixed size: what a write, a truncation and a read see.
import ZBStorage.Lib.Bytes

/-!
# Byte arrays in blocks

A byte array is written at offsets, where a gap is filled with zeros, and cut or
extended with zeros. It may be kept in blocks that exist only where something was
written. The blocks hold the array when they hold every byte below its length, and
this is kept by a write whose gap they hold as zeros, or fill within one block.
-/

namespace BlockBytes

open Bytes

/-! ## Arrays -/

/-- `data` written at `offset`, with zeros in the gap, if there is one. -/
def patch (array : Bytes) (offset : Nat) (data : Bytes) : Bytes :=
  array.take offset ++ (List.replicate (offset - array.length) 0 ++
    (data ++ array.drop (offset + data.length)))

def resize (array : Bytes) (size : Nat) : Bytes :=
  array.take size ++ List.replicate (size - array.length) 0

variable {array data : Bytes} {offset size stop unit i n p : Nat}

@[simp] theorem length_patch (array : Bytes) (offset : Nat) (data : Bytes) :
    (patch array offset data).length = max array.length (offset + data.length) := by
  simp only [patch, List.length_append, List.length_take, List.length_replicate,
    List.length_drop]
  omega

@[simp] theorem length_resize (array : Bytes) (size : Nat) :
    (resize array size).length = size := by
  simp only [resize, List.length_append, List.length_take, List.length_replicate]
  omega

theorem getElem?_resize (array : Bytes) (size i : Nat) :
    (resize array size)[i]? =
      if i < size then if i < array.length then array[i]? else some 0 else none := by
  split
  · rename_i hsize
    split
    · rename_i hlen
      rw [resize, List.getElem?_append_left (by rw [List.length_take]; omega),
        List.getElem?_take_of_lt hsize]
    · rename_i hlen
      have htake : (array.take size).length = array.length := by
        rw [List.length_take]
        omega
      rw [resize, List.getElem?_append_right (by omega), htake, List.getElem?_replicate,
        if_pos (by omega)]
  · exact List.getElem?_eq_none (by rw [length_resize]; omega)

theorem getElem?_patch (array : Bytes) (offset : Nat) (data : Bytes) (i : Nat) :
    (patch array offset data)[i]? =
      if i < offset then if i < array.length then array[i]? else some 0
      else if i < offset + data.length then data[i - offset]?
      else array[i]? := by
  have hfront : (resize array offset).length = offset := length_resize array offset
  have hpatch : patch array offset data =
      resize array offset ++ (data ++ array.drop (offset + data.length)) := by
    simp only [patch, resize, List.append_assoc]
  rw [hpatch]
  by_cases hbefore : i < offset
  · rw [List.getElem?_append_left (by omega), getElem?_resize, if_pos hbefore, if_pos hbefore]
  · rw [List.getElem?_append_right (by omega), hfront, if_neg hbefore]
    split
    · exact List.getElem?_append_left (by omega)
    · rw [List.getElem?_append_right (by omega), List.getElem?_drop]
      congr 1
      omega

/-! ## Blocks -/

/-- Where the part of the range from `offset` to `stop` in the block `i` begins and ends. -/
def segStart (unit offset i : Nat) : Nat := max (i * unit) offset

def segEnd (unit stop i : Nat) : Nat := min (i * unit + unit) stop

/-- The byte at a position of the array, if its block holds it. -/
def byteAt (unit : Nat) (store : Nat → Option Bytes) (p : Nat) : Option UInt8 :=
  (store (p / unit)).bind fun block => block[p % unit]?

/-- The blocks after a write of a range: every block that the range touches is patched. -/
def writeRange (unit offset : Nat) (data : Bytes) (store : Nat → Option Bytes) (i : Nat) :
    Option Bytes :=
  if offset / unit ≤ i ∧ i ≤ (offset + data.length - 1) / unit then
    some (patch ((store i).getD []) (segStart unit offset i - i * unit)
      (slice data (segStart unit offset i - offset)
        (segEnd unit (offset + data.length) i - segStart unit offset i)))
  else store i

/-- The blocks hold every byte of the array. -/
def Holds (unit : Nat) (store : Nat → Option Bytes) (array : Bytes) : Prop :=
  ∀ p < array.length, byteAt unit store p = array[p]?

variable {store : Nat → Option Bytes}

theorem byteAt_block (hunit : 0 < unit) (hstart : i * unit ≤ p) (hend : p < i * unit + unit) :
    byteAt unit store p = (store i).bind fun block => block[p - i * unit]? := by
  have hdiv : p / unit = i := by
    rw [Nat.div_eq_iff hunit]
    constructor
    · omega
    · have := Nat.succ_mul i unit
      omega
  have hmod : p % unit = p - i * unit := by
    have := Nat.div_add_mod p unit
    rw [hdiv, Nat.mul_comm] at this
    omega
  rw [byteAt, hdiv, hmod]

theorem block_bounds (hunit : 0 < unit) (p : Nat) :
    p / unit * unit ≤ p ∧ p < p / unit * unit + unit :=
  ⟨Nat.div_mul_le_self p unit, by
    have := Nat.div_add_mod p unit
    have := Nat.mod_lt p hunit
    rw [Nat.mul_comm]
    omega⟩

/-- Inside the range the blocks hold what was written, and before it, in its first
    block, there is no gap. All the other bytes are kept. -/
theorem byteAt_writeRange (hunit : 0 < unit) (hdata : data ≠ []) (store : Nat → Option Bytes)
    (p : Nat) :
    byteAt unit (writeRange unit offset data store) p =
      if offset ≤ p ∧ p < offset + data.length then data[p - offset]?
      else if p < offset ∧ p / unit = offset / unit then
        some ((byteAt unit store p).getD 0)
      else byteAt unit store p := by
  have hpos : 0 < data.length := List.length_pos_iff.mpr hdata
  obtain ⟨hstart, hend⟩ := block_bounds hunit p
  have hold : byteAt unit store p =
      ((store (p / unit)).getD [])[p - p / unit * unit]? := by
    rw [byteAt_block hunit hstart hend]
    cases store (p / unit) with
    | none => rfl
    | some block => rfl
  by_cases htouched : offset / unit ≤ p / unit ∧ p / unit ≤ (offset + data.length - 1) / unit
  · have hblock : writeRange unit offset data store (p / unit) = some _ := if_pos htouched
    have hfirst : p / unit * unit ≤ offset + data.length - 1 := by
      have := Nat.div_mul_le_self (offset + data.length - 1) unit
      have := Nat.mul_le_mul_right unit htouched.2
      omega
    have hlast : offset < p / unit * unit + unit := by
      have := (block_bounds hunit offset).2
      have := Nat.mul_le_mul_right unit htouched.1
      omega
    have hlen : (slice data (segStart unit offset (p / unit) - offset)
        (segEnd unit (offset + data.length) (p / unit) -
          segStart unit offset (p / unit))).length =
        segEnd unit (offset + data.length) (p / unit) - segStart unit offset (p / unit) := by
      simp only [slice, List.length_take, List.length_drop, segStart, segEnd]
      omega
    rw [byteAt_block hunit hstart hend, hblock, Option.bind_some, getElem?_patch, hlen]
    by_cases hin : offset ≤ p ∧ p < offset + data.length
    · rw [if_pos hin]
      have hseg : segStart unit offset (p / unit) ≤ p ∧
          p < segEnd unit (offset + data.length) (p / unit) := by
        simp only [segStart, segEnd]
        omega
      have hle : p / unit * unit ≤ segStart unit offset (p / unit) := le_max_left _ _
      have hle' : offset ≤ segStart unit offset (p / unit) := le_max_right _ _
      rw [if_neg (by omega), if_pos (by omega), getElem?_slice, if_pos (by omega)]
      congr 1
      omega
    · rw [if_neg hin]
      by_cases hbefore : p < offset
      · -- the range begins in this block
        have hsame : p / unit = offset / unit :=
          le_antisymm (Nat.div_le_div_right hbefore.le) htouched.1
        have hfront : p / unit * unit ≤ p ∧ p < segStart unit offset (p / unit) := by
          simp only [segStart]
          omega
        have hcase : p < offset ∧ p / unit = offset / unit := ⟨hbefore, hsame⟩
        rw [if_pos hcase, if_pos (by omega), hold]
        split
        · rename_i hlength
          rw [List.getElem?_eq_getElem hlength, Option.getD_some]
        · rename_i hlength
          rw [List.getElem?_eq_none (by omega), Option.getD_none]
      · have hafter : segEnd unit (offset + data.length) (p / unit) ≤ p := by
          simp only [segEnd]
          omega
        have hle : p / unit * unit ≤ segStart unit offset (p / unit) := le_max_left _ _
        have hnonempty : segStart unit offset (p / unit) ≤
            segEnd unit (offset + data.length) (p / unit) := by
          simp only [segStart, segEnd]
          omega
        rw [if_neg (by omega), if_neg (by omega), if_neg (fun h => hbefore h.1), hold]
  · have hblock : writeRange unit offset data store (p / unit) = store (p / unit) :=
      if_neg htouched
    have hout : ¬ (offset ≤ p ∧ p < offset + data.length) := fun hin =>
      htouched ⟨Nat.div_le_div_right hin.1, Nat.div_le_div_right (by omega)⟩
    have hother : ¬ (p < offset ∧ p / unit = offset / unit) := fun hsame =>
      htouched ⟨hsame.2.ge, hsame.2.le.trans (Nat.div_le_div_right (by omega))⟩
    rw [if_neg hout, if_neg hother, byteAt, hblock, byteAt]

/-- A write whose gap is held as zeros, or lies in its first block where nothing is. -/
theorem Holds.write (hunit : 0 < unit) (hdata : data ≠ []) (h : Holds unit store array)
    (hgap : ∀ p, array.length ≤ p → p < offset → byteAt unit store p = some 0 ∨
      byteAt unit store p = none ∧ p / unit = offset / unit) :
    Holds unit (writeRange unit offset data store) (patch array offset data) := by
  intro p hp
  rw [length_patch] at hp
  rw [byteAt_writeRange hunit hdata, getElem?_patch]
  by_cases hbefore : p < offset
  · rw [if_neg (by omega), if_pos hbefore]
    by_cases hlen : p < array.length
    · have hbyte := h p hlen
      rw [if_pos hlen, hbyte]
      split
      · rw [List.getElem?_eq_getElem hlen, Option.getD_some]
      · rfl
    · rw [if_neg hlen]
      rcases hgap p (by omega) hbefore with hzero | ⟨hnone, hsame⟩
      · rw [hzero, Option.getD_some, ite_self]
      · rw [if_pos ⟨hbefore, hsame⟩, hnone, Option.getD_none]
  · by_cases hin : p < offset + data.length
    · rw [if_pos ⟨by omega, hin⟩, if_neg hbefore, if_pos hin]
    · rw [if_neg (fun hrange => hin hrange.2), if_neg (fun hrange => hbefore hrange.1),
        if_neg hbefore, if_neg hin]
      exact h p (by omega)

theorem Holds.congr {store' : Nat → Option Bytes} (h : Holds unit store array)
    (hsame : ∀ p < array.length, store' (p / unit) = store (p / unit)) :
    Holds unit store' array := by
  intro p hp
  rw [byteAt, hsame p hp]
  exact h p hp

theorem Holds.resize (h : Holds unit store array)
    (hgap : ∀ p, array.length ≤ p → p < size → byteAt unit store p = some 0) :
    Holds unit store (resize array size) := by
  intro p hp
  rw [length_resize] at hp
  rw [getElem?_resize, if_pos hp]
  split
  · rename_i hlen
    exact h p hlen
  · rename_i hlen
    exact hgap p (by omega) hp

/-! ## Ranges block by block -/

/-- The blocks that a range touches. -/
def touched (unit offset stop : Nat) : List Nat :=
  List.range' (offset / unit) ((stop - 1) / unit - offset / unit + 1)

theorem mem_touched (hlt : offset < stop) :
    i ∈ touched unit offset stop ↔ offset / unit ≤ i ∧ i ≤ (stop - 1) / unit := by
  have hle : offset / unit ≤ (stop - 1) / unit := Nat.div_le_div_right (by omega)
  rw [touched, List.mem_range'_1]
  omega

theorem seg_lt (hunit : 0 < unit) (hlt : offset < stop) (hi : i ∈ touched unit offset stop) :
    segStart unit offset i < segEnd unit stop i := by
  obtain ⟨hfirst, hlast⟩ := (mem_touched hlt).mp hi
  have hstart := (block_bounds hunit offset).2
  have hend := (block_bounds hunit (stop - 1)).1
  have hfirst' := Nat.mul_le_mul_right unit hfirst
  have hlast' := Nat.mul_le_mul_right unit hlast
  simp only [segStart, segEnd]
  omega

/-- The part of the array in a block is what the block holds there. -/
theorem Holds.segment (hunit : 0 < unit) (h : Holds unit store array)
    (hseg : segStart unit offset i < segEnd unit stop i) (hstop : stop ≤ array.length) :
    ∃ block, store i = some block ∧
      slice block (segStart unit offset i - i * unit)
        (segEnd unit stop i - segStart unit offset i) =
          slice array (segStart unit offset i) (segEnd unit stop i - segStart unit offset i) := by
  have hstart : i * unit ≤ segStart unit offset i := le_max_left _ _
  have hend : segEnd unit stop i ≤ i * unit + unit := min_le_left _ _
  have hlen : segEnd unit stop i ≤ array.length := (min_le_right _ _).trans hstop
  have hbyte (p : Nat) (hfrom : segStart unit offset i ≤ p) (hto : p < segEnd unit stop i) :
      (store i).bind (fun block => block[p - i * unit]?) = array[p]? := by
    have hblock : byteAt unit store p = (store i).bind fun block => block[p - i * unit]? :=
      byteAt_block hunit (by omega) (by omega)
    rw [← hblock]
    exact h p (by omega)
  cases hstore : store i with
  | none =>
      have hnone := hbyte _ le_rfl hseg
      have hin : segStart unit offset i < array.length := by omega
      rw [hstore, List.getElem?_eq_getElem hin] at hnone
      cases hnone
  | some block =>
      refine ⟨block, rfl, List.ext_getElem? fun k => ?_⟩
      rw [getElem?_slice, getElem?_slice]
      split
      · have hk := hbyte (segStart unit offset i + k) (by omega) (by omega)
        rw [hstore, Option.bind_some] at hk
        rw [← hk]
        congr 1
        omega
      · rfl

/-- The positions of a range in its blocks, one after the other, are the range. -/
theorem flatMap_positions (hunit : 0 < unit) (n i : Nat)
    (hfirst : offset < i * unit + unit) (hlast : stop ≤ (i + n) * unit)
    (hseg : segStart unit offset i ≤ stop) :
    ((List.range' i n).flatMap fun j =>
      List.range' (segStart unit offset j) (segEnd unit stop j - segStart unit offset j)) =
        List.range' (segStart unit offset i) (stop - segStart unit offset i) := by
  induction n generalizing i with
  | zero =>
      have hzero : stop - segStart unit offset i = 0 := by
        simp only [segStart, Nat.add_zero] at *
        omega
      rw [hzero]
      rfl
  | succ n ih =>
      rw [List.range'_succ, List.flatMap_cons]
      have hnext : (i + 1) * unit = i * unit + unit := Nat.succ_mul i unit
      have hle : segStart unit offset i ≤ segEnd unit stop i := by
        simp only [segStart, segEnd] at *
        omega
      by_cases hmore : i * unit + unit ≤ stop
      · have hend : segEnd unit stop i = segStart unit offset (i + 1) := by
          simp only [segStart, segEnd, hnext]
          omega
        have hle' : segStart unit offset (i + 1) ≤ stop := by
          rw [← hend]
          exact min_le_right _ _
        rw [ih (i + 1) (by omega) (by rwa [Nat.add_right_comm, Nat.add_assoc]) hle', hend]
        have hsum : segStart unit offset (i + 1) = segStart unit offset i +
            (segStart unit offset (i + 1) - segStart unit offset i) := by omega
        have hlen : stop - segStart unit offset i = (segStart unit offset (i + 1) -
            segStart unit offset i) + (stop - segStart unit offset (i + 1)) := by omega
        rw [hlen, ← List.range'_append_1, ← hsum]
      · -- the range ends in this block
        have hend : segEnd unit stop i = stop := by
          simp only [segEnd]
          omega
        have hrest : ∀ j ∈ List.range' (i + 1) n,
            List.range' (segStart unit offset j) (segEnd unit stop j - segStart unit offset j) =
              [] := by
          intro j hj
          have hij := (List.mem_range'_1.mp hj).1
          have := Nat.mul_le_mul_right unit hij
          have hzero : segEnd unit stop j - segStart unit offset j = 0 := by
            simp only [segStart, segEnd]
            omega
          rw [hzero]
          rfl
        rw [List.flatMap_eq_nil_iff.mpr hrest, List.append_nil, hend]

theorem filterMap_positions (array : Bytes) (a n : Nat) :
    (List.range' a n).filterMap (fun p => array[p]?) = slice array a n := by
  induction n generalizing a with
  | zero => rfl
  | succ n ih =>
      rw [List.range'_succ, List.filterMap_cons, ih]
      cases hat : array[a]? with
      | none =>
          have hlen := List.getElem?_eq_none_iff.mp hat
          simp only [slice, List.drop_eq_nil_of_le hlen,
            List.drop_eq_nil_of_le (Nat.le_succ_of_le hlen), List.take_nil]
      | some byte =>
          obtain ⟨hlt, rfl⟩ := List.getElem?_eq_some_iff.mp hat
          rw [slice, slice, List.drop_eq_getElem_cons hlt, List.take_succ_cons]

/-- The parts of a range in its blocks, one after the other, are the range. -/
theorem flatMap_segments (array : Bytes) (hunit : 0 < unit) (n i : Nat)
    (hfirst : offset < i * unit + unit) (hlast : stop ≤ (i + n) * unit)
    (hseg : segStart unit offset i ≤ stop) :
    ((List.range' i n).flatMap fun j =>
      slice array (segStart unit offset j) (segEnd unit stop j - segStart unit offset j)) =
        slice array (segStart unit offset i) (stop - segStart unit offset i) := by
  have hpositions := congrArg (List.filterMap fun p => array[p]?)
    (flatMap_positions hunit n i hfirst hlast hseg)
  simpa only [List.filterMap_flatMap, filterMap_positions] using hpositions

end BlockBytes
