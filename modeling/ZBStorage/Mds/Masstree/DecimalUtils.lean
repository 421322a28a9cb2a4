-- SUMMARY: Statistics kept as decimal strings, their arithmetic, and the accumulator that prints a sum.
import ZBStorage.Lib.Numerals

/-!
# Decimal strings

`MasstreeDecimalUtils.h`. Loops that start at the last digit run over reversed strings here.
Additions, subtractions and comparisons compute with single digits. A division keeps its
remainder in 64 bits and multiplies it by ten before it reduces it, so the remainders of a
large divisor wrap around.
-/

namespace Zb.Mds.DecimalUtils

open Bytes Numerals

/-! ## The operations -/

/-- `'0'` -/
def zero : UInt8 := 48

def normalizeDecimalString (value : Bytes) : Bytes :=
  if value = [] then [zero]
  else
    let value := value.drop (min (value.findIdx (· ≠ zero)) (value.length - 1))
    if value = [] then [zero] else value

def compareDecimalStrings (lhs rhs : Bytes) : Int :=
  let a := normalizeDecimalString lhs
  let b := normalizeDecimalString rhs
  if a.length ≠ b.length then if a.length < b.length then -1 else 1
  else if a = b then 0
  else if a < b then -1
  else 1

/-- `ch - '0'` -/
def digitOf (ch : UInt8) : Int := ch.toInt8.toInt - 48

/-- `static_cast<char>('0' + digit)` -/
def charOf (digit : Int) : UInt8 := UInt8.ofInt (48 + digit)

/-- The digits that are still carried when both strings have ended. -/
def carryLoop (carry : Int) : Bytes :=
  if carry = 0 then [] else charOf (carry.tmod 10) :: carryLoop (carry.tdiv 10)
termination_by carry.natAbs
decreasing_by
  rw [Int.natAbs_tdiv]
  exact Nat.div_lt_self (by omega) (by decide)

/-- Both strings and the sum begin with the last digit. -/
def addLoop : Bytes → Bytes → Int → Bytes
  | [], [], carry => carryLoop carry
  | x :: a, [], carry =>
      let digit := carry + digitOf x
      charOf (digit.tmod 10) :: addLoop a [] (digit.tdiv 10)
  | [], y :: b, carry =>
      let digit := carry + digitOf y
      charOf (digit.tmod 10) :: addLoop [] b (digit.tdiv 10)
  | x :: a, y :: b, carry =>
      let digit := carry + digitOf x + digitOf y
      charOf (digit.tmod 10) :: addLoop a b (digit.tdiv 10)

def addDecimalStrings (lhs rhs : Bytes) : Bytes :=
  let a := normalizeDecimalString lhs
  let b := normalizeDecimalString rhs
  let (a, b) := if a.length < b.length then (b, a) else (a, b)
  normalizeDecimalString (addLoop a.reverse b.reverse 0).reverse

/-- The digit that is written and the next borrow. -/
def borrowStep (digit : Int) : UInt8 × Int :=
  if digit < 0 then (charOf (digit + 10), 1) else (charOf digit, 0)

/-- Both strings and the difference begin with the last digit. -/
def subLoop : Bytes → Bytes → Int → Bytes
  | [], _, _ => []
  | x :: a, [], borrow =>
      let (ch, borrow) := borrowStep (digitOf x - borrow)
      ch :: subLoop a [] borrow
  | x :: a, y :: b, borrow =>
      let (ch, borrow) := borrowStep (digitOf x - borrow - digitOf y)
      ch :: subLoop a b borrow

/-- Takes zeros off the front while more than one byte is left. -/
def popZeros : Bytes → Bytes
  | ch :: next :: rest => if ch = zero then popZeros (next :: rest) else ch :: next :: rest
  | text => text

def subtractDecimalStrings (lhs rhs : Bytes) : Bytes :=
  if compareDecimalStrings lhs rhs < 0 then [zero]
  else
    let a := normalizeDecimalString lhs
    let b := normalizeDecimalString rhs
    normalizeDecimalString (popZeros (subLoop a.reverse b.reverse 0).reverse)

def uint64Max : UInt64 := 0xFFFFFFFFFFFFFFFF

/-- `static_cast<uint64_t>(ch - '0')` -/
def wordOf (ch : UInt8) : UInt64 := UInt64.ofInt (digitOf ch)

def divideLoop (divisor : UInt64) : UInt64 → UInt64 → Bytes → UInt64
  | result, _, [] => result
  | result, remainder, ch :: rest =>
      let remainder := remainder * 10 + wordOf ch
      if result > uint64Max / 10 then uint64Max
      else
        let result := result * 10
        let quotientDigit := remainder / divisor
        if result > uint64Max - quotientDigit then uint64Max
        else divideLoop divisor (result + quotientDigit) (remainder % divisor) rest

def divideDecimalStringByU64 (decimal : Bytes) (divisor : UInt64) : UInt64 :=
  if divisor = 0 then 0 else divideLoop divisor 0 0 (normalizeDecimalString decimal)

/-- The accumulator where the compiler has a 128-bit type. -/
structure DecimalAccumulator where
  value : BitVec 128 := 0

def DecimalAccumulator.add (accumulator : DecimalAccumulator) (delta : UInt64) :
    DecimalAccumulator :=
  { value := accumulator.value + BitVec.ofNat 128 delta.toNat }

/-- The digits of a value, the last one first. -/
def digitLoop (value : BitVec 128) : Bytes :=
  if value = 0 then []
  else charOf (value.toNat % 10 : Nat) :: digitLoop (value / 10)
termination_by value.toNat
decreasing_by
  rename_i hvalue
  have hpos : 0 < value.toNat := by
    apply Nat.pos_of_ne_zero
    intro hzero
    exact hvalue (BitVec.eq_of_toNat_eq hzero)
  rw [BitVec.toNat_udiv]
  exact Nat.div_lt_self hpos (by decide)

def DecimalAccumulator.toString (accumulator : DecimalAccumulator) : Bytes :=
  if accumulator.value = 0 then [zero] else (digitLoop accumulator.value).reverse

/-- The accumulator where it has none. -/
structure StringAccumulator where
  value : Bytes := [zero]

def StringAccumulator.add (accumulator : StringAccumulator) (delta : UInt64) : StringAccumulator :=
  { value := addDecimalStrings accumulator.value (decimal delta.toNat) }

def StringAccumulator.toString (accumulator : StringAccumulator) : Bytes :=
  normalizeDecimalString accumulator.value

variable {lhs rhs text a b : Bytes} {ch : UInt8}

/-! ## Normalising and comparing -/

theorem normalizeDecimalString_zero_cons (hne : text ≠ []) :
    normalizeDecimalString (zero :: text) = normalizeDecimalString text := by
  have hlength := List.length_pos_iff.mpr hne
  have hmin : min (text.findIdx (· ≠ zero) + 1) text.length =
      min (text.findIdx (· ≠ zero)) (text.length - 1) + 1 := by omega
  rw [normalizeDecimalString, normalizeDecimalString, if_neg (List.cons_ne_nil _ _), if_neg hne]
  simp only [List.findIdx_cons, ne_eq, not_true_eq_false, decide_false, cond_false,
    List.length_cons, Nat.add_sub_cancel]
  simp only [ne_eq] at hmin
  rw [hmin, List.drop_succ_cons]

theorem normalizeDecimalString_cons (hch : ch ≠ zero) :
    normalizeDecimalString (ch :: text) = ch :: text := by
  simp [normalizeDecimalString, List.findIdx_cons, hch]

/-- Normalising a string of digits gives the numeral of its value. -/
theorem normalizeDecimalString_eq (h : Digits text) :
    normalizeDecimalString text = decimal (digitsValue text) := by
  induction text with
  | nil => exact decimal_zero.symm
  | cons ch text ih =>
      have htext := (digits_cons.mp h).2
      by_cases hch : ch = zero
      · rw [hch, show zero = 48 from rfl, digitsValue_zero_cons]
        by_cases hne : text = []
        · rw [hne]
          exact decimal_zero.symm
        · rw [← ih htext]
          exact normalizeDecimalString_zero_cons hne
      · have hhead : (ch :: text).head? ≠ some 48 := fun heq => hch (Option.some.inj heq)
        rw [normalizeDecimalString_cons hch]
        exact (decimal_digitsValue h (List.cons_ne_nil _ _) hhead).1.symm

theorem compareDecimalStrings_eq (hl : Digits lhs) (hr : Digits rhs) :
    compareDecimalStrings lhs rhs =
      if digitsValue lhs < digitsValue rhs then -1
      else if digitsValue lhs = digitsValue rhs then 0
      else 1 := by
  rw [compareDecimalStrings, normalizeDecimalString_eq hl, normalizeDecimalString_eq hr]
  generalize digitsValue lhs = x
  generalize digitsValue rhs = y
  split
  · rename_i hlength
    split
    · rename_i hlt
      rw [if_pos (decimal_lt_of_length hlt)]
    · rename_i hge
      have hlt := @decimal_lt_of_length y x (by omega)
      rw [if_neg (by omega), if_neg (by omega)]
  · rename_i hlength
    have horder := lt_iff_digitsValue_lt (digits_decimal x) (digits_decimal y) (not_not.mp hlength)
    rw [digitsValue_decimal, digitsValue_decimal] at horder
    simp only [horder, decimal_injective.eq_iff]
    split <;> split <;> omega

/-! ## Adding -/

theorem exists_digit (h : isDigit ch = true) : ∃ digit < 10, ch = digitChar digit := by
  have hbounds := isDigit_iff.mp h
  exact ⟨ch.toNat - 48, by omega, (digitChar_sub h).symm⟩

theorem digitOf_digitChar : ∀ digit < 10, digitOf (digitChar digit) = digit := by decide

theorem charOf_natCast : ∀ digit < 10, charOf (digit : Nat) = digitChar digit := by decide

theorem digitsValue_reverse_digitChar {digit : Nat} (h : digit < 10) (text : Bytes) :
    digitsValue (digitChar digit :: text).reverse = 10 * digitsValue text.reverse + digit := by
  rw [digitsValue_reverse_cons, toNat_digitChar h, Nat.add_sub_cancel_left]

/-- The digits of a result, the last one first, and its value. -/
structure Writes (text : Bytes) (value : Nat) : Prop where
  digits : Digits text
  value_eq : digitsValue text.reverse = value

theorem Writes.nil : Writes [] 0 := ⟨digits_nil, rfl⟩

theorem Writes.cons {digit value : Nat} (hdigit : digit < 10) (h : Writes text value) :
    Writes (digitChar digit :: text) (10 * value + digit) where
  digits := digits_cons.mpr ⟨isDigit_digitChar hdigit, h.digits⟩
  value_eq := by rw [digitsValue_reverse_digitChar hdigit, h.value_eq]

/-- One digit of a sum is written and the rest carried. -/
theorem Writes.carry {sum value : Nat} (h : Writes text value) :
    Writes (charOf ((sum : Int).tmod 10) :: text) (10 * value + sum % 10) := by
  have hlast : ((sum : Int).tmod 10) = (sum % 10 : Nat) := (Int.ofNat_tmod sum 10).symm
  rw [hlast, charOf_natCast _ (Nat.mod_lt _ (by decide))]
  exact h.cons (Nat.mod_lt _ (by decide))

theorem tdiv_ten (sum : Nat) : (sum : Int).tdiv 10 = (sum / 10 : Nat) := (Int.ofNat_tdiv sum 10).symm

theorem writes_carryLoop {carry : Nat} (h : carry < 10) : Writes (carryLoop carry) carry := by
  rw [carryLoop]
  split
  · rename_i hzero
    rw [Int.natCast_eq_zero.mp hzero]
    exact .nil
  · rw [tdiv_ten, Nat.div_eq_of_lt h, carryLoop, if_pos Int.natCast_zero]
    have hwrites := @Writes.carry _ carry _ Writes.nil
    rwa [Nat.mul_zero, Nat.zero_add, Nat.mod_eq_of_lt h] at hwrites

/-- What is written of a sum and what is carried make up the sum. -/
theorem Writes.sum {sum later value : Nat} (h : Writes text (later + sum / 10))
    (hvalue : value = 10 * later + sum) : Writes (charOf ((sum : Int).tmod 10) :: text) value := by
  have hwrites := @Writes.carry _ sum _ h
  rwa [show 10 * (later + sum / 10) + sum % 10 = value by omega] at hwrites

theorem writes_addLoop {carry : Nat} (ha : Digits a) (hb : Digits b) (hcarry : carry ≤ 1) :
    Writes (addLoop a b carry) (digitsValue a.reverse + digitsValue b.reverse + carry) := by
  induction a generalizing b carry with
  | nil =>
      induction b generalizing carry with
      | nil =>
          rw [addLoop, List.reverse_nil, digitsValue_nil, Nat.zero_add]
          exact writes_carryLoop (by omega)
      | cons y b ih =>
          obtain ⟨hy, hdb⟩ := digits_cons.mp hb
          obtain ⟨digit, hdigit, rfl⟩ := exists_digit hy
          have hsum : (carry : Int) + digit = (carry + digit : Nat) := (Int.natCast_add _ _).symm
          have hlater := @ih ((carry + digit) / 10) hdb (by omega)
          rw [addLoop, digitOf_digitChar digit hdigit, hsum, tdiv_ten]
          rw [digitsValue_reverse_digitChar hdigit]
          exact hlater.sum (by rw [List.reverse_nil, digitsValue_nil]; omega)
  | cons x a ih =>
      obtain ⟨hx, hda⟩ := digits_cons.mp ha
      obtain ⟨digit, hdigit, rfl⟩ := exists_digit hx
      cases b with
      | nil =>
          have hsum : (carry : Int) + digit = (carry + digit : Nat) := (Int.natCast_add _ _).symm
          have hlater := @ih [] ((carry + digit) / 10) hda digits_nil (by omega)
          rw [addLoop, digitOf_digitChar digit hdigit, hsum, tdiv_ten]
          rw [digitsValue_reverse_digitChar hdigit]
          exact hlater.sum (by rw [List.reverse_nil, digitsValue_nil]; omega)
      | cons y b =>
          obtain ⟨hy, hdb⟩ := digits_cons.mp hb
          obtain ⟨other, hother, rfl⟩ := exists_digit hy
          have hsum : (carry : Int) + digit + other = (carry + digit + other : Nat) := by push_cast; rfl
          have hlater := @ih b ((carry + digit + other) / 10) hda hdb (by omega)
          rw [addLoop, digitOf_digitChar digit hdigit, digitOf_digitChar other hother, hsum, tdiv_ten]
          rw [digitsValue_reverse_digitChar hdigit, digitsValue_reverse_digitChar hother]
          exact hlater.sum (by omega)

theorem addDecimalStrings_eq (hl : Digits lhs) (hr : Digits rhs) :
    addDecimalStrings lhs rhs = decimal (digitsValue lhs + digitsValue rhs) := by
  have hadd (x y : Nat) : normalizeDecimalString
      (addLoop (decimal x).reverse (decimal y).reverse 0).reverse = decimal (x + y) := by
    have hwrites := @writes_addLoop _ _ 0 (digits_decimal x).reverse (digits_decimal y).reverse
      (Nat.zero_le 1)
    rw [Int.natCast_zero, List.reverse_reverse, List.reverse_reverse, digitsValue_decimal, digitsValue_decimal,
      Nat.add_zero] at hwrites
    rw [normalizeDecimalString_eq hwrites.digits.reverse]
    exact congrArg decimal hwrites.value_eq
  rw [addDecimalStrings, normalizeDecimalString_eq hl, normalizeDecimalString_eq hr]
  split
  rename_i hswap
  split at hswap
  · cases hswap
    rw [hadd, Nat.add_comm]
  · cases hswap
    rw [hadd]

/-! ## Subtracting -/

/-- One digit of a difference is written; what is missing is borrowed. -/
theorem borrowStep_eq {x y : Nat} (hx : x < 10) (hy : y ≤ 10) :
    ∃ digit < 10, ∃ borrow : Nat, borrow ≤ 1 ∧ borrowStep ((x : Int) - y) = (digitChar digit, (borrow : Int)) ∧
      x + 10 * borrow = y + digit := by
  by_cases hlt : x < y
  · have hneg : ((x : Int) - y) + 10 = (x + 10 - y : Nat) := by omega
    refine ⟨x + 10 - y, by omega, 1, Nat.le_refl 1, ?_, by omega⟩
    rw [borrowStep, if_pos (by omega), hneg, charOf_natCast _ (by omega)]
    rfl
  · have hpos : ((x : Int) - y) = (x - y : Nat) := by omega
    refine ⟨x - y, by omega, 0, Nat.zero_le 1, ?_, by omega⟩
    rw [borrowStep, if_neg (by omega), hpos, charOf_natCast _ (by omega)]
    rfl

/-- The balance of a difference, with one more digit at the end. -/
theorem balance_digit {x y written borrow next last va vb value weight : Nat}
    (hstep : x + 10 * next = y + borrow + written)
    (hrest : va + last * weight = vb + next + value) :
    10 * va + x + last * (weight * 10) = 10 * vb + y + borrow + (10 * value + written) := by
  have hweight : last * (weight * 10) = 10 * (last * weight) := by ring
  omega

/-- The difference of two strings as far as the first one reaches, and what is borrowed
    beyond it. -/
structure Differs (a b text : Bytes) (borrow : Nat) : Prop where
  digits : Digits text
  length : text.length = a.length
  balance : ∃ last, digitsValue a.reverse + last * 10 ^ a.length =
    digitsValue b.reverse + borrow + digitsValue text.reverse

theorem differs_subLoop {borrow : Nat} (ha : Digits a) (hb : Digits b)
    (hlength : b.length ≤ a.length) (hborrow : borrow ≤ 1) :
    Differs a b (subLoop a b borrow) borrow := by
  induction a generalizing b borrow with
  | nil =>
      obtain rfl := List.eq_nil_of_length_eq_zero (Nat.le_zero.mp hlength)
      rw [subLoop]
      exact ⟨digits_nil, rfl, borrow, by simp⟩
  | cons x a ih =>
      obtain ⟨hx, hda⟩ := digits_cons.mp ha
      obtain ⟨digit, hdigit, rfl⟩ := exists_digit hx
      cases b with
      | nil =>
          obtain ⟨written, hwritten, next, hnext, hstep, hvalue⟩ :=
            @borrowStep_eq digit borrow hdigit (by omega)
          obtain ⟨hdigits, hsize, last, hbalance⟩ :=
            @ih [] next hda digits_nil (Nat.zero_le _) hnext
          rw [subLoop, digitOf_digitChar digit hdigit, hstep]
          refine ⟨digits_cons.mpr ⟨isDigit_digitChar hwritten, hdigits⟩, congrArg (· + 1) hsize,
            last, ?_⟩
          rw [digitsValue_reverse_digitChar hdigit, digitsValue_reverse_digitChar hwritten,
            List.length_cons, Nat.pow_succ]
          exact @balance_digit _ 0 _ _ _ _ _ _ _ _ (by omega) hbalance
      | cons y b =>
          obtain ⟨hy, hdb⟩ := digits_cons.mp hb
          obtain ⟨other, hother, rfl⟩ := exists_digit hy
          obtain ⟨written, hwritten, next, hnext, hstep, hvalue⟩ :=
            @borrowStep_eq digit (borrow + other) hdigit (by omega)
          obtain ⟨hdigits, hsize, last, hbalance⟩ :=
            @ih b next hda hdb (Nat.le_of_succ_le_succ hlength) hnext
          have hsub : (digit : Int) - borrow - other = digit - (borrow + other : Nat) := by omega
          rw [subLoop, digitOf_digitChar digit hdigit, digitOf_digitChar other hother, hsub, hstep]
          refine ⟨digits_cons.mpr ⟨isDigit_digitChar hwritten, hdigits⟩, congrArg (· + 1) hsize,
            last, ?_⟩
          rw [digitsValue_reverse_digitChar hdigit, digitsValue_reverse_digitChar hother,
            digitsValue_reverse_digitChar hwritten, List.length_cons, Nat.pow_succ]
          exact balance_digit (by omega) hbalance

/-- A difference of a greater and a smaller number ends without a borrow. -/
theorem Differs.value_eq (h : Differs a b text 0)
    (hle : digitsValue b.reverse ≤ digitsValue a.reverse) :
    digitsValue text.reverse = digitsValue a.reverse - digitsValue b.reverse := by
  obtain ⟨last, hbalance⟩ := h.balance
  have hlt := digitsValue_lt h.digits.reverse
  rw [List.length_reverse, h.length] at hlt
  cases last with
  | zero => omega
  | succ last =>
      rw [Nat.succ_mul] at hbalance
      omega

theorem popZeros_digits (h : Digits text) :
    Digits (popZeros text) ∧ digitsValue (popZeros text) = digitsValue text := by
  induction text with
  | nil => exact ⟨h, rfl⟩
  | cons ch rest ih =>
      cases rest with
      | nil => exact ⟨h, rfl⟩
      | cons next rest =>
          rw [popZeros]
          split
          · rename_i hzero
            obtain ⟨hdigits, hvalue⟩ := ih (digits_cons.mp h).2
            subst hzero
            exact ⟨hdigits, hvalue.trans (digitsValue_zero_cons _).symm⟩
          · exact ⟨h, rfl⟩

theorem subtractDecimalStrings_eq (hl : Digits lhs) (hr : Digits rhs) :
    subtractDecimalStrings lhs rhs = decimal (digitsValue lhs - digitsValue rhs) := by
  rw [subtractDecimalStrings, compareDecimalStrings_eq hl hr, normalizeDecimalString_eq hl,
    normalizeDecimalString_eq hr]
  generalize digitsValue lhs = x
  generalize digitsValue rhs = y
  by_cases hlt : x < y
  · rw [if_pos hlt, if_pos (by decide), Nat.sub_eq_zero_of_le hlt.le]
    exact decimal_zero.symm
  · have hge : ¬(if x < y then (-1 : Int) else if x = y then 0 else 1) < 0 := by
      rw [if_neg hlt]
      split <;> decide
    have hlength : (decimal y).reverse.length ≤ (decimal x).reverse.length := by
      rw [List.length_reverse, List.length_reverse]
      exact Nat.le_of_not_lt fun hshort => hlt (decimal_lt_of_length hshort)
    have hdiffers := @differs_subLoop _ _ 0 (digits_decimal x).reverse (digits_decimal y).reverse
      hlength (Nat.zero_le 1)
    have hvalue := hdiffers.value_eq (by
      rw [List.reverse_reverse, List.reverse_reverse, digitsValue_decimal, digitsValue_decimal]
      exact Nat.le_of_not_lt hlt)
    obtain ⟨hdigits, hpopped⟩ := popZeros_digits hdiffers.digits.reverse
    rw [Int.natCast_zero] at hdigits hpopped hvalue
    rw [if_neg hge]
    dsimp only
    rw [normalizeDecimalString_eq hdigits, hpopped, hvalue, List.reverse_reverse,
      List.reverse_reverse, digitsValue_decimal, digitsValue_decimal]

/-! ## The accumulator -/

theorem reverse_digitLoop {value : BitVec 128} (h : value ≠ 0) :
    (digitLoop value).reverse = decimal value.toNat := by
  fun_induction digitLoop value with
  | case1 => exact absurd rfl h
  | case2 value hvalue ih =>
      have hlast := Nat.mod_lt value.toNat (show 0 < 10 by decide)
      have hdiv : (value / 10).toNat = value.toNat / 10 := BitVec.toNat_udiv
      have hsplit : 10 * (value.toNat / 10) + value.toNat % 10 = value.toNat :=
        Nat.div_add_mod _ _
      rw [List.reverse_cons, charOf_natCast _ hlast]
      by_cases hzero : value / 10 = 0
      · have hsmall : value.toNat / 10 = 0 := by
          rw [← hdiv, hzero]
          rfl
        rw [hzero, digitLoop, if_pos rfl, ← decimal_of_lt hlast, List.reverse_nil, List.nil_append]
        congr 1
        omega
      · have hpos : 0 < value.toNat / 10 := by
          rw [← hdiv]
          exact Nat.pos_of_ne_zero fun heq => hzero (BitVec.eq_of_toNat_eq heq)
        rw [ih hzero, hdiv, ← decimal_ten_mul_add hpos hlast, hsplit]

theorem DecimalAccumulator.toString_eq (accumulator : DecimalAccumulator) :
    accumulator.toString = decimal accumulator.value.toNat := by
  rw [toString]
  split
  · rename_i hzero
    rw [hzero]
    exact decimal_zero.symm
  · rename_i hvalue
    exact reverse_digitLoop hvalue

/-- The value of the accumulator is the sum modulo 2 ^ 128. -/
theorem DecimalAccumulator.toNat_foldl_add (deltas : List UInt64)
    (accumulator : DecimalAccumulator) :
    (deltas.foldl add accumulator).value.toNat =
      (accumulator.value.toNat + (deltas.map (·.toNat)).sum) % 2 ^ 128 := by
  induction deltas generalizing accumulator with
  | nil =>
      rw [List.foldl_nil, List.map_nil, List.sum_nil, Nat.add_zero,
        Nat.mod_eq_of_lt accumulator.value.isLt]
  | cons delta deltas ih =>
      rw [List.foldl_cons, ih, add, BitVec.toNat_add, BitVec.toNat_ofNat, List.map_cons,
        List.sum_cons]
      omega

theorem StringAccumulator.foldl_add (deltas : List UInt64) {accumulator : StringAccumulator}
    (h : Digits accumulator.value) :
    (deltas.foldl add accumulator).toString =
      decimal (digitsValue accumulator.value + (deltas.map (·.toNat)).sum) := by
  induction deltas generalizing accumulator with
  | nil => exact normalizeDecimalString_eq h
  | cons delta deltas ih =>
      have hsum := addDecimalStrings_eq h (digits_decimal delta.toNat)
      rw [digitsValue_decimal] at hsum
      have hnext : (accumulator.add delta).value =
          decimal (digitsValue accumulator.value + delta.toNat) := hsum
      rw [List.foldl_cons, ih (hnext ▸ digits_decimal _), hnext, digitsValue_decimal,
        List.map_cons, List.sum_cons, Nat.add_assoc]

/-! ## Dividing -/

/-- What the wrapped remainders of a division drop, in units of the last digit. -/
def lost (divisor : Nat) : Nat → Bytes → Nat
  | _, [] => 0
  | remainder, ch :: rest =>
      let next := 10 * remainder + (ch.toNat - 48)
      next / 2 ^ 64 * 2 ^ 64 * 10 ^ rest.length + lost divisor (next % 2 ^ 64 % divisor) rest

variable {divisor result remainder : UInt64}

theorem toNat_wordOf (h : isDigit ch = true) : (wordOf ch).toNat = ch.toNat - 48 := by
  obtain ⟨digit, hdigit, rfl⟩ := exists_digit h
  have hword : ∀ digit < 10, (wordOf (digitChar digit)).toNat = digit := by decide
  rw [hword digit hdigit, toNat_digitChar hdigit, Nat.add_sub_cancel_left]

/-- No more is dropped than there is. -/
theorem lost_le (divisor remainder : Nat) (text : Bytes) :
    lost divisor remainder text ≤ remainder * 10 ^ text.length + digitsValue text := by
  induction text generalizing remainder with
  | nil => exact Nat.zero_le _
  | cons ch text ih =>
      rw [lost]
      generalize hnext : 10 * remainder + (ch.toNat - 48) = next
      have hrest := ih (next % 2 ^ 64 % divisor)
      have hreduced : next % 2 ^ 64 % divisor * 10 ^ text.length ≤
          next % 2 ^ 64 * 10 ^ text.length := Nat.mul_le_mul_right _ (Nat.mod_le _ _)
      have hsplit : (next / 2 ^ 64 * 2 ^ 64 + next % 2 ^ 64) * 10 ^ text.length =
          (10 * remainder + (ch.toNat - 48)) * 10 ^ text.length := by
        rw [Nat.div_add_mod', hnext]
      rw [digitsValue_cons, List.length_cons, pow_succ 10 text.length]
      rw [Nat.add_mul, Nat.add_mul] at hsplit
      have hten : remainder * (10 ^ text.length * 10) = 10 * remainder * 10 ^ text.length := by ring
      omega

/-- The number that a division still divides, with what it dropped taken away. -/
def kept (divisor result remainder : Nat) (text : Bytes) : Nat :=
  (result * divisor + remainder) * 10 ^ text.length + digitsValue text -
    lost divisor remainder text

theorem le_kept (divisor result remainder : Nat) (text : Bytes) :
    result * divisor * 10 ^ text.length ≤ kept divisor result remainder text := by
  have hlost := lost_le divisor remainder text
  rw [kept, Nat.add_mul]
  omega

/-- Dividing the next digit in changes nothing of what is still divided. -/
theorem kept_cons (divisor result remainder : Nat) (ch : UInt8) (text : Bytes) :
    kept divisor result remainder (ch :: text) =
      kept divisor
        (10 * result + (10 * remainder + (ch.toNat - 48)) % 2 ^ 64 / divisor)
        ((10 * remainder + (ch.toNat - 48)) % 2 ^ 64 % divisor) text := by
  rw [kept, kept, lost, digitsValue_cons, List.length_cons, pow_succ 10 text.length]
  generalize hnext : 10 * remainder + (ch.toNat - 48) = next
  have hdigit : (10 * result + next % 2 ^ 64 / divisor) * divisor + next % 2 ^ 64 % divisor =
      10 * (result * divisor) + next % 2 ^ 64 := by
    rw [Nat.add_mul, Nat.add_assoc, Nat.div_add_mod', Nat.mul_assoc]
  have hsplit : (next / 2 ^ 64 * 2 ^ 64 + next % 2 ^ 64) * 10 ^ text.length =
      (10 * remainder + (ch.toNat - 48)) * 10 ^ text.length := by
    rw [Nat.div_add_mod', hnext]
  have hlead : (result * divisor + remainder) * (10 ^ text.length * 10) =
      10 * (result * divisor) * 10 ^ text.length + 10 * remainder * 10 ^ text.length := by ring
  rw [hdigit, hlead, Nat.add_mul (10 * (result * divisor))]
  rw [Nat.add_mul, Nat.add_mul] at hsplit
  omega

/-- A quotient that has reached the largest word stays there. -/
theorem saturates {quotient divisor total weight : Nat} (hdivisor : 0 < divisor)
    (hquotient : 2 ^ 64 - 1 ≤ quotient) (hweight : 0 < weight)
    (h : quotient * divisor * weight ≤ total) :
    2 ^ 64 - 1 = min (total / divisor) (2 ^ 64 - 1) := by
  have hle : quotient ≤ total / divisor :=
    (Nat.le_div_iff_mul_le hdivisor).mpr ((Nat.le_mul_of_pos_right _ hweight).trans h)
  exact (Nat.min_eq_right (hquotient.trans hle)).symm

theorem divideLoop_eq (hdivisor : divisor ≠ 0) (h : Digits text)
    (hremainder : remainder.toNat < divisor.toNat) :
    (divideLoop divisor result remainder text).toNat =
      min (kept divisor.toNat result.toNat remainder.toNat text / divisor.toNat) (2 ^ 64 - 1) := by
  have hpos : 0 < divisor.toNat := Nat.pos_of_ne_zero fun heq => hdivisor (UInt64.toNat_inj.mp heq)
  induction text generalizing result remainder with
  | nil =>
      have hlt := result.toNat_lt
      have hkept : kept divisor.toNat result.toNat remainder.toNat [] =
          remainder.toNat + result.toNat * divisor.toNat := by
        simp [kept, lost, Nat.add_comm]
      rw [divideLoop, hkept, Nat.add_mul_div_right _ _ hpos, Nat.div_eq_of_lt hremainder]
      omega
  | cons ch text ih =>
      obtain ⟨hch, htext⟩ := digits_cons.mp h
      have hten : 0 < 10 ^ text.length := Nat.pos_of_ne_zero (by simp)
      have hnext : (remainder * 10 + wordOf ch).toNat =
          (10 * remainder.toNat + (ch.toNat - 48)) % 2 ^ 64 := by
        rw [UInt64.toNat_add, UInt64.toNat_mul, toNat_wordOf hch, Nat.mod_add_mod, Nat.mul_comm]
        rfl
      have hmax : (uint64Max / 10).toNat = 1844674407370955161 := by decide
      have hlarge := le_kept divisor.toNat result.toNat remainder.toNat (ch :: text)
      rw [kept_cons] at hlarge ⊢
      rw [← hnext] at hlarge ⊢
      rw [divideLoop]
      dsimp only
      split
      · rename_i hresult
        rw [gt_iff_lt, UInt64.lt_iff_toNat_lt, hmax] at hresult
        have hscale : result.toNat * divisor.toNat * 10 ^ (ch :: text).length =
            10 * result.toNat * divisor.toNat * 10 ^ text.length := by
          rw [List.length_cons, pow_succ 10 text.length]
          ring
        exact saturates hpos (by omega) hten (hscale ▸ hlarge)
      · rename_i hresult
        rw [gt_iff_lt, UInt64.lt_iff_toNat_lt, hmax, Nat.not_lt] at hresult
        have hscaled : (result * 10).toNat = 10 * result.toNat := by
          rw [UInt64.toNat_mul, Nat.mul_comm]
          change 10 * result.toNat % 2 ^ 64 = _
          exact Nat.mod_eq_of_lt (by omega)
        generalize hword : remainder * 10 + wordOf ch = word at hnext hlarge ⊢
        have hquotient : (word / divisor).toNat = word.toNat / divisor.toNat := UInt64.toNat_div ..
        have hspace : (uint64Max - word / divisor).toNat = 2 ^ 64 - 1 - (word / divisor).toNat :=
          UInt64.toNat_sub_of_le _ _ (UInt64.le_iff_toNat_le.mpr (by
            have hlt := (word / divisor).toNat_lt
            change _ ≤ 2 ^ 64 - 1
            omega))
        split
        · rename_i hfull
          rw [gt_iff_lt, UInt64.lt_iff_toNat_lt, hspace, hscaled, hquotient] at hfull
          exact saturates hpos (by omega) hten (le_kept _ _ _ _)
        · rename_i hroom
          rw [gt_iff_lt, UInt64.lt_iff_toNat_lt, hspace, hscaled, hquotient, Nat.not_lt] at hroom
          have hsum : (result * 10 + word / divisor).toNat =
              10 * result.toNat + word.toNat / divisor.toNat := by
            have hlt := (word / divisor).toNat_lt
            rw [UInt64.toNat_add, hscaled, hquotient]
            rw [hquotient] at hlt
            exact Nat.mod_eq_of_lt (by omega)
          have hmod : (word % divisor).toNat = word.toNat % divisor.toNat := UInt64.toNat_mod ..
          rw [← hsum, ← hmod]
          exact ih htext (hmod ▸ Nat.mod_lt _ hpos)

/-- A division divides what is left when the dropped part is taken away. -/
theorem divideDecimalStringByU64_eq (hdivisor : divisor ≠ 0) (h : Digits text) :
    (divideDecimalStringByU64 text divisor).toNat =
      min ((digitsValue text - lost divisor.toNat 0 (decimal (digitsValue text))) / divisor.toNat)
        (2 ^ 64 - 1) := by
  have hpos : 0 < divisor.toNat := Nat.pos_of_ne_zero fun heq => hdivisor (UInt64.toNat_inj.mp heq)
  have hloop := @divideLoop_eq _ divisor 0 0 hdivisor (digits_decimal (digitsValue text)) hpos
  rw [divideDecimalStringByU64, if_neg hdivisor, normalizeDecimalString_eq h, hloop, kept,
    digitsValue_decimal]
  simp

/-! ## When a division is exact -/

/-- No remainder wraps around when it is multiplied by ten and the next digit is added. -/
def NeverWraps (value divisor : Nat) : Prop :=
  ∀ k, 10 * (value / 10 ^ (k + 1) % divisor) + value / 10 ^ k % 10 < 2 ^ 64

/-- The wraps drop nothing, or the quotient of what is left is still too large for a word. -/
def DivisionFits (value divisor : Nat) : Prop :=
  NeverWraps value divisor ∨
    2 ^ 64 - 1 ≤ (value - lost divisor 0 (decimal value)) / divisor

/-- Reducing the leading part changes a number by a multiple of the divisor, and this shows
    neither in the quotients modulo the divisor nor in the digits behind. -/
theorem reduce_lead (lead divisor value : Nat) {k length : Nat} (hk : k < length) :
    (lead * 10 ^ length + value) / 10 ^ (k + 1) % divisor =
        (lead % divisor * 10 ^ length + value) / 10 ^ (k + 1) % divisor ∧
      (lead * 10 ^ length + value) / 10 ^ k % 10 =
        (lead % divisor * 10 ^ length + value) / 10 ^ k % 10 := by
  obtain ⟨more, rfl⟩ := Nat.exists_eq_add_of_lt hk
  have hdrop : lead * 10 ^ (k + more + 1) + value =
      (lead % divisor * 10 ^ (k + more + 1) + value) +
        divisor * (lead / divisor * 10 ^ more) * 10 ^ (k + 1) := by
    have hpow : (10 : Nat) ^ (k + more + 1) = 10 ^ more * 10 ^ (k + 1) := by ring
    calc lead * 10 ^ (k + more + 1) + value
        = (divisor * (lead / divisor) + lead % divisor) * 10 ^ (k + more + 1) + value := by
          rw [Nat.div_add_mod]
      _ = _ := by
          rw [hpow]
          ring
  have hten : divisor * (lead / divisor * 10 ^ more) * 10 ^ (k + 1) =
      10 * (divisor * (lead / divisor * 10 ^ more)) * 10 ^ k := by ring
  constructor
  · rw [hdrop, Nat.add_mul_div_right _ _ (Nat.pow_pos (by decide)), Nat.add_mul_mod_self_left]
  · rw [hdrop, hten, Nat.add_mul_div_right _ _ (Nat.pow_pos (by decide)), Nat.add_mul_mod_self_left]

/-- What is dropped is a multiple of the modulus, so something is dropped exactly when a
    remainder wraps. -/
theorem lost_eq_zero_iff {divisor remainder : Nat} (h : Digits text)
    (hremainder : remainder < divisor) :
    lost divisor remainder text = 0 ↔ ∀ k < text.length,
      10 * ((remainder * 10 ^ text.length + digitsValue text) / 10 ^ (k + 1) % divisor) +
        (remainder * 10 ^ text.length + digitsValue text) / 10 ^ k % 10 < 2 ^ 64 := by
  induction text generalizing remainder with
  | nil => exact iff_of_true rfl nofun
  | cons ch text ih =>
      obtain ⟨hch, htext⟩ := digits_cons.mp h
      have hdigit := isDigit_iff.mp hch
      have hvalue := digitsValue_lt htext
      have hpow : 0 < 10 ^ text.length := Nat.pow_pos (by decide)
      rw [lost, digitsValue_cons, List.length_cons, pow_succ 10 text.length]
      generalize hlead : 10 * remainder + (ch.toNat - 48) = lead
      have hnumber : remainder * (10 ^ text.length * 10) +
          ((ch.toNat - 48) * 10 ^ text.length + digitsValue text) =
            lead * 10 ^ text.length + digitsValue text := by
        rw [← hlead]
        ring
      -- The first digit is the case of the highest power.
      have hfirst : 10 * ((lead * 10 ^ text.length + digitsValue text) /
          10 ^ (text.length + 1) % divisor) +
            (lead * 10 ^ text.length + digitsValue text) / 10 ^ text.length % 10 = lead := by
        have hquotient : (lead * 10 ^ text.length + digitsValue text) / 10 ^ text.length = lead := by
          rw [Nat.add_comm, Nat.add_mul_div_right _ _ hpow, Nat.div_eq_of_lt hvalue, Nat.zero_add]
        have htenth : lead / 10 = remainder := by omega
        rw [pow_succ 10 text.length, ← Nat.div_div_eq_div_mul, hquotient, htenth,
          Nat.mod_eq_of_lt hremainder]
        omega
      rw [hnumber, Nat.forall_lt_succ_right, hfirst, Nat.add_eq_zero_iff, and_comm]
      by_cases hwraps : lead < 2 ^ 64
      · have hnone : lead / 2 ^ 64 * 2 ^ 64 * 10 ^ text.length = 0 := by
          rw [Nat.div_eq_of_lt hwraps, Nat.zero_mul, Nat.zero_mul]
        rw [Nat.mod_eq_of_lt hwraps, ih htext (Nat.mod_lt _ (by omega))]
        refine and_congr ?_ (iff_of_true hnone hwraps)
        refine forall₂_congr fun k hk => ?_
        obtain ⟨hquotient, hlast⟩ := reduce_lead lead divisor (digitsValue text) hk
        rw [hquotient, hlast]
      · have hsome : lead / 2 ^ 64 * 2 ^ 64 * 10 ^ text.length ≠ 0 := by
          have hpos : 0 < lead / 2 ^ 64 := Nat.div_pos (Nat.le_of_not_lt hwraps) (by decide)
          exact (Nat.mul_pos (Nat.mul_pos hpos (by decide)) hpow).ne'
        exact iff_of_false (fun heq => hsome heq.2) fun hall => hwraps hall.2

theorem lost_decimal_eq_zero_iff {value divisor : Nat} (hdivisor : 0 < divisor) :
    lost divisor 0 (decimal value) = 0 ↔ NeverWraps value divisor := by
  have hvalue := digitsValue_lt (digits_decimal value)
  rw [lost_eq_zero_iff (digits_decimal value) hdivisor, digitsValue_decimal, Nat.zero_mul,
    Nat.zero_add]
  rw [digitsValue_decimal] at hvalue
  constructor
  · intro h k
    by_cases hk : k < (decimal value).length
    · exact h k hk
    · have hpow : 10 ^ (decimal value).length ≤ 10 ^ k :=
        Nat.pow_le_pow_right (by decide) (Nat.le_of_not_lt hk)
      have hnext : 10 ^ k ≤ 10 ^ (k + 1) := Nat.pow_le_pow_right (by decide) (Nat.le_succ k)
      rw [Nat.div_eq_of_lt (by omega), Nat.div_eq_of_lt (by omega), Nat.zero_mod]
      decide
  · exact fun h k _ => h k

/-- What is dropped is at least the modulus. -/
theorem le_lost {divisor remainder : Nat} (h : lost divisor remainder text ≠ 0) :
    2 ^ 64 ≤ lost divisor remainder text := by
  induction text generalizing remainder with
  | nil => exact absurd rfl h
  | cons ch text ih =>
      rw [lost] at h ⊢
      generalize 10 * remainder + (ch.toNat - 48) = next at h ⊢
      by_cases hlater : lost divisor (next % 2 ^ 64 % divisor) text = 0
      · rw [hlater, Nat.add_zero] at h ⊢
        have hpos : 0 < next / 2 ^ 64 * 10 ^ text.length := by
          rw [Nat.mul_right_comm] at h
          exact Nat.pos_of_ne_zero fun heq => h (by rw [heq, Nat.zero_mul])
        rw [Nat.mul_right_comm]
        exact Nat.le_mul_of_pos_left _ hpos
      · exact (ih hlater).trans (Nat.le_add_left _ _)

theorem divideDecimalStringByU64_iff (hdivisor : divisor ≠ 0) (h : Digits text) :
    (divideDecimalStringByU64 text divisor).toNat =
        min (digitsValue text / divisor.toNat) (2 ^ 64 - 1) ↔
      DivisionFits (digitsValue text) divisor.toNat := by
  have hpos : 0 < divisor.toNat := Nat.pos_of_ne_zero fun heq => hdivisor (UInt64.toNat_inj.mp heq)
  have hword := divisor.toNat_lt
  have hall := lost_le divisor.toNat 0 (decimal (digitsValue text))
  rw [Nat.zero_mul, Nat.zero_add, digitsValue_decimal] at hall
  rw [divideDecimalStringByU64_eq hdivisor h, DivisionFits, ← lost_decimal_eq_zero_iff hpos]
  generalize hlost : lost divisor.toNat 0 (decimal (digitsValue text)) = dropped at hall
  by_cases hzero : dropped = 0
  · rw [hzero, Nat.sub_zero]
    exact iff_of_true rfl (.inl rfl)
  · have hdropped : 2 ^ 64 ≤ dropped := hlost ▸ le_lost (hlost.symm ▸ hzero)
    -- A whole divisor is dropped, so the quotient is smaller.
    have hless : (digitsValue text - dropped) / divisor.toNat + 1 ≤
        digitsValue text / divisor.toNat := by
      rw [← Nat.add_div_right _ hpos]
      exact Nat.div_le_div_right (by omega)
    constructor
    · intro heq
      right
      omega
    · rintro (heq | hfull)
      · exact absurd heq hzero
      · omega

/-- With a divisor of at most a tenth of the modulus no remainder wraps, and with a greater one
    some do. -/
theorem forall_divide_iff (hdivisor : divisor ≠ 0) :
    (∀ text, Digits text → (divideDecimalStringByU64 text divisor).toNat =
        min (digitsValue text / divisor.toNat) (2 ^ 64 - 1)) ↔
      divisor.toNat ≤ 2 ^ 64 / 10 := by
  have hpos : 0 < divisor.toNat := Nat.pos_of_ne_zero fun heq => hdivisor (UInt64.toNat_inj.mp heq)
  constructor
  · intro h
    by_contra hlarge
    have hvalue : digitsValue (decimal (10 * (divisor.toNat - 1) + 9)) =
        10 * (divisor.toNat - 1) + 9 := digitsValue_decimal _
    have hfits := (divideDecimalStringByU64_iff hdivisor (digits_decimal _)).mp
      (h _ (digits_decimal (10 * (divisor.toNat - 1) + 9)))
    rw [hvalue] at hfits
    rcases hfits with hnever | hfull
    · have hlast := hnever 0
      have hlead : (10 * (divisor.toNat - 1) + 9) / 10 ^ (0 + 1) = divisor.toNat - 1 := by
        change (10 * (divisor.toNat - 1) + 9) / 10 = _
        omega
      rw [hlead, Nat.mod_eq_of_lt (by omega), pow_zero, Nat.div_one] at hlast
      omega
    · have hquotient := (Nat.le_div_iff_mul_le hpos).mp hfull
      have hscale : 10 * divisor.toNat ≤ (2 ^ 64 - 1) * divisor.toNat :=
        Nat.mul_le_mul_right _ (by decide)
      omega
  · intro hsmall text h
    refine (divideDecimalStringByU64_iff hdivisor h).mpr (.inl fun k => ?_)
    have hremainder := Nat.mod_lt (digitsValue text / 10 ^ (k + 1)) hpos
    have hdigit := Nat.mod_lt (digitsValue text / 10 ^ k) (show 0 < 10 by decide)
    omega

/-! ## Agreement with the natural numbers -/

/-- The operations agree with those of the natural numbers on these arguments. -/
structure Agrees (lhs rhs : Bytes) (divisor : UInt64) (deltas : List UInt64) : Prop where
  compare : compareDecimalStrings lhs rhs =
    if digitsValue lhs < digitsValue rhs then -1
    else if digitsValue lhs = digitsValue rhs then 0
    else 1
  add : addDecimalStrings lhs rhs = decimal (digitsValue lhs + digitsValue rhs)
  subtract : subtractDecimalStrings lhs rhs = decimal (digitsValue lhs - digitsValue rhs)
  divide : (divideDecimalStringByU64 lhs divisor).toNat =
    min (digitsValue lhs / divisor.toNat) (2 ^ 64 - 1)
  accumulate : (deltas.map (·.toNat)).sum < 2 ^ 128 →
    (deltas.foldl DecimalAccumulator.add {}).toString = decimal (deltas.map (·.toNat)).sum
  accumulateStrings : (deltas.foldl StringAccumulator.add {}).toString =
    decimal (deltas.map (·.toNat)).sum

/-- The operations agree with those of the natural numbers exactly when the division drops
    nothing that matters; a divisor is safe for every string exactly up to a tenth of the
    modulus. -/
theorem decimal_arithmetic_agrees_iff (lhs rhs : Bytes) (divisor : UInt64) (deltas : List UInt64)
    (hl : Digits lhs) (hr : Digits rhs) (hdivisor : divisor ≠ 0) :
    (Agrees lhs rhs divisor deltas ↔ DivisionFits (digitsValue lhs) divisor.toNat) ∧
      ((∀ text, Digits text → Agrees text rhs divisor deltas) ↔ divisor.toNat ≤ 2 ^ 64 / 10) := by
  have hagrees (text : Bytes) (htext : Digits text) : Agrees text rhs divisor deltas ↔
      (divideDecimalStringByU64 text divisor).toNat =
        min (digitsValue text / divisor.toNat) (2 ^ 64 - 1) := by
    refine ⟨Agrees.divide, fun hdivide => ?_⟩
    refine
      { compare := compareDecimalStrings_eq htext hr
        add := addDecimalStrings_eq htext hr
        subtract := subtractDecimalStrings_eq htext hr
        divide := hdivide
        accumulate := fun hsum => ?_
        accumulateStrings := ?_ }
    · rw [DecimalAccumulator.toString_eq, DecimalAccumulator.toNat_foldl_add]
      change decimal ((0 + _) % _) = _
      rw [Nat.zero_add, Nat.mod_eq_of_lt hsum]
    · rw [StringAccumulator.foldl_add deltas (by decide)]
      exact congrArg decimal (Nat.zero_add _)
  refine ⟨(hagrees lhs hl).trans (divideDecimalStringByU64_iff hdivisor hl), ?_⟩
  rw [← forall_divide_iff hdivisor]
  exact forall₂_congr hagrees

theorem decimal_arithmetic_agrees_of_twenty :
    Agrees (ofAscii "0020") (ofAscii "7") 3 [5, 10] :=
  (decimal_arithmetic_agrees_iff (ofAscii "0020") (ofAscii "7") 3 [5, 10] (by decide) (by decide)
    (by decide)).2.mpr (by decide) _ (by decide)

/-- 2 ^ 63 goes 9 times into `92233720368547758070`, and the code finds that it goes once. -/
theorem wrapped_remainder_divides_wrongly :
    min (digitsValue (ofAscii "92233720368547758070") / (0x8000000000000000 : UInt64).toNat)
        (2 ^ 64 - 1) = 9 ∧
      (divideDecimalStringByU64 (ofAscii "92233720368547758070") 0x8000000000000000).toNat = 1 := by
  decide

end Zb.Mds.DecimalUtils
