-- SUMMARY: Strings of decimal digits of any length: their values from either end, canonical numerals and their comparison.
import ZBStorage.Lib.TextFields
import Mathlib.Tactic.Ring

namespace Numerals

open Bytes TextFields

/-- Every byte is a decimal digit. -/
def Digits (text : Bytes) : Prop := ∀ ch ∈ text, isDigit ch = true

instance (text : Bytes) : Decidable (Digits text) :=
  inferInstanceAs (Decidable (∀ ch ∈ text, isDigit ch = true))

/-- The byte of a digit. -/
def digitChar (digit : Nat) : UInt8 := UInt8.ofNat (48 + digit)

variable {text a b : Bytes} {ch : UInt8} {digit n : Nat}

/-! ## Digits -/

@[simp] theorem digits_nil : Digits [] := nofun

@[simp] theorem digits_cons : Digits (ch :: text) ↔ isDigit ch = true ∧ Digits text :=
  List.forall_mem_cons

theorem Digits.reverse (h : Digits text) : Digits text.reverse :=
  fun ch hmem => h ch (List.mem_reverse.mp hmem)

theorem digits_decimal (n : Nat) : Digits (decimal n) := fun _ hmem => isDigit_of_mem_decimal hmem

theorem isDigit_iff : isDigit ch = true ↔ 48 ≤ ch.toNat ∧ ch.toNat ≤ 57 := by
  simp [isDigit, UInt8.le_iff_toNat_le]

theorem toNat_digitChar (h : digit < 10) : (digitChar digit).toNat = 48 + digit := by
  rw [digitChar, UInt8.toNat_ofNat', Nat.mod_eq_of_lt (by omega)]

theorem isDigit_digitChar (h : digit < 10) : isDigit (digitChar digit) = true := by
  rw [isDigit_iff, toNat_digitChar h]
  omega

/-- A digit is the byte of its value. -/
theorem digitChar_sub (h : isDigit ch = true) : digitChar (ch.toNat - 48) = ch := by
  rw [isDigit_iff] at h
  apply UInt8.toNat_inj.mp
  rw [toNat_digitChar (by omega)]
  omega

/-! ## Values -/

@[simp] theorem digitsValue_nil : digitsValue [] = 0 := rfl

@[simp] theorem digitsValue_concat (text : Bytes) (ch : UInt8) :
    digitsValue (text ++ [ch]) = 10 * digitsValue text + (ch.toNat - 48) := by
  rw [digitsValue, List.foldl_append]
  rfl

theorem foldl_digits (text : Bytes) (n : Nat) :
    text.foldl (fun n ch => 10 * n + (ch.toNat - 48)) n =
      n * 10 ^ text.length + digitsValue text := by
  induction text using List.reverseRecOn with
  | nil => simp
  | append_singleton text ch ih =>
      rw [List.foldl_concat, ih, digitsValue_concat, List.length_append, List.length_singleton,
        Nat.pow_succ]
      ring

theorem digitsValue_append (a b : Bytes) :
    digitsValue (a ++ b) = digitsValue a * 10 ^ b.length + digitsValue b := by
  rw [digitsValue, List.foldl_append]
  exact foldl_digits b _

theorem digitsValue_cons (ch : UInt8) (text : Bytes) :
    digitsValue (ch :: text) = (ch.toNat - 48) * 10 ^ text.length + digitsValue text := by
  have hvalue := digitsValue_append [ch] text
  rwa [show digitsValue [ch] = ch.toNat - 48 from Nat.zero_add _] at hvalue

/-- The value of a string that is read from its last digit on. -/
theorem digitsValue_reverse_cons (ch : UInt8) (text : Bytes) :
    digitsValue (ch :: text).reverse = 10 * digitsValue text.reverse + (ch.toNat - 48) := by
  rw [List.reverse_cons, digitsValue_concat]

theorem digitsValue_lt (h : Digits text) : digitsValue text < 10 ^ text.length := by
  induction text using List.reverseRecOn with
  | nil => exact Nat.one_pos
  | append_singleton text ch ih =>
      have htext := ih fun ch hmem => h ch (List.mem_append_left _ hmem)
      have hch := isDigit_iff.mp (h ch (List.mem_append_right _ (List.mem_singleton_self ch)))
      rw [digitsValue_concat, List.length_append, List.length_singleton, Nat.pow_succ]
      omega

/-! ## Numerals -/

theorem decimal_of_lt (h : n < 10) : decimal n = [digitChar n] := by
  rw [decimal, Nat.toDigits_of_lt_base h]
  have hchar : ∀ digit < 10, UInt8.ofNat (Nat.digitChar digit).toNat = digitChar digit := by decide
  rw [List.map_singleton, hchar n h]

/-- A numeral grows by a digit. -/
theorem decimal_ten_mul_add (hn : 0 < n) (hdigit : digit < 10) :
    decimal (10 * n + digit) = decimal n ++ [digitChar digit] := by
  have hdiv : (10 * n + digit) / 10 = n := by omega
  have hmod : (10 * n + digit) % 10 = digit := by omega
  have hlast := decimal_of_lt hdigit
  rw [decimal, Nat.toDigits_of_lt_base hdigit] at hlast
  rw [decimal, Nat.toDigits_of_base_le (by decide) (by omega), hdiv, hmod, List.map_append]
  exact congrArg (decimal n ++ ·) hlast

/-- Without a leading zero, a string is the numeral of its value. -/
theorem decimal_digitsValue (h : Digits text) (hne : text ≠ []) (hhead : text.head? ≠ some 48) :
    decimal (digitsValue text) = text ∧ 0 < digitsValue text := by
  induction text using List.reverseRecOn with
  | nil => exact absurd rfl hne
  | append_singleton text ch ih =>
      have hch := h ch (List.mem_append_right _ (List.mem_singleton_self ch))
      have htext : Digits text := fun ch hmem => h ch (List.mem_append_left _ hmem)
      have hbounds := isDigit_iff.mp hch
      rw [digitsValue_concat]
      cases text with
      | nil =>
          have hzero : ch.toNat ≠ 48 := fun heq =>
            hhead (congrArg some (UInt8.toNat_inj.mp heq))
          rw [digitsValue_nil, Nat.mul_zero, Nat.zero_add, decimal_of_lt (by omega),
            digitChar_sub hch]
          exact ⟨rfl, by omega⟩
      | cons first rest =>
          obtain ⟨hnumeral, hpos⟩ := ih htext (List.cons_ne_nil _ _) hhead
          rw [decimal_ten_mul_add hpos (by omega), hnumeral, digitChar_sub hch]
          exact ⟨rfl, by omega⟩

theorem decimal_zero : decimal 0 = [48] := decimal_of_lt (by decide)

/-- A leading zero adds nothing. -/
theorem digitsValue_zero_cons (text : Bytes) : digitsValue (48 :: text) = digitsValue text := by
  rw [digitsValue_cons]
  exact (congrArg (· + _) (Nat.zero_mul _)).trans (Nat.zero_add _)

/-- A numeral of more digits is greater. -/
theorem digitsValue_lt_of_length (ha : Digits a) (hb : b.head? ≠ some 48) (hdigits : Digits b)
    (h : a.length < b.length) : digitsValue a < digitsValue b := by
  cases b with
  | nil => cases h
  | cons first rest =>
      rw [digits_cons, isDigit_iff] at hdigits
      have hfirst : first.toNat ≠ 48 := fun heq => hb (congrArg some (UInt8.toNat_inj.mp heq))
      have hpow : 10 ^ a.length ≤ 10 ^ rest.length :=
        Nat.pow_le_pow_right (by decide) (Nat.le_of_lt_succ h)
      have hlead : 1 * 10 ^ rest.length ≤ (first.toNat - 48) * 10 ^ rest.length :=
        Nat.mul_le_mul_right _ (by omega)
      have hvalue := digitsValue_lt ha
      rw [digitsValue_cons]
      omega

/-- A greater first digit outweighs the rest. -/
theorem lead_lt {x y weight va vb : Nat} (h : x < y) (hva : va < weight) :
    x * weight + va < y * weight + vb := by
  have hstep : (x + 1) * weight ≤ y * weight := Nat.mul_le_mul_right _ h
  rw [Nat.succ_mul] at hstep
  omega

/-- Strings of one length are compared digit by digit. -/
theorem lt_iff_digitsValue_lt (ha : Digits a) (hb : Digits b) (h : a.length = b.length) :
    a < b ↔ digitsValue a < digitsValue b := by
  induction a generalizing b with
  | nil =>
      cases b with
      | nil => simp
      | cons _ _ => cases h
  | cons x a ih =>
      cases b with
      | nil => cases h
      | cons y b =>
          rw [digits_cons, isDigit_iff] at ha hb
          have hlength : a.length = b.length := Nat.succ.inj h
          have hva := digitsValue_lt ha.2
          have hvb := digitsValue_lt hb.2
          rw [← hlength] at hvb
          rw [List.cons_lt_cons_iff, ih ha.2 hb.2 hlength, digitsValue_cons, digitsValue_cons,
            ← hlength, UInt8.lt_iff_toNat_lt, ← UInt8.toNat_inj]
          rcases Nat.lt_trichotomy x.toNat y.toNat with hlt | heq | hgt
          · exact iff_of_true (.inl hlt) (lead_lt (by omega) hva)
          · rw [heq]
            omega
          · have hlead := @lead_lt (y.toNat - 48) (x.toNat - 48) _ _ (digitsValue a) (by omega) hvb
            omega

theorem head?_decimal (h : 0 < n) : (decimal n).head? ≠ some 48 := by
  induction n using Nat.strong_induction_on with
  | _ n ih =>
      by_cases hsmall : n < 10
      · rw [decimal_of_lt hsmall, List.head?_cons]
        intro heq
        have hnat := congrArg UInt8.toNat (Option.some.inj heq)
        rw [toNat_digitChar hsmall] at hnat
        change 48 + n = 48 at hnat
        omega
      · have hsplit : 10 * (n / 10) + n % 10 = n := Nat.div_add_mod n 10
        have hdiv : 0 < n / 10 := Nat.div_pos (Nat.le_of_not_lt hsmall) (by decide)
        have hmore := decimal_ten_mul_add hdiv (Nat.mod_lt n (show 0 < 10 by decide))
        rw [hsplit] at hmore
        rw [hmore, List.head?_append_of_ne_nil _ (decimal_ne_nil _)]
        exact ih _ (Nat.div_lt_self h (by decide)) hdiv

/-- Numerals are compared by their lengths first. -/
theorem decimal_lt_of_length {m n : Nat} (h : (decimal m).length < (decimal n).length) : m < n := by
  have hpos : 0 < n := by
    rcases Nat.eq_zero_or_pos n with rfl | hpos
    · have hne := List.length_pos_iff.mpr (decimal_ne_nil m)
      rw [decimal_zero, List.length_singleton] at h
      omega
    · exact hpos
  have hvalue := digitsValue_lt_of_length (digits_decimal m) (head?_decimal hpos)
    (digits_decimal n) h
  rwa [digitsValue_decimal, digitsValue_decimal] at hvalue

end Numerals
