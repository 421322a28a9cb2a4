-- SUMMARY: Saturating arithmetic on 64-bit numbers, and sums of lists that stop at the largest number.
import Mathlib.Algebra.BigOperators.Group.List.Basic
import Mathlib.Algebra.Order.BigOperators.Group.List
import Mathlib.Data.UInt

namespace Saturating

def largest : UInt64 := 0xffffffffffffffff

def add (a b : UInt64) : UInt64 := if b > largest - a then largest else a + b

def mul (a b : UInt64) : UInt64 := if a ≠ 0 ∧ b > largest / a then largest else a * b

def sum (values : List UInt64) : UInt64 := values.foldl add 0

theorem le_max (a b : UInt64) : a ≤ max a b ∧ b ≤ max a b := by
  change a ≤ (if a ≤ b then b else a) ∧ b ≤ if a ≤ b then b else a
  split
  · rename_i h
    exact ⟨h, UInt64.le_refl b⟩
  · rename_i h
    exact ⟨UInt64.le_refl a, Std.le_of_lt (Std.not_le.mp h)⟩

@[simp] theorem toNat_largest : largest.toNat = 2 ^ 64 - 1 := rfl

theorem toNat_add (a b : UInt64) : (add a b).toNat = min (a.toNat + b.toNat) (2 ^ 64 - 1) := by
  have ha := a.toNat_lt
  have hb := b.toNat_lt
  have hsub : (largest - a).toNat = 2 ^ 64 - 1 - a.toNat := by
    rw [UInt64.toNat_sub_of_le, toNat_largest]
    rw [UInt64.le_iff_toNat_le, toNat_largest]
    omega
  simp only [add, gt_iff_lt, UInt64.lt_iff_toNat_lt, hsub]
  split
  · rw [toNat_largest]
    omega
  · rw [UInt64.toNat_add]
    omega

theorem toNat_mul (a b : UInt64) : (mul a b).toNat = min (a.toNat * b.toNat) (2 ^ 64 - 1) := by
  have hquotient : (largest / a).toNat = (2 ^ 64 - 1) / a.toNat := by
    rw [UInt64.toNat_div, toNat_largest]
  simp only [mul, gt_iff_lt, UInt64.lt_iff_toNat_lt, hquotient]
  split
  · rename_i hbig
    have hpos : 0 < a.toNat := Nat.pos_of_ne_zero fun hzero => hbig.1 (UInt64.toNat_inj.mp hzero)
    have hover := (Nat.div_lt_iff_lt_mul hpos).mp hbig.2
    rw [Nat.mul_comm] at hover
    rw [toNat_largest]
    omega
  · rename_i hsmall
    have hfits : a.toNat * b.toNat ≤ 2 ^ 64 - 1 := by
      rcases Nat.eq_zero_or_pos a.toNat with hzero | hpos
      · rw [hzero, Nat.zero_mul]
        exact Nat.zero_le _
      · have hne : a ≠ 0 := fun h => hpos.ne' (congrArg UInt64.toNat h)
        rw [Nat.mul_comm]
        exact (Nat.le_div_iff_mul_le hpos).mp (Nat.le_of_not_lt fun hlt => hsmall ⟨hne, hlt⟩)
    rw [UInt64.toNat_mul, Nat.mod_eq_of_lt (by omega), Nat.min_eq_left hfits]

/-- What a rate adds up to in two intervals, it adds up to in one. -/
theorem add_mul_add (e rate : UInt64) {a b c : UInt64} (hab : a ≤ b) (hbc : b ≤ c) :
    add (add e (mul rate (b - a))) (mul rate (c - b)) = add e (mul rate (c - a)) := by
  apply UInt64.toNat_inj.mp
  have hac := UInt64.le_trans hab hbc
  have hsplit : c.toNat - a.toNat = (b.toNat - a.toNat) + (c.toNat - b.toNat) := by
    rw [UInt64.le_iff_toNat_le] at hab hbc
    omega
  have hrate : rate.toNat * (c.toNat - a.toNat) =
      rate.toNat * (b.toNat - a.toNat) + rate.toNat * (c.toNat - b.toNat) := by
    rw [hsplit, Nat.mul_add]
  simp only [toNat_add, toNat_mul, UInt64.toNat_sub_of_le _ _ hab,
    UInt64.toNat_sub_of_le _ _ hbc, UInt64.toNat_sub_of_le _ _ hac, hrate]
  omega

@[simp] theorem add_zero (a : UInt64) : add a 0 = a := by
  apply UInt64.toNat_inj.mp
  have ha := a.toNat_lt
  rw [toNat_add, UInt64.toNat_zero]
  omega

@[simp] theorem zero_mul (b : UInt64) : mul 0 b = 0 := by
  simp [mul]

theorem toNat_foldl_add (values : List UInt64) (a : UInt64) :
    (values.foldl add a).toNat =
      min (a.toNat + (values.map UInt64.toNat).sum) (2 ^ 64 - 1) := by
  induction values generalizing a with
  | nil =>
      have ha := a.toNat_lt
      simp only [List.foldl_nil, List.map_nil, List.sum_nil]
      omega
  | cons v values ih =>
      rw [List.foldl_cons, ih, toNat_add, List.map_cons, List.sum_cons]
      omega

theorem toNat_sum (values : List UInt64) :
    (sum values).toNat = min (values.map UInt64.toNat).sum (2 ^ 64 - 1) := by
  rw [sum, toNat_foldl_add, UInt64.toNat_zero, Nat.zero_add]

theorem le_sum_iff (bound : UInt64) (values : List UInt64) :
    bound ≤ sum values ↔ bound.toNat ≤ (values.map UInt64.toNat).sum := by
  have hbound := bound.toNat_lt
  rw [UInt64.le_iff_toNat_le, toNat_sum]
  omega

end Saturating
