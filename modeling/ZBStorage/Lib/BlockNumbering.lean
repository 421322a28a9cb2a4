-- SUMMARY: Numberings of places (block, offset) by consecutive blocks, and when division finds the place.
import Mathlib.Data.Nat.Basic

/-!
# Numbering by blocks

Blocks of places lie one after the other; the place `(k, i)` with `i < size k` has
the number `start k + i`. Numbers follow the lexicographic order of the places, so
no two places share one.
-/

structure BlockNumbering where
  size : Nat → Nat
  start : Nat → Nat
  start_succ : ∀ k, start (k + 1) = start k + size k

namespace BlockNumbering

variable {b : BlockNumbering} {k m i j : Nat}

theorem start_mono (h : k ≤ m) : b.start k ≤ b.start m := by
  induction h with
  | refl => exact Nat.le_refl _
  | step _ ih =>
      apply Nat.le_trans ih
      rw [Nat.succ_eq_add_one, b.start_succ]
      exact Nat.le_add_right _ _

/-- A place lies in front of every later block. -/
theorem number_lt_start (hi : i < b.size k) (hkm : k < m) : b.start k + i < b.start m := by
  have hnext : b.start (k + 1) ≤ b.start m := start_mono hkm
  rw [b.start_succ] at hnext
  omega

theorem number_lt_iff (hi : i < b.size k) (hj : j < b.size m) :
    b.start k + i < b.start m + j ↔ k < m ∨ k = m ∧ i < j := by
  rcases Nat.lt_trichotomy k m with hlt | rfl | hgt
  · have hbefore := number_lt_start (b := b) hi hlt
    omega
  · omega
  · have hbefore := number_lt_start (b := b) hj hgt
    omega

theorem number_inj (hi : i < b.size k) (hj : j < b.size m)
    (h : b.start k + i = b.start m + j) : k = m ∧ i = j := by
  have hforth := number_lt_iff (b := b) hi hj
  have hback := number_lt_iff (b := b) hj hi
  omega

/-! ## Blocks of one size -/

def uniform (n : Nat) : BlockNumbering where
  size _ := n
  start k := k * n
  start_succ k := Nat.succ_mul k n

theorem uniform_div_mod (n x : Nat) : (uniform n).start (x / n) + x % n = x := by
  have h := Nat.div_add_mod x n
  rwa [Nat.mul_comm] at h

/-! ## Two regions

`count` blocks of the size `first` in front of blocks of the size `second`. -/

def twoRegions (count first second : Nat) : BlockNumbering where
  size k := if k < count then first else second
  start k := if k < count then k * first else count * first + (k - count) * second
  start_succ k := by
    rcases Nat.lt_trichotomy (k + 1) count with hlt | rfl | hgt
    · rw [if_pos hlt, if_pos (by omega), if_pos (by omega)]
      exact Nat.succ_mul k first
    · rw [if_neg (by omega), if_pos (by omega), if_pos (by omega), Nat.sub_self, Nat.zero_mul]
      exact Nat.succ_mul k first
    · rw [if_neg (by omega), if_neg (by omega), if_neg (by omega),
        Nat.sub_add_comm (by omega), Nat.succ_mul, Nat.add_assoc]

variable {count first second x : Nat}

theorem twoRegions_number_first (second : Nat) (hx : x < count * first) :
    x / first < count ∧ (twoRegions count first second).start (x / first) + x % first = x := by
  have hblock : x / first < count := Nat.div_lt_of_lt_mul (by rwa [Nat.mul_comm])
  refine ⟨hblock, ?_⟩
  dsimp only [twoRegions]
  rw [if_pos hblock]
  exact uniform_div_mod first x

theorem twoRegions_number_second (hx : count * first ≤ x) :
    (twoRegions count first second).start (count + (x - count * first) / second) +
      (x - count * first) % second = x := by
  have hrest : (x - count * first) / second * second + (x - count * first) % second =
      x - count * first := uniform_div_mod second (x - count * first)
  dsimp only [twoRegions]
  rw [if_neg (Nat.not_lt.mpr (Nat.le_add_right _ _)), Nat.add_sub_cancel_left, Nat.add_assoc, hrest]
  exact Nat.add_sub_of_le hx

end BlockNumbering
