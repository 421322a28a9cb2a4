-- SUMMARY: Weighted rotation: positions that take turns of given lengths, and the slots of one round.
import Mathlib.Algebra.GroupWithZero.Nat
import Mathlib.Data.List.TakeWhile
import Mathlib.Order.Lattice

/-!
# Weighted rotation

Positions take turns in a fixed cyclic order, each for as many picks as its weight
says; positions of weight zero are passed over. A state is the order, the position
whose turn it is first, with the picks left of that turn.
-/

structure Turns (α : Type) where
  order : List α
  left : Nat

namespace Turns

variable {α : Type} (w : α → Nat)

/-- The picks that position `a` has left when it is first and `left` says so. -/
def picksLeft (left : Nat) (a : α) : Nat := if w a = 0 then 0 else if left = 0 then w a else left

/-- Nobody has more picks left than its weight gives it. -/
def Bounded (t : Turns α) : Prop := ∀ a ∈ t.order.head?, 0 < w a → t.left ≤ w a

def round (order : List α) : List α := order.flatMap fun a => List.replicate (w a) a

/-- The picks of the coming round. -/
def slots (t : Turns α) : List α :=
  match t.order with
  | [] => []
  | a :: rest =>
      List.replicate (picksLeft w t.left a) a ++ round w rest ++
        List.replicate (w a - picksLeft w t.left a) a

/-- The next pick passes over the positions without a weight. -/
def next? (t : Turns α) : Option (α × Turns α) :=
  let skipped := t.order.takeWhile fun a => w a == 0
  match t.order.dropWhile fun a => w a == 0 with
  | [] => none
  | a :: rest =>
      let left := if skipped.isEmpty then picksLeft w t.left a else w a
      some (a, if left = 1 then ⟨rest ++ skipped ++ [a], 0⟩ else ⟨a :: (rest ++ skipped), left - 1⟩)

variable {w} {t t' : Turns α} {a : α} {skipped rest : List α}

/-! ## Rounds -/

theorem round_append (l₁ l₂ : List α) : round w (l₁ ++ l₂) = round w l₁ ++ round w l₂ :=
  List.flatMap_append

theorem round_singleton (a : α) : round w [a] = List.replicate (w a) a :=
  List.flatMap_singleton _ _

theorem round_of_zero (h : ∀ a ∈ skipped, w a = 0) : round w skipped = [] := by
  refine List.flatMap_eq_nil_iff.mpr fun a ha => ?_
  rw [h a ha, List.replicate_zero]

theorem mem_round (ha : a ∈ rest) (hw : 0 < w a) : a ∈ round w rest :=
  List.mem_flatMap.mpr ⟨a, ha, List.mem_replicate.mpr ⟨hw.ne', rfl⟩⟩

theorem length_round (order : List α) : (round w order).length = (order.map w).sum := by
  rw [round, List.length_flatMap]
  simp only [List.length_replicate]

/-- With no pick of the first turn taken, the slots are a whole round. -/
theorem slots_fresh (order : List α) : slots w ⟨order, 0⟩ = round w order := by
  cases order with
  | nil => rfl
  | cons a rest =>
      have hleft : picksLeft w 0 a = w a := by
        unfold picksLeft
        split
        · rename_i hzero
          exact hzero.symm
        · rfl
      rw [slots]
      simp only [hleft, Nat.sub_self, List.replicate_zero, List.append_nil]
      rfl

/-- A position without a weight has no slot, whatever is left. -/
theorem slots_of_zero (left : Nat) (hw : w a = 0) :
    slots w ⟨a :: rest, left⟩ = round w (a :: rest) := by
  have hleft : picksLeft w left a = 0 := if_pos hw
  rw [slots]
  simp [hleft, hw, round]

theorem picksLeft_pos (left : Nat) (hw : 0 < w a) : 0 < picksLeft w left a := by
  unfold picksLeft
  rw [if_neg hw.ne']
  split
  · exact hw
  · rename_i hleft
    exact Nat.pos_of_ne_zero hleft

theorem Bounded.picksLeft_le (h : t.Bounded w) (ht : t.order = a :: rest) :
    picksLeft w t.left a ≤ w a := by
  rcases Nat.eq_zero_or_pos (w a) with hzero | hpos
  · rw [picksLeft, if_pos hzero]
    exact Nat.zero_le _
  · unfold picksLeft
    rw [if_neg hpos.ne']
    split
    · exact le_refl _
    · exact h a (by rw [ht]; rfl) hpos

/-- A round has as many slots as the weights say. -/
theorem length_slots (h : t.Bounded w) : (t.slots w).length = (t.order.map w).sum := by
  rcases hlist : t.order with _ | ⟨a, rest⟩
  · rw [slots, hlist]
    rfl
  · have hle := h.picksLeft_le hlist
    rw [slots, hlist]
    simp only [List.length_append, List.length_replicate, length_round, List.map_cons,
      List.sum_cons]
    omega

/-- Every position with a weight has a slot. -/
theorem mem_slots (ha : a ∈ t.order) (hw : 0 < w a) : a ∈ t.slots w := by
  rcases hlist : t.order with _ | ⟨b, rest⟩
  · rw [hlist] at ha
    exact nomatch ha
  · rw [hlist] at ha
    rw [slots, hlist]
    simp only [List.mem_append]
    rcases List.mem_cons.mp ha with rfl | hrest
    · exact .inl (.inl (List.mem_replicate.mpr ⟨(picksLeft_pos _ hw).ne', rfl⟩))
    · exact .inl (.inr (mem_round hrest hw))

/-! ## A pick -/

/-- How a pick splits the order. -/
theorem next?_eq (hskip : ∀ b ∈ skipped, w b = 0) (hw : 0 < w a)
    (ht : t.order = skipped ++ a :: rest) :
    t.next? w = some (a,
      let left := if skipped.isEmpty then picksLeft w t.left a else w a
      if left = 1 then ⟨rest ++ skipped ++ [a], 0⟩ else ⟨a :: (rest ++ skipped), left - 1⟩) := by
  have hall : ∀ b ∈ skipped, (w b == 0) = true := fun b hb => beq_iff_eq.mpr (hskip b hb)
  have hstop : ¬(w a == 0) = true := fun h => hw.ne' (beq_iff_eq.mp h)
  have htake : t.order.takeWhile (fun a => w a == 0) = skipped := by
    rw [ht, List.takeWhile_append_of_pos hall, List.takeWhile_cons_of_neg (p := fun a => w a == 0) hstop, List.append_nil]
  have hdrop : t.order.dropWhile (fun a => w a == 0) = a :: rest := by
    rw [ht, List.dropWhile_append_of_pos hall, List.dropWhile_cons_of_neg (p := fun a => w a == 0) hstop]
  rw [next?]
  simp only [htake, hdrop]

theorem next?_eq_none (h : ∀ b ∈ t.order, w b = 0) : t.next? w = none := by
  have hdrop : t.order.dropWhile (fun a => w a == 0) = [] :=
    List.dropWhile_eq_nil_iff.mpr fun b hb => beq_iff_eq.mpr (h b hb)
  rw [next?]
  simp only [hdrop]

theorem next?_cases (w : α → Nat) (t : Turns α) :
    (∀ b ∈ t.order, w b = 0) ∨
      ∃ skipped a rest, (∀ b ∈ skipped, w b = 0) ∧ 0 < w a ∧ t.order = skipped ++ a :: rest := by
  have hsplit := List.takeWhile_append_dropWhile (p := fun a => w a == 0) (l := t.order)
  have hskip : ∀ b ∈ t.order.takeWhile (fun a => w a == 0), w b = 0 := fun b hb =>
    beq_iff_eq.mp (List.all_eq_true.mp (List.all_takeWhile (l := t.order)) b hb)
  rcases hdrop : t.order.dropWhile (fun a => w a == 0) with _ | ⟨a, rest⟩
  · rw [hdrop, List.append_nil] at hsplit
    exact .inl fun b hb => hskip b (hsplit.symm ▸ hb)
  · have hhead := List.head?_dropWhile_not (fun a => w a == 0) t.order
    rw [hdrop] at hhead
    have hne : w a ≠ 0 := by simpa using hhead
    exact .inr ⟨_, a, rest, hskip, Nat.pos_of_ne_zero hne, (hdrop ▸ hsplit).symm⟩

/-- A pick takes the first slot and puts it last. -/
theorem slots_next? (hbound : t.Bounded w) (h : t.next? w = some (a, t')) :
    ∃ later, t.slots w = a :: later ∧ t'.slots w = later ++ [a] ∧ t'.Bounded w ∧
      0 < w a ∧ t'.order.Perm t.order := by
  rcases next?_cases w t with hzero | ⟨skipped, b, rest, hskip, hw, ht⟩
  · rw [next?_eq_none hzero] at h
    exact nomatch h
  rw [next?_eq hskip hw ht] at h
  obtain ⟨rfl, ht'⟩ := Prod.mk.inj (Option.some.inj h)
  have hround : round w (rest ++ skipped) = round w rest := by
    rw [round_append, round_of_zero hskip, List.append_nil]
  -- the picks the position has now, and the slots before and after them
  obtain ⟨left, hleft, hpos, hle, hslots⟩ : ∃ left,
      (if skipped.isEmpty then picksLeft w t.left b else w b) = left ∧ 0 < left ∧ left ≤ w b ∧
        t.slots w = List.replicate left b ++ round w rest ++ List.replicate (w b - left) b := by
    refine ⟨_, rfl, ?_⟩
    rcases skipped with _ | ⟨c, skipped⟩
    · refine ⟨picksLeft_pos _ hw, hbound.picksLeft_le ht, ?_⟩
      rw [slots, ht]
      rfl
    · have hc : w c = 0 := hskip c List.mem_cons_self
      have hempty : (c :: skipped).isEmpty = false := rfl
      have hwhole : t.slots w = round w t.order := by
        obtain ⟨order, left⟩ := t
        subst ht
        exact slots_of_zero left hc
      rw [hempty, if_neg Bool.false_ne_true]
      refine ⟨hw, le_refl _, ?_⟩
      rw [hwhole, ht, round_append, round_of_zero hskip, Nat.sub_self, List.replicate_zero,
        List.append_nil]
      rfl
  rw [hleft] at ht'
  have hperm : t'.order.Perm t.order := by
    rw [ht, ← ht']
    simp only
    split
    · rw [List.append_assoc]
      exact List.perm_append_comm.trans (by
        rw [List.append_assoc]
        exact (List.Perm.refl _).append_left skipped)
    · exact @List.perm_append_comm _ (b :: rest) _
  have hreplicate : List.replicate left b = b :: List.replicate (left - 1) b := by
    rw [← List.replicate_succ, Nat.sub_add_cancel hpos]
  refine ⟨List.replicate (left - 1) b ++ round w rest ++ List.replicate (w b - left) b, ?_, ?_, ?_,
    hw, hperm⟩
  · rw [hslots, hreplicate]
    rfl
  · have hlast : List.replicate (left - 1) b ++ round w rest ++ List.replicate (w b - left) b ++
        [b] = List.replicate (left - 1) b ++ round w rest ++ List.replicate (w b - left + 1) b := by
      rw [List.append_assoc, ← List.replicate_succ']
    rw [← ht', hlast]
    simp only
    split
    · rename_i hone
      rw [slots_fresh, round_append, hround, round_singleton, hone]
      simp only [Nat.sub_self, List.replicate_zero, List.nil_append]
      rw [Nat.sub_add_cancel hw]
    · rename_i hmore
      have hleft' : picksLeft w (left - 1) b = left - 1 := by
        unfold picksLeft
        rw [if_neg hw.ne', if_neg (Nat.sub_ne_zero_of_lt (Nat.lt_of_le_of_ne hpos (Ne.symm hmore)))]
      have hrest : w b - (left - 1) = w b - left + 1 := by omega
      rw [slots]
      simp only [hleft', hround, hrest]
  · rw [← ht']
    intro c hc _
    simp only at hc ⊢
    split
    · exact Nat.zero_le _
    · rename_i hmore
      rw [if_neg hmore] at hc
      cases hc
      exact (Nat.sub_le _ _).trans hle

end Turns
