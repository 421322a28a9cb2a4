-- SUMMARY: Bits kept in a byte string: setting one, and what setting one leaves.
import ZBStorage.Lib.Bytes

namespace BitArray

def mask (i : Nat) : UInt8 := 1 <<< UInt8.ofNat (i % 8)

def setBit (bits : Bytes) (i : Nat) : Bytes := bits.modify (i / 8) fun byte => byte ||| mask i

def getBit (bits : Bytes) (i : Nat) : Bool := bits.getD (i / 8) 0 &&& mask i ≠ 0

variable {bits : Bytes} {i j : Nat}

theorem mask_ne_zero (i : Nat) : mask i ≠ 0 := by
  have hall : ∀ n < 8, (1 : UInt8) <<< UInt8.ofNat n ≠ 0 := by decide
  exact hall (i % 8) (Nat.mod_lt i (by decide))

@[simp] theorem length_setBit (bits : Bytes) (i : Nat) : (setBit bits i).length = bits.length :=
  List.length_modify ..

theorem or_and_ne_zero {a b m : UInt8} (h : a &&& m ≠ 0) : (a ||| b) &&& m ≠ 0 := by
  have hsplit : (a ||| b) &&& m = (a &&& m) ||| (b &&& m) :=
    UInt8.toBitVec_inj.mp BitVec.and_or_distrib_right
  rw [hsplit, Ne, UInt8.or_eq_zero_iff, not_and_or]
  exact .inl h

theorem getBit_setBit_self (h : i / 8 < bits.length) : getBit (setBit bits i) i = true := by
  have hbyte : (setBit bits i).getD (i / 8) 0 = bits[i / 8] ||| mask i := by
    rw [setBit, List.getD_eq_getElem?_getD, List.getElem?_modify_eq, List.getElem?_eq_getElem h]
    rfl
  have hself : mask i &&& mask i ≠ 0 := by
    rw [UInt8.and_self]
    exact mask_ne_zero i
  rw [getBit, hbyte, UInt8.or_comm]
  exact decide_eq_true (or_and_ne_zero hself)

theorem getBit_setBit_of_getBit (i : Nat) (h : getBit bits j = true) :
    getBit (setBit bits i) j = true := by
  have hold := of_decide_eq_true h
  rw [List.getD_eq_getElem?_getD] at hold
  rw [getBit, setBit, List.getD_eq_getElem?_getD, List.getElem?_modify]
  refine decide_eq_true ?_
  cases hbyte : bits[j / 8]? with
  | none =>
      rw [hbyte] at hold
      exact hold
  | some byte =>
      rw [hbyte] at hold
      dsimp only [Option.map_eq_map, Option.map_some, Option.getD_some] at hold ⊢
      split
      · exact or_and_ne_zero hold
      · exact hold

/-- Setting bits one after the other. -/
theorem getBit_foldl_of_getBit {α : Type} (index : α → Nat) (values : List α)
    (h : getBit bits j = true) :
    getBit (values.foldl (fun bits value => setBit bits (index value)) bits) j = true := by
  induction values generalizing bits with
  | nil => exact h
  | cons value values ih => exact ih (getBit_setBit_of_getBit (index value) h)

theorem length_foldl {α : Type} (index : α → Nat) (values : List α) (bits : Bytes) :
    (values.foldl (fun bits value => setBit bits (index value)) bits).length = bits.length := by
  induction values generalizing bits with
  | nil => rfl
  | cons value values ih => exact (ih _).trans (length_setBit bits _)

theorem getBit_foldl_of_mem {α : Type} {index : α → Nat} {values : List α} {value : α}
    (hmem : value ∈ values) (hin : index value / 8 < bits.length) :
    getBit (values.foldl (fun bits value => setBit bits (index value)) bits) (index value) =
      true := by
  induction values generalizing bits with
  | nil => exact nomatch hmem
  | cons first values ih =>
      rcases List.mem_cons.mp hmem with rfl | hmem
      · exact getBit_foldl_of_getBit index values (getBit_setBit_self hin)
      · exact ih hmem (by rwa [length_setBit])

end BitArray
