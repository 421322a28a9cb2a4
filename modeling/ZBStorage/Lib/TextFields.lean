-- SUMMARY: Texts cut at a separator as std::getline does, trimmed, and read as decimal numbers as std::stoull does.
import Mathlib.Data.List.DropRight
import ZBStorage.Lib.Bytes

namespace TextFields

open Bytes

/-! ## Fields -/

/-- The fields that `std::getline` reads, the first of them begun with `field`. -/
def getLines (sep : UInt8) : Bytes → Bytes → List Bytes
  | field, [] => if field = [] then [] else [field]
  | field, ch :: rest =>
      if ch = sep then field :: getLines sep [] rest else getLines sep (field ++ [ch]) rest

variable {sep : UInt8} {field text rest : Bytes} {fields : List Bytes}

theorem getLines_append (h : sep ∉ text) :
    getLines sep field (text ++ rest) = getLines sep (field ++ text) rest := by
  induction text generalizing field with
  | nil => rw [List.nil_append, List.append_nil]
  | cons ch text ih =>
      have hch : ch ≠ sep := fun heq => h (heq ▸ List.mem_cons_self)
      have hrest : sep ∉ text := fun hmem => h (List.mem_cons_of_mem _ hmem)
      rw [List.cons_append, getLines, if_neg hch, ih hrest, List.append_assoc]
      rfl

theorem getLines_sep : getLines sep field (sep :: rest) = field :: getLines sep [] rest :=
  if_pos rfl

theorem getLines_last (h : sep ∉ text) (hne : text ≠ []) : getLines sep [] text = [text] := by
  have hrun := @getLines_append sep [] text [] h
  rw [List.append_nil, List.nil_append] at hrun
  rw [hrun, getLines, if_neg hne]

/-- Fields without the separator are read back, if the last one is not empty. -/
theorem getLines_intercalate (hclean : ∀ field ∈ fields, sep ∉ field)
    (hlast : ∀ field ∈ fields.getLast?, field ≠ []) :
    getLines sep [] ([sep].intercalate fields) = fields := by
  induction fields with
  | nil => rfl
  | cons first fields ih =>
      have hfirst := hclean first List.mem_cons_self
      cases fields with
      | nil =>
          have hne := hlast first rfl
          rw [List.intercalate_singleton]
          exact getLines_last hfirst hne
      | cons second fields =>
          have hrest := ih (fun field hmem => hclean field (List.mem_cons_of_mem _ hmem)) hlast
          rw [List.intercalate_cons_of_ne_nil (List.cons_ne_nil _ _), List.append_assoc,
            getLines_append hfirst, List.nil_append, List.singleton_append, getLines_sep, hrest]

/-- Fields that all end with the separator are read back, empty or not. -/
theorem getLines_flatMap_append (hclean : ∀ field ∈ fields, sep ∉ field) :
    getLines sep [] (fields.flatMap (· ++ [sep]) ++ rest) = fields ++ getLines sep [] rest := by
  induction fields with
  | nil => rfl
  | cons first fields ih =>
      have hfirst := hclean first List.mem_cons_self
      have hrest := ih fun field hmem => hclean field (List.mem_cons_of_mem _ hmem)
      rw [List.flatMap_cons, List.append_assoc, List.append_assoc, getLines_append hfirst,
        List.nil_append, List.singleton_append, getLines_sep, hrest, List.cons_append]

theorem getLines_flatMap (hclean : ∀ field ∈ fields, sep ∉ field) :
    getLines sep [] (fields.flatMap (· ++ [sep])) = fields := by
  have h := @getLines_flatMap_append sep [] fields hclean
  rwa [List.append_nil, getLines, if_pos rfl, List.append_nil] at h

/-- No field holds the separator, -/
theorem notMem_of_mem_getLines {line : Bytes} (hfield : sep ∉ field)
    (h : line ∈ getLines sep field text) : sep ∉ line := by
  induction text generalizing field with
  | nil =>
      rw [getLines] at h
      split at h
      · cases h
      · rwa [List.mem_singleton.mp h]
  | cons ch text ih =>
      rw [getLines] at h
      split at h
      · rcases List.mem_cons.mp h with rfl | h
        · exact hfield
        · exact ih (List.not_mem_nil) h
      · rename_i hch
        refine ih (fun hmem => ?_) h
        rcases List.mem_append.mp hmem with hmem | hmem
        · exact hfield hmem
        · exact hch (List.mem_singleton.mp hmem).symm

/-- and no other byte than the text does. -/
theorem mem_of_mem_getLines {line : Bytes} {b : UInt8} (h : line ∈ getLines sep field text)
    (hb : b ∈ line) : b ∈ field ∨ b ∈ text := by
  induction text generalizing field with
  | nil =>
      rw [getLines] at h
      split at h
      · cases h
      · rw [List.mem_singleton.mp h] at hb
        exact .inl hb
  | cons ch text ih =>
      rw [getLines] at h
      split at h
      · rcases List.mem_cons.mp h with rfl | h
        · exact .inl hb
        · have hrest := (ih h).resolve_left List.not_mem_nil
          exact .inr (List.mem_cons_of_mem _ hrest)
      · rcases ih h with hfield | htext
        · rcases List.mem_append.mp hfield with hfield | hch
          · exact .inl hfield
          · exact .inr (List.mem_singleton.mp hch ▸ List.mem_cons_self)
        · exact .inr (List.mem_cons_of_mem _ htext)

/-- Every separator ends a field. -/
theorem length_getLines (hne : text ≠ []) (hlast : text.getLast? ≠ some sep) (field : Bytes) :
    (getLines sep field text).length = text.count sep + 1 := by
  induction text generalizing field with
  | nil => exact absurd rfl hne
  | cons ch text ih =>
      cases text with
      | nil =>
          have hch : ch ≠ sep := fun heq => hlast (heq ▸ rfl)
          have hmore : field ++ [ch] ≠ [] := by simp
          rw [getLines, if_neg hch, getLines, if_neg hmore, List.count_singleton,
            if_neg fun heq => hch (beq_iff_eq.mp heq)]
          rfl
      | cons next text =>
          have hrest : (next :: text).getLast? ≠ some sep := by
            rwa [List.getLast?_cons_cons] at hlast
          rw [getLines]
          split
          · rename_i heq
            rw [List.length_cons, ih (List.cons_ne_nil _ _) hrest, heq, List.count_cons_self]
          · rename_i hch
            rw [ih (List.cons_ne_nil _ _) hrest, List.count_cons_of_ne hch]

/-! ## Blanks and numbers -/

/-- `std::isspace` in the C locale. -/
def isSpace (ch : UInt8) : Bool := ch = 32 || (9 ≤ ch && ch ≤ 13)

def trim (text : Bytes) : Bytes := (text.dropWhile isSpace).rdropWhile isSpace

/-- `std::stoull` in base 10, which does not look behind the digits. A sign may stand in
    front of them, and a negative number wraps. -/
def stoull (text : Bytes) : Option UInt64 :=
  let number := text.dropWhile isSpace
  let unsigned := if number.head? = some 43 ∨ number.head? = some 45 then number.tail else number
  let digits := unsigned.takeWhile isDigit
  if digits = [] ∨ digitsValue digits ≥ 2 ^ 64 then none
  else
    let value := UInt64.ofNat (digitsValue digits)
    some (if number.head? = some 45 then 0 - value else value)

/-- `std::strtoull` in base 10, which reads what is not a number as zero, and what does
    not fit as the largest number. -/
def strtoull (text : Bytes) : UInt64 :=
  let number := text.dropWhile isSpace
  let unsigned := if number.head? = some 43 ∨ number.head? = some 45 then number.tail else number
  (stoull text).getD (if unsigned.takeWhile isDigit = [] then 0 else 2 ^ 64 - 1)

/-- `std::from_chars` of an unsigned number that must fill the text. -/
def fromChars (text : Bytes) : Option UInt64 :=
  if text = [] ∨ text.all isDigit = false ∨ digitsValue text ≥ 2 ^ 64 then none
  else some (UInt64.ofNat (digitsValue text))

theorem decimal_ne_nil (n : Nat) : decimal n ≠ [] := by
  rw [decimal, Ne, List.map_eq_nil_iff]
  exact Nat.toDigits_ne_nil

theorem notMem_decimal {ch : UInt8} (h : isDigit ch = false) (n : Nat) : ch ∉ decimal n := fun hmem =>
  Bool.false_ne_true (h.symm.trans (isDigit_of_mem_decimal hmem))

theorem isDigit_head_decimal {ch : UInt8} {n : Nat} (h : (decimal n).head? = some ch) :
    isDigit ch = true :=
  isDigit_of_mem_decimal (List.mem_of_head? h)

/-- No blank stands in front of a number. -/
theorem dropWhile_isSpace_decimal (n : Nat) : (decimal n).dropWhile isSpace = decimal n := by
  obtain ⟨first, rest, hdecimal⟩ := List.exists_cons_of_ne_nil (decimal_ne_nil n)
  have hfirst : isDigit first = true := isDigit_head_decimal (by rw [hdecimal, List.head?_cons])
  have hspace : isSpace first = false := by
    rw [isDigit, Bool.and_eq_true, decide_eq_true_eq, decide_eq_true_eq, UInt8.le_iff_toNat_le,
      UInt8.le_iff_toNat_le] at hfirst
    rw [isSpace, Bool.or_eq_false_iff, Bool.and_eq_false_iff, decide_eq_false_iff_not,
      decide_eq_false_iff_not, decide_eq_false_iff_not, UInt8.le_iff_toNat_le,
      UInt8.le_iff_toNat_le, ← UInt8.toNat_inj]
    simp only [UInt8.toNat_ofNat] at hfirst ⊢
    omega
  rw [hdecimal, List.dropWhile_cons_of_neg (by rw [hspace]; decide)]

/-- And no sign. -/
theorem head?_decimal_ne (n : Nat) :
    ¬ ((decimal n).head? = some 43 ∨ (decimal n).head? = some 45) := by
  rintro (h | h)
  · exact absurd (isDigit_head_decimal h) (by decide)
  · exact absurd (isDigit_head_decimal h) (by decide)

theorem stoull_decimal (n : UInt64) : stoull (decimal n.toNat) = some n := by
  have htake : (decimal n.toNat).takeWhile isDigit = decimal n.toNat :=
    List.takeWhile_eq_self_iff.mpr fun _ hmem => isDigit_of_mem_decimal hmem
  have hbound := n.toNat_lt
  have hvalue := digitsValue_decimal n.toNat
  have hsmall : ¬(decimal n.toNat = [] ∨ digitsValue (decimal n.toNat) ≥ 2 ^ 64) := by
    rw [hvalue, not_or]
    exact ⟨decimal_ne_nil _, Nat.not_le_of_lt hbound⟩
  have hsign := head?_decimal_ne n.toNat
  rw [stoull, dropWhile_isSpace_decimal]
  dsimp only
  rw [if_neg hsign, htake, if_neg hsmall, if_neg fun hminus => hsign (.inr hminus), hvalue,
    UInt64.ofNat_toNat]

theorem strtoull_decimal (n : UInt64) : strtoull (decimal n.toNat) = n := by
  rw [strtoull, stoull_decimal]
  rfl

theorem fromChars_decimal (n : UInt64) : fromChars (decimal n.toNat) = some n := by
  have hall : (decimal n.toNat).all isDigit = true :=
    List.all_eq_true.mpr fun _ hmem => isDigit_of_mem_decimal hmem
  have hbound := n.toNat_lt
  have hvalue := digitsValue_decimal n.toNat
  have hread : ¬(decimal n.toNat = [] ∨ (decimal n.toNat).all isDigit = false ∨
      digitsValue (decimal n.toNat) ≥ 2 ^ 64) := by
    rw [hvalue, hall, not_or, not_or]
    exact ⟨decimal_ne_nil _, by decide, Nat.not_le_of_lt hbound⟩
  rw [fromChars, if_neg hread, hvalue, UInt64.ofNat_toNat]

end TextFields
