import Mathlib.Tactic.Ring
import ImageRollout.Uuid

/-! The canonical text of an identifier. Its 32 digits are those of the number, and hyphens stand nowhere but
    between the groups, so the identifier is read back from it. -/

namespace ImageRollout

/-! ### Digits of a fixed width -/

namespace Text

/-- The values of the last `width` hexadecimal digits of a number. -/
def hexValues (width n : Nat) : List Nat :=
  (List.range width).reverse.map fun place => n / 16 ^ place % 16

theorem hexDigits_eq (width n : Nat) : hexDigits width n = (hexValues width n).map hexDigit := by
  unfold hexDigits hexValues
  rw [List.map_map]
  rfl

theorem length_hexDigits (width n : Nat) : (hexDigits width n).length = width := by
  simp [hexDigits]

theorem lt_of_mem_hexValues {width n d : Nat} (h : d ∈ hexValues width n) : d < 16 := by
  obtain ⟨place, -, rfl⟩ := List.mem_map.mp h
  exact Nat.mod_lt _ (by decide)

theorem hexDigit?_hexDigit : ∀ d < 16, hexDigit? (hexDigit d) = some d := by
  decide

theorem hexDigit_ne_hyphen : ∀ d < 16, hexDigit d ≠ '-' := by
  decide

theorem hyphen_not_mem_hexDigits (width n : Nat) : '-' ∉ hexDigits width n := by
  rw [hexDigits_eq]
  intro h
  obtain ⟨d, hd, heq⟩ := List.mem_map.mp h
  exact hexDigit_ne_hyphen d (lt_of_mem_hexValues hd) heq

theorem mapM_hexDigit? {ds : List Nat} (h : ∀ d ∈ ds, d < 16) : (ds.map hexDigit).mapM hexDigit? = some ds := by
  induction ds with
  | nil => rfl
  | cons d rest ih =>
    have hfirst := hexDigit?_hexDigit d (h d List.mem_cons_self)
    have hrest := ih fun e he => h e (List.mem_cons_of_mem _ he)
    simp [List.mapM_cons, hfirst, hrest]

theorem foldl_digits (base start : Nat) (ds : List Nat) :
    ds.foldl (fun n d => n * base + d) start = start * base ^ ds.length + ofDigits base ds := by
  unfold ofDigits
  induction ds generalizing start with
  | nil => simp
  | cons d rest ih =>
    rw [List.foldl_cons, List.foldl_cons, ih, ih (0 * base + d), List.length_cons, pow_succ]
    ring

theorem ofDigits_cons (base d : Nat) (ds : List Nat) : ofDigits base (d :: ds) = d * base ^ ds.length + ofDigits base ds := by
  have hfold := foldl_digits base (0 * base + d) ds
  rw [Nat.zero_mul, Nat.zero_add] at hfold
  rw [← hfold]
  unfold ofDigits
  rw [List.foldl_cons, Nat.zero_mul, Nat.zero_add]

theorem ofDigits_hexValues (width n : Nat) : ofDigits 16 (hexValues width n) = n % 16 ^ width := by
  induction width with
  | zero => simp [hexValues, ofDigits, Nat.mod_one]
  | succ width ih =>
    have hsplit : hexValues (width + 1) n = n / 16 ^ width % 16 :: hexValues width n := by
      simp [hexValues, List.range_succ]
    have hlength : (hexValues width n).length = width := by simp [hexValues]
    rw [hsplit, ofDigits_cons, ih, hlength, Nat.pow_succ, Nat.mod_mul]
    ring

end Text

/-! ### Groups -/

namespace Uuid

open Text

/-- Digits in groups of 8, 4, 4, 4 and 12. -/
def grouped (digits : List Char) : List Char :=
  (digits.drop 0).take 8 ++ '-' :: (digits.drop 8).take 4 ++ '-' :: (digits.drop 12).take 4 ++
    '-' :: (digits.drop 16).take 4 ++ '-' :: (digits.drop 20).take 12

theorem toList_text (u : Uuid) : u.text.toList = grouped (hexDigits 32 u.toNat) :=
  String.toList_ofList

section

variable {digits : List Char} (hlength : digits.length = 32)

include hlength

theorem length_grouped : (grouped digits).length = 36 := by
  simp [grouped, hlength]

theorem hyphens_grouped :
    (grouped digits)[8]? = some '-' ∧ (grouped digits)[13]? = some '-' ∧ (grouped digits)[18]? = some '-' ∧
      (grouped digits)[23]? = some '-' := by
  simp [grouped, hlength]

/-- Without the hyphens the groups are the digits again. -/
theorem filter_grouped (hhyphen : '-' ∉ digits) : (grouped digits).filter (· != '-') = digits := by
  have hgroup : ∀ start size, ((digits.drop start).take size).filter (· != '-') = (digits.drop start).take size := by
    intro start size
    refine List.filter_eq_self.mpr fun c hc => bne_iff_ne.mpr ?_
    rintro rfl
    exact hhyphen (List.mem_of_mem_drop (List.mem_of_mem_take hc))
  have hjoin : ∀ start size, (digits.drop start).take size ++ digits.drop (start + size) = digits.drop start := by
    intro start size
    rw [← List.drop_drop, List.take_append_drop]
  have hlast : (digits.drop 20).take 12 = digits.drop 20 := List.take_of_length_le (by simp [hlength])
  unfold grouped
  simp only [List.filter_append, List.filter_cons, bne_self_eq_false, Bool.false_eq_true, if_false, hgroup, List.append_assoc]
  rw [hlast, hjoin 16 4, hjoin 12 4, hjoin 8 4, hjoin 0 8, List.drop_zero]

end

/-- The canonical text of an identifier is read as it. -/
theorem ofText?_text (u : Uuid) : ofText? u.text = some u := by
  have hlength := length_hexDigits 32 u.toNat
  have hvalues : (hexDigits 32 u.toNat).mapM hexDigit? = some (hexValues 32 u.toNat) := by
    rw [hexDigits_eq]
    exact mapM_hexDigit? fun d hd => lt_of_mem_hexValues hd
  have hnumber : BitVec.ofNat 128 (ofDigits 16 (hexValues 32 u.toNat)) = u := by
    have hwidth : 16 ^ 32 = 2 ^ 128 := by norm_num
    rw [ofDigits_hexValues, hwidth, Nat.mod_eq_of_lt u.isLt, BitVec.ofNat_toNat, BitVec.setWidth_eq]
  have hdigits : ofDigits? (hexDigits 32 u.toNat) = some u := by
    unfold ofDigits?
    rw [if_pos hlength, hvalues, Option.map_some, hnumber]
  unfold ofText? ofGroups?
  simp only [toList_text, length_grouped hlength, hyphens_grouped hlength, filter_grouped hlength
    (hyphen_not_mem_hexDigits _ _), hdigits]
  rfl

end Uuid

end ImageRollout
