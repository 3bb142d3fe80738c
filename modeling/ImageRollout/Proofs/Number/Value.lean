import Mathlib
import ImageRollout.Number.Numeral

/-! The values of floating-point numbers. A finite number is an exact rational and an infinity lies beyond
    all of them, so each of these is either at most zero or above zero. What is not a number is neither;
    no decimal numeral is read as it, only the word for it. -/

namespace ImageRollout

/-! ### Comparison with zero -/

namespace Binary64

/-- A significand times two to an exponent. -/
def scale (m : Nat) (q : Int) : ℚ :=
  m * 2 ^ q

theorem scale_nonneg (m : Nat) (q : Int) : 0 ≤ scale m q :=
  mul_nonneg (Nat.cast_nonneg m) (zpow_nonneg (by norm_num) q)

theorem scale_pos_iff {m : Nat} {q : Int} : 0 < scale m q ↔ m ≠ 0 := by
  have hpow : (0 : ℚ) < 2 ^ q := zpow_pos (by norm_num) q
  unfold scale
  rw [mul_pos_iff_of_pos_right hpow, Nat.cast_pos, Nat.pos_iff_ne_zero]

/-- The exact value: a rational number or an infinity. What is not a number has none. -/
def value? : Binary64 → Option (WithBot (WithTop ℚ))
  | .finite true m q => some ↑(↑(-scale m q) : WithTop ℚ)
  | .finite false m q => some ↑(↑(scale m q) : WithTop ℚ)
  | .infinite true => some ⊥
  | .infinite false => some ⊤
  | .nan => none

/-- A number that compares as greater than zero. -/
def IsAboveZero (x : Binary64) : Prop :=
  ∃ v, x.value? = some v ∧ 0 < v

/-- A number that compares as at most zero. -/
def IsAtMostZero (x : Binary64) : Prop :=
  ∃ v, x.value? = some v ∧ v ≤ 0

theorem isPositive_iff {x : Binary64} : x.isPositive ↔ x.IsAboveZero := by
  unfold IsAboveZero
  cases x with
  | finite negative m q =>
    cases negative with
    | true =>
      have hvalue : -scale m q ≤ 0 := neg_nonpos.mpr (scale_nonneg m q)
      simp only [isPositive, value?, Option.some.injEq, exists_eq_left', Bool.not_true, Bool.false_and,
        Bool.false_eq_true, false_iff, not_lt]
      exact_mod_cast hvalue
    | false =>
      simp only [isPositive, value?, Option.some.injEq, exists_eq_left', Bool.not_false, Bool.true_and, bne_iff_ne]
      rw [← scale_pos_iff (q := q)]
      norm_cast
  | infinite negative =>
    have htop : (0 : WithBot (WithTop ℚ)) < ⊤ := Ne.lt_top nofun
    cases negative <;> simp [isPositive, value?, htop]
  | nan => simp [isPositive, value?]

theorem atMostZero_iff {x : Binary64} : x.atMostZero ↔ x.IsAtMostZero := by
  have hiff : x.IsAtMostZero ↔ x.value? ≠ none ∧ ¬x.IsAboveZero := by
    unfold IsAtMostZero IsAboveZero
    cases x.value? <;> simp
  rw [hiff, ← isPositive_iff]
  cases x with
  | finite negative m q => cases negative <;> simp [atMostZero, isPositive, value?]
  | infinite negative => cases negative <;> simp [atMostZero, isPositive, value?]
  | nan => simp [atMostZero, value?]

theorem isAboveZero_or_eq_nan {x : Binary64} (h : ¬x.IsAtMostZero) : x.IsAboveZero ∨ x = .nan := by
  cases hvalue : x.value? with
  | some v => exact Or.inl ⟨v, hvalue, not_le.mp fun hle => h ⟨v, hvalue, hle⟩⟩
  | none =>
    cases x with
    | finite negative m q => cases negative <;> cases hvalue
    | infinite negative => cases negative <;> cases hvalue
    | nan => exact Or.inr rfl

/-! ### What is not a number -/

theorem not_isAboveZero_nan : ¬nan.IsAboveZero := by
  rintro ⟨v, hv, -⟩
  cases hv

theorem ofRatio_ne_nan (negative : Bool) (num den : Nat) : ofRatio negative num den ≠ .nan := by
  unfold ofRatio
  split
  · exact nofun
  · dsimp only
    split <;> split <;> exact nofun

theorem ofDecimal_ne_nan (negative : Bool) (digits : Nat) (exponent : Int) : ofDecimal negative digits exponent ≠ .nan := by
  unfold ofDecimal
  dsimp only
  split
  · exact nofun
  · split
    · exact nofun
    · split <;> exact ofRatio_ne_nan _ _ _

theorem ofInt_ne_nan (n : Int) : ofInt n ≠ .nan :=
  ofDecimal_ne_nan _ _ _

end Binary64

namespace Numeral

/-- A text without the sign before it. -/
def withoutSign : List Char → List Char
  | '-' :: cs => cs
  | '+' :: cs => cs
  | cs => cs

/-- The word for what is not a number, in any case and with or without a sign. -/
def IsNan (cs : List Char) : Prop :=
  String.ofList ((withoutSign cs).map Char.toLower) = "nan"

theorem decimal?_ne_nan (negative : Bool) (cs : List Char) : decimal? negative cs ≠ some .nan := by
  intro h
  unfold decimal? at h
  simp only [Option.ite_none_left_eq_some, Option.map_eq_some_iff] at h
  obtain ⟨-, e, -, he⟩ := h
  exact Binary64.ofDecimal_ne_nan _ _ _ he

theorem unsigned?_eq_nan_iff {negative : Bool} {cs : List Char} :
    unsigned? negative cs = some .nan ↔ String.ofList (cs.map Char.toLower) = "nan" := by
  unfold unsigned?
  dsimp only
  split
  · rename_i hword
    rcases hword with hword | hword <;> simp [hword]
  · split
    · rename_i hword
      simp [hword]
    · rename_i hword
      exact iff_of_false (decimal?_ne_nan negative cs) hword

theorem signed?_eq_nan_iff {cs : List Char} : signed? cs = some .nan ↔ IsNan cs := by
  unfold signed? IsNan
  split
  · exact unsigned?_eq_nan_iff
  · exact unsigned?_eq_nan_iff
  · rename_i hminus hplus
    have hsame : withoutSign cs = cs := by
      unfold withoutSign
      split
      · exact absurd rfl (hminus _)
      · exact absurd rfl (hplus _)
      · rfl
    rw [hsame]
    exact unsigned?_eq_nan_iff

/-- A text with white space around the word for what is not a number, or else with underscores in it. -/
def ReadsAsNan (cs : List Char) : Prop :=
  IsNan (Text.trimChars Text.isSpace cs) ∨ signed? (Text.trimChars Text.isSpace cs) = none ∧ IsNan (ungrouped cs)

theorem real?_eq_nan_iff {cs : List Char} : real? cs = some .nan ↔ ReadsAsNan cs := by
  unfold real? ReadsAsNan
  rw [← signed?_eq_nan_iff, ← signed?_eq_nan_iff]
  cases signed? (Text.trimChars Text.isSpace cs) <;> simp

end Numeral

end ImageRollout
