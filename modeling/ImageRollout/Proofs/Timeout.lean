import ImageRollout.Proofs.Number.Value
import ImageRollout.Proofs.Settings

/-! The time that is configured for store calls. What is given for it has to be a number or stand for one, and a
    number that is at most zero is refused at the field of the time. So an accepted time is above zero, with one
    exception: what says that it is not a number compares with zero in no way, and is accepted as it is. -/

namespace ImageRollout

/-! ### What is read as a number -/

/-- A document that says that it is not a number: the value for that, or a text that is read as it. -/
def Json.SaysNan : Json → Prop
  | .real x => x = .nan
  | .str s => Numeral.ReadsAsNan s.toList
  | _ => False

theorem Form.real_eq_nan_iff {j : Json} : real j = .accepted .nan ↔ j.SaysNan := by
  cases j with
  | bool b => simp [real, Json.SaysNan, Binary64.ofInt_ne_nan]
  | int n =>
    unfold real
    dsimp only
    split <;> simp [Json.SaysNan, Checked.refuse, Binary64.ofInt_ne_nan]
  | real x => simp [real, Json.SaysNan]
  | str s =>
    unfold real Json.SaysNan
    dsimp only
    rw [← Numeral.real?_eq_nan_iff]
    cases Numeral.real? s.toList <;> simp [Checked.refuse]
  | null | arr _ | obj _ => simp [real, Json.SaysNan, Checked.refuse]

/-- What is not read as a number has one issue. -/
theorem Form.exists_cause_of_real_refused {j : Json} {issues : List Issue} (h : real j = .refused issues) :
    ∃ cause, issues = [⟨cause, []⟩] := by
  have hrefuse : ∀ cause, (Checked.refuse cause : Checked Binary64) = .refused issues → ∃ cause, issues = [⟨cause, []⟩] := by
    rintro cause hcause
    cases hcause
    exact ⟨cause, rfl⟩
  cases j with
  | bool b => cases h
  | int n =>
    unfold real at h
    dsimp only at h
    split at h
    · cases h
    · exact hrefuse _ h
  | real x => cases h
  | str s =>
    unfold real at h
    dsimp only at h
    split at h
    · cases h
    · exact hrefuse _ h
  | null | arr _ | obj _ => exact hrefuse _ h

/-! ### The field of the time -/

namespace Settings

def timeoutField : Step :=
  .field "STORE_TIMEOUT_SECONDS"

/-- The cause for which a number is refused that store calls cannot have as their time. -/
def notPositive : Cause :=
  .unfit "STORE_TIMEOUT_SECONDS must be positive"

theorem timeout_of_atMostZero {j : Json} {x : Binary64} (h : Form.real j = .accepted x) (hx : x.IsAtMostZero) :
    timeout j = Checked.refuse notPositive := by
  unfold timeout
  rw [h]
  exact if_pos (Binary64.atMostZero_iff.mpr hx)

theorem timeout_of_not_atMostZero {j : Json} {x : Binary64} (h : Form.real j = .accepted x) (hx : ¬x.IsAtMostZero) :
    timeout j = .accepted (.real x) := by
  unfold timeout
  rw [h]
  exact if_neg fun hzero => hx (Binary64.atMostZero_iff.mp hzero)

theorem timeout_of_refused {j : Json} {issues : List Issue} (h : Form.real j = .refused issues) :
    timeout j = .refused issues := by
  unfold timeout
  rw [h]
  rfl

theorem exists_real_of_timeout {j : Json} {time : Seconds} (h : timeout j = .accepted time) :
    ∃ x, Form.real j = .accepted x ∧ ¬x.IsAtMostZero ∧ time = .real x := by
  cases hreal : Form.real j with
  | refused issues =>
    rw [timeout_of_refused hreal] at h
    cases h
  | accepted x =>
    by_cases hx : x.IsAtMostZero
    · rw [timeout_of_atMostZero hreal hx] at h
      cases h
    · rw [timeout_of_not_atMostZero hreal hx] at h
      cases h
      exact ⟨x, rfl, hx, rfl⟩

variable (arguments : List (String × Json)) (environment : List (String × String))

/-- The check of the time alone. -/
def timeoutCheck : Checked Seconds :=
  Form.defaulted (environment.map (fun (name, value) => (name, Json.str value)) ++ arguments)
    "STORE_TIMEOUT_SECONDS" (storeTimeout {}) timeout

theorem timeoutCheck_eq :
    timeoutCheck arguments environment =
      match given? arguments environment "STORE_TIMEOUT_SECONDS" with
      | some j => (timeout j).under timeoutField
      | none => .accepted (storeTimeout {}) := by
  unfold timeoutCheck Form.defaulted
  rw [member?_environment_arguments]
  cases given? arguments environment "STORE_TIMEOUT_SECONDS" <;> rfl

/-- Loaded settings have the time that its check accepted. -/
theorem accepts_timeoutCheck :
    (load arguments environment).Accepts fun settings =>
      timeoutCheck arguments environment = .accepted settings.storeTimeout := by
  refine .seq_any (.seq_any (.seq_any (.seq (fun _ htime => htime) ?_) _) _) _
  refine .seq_any (.seq_any (.seq_any (.seq_any (.seq_any (.seq_any (.map ?_ _) _) _) _) _) _) _
  exact fun _ _ _ _ _ _ _ _ htime _ _ _ => htime

/-- The other settings have no say in what is told of the time. -/
theorem issuesAt_load :
    (load arguments environment).issuesAt timeoutField = (timeoutCheck arguments environment).issues := by
  unfold load timeoutField timeoutCheck
  simp [Form.required, Form.defaulted, Checked.issuesAt_under_of_ne]

/-! ### Accepted and refused times -/

/-- What becomes of the time that is given, if one is. -/
structure TimeoutVerdict (given : Option Json) (loaded : Checked Settings) : Prop where
  accepted : ∀ settings, loaded = .accepted settings → ∃ x, settings.storeTimeout = .real x ∧
    (x.IsAboveZero ∨ x = .nan ∧ ∃ j, given = some j ∧ j.SaysNan)
  fit : ∀ j x, given = some j → Form.real j = .accepted x → ¬x.IsAtMostZero → loaded.issuesAt timeoutField = []
  notPositive : ∀ j x, given = some j → Form.real j = .accepted x → x.IsAtMostZero →
    loaded.issuesAt timeoutField = [⟨notPositive, [timeoutField]⟩]
  notNumber : ∀ j issues, given = some j → Form.real j = .refused issues →
    ∃ cause, issues = [⟨cause, []⟩] ∧ loaded.issuesAt timeoutField = [⟨cause, [timeoutField]⟩]
  missing : given = none → loaded.issuesAt timeoutField = []

/-- However the time of store calls is configured, settings that are accepted have a time above zero, unless what
    was given says that it is not a number. A number that is at most zero is refused, and so is what stands for no
    number at all, each with one issue at the field of the time. -/
theorem timeout_is_above_zero_or_nan :
    TimeoutVerdict (given? arguments environment "STORE_TIMEOUT_SECONDS") (load arguments environment) := by
  have hcheck := timeoutCheck_eq arguments environment
  have hissues := issuesAt_load arguments environment
  generalize given? arguments environment "STORE_TIMEOUT_SECONDS" = given at hcheck ⊢
  refine ⟨fun settings hsettings => ?_, fun j x hj hx hfit => ?_, fun j x hj hx hzero => ?_, fun j issues hj hrefused => ?_,
    fun hnone => ?_⟩
  · have htime := accepts_timeoutCheck arguments environment settings hsettings
    rw [hcheck] at htime
    cases given with
    | none =>
      have hdefault : (Binary64.finite false 8444249301319680 (-48)).IsAboveZero := Binary64.isPositive_iff.mp rfl
      exact ⟨_, (Checked.accepted.inj htime).symm, Or.inl hdefault⟩
    | some j =>
      obtain ⟨x, hx, hfit, hreal⟩ : ∃ x, Form.real j = .accepted x ∧ ¬x.IsAtMostZero ∧ settings.storeTimeout = .real x := by
        cases htimeout : timeout j with
        | accepted time =>
          simp only [htimeout] at htime
          cases htime
          exact exists_real_of_timeout htimeout
        | refused issues =>
          simp only [htimeout] at htime
          cases htime
      refine ⟨x, hreal, ?_⟩
      rcases Binary64.isAboveZero_or_eq_nan hfit with habove | rfl
      · exact Or.inl habove
      · exact Or.inr ⟨rfl, j, rfl, Form.real_eq_nan_iff.mp hx⟩
  · subst hj
    simp only [hissues, hcheck, timeout_of_not_atMostZero hx hfit]
    rfl
  · subst hj
    simp only [hissues, hcheck, timeout_of_atMostZero hx hzero]
    rfl
  · subst hj
    obtain ⟨cause, rfl⟩ := Form.exists_cause_of_real_refused hrefused
    refine ⟨cause, rfl, ?_⟩
    simp only [hissues, hcheck, timeout_of_refused hrefused]
    rfl
  · subst hnone
    rw [hissues, hcheck]
    rfl

/-- Infinity is a time, however it is written. The negative zero is none, even where the environment has another. -/
theorem timeout_is_above_zero_or_nan_sample :
    (∃ settings, load [("DATABASE_URL", .str "")] [("STORE_TIMEOUT_SECONDS", " +Infinity ")] = .accepted settings ∧
      ∃ x, settings.storeTimeout = .real x ∧ x.IsAboveZero) ∧
    (load [("DATABASE_URL", .str ""), ("STORE_TIMEOUT_SECONDS", .str "-0.0")] [("STORE_TIMEOUT_SECONDS", "inf")]).issuesAt
      timeoutField = [⟨notPositive, [timeoutField]⟩] := by
  have hinfinity := timeout_is_above_zero_or_nan [("DATABASE_URL", .str "")] [("STORE_TIMEOUT_SECONDS", " +Infinity ")]
  have hzero := timeout_is_above_zero_or_nan [("DATABASE_URL", .str ""), ("STORE_TIMEOUT_SECONDS", .str "-0.0")]
    [("STORE_TIMEOUT_SECONDS", "inf")]
  constructor
  · have hload : load [("DATABASE_URL", .str "")] [("STORE_TIMEOUT_SECONDS", " +Infinity ")] =
        .accepted { storeTimeout := .real (.infinite false) } := rfl
    refine ⟨_, hload, ?_⟩
    obtain ⟨x, hx, habove | ⟨rfl, -⟩⟩ := hinfinity.accepted _ hload
    · exact ⟨x, hx, habove⟩
    · cases hx
  · have hreal : Form.real (.str "-0.0") = .accepted (.finite true 0 (-1074)) := rfl
    exact hzero.notPositive (.str "-0.0") _ rfl hreal (Binary64.atMostZero_iff.mp rfl)

/-- A text that says that it is not a number is accepted as a time, which is not above zero. -/
theorem nan_is_accepted_as_time :
    ∃ settings, load [("DATABASE_URL", .str "")] [("STORE_TIMEOUT_SECONDS", "nan")] = .accepted settings ∧
      ¬∃ x, settings.storeTimeout = .real x ∧ x.IsAboveZero := by
  refine ⟨{ storeTimeout := .real .nan }, rfl, ?_⟩
  rintro ⟨x, hx, habove⟩
  cases hx
  exact Binary64.not_isAboveZero_nan habove

end Settings

end ImageRollout
