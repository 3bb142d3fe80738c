import Mathlib.Data.List.Forall2
import ImageRollout.Schema.Form

/-! What checks come to. Each way of putting checks together has a rule: what the parts tell of the values
    that they accept, the whole tells of its own, and the issues of the whole are those of its parts. -/

namespace ImageRollout.Checked

/-! ### Accepted values -/

/-- Whatever the check accepts is as `P` says. -/
def Accepts {α : Type} (a : Checked α) (P : α → Prop) : Prop :=
  ∀ x, a = .accepted x → P x

namespace Accepts

variable {α β : Type} {P : β → Prop}

theorem accepted {x : β} (h : P x) : Accepts (.accepted x) P := by
  rintro _ hb
  cases hb
  exact h

theorem refuse (cause : Cause) : Accepts (Checked.refuse cause) P := by
  rintro _ hb
  cases hb

theorem map {f : α → β} (h : ∀ x, P (f x)) (a : Checked α) : Accepts (f <$> a) P := by
  rintro _ hb
  cases a with
  | accepted x =>
    cases hb
    exact h x
  | refused _ => cases hb

theorem map_of {f : α → β} {a : Checked α} {Q : α → Prop} (ha : Accepts a Q) (h : ∀ x, Q x → P (f x)) :
    Accepts (f <$> a) P := by
  rintro _ hb
  cases a with
  | accepted x =>
    cases hb
    exact h x (ha x rfl)
  | refused _ => cases hb

theorem seq {f : Checked (α → β)} {a : Checked α} {Q : α → Prop} (ha : Accepts a Q)
    (hf : Accepts f fun g => ∀ x, Q x → P (g x)) : Accepts (f <*> a) P := by
  rintro _ hb
  cases f with
  | refused _ => cases a <;> cases hb
  | accepted g =>
    cases a with
    | refused _ => cases hb
    | accepted x =>
      cases hb
      exact hf g rfl x (ha x rfl)

theorem seq_any {f : Checked (α → β)} (hf : Accepts f fun g => ∀ x, P (g x)) (a : Checked α) : Accepts (f <*> a) P :=
  seq (Q := fun _ => True) (fun _ _ => trivial) fun g hg x _ => hf g hg x

theorem andThen {f : α → Checked β} (hf : ∀ x, Accepts (f x) P) (a : Checked α) : Accepts (a.andThen f) P := by
  rintro _ hb
  cases a with
  | accepted x => exact hf x _ hb
  | refused _ => cases hb

theorem andThen_of {f : α → Checked β} {a : Checked α} {Q : α → Prop} (ha : Accepts a Q)
    (hf : ∀ x, Q x → Accepts (f x) P) : Accepts (a.andThen f) P := by
  rintro _ hb
  cases a with
  | accepted x => exact hf x (ha x rfl) _ hb
  | refused _ => cases hb

theorem under {a : Checked β} (h : Accepts a P) (step : Step) : Accepts (a.under step) P := by
  rintro _ hb
  cases a with
  | accepted _ => exact h _ hb
  | refused _ => cases hb

theorem object {check : List (String × Json) → Checked β} (h : ∀ members, Accepts (check members) P) (form : String)
    (j : Json) : Accepts (Form.object form check j) P := by
  cases j with
  | obj members => exact h members
  | null | bool | int | real | str | arr => exact refuse _

theorem required_of {members : List (String × Json)} {name : String} {check : Json → Checked β}
    (hcheck : ∀ j, Json.member? name members = some j → Accepts (check j) P) :
    Accepts (Form.required members name check) P := by
  refine under ?_ _
  cases h : Json.member? name members with
  | some j => exact hcheck j h
  | none => exact refuse _

theorem required {members : List (String × Json)} {name : String} {check : Json → Checked β}
    (hcheck : ∀ j, Accepts (check j) P) : Accepts (Form.required members name check) P :=
  required_of fun j _ => hcheck j

theorem defaulted {members : List (String × Json)} {name : String} {default : β} {check : Json → Checked β}
    (hdefault : Json.member? name members = none → P default)
    (hcheck : ∀ j, Json.member? name members = some j → Accepts (check j) P) :
    Accepts (Form.defaulted members name default check) P := by
  refine under ?_ _
  cases h : Json.member? name members with
  | some j => exact hcheck j h
  | none => exact accepted (hdefault h)

end Accepts

/-- The values of a list that is accepted are those of its items, in their order. -/
theorem accepts_items {α : Type} (check : Json → Checked α) (index : Nat) (js : List Json) :
    (items check index js).Accepts fun as => List.Forall₂ (fun j a => check j = .accepted a) js as := by
  induction js generalizing index with
  | nil => exact .accepted .nil
  | cons j rest ih =>
    have hfirst : ((check j).under (.item index)).Accepts fun a => check j = .accepted a := .under (fun _ h => h) _
    refine Accepts.seq (ih (index + 1)) ?_
    rintro g hg as has
    cases hj : check j with
    | refused issues => simp [hj, under, map] at hg
    | accepted a =>
      simp only [hj, under, map] at hg
      cases hg
      exact .cons hj has

/-! ### Issues -/

section

variable {α β : Type}

/-- The issues that were found: none with a value that was accepted. -/
def issues : Checked α → List Issue
  | .accepted _ => []
  | .refused issues => issues

@[simp] theorem issues_map (f : α → β) (a : Checked α) : (f <$> a).issues = a.issues := by
  cases a <;> rfl

@[simp] theorem issues_seq (f : Checked (α → β)) (a : Checked α) : (f <*> a).issues = f.issues ++ a.issues := by
  cases f <;> cases a <;> simp [Seq.seq, both, issues]

theorem issues_under (step : Step) (a : Checked α) :
    (a.under step).issues = a.issues.map fun issue => { issue with path := step :: issue.path } := by
  cases a <;> rfl

/-- The issues that lie at a step into the document, or further down from there. -/
def issuesAt (step : Step) (a : Checked α) : List Issue :=
  a.issues.filter fun issue => issue.path.head? = some step

@[simp] theorem issuesAt_map (step : Step) (f : α → β) (a : Checked α) : (f <$> a).issuesAt step = a.issuesAt step := by
  simp [issuesAt]

@[simp] theorem issuesAt_seq (step : Step) (f : Checked (α → β)) (a : Checked α) :
    (f <*> a).issuesAt step = f.issuesAt step ++ a.issuesAt step := by
  simp [issuesAt]

@[simp] theorem issuesAt_under_self (step : Step) (a : Checked α) : (a.under step).issuesAt step = (a.under step).issues := by
  simp [issuesAt, issues_under]

theorem issuesAt_under_of_ne {step other : Step} (h : other ≠ step) (a : Checked α) : (a.under other).issuesAt step = [] := by
  simp [issuesAt, issues_under, h]

end

end ImageRollout.Checked
