import ImageRollout.Schema.Plan

/-! Entries as documents. Each value passes the check of the form it was written in, so an entry that is
    written as a document is read back as it was. -/

namespace ImageRollout

namespace Form

@[simp] theorem label_val (l : Label) : label (.str l.val) = .accepted l := by
  obtain ⟨s, hlow, hhigh⟩ := l
  simp [label, text, Checked.andThen, hlow, hhigh]

@[simp] theorem percentage_val (p : Percentage) : percentage (.int p.val) = .accepted p := by
  obtain ⟨n, hn⟩ := p
  have hnonneg : ¬(n : Int) < 0 := by omega
  simp [percentage, integer, Checked.andThen, hn, hnonneg]

@[simp] theorem stability_name (s : Stability) : Form.stability (.str s.name) = .accepted s := by
  cases s <;> rfl

@[simp] theorem optional_text_ofText? (s : Option String) : optional text (Json.ofText? s) = .accepted s := by
  cases s <;> rfl

section

variable {α : Type} {members : List (String × Json)} {name : String} {j : Json} {check : Json → Checked α} {a : α}

theorem required_of_member (h : Json.member? name members = some j) (hcheck : check j = .accepted a) :
    required members name check = .accepted a := by
  unfold required
  rw [h]
  dsimp only
  rw [hcheck]
  rfl

theorem defaulted_of_member (h : Json.member? name members = some j) (hcheck : check j = .accepted a) (default : α) :
    defaulted members name default check = .accepted a := by
  unfold defaulted
  rw [h]
  dsimp only
  rw [hcheck]
  rfl

end

end Form

/-- An entry is read back as it was written. -/
theorem Entry.ofJson_toJson (e : Entry) : Entry.ofJson e.toJson = .accepted e := by
  unfold Entry.toJson Entry.ofJson Form.object
  dsimp only
  rw [Form.required_of_member rfl (Form.label_val e.version), Form.required_of_member rfl (Form.percentage_val e.share),
    Form.defaulted_of_member rfl (Form.stability_name e.stability),
    Form.defaulted_of_member rfl (Form.optional_text_ofText? e.createdBy),
    Form.defaulted_of_member rfl (Form.optional_text_ofText? e.modifiedBy)]
  rfl

end ImageRollout
