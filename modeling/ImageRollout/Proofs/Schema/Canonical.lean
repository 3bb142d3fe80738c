import ImageRollout.Proofs.Schema.Checked
import ImageRollout.Proofs.Schema.Plan
import ImageRollout.Proofs.Uuid
import ImageRollout.Schema.Request

/-! Canonical documents. A value that a form accepted may have been given in many ways: as numerals, as words
    in any case, as one text of an identifier or another, or not at all. Written as a document with all its
    fields it has one, and the form accepts this as the same value. -/

namespace ImageRollout

/-! ### Single values -/

namespace Form

variable {α : Type}

@[simp] theorem boolean_bool (b : Bool) : boolean (.bool b) = .accepted b := rfl

@[simp] theorem text_str (s : String) : text (.str s) = .accepted s := rfl

@[simp] theorem selection_name (s : Selection) : selection (.str s.name) = .accepted s := by
  cases s <;> rfl

@[simp] theorem shortText_val (s : ShortText) : shortText (.str s.val) = .accepted s := by
  obtain ⟨s, h⟩ := s
  simp [shortText, text, Checked.andThen, h]

@[simp] theorem planId_text (u : Uuid) : planId (.str u.text) = .accepted (.given u) := by
  simp [planId, Uuid.ofText?_text]

theorem optional_of_check {check : Json → Checked α} {write : α → String} (h : ∀ a, check (.str (write a)) = .accepted a)
    (a : Option α) : optional check (Json.ofText? (a.map write)) = .accepted a := by
  cases a with
  | none => rfl
  | some a => simp [optional, Json.ofText?, h, Checked.map]

theorem items_of_check {check : Json → Checked α} {write : α → Json} {as : List α}
    (h : ∀ a ∈ as, check (write a) = .accepted a) (index : Nat) : Checked.items check index (as.map write) = .accepted as := by
  induction as generalizing index with
  | nil => rfl
  | cons a rest ih =>
    rw [List.map_cons, Checked.items, h a List.mem_cons_self, ih fun b hb => h b (List.mem_cons_of_mem _ hb)]
    rfl

/-- A list whose items are read as they were written is read as it was. -/
theorem list_of_check {check : Json → Checked α} {write : α → Json} {as : List α}
    (h : ∀ a ∈ as, check (write a) = .accepted a) : list check (.arr (as.map write)) = .accepted as :=
  items_of_check h 0

theorem someList_of_check {check : Json → Checked α} {write : α → Json} {as : List α}
    (h : ∀ a ∈ as, check (write a) = .accepted a) (hne : as ≠ []) : someList check (.arr (as.map write)) = .accepted as := by
  unfold someList
  rw [list_of_check h]
  exact if_neg fun hempty => hne (List.isEmpty_iff.mp hempty)

theorem accepts_someList (check : Json → Checked α) (j : Json) : (someList check j).Accepts fun as => as ≠ [] := by
  refine .andThen (fun as => ?_) _
  split
  · exact .refuse _
  · rename_i hempty
    exact .accepted fun hnil => hempty (List.isEmpty_iff.mpr hnil)

/-- An identity that comes from a document is one that was given, not the number of a store's own. -/
theorem accepts_planId (j : Json) : (optional planId j).Accepts fun id => ∃ u : Option Uuid, id = u.map .given := by
  cases j with
  | null => exact .accepted ⟨none, rfl⟩
  | str s =>
    unfold optional planId
    dsimp only
    cases Uuid.ofText? s with
    | none => exact .refuse _
    | some u => exact .accepted ⟨some u, rfl⟩
  | bool _ | int _ | real _ | arr _ | obj _ => exact .refuse _

end Form

/-! ### Whole documents -/

theorem EntryDraft.ofJson_toJson (d : EntryDraft) : EntryDraft.ofJson d.toJson = .accepted d := by
  unfold EntryDraft.toJson EntryDraft.ofJson Form.object
  dsimp only
  rw [Form.required_of_member rfl (Form.label_val d.imageVersion), Form.required_of_member rfl (Form.percentage_val d.share),
    Form.defaulted_of_member rfl (Form.stability_name d.stability),
    Form.defaulted_of_member rfl (Form.optional_text_ofText? d.createdBy),
    Form.defaulted_of_member rfl (Form.optional_text_ofText? d.modifiedBy)]
  rfl

theorem PlanDraft.ofJson_toJson (d : PlanDraft) : PlanDraft.ofJson d.toJson = .accepted d := by
  have hentries : Form.list EntryDraft.ofJson (.arr (d.entries.map EntryDraft.toJson)) = .accepted d.entries :=
    Form.list_of_check fun e _ => e.ofJson_toJson
  unfold PlanDraft.toJson PlanDraft.ofJson Form.object
  dsimp only
  rw [Form.required_of_member rfl (Form.label_val d.imageType),
    Form.defaulted_of_member rfl (Form.optional_of_check Form.shortText_val d.name),
    Form.defaulted_of_member rfl (Form.optional_text_ofText? d.description),
    Form.defaulted_of_member rfl (Form.boolean_bool d.activate), Form.defaulted_of_member rfl hentries,
    Form.defaulted_of_member rfl (Form.optional_text_ofText? d.createdBy),
    Form.defaulted_of_member rfl (Form.optional_text_ofText? d.modifiedBy)]
  rfl

theorem ActiveVersion.ofJson_toJson (v : ActiveVersion) : ActiveVersion.ofJson v.toJson = .accepted v := by
  unfold ActiveVersion.toJson ActiveVersion.ofJson Form.object
  dsimp only
  rw [Form.required_of_member rfl (Form.text_str v.imageType), Form.required_of_member rfl (Form.text_str v.version)]
  rfl

/-- A plan is read back if its identity was given to it. -/
theorem Plan.ofJson_toJson {p : Plan} {u : Option Uuid} (h : p.id = u.map .given) (fresh : Nat → String) :
    Plan.ofJson (p.toJson fresh) = .accepted p := by
  have hentries : Form.list Entry.ofJson (.arr (p.entries.map Entry.toJson)) = .accepted p.entries :=
    Form.list_of_check fun e _ => e.ofJson_toJson
  have hid : Form.optional Form.planId (Json.ofText? (p.id.map (PlanId.text fresh))) = .accepted p.id := by
    rw [h]
    cases u with
    | none => rfl
    | some u => simp [Form.optional, Json.ofText?, PlanId.text, Checked.map]
  unfold Plan.toJson Plan.ofJson Form.object
  dsimp only
  rw [Form.required_of_member rfl (Form.text_str p.imageType), Form.defaulted_of_member rfl (Form.boolean_bool p.active),
    Form.defaulted_of_member rfl hentries, Form.defaulted_of_member rfl hid,
    Form.defaulted_of_member rfl (Form.optional_text_ofText? p.name)]
  rfl

/-- A request is read back if it names an image type, and has a key where it needs one. -/
theorem ResolutionRequest.ofJson_toJson {r : ResolutionRequest} (hne : r.imageTypes ≠ [])
    (hkey : r.selection = .deterministic → hasKey r.key) : ResolutionRequest.ofJson r.toJson = .accepted r := by
  have htypes : Form.someList Form.text (Json.ofTexts r.imageTypes) = .accepted r.imageTypes :=
    Form.someList_of_check (fun s _ => Form.text_str s) hne
  unfold ResolutionRequest.toJson ResolutionRequest.ofJson Form.object
  dsimp only
  rw [Form.required_of_member rfl htypes, Form.defaulted_of_member rfl (Form.selection_name r.selection),
    Form.defaulted_of_member rfl (Form.optional_text_ofText? r.key)]
  refine if_neg ?_
  rintro ⟨hdeterministic, hnone⟩
  exact absurd (hkey hdeterministic) (Bool.eq_false_iff.mp hnone)

theorem Plan.accepts_id (j : Json) : (Plan.ofJson j).Accepts fun p => ∃ u : Option Uuid, p.id = u.map .given := by
  refine .object (fun members => ?_) _ j
  have hid : (Form.defaulted members "id" none (Form.optional Form.planId)).Accepts fun id =>
      ∃ u : Option Uuid, id = u.map .given :=
    .defaulted (fun _ => ⟨none, rfl⟩) fun j _ => Form.accepts_planId j
  refine .seq_any (.seq hid ?_) _
  refine .seq_any (.seq_any (.map ?_ _) _) _
  exact fun _ _ _ id hid _ => hid

/-- A request is accepted only if it names an image type. -/
theorem ResolutionRequest.accepts_imageTypes (j : Json) : (ofJson j).Accepts fun request => request.imageTypes ≠ [] := by
  refine .object (fun members => .andThen_of (Q := fun request => request.imageTypes ≠ []) ?_ fun request hrequest => ?_) _ j
  · have htypes : (Form.required members "image_types" (Form.someList Form.text)).Accepts fun names => names ≠ [] :=
      .required fun j => Form.accepts_someList _ j
    exact .seq_any (.seq_any (.map_of htypes fun _ hnames _ _ => hnames) _) _
  · split
    · exact .refuse _
    · exact .accepted hrequest

/-- A deterministic selection is accepted only with a key. -/
theorem ResolutionRequest.accepts_key (j : Json) :
    (ofJson j).Accepts fun request => request.selection = .deterministic → hasKey request.key := by
  refine .object (fun members => .andThen (fun request => ?_) _) _ j
  split
  · exact .refuse _
  · rename_i hkey
    exact .accepted fun hdeterministic => Bool.of_not_eq_false fun hnone => hkey ⟨hdeterministic, hnone⟩

/-! ### Documents that are written again -/

/-- The names of the members of a document. -/
def Json.names : Json → List String
  | .obj members => members.map Prod.fst
  | _ => []

/-- What a form accepts is written with all the fields of the form, and the form accepts that as the same value. -/
structure Stable {α : Type} (fields : List String) (check : Json → Checked α) (write : α → Json) : Prop where
  filled : ∀ a, (write a).names = fields
  again : ∀ j a, check j = .accepted a → check (write a) = .accepted a

/-- Every form is stable: an accepted document may be written again with all its fields, and this changes nothing
    about what is read. -/
theorem accepted_documents_are_stable :
    Stable ["version", "rampup_percentage", "stability_tag", "created_by", "modified_by"] Entry.ofJson Entry.toJson ∧
    (∀ fresh, Stable ["image_type", "active", "entries", "id", "name"] Plan.ofJson (Plan.toJson fresh)) ∧
    Stable ["image_version", "rampup_percentage", "stability_tag", "created_by", "modified_by"] EntryDraft.ofJson
      EntryDraft.toJson ∧
    Stable ["image_type", "plan_name", "description", "activate_plan", "rampups", "created_by", "modified_by"]
      PlanDraft.ofJson PlanDraft.toJson ∧
    Stable ["image_types", "strategy", "key"] ResolutionRequest.ofJson ResolutionRequest.toJson ∧
    Stable ["image_type", "version"] ActiveVersion.ofJson ActiveVersion.toJson := by
  refine ⟨⟨fun _ => rfl, fun _ e _ => e.ofJson_toJson⟩, fun fresh => ⟨fun _ => rfl, fun j p hp => ?_⟩,
    ⟨fun _ => rfl, fun _ d _ => d.ofJson_toJson⟩, ⟨fun _ => rfl, fun _ d _ => d.ofJson_toJson⟩,
    ⟨fun _ => rfl, fun j r hr => ?_⟩, ⟨fun _ => rfl, fun _ v _ => v.ofJson_toJson⟩⟩
  · obtain ⟨u, hu⟩ := Plan.accepts_id j p hp
    exact Plan.ofJson_toJson hu fresh
  · exact ResolutionRequest.ofJson_toJson (ResolutionRequest.accepts_imageTypes j r hr) (ResolutionRequest.accepts_key j r hr)

/-- A plan whose document leaves out what it can, and has its identity in capitals and in braces. -/
def looseDocument : Json :=
  .obj [("image_type", .str "spark"), ("active", .int 1),
    ("id", .str "\x7bF81D4FAE-7DEC-11D0-A765-00A0C91E6BF6\x7d"),
    ("entries", .arr [.obj [("version", .str "1.0"), ("rampup_percentage", .bool true), ("stability_tag", .str "\tStable")]])]

theorem accepted_documents_are_stable_sample :
    ∃ p, Plan.ofJson looseDocument = .accepted p ∧
      p.toJson (fun _ => "") = .obj [("image_type", .str "spark"), ("active", .bool true),
        ("entries", .arr [.obj [("version", .str "1.0"), ("rampup_percentage", .int 1), ("stability_tag", .str "stable"),
          ("created_by", .null), ("modified_by", .null)]]),
        ("id", .str "f81d4fae-7dec-11d0-a765-00a0c91e6bf6"), ("name", .null)] ∧
      Plan.ofJson (p.toJson fun _ => "") = .accepted p := by
  obtain ⟨-, hplan, -⟩ := accepted_documents_are_stable
  have haccepted : Plan.ofJson looseDocument = .accepted
      { imageType := "spark", id := some (.given 0xf81d4fae7dec11d0a76500a0c91e6bf6),
        entries := [{ version := ⟨"1.0", by decide⟩, share := ⟨1, by decide⟩, stability := .stable }] } := rfl
  exact ⟨_, haccepted, rfl, (hplan _).again _ _ haccepted⟩

end ImageRollout
