import Mathlib.Data.List.Forall2
import ImageRollout.Proofs.Names
import ImageRollout.Proofs.Schema.Checked
import ImageRollout.Proofs.Schema.Plan

/-! Entries as authors write them, and entries as resolution reads them. The two forms have the same checks for
    the same members, of which the version alone has another name in each. So a document passes both forms or
    neither, with the same values or the same issues, and a draft that was accepted always makes an entry. -/

namespace ImageRollout

/-! ### Documents with other names -/

/-- The step to the same value in a document whose members were renamed. -/
def Step.renamed (rename : String → String) : Step → Step
  | .field name => .field (rename name)
  | .item index => .item index

/-- The same issue in a document whose members were renamed. What lies further down keeps its names. -/
def Issue.renamed (rename : String → String) (issue : Issue) : Issue where
  cause := issue.cause
  path :=
    match issue.path with
    | [] => []
    | step :: below => step.renamed rename :: below

namespace Checked

variable {α β γ : Type} (rename : String → String)

/-- The same verdict on a document whose members were renamed. -/
def renamed : Checked α → Checked α
  | .accepted a => .accepted a
  | .refused issues => .refused (issues.map (Issue.renamed rename))

theorem renamed_map (f : α → β) (a : Checked α) : (f <$> a).renamed rename = f <$> a.renamed rename := by
  cases a <;> rfl

theorem renamed_seq (f : Checked (α → β)) (a : Checked α) :
    (f <*> a).renamed rename = f.renamed rename <*> a.renamed rename := by
  cases f <;> cases a <;> simp [Seq.seq, both, renamed]

theorem renamed_under (step : Step) (a : Checked α) :
    (a.under step).renamed rename = a.under (step.renamed rename) := by
  cases a with
  | accepted a => rfl
  | refused issues => simp [under, renamed, Issue.renamed]

theorem map_map (g : β → γ) (f : α → β) (a : Checked α) : g <$> f <$> a = (fun x => g (f x)) <$> a := by
  cases a <;> rfl

theorem map_seq (g : β → γ) (f : Checked (α → β)) (a : Checked α) :
    g <$> (f <*> a) = (fun h x => g (h x)) <$> f <*> a := by
  cases f <;> cases a <;> rfl

end Checked

/-- The members of a document under other names. -/
def Json.renamed (rename : String → String) (members : List (String × Json)) : List (String × Json) :=
  members.map fun (name, j) => (rename name, j)

section

variable {α : Type} {rename : String → String} {members : List (String × Json)} {name : String}

/-- A member is found under its other name, unless a member with that name gets in its way. -/
theorem Json.member?_renamed (h : ∀ m ∈ members, rename m.1 = rename name → m.1 = name) :
    member? (rename name) (renamed rename members) = member? name members := by
  unfold member? renamed
  rw [← List.map_reverse]
  exact Names.lookup_map_key fun m hm => h m (List.mem_reverse.mp hm)

theorem Form.required_renamed (h : ∀ m ∈ members, rename m.1 = rename name → m.1 = name) (check : Json → Checked α) :
    required (Json.renamed rename members) (rename name) check = (required members name check).renamed rename := by
  unfold required
  rw [Json.member?_renamed h, Checked.renamed_under]
  rfl

theorem Form.defaulted_renamed (h : ∀ m ∈ members, rename m.1 = rename name → m.1 = name) (default : α)
    (check : Json → Checked α) :
    defaulted (Json.renamed rename members) (rename name) default check =
      (defaulted members name default check).renamed rename := by
  unfold defaulted
  rw [Json.member?_renamed h, Checked.renamed_under]
  rfl

end

/-! ### The two forms of an entry -/

/-- The name that a member of a draft has in an entry. -/
def entryName (name : String) : String :=
  if name = "image_version" then "version" else name

theorem entryName_of_ne {name : String} (h : name ≠ "image_version") : entryName name = name :=
  if_neg h

/-- Where nothing is called as the version of an entry is, no two names of a draft become the same. -/
theorem eq_of_entryName_eq {name other : String} (hname : name ≠ "version") (hother : other ≠ "version")
    (h : entryName name = entryName other) : name = other := by
  unfold entryName at h
  split at h <;> split at h <;> simp_all

/-- A document of a draft, as a document of an entry, comes to the entry of the draft or to the same issues. -/
theorem Entry.ofJson_renamed {members : List (String × Json)} (h : ∀ m ∈ members, m.1 ≠ "version") :
    Entry.ofJson (.obj (Json.renamed entryName members)) =
      EntryDraft.toEntry <$> (EntryDraft.ofJson (.obj members)).renamed entryName := by
  have hnames : ∀ name, name ≠ "version" → ∀ m ∈ members, entryName m.1 = entryName name → m.1 = name :=
    fun name hname m hm => eq_of_entryName_eq (h m hm) hname
  have hversion := Form.required_renamed (hnames "image_version" (by decide)) Form.label
  have hshare := Form.required_renamed (hnames "rampup_percentage" (by decide)) Form.percentage
  have hstability := Form.defaulted_renamed (hnames "stability_tag" (by decide)) .experimental Form.stability
  have hcreated := Form.defaulted_renamed (hnames "created_by" (by decide)) none (Form.optional Form.text)
  have hmodified := Form.defaulted_renamed (hnames "modified_by" (by decide)) none (Form.optional Form.text)
  rw [entryName_of_ne (by decide)] at hshare hstability hcreated hmodified
  unfold Entry.ofJson EntryDraft.ofJson Form.object
  dsimp only
  rw [Checked.renamed_seq, Checked.renamed_seq, Checked.renamed_seq, Checked.renamed_seq, Checked.renamed_map,
    ← hshare, ← hstability, ← hcreated, ← hmodified, ← hversion]
  simp only [Checked.map_seq, Checked.map_map]
  rfl

theorem EntryDraft.conversion_eq (d : EntryDraft) : d.conversion = .accepted d.toEntry :=
  Entry.ofJson_toJson d.toEntry

theorem PlanDraft.conversion_eq (d : PlanDraft) : d.conversion = .accepted d.toEntries := by
  unfold conversion toEntries
  induction d.entries with
  | nil => rfl
  | cons d rest ih =>
    unfold conversions
    rw [d.conversion_eq, ih]
    rfl

/-- How the two forms may come out: with a draft and the entry that is made of it, or with the same issues in
    the same order, at the same members. -/
inductive SameVerdict : Checked EntryDraft → Checked Entry → Prop where
  | accepted {d : EntryDraft} {e : Entry} (hmade : d.conversion = .accepted e) (hentry : d.toEntry = e) :
      SameVerdict (.accepted d) (.accepted e)
  | refused (issues : List Issue) : SameVerdict (.refused issues) (.refused (issues.map (Issue.renamed entryName)))

theorem sameVerdict_renamed (a : Checked EntryDraft) : SameVerdict a (EntryDraft.toEntry <$> a.renamed entryName) := by
  cases a with
  | accepted d => exact .accepted d.conversion_eq rfl
  | refused issues => exact .refused issues

/-! ### The entries of a plan -/

/-- The documents of entries that a document of a plan lists. -/
def PlanDraft.listed : Json → List Json
  | .obj members =>
    match Json.member? "rampups" members with
    | some (.arr items) => items
    | _ => []
  | _ => []

/-- An accepted plan has one draft for each document that it lists, in their order. -/
theorem PlanDraft.accepts_listed (j : Json) :
    (ofJson j).Accepts fun draft =>
      List.Forall₂ (fun item d => EntryDraft.ofJson item = .accepted d) (listed j) draft.entries := by
  cases j with
  | obj members =>
    have hentries : (Form.defaulted members "rampups" [] (Form.list EntryDraft.ofJson)).Accepts fun drafts =>
        List.Forall₂ (fun item d => EntryDraft.ofJson item = .accepted d) (listed (.obj members)) drafts := by
      refine .defaulted (fun hnone => ?_) fun j hj => ?_
      · simp [listed, hnone]
      · cases j with
        | arr items =>
          simp only [listed, hj]
          exact Checked.accepts_items _ 0 items
        | null | bool _ | int _ | real _ | str _ | obj _ => exact .refuse _
    refine .seq_any (.seq_any (.seq hentries ?_) _) _
    refine .seq_any (.seq_any (.seq_any (.map ?_ _) _) _) _
    exact fun _ _ _ _ _ hlisted _ _ => hlisted
  | null | bool _ | int _ | real _ | str _ | arr _ => exact .refuse _

/-- The two forms of an entry do not drift apart. A document without a member of the name that the version has in
    an entry is accepted by both or by neither: if so, the draft makes the entry; if not, the issues are the same,
    one by one. So every plan that is accepted has its entries made, one for each document that it lists. -/
theorem draft_form_matches_entry_form :
    (∀ members : List (String × Json), (∀ m ∈ members, m.1 ≠ "version") →
      SameVerdict (EntryDraft.ofJson (.obj members)) (Entry.ofJson (.obj (Json.renamed entryName members)))) ∧
    ∀ (j : Json) (draft : PlanDraft), PlanDraft.ofJson j = .accepted draft →
      ∃ entries, draft.conversion = .accepted entries ∧ draft.toEntries = entries ∧
        List.Forall₂ (fun item e => ∃ d, EntryDraft.ofJson item = .accepted d ∧ d.conversion = .accepted e)
          (PlanDraft.listed j) entries := by
  refine ⟨fun members h => ?_, fun j draft hdraft => ⟨draft.toEntries, draft.conversion_eq, rfl, ?_⟩⟩
  · rw [Entry.ofJson_renamed h]
    exact sameVerdict_renamed _
  · have hlisted := PlanDraft.accepts_listed j draft hdraft
    refine List.forall₂_map_right_iff.mpr (hlisted.imp fun item d hd => ?_)
    exact ⟨d, hd, d.conversion_eq⟩

/-- An entry with two issues, one of them at its version. -/
def faultyMembers : List (String × Json) :=
  [("image_version", .str ""), ("stability_tag", .str " STABLE "), ("rampup_percentage", .str "101")]

/-- A plan with one entry. -/
def planDocument : Json :=
  .obj [("image_type", .str "spark"),
    ("rampups", .arr [.obj [("image_version", .str "1.0"), ("rampup_percentage", .str "100.0")]])]

theorem draft_form_matches_entry_form_sample :
    Entry.ofJson (.obj (Json.renamed entryName faultyMembers)) =
        .refused [⟨.tooShort, [.field "version"]⟩, ⟨.above 100, [.field "rampup_percentage"]⟩] ∧
      ∃ draft, PlanDraft.ofJson planDocument = .accepted draft ∧ ∃ entries,
        draft.conversion = .accepted entries ∧ entries.length = 1 := by
  obtain ⟨hforms, hplans⟩ := draft_form_matches_entry_form
  constructor
  · have hdraft : EntryDraft.ofJson (.obj faultyMembers) =
        .refused [⟨.tooShort, [.field "image_version"]⟩, ⟨.above 100, [.field "rampup_percentage"]⟩] := rfl
    have hverdict := hforms faultyMembers (by decide)
    rw [hdraft] at hverdict
    generalize Entry.ofJson (.obj (Json.renamed entryName faultyMembers)) = verdict at hverdict ⊢
    cases hverdict
    rfl
  · have hdraft : PlanDraft.ofJson planDocument = .accepted
        { imageType := ⟨"spark", by decide⟩, entries := [{ imageVersion := ⟨"1.0", by decide⟩, share := ⟨100, by decide⟩ }] } :=
      rfl
    obtain ⟨entries, hmade, -, hone⟩ := hplans planDocument _ hdraft
    exact ⟨_, hdraft, entries, hmade, hone.length_eq.symm⟩

end ImageRollout
