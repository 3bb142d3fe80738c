import ImageRollout.Proofs.Authoring
import ImageRollout.Proofs.Schema.Canonical
import ImageRollout.Proofs.Schema.Draft

/-! What a store is handed of a document, and whether its columns have room for it. The texts of a document that
    was accepted fit. The name that a plan gets from its image type, where the document gives it none, does not
    if the image type is all but as long as a column is wide. -/

namespace ImageRollout

open ImageRollout.Action

/-! ### The texts of a document -/

/-- The text that a document has under a name. -/
def Json.textAt? : Json → String → Option String
  | .obj members, name =>
    match member? name members with
    | some (.str s) => some s
    | _ => none
  | _, _ => none

theorem Json.textAt?_of_member {members : List (String × Json)} {name s : String} (h : member? name members = some (.str s)) :
    (Json.obj members).textAt? name = some s := by
  simp only [textAt?, h]

/-- The name that a document gives its plan; an empty one is none. -/
def PlanDraft.givenName (j : Json) : String :=
  (j.textAt? "plan_name").getD ""

namespace Form

theorem accepts_text (j : Json) : (text j).Accepts fun s => j = .str s := by
  cases j with
  | str s => exact .accepted rfl
  | null | bool _ | int _ | real _ | arr _ | obj _ => exact .refuse _

theorem accepts_label (j : Json) : (label j).Accepts fun l => j = .str l.val := by
  refine .andThen_of (accepts_text j) fun s hs => ?_
  split
  · split
    · exact .accepted hs
    · exact .refuse _
  · exact .refuse _

theorem accepts_shortText (j : Json) : (shortText j).Accepts fun s => j = .str s.val := by
  refine .andThen_of (accepts_text j) fun s hs => ?_
  split
  · exact .accepted hs
  · exact .refuse _

theorem accepts_required_label (members : List (String × Json)) (name : String) :
    (required members name label).Accepts fun l => (Json.obj members).textAt? name = some l.val :=
  .required_of fun j hj l hl => Json.textAt?_of_member (accepts_label j l hl ▸ hj)

end Form

theorem EntryDraft.accepts_version (j : Json) :
    (ofJson j).Accepts fun d => j.textAt? "image_version" = some d.imageVersion.val := by
  cases j with
  | obj members =>
    have hversion := Form.accepts_required_label members "image_version"
    exact .seq_any (.seq_any (.seq_any (.seq_any (.map_of hversion fun l hl _ _ _ _ => hl) _) _) _) _
  | null | bool _ | int _ | real _ | str _ | arr _ => exact .refuse _

theorem PlanDraft.accepts_texts (j : Json) :
    (ofJson j).Accepts fun d =>
      j.textAt? "image_type" = some d.imageType.val ∧ givenName j = (d.name.map Subtype.val).getD "" := by
  cases j with
  | obj members =>
    have htype := Form.accepts_required_label members "image_type"
    have hname : (Form.defaulted members "plan_name" none (Form.optional Form.shortText)).Accepts fun name =>
        givenName (.obj members) = (name.map Subtype.val).getD "" := by
      refine .defaulted (fun hnone => ?_) fun j hj => ?_
      · simp [givenName, Json.textAt?, hnone]
      · cases j with
        | null => exact .accepted (by simp [givenName, Json.textAt?, hj])
        | str s =>
          refine .map_of (Form.accepts_shortText (.str s)) fun name hname => ?_
          cases hname
          simp [givenName, Json.textAt?, hj]
        | bool _ | int _ | real _ | arr _ | obj _ => exact fun _ h => by cases h
    refine .seq_any (.seq_any (.seq_any (.seq_any (.seq_any (.seq hname ?_) _) _) _) _) _
    exact .map_of htype fun l hl name hname _ _ _ _ _ => ⟨hl, hname⟩
  | null | bool _ | int _ | real _ | str _ | arr _ => exact .refuse _

/-! ### What a writer is handed -/

section

variable {σ α : Type}

/-- An action on a store beside which plans are noted. It leaves the notes as they are. -/
def Action.besideNotes (a : Action σ α) : Action (List NewPlan × σ) α :=
  Action.onPart Prod.snd (fun s (noted, _) => (noted, s)) a

/-- The writer, which notes each plan that it is handed before it goes about it. -/
def PlanWriter.noting (writer : PlanWriter σ) : PlanWriter (List NewPlan × σ) where
  create plan := do
    Action.change fun (noted, s) => (noted ++ [plan], s)
    Action.besideNotes (writer.create plan)
  update imageType entries user := Action.besideNotes (writer.update imageType entries user)
  activePlan? imageType := Action.besideNotes (writer.activePlan? imageType)

theorem PlanWriter.run_noting_create (writer : PlanWriter σ) (plan : NewPlan) (noted : List NewPlan) (s : σ) :
    (writer.noting.create plan).run (noted, s) =
      ⟨((writer.create plan).run s).result, ((writer.create plan).run s).events,
        (noted ++ [plan], ((writer.create plan).run s).state)⟩ := rfl

/-- A draft that passes the check is handed over as one plan, and that this is noted makes no other difference. -/
theorem Authoring.run_noting_create {draft : PlanDraft} (h : checkPlan draft.toEntries = .ok ()) (writer : PlanWriter σ)
    (user : Option String) (noted : List NewPlan) (s : σ) :
    (create writer.noting draft user).run (noted, s) =
      ⟨((create writer draft user).run s).result, ((create writer draft user).run s).events,
        (noted ++ [(draft.stampNew user).toNewPlan], ((create writer draft user).run s).state)⟩ := by
  have hcheck : checkPlan (draft.stampNew user).toNewPlan.entries = .ok () :=
    (draft.sameTerms_stampNew user).symm.checkPlan_eq_ok h
  have hrequire : ∀ τ : Type, (require (draft.stampNew user).toNewPlan.entries : Action τ Unit) = pure () := fun τ => by
    unfold require
    rw [hcheck]
  have hnoting := writer.run_noting_create (draft.stampNew user).toNewPlan noted s
  unfold create
  dsimp only
  rw [hrequire, hrequire, run_pure_bind, run_pure_bind]
  cases hresult : ((writer.create (draft.stampNew user).toNewPlan).run s).result with
  | ok id =>
    have hnoted : ((writer.noting.create (draft.stampNew user).toNewPlan).run (noted, s)).result = .ok id := by
      rw [hnoting, hresult]
    rw [run_bind_ok hresult, run_bind_ok hnoted, hnoting]
    rfl
  | error failure =>
    have hnoted : ((writer.noting.create (draft.stampNew user).toNewPlan).run (noted, s)).result = .error failure := by
      rw [hnoting, hresult]
    rw [run_bind_error hresult, run_bind_error hnoted, hnoting]

end

/-! ### Columns -/

/-- How many characters the column of a name has room for. -/
def columnWidth : Nat := 255

/-- A text that the column of a name can hold: it is not empty, and there is room for it. -/
def FitsColumn (s : String) : Prop :=
  1 ≤ s.length ∧ s.length ≤ columnWidth

/-- What comes after the image type in a name that is made from it. -/
def nameEnding : String := " rampup"

theorem PlanDraft.planName_eq (d : PlanDraft) :
    d.planName =
      if (d.name.map Subtype.val).getD "" = "" then d.imageType.val ++ nameEnding else (d.name.map Subtype.val).getD "" := by
  unfold planName
  cases d.name with
  | none => rfl
  | some name =>
    dsimp only [Option.map_some, Option.getD_some]
    by_cases h : name.val = ""
    · rw [if_pos (String.isEmpty_iff.mpr h), if_pos h]
      rfl
    · rw [if_neg fun hempty => h (String.isEmpty_iff.mp hempty), if_neg h]

/-- A plan is the one that a document asks for, and its texts fit their columns, except that a name which is made from
    the image type fits only if the image type leaves room for the ending. -/
structure HandedOver (j : Json) (plan : NewPlan) : Prop where
  imageType : j.textAt? "image_type" = some plan.imageType
  versions : List.Forall₂ (fun item e => item.textAt? "image_version" = some e.version.val) (PlanDraft.listed j) plan.entries
  name : plan.name = if PlanDraft.givenName j = "" then plan.imageType ++ nameEnding else PlanDraft.givenName j
  imageType_fits : FitsColumn plan.imageType
  versions_fit : ∀ e ∈ plan.entries, FitsColumn e.version.val
  name_fits_iff : FitsColumn plan.name ↔
    PlanDraft.givenName j ≠ "" ∨ plan.imageType.length + nameEnding.length ≤ columnWidth

theorem PlanDraft.length_givenName_le {j : Json} {draft : PlanDraft} (h : ofJson j = .accepted draft) :
    (givenName j).length ≤ columnWidth := by
  obtain ⟨-, hname⟩ := accepts_texts j draft h
  rw [hname]
  cases draft.name with
  | none => exact Nat.zero_le _
  | some name => exact name.property

theorem fitsColumn_made_iff {imageType : String} :
    FitsColumn (imageType ++ nameEnding) ↔ imageType.length + nameEnding.length ≤ columnWidth := by
  have hending : 0 < nameEnding.length := by decide
  unfold FitsColumn
  rw [String.length_append]
  omega

theorem handedOver {j : Json} {draft : PlanDraft} (h : PlanDraft.ofJson j = .accepted draft) (user : Option String) :
    HandedOver j (draft.stampNew user).toNewPlan := by
  obtain ⟨htype, hgiven⟩ := PlanDraft.accepts_texts j draft h
  have hname : (draft.stampNew user).toNewPlan.name =
      if PlanDraft.givenName j = "" then draft.imageType.val ++ nameEnding else PlanDraft.givenName j := by
    rw [hgiven]
    exact draft.planName_eq
  refine ⟨htype, ?_, hname, draft.imageType.property, fun e _ => e.version.property, ?_⟩
  · refine List.forall₂_map_right_iff.mpr (List.forall₂_map_right_iff.mpr ?_)
    exact (PlanDraft.accepts_listed j draft h).imp fun item d hd => EntryDraft.accepts_version item d hd
  · rw [hname]
    by_cases hempty : PlanDraft.givenName j = ""
    · rw [if_pos hempty]
      exact fitsColumn_made_iff.trans ⟨Or.inr, fun hwide => hwide.resolve_left fun hne => hne hempty⟩
    · rw [if_neg hempty]
      have hpos : 1 ≤ (PlanDraft.givenName j).length := Nat.one_le_iff_ne_zero.mpr fun hzero =>
        hempty (String.length_eq_zero_iff.mp hzero)
      exact iff_of_true ⟨hpos, PlanDraft.length_givenName_le h⟩ (Or.inl hempty)

/-- A document that was accepted and whose entries pass the check is handed to a writer as one plan, whatever the
    writer makes of it. Its image type and its versions fit their columns. So does its name if the document gives
    one, or if the image type leaves room for the ending, and not otherwise. -/
theorem handed_plan_fits_unless_name_is_made {σ : Type} {j : Json} {draft : PlanDraft}
    (hdraft : PlanDraft.ofJson j = .accepted draft) (hcheck : checkPlan draft.toEntries = .ok ()) (writer : PlanWriter σ)
    (user : Option String) (s : σ) :
    ∃ plan, HandedOver j plan ∧
      (Authoring.create writer.noting draft user).run ([], s) =
        ⟨((Authoring.create writer draft user).run s).result, ((Authoring.create writer draft user).run s).events,
          ([plan], ((Authoring.create writer draft user).run s).state)⟩ :=
  ⟨_, handedOver hdraft user, Authoring.run_noting_create hcheck writer user [] s⟩

/-- A name of some length for an image type. -/
def nameOfLength (length : Nat) : String :=
  String.ofList (List.replicate length 'x')

@[simp] theorem length_nameOfLength (length : Nat) : (nameOfLength length).length = length := by
  simp [nameOfLength]

/-- A plan without a name, for an image type of some length. -/
def unnamedDraft (length : Nat) (h : 1 ≤ length ∧ length ≤ 255) : PlanDraft where
  imageType := ⟨nameOfLength length, by rw [length_nameOfLength]; exact h⟩
  entries := samplePlan.entries.map fun e => { imageVersion := e.version, share := e.share, stability := e.stability }

/-- The longest image type that leaves room for the ending. -/
theorem handed_plan_fits_unless_name_is_made_sample :
    PlanDraft.ofJson (unnamedDraft 248 (by decide)).toJson = .accepted (unnamedDraft 248 (by decide)) ∧
      checkPlan (unnamedDraft 248 (by decide)).toEntries = .ok () ∧
      ∃ plan, ((Authoring.create Memory.writer.noting (unnamedDraft 248 (by decide)) none).run ([], {})).state.1 = [plan] ∧
        FitsColumn plan.name := by
  have hdraft := PlanDraft.ofJson_toJson (unnamedDraft 248 (by decide))
  have hcheck : checkPlan (unnamedDraft 248 (by decide)).toEntries = .ok () := rfl
  obtain ⟨plan, hplan, hrun⟩ := handed_plan_fits_unless_name_is_made hdraft hcheck Memory.writer none {}
  have htype : some (nameOfLength 248) = some plan.imageType := hplan.imageType
  refine ⟨hdraft, hcheck, plan, by rw [hrun], hplan.name_fits_iff.mpr (Or.inr ?_)⟩
  rw [← Option.some.inj htype, length_nameOfLength]
  decide

/-- With one character more the name that is made of it has no room in its column. It is handed over all the same, and
    a store that does not look at its width takes it. -/
theorem made_name_is_too_long :
    PlanDraft.ofJson (unnamedDraft 249 (by decide)).toJson = .accepted (unnamedDraft 249 (by decide)) ∧
      checkPlan (unnamedDraft 249 (by decide)).toEntries = .ok () ∧
      ∃ plan events m,
        (Authoring.create Memory.writer.noting (unnamedDraft 249 (by decide)) (some "alice")).run
            ([], ({} : Memory).ensureType (nameOfLength 249)) = ⟨.ok (.made 0), events, ([plan], m)⟩ ∧
          plan.name.length = 256 ∧ ¬FitsColumn plan.name := by
  have hlength : ((unnamedDraft 249 (by decide)).stampNew (some "alice")).toNewPlan.name.length = 256 := by
    show (nameOfLength 249 ++ nameEnding).length = 256
    rw [String.length_append, length_nameOfLength]
    rfl
  have hregistered : (({} : Memory).ensureType (nameOfLength 249)).isRegistered (nameOfLength 249) = true :=
    (Memory.isRegistered_ensureType _ _ _).mpr (Or.inl rfl)
  have hresult : ((Authoring.create Memory.writer (unnamedDraft 249 (by decide)) (some "alice")).run
      (({} : Memory).ensureType (nameOfLength 249))).result = .ok (.made 0) := by
    rw [Authoring.result_create]
    refine (Memory.result_createPlan _ _).trans ((if_pos hregistered).trans ?_)
    rw [Memory.plans_ensureType]
    rfl
  have hcheck : checkPlan (unnamedDraft 249 (by decide)).toEntries = .ok () := rfl
  have hrun := Authoring.run_noting_create hcheck Memory.writer (some "alice") [] (({} : Memory).ensureType (nameOfLength 249))
  rw [hresult] at hrun
  refine ⟨PlanDraft.ofJson_toJson _, hcheck, _, _, _, hrun, hlength, fun hfits => ?_⟩
  have hwide := hfits.2
  rw [hlength] at hwide
  exact absurd hwide (by decide)

end ImageRollout
