import ImageRollout.Schema.Form

/-! The forms of plans: the plans and entries that resolution reads, and the drafts that authors send
    in. -/

namespace ImageRollout

open Form

abbrev ShortText := { s : String // s.length ≤ 255 }

/-- An entry as an author writes it. -/
structure EntryDraft where
  imageVersion : Label
  share : Percentage
  stability : Stability := .experimental
  createdBy : Option String := none
  modifiedBy : Option String := none
  deriving DecidableEq, Repr

/-- A plan as an author writes it. -/
structure PlanDraft where
  imageType : Label
  name : Option ShortText := none
  description : Option String := none
  activate : Bool := true
  entries : List EntryDraft := []
  createdBy : Option String := none
  modifiedBy : Option String := none
  deriving DecidableEq, Repr

def Entry.ofJson : Json → Checked Entry :=
  object "RampupEntry" fun members =>
    Entry.mk <$> required members "version" label
      <*> required members "rampup_percentage" percentage
      <*> defaulted members "stability_tag" .experimental Form.stability
      <*> defaulted members "created_by" none (optional text)
      <*> defaulted members "modified_by" none (optional text)

def Plan.ofJson : Json → Checked Plan :=
  object "RampupPlan" fun members =>
    Plan.mk <$> required members "image_type" text
      <*> defaulted members "active" true boolean
      <*> defaulted members "entries" [] (list Entry.ofJson)
      <*> defaulted members "id" none (optional planId)
      <*> defaulted members "name" none (optional text)

def EntryDraft.ofJson : Json → Checked EntryDraft :=
  object "RampupEntryRequest" fun members =>
    EntryDraft.mk <$> required members "image_version" label
      <*> required members "rampup_percentage" percentage
      <*> defaulted members "stability_tag" .experimental Form.stability
      <*> defaulted members "created_by" none (optional text)
      <*> defaulted members "modified_by" none (optional text)

def PlanDraft.ofJson : Json → Checked PlanDraft :=
  object "RampupPlanRequest" fun members =>
    PlanDraft.mk <$> required members "image_type" label
      <*> defaulted members "plan_name" none (optional shortText)
      <*> defaulted members "description" none (optional text)
      <*> defaulted members "activate_plan" true boolean
      <*> defaulted members "rampups" [] (list EntryDraft.ofJson)
      <*> defaulted members "created_by" none (optional text)
      <*> defaulted members "modified_by" none (optional text)

def EntryDraft.toEntry (d : EntryDraft) : Entry where
  version := d.imageVersion
  share := d.share
  stability := d.stability
  createdBy := d.createdBy
  modifiedBy := d.modifiedBy

def PlanDraft.toEntries (d : PlanDraft) : List Entry :=
  d.entries.map EntryDraft.toEntry

/-- The entry of a draft, which is checked as every entry is: from a document with the values of the draft. -/
def EntryDraft.conversion (d : EntryDraft) : Checked Entry :=
  Entry.ofJson (.obj [("version", .str d.imageVersion.val), ("rampup_percentage", .int d.share.val),
    ("stability_tag", .str d.stability.name), ("created_by", .ofText? d.createdBy), ("modified_by", .ofText? d.modifiedBy)])

/-- The entries of drafts one after the other, or what is wrong with the first draft that makes none. -/
def conversions : List EntryDraft → Checked (List Entry)
  | [] => .accepted []
  | d :: rest => d.conversion.andThen fun e => (conversions rest).map (e :: ·)

def PlanDraft.conversion (d : PlanDraft) : Checked (List Entry) :=
  conversions d.entries

def Entry.toJson (e : Entry) : Json :=
  .obj [("version", .str e.version.val), ("rampup_percentage", .int e.share.val),
    ("stability_tag", .str e.stability.name), ("created_by", .ofText? e.createdBy),
    ("modified_by", .ofText? e.modifiedBy)]

/-- A plan with all its fields, where `fresh` writes the identities that a store makes. -/
def Plan.toJson (fresh : Nat → String) (p : Plan) : Json :=
  .obj [("image_type", .str p.imageType), ("active", .bool p.active),
    ("entries", .arr (p.entries.map Entry.toJson)), ("id", .ofText? (p.id.map (PlanId.text fresh))),
    ("name", .ofText? p.name)]

def EntryDraft.toJson (d : EntryDraft) : Json :=
  .obj [("image_version", .str d.imageVersion.val), ("rampup_percentage", .int d.share.val),
    ("stability_tag", .str d.stability.name), ("created_by", .ofText? d.createdBy),
    ("modified_by", .ofText? d.modifiedBy)]

def PlanDraft.toJson (d : PlanDraft) : Json :=
  .obj [("image_type", .str d.imageType.val), ("plan_name", .ofText? (d.name.map Subtype.val)),
    ("description", .ofText? d.description), ("activate_plan", .bool d.activate),
    ("rampups", .arr (d.entries.map EntryDraft.toJson)), ("created_by", .ofText? d.createdBy),
    ("modified_by", .ofText? d.modifiedBy)]

end ImageRollout
