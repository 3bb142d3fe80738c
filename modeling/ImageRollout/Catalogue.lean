import ImageRollout.Schema.Plan
import ImageRollout.Schema.Request
import ImageRollout.Store.Memory

/-! Catalogues: documents with the image types, the active versions and the plans that a store starts
    with. -/

namespace ImageRollout

open Form

/-- What a store starts with. -/
structure Catalogue where
  imageTypes : List String := []
  versions : List ActiveVersion := []
  plans : List Plan := []
  deriving DecidableEq, Repr

namespace Catalogue

def ofJson : Json → Checked Catalogue :=
  object "Catalogue" fun members =>
    Catalogue.mk <$> defaulted members "image_types" [] (list text)
      <*> defaulted members "versions" [] (list ActiveVersion.ofJson)
      <*> defaulted members "plans" [] (list Plan.ofJson)

def putPlan (m : Memory) (plan : Plan) : Memory :=
  { m with
    plans := m.plans ++
      [⟨plan.imageType, m.plans.length, plan.imageType, plan.name.getD plan.imageType, plan.active, plan.entries⟩] }

def memory (c : Catalogue) : Memory :=
  let m := c.imageTypes.foldl (fun m name => m.ensureType name) {}
  let m := c.versions.foldl (fun m v => (m.ensureType v.imageType).addVersion v.imageType v.version .active) m
  c.plans.foldl (fun m plan => putPlan (m.ensureType plan.imageType) plan) m

end Catalogue

end ImageRollout
