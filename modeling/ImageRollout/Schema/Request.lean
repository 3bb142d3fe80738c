import ImageRollout.Schema.Form

/-! The forms of resolution: requests for versions, and the versions that stores fall back to. -/

namespace ImageRollout

open Form

/-- A request to resolve image types, with the kind of selection and the workload's key. -/
structure ResolutionRequest where
  imageTypes : List String
  selection : Selection := .random
  key : Option String := none
  deriving DecidableEq, Repr

/-- Whether a key is given that is not empty. -/
def hasKey (key : Option String) : Bool :=
  key.any fun s => !s.isEmpty

/-- Checks a request. Once its fields are sound, a deterministic selection has to come with a key. -/
def ResolutionRequest.ofJson : Json → Checked ResolutionRequest :=
  object "ResolveVersionsRequest" fun members =>
    let fields := ResolutionRequest.mk <$> required members "image_types" (someList text)
      <*> defaulted members "strategy" .random Form.selection
      <*> defaulted members "key" none (optional text)
    fields.andThen fun request =>
      if request.selection = .deterministic ∧ hasKey request.key = false then
        Checked.refuse (.unfit "key is required for deterministic selection")
      else .accepted request

def ActiveVersion.ofJson : Json → Checked ActiveVersion :=
  object "ActiveImageVersion" fun members =>
    ActiveVersion.mk <$> required members "image_type" text <*> required members "version" text

def ResolutionRequest.toJson (r : ResolutionRequest) : Json :=
  .obj [("image_types", .ofTexts r.imageTypes), ("strategy", .str r.selection.name), ("key", .ofText? r.key)]

def ActiveVersion.toJson (v : ActiveVersion) : Json :=
  .obj [("image_type", .str v.imageType), ("version", .str v.version)]

end ImageRollout
