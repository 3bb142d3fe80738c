import ImageRollout.Resolution.Survey
import ImageRollout.Schema.Request
import ImageRollout.Settings

/-! Resolving a set of image types. The active plans of all of them are fetched in one call and
    surveyed; the types that are left get their latest active version, fetched in a second call. If one
    type has neither, the whole batch fails. -/

namespace ImageRollout

/-- A version for each of some image types, in code point order of the types. -/
abbrev Versions := List (String × String)

/-- The rules of the settings, where the caller does not say otherwise. -/
def Rules.ofSettings (settings : Settings) (strict : Option Bool) : Rules where
  strict := strict.getD settings.strictIntegrity
  timeout := settings.storeTimeout

/-- The version that the last row for an image type has. -/
def latest? (rows : List ActiveVersion) (imageType : String) : Option String :=
  (rows.reverse.find? fun row => row.imageType = imageType).map ActiveVersion.version

/-- The version of an image type: that of its plan, else that of the rows. -/
def settled? (planned : Versions) (rows : List ActiveVersion) (imageType : String) : Option String :=
  (planned.lookup imageType).or (latest? rows imageType)

/-- The rows for image types that have no version yet, one call for all of them. -/
def fallbacks {σ : Type} (source : Source σ) (rules : Rules) (remaining : List String) :
    Action (Backing σ) (List ActiveVersion) :=
  if remaining.isEmpty then pure []
  else do
    let rows ← callStore rules.timeout (.latestActive remaining) (source.latestActive remaining)
    let used := (rows.getD []).filter fun row => remaining.contains row.imageType
    Action.report (used.map fun row => .latestUsed row.imageType row.version)
    pure used

/-- Resolves image types with one strategy for all of them. Where no type has a plan, none is needed. -/
def resolveAll {σ : Type} (source : Source σ) (rules : Rules) (imageTypes : List String)
    (strategy : Option Strategy) : Action (Backing σ) Versions :=
  let requested := Names.ordered imageTypes
  if requested.isEmpty then pure []
  else do
    let plans ← callStore rules.timeout (.activePlans requested) (source.activePlans requested)
    Action.report [.plansFound (Names.within requested (plans.map Prod.fst))]
    let findings ← surveyed rules.strict strategy plans requested
    let planned := findings.planned
    let rows ← fallbacks source rules (Names.without requested (planned.map Prod.fst))
    Action.report (findings.corrupt.filterMap fun imageType =>
      (latest? rows imageType).map fun version => .fellBack imageType version)
    let unresolved := requested.filter fun imageType => (settled? planned rows imageType).isNone
    if unresolved.isEmpty then
      pure (requested.filterMap fun imageType =>
        (settled? planned rows imageType).map fun version => (imageType, version))
    else do
      Action.report [.unresolved unresolved]
      Action.fail (.domain (.unresolved unresolved (Names.within findings.corrupt unresolved)))

def chosenStrategy {σ : Type} (settings : Settings) (word : Option String) (key : List UInt8) : Action σ Strategy := do
  let (strategy, events) := Strategy.choose settings.defaultSelection word key
  Action.report events
  match strategy with
  | .ok strategy => pure strategy
  | .error misuse => Action.fail (.misuse misuse)

/-- Resolves image types, by the configured selection where no strategy is given. -/
def resolveVersions {σ : Type} (source : Source σ) (settings : Settings) (rules : Rules) (imageTypes : List String)
    (strategy : Option Strategy) : Action (Backing σ) Versions := do
  let strategy ←
    match strategy with
    | some strategy => pure strategy
    | none => chosenStrategy settings none []
  resolveAll source rules imageTypes (some strategy)

def resolveRequest {σ : Type} (source : Source σ) (settings : Settings) (rules : Rules)
    (request : ResolutionRequest) : Action (Backing σ) Versions := do
  let strategy ← chosenStrategy settings (some request.selection.name) (bytesOf (request.key.getD ""))
  resolveAll source rules request.imageTypes (some strategy)

/-- Resolves every image type that the store has. -/
def resolveEvery {σ : Type} (source : Source σ) (settings : Settings) (rules : Rules) (strategy : Option Strategy) :
    Action (Backing σ) Versions :=
  match source.typeNames? with
  | none => Action.fail (.misuse .noTypeStore)
  | some typeNames => do
    let imageTypes ← callStore rules.timeout .typeNames typeNames
    resolveVersions source settings rules imageTypes strategy

end ImageRollout
