import ImageRollout.Failure
import ImageRollout.Resolution.Outcome

/-! The journal: what operations report while they run, as data, with the level and the words of each
    event. -/

namespace ImageRollout

/-- How much an event matters. -/
inductive Level where
  | debug
  | info
  | warning
  | error
  deriving DecidableEq, Repr

def Level.name : Level → String
  | .debug => "DEBUG"
  | .info => "INFO"
  | .warning => "WARNING"
  | .error => "ERROR"

/-- What is reported. -/
inductive Event where
  /-- The configured selection wants a key and there is none. -/
  | noKey
  /-- The database has active plans of these image types. -/
  | plansLoaded (imageTypes : List String)
  /-- The database has active versions of these image types. -/
  | versionsLoaded (imageTypes : List String)
  /-- These of the requested image types have a plan. -/
  | plansFound (imageTypes : List String)
  | selected (imageType : String) (entry : Entry) (draw : Int)
  | violated (imageType : String) (violation : Violation)
  /-- An image type gets its latest active version. -/
  | latestUsed (imageType version : String)
  /-- An image type got its latest active version because its plan is corrupt. -/
  | fellBack (imageType version : String)
  | unresolved (imageTypes : List String)
  | storeTimedOut (operation : String) (timeout : Seconds)
  | databaseFailed (operation reason : String)
  | planStored (plan : PlanId) (imageType : String) (active : Bool)
  | entriesStored (plan : PlanId) (imageType : String)
  | planCreated (user : Option String) (plan : PlanId) (imageType : String)
  | planUpdated (user : Option String) (plan : PlanId) (imageType : String)
  | flowStarted (flowName : String) (imageTypes : List String)
  | commandFailed (message : String)
  deriving DecidableEq, Repr

namespace Event

def level : Event → Level
  | noKey | plansLoaded _ | versionsLoaded _ => .debug
  | plansFound _ | selected _ _ _ | latestUsed _ _ | planStored _ _ _ | entriesStored _ _ | planCreated _ _ _
  | planUpdated _ _ _ | flowStarted _ _ => .info
  | fellBack _ _ => .warning
  | violated _ _ | unresolved _ | storeTimedOut _ _ | databaseFailed _ _ | commandFailed _ => .error

def userName (user : Option String) : String :=
  user.getD "None"

/-- An event in words, where `fresh` writes the identities that a store makes. -/
def text (fresh : Nat → String) : Event → String
  | noKey => "No workload key given, using random selection"
  | plansLoaded imageTypes => s!"Active rampup plans loaded for image types {Text.quotedList imageTypes}"
  | versionsLoaded imageTypes => s!"Active versions found for image types {Text.quotedList imageTypes}"
  | plansFound imageTypes => s!"Found active rampup for the image types {Text.quotedList imageTypes}"
  | selected imageType entry draw =>
    s!"The image version {entry.version.val} is selected for image type {imageType} with rampup percentage {Text.ofNat entry.share.val} (draw {Text.ofInt draw})"
  | violated imageType violation =>
    s!"Rampup plan integrity violation for image type {imageType}: {violation.text}"
  | latestUsed imageType version => s!"Using latest active version {version} for image type {imageType}"
  | fellBack imageType version =>
    s!"Image type {imageType} fell back to its latest active version {version} after a rampup plan integrity violation"
  | unresolved imageTypes => s!"Could not resolve versions for image types {Text.quotedList imageTypes}"
  | storeTimedOut operation timeout => s!"Store call {operation} timed out after {timeout.text}s"
  | databaseFailed operation reason => s!"Database error during {operation}: {reason}"
  | planStored plan imageType active =>
    let shown := if active then "True" else "False"
    s!"Created rampup plan {plan.text fresh} for image type {imageType} (active={shown})"
  | entriesStored plan imageType => s!"Updated rampup plan {plan.text fresh} for image type {imageType}"
  | planCreated user plan imageType =>
    s!"User {userName user} created rampup plan {plan.text fresh} for image type {imageType}"
  | planUpdated user plan imageType =>
    s!"User {userName user} updated rampup plan {plan.text fresh} for image type {imageType}"
  | flowStarted flowName imageTypes =>
    s!"Resolving image versions for flow {flowName}: {Text.quotedList imageTypes}"
  | commandFailed message => s!"Version resolution failed: {message}"

def line (fresh : Nat → String) (e : Event) : String :=
  s!"{e.level.name} {e.text fresh}"

end Event

end ImageRollout
