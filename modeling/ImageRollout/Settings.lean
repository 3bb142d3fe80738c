import ImageRollout.Journal
import ImageRollout.Schema.Form
import ImageRollout.Text.Blank
import ImageRollout.Text.LetterCase

/-! The settings: values for each of a fixed list of names, from arguments, else from the environment,
    else by default. -/

namespace ImageRollout

open Form

structure Settings where
  appName : String := "Image Management"
  appVersion : String := "1.0.0"
  environment : String := "development"
  logLevel : String := "info"
  debug : Bool := false
  databaseSchema : String := "image_mgmt"
  databaseUrl : String := ""
  /-- The time that each store call has. -/
  storeTimeout : Seconds := .real (.finite false 8444249301319680 (-48))
  /-- The word for the selection where a caller names none. -/
  defaultSelection : String := "random"
  /-- Whether a corrupt plan is a failure, rather than a reason to fall back. -/
  strictIntegrity : Bool := false
  /-- The users whose images are fetched ahead for a job type. -/
  prefetchUsers : String := ""
  deriving DecidableEq, Repr

namespace Settings

def names : List String :=
  ["APP_NAME", "APP_VERSION", "ENVIRONMENT", "LOG_LEVEL", "DEBUG", "DB_SCHEMA", "DATABASE_URL",
    "STORE_TIMEOUT_SECONDS", "DEFAULT_SELECTION_STRATEGY", "STRICT_PLAN_INTEGRITY", "JOBTYPE_PREFETCH_USER_MAP"]

/-- A time that store calls can have: anything but a number that is at most zero. -/
def timeout (j : Json) : Checked Seconds :=
  (real j).andThen fun x =>
    if x.atMostZero then Checked.refuse (.unfit "STORE_TIMEOUT_SECONDS must be positive")
    else .accepted (.real x)

/-- The word for a kind of selection, in small letters and without blanks around it. -/
def selectionWord (j : Json) : Checked String :=
  (text j).andThen fun s =>
    match Selection.ofName? (Text.toSmall (Text.strip s)) with
    | some selection => .accepted selection.name
    | none => Checked.refuse (.unfit s!"Unknown selection strategy: {s}")

/-- Reads the settings. An argument wins over a variable of the environment, letter case counts, and
    unknown names are passed over. -/
def load (arguments : List (String × Json)) (environment : List (String × String)) : Checked Settings :=
  let members := environment.map (fun (name, value) => (name, Json.str value)) ++ arguments
  Settings.mk <$> defaulted members "APP_NAME" "Image Management" text
    <*> defaulted members "APP_VERSION" "1.0.0" text
    <*> defaulted members "ENVIRONMENT" "development" text
    <*> defaulted members "LOG_LEVEL" "info" text
    <*> defaulted members "DEBUG" false boolean
    <*> defaulted members "DB_SCHEMA" "image_mgmt" text
    <*> required members "DATABASE_URL" text
    <*> defaulted members "STORE_TIMEOUT_SECONDS" (Settings.storeTimeout {}) timeout
    <*> defaulted members "DEFAULT_SELECTION_STRATEGY" "random" selectionWord
    <*> defaulted members "STRICT_PLAN_INTEGRITY" false boolean
    <*> defaulted members "JOBTYPE_PREFETCH_USER_MAP" "" text

def toJson (s : Settings) : Json :=
  .obj [("APP_NAME", .str s.appName), ("APP_VERSION", .str s.appVersion), ("ENVIRONMENT", .str s.environment),
    ("LOG_LEVEL", .str s.logLevel), ("DEBUG", .bool s.debug), ("DB_SCHEMA", .str s.databaseSchema),
    ("DATABASE_URL", .str s.databaseUrl), ("STORE_TIMEOUT_SECONDS", s.storeTimeout.toJson),
    ("DEFAULT_SELECTION_STRATEGY", .str s.defaultSelection), ("STRICT_PLAN_INTEGRITY", .bool s.strictIntegrity),
    ("JOBTYPE_PREFETCH_USER_MAP", .str s.prefetchUsers)]

end Settings

/-- The strategy of a kind of selection. A deterministic one needs a key. -/
def Strategy.ofSelection (selection : Selection) (key : List UInt8) : Except Misuse Strategy :=
  match selection with
  | .random => .ok .generated
  | .deterministic =>
    match Key.ofBytes? key with
    | some key => .ok (.keyed key)
    | none => .error .emptyKey

/-- The strategy for a word, or for the configured word where none is given; then a missing key makes
    the draws random. A missing key is an empty one. -/
def Strategy.choose (configured : String) (word : Option String) (key : List UInt8) :
    Except Misuse Strategy × List Event :=
  match word with
  | some word =>
    match Selection.ofName? word with
    | some selection => (ofSelection selection key, [])
    | none => (.error (.unknownSelection word), [])
  | none =>
    match Selection.ofName? configured with
    | some .random => (.ok .generated, [])
    | some .deterministic =>
      match Key.ofBytes? key with
      | some key => (.ok (.keyed key), [])
      | none => (.ok .generated, [.noKey])
    | none => (.error (.unknownSelection configured), [])

end ImageRollout
