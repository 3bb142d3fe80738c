import ImageRollout.Misuse
import ImageRollout.Names
import ImageRollout.Plan.Validity
import ImageRollout.Schema.Checked
import ImageRollout.Seconds
import ImageRollout.Text.Quoted

/-! Failures. A domain failure has a kind, a message and details for structured logs; the kinds form
    a hierarchy. Besides these there are misuses and documents of the wrong form. -/

namespace ImageRollout

inductive FailureKind where
  | domain
  | notFound
  | imageTypeNotFound
  | planNotFound
  | validation
  | planValidation
  | emptyPlan
  | invalidTotal
  | duplicateVersion
  | unstableShare
  | operation
  | planIntegrity
  | aggregateResolution
  | database
  | serviceUnavailable
  | storeUnavailable
  deriving DecidableEq, Repr

namespace FailureKind

def name : FailureKind → String
  | domain => "DomainException"
  | notFound => "NotFoundError"
  | imageTypeNotFound => "ImageTypeNotFoundError"
  | planNotFound => "RampupPlanNotFoundError"
  | validation => "ValidationError"
  | planValidation => "RampupValidationError"
  | emptyPlan => "EmptyRampupPlanError"
  | invalidTotal => "InvalidRampupTotalError"
  | duplicateVersion => "DuplicateRampupVersionError"
  | unstableShare => "UnstableRampupPercentageError"
  | operation => "OperationError"
  | planIntegrity => "PlanIntegrityViolationError"
  | aggregateResolution => "AggregateResolutionError"
  | database => "DatabaseError"
  | serviceUnavailable => "ServiceUnavailableError"
  | storeUnavailable => "StoreUnavailableError"

/-- A kind and the more general ones above it, up to the most general. -/
def lineage : FailureKind → List FailureKind
  | domain => [domain]
  | notFound => [notFound, domain]
  | imageTypeNotFound => [imageTypeNotFound, notFound, domain]
  | planNotFound => [planNotFound, notFound, domain]
  | validation => [validation, domain]
  | planValidation => [planValidation, validation, domain]
  | emptyPlan => [emptyPlan, planValidation, validation, domain]
  | invalidTotal => [invalidTotal, planValidation, validation, domain]
  | duplicateVersion => [duplicateVersion, planValidation, validation, domain]
  | unstableShare => [unstableShare, planValidation, validation, domain]
  | operation => [operation, domain]
  | planIntegrity => [planIntegrity, operation, domain]
  | aggregateResolution => [aggregateResolution, operation, domain]
  | database => [database, operation, domain]
  | serviceUnavailable => [serviceUnavailable, domain]
  | storeUnavailable => [storeUnavailable, serviceUnavailable, domain]

end FailureKind

/-- A failure of the domain. -/
inductive DomainFailure where
  /-- A failure of a given kind, in given words, with details in any form. -/
  | stated (kind : FailureKind) (message : String) (details : Json)
  | unknownImageType (imageType : String)
  | noActivePlan (imageType : String)
  | invalidPlan (fault : PlanFault)
  | corruptPlan (imageType reason : String)
  /-- Image types without a usable version, and those of them whose plan is corrupt. -/
  | unresolved (imageTypes corrupt : List String)
  | database (operation reason : String)
  | unavailable (service reason : String)
  | storeTimedOut (operation : String) (timeout : Seconds)
  deriving Repr

namespace DomainFailure

def storeService : String := "image metadata store"

def kind : DomainFailure → FailureKind
  | stated kind _ _ => kind
  | unknownImageType _ => .imageTypeNotFound
  | noActivePlan _ => .planNotFound
  | invalidPlan .empty => .emptyPlan
  | invalidPlan (.badTotal _) => .invalidTotal
  | invalidPlan (.repeatedVersion _) => .duplicateVersion
  | invalidPlan (.unstableShare _ _) => .unstableShare
  | corruptPlan _ _ => .planIntegrity
  | unresolved _ _ => .aggregateResolution
  | database _ _ => .database
  | unavailable _ _ => .serviceUnavailable
  | storeTimedOut _ _ => .storeUnavailable

def timeoutReason (operation : String) (timeout : Seconds) : String :=
  s!"{operation} timed out after {timeout.text}s"

def message : DomainFailure → String
  | stated _ message _ => message
  | unknownImageType imageType => s!"Image type not found: {imageType}"
  | noActivePlan imageType => s!"No active rampup plan found for image type: {imageType}"
  | invalidPlan .empty => "Missing rampup details"
  | invalidPlan (.badTotal total) =>
    s!"Total rampup percentage for all the versions must be 100, got {Text.ofInt total}"
  | invalidPlan (.repeatedVersion version) => s!"Duplicate image version: {version}"
  | invalidPlan (.unstableShare version share) =>
    s!"The image version {version} is marked as UNSTABLE and hence the rampup percentage must be 0, got {Text.ofInt share}"
  | corruptPlan imageType reason => s!"Rampup plan integrity violation for image type {imageType}: {reason}"
  | unresolved imageTypes _ =>
    "Could not fetch version for image types. Reasons: 1. There is no active rampup plan or the plan yielded no usable version. 2. There is no active version in the image versions table. Image types: "
      ++ Text.quotedList (Names.ordered imageTypes)
  | database operation reason => s!"Database error during {operation}: {reason}"
  | unavailable service reason => s!"{service}: {reason}"
  | storeTimedOut operation timeout => s!"{storeService}: {timeoutReason operation timeout}"

/-- The details of a failure one by one, in order. Details in another form than a document with members
    have none. -/
def detailMembers : DomainFailure → List (String × Json)
  | stated _ _ (.obj members) => members
  | stated _ _ _ => []
  | unknownImageType imageType | noActivePlan imageType => [("image_type", .str imageType)]
  | invalidPlan .empty => [("reason", .str "empty_plan")]
  | invalidPlan (.badTotal total) => [("reason", .str "invalid_total"), ("total", .int total)]
  | invalidPlan (.repeatedVersion version) => [("reason", .str "duplicate_version"), ("version", .str version)]
  | invalidPlan (.unstableShare version share) =>
    [("reason", .str "unstable_nonzero"), ("version", .str version), ("rampup_percentage", .int share)]
  | corruptPlan imageType reason => [("image_type", .str imageType), ("reason", .str reason)]
  | unresolved imageTypes corrupt =>
    ("image_types", .ofTexts (Names.ordered imageTypes)) ::
      if corrupt.isEmpty then [] else [("integrity_failures", .ofTexts (Names.ordered corrupt))]
  | database operation reason => [("operation", .str operation), ("reason", .str reason)]
  | unavailable service reason => [("service", .str service), ("reason", .str reason)]
  | storeTimedOut operation timeout =>
    [("service", .str storeService), ("reason", .str (timeoutReason operation timeout)),
      ("operation", .str operation), ("timeout", timeout.toJson)]

/-- The details of a failure. Ones that say nothing are a document without members. -/
def details : DomainFailure → Json
  | stated _ _ details => if details.isVacant then .obj [] else details
  | failure => .obj failure.detailMembers

end DomainFailure

/-- Why an operation has no result. -/
inductive Failure where
  | domain (failure : DomainFailure)
  | misuse (misuse : Misuse)
  | badForm (issues : List Issue)
  deriving Repr

def Issue.line (issue : Issue) : String :=
  let step : Step → String
    | .field name => name
    | .item index => Text.ofNat index
  ".".intercalate (issue.path.map step) ++ ": " ++ issue.cause.message

def Failure.lines : Failure → List String
  | .domain failure => [failure.message]
  | .misuse wrong => [wrong.message]
  | .badForm issues => issues.map Issue.line

/-- The outcome of a check as the outcome of an operation. -/
def Checked.toExcept {α : Type} : Checked α → Except Failure α
  | .accepted a => .ok a
  | .refused issues => .error (.badForm issues)

end ImageRollout
