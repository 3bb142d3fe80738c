import ImageRollout.CommandLine.Arguments
import ImageRollout.Json.Printer
import ImageRollout.Logging
import ImageRollout.Resolution.Batch
import ImageRollout.Text.Lines

/-! The command that resolves image types and prints their versions as a document. -/

namespace ImageRollout.CommandLine

/-- How the command ends. -/
inductive Ending where
  | done
  /-- There are no versions. -/
  | failed
  /-- The arguments are wrong. -/
  | misused
  | helped
  deriving DecidableEq, Repr

def Ending.code : Ending → UInt8
  | .done | .helped => 0
  | .failed => 1
  | .misused => 2

/-- What the command leaves behind. -/
structure Report where
  ending : Ending
  output : String := ""
  /-- What goes to the error output, or nothing. -/
  complaint : String := ""
  logging : Logging := {}

/-- The last line of the error output. -/
def Report.lastComplaint (report : Report) : String :=
  Text.lastLine report.complaint

def commandName : String := "imagemgmt-resolve"

def usage : String :=
  s!"usage: {commandName} [-h] [--all] [--key KEY] [--log-level LOG_LEVEL] [image_types ...]"

def complain (fault : UsageFault) (logging : Logging) : Report where
  ending := .misused
  complaint := s!"{commandName}: error: {fault.message}"
  logging := logging

def failureLine (failure : DomainFailure) : String :=
  Json.line (.obj (("error", .str failure.kind.name) :: ("detail", .str failure.message) :: failure.detailMembers))

def versionLines (versions : Versions) : String :=
  Json.lines 0 (.obj (versions.map fun (imageType, version) => (imageType, .str version))) ++ "\n"

variable {σ : Type}

/-- Resolves what an order asks for. A key that is not empty makes the draws the key's. -/
def carryOut (source : Source σ) (settings : Settings) (order : Order) : Action (Backing σ) Versions := do
  let key := order.key.getD ""
  let word := if key.isEmpty then none else some Selection.deterministic.name
  let strategy ← chosenStrategy settings word (bytesOf key)
  let rules := Rules.ofSettings settings none
  if order.all then resolveEvery source settings rules (some strategy)
  else resolveAll source rules order.imageTypes (some strategy)

/-- Carries out an order and reports on it. -/
def report (source : Source σ) (settings : Settings) (order : Order) (logging : Logging) :
    Action (Backing σ) Report := do
  match ← (carryOut source settings order).domainResult with
  | .ok versions => pure { ending := .done, output := versionLines versions, logging }
  | .error failure =>
    Action.report [.commandFailed failure.message]
    pure { ending := .failed, complaint := failureLine failure, logging }

def run (source : Source σ) (settings : Settings) (arguments : List String) : Action (Backing σ) Report :=
  match Order.ofArguments arguments with
  | .error .help => pure { ending := .helped, output := usage ++ "\n" }
  | .error (.usage fault) => pure (complain fault {})
  | .ok order => do
    let logging ← Action.ofExcept ((Logging.configure settings order.logLevel {}).mapError .misuse)
    if !order.all && order.imageTypes.isEmpty then pure (complain .nothingToResolve logging)
    else report source settings order logging

end ImageRollout.CommandLine
