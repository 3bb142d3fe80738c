import ImageRollout.Catalogue
import ImageRollout.CommandLine.Command
import ImageRollout.Json.Reader

/-! The command line. The settings come from the environment; the database that they name is a file
    with a catalogue. -/

namespace ImageRollout.CommandLine

/-- The settings that the environment has. -/
def environment : IO (List (String × String)) := do
  let values ← Settings.names.mapM fun name => do
    let value ← IO.getEnv name
    pure (value.map fun value => (name, value))
  pure (values.filterMap id)

def complainAll (lines : List String) : IO Unit :=
  lines.forM IO.eprintln

/-- Runs the command over a catalogue and returns its code. -/
def command (settings : Settings) (catalogue : Catalogue) (arguments : List String) : IO UInt32 := do
  let draws ← catalogue.plans.mapM fun _ => IO.rand 1 100
  let start : Backing Memory := { store := catalogue.memory, generator := ⟨draws.map Int.ofNat, Draw.least⟩ }
  let effect := (run Memory.source settings arguments).run start
  match effect.result with
  | .error failure =>
    complainAll failure.lines
    pure 1
  | .ok report =>
    complainAll ((effect.events.filter report.logging.shows).map (Event.line Text.ofNat))
    if report.ending = .misused then IO.eprintln usage
    if report.complaint.isEmpty then IO.print report.output else IO.eprintln report.complaint
    pure report.ending.code.toUInt32

/-- Reads the settings and the catalogue, and runs the command. -/
def start (arguments : List String) : IO UInt32 := do
  match Settings.load [] (← environment) with
  | .refused issues =>
    complainAll (issues.map Issue.line)
    pure 1
  | .accepted settings =>
    match (Json.read? (← IO.FS.readFile settings.databaseUrl)).map Catalogue.ofJson with
    | none =>
      IO.eprintln "The catalogue is no document."
      pure 1
    | some (.refused issues) =>
      complainAll (issues.map Issue.line)
      pure 1
    | some (.accepted catalogue) => command settings catalogue arguments

end ImageRollout.CommandLine

def main (arguments : List String) : IO UInt32 :=
  ImageRollout.CommandLine.start arguments
