import ImageRollout.Misuse
import ImageRollout.Settings

/-! Which events are written at all: the levels of the journal and of the database engine. They are set
    once; the level of the journal then stays. Two names that the journal keeps for the layout of its lines
    are taken for levels and refused. -/

namespace ImageRollout

/-- The levels, as numbers, and how many places events are written to. -/
structure Logging where
  level : Nat := 30
  engineLevel : Nat := 0
  handlers : Nat := 0
  deriving DecidableEq, Repr

namespace Logging

def levels : List (String × Nat) :=
  [("NOTSET", 0), ("DEBUG", 10), ("INFO", 20), ("WARN", 30), ("WARNING", 30), ("ERROR", 40), ("CRITICAL", 50),
    ("FATAL", 50)]

/-- The names that stand for something other than a level, with the misuse that each of them is. -/
def otherNames : List (String × Misuse) :=
  [("BASIC_FORMAT", .layoutAsLevel), ("_STYLES", .stylesAsLevel)]

/-- The number of a level by its name in capitals. An unknown one counts as INFO. -/
def numberOf (name : String) : Nat :=
  (levels.lookup name).getD 20

def levelOf (name : String) : Except Misuse Nat :=
  let name := Text.toCapitals name
  match otherNames.lookup name with
  | some misuse => .error misuse
  | none => .ok (numberOf name)

/-- The name of the level: the one that is asked for, unless it is empty, else that of the settings. -/
def levelName (settings : Settings) (asked : Option String) : String :=
  match asked with
  | none | some "" => settings.logLevel
  | some name => name

/-- Sets the levels. The level of the journal is only set while events are written nowhere. -/
def configure (settings : Settings) (asked : Option String) (logging : Logging) : Except Misuse Logging :=
  if logging.handlers = 0 then (levelOf (levelName settings asked)).map fun level => ⟨level, 30, 1⟩
  else .ok { logging with engineLevel := 30 }

/-- Whether an event matters enough to be written. -/
def shows (logging : Logging) (e : Event) : Bool :=
  decide (logging.level ≤ numberOf e.level.name)

end Logging

end ImageRollout
