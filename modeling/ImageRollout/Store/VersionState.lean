/-! The states of versions. Only an active version can be handed out where no plan decides. -/

namespace ImageRollout

/-- The state of a version in its life. -/
inductive VersionState where
  | new
  | active
  | unstable
  | deprecated
  deriving DecidableEq, Repr

def VersionState.name : VersionState → String
  | .new => "new"
  | .active => "active"
  | .unstable => "unstable"
  | .deprecated => "deprecated"

def VersionState.ofName? (s : String) : Option VersionState :=
  [new, active, unstable, deprecated].find? fun state => state.name = s

end ImageRollout
