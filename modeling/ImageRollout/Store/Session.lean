import ImageRollout.Action
import ImageRollout.Store.Tables

/-! A session with the database. Statements work on a draft of the tables, which a commit makes the
    tables and a rollback gives up. The database may refuse a statement, and a commit also because it does
    not take the rows. -/

namespace ImageRollout

/-- The kinds of statement that the database may refuse. -/
inductive Statement where
  | execute
  | commit
  | refresh
  deriving DecidableEq, Repr

/-- Which statement of its kind is refused, counted from one, and for what reason. -/
structure Fault where
  statement : Statement
  turn : Nat
  reason : String
  deriving DecidableEq, Repr

/-- A session. -/
structure Session where
  committed : Tables
  draft : Tables
  /-- How many statements were made so far, the refused ones too. -/
  executed : Nat := 0
  commits : Nat := 0
  refreshes : Nat := 0
  fault : Option Fault := none

namespace Session

def start (tables : Tables) (fault : Option Fault) : Session where
  committed := tables
  draft := tables
  fault := fault

/-- The reason for which the statement of a turn is refused. -/
def refusal? (s : Session) (statement : Statement) (turn : Nat) : Option String :=
  s.fault.bind fun fault => if fault.statement = statement ∧ fault.turn = turn then some fault.reason else none

/-- Gives up the draft. -/
def rollback (s : Session) : Session :=
  { s with draft := s.committed }

/-- Goes on unless there is a reason to refuse. -/
def unlessRefused (operation : String) : Option String → Action Session Unit
  | none => pure ()
  | some reason => do
    Action.report [.databaseFailed operation reason]
    Action.fail (.domain (.database operation reason))

/-- Makes a statement that reads or changes the draft. -/
def execute (operation : String) : Action Session Unit := do
  Action.change fun s => { s with executed := s.executed + 1 }
  let refusal ← Action.read fun s => s.refusal? .execute s.executed
  unlessRefused operation refusal

/-- Makes the draft the tables, if the database takes its rows. -/
def commit (operation : String) : Action Session Unit := do
  Action.change fun s => { s with commits := s.commits + 1 }
  let refusal ← Action.read fun s => (s.refusal? .commit s.commits).or s.draft.objection?
  unlessRefused operation refusal
  Action.change fun s => { s with committed := s.draft }

/-- Reads again what was written. A refusal is passed on as the database gives it. -/
def refresh : Action Session Unit := do
  Action.change fun s => { s with refreshes := s.refreshes + 1 }
  match ← Action.read fun s => s.refusal? .refresh s.refreshes with
  | none => pure ()
  | some reason => Action.fail (.misuse (.unread reason))

def query {α : Type} (f : Tables → α) : Action Session α :=
  Action.read fun s => f s.draft

def edit (f : Tables → Tables) : Action Session Unit :=
  Action.change fun s => { s with draft := f s.draft }

end Session

end ImageRollout
