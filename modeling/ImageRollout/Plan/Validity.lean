import ImageRollout.Plan.Entry

/-! What an author's plan has to satisfy: it has entries, their shares make up one hundred percent,
    no version comes twice, and an unstable version has no share. The first rule that is broken, in
    this order, is the one reported. -/

namespace ImageRollout

/-- The rule that a plan breaks. -/
inductive PlanFault where
  | empty
  | badTotal (total : Int)
  | repeatedVersion (version : String)
  | unstableShare (version : String) (share : Int)
  deriving DecidableEq, Repr

/-- The first version that an entry before it has, where `seen` are the versions before the list. -/
def firstRepeated? (seen : List String) : List Entry → Option String
  | [] => none
  | e :: rest =>
    if seen.contains e.version.val then some e.version.val else firstRepeated? (e.version.val :: seen) rest

def firstUnstable? (entries : List Entry) : Option Entry :=
  entries.find? fun e => e.stability = .unstable ∧ e.share.val ≠ 0

/-- Checks the rules in order. -/
def checkPlan (entries : List Entry) : Except PlanFault Unit :=
  if entries.isEmpty then .error .empty
  else if total entries ≠ 100 then .error (.badTotal (total entries))
  else
    match firstRepeated? [] entries with
    | some version => .error (.repeatedVersion version)
    | none =>
      match firstUnstable? entries with
      | some e => .error (.unstableShare e.version.val e.share.val)
      | none => .ok ()

/-- Checks entries that may not be given at all, which is as if there were none. -/
def checkGiven (given : Option (List Entry)) : Except PlanFault Unit :=
  checkPlan (given.getD [])

end ImageRollout
