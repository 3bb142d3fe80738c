import ImageRollout.Names
import ImageRollout.Text.Blank

/-! The map of users whose images are fetched ahead for a job type, written "type,user;type,user". A
    segment that lacks one of the two is passed over. -/

namespace ImageRollout.Prefetch

/-- The parts of a text between the separators. -/
def splitAt (separator : Char) : List Char → List (List Char)
  | [] => [[]]
  | c :: rest =>
    if c = separator then [] :: splitAt separator rest
    else
      match splitAt separator rest with
      | [] => [[c]]
      | part :: parts => (c :: part) :: parts

/-- A segment before its first comma and after it, both without blanks around them. -/
def segment (cs : List Char) : String × String :=
  (Text.strip (String.ofList (cs.takeWhile (· != ','))),
    Text.strip (String.ofList ((cs.dropWhile (· != ',')).drop 1)))

/-- The job types and users of a map, in its order. -/
def pairs (map : String) : List (String × String) :=
  ((splitAt ';' map.toList).map segment).filter fun (jobType, user) => !jobType.isEmpty && !user.isEmpty

/-- The users of a map for some job types, in code point order. -/
def users (map : String) (jobTypes : List String) : List String :=
  Names.ordered (((pairs map).filter fun (jobType, _) => jobTypes.contains jobType).map Prod.snd)

end ImageRollout.Prefetch
