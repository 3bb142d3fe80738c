/-! The lines of a text. A line may end in any of the line ends of the Unicode standard or in one of
    the separators of files, groups and records. -/

namespace ImageRollout.Text

/-- Whether a character ends a line. -/
def isLineEnd (c : Char) : Bool :=
  let n := c.toNat
  (0x0A ≤ n && n ≤ 0x0D) || (0x1C ≤ n && n ≤ 0x1E) || n == 0x85 || n == 0x2028 || n == 0x2029

/-- The lines of a text without their ends. A carriage return and a line feed after it are one end, and
    nothing comes after the last end. -/
def linesOf : List Char → List (List Char)
  | [] => []
  | '\r' :: '\n' :: rest => [] :: linesOf rest
  | c :: rest =>
    if isLineEnd c then [] :: linesOf rest
    else
      match linesOf rest with
      | [] => [[c]]
      | line :: more => (c :: line) :: more

/-- The last line of a text that is written out as a line. -/
def lastLine (s : String) : String :=
  String.ofList ((linesOf (s.toList ++ ['\n'])).getLastD [])

end ImageRollout.Text
