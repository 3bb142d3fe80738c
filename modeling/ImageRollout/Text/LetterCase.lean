/-! Letter case, as far as words of ASCII letters can tell. A character outside ASCII matters to
    such a word only when its other case is made of ASCII letters; every other character stays as it
    is, and a text that holds one spells no such word in either form. -/

namespace ImageRollout.Text

/-- The small letter of a character: the Kelvin sign is the one character outside ASCII whose small
    letter is an ASCII letter. -/
def smallLetter (c : Char) : Char :=
  if c = '\u212a' then 'k' else c.toLower

/-- The characters outside ASCII whose capitals are ASCII letters: the dotless i, the long s, the sharp
    s, and the ligatures. -/
def foreignCapitals : List (Char × List Char) :=
  [('\u0131', ['I']), ('\u017f', ['S']), ('\u00df', ['S', 'S']), ('\ufb00', ['F', 'F']), ('\ufb01', ['F', 'I']),
    ('\ufb02', ['F', 'L']), ('\ufb03', ['F', 'F', 'I']), ('\ufb04', ['F', 'F', 'L']), ('\ufb05', ['S', 'T']),
    ('\ufb06', ['S', 'T'])]

/-- The capitals of a character: one, or several where a single character writes several letters. -/
def capitalsOf (c : Char) : List Char :=
  (foreignCapitals.lookup c).getD [c.toUpper]

def toSmall (s : String) : String :=
  String.ofList (s.toList.map smallLetter)

def toCapitals (s : String) : String :=
  String.ofList (s.toList.flatMap capitalsOf)

end ImageRollout.Text
