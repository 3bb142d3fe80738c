import ImageRollout.Text.Quoted

/-! Misuses: values that have no meaning where they are used. A refusal of the database that is passed on as
    it is counts as one too. -/

namespace ImageRollout

/-- A value of no meaning where it is used, or a refusal that is passed on as it is. -/
inductive Misuse where
  | badDraw (draw : Int)
  | emptyKey
  | unknownSelection (word : String)
  | unknownState (word : String)
  | noTypeStore
  /-- A plan is to be drawn from and there is no strategy. -/
  | noStrategy
  /-- The name of the layout of the journal's lines stands for a level. -/
  | layoutAsLevel
  /-- The name of the styles of layouts stands for a level. -/
  | stylesAsLevel
  /-- The database refuses to give a plan that it has just stored. -/
  | unread (reason : String)
  deriving DecidableEq, Repr

/-- The layout of the journal's lines, before it has one of its own. -/
def plainLayout : String := "%(levelname)s:%(name)s:%(message)s"

/-- The styles that layouts are written in: the mark of each, its kind, and the plain layout in it. -/
def layoutStyles : List (String × String × String) :=
  [("%", "logging.PercentStyle", plainLayout),
    ("\x7b", "logging.StrFormatStyle", "\x7blevelname\x7d:\x7bname\x7d:\x7bmessage\x7d"),
    ("$", "logging.StringTemplateStyle", "$\x7blevelname\x7d:$\x7bname\x7d:$\x7bmessage\x7d")]

def layoutStylesText : String :=
  let styles := layoutStyles.map fun (mark, kind, layout) =>
    Text.quoted mark ++ ": (<class " ++ Text.quoted kind ++ ">, " ++ Text.quoted layout ++ ")"
  "\x7b" ++ ", ".intercalate styles ++ "\x7d"

def Misuse.message : Misuse → String
  | .badDraw draw => s!"Draw must be in [1, 100], got {Text.ofInt draw}"
  | .emptyKey => "Deterministic draw requires a non-empty key"
  | .unknownSelection word => s!"{Text.quoted word} is not a valid SelectionStrategy"
  | .unknownState word => s!"{Text.quoted word} is not a valid ImageVersionState"
  | .noTypeStore => "resolve_all_image_types requires an image_type_store"
  | .noStrategy => "'NoneType' object has no attribute 'draw'"
  | .layoutAsLevel => s!"Unknown level: {Text.quoted plainLayout}"
  | .stylesAsLevel => s!"Level not an integer or a valid string: {layoutStylesText}"
  | .unread reason => reason

end ImageRollout
