import ImageRollout.Text.Digits
import ImageRollout.Text.Quoted

/-! The arguments of the command: the image types, and switches anywhere among them. A long switch may
    be cut short as long as it stays the only one, its value may follow an equals sign, and after two
    hyphens nothing is a switch. The image types stand together: of several groups only the first is
    taken. -/

namespace ImageRollout.CommandLine

inductive Switch where
  | help
  | all
  | key
  | logLevel
  deriving DecidableEq, Repr

def spellings : List (String × Switch) :=
  [("-h", .help), ("--help", .help), ("--all", .all), ("--key", .key), ("--log-level", .logLevel)]

def Switch.name (switch : Switch) : String :=
  "/".intercalate ((spellings.filter fun (_, other) => other = switch).map Prod.fst)

/-- What is wrong with the arguments. -/
inductive UsageFault where
  | ambiguous (argument : String) (candidates : List String)
  | noValue (switch : Switch)
  | needlessValue (switch : Switch) (value : String)
  | unknown (arguments : List String)
  | nothingToResolve
  deriving DecidableEq, Repr

def UsageFault.message : UsageFault → String
  | ambiguous argument candidates =>
    let listed := ", ".intercalate candidates
    s!"ambiguous option: {argument} could match {listed}"
  | noValue switch => s!"argument {switch.name}: expected one argument"
  | needlessValue switch value => s!"argument {switch.name}: ignored explicit argument {Text.quoted value}"
  | unknown arguments =>
    let listed := " ".intercalate arguments
    s!"unrecognized arguments: {listed}"
  | nothingToResolve => "provide image types or --all"

/-- Why arguments give no order to carry out. -/
inductive Stop where
  | help
  | usage (fault : UsageFault)
  deriving DecidableEq, Repr

/-- What the command is asked to do. -/
structure Order where
  imageTypes : List String := []
  all : Bool := false
  key : Option String := none
  logLevel : Option String := none
  deriving DecidableEq, Repr

/-! ### Single arguments -/

/-- An argument by itself. -/
inductive Token where
  | operand (text : String)
  /-- Two hyphens: from here on all arguments are operands. -/
  | finish
  /-- A switch, with the value that is part of the argument. -/
  | switch (switch : Switch) (value : Option String)
  | unknown (text : String)
  deriving DecidableEq, Repr

def mark : String := "--"

/-- Whether a text reads as a negative number. A line end after it does not matter. -/
def isNegativeNumber (cs : List Char) : Bool :=
  let cs := if cs.getLast? = some '\n' then cs.dropLast else cs
  match cs with
  | '-' :: rest =>
    match rest.dropWhile Text.isDigit with
    | [] => !rest.isEmpty
    | '.' :: fraction => !fraction.isEmpty && fraction.all Text.isDigit
    | _ => false
  | _ => false

/-- A text before its first equals sign, and after it. -/
def cut (s : String) : String × Option String :=
  match s.toList.dropWhile (· != '=') with
  | [] => (s, none)
  | _ :: value => (String.ofList (s.toList.takeWhile (· != '=')), some (String.ofList value))

/-- The value that a spelling carries with a text after it. To a short switch, whose spelling is a
    hyphen and a letter, the same letter again only repeats the switch; it carries what comes after
    the repetitions, and no value if there is nothing but them. -/
def carried (spelling text : String) : Option String :=
  match spelling.toList with
  | [_, letter] =>
    match text.toList.dropWhile (· = letter) with
    | [] => if text.isEmpty then some text else none
    | rest => some (String.ofList rest)
  | _ => some text

/-- The switches that a shortened argument may stand for, each with its spelling. A short switch may
    carry more letters. -/
def candidates (argument : String) : List (String × Token) :=
  if mark.toList.isPrefixOf argument.toList then
    let (start, value) := cut argument
    (spellings.filter fun (spelling, _) => start.toList.isPrefixOf spelling.toList).map
      fun (spelling, switch) => (spelling, .switch switch value)
  else
    let start := String.ofList (argument.toList.take 2)
    let text := String.ofList (argument.toList.drop 2)
    (spellings.filter fun (spelling, _) => spelling = start).map
      fun (spelling, switch) => (spelling, .switch switch (carried spelling text))

/-- What an argument is that starts like a switch and is none of the spellings. -/
def resembling (argument : String) : Except Stop Token :=
  match candidates argument with
  | [(_, token)] => .ok token
  | [] =>
    if isNegativeNumber argument.toList || argument.toList.contains ' ' then .ok (.operand argument)
    else .ok (.unknown argument)
  | several => .error (.usage (.ambiguous argument (several.map Prod.fst)))

def Token.ofArgument (argument : String) : Except Stop Token :=
  match argument.toList with
  | [] | [_] => .ok (.operand argument)
  | first :: _ =>
    if first ≠ '-' then .ok (.operand argument)
    else
      match spellings.lookup argument with
      | some known => .ok (.switch known none)
      | none =>
        match cut argument with
        | (spelling, some value) =>
          match spellings.lookup spelling with
          | some known => .ok (.switch known (carried spelling value))
          | none => resembling argument
        | (_, none) => resembling argument

def tokens : List String → Except Stop (List Token)
  | [] => .ok []
  | argument :: rest =>
    if argument = mark then .ok (.finish :: rest.map .operand)
    else do
      let token ← Token.ofArgument argument
      let more ← tokens rest
      .ok (token :: more)

/-! ### The order -/

/-- How far the group of image types has come. -/
inductive Group where
  | ahead
  | within
  | over
  deriving DecidableEq, Repr

/-- What the arguments so far ask for, with the ones that have no place. -/
structure Progress where
  order : Order := {}
  group : Group := .ahead
  extra : List String := []
  deriving DecidableEq, Repr

namespace Progress

/-- Takes an operand: into the group unless that is over. -/
def operand (p : Progress) (text : String) : Progress :=
  if p.group = .over then { p with extra := p.extra ++ [text] }
  else { p with order := { p.order with imageTypes := p.order.imageTypes ++ [text] }, group := .within }

/-- Takes the mark: it starts or continues the group, but is no part of it. -/
def finish (p : Progress) : Progress :=
  if p.group = .over then { p with extra := p.extra ++ [mark] } else { p with group := .within }

def close (p : Progress) : Progress :=
  if p.group = .within then { p with group := .over } else p

def stray (p : Progress) (text : String) : Progress :=
  { p.close with extra := p.extra ++ [text] }

/-- Takes the value of a switch, or takes back the value that it had. -/
def value (p : Progress) (switch : Switch) (text : Option String) : Progress :=
  match switch with
  | .key => { p.close with order := { p.order with key := text } }
  | .logLevel => { p.close with order := { p.order with logLevel := text } }
  | .all | .help => p.close

def everything (p : Progress) : Progress :=
  { p.close with order := { p.order with all := true } }

end Progress

/-- Takes all tokens. A value that is the mark itself, as part of the argument of its switch, is none. -/
def gather : List Token → Progress → Except Stop Progress
  | [], p => .ok p
  | .operand text :: rest, p => gather rest (p.operand text)
  | .finish :: rest, p => gather rest p.finish
  | .unknown text :: rest, p => gather rest (p.stray text)
  | .switch .help none :: _, _ => .error .help
  | .switch .all none :: rest, p => gather rest p.everything
  | .switch switch none :: rest, p =>
    match rest with
    | .operand text :: rest => gather rest (p.value switch (some text))
    | _ => .error (.usage (.noValue switch))
  | .switch switch (some text) :: rest, p =>
    if switch = .help ∨ switch = .all then .error (.usage (.needlessValue switch text))
    else gather rest (p.value switch (if text = mark then none else some text))

def Order.ofArguments (arguments : List String) : Except Stop Order := do
  let p ← gather (← tokens arguments) {}
  if p.extra.isEmpty then .ok p.order else .error (.usage (.unknown p.extra))

end ImageRollout.CommandLine
