/-
# `GroupedArith.Command.Options` — the arguments of a command

A command knows some options.  Its arguments are split into items by the rules
that most commands share:

    --name VALUE   --name=VALUE     an option with a value
    -n VALUE  -nVALUE  -n=VALUE     the same by its short name; one `=` is left out
    --name                          an option without a value
    --                              what follows are operands, whatever they look like
    anything else, `-` included     an operand

A value that stands by itself does not begin with `-`, unless it is `-`; a value
behind `=` may be anything, and may be empty.  Names are matched exactly.
-/

namespace GroupedArith

/-- Why a command line makes no sense. -/
inductive Misuse where
  | noCommand
  | unknownCommand (name : String)
  | unknownOption (argument : String)
  | missingValue (option : String)
  | needlessValue (option : String)
  | repeatedOption (option : String)
  /-- There is no use for this operand. -/
  | surplus (operand : String)
  /-- A source is given both as text and as a file. -/
  | twoSources
  deriving DecidableEq, Repr

def Misuse.message : Misuse → String
  | noCommand => "a command is required: run, parse or backends"
  | unknownCommand name => "unknown command " ++ name
  | unknownOption argument => "unknown option " ++ argument
  | missingValue option => "a value is required for --" ++ option
  | needlessValue option => "no value is expected for --" ++ option
  | repeatedOption option => "--" ++ option ++ " is given more than once"
  | surplus operand => "unexpected argument " ++ operand
  | twoSources => "--expr and a file exclude each other"

/-- An option that a command knows. -/
structure OptionRule where
  /-- Its name, without the dashes. -/
  long : String
  short? : Option Char := none
  hasValue : Bool := false

/-- A part of a command line. -/
inductive Item where
  | operand (text : String)
  | flag (name : String)
  | setting (name value : String)
  deriving DecidableEq, Repr

/-- What one argument amounts to. -/
inductive Argument where
  | item (i : Item)
  /-- It is an option whose value is the next argument. -/
  | awaitsValue (name : String)

namespace Argument

/-- An option by its full name: what stands behind the two dashes. -/
def ofLong (rules : List OptionRule) (text : List Char) : Except Misuse Argument :=
  let name := String.ofList (text.takeWhile (· ≠ '='))
  match rules.find? (·.long == name), text.dropWhile (· ≠ '=') with
  | none, _ => .error (.unknownOption name)
  | some rule, [] =>
    .ok (if rule.hasValue then .awaitsValue rule.long else .item (.flag rule.long))
  | some rule, _ :: value =>
    if rule.hasValue then .ok (.item (.setting rule.long (.ofList value)))
    else .error (.needlessValue rule.long)

/-- An option by its short name, and what stands behind it. -/
def ofShort (rules : List OptionRule) (name : Char) (text : List Char) :
    Except Misuse Argument :=
  match rules.find? fun rule => rule.hasValue && rule.short? == some name with
  | none => .error (.unknownOption name.toString)
  | some rule =>
    .ok <| match text with
      | [] => .awaitsValue rule.long
      | '=' :: value => .item (.setting rule.long (.ofList value))
      | value => .item (.setting rule.long (.ofList value))

/-- What an argument amounts to, under the options of a command. -/
def ofString (rules : List OptionRule) (argument : String) : Except Misuse Argument :=
  match argument.toList with
  | '-' :: '-' :: text => ofLong rules text
  | '-' :: name :: text => ofShort rules name text
  | _ => .ok (.item (.operand argument))

end Argument

/-- Whether a text can be the value of the option before it. -/
def isPlainValue (text : String) : Bool := text.toList.head? ≠ some '-' || text == "-"

/-- The items of a command line, under the options of a command. -/
def items (rules : List OptionRule) : List String → Except Misuse (List Item)
  | [] => .ok []
  | argument :: more =>
    if argument = "--" then .ok (more.map .operand)
    else
      match Argument.ofString rules argument, more with
      | .error misuse, _ => .error misuse
      | .ok (.item i), more => (items rules more).map (i :: ·)
      | .ok (.awaitsValue name), [] => .error (.missingValue name)
      | .ok (.awaitsValue name), value :: more =>
        if isPlainValue value then (items rules more).map (.setting name value :: ·)
        else .error (.missingValue name)

namespace Item

def operands (l : List Item) : List String :=
  l.filterMap fun
    | .operand text => some text
    | _ => none

def values (name : String) (l : List Item) : List String :=
  l.filterMap fun
    | .setting n value => if n = name then some value else none
    | _ => none

/-- The value of an option that is given once at most. -/
def value? (name : String) (l : List Item) : Except Misuse (Option String) :=
  match values name l with
  | [] => .ok none
  | [value] => .ok (some value)
  | _ => .error (.repeatedOption name)

/-- Whether an option without a value is given; it is given once at most. -/
def isSet (name : String) (l : List Item) : Except Misuse Bool :=
  match l.count (.flag name) with
  | 0 => .ok false
  | 1 => .ok true
  | _ => .error (.repeatedOption name)

/-- The operand of a command that takes one at most. -/
def operand? (l : List Item) : Except Misuse (Option String) :=
  match operands l with
  | [] => .ok none
  | [text] => .ok (some text)
  | _ :: text :: _ => .error (.surplus text)

end Item

end GroupedArith
