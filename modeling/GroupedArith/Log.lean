/-
# `GroupedArith.Log` — what a run tells about itself

An `Event` is one message of the log.  Its level says how much detail it is,
and its target which part of the program speaks:

    ERROR    a group that is not closed
    WARN     a value printed by the machine that is not the value of the expression
    INFO     the end of the source, a file that is about to be read
    DEBUG    each top-level expression, its code whenever it is written, its value
    TRACE    each token, the end of the source included, and each instruction
             before it is executed

The log keeps the events up to the chosen level of detail.
-/
import GroupedArith.Reading.Step
import GroupedArith.Report
import GroupedArith.Text.Column

namespace GroupedArith

/-- Levels of detail, from the fewest messages to the most. -/
inductive Level where
  | error
  | warn
  | info
  | debug
  | trace
  deriving DecidableEq, Repr

namespace Level

def rank : Level → Nat
  | error => 1
  | warn => 2
  | info => 3
  | debug => 4
  | trace => 5

def name : Level → String
  | error => "ERROR"
  | warn => "WARN"
  | info => "INFO"
  | debug => "DEBUG"
  | trace => "TRACE"

/-- The level that a log is to be kept to, by its name in any case: `some none` for a log that is
off, and `none` for a name that means nothing. -/
def ofSetting? (setting : String) : Option (Option Level) :=
  match setting.map Char.toUpper with
  | "OFF" => some none
  | "ERROR" => some (some error)
  | "WARN" => some (some warn)
  | "INFO" => some (some info)
  | "DEBUG" => some (some debug)
  | "TRACE" => some (some trace)
  | _ => none

/-- The level of the log under a setting that may be missing or mean nothing: then warnings and
errors are kept. -/
def ofSetting (setting? : Option String) : Option Level :=
  (setting?.bind ofSetting?).getD (some warn)

end Level

inductive Event where
  | token (t : Token)
  | parsed (e : Expr)
  /-- A group was not closed: so far it goes, and there something else was found. -/
  | unclosed (fragment : String) (found : Char)
  /-- Code of this size was written for an expression. -/
  | generated (e : Expr) (size : Nat)
  | evaluated (e : Expr) (value : Int64)
  | executing (v : Visit)
  /-- The machine printed a value where another one was expected. -/
  | unexpected (printed expected : Int64)
  /-- The source came to its end after so many expressions. -/
  | ended (count : Nat)
  | opening (path : String)
  deriving DecidableEq, Repr

namespace Event

def level : Event → Level
  | token _ => .trace
  | parsed _ => .debug
  | unclosed _ _ => .error
  | generated _ _ => .debug
  | evaluated _ _ => .debug
  | executing _ => .trace
  | unexpected _ _ => .warn
  | ended _ => .info
  | opening _ => .info

def target : Event → String
  | token _ => "paren_calc::parser::lexer"
  | parsed _ => "paren_calc::parser::parser"
  | unclosed _ _ => "paren_calc::parser::parser"
  | generated _ _ => "paren_calc::backends::codegen"
  | evaluated _ _ => "paren_calc::backends::interpreter"
  | executing _ => "paren_calc::backends::machine"
  | unexpected _ _ => "paren_calc"
  | ended _ => "paren_calc::driver"
  | opening _ => "paren_calc"

def message : Event → String
  | token t => "token " ++ t.text ++ " at line " ++ toString t.line
  | parsed e => "parsed " ++ e.render ++ " at line " ++ toString e.line
  | unclosed fragment found =>
    "expression: " ++ fragment ++ " <- expected ')', found '" ++ found.toString ++ "'"
  | generated e size => "generated " ++ toString size ++ " instruction(s) for " ++ e.render
  | evaluated e value => e.render ++ " = " ++ toString value.toInt
  | executing v => v.text
  | unexpected printed expected =>
    "stack machine printed " ++ toString printed.toInt ++ ", interpreter gave " ++
      toString expected.toInt
  | ended count => "end of input after " ++ toString count ++ " expression(s)"
  | opening path => "reading " ++ path

/-- Whether a log of this level keeps the event; a log without a level is off. -/
def isKept (limit : Option Level) (e : Event) : Bool :=
  match limit with
  | some l => e.level.rank ≤ l.rank
  | none => false

/-- The event as a line of the log, the level in five columns. -/
def line (e : Event) : String :=
  leftAligned 5 e.level.name ++ " [" ++ e.target ++ "] " ++ e.message ++ "\n"

end Event

/-! ## What each part reports -/

/-- The events of a reading step: its tokens, then what they amount to. -/
def Step.events (s : Step (Except SyntaxError (Option Expr))) : List Event :=
  s.tokens.map .token ++
    match s.answer with
    | .ok (some e) => [.parsed e]
    | .error (.missingClosingParen _ fragment) => [.unclosed fragment s.cursor.current.char]
    | _ => []

/-- The events of writing the code of an expression. -/
def Coder.events (e : Expr) (c : Coder) : List Event := [.generated e (c.generate e).1.length]

def Reporter.events (e : Expr) : Reporter → List Event
  | coder c => c.events e
  | evaluator => [.evaluated e e.value]

def Execution.events (x : Execution) : List Event := x.visits.map .executing

end GroupedArith
