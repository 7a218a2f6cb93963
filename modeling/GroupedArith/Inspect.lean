/-
# `GroupedArith.Inspect` — every value written out in full

For each kind of value its `Form`: the names of its parts and what they hold.
A tree in this form shows the line of every node, and a failure shows its
cause, which the sentences that are meant for a reader leave out.
-/
import GroupedArith.Session
import GroupedArith.Text.Form
import GroupedArith.Text.Quoted

namespace GroupedArith

def Form.ofInt64 (v : Int64) : Form := .atom (toString v.toInt)

/-! ## Tokens and trees -/

/-- The class of a token; the digit or the character is told by the token itself. -/
def Token.Kind.form : Token.Kind → Form
  | .unread => .atom "Invalid"
  | .endOfInput => .atom "EndOfInput"
  | .digit _ => .atom "Digit"
  | .symbol _ => .atom "Char"

def Token.form (t : Token) : Form :=
  .record "Token"
    [("class", t.kind.form), ("character", .atom (quotedChar t.char)), ("line", .ofNat t.line)]

def Op.form : Op → Form
  | .add => .atom "Add"
  | .mul => .atom "Mul"

def Expr.form : Expr → Form
  | .digit v n => .record "Digit" [("value", .ofNat v.toNat), ("line", .ofNat n)]
  | .group l o r n =>
    .record "Parenthesized"
      [("left", l.form), ("op", o.form), ("right", r.form), ("line", .ofNat n)]

/-! ## Code and reports -/

def Opcode.form : Opcode → Form
  | .push v => .tuple "Push" [.ofNat v.toNat]
  | .add => .atom "Add"
  | .mul => .atom "Mul"
  | .print => .atom "Print"

def Instruction.form (i : Instruction) : Form :=
  .record "Instruction" [("opcode", i.opcode.form), ("line", .ofNat i.line)]

def Answer.form (a : Answer) : Form :=
  .record "Evaluation" [("value", .ofInt64 a.value), ("line", .ofNat a.line)]

def Record.form : Record → Form
  | .instruction i => .tuple "Instruction" [i.form]
  | .result a => .tuple "Result" [a.form]

def Engine.form : Engine → Form
  | .coder => .atom "Codegen"
  | .evaluator => .atom "Interpreter"

def Report.form (r : Report) : Form :=
  .record "ExpressionOutput"
    [("expression", r.expr.form), ("records", .list (r.records.map Record.form))]

/-! ## Failures -/

def SyntaxError.form : SyntaxError → Form
  | .missingExpression n => .record "MissingExpression" [("line", .ofNat n)]
  | .missingOperator n => .record "MissingOperator" [("line", .ofNat n)]
  | .missingClosingParen n fragment =>
    .record "MissingClosingParen"
      [("line", .ofNat n), ("partial", .atom (quotedText fragment))]

def Fault.form : Fault → Form
  | .underflow n => .record "StackUnderflow" [("line", .ofNat n)]
  | .leftover k => .record "UnbalancedStack" [("remaining", .ofNat k)]

/-- A reason that the operating system gives: its number, its kind and its words. -/
def osErrorForm (code : Nat) (kind reason : String) : Form :=
  .record "Os"
    [("code", .ofNat code), ("kind", .atom kind), ("message", .atom (quotedText reason))]

def FileError.form : FileError → Form
  | .notFound => osErrorForm 2 "NotFound" "No such file or directory"
  | .isDirectory => osErrorForm 21 "IsADirectory" "Is a directory"
  | .notDirectory => osErrorForm 20 "NotADirectory" "Not a directory"
  | .denied => osErrorForm 13 "PermissionDenied" "Permission denied"
  | .notText =>
    .record "Error"
      [("kind", .atom "InvalidData"),
        ("message", .atom (quotedText "stream did not contain valid UTF-8"))]
  | .other reason =>
    .record "Custom" [("kind", .atom "Other"), ("error", .atom (quotedText reason))]

def Failure.form : Failure → Form
  | .source e => e.form
  | .machine e => e.form
  | .unknownEngine name => .record "UnknownBackend" [("name", .atom (quotedText name))]
  | .file e => .record "IoError" [("source", e.form)]

/-- The form of an outcome: a value or the failure in its place. -/
def outcomeForm {ε α : Type} (error : ε → Form) (value : α → Form) : Except ε α → Form
  | .ok a => .tuple "Ok" [value a]
  | .error e => .tuple "Err" [error e]

/-- The form of the reports of all engines on a source, or of the error in it. -/
def reportAllForm (source : String) : Form :=
  outcomeForm SyntaxError.form (fun reports => .list (reports.map Report.form)) (reportAll source)

end GroupedArith
