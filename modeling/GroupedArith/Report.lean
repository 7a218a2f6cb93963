/-
# `GroupedArith.Report` — what is reported on an expression

There are two engines.  Each reports on one expression at a time:

    coder        its code, a record for each instruction
    evaluator    its value, in a single record

An engine at work is a `Reporter`; the one that writes code keeps its `Coder`
from one expression to the next.  What it says depends on the expression alone
all the same (`Reporter.records_eq`), as if it had just been set to work.

A `Report` holds what the selected engines say, in the order of the selection;
an engine that is selected twice speaks twice.
-/
import GroupedArith.Expr.Value
import GroupedArith.Code.OfExpr
import GroupedArith.Failure

namespace GroupedArith

/-- One line of a report. -/
inductive Record where
  | instruction (i : Instruction)
  | result (a : Answer)
  deriving DecidableEq, Repr

/-- The record as a line of output. -/
def Record.text : Record → String
  | .instruction i => i.text
  | .result a => a.text

/-- Records as they are printed, each on a line of its own. -/
def recordLines (ks : List Record) : String := String.join (ks.map fun k => k.text ++ "\n")

/-- Who reports on expressions. -/
inductive Engine where
  /-- Writes code for the stack machine. -/
  | coder
  /-- Evaluates the tree. -/
  | evaluator
  deriving DecidableEq, Repr

namespace Engine

/-- All engines, in the order in which they are listed. -/
def all : List Engine := [coder, evaluator]

def name : Engine → String
  | coder => "codegen"
  | evaluator => "interp"

def description : Engine → String
  | coder => "Stack machine code (PUSH/ADD/MUL/PRINT)"
  | evaluator => "Direct evaluation of the tree"

/-- The engine of this name. -/
def ofName (name : String) : Except Failure Engine :=
  match all.find? fun engine => engine.name == name with
  | some engine => .ok engine
  | none => .error (.unknownEngine name)

/-- The engines of these names, in this order; the first unknown name is the failure. -/
def ofNames (names : List String) : Except Failure (List Engine) := names.mapM ofName

def records (e : Expr) : Engine → List Record
  | coder => e.code.map .instruction
  | evaluator => [.result (.ofExpr e)]

end Engine

/-- An engine at work. -/
inductive Reporter where
  /-- Writes code, with the same coder for every expression. -/
  | coder (c : Coder)
  /-- Evaluates the tree. -/
  | evaluator
  deriving DecidableEq, Repr

namespace Reporter

/-- An engine that is set to work. -/
def ofEngine : Engine → Reporter
  | .coder => coder {}
  | .evaluator => evaluator

def engine : Reporter → Engine
  | coder _ => .coder
  | evaluator => .evaluator

/-- What the reporter says on an expression. -/
def records (e : Expr) : Reporter → List Record
  | coder c => (c.generate e).1.map .instruction
  | evaluator => [.result (.ofExpr e)]

/-- The reporter after an expression. -/
def next (e : Expr) : Reporter → Reporter
  | coder c => coder (c.generate e).2
  | evaluator => evaluator

@[simp] theorem engine_ofEngine (g : Engine) : (ofEngine g).engine = g := by
  cases g <;> rfl

@[simp] theorem engine_next (e : Expr) (r : Reporter) : (r.next e).engine = r.engine := by
  cases r <;> rfl

/-- What is said of an expression does not depend on the expressions before it. -/
theorem records_eq (e : Expr) (r : Reporter) : r.records e = r.engine.records e := by
  cases r with
  | coder c => simp only [records, Coder.generate_eq, engine, Engine.records]
  | evaluator => rfl

end Reporter

/-- The reports on one expression. -/
structure Report where
  expr : Expr
  records : List Record
  deriving DecidableEq, Repr

namespace Report

/-- The report of the given reporters on an expression. -/
def ofExpr (reporters : List Reporter) (e : Expr) : Report where
  expr := e
  records := reporters.flatMap (Reporter.records e)

def instructions (r : Report) : List Instruction :=
  r.records.filterMap fun
    | .instruction i => some i
    | .result _ => none

def result? (r : Report) : Option Answer :=
  r.records.findSome? fun
    | .result a => some a
    | .instruction _ => none

end Report

end GroupedArith
