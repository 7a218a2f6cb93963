/-
# `GroupedArith.Code.OfExpr` — the code of an expression

`e.body` is the expression in postfix order, operands before their operator,
each instruction on the line of its node.  Executed on any stack it puts the
value of `e` on top.  `e.code` prints that value as well, on the line of `e`.

    (9+(5*5))     PUSH 9  PUSH 5  PUSH 5  MUL  ADD  PRINT

A `Coder` writes such code one instruction at a time, and is used for one
expression after the other:

    c.emit o n       one more instruction
    c.compile e      the body of `e` behind what is written already
    c.generate e     the code of `e`, and the coder afterwards

Each code is begun on an empty page and handed out whole, so that nothing of it
stays with the coder (`Coder.generate_eq`).
-/
import GroupedArith.Expr.Basic
import GroupedArith.Code.Instruction

namespace GroupedArith

def Op.opcode : Op → Opcode
  | .add => .add
  | .mul => .mul

def Expr.body : Expr → List Instruction
  | .digit v n => [⟨.push v, n⟩]
  | .group l o r n => l.body ++ r.body ++ [⟨o.opcode, n⟩]

/-- The code that computes an expression and prints its value. -/
def Expr.code (e : Expr) : List Instruction := e.body ++ [⟨.print, e.line⟩]

/-- A writer of code. -/
structure Coder where
  /-- The instructions written so far, in order. -/
  written : Array Instruction := #[]
  deriving DecidableEq, Repr

namespace Coder

/-- Writes one instruction. -/
def emit (c : Coder) (o : Opcode) (line : Nat) : Coder :=
  { c with written := c.written.push ⟨o, line⟩ }

/-- Writes the instructions of an expression, operands first. -/
def compile (c : Coder) : Expr → Coder
  | .digit v n => c.emit (.push v) n
  | .group l o r n => ((c.compile l).compile r).emit o.opcode n

def clear (c : Coder) : Coder := { c with written := #[] }

/-- Writes the code of an expression and hands it out. -/
def generate (c : Coder) (e : Expr) : List Instruction × Coder :=
  let done := (c.clear.compile e).emit .print e.line
  (done.written.toList, done.clear)

/-- What is written already stays in front. -/
theorem toList_written_compile (c : Coder) (e : Expr) :
    (c.compile e).written.toList = c.written.toList ++ e.body := by
  induction e generalizing c with
  | digit v n => simp [compile, emit, Expr.body]
  | group l o r n ihl ihr => simp [compile, emit, Expr.body, ihl, ihr]

/-- Whatever a coder has written before, it writes the code of the expression and keeps nothing. -/
theorem generate_eq (c : Coder) (e : Expr) : c.generate e = (e.code, {}) := by
  simp [generate, emit, clear, toList_written_compile, Expr.code]

end Coder

end GroupedArith
