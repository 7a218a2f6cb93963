/-
# `GroupedArith.Code.Execution` — the stack machine

A `Machine` keeps its stack between programs, and each execution starts by
clearing it.  An execution ends in one of three ways:

    every instruction found its values, none is left     the values printed
    an instruction finds too few values                  `Fault.underflow`, its line
    values are left at the end                           `Fault.leftover`, how many

The instruction that underflows takes the values that are there.  An
`Execution` also tells which instructions were visited, each with the stack
that it found.

The arithmetic is the machine's own: words of 64 bits, which wrap.  The value
on top of the stack is the right operand.
-/
import GroupedArith.Expr.Value
import GroupedArith.Code.Instruction

namespace GroupedArith

/-- Why a program has no result. -/
inductive Fault where
  /-- The instruction on this line found too few values on the stack. -/
  | underflow (line : Nat)
  /-- So many values were left on the stack. -/
  | leftover (count : Nat)
  deriving DecidableEq, Repr

def Fault.message : Fault → String
  | .underflow n => "Stack machine error at line " ++ toString n ++ ": stack underflow"
  | .leftover k => "Stack machine error: " ++ toString k ++ " value(s) left on the stack"

structure Machine where
  stack : List Int64 := []
  deriving DecidableEq, Repr

/-- An instruction and the stack that it found, the top value first. -/
structure Visit where
  instruction : Instruction
  stack : List Int64
  deriving DecidableEq, Repr

/-- The visit in a listing, with the stack from the bottom up. -/
def Visit.text (v : Visit) : String :=
  v.instruction.text ++ " stack=[" ++
    ", ".intercalate (v.stack.reverse.map fun w => toString w.toInt) ++ "]"

/-- What became of a program. -/
structure Execution where
  visits : List Visit
  /-- The values printed, or the fault. -/
  outcome : Except Fault (List Answer)
  machine : Machine

namespace Machine

/-- Executes one instruction; what it prints, if anything, is the answer. -/
def step (m : Machine) (i : Instruction) : Machine × Except Fault (Option Answer) :=
  match i.opcode, m.stack with
  | .push v, stack => (⟨word v :: stack⟩, .ok none)
  | .add, b :: a :: stack => (⟨(a + b) :: stack⟩, .ok none)
  | .mul, b :: a :: stack => (⟨(a * b) :: stack⟩, .ok none)
  | .print, a :: stack => (⟨stack⟩, .ok (some ⟨a, i.line⟩))
  | _, _ => (⟨[]⟩, .error (.underflow i.line))

/-- What a program that has come to its end has printed since: nothing, unless values are left. -/
def finish (m : Machine) : Except Fault (List Answer) :=
  if m.stack.isEmpty then .ok [] else .error (.leftover m.stack.length)

/-- Executes a program on the stack as it is. -/
def run (m : Machine) : List Instruction → Execution
  | [] => ⟨[], m.finish, m⟩
  | i :: program =>
    match m.step i with
    | (m', .error fault) => ⟨[⟨i, m.stack⟩], .error fault, m'⟩
    | (m', .ok printed) =>
      let rest := m'.run program
      ⟨⟨i, m.stack⟩ :: rest.visits, rest.outcome.map (printed.toList ++ ·), rest.machine⟩

def clear (m : Machine) : Machine := { m with stack := [] }

/-- Executes a program on a cleared stack. -/
def execute (m : Machine) (program : List Instruction) : Execution := m.clear.run program

end Machine

end GroupedArith
