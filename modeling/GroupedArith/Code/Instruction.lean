/-
# `GroupedArith.Code.Instruction` — the code of a stack machine

    PUSH v    puts a number on the stack
    ADD, MUL  take two values and put back their sum or product
    PRINT     takes a value and prints it

An instruction carries the line of the node that it was made for.
-/

namespace GroupedArith

/-- What an instruction does. -/
inductive Opcode where
  | push (value : UInt8)
  | add
  | mul
  | print
  deriving DecidableEq, Repr

/-- An instruction and its line. -/
structure Instruction where
  opcode : Opcode
  line : Nat
  deriving DecidableEq, Repr

def Opcode.text : Opcode → String
  | .push v => "PUSH " ++ toString v.toNat
  | .add => "ADD"
  | .mul => "MUL"
  | .print => "PRINT"

def Instruction.text (i : Instruction) : String :=
  "LINE " ++ toString i.line ++ ": " ++ i.opcode.text

end GroupedArith
