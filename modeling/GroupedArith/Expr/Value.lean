/-
# `GroupedArith.Expr.Value` — what an expression is worth

Values are 64-bit integers in two's complement, and sums and products wrap.
`Expr.value` goes over the tree; an `Answer` is a value together with the line
of the expression that it belongs to.
-/
import GroupedArith.Expr.Basic

namespace GroupedArith

/-- The operation that an operator stands for, on words. -/
def Op.apply : Op → Int64 → Int64 → Int64
  | .add, a, b => a + b
  | .mul, a, b => a * b

def word (v : UInt8) : Int64 := .ofNat v.toNat

def Expr.value : Expr → Int64
  | .digit v _ => word v
  | .group l o r _ => o.apply l.value r.value

/-- A value, and the line of the expression that has it. -/
structure Answer where
  value : Int64
  line : Nat
  deriving DecidableEq, Repr

namespace Answer

def ofExpr (e : Expr) : Answer := ⟨e.value, e.line⟩

def text (a : Answer) : String :=
  "LINE " ++ toString a.line ++ ": " ++ toString a.value.toInt

end Answer

end GroupedArith
