/-
# `GroupedArith.Expr.Basic` — grouped sums and products

An expression is a digit or a group of two expressions around an operator, and
every group has its parentheses:

    e  ::=  d  |  ( e o e )         o  ::=  +  |  *

A node carries the line on which it opens, that of its digit or of its `(`.
`Expr.render` writes a tree as the source that it stands for, without layout.
-/

namespace GroupedArith

inductive Op where
  | add
  | mul
  deriving DecidableEq, Repr

/-- The character that an operator is written with. -/
def Op.symbol : Op → Char
  | .add => '+'
  | .mul => '*'

def Op.ofChar? : Char → Option Op
  | '+' => some .add
  | '*' => some .mul
  | _ => none

/-- Expressions.  What is read from a source has digits up to nine; a tree may hold any byte. -/
inductive Expr where
  | digit (value : UInt8) (line : Nat)
  | group (left : Expr) (op : Op) (right : Expr) (line : Nat)
  deriving DecidableEq, Repr

namespace Expr

def line : Expr → Nat
  | digit _ n => n
  | group _ _ _ n => n

def digitCount : Expr → Nat
  | digit _ _ => 1
  | group l _ r _ => l.digitCount + r.digitCount

def depth : Expr → Nat
  | digit _ _ => 0
  | group l _ r _ => 1 + max l.depth r.depth

/-- The expression as a source without layout. -/
def render : Expr → String
  | digit v _ => toString v.toNat
  | group l o r _ => "(" ++ l.render ++ o.symbol.toString ++ r.render ++ ")"

/-- A group that was not closed, as far as it goes. -/
def renderOpen (left : Expr) (op : Op) (right : Expr) : String :=
  "(" ++ left.render ++ op.symbol.toString ++ right.render

end Expr

end GroupedArith
