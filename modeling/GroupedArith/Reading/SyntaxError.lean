/-
# `GroupedArith.Reading.SyntaxError` — what can be wrong with a source

There are three ways in which a source fails to be a sequence of expressions.
Each carries the line of the token at which it shows, which is the last token
that was read.
-/

namespace GroupedArith

/-- Why a source could not be read. -/
inductive SyntaxError where
  /-- An expression is due, and the token opens none. -/
  | missingExpression (line : Nat)
  /-- An operator is due after the left operand of a group. -/
  | missingOperator (line : Nat)
  /-- A group has both operands and is not closed; `fragment` is the group so far. -/
  | missingClosingParen (line : Nat) (fragment : String)
  deriving DecidableEq, Repr

namespace SyntaxError

/-- The line of the token that is at fault. -/
def line : SyntaxError → Nat
  | missingExpression n => n
  | missingOperator n => n
  | missingClosingParen n _ => n

def message (e : SyntaxError) : String :=
  "Syntax error at line " ++ toString e.line ++ ": " ++
    match e with
    | missingExpression _ => "missing expression"
    | missingOperator _ => "missing operator"
    | missingClosingParen _ fragment => "missing closing parenthesis after " ++ fragment

end SyntaxError

end GroupedArith
