/-
# `GroupedArith.Reading.Awaiting` — how far an expression has been read

Between two tokens the reader knows which groups are open, how far each of them
got, and what the innermost one needs next:

    awaiting             read of the innermost group     needs
    operand outer        (none of the operand)           a digit or `(`
    operator n l outer   ( l                             `+` or `*`
    closing n l o r outer   ( l o r                      `)`

The groups around it are `outer`, innermost first, and each of them waits for
the operand inside it: `left n` stands for `(` and `right n l o` for `( l o`,
where `n` is the line of the `(`.

One token either takes the reader a step further (`Awaiting.accept?`) or is
refused (`Awaiting.refuse`).  There is no looking ahead: what a token is good
for is settled when it is read, and a refused token is used up as well.
-/
import GroupedArith.Token
import GroupedArith.Expr.Basic
import GroupedArith.Reading.SyntaxError

namespace GroupedArith

/-- A group that waits for one of its operands. -/
inductive OpenGroup where
  | left (line : Nat)
  | right (line : Nat) (left : Expr) (op : Op)
  deriving DecidableEq, Repr

/-- What the reader needs next, inside the open groups `outer`, innermost first. -/
inductive Awaiting where
  | operand (outer : List OpenGroup)
  | operator (line : Nat) (left : Expr) (outer : List OpenGroup)
  | closing (line : Nat) (left : Expr) (op : Op) (right : Expr) (outer : List OpenGroup)
  deriving DecidableEq, Repr

/-- What an accepted token leads to. -/
inductive Progress where
  | more (next : Awaiting)
  /-- The token completes the outermost expression. -/
  | done (e : Expr)
  deriving DecidableEq, Repr

/-- An operand is complete: the group around it goes on, or all is done. -/
def Progress.ofExpr (e : Expr) : List OpenGroup → Progress
  | [] => .done e
  | .left n :: outer => .more (.operator n e outer)
  | .right n l o :: outer => .more (.closing n l o e outer)

namespace Awaiting

/-- The step that a token allows, or `none` if it cannot stand here. -/
def accept? : Awaiting → Token → Option Progress
  | operand outer, ⟨.digit d, n⟩ => some (.ofExpr (.digit (.ofNat d) n) outer)
  | operand outer, ⟨.symbol '(', n⟩ => some (.more (operand (.left n :: outer)))
  | operator n l outer, ⟨.symbol c, _⟩ =>
    (Op.ofChar? c).map fun o => .more (operand (.right n l o :: outer))
  | closing n l o r outer, ⟨.symbol ')', _⟩ => some (.ofExpr (.group l o r n) outer)
  | _, _ => none

/-- The answer when the token `t` is refused.  Outside all groups there is simply no expression;
inside a group that is an error. -/
def refuse (t : Token) : Awaiting → Except SyntaxError (Option Expr)
  | operand [] => .ok none
  | operand (_ :: _) => .error (.missingExpression t.line)
  | operator _ _ _ => .error (.missingOperator t.line)
  | closing _ l o r _ => .error (.missingClosingParen t.line (Expr.renderOpen l o r))

end Awaiting

/-- The end of the source fits nowhere inside an expression. -/
theorem Awaiting.accept?_endOfInput (a : Awaiting) (n : Nat) :
    a.accept? (.endOfInput n) = none := by
  cases a <;> rfl

end GroupedArith
