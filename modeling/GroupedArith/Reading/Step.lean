/-
# `GroupedArith.Reading.Step` — reading one expression

A reading step starts at a cursor and ends at a cursor.  It reports its answer
and every token that it read, in order; the last of them is the current token
of the cursor where it ends.

    c.readOperand     the expression at `c`, or `none` where none opens
    c.readExpr        the same at top level: `none` at the end of the source only
    c.readOperator    the operator at `c`

An error is an answer like any other.  The cursor then stands behind the token
at fault, and reading may go on from there.

`Cursor.rest_readExpr_lt` says that an expression takes at least one character,
so that a source can be read to its end.
-/
import GroupedArith.Source
import GroupedArith.Reading.Awaiting

namespace GroupedArith

/-- What a reading step did. -/
structure Step (α : Type) where
  answer : α
  /-- The tokens read, in order. -/
  tokens : List Token
  cursor : Cursor
  deriving Repr

/-- The step of one token. -/
def Step.single {α : Type} (c : Cursor) (answer : α) : Step α where
  answer
  tokens := [c.advance.current]
  cursor := c.advance

/-- Puts a token before those of the step. -/
def Step.after {α : Type} (t : Token) (s : Step α) : Step α :=
  { s with tokens := t :: s.tokens }

/-- What an answer at the token `t` comes to at top level: where no expression opens, only the end
of the source may stand. -/
def Token.unlessEnd (t : Token) :
    Except SyntaxError (Option Expr) → Except SyntaxError (Option Expr)
  | .ok none => if t.isEndOfInput then .ok none else .error (.missingExpression t.line)
  | answer => answer

/-- Top level makes no difference to an expression that is read. -/
theorem Token.unlessEnd_eq_ok_some_iff {t : Token} {answer : Except SyntaxError (Option Expr)}
    {e : Expr} : t.unlessEnd answer = .ok (some e) ↔ answer = .ok (some e) := by
  cases answer with
  | error err => exact Iff.rfl
  | ok e? =>
    cases e? with
    | none =>
      rw [unlessEnd]
      split <;> simp
    | some f => exact Iff.rfl

theorem Token.unlessEnd_eq_ok_none_iff {t : Token} {answer : Except SyntaxError (Option Expr)} :
    t.unlessEnd answer = .ok none ↔ answer = .ok none ∧ t.isEndOfInput = true := by
  cases answer with
  | error err => exact iff_of_false nofun nofun
  | ok e? =>
    cases e? with
    | none =>
      rw [unlessEnd]
      split <;> simp [*]
    | some f => exact iff_of_false nofun nofun

/-- The step as one at top level. -/
def Step.unlessEnd (s : Step (Except SyntaxError (Option Expr))) :
    Step (Except SyntaxError (Option Expr)) :=
  { s with answer := s.cursor.current.unlessEnd s.answer }

/-- Reads on from the cursor `c`, whose rest is the last argument, until the expression is
complete or a token is refused. -/
def Awaiting.readFrom (c : Cursor) :
    Awaiting → List Placed → Step (Except SyntaxError (Option Expr))
  | a, [] => .single { c with rest := [] } (a.refuse (.endOfInput c.endLine))
  | a, p :: ps =>
    match a.accept? p.token with
    | some (.more next) => (next.readFrom c ps).after p.token
    | some (.done e) => .single { c with rest := p :: ps } (.ok (some e))
    | none => .single { c with rest := p :: ps } (a.refuse p.token)

namespace Cursor

/-- Reads the expression that opens at the cursor.  Where the next token opens none, that token is
used up and the answer is `none`. -/
def readOperand (c : Cursor) : Step (Except SyntaxError (Option Expr)) :=
  Awaiting.readFrom c (.operand []) c.rest

/-- Reads the next top-level expression.  The answer is `none` at the end of the source; any other
token that opens no expression is an error. -/
def readExpr (c : Cursor) : Step (Except SyntaxError (Option Expr)) :=
  c.readOperand.unlessEnd

/-- Reads one token, which should be an operator. -/
def readOperator (c : Cursor) : Step (Option Op) :=
  .single c (Op.ofChar? c.advance.current.char)

end Cursor

/-! ## Reading an expression uses up characters -/

theorem Awaiting.rest_readFrom_lt {c : Cursor} {e : Expr} {a : Awaiting} {ps : List Placed}
    (h : (a.readFrom c ps).answer = .ok (some e)) :
    (a.readFrom c ps).cursor.rest.length < ps.length := by
  induction ps generalizing a with
  | nil =>
    cases a with
    | operand outer => cases outer <;> simp [Awaiting.readFrom, Step.single, Awaiting.refuse] at h
    | operator => simp [Awaiting.readFrom, Step.single, Awaiting.refuse] at h
    | closing => simp [Awaiting.readFrom, Step.single, Awaiting.refuse] at h
  | cons p ps ih =>
    unfold Awaiting.readFrom at h ⊢
    split at h
    · rename_i next _
      have := ih (a := next) h
      simp only [Step.after, List.length_cons]
      omega
    · simp [Step.single, Cursor.advance]
    · simp [Step.single, Cursor.advance]

/-- A top-level expression takes at least one character. -/
theorem Cursor.rest_readExpr_lt {c : Cursor} {e : Expr}
    (h : c.readExpr.answer = .ok (some e)) :
    c.readExpr.cursor.rest.length < c.rest.length := by
  apply Awaiting.rest_readFrom_lt (e := e)
  exact Token.unlessEnd_eq_ok_some_iff.mp h

end GroupedArith
