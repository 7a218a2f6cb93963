/-
# `GroupedArith.Proofs.Relining` — the lines are carried along, never looked at

Every line in a tree, in what the reader has in hand, or in an error is the line
of some token.  `mapLines f` puts `f n` in place of each line `n`, on every level:

    Token, SyntaxError                             mapLine
    Expr, OpenGroup, Awaiting, Progress, Reached   mapLines

## What is proved

Reading does not depend on the lines: for every `f` it makes no difference
whether the tokens are moved by `f` first and then read, or read first and what
they lead to moved afterwards (`Reached.advance?_mapLines`), and the same holds
of the answer when a token is refused (`Reached.verdict_mapLine`).  With
`f n = n + k` this is a text further down, with `f n = 0` a text without lines.
-/
import GroupedArith.Proofs.Refusal

namespace GroupedArith

/-! ## Other lines -/

def Token.mapLine (f : Nat → Nat) (t : Token) : Token := { t with line := f t.line }

def Expr.mapLines (f : Nat → Nat) : Expr → Expr
  | digit v n => digit v (f n)
  | group l o r n => group (l.mapLines f) o (r.mapLines f) (f n)

def OpenGroup.mapLines (f : Nat → Nat) : OpenGroup → OpenGroup
  | left n => left (f n)
  | right n l o => right (f n) (l.mapLines f) o

def Awaiting.mapLines (f : Nat → Nat) : Awaiting → Awaiting
  | operand outer => operand (outer.map (OpenGroup.mapLines f))
  | operator n l outer => operator (f n) (l.mapLines f) (outer.map (OpenGroup.mapLines f))
  | closing n l o r outer =>
    closing (f n) (l.mapLines f) o (r.mapLines f) (outer.map (OpenGroup.mapLines f))

def Progress.mapLines (f : Nat → Nat) : Progress → Progress
  | more a => more (a.mapLines f)
  | done e => done (e.mapLines f)

def Reached.mapLines (f : Nat → Nat) (r : Reached) : Reached :=
  ⟨r.exprs.map (Expr.mapLines f), r.awaiting.mapLines f⟩

def SyntaxError.mapLine (f : Nat → Nat) : SyntaxError → SyntaxError
  | missingExpression n => missingExpression (f n)
  | missingOperator n => missingOperator (f n)
  | missingClosingParen n fragment => missingClosingParen (f n) fragment

/-- The answer of a reading step, with other lines. -/
def mapReading (f : Nat → Nat) :
    Except SyntaxError (Option Expr) → Except SyntaxError (Option Expr)
  | .ok e? => .ok (e?.map (Expr.mapLines f))
  | .error e => .error (e.mapLine f)

/-- An answer about a source, with other lines. -/
def mapAnswer (f : Nat → Nat) : Except SyntaxError (List Expr) → Except SyntaxError (List Expr)
  | .ok es => .ok (es.map (Expr.mapLines f))
  | .error e => .error (e.mapLine f)

variable (f : Nat → Nat)

/-! ## What does not change -/

@[simp] theorem Token.line_mapLine (t : Token) : (t.mapLine f).line = f t.line := rfl

@[simp] theorem Token.isEndOfInput_mapLine (t : Token) :
    (t.mapLine f).isEndOfInput = t.isEndOfInput := rfl

@[simp] theorem Expr.render_mapLines (e : Expr) : (e.mapLines f).render = e.render := by
  induction e with
  | digit v n => rfl
  | group l o r n ihl ihr => simp only [mapLines, render, ihl, ihr]

@[simp] theorem Expr.renderOpen_mapLines (l : Expr) (o : Op) (r : Expr) :
    renderOpen (l.mapLines f) o (r.mapLines f) = renderOpen l o r := by
  simp only [renderOpen, render_mapLines]

/-! ## Reading -/

theorem Progress.mapLines_ofExpr (e : Expr) (outer : List OpenGroup) :
    (ofExpr e outer).mapLines f = ofExpr (e.mapLines f) (outer.map (OpenGroup.mapLines f)) := by
  cases outer with
  | nil => rfl
  | cons g outer => cases g <;> rfl

theorem Awaiting.Accepts.mapLines {a : Awaiting} {t : Token} {p : Progress} (h : a.Accepts t p) :
    (a.mapLines f).Accepts (t.mapLine f) (p.mapLines f) := by
  cases h with
  | digit outer d n =>
      rw [Progress.mapLines_ofExpr]
      exact .digit _ d (f n)
  | opens outer n => exact .opens _ (f n)
  | operator n l outer o m => exact .operator (f n) _ _ o (f m)
  | closes n l o r outer k =>
      rw [Progress.mapLines_ofExpr]
      exact .closes (f n) _ o _ _ (f k)

theorem Awaiting.accept?_mapLines_eq_none {a : Awaiting} {t : Token} (h : a.accept? t = none) :
    (a.mapLines f).accept? (t.mapLine f) = none := by
  rw [accept?_eq_none_iff] at h ⊢
  cases a with
  | operand => exact h
  | operator => exact h
  | closing => exact h

theorem Awaiting.refuse_mapLines (a : Awaiting) (t : Token) :
    (a.mapLines f).refuse (t.mapLine f) = mapReading f (a.refuse t) := by
  cases a with
  | operand outer =>
      cases outer with
      | nil => rfl
      | cons g outer => rfl
  | operator n l outer => rfl
  | closing n l o r outer =>
      show Except.error _ = Except.error _
      rw [Expr.renderOpen_mapLines]
      rfl

theorem Token.unlessEnd_mapLine (t : Token) (answer : Except SyntaxError (Option Expr)) :
    (t.mapLine f).unlessEnd (mapReading f answer) = mapReading f (t.unlessEnd answer) := by
  cases answer with
  | error err => rfl
  | ok e? =>
      cases e? with
      | none =>
          rw [unlessEnd, mapReading, Option.map_none, unlessEnd, isEndOfInput_mapLine]
          split
          · rfl
          · rfl
      | some e => rfl

theorem Awaiting.complaint?_mapLines (a : Awaiting) (t : Token) :
    (a.mapLines f).complaint? (t.mapLine f) = (a.complaint? t).map (SyntaxError.mapLine f) := by
  rw [complaint?, complaint?, refuse_mapLines, Token.unlessEnd_mapLine]
  cases t.unlessEnd (a.refuse t) with
  | ok e? => rfl
  | error err => rfl

namespace Reached

theorem mapLines_ofProgress (es : List Expr) (p : Progress) :
    (ofProgress es p).mapLines f = ofProgress (es.map (Expr.mapLines f)) (p.mapLines f) := by
  cases p with
  | more a => rfl
  | done e => simp [ofProgress, mapLines, Progress.mapLines, Awaiting.mapLines]

/-- Reading tokens on other lines leads to the same, on other lines. -/
theorem advance?_mapLines {r r' : Reached} {ts : List Token} (h : r.advance? ts = some r') :
    (r.mapLines f).advance? (ts.map (Token.mapLine f)) = some (r'.mapLines f) := by
  induction ts generalizing r with
  | nil =>
      cases h
      rfl
  | cons t ts ih =>
      obtain ⟨s, hs, hrest⟩ := Option.bind_eq_some_iff.mp h
      obtain ⟨p, hp, rfl⟩ := Option.map_eq_some_iff.mp hs
      have hstep := (Awaiting.accept?_eq_some_iff.mp hp).mapLines f
      rw [List.map_cons, mapLines, advance?_cons _ hstep, ← mapLines_ofProgress]
      exact ih hrest

theorem verdict_mapLine (r : Reached) (t : Token) :
    (r.mapLines f).verdict (t.mapLine f) = mapAnswer f (r.verdict t) := by
  rw [verdict, verdict, mapLines, Awaiting.complaint?_mapLines]
  cases r.awaiting.complaint? t with
  | none => rfl
  | some e => rfl

end Reached

end GroupedArith
