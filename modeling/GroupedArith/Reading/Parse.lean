/-
# `GroupedArith.Reading.Parse` — reading a whole source

A source is read one top-level expression after the other, up to its end or to
the first error.

    c.readings    the steps, the last of which finds the end or the error
    parse s       the expressions of `s`, or its error

`gather` is the rule for what a sequence of attempts amounts to: the values up
to the first attempt that finds nothing, unless an attempt before that fails.
-/
import GroupedArith.Reading.Step

namespace GroupedArith

/-- The values found before the first attempt that finds none, or the first error. -/
def gather {ε α : Type} : List (Except ε (Option α)) → Except ε (List α)
  | [] => .ok []
  | .ok (some a) :: more => (gather more).map (a :: ·)
  | .ok none :: _ => .ok []
  | .error e :: _ => .error e

/-- The reading steps from a cursor up to the end of the source or the first error. -/
def Cursor.readings (c : Cursor) : List (Step (Except SyntaxError (Option Expr))) :=
  c.readExpr ::
    match _ : c.readExpr.answer with
    | .ok (some _) => c.readExpr.cursor.readings
    | _ => []
termination_by c.rest.length
decreasing_by exact Cursor.rest_readExpr_lt ‹_›

/-- The expressions of a source, or the first error in it. -/
def parse (source : String) : Except SyntaxError (List Expr) :=
  gather ((Cursor.ofString source).readings.map Step.answer)

end GroupedArith
