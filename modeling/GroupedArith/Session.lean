/-
# `GroupedArith.Session` — reporting on a source, one expression at a time

A session reads the expressions of a source one after the other and has the
selected engines report on each.  The engines are set to work once, for the
whole session.

    s.next       the next report, `none` at the end, or the error
    s.replies    what `next` gives, step after step, up to the end or the error
    s.collect    the reports that remain, or the error that cuts them off

The end of the source and the first error finish a session; from then on there
is nothing more to report.
-/
import GroupedArith.Reading.Parse
import GroupedArith.Log

namespace GroupedArith

/-- A run over a source. -/
structure Session where
  /-- Where the next expression is to be read. -/
  cursor : Cursor
  /-- The engines at work, which report on each expression, in order. -/
  reporters : List Reporter
  /-- Whether the end or an error was met. -/
  finished : Bool := false
  count : Nat := 0
  deriving Repr

/-- What one step of a session brings. -/
structure Reply where
  /-- The report, `none` if there are no more, or the error. -/
  answer : Except SyntaxError (Option Report)
  events : List Event
  session : Session

/-- An answer as an element of a sequence: `none` where the sequence has ended. -/
def Session.itemOf : Except SyntaxError (Option Report) → Option (Except SyntaxError Report)
  | .ok (some r) => some (.ok r)
  | .ok none => none
  | .error e => some (.error e)

def Reply.item? (r : Reply) : Option (Except SyntaxError Report) := Session.itemOf r.answer

namespace Session

def ofString (source : String) (engines : List Engine) : Session where
  cursor := .ofString source
  reporters := engines.map .ofEngine

/-- Reads the next expression and has the engines report on it. -/
def next (s : Session) : Reply :=
  if s.finished then ⟨.ok none, [], s⟩
  else
    let step := s.cursor.readExpr
    match step.answer with
    | .ok (some e) =>
      { answer := .ok (some (.ofExpr s.reporters e))
        events := step.events ++ s.reporters.flatMap (Reporter.events e)
        session :=
          { s with
            cursor := step.cursor
            reporters := s.reporters.map (Reporter.next e)
            count := s.count + 1 } }
    | .ok none =>
      { answer := .ok none
        events := step.events ++ [.ended s.count]
        session := { s with cursor := step.cursor, finished := true } }
    | .error error =>
      { answer := .error error
        events := step.events
        session := { s with cursor := step.cursor, finished := true } }

/-- A report takes at least one character of the source. -/
theorem rest_next_lt {s : Session} {r : Report} (h : s.next.answer = .ok (some r)) :
    s.next.session.cursor.rest.length < s.cursor.rest.length := by
  cases finished : s.finished with
  | true => simp [next, finished] at h
  | false =>
    cases answer_eq : s.cursor.readExpr.answer with
    | error e => simp [next, finished, answer_eq] at h
    | ok e? =>
      cases e? with
      | none => simp [next, finished, answer_eq] at h
      | some e => simpa [next, finished, answer_eq] using Cursor.rest_readExpr_lt answer_eq

/-- The replies up to the end of the source or the first error. -/
def replies (s : Session) : List Reply :=
  s.next ::
    match _ : s.next.answer with
    | .ok (some _) => s.next.session.replies
    | _ => []
termination_by s.cursor.rest.length
decreasing_by exact rest_next_lt ‹_›

/-- The reports that remain, or the error that cuts them off. -/
def collect (s : Session) : Except SyntaxError (List Report) := gather (s.replies.map Reply.answer)

/-- The session after all that remains. -/
def drained (s : Session) : Session :=
  match s.replies.getLast? with
  | some reply => reply.session
  | none => s

end Session

/-- The reports of all engines on a source, or the first error in it. -/
def reportAll (source : String) : Except SyntaxError (List Report) :=
  (Session.ofString source Engine.all).collect

end GroupedArith
