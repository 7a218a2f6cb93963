/-
# `GroupedArith.Proofs.Composition` — code inside other code

Two pieces of code are interchangeable if no program can tell them apart:
whatever comes before them and after them, the outcome is the same, be it what
is printed, a fault or its line (`Interchangeable`).

## What is proved

The bodies of two expressions are interchangeable if and only if the expressions
have the same value (`Coder.value_eq_iff_interchangeable`).  Nothing else of an
expression shows: not its size, not the lines of its instructions, and not the
values that are on the stack while it is computed.

From left to right this says that a body never prints, never fails and leaves
alone what is below it, on any stack that the program before it can lead to
(`Machine.outcome_run_body`); the programs around it may fail or leave values
behind as they like.  From right to left a single PRINT tells two values apart.
-/
import GroupedArith.Proofs.Compilation

namespace GroupedArith

namespace Machine

/-- What comes after a program matters only by its outcome on the stack that it finds. -/
theorem outcome_run_append_congr {q q' : List Instruction}
    (h : ∀ m : Machine, (m.run q).outcome = (m.run q').outcome) (m : Machine)
    (p : List Instruction) : (m.run (p ++ q)).outcome = (m.run (p ++ q')).outcome := by
  induction p generalizing m with
  | nil => exact h m
  | cons i p ih =>
      rw [List.cons_append, List.cons_append, outcome_run_cons, outcome_run_cons]
      rcases m.step i with ⟨m', fault | printed⟩
      · rfl
      · exact congrArg (Except.map (printed.toList ++ ·)) (ih m')

end Machine

/-- In any program either piece of code can stand for the other. -/
def Interchangeable (a b : List Instruction) : Prop :=
  ∀ (m : Machine) (p q : List Instruction),
    (m.execute (p ++ a ++ q)).outcome = (m.execute (p ++ b ++ q)).outcome

theorem interchangeable_of_run {a b : List Instruction}
    (h : ∀ (m : Machine) (q : List Instruction),
      (m.run (a ++ q)).outcome = (m.run (b ++ q)).outcome) : Interchangeable a b := by
  intro m p q
  rw [Machine.execute_eq, Machine.execute_eq, List.append_assoc, List.append_assoc]
  exact Machine.outcome_run_append_congr (fun m' => h m' q) _ p

/-- Expressions of the same value are computed by interchangeable code. -/
theorem Expr.interchangeable_body {e e' : Expr} (h : e.value = e'.value) :
    Interchangeable e.body e'.body := by
  refine interchangeable_of_run fun m q => ?_
  obtain ⟨stack⟩ := m
  rw [Machine.outcome_run_body, Machine.outcome_run_body, h]

/-- A PRINT shows the value. -/
theorem Expr.value_eq_of_interchangeable {e e' : Expr} (h : Interchangeable e.body e'.body) :
    e.value = e'.value := by
  have hprint := h {} [] [⟨.print, 0⟩]
  rw [List.nil_append, List.nil_append, Machine.execute_eq, Machine.execute_eq,
    Machine.outcome_run_body, Machine.outcome_run_body] at hprint
  have hanswers : [Answer.mk e.value 0] = [Answer.mk e'.value 0] := Except.ok.inj hprint
  exact congrArg Answer.value (List.singleton_inj.mp hanswers)

/-- Without its PRINT, code is the body of its expression. -/
theorem Coder.dropLast_generate (c : Coder) (e : Expr) : (c.generate e).1.dropLast = e.body := by
  rw [generate_eq, Expr.code, List.dropLast_concat]

/-- Two expressions have the same value if and only if no program can tell apart what is written for
them, less the PRINT. -/
theorem Coder.value_eq_iff_interchangeable (c c' : Coder) (e e' : Expr) :
    e.value = e'.value ↔
      Interchangeable (c.generate e).1.dropLast (c'.generate e').1.dropLast := by
  rw [dropLast_generate, dropLast_generate]
  constructor
  · exact Expr.interchangeable_body
  · exact Expr.value_eq_of_interchangeable

end GroupedArith
