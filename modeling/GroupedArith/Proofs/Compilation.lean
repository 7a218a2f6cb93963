/-
# `GroupedArith.Proofs.Compilation` — the code of an expression computes its value

## What is proved

For every expression `e`, every stack and every program `q` that follows:

    running  e.body ++ q  on the stack   =   running  q  with `e.value` on top of it

The statement has to speak of any stack and of what comes after: the right
operand of a group is computed while the value of the left one is waiting below,
and the operator follows both.

## Used again and again

A `Bench` is a coder and a machine that serve for one expression after the
other, and for programs of any kind in between.  A program that faults may leave
values on the stack; the next execution clears it.  A coder begins each code on
an empty page.  So nothing that was done before shows in what is printed
(`Bench.execute_generate`).
-/
import GroupedArith.Code.OfExpr
import GroupedArith.Code.Execution

namespace GroupedArith

/-! ## One instruction -/

namespace Machine

/-- What the first instruction does to the outcome of a program. -/
theorem outcome_run_cons (m : Machine) (i : Instruction) (q : List Instruction) :
    (m.run (i :: q)).outcome =
      match m.step i with
      | (_, .error fault) => .error fault
      | (m', .ok printed) => (m'.run q).outcome.map (printed.toList ++ ·) := by
  rcases h : m.step i with ⟨m', fault | printed⟩
  · simp only [run, h]
  · simp only [run, h]

theorem outcome_run_push (stack : List Int64) (v : UInt8) (n : Nat) (q : List Instruction) :
    (run ⟨stack⟩ (⟨.push v, n⟩ :: q)).outcome = (run ⟨word v :: stack⟩ q).outcome := by
  rw [outcome_run_cons]
  exact congrFun Except.map_id _

/-- The value on top of the stack is the right operand. -/
theorem outcome_run_opcode (stack : List Int64) (a b : Int64) (o : Op) (n : Nat)
    (q : List Instruction) :
    (run ⟨b :: a :: stack⟩ (⟨o.opcode, n⟩ :: q)).outcome =
      (run ⟨o.apply a b :: stack⟩ q).outcome := by
  rw [outcome_run_cons]
  cases o with
  | add => exact congrFun Except.map_id _
  | mul => exact congrFun Except.map_id _

theorem outcome_run_print (stack : List Int64) (a : Int64) (n : Nat) (q : List Instruction) :
    (run ⟨a :: stack⟩ (⟨.print, n⟩ :: q)).outcome =
      (run ⟨stack⟩ q).outcome.map (⟨a, n⟩ :: ·) := by
  rw [outcome_run_cons]
  rfl

/-! ## A whole expression -/

/-- The body of an expression puts its value on top of any stack, prints nothing and does not
fail. -/
theorem outcome_run_body (e : Expr) (stack : List Int64) (q : List Instruction) :
    (run ⟨stack⟩ (e.body ++ q)).outcome = (run ⟨e.value :: stack⟩ q).outcome := by
  induction e generalizing stack q with
  | digit v n => exact outcome_run_push stack v n q
  | group l o r n ihl ihr =>
      calc (run ⟨stack⟩ ((Expr.group l o r n).body ++ q)).outcome
          = (run ⟨stack⟩ (l.body ++ (r.body ++ (⟨o.opcode, n⟩ :: q)))).outcome := by
            simp only [Expr.body, List.append_assoc, List.cons_append, List.nil_append]
        _ = (run ⟨l.value :: stack⟩ (r.body ++ (⟨o.opcode, n⟩ :: q))).outcome := ihl _ _
        _ = (run ⟨r.value :: l.value :: stack⟩ (⟨o.opcode, n⟩ :: q)).outcome := ihr _ _
        _ = (run ⟨o.apply l.value r.value :: stack⟩ q).outcome := outcome_run_opcode _ _ _ _ _ _

/-- The code of an expression prints its value, and leaves the stack as it was. -/
theorem outcome_run_code (e : Expr) (stack : List Int64) (q : List Instruction) :
    (run ⟨stack⟩ (e.code ++ q)).outcome =
      (run ⟨stack⟩ q).outcome.map (Answer.ofExpr e :: ·) := by
  rw [Expr.code, List.append_assoc, outcome_run_body]
  exact outcome_run_print stack e.value e.line q

/-- An execution does not see what an earlier one has left on the stack. -/
theorem execute_eq (m : Machine) (program : List Instruction) :
    m.execute program = run ⟨[]⟩ program := rfl

/-- Executed on any machine, the code of an expression prints the answer to it and nothing else. -/
theorem outcome_execute_code (m : Machine) (e : Expr) :
    (m.execute e.code).outcome = .ok [.ofExpr e] := by
  have h := outcome_run_code e [] []
  rw [List.append_nil] at h
  rw [execute_eq, h]
  rfl

end Machine

/-! ## A coder and a machine with a past -/

/-- A coder and a machine that are used again and again. -/
structure Bench where
  coder : Coder := {}
  machine : Machine := {}

namespace Bench

inductive Use where
  | generate (e : Expr)
  /-- The machine executes a program, whatever becomes of it. -/
  | execute (program : List Instruction)

def use (b : Bench) : Use → Bench
  | .generate e => { b with coder := (b.coder.generate e).2 }
  | .execute program => { b with machine := (b.machine.execute program).machine }

/-- The bench after a history of uses, the first one first. -/
def after (history : List Use) : Bench := history.foldl use {}

/-- Whatever a coder and a machine were used for before, the code of an expression is executed
without a fault and prints one answer: the value of the expression, on its line. -/
theorem execute_generate (history : List Use) (e : Expr) :
    ((after history).machine.execute ((after history).coder.generate e).1).outcome =
        .ok [Answer.ofExpr e] ∧
      (Answer.ofExpr e).value = e.value ∧ (Answer.ofExpr e).line = e.line := by
  rw [Coder.generate_eq]
  exact ⟨Machine.outcome_execute_code _ e, rfl, rfl⟩

end Bench

end GroupedArith
