/-
# `GroupedArith.Proofs.Stages` — the stack while an expression is computed

## What is proved

The code of an expression is executed from its first instruction to its last.  Count the
values on the stack before each instruction and at the end.  The largest number is
`e.peak`, where

    peak of a digit          1
    peak of ( l o r )        the larger of  peak of l  and  peak of r + 1

since the right operand is computed while the value of the left one is waiting below.
It is not larger than the depth of the expression plus one, and not larger than the
number of its digits.  The stack is empty at the beginning and at the end, and nowhere in
between (`Machine.stacks_execute_generate`).

## How

A value on the stack is that of a part of the expression.  So each instruction comes with
the trees whose values it finds, above those that are there already (`Expr.stages`), and
the machine goes through these stages (`Machine.run_body`, `Machine.execute_code`).  What
is said of the stack is said of the stages, by induction on the expression, for any trees
below.
-/
import GroupedArith.Proofs.Compilation

namespace GroupedArith

/-! ## Stages -/

/-- An instruction, and the trees whose values are on the stack that it finds, the top one first. -/
structure Stage where
  instruction : Instruction
  trees : List Expr
  deriving DecidableEq, Repr

def Stage.visit (s : Stage) : Visit := ⟨s.instruction, s.trees.map Expr.value⟩

/-- The instructions of the body of an expression, when the values of the trees are on the stack
already. -/
def Expr.stages : Expr → List Expr → List Stage
  | digit v n, ts => [⟨⟨.push v, n⟩, ts⟩]
  | group l o r n, ts => l.stages ts ++ r.stages (l :: ts) ++ [⟨⟨o.opcode, n⟩, r :: l :: ts⟩]

/-- The instructions of the code of an expression. -/
def Expr.codeStages (e : Expr) : List Stage := e.stages [] ++ [⟨⟨.print, e.line⟩, [e]⟩]

namespace Expr

theorem mem_stages_group {l r : Expr} {o : Op} {n : Nat} {ts : List Expr} {s : Stage} :
    s ∈ (group l o r n).stages ts ↔
      s ∈ l.stages ts ∨ s ∈ r.stages (l :: ts) ∨ s = ⟨⟨o.opcode, n⟩, r :: l :: ts⟩ := by
  rw [stages, List.mem_append, List.mem_append, List.mem_singleton, or_assoc]

theorem map_instruction_stages (e : Expr) (ts : List Expr) :
    (e.stages ts).map Stage.instruction = e.body := by
  induction e generalizing ts with
  | digit v n => rfl
  | group l o r n ihl ihr =>
      rw [stages, List.map_append, List.map_append, ihl, ihr]
      rfl

theorem map_instruction_codeStages (e : Expr) :
    e.codeStages.map Stage.instruction = e.code := by
  rw [codeStages, List.map_append, map_instruction_stages]
  rfl

end Expr

/-! ## The machine goes through the stages -/

/-- An execution that has visited some instructions before. -/
def Execution.behind (visits : List Visit) (x : Execution) : Execution :=
  { x with visits := visits ++ x.visits }

theorem Execution.behind_behind (us vs : List Visit) (x : Execution) :
    (x.behind vs).behind us = x.behind (us ++ vs) := by
  rw [behind, behind, behind, List.append_assoc]

namespace Machine

theorem run_push (stack : List Int64) (v : UInt8) (n : Nat) (q : List Instruction) :
    run ⟨stack⟩ (⟨.push v, n⟩ :: q) =
      (run ⟨word v :: stack⟩ q).behind [⟨⟨.push v, n⟩, stack⟩] := by
  have houtcome := outcome_run_push stack v n q
  exact congrArg (Execution.mk _ · _) houtcome

theorem run_opcode (stack : List Int64) (a b : Int64) (o : Op) (n : Nat) (q : List Instruction) :
    run ⟨b :: a :: stack⟩ (⟨o.opcode, n⟩ :: q) =
      (run ⟨o.apply a b :: stack⟩ q).behind [⟨⟨o.opcode, n⟩, b :: a :: stack⟩] := by
  have houtcome := outcome_run_opcode stack a b o n q
  cases o with
  | add => exact congrArg (Execution.mk _ · _) houtcome
  | mul => exact congrArg (Execution.mk _ · _) houtcome

/-- The machine goes through the stages of the body, and then executes what follows on the value of
the expression. -/
theorem run_body (e : Expr) (ts : List Expr) (q : List Instruction) :
    run ⟨ts.map Expr.value⟩ (e.body ++ q) =
      (run ⟨(e :: ts).map Expr.value⟩ q).behind ((e.stages ts).map Stage.visit) := by
  induction e generalizing ts q with
  | digit v n => exact run_push _ v n q
  | group l o r n ihl ihr =>
      calc run ⟨ts.map Expr.value⟩ ((Expr.group l o r n).body ++ q)
          = run ⟨ts.map Expr.value⟩ (l.body ++ (r.body ++ (⟨o.opcode, n⟩ :: q))) := by
            simp only [Expr.body, List.append_assoc, List.cons_append, List.nil_append]
        _ = (((run ⟨(Expr.group l o r n :: ts).map Expr.value⟩ q).behind
              [⟨⟨o.opcode, n⟩, (r :: l :: ts).map Expr.value⟩]).behind
                ((r.stages (l :: ts)).map Stage.visit)).behind
                  ((l.stages ts).map Stage.visit) := by
            rw [ihl, ihr]
            exact congrArg (Execution.behind _ <| Execution.behind _ ·) (run_opcode _ _ _ o n q)
        _ = (run ⟨(Expr.group l o r n :: ts).map Expr.value⟩ q).behind
              (((Expr.group l o r n).stages ts).map Stage.visit) := by
            rw [Execution.behind_behind, Execution.behind_behind, Expr.stages, List.map_append,
              List.map_append]
            rfl

/-- The whole execution of the code of an expression, on any machine. -/
theorem execute_code (m : Machine) (e : Expr) :
    m.execute e.code = ⟨e.codeStages.map Stage.visit, .ok [.ofExpr e], {}⟩ := by
  have hbody := run_body e [] [⟨.print, e.line⟩]
  rw [execute_eq, Expr.code, Expr.codeStages, List.map_append]
  exact hbody

end Machine

/-! ## The number of values -/

/-- The largest number of values that the code of an expression has on the stack. -/
def Expr.peak : Expr → Nat
  | digit _ _ => 1
  | group l _ r _ => max l.peak (r.peak + 1)

namespace Expr

theorem peak_pos (e : Expr) : 0 < e.peak := by
  induction e with
  | digit v n => exact Nat.one_pos
  | group l o r n ihl _ => exact Nat.lt_of_lt_of_le ihl (Nat.le_max_left _ _)

theorem peak_le_depth (e : Expr) : e.peak ≤ e.depth + 1 := by
  induction e with
  | digit v n => exact Nat.le_refl 1
  | group l o r n ihl ihr =>
      rw [peak, depth]
      omega

theorem digitCount_pos (e : Expr) : 0 < e.digitCount := by
  induction e with
  | digit v n => exact Nat.one_pos
  | group l o r n ihl _ => exact Nat.add_pos_left ihl _

/-- The left operand, which waits below the right one, has a digit at least. -/
theorem peak_le_digitCount (e : Expr) : e.peak ≤ e.digitCount := by
  induction e with
  | digit v n => exact Nat.le_refl 1
  | group l o r n ihl ihr =>
      have hl := l.digitCount_pos
      rw [peak, digitCount]
      omega

section Stages
variable {e : Expr} {ts : List Expr}

/-- The first instruction finds the trees that are there already, and each one behind it finds more
of them. -/
theorem exists_stages_eq_cons (e : Expr) (ts : List Expr) :
    ∃ i rest, e.stages ts = ⟨i, ts⟩ :: rest ∧ ∀ s ∈ rest, ts.length < s.trees.length := by
  induction e generalizing ts with
  | digit v n => exact ⟨⟨.push v, n⟩, [], rfl, fun s hs => absurd hs List.not_mem_nil⟩
  | group l o r n ihl ihr =>
      obtain ⟨i, ls, hl, hls⟩ := ihl ts
      obtain ⟨j, rs, hr, hrs⟩ := ihr (l :: ts)
      refine ⟨i, ls ++ (⟨j, l :: ts⟩ :: rs) ++ [⟨⟨o.opcode, n⟩, r :: l :: ts⟩], ?_, ?_⟩
      · rw [stages, hl, hr, List.cons_append, List.cons_append]
      · simp only [List.forall_mem_append, List.forall_mem_cons, List.length_cons]
        refine ⟨⟨hls, Nat.lt_succ_self _, ?_⟩, by omega, fun s hs => absurd hs List.not_mem_nil⟩
        intro s hs
        exact Nat.lt_of_succ_lt (hrs s hs)

/-- No instruction finds more trees above those that are there already than the peak. -/
theorem length_trees_le {s : Stage} (h : s ∈ e.stages ts) :
    s.trees.length ≤ ts.length + e.peak := by
  induction e generalizing ts with
  | digit v n =>
      rw [List.mem_singleton.mp h]
      exact Nat.le_succ _
  | group l o r n ihl ihr =>
      rw [peak]
      rcases mem_stages_group.mp h with hl | hr | rfl
      · have hlength := ihl hl
        omega
      · have hlength := ihr hr
        rw [List.length_cons] at hlength
        omega
      · have hpeak := r.peak_pos
        rw [List.length_cons, List.length_cons]
        omega

/-- The peak is reached: an instruction finds so many trees, or so many are there in the end. -/
theorem exists_length_eq_peak (e : Expr) (ts : List Expr) :
    ∃ us ∈ (e.stages ts).map Stage.trees ++ [e :: ts], us.length = ts.length + e.peak := by
  induction e generalizing ts with
  | digit v n => exact ⟨.digit v n :: ts, List.mem_append_right _ (List.mem_singleton_self _), rfl⟩
  | group l o r n ihl ihr =>
      obtain ⟨i, rest, hfirst, -⟩ := r.exists_stages_eq_cons (l :: ts)
      have hwaiting : l :: ts ∈ (r.stages (l :: ts)).map Stage.trees := by
        rw [hfirst]
        exact List.mem_cons_self
      simp only [stages, List.map_append, List.mem_append, peak]
      rcases Nat.le_total (r.peak + 1) l.peak with h | h
      · obtain ⟨us, hus, hlength⟩ := ihl ts
        refine ⟨us, ?_, by omega⟩
        rcases List.mem_append.mp hus with hus | hus
        · exact .inl (.inl (.inl hus))
        · rw [List.mem_singleton.mp hus]
          exact .inl (.inl (.inr hwaiting))
      · obtain ⟨us, hus, hlength⟩ := ihr (l :: ts)
        rw [List.length_cons] at hlength
        refine ⟨us, ?_, by omega⟩
        rcases List.mem_append.mp hus with hus | hus
        · exact .inl (.inl (.inr hus))
        · exact .inl (.inr hus)

end Stages

end Expr

/-! ## The stacks of an execution -/

/-- The stacks of an execution: those that its instructions find, and the one that is left. -/
def Execution.stacks (x : Execution) : List (List Int64) :=
  x.visits.map Visit.stack ++ [x.machine.stack]

namespace Machine

theorem stacks_execute_code (m : Machine) (e : Expr) :
    (m.execute e.code).stacks =
      (e.codeStages.map fun s => s.trees.map Expr.value) ++ [[]] := by
  rw [execute_code, Execution.stacks, List.map_map]
  rfl

theorem max?_length_stacks (m : Machine) (e : Expr) :
    ((m.execute e.code).stacks.map List.length).max? = some e.peak := by
  have hlengths : (m.execute e.code).stacks.map List.length =
      ((e.stages []).map Stage.trees ++ [[e]]).map List.length ++ [0] := by
    rw [stacks_execute_code, Expr.codeStages]
    simp [Function.comp_def]
  rw [hlengths, List.max?_eq_some_iff]
  constructor
  · obtain ⟨us, hus, hlength⟩ := e.exists_length_eq_peak []
    rw [List.length_nil, Nat.zero_add] at hlength
    exact List.mem_append_left _ (List.mem_map.mpr ⟨us, hus, hlength⟩)
  · simp only [List.map_append, List.forall_mem_append, List.forall_mem_map,
      List.forall_mem_singleton, List.length_singleton]
    refine ⟨⟨?_, e.peak_pos⟩, Nat.zero_le _⟩
    intro s hs
    have hlength := Expr.length_trees_le hs
    rwa [List.length_nil, Nat.zero_add] at hlength

/-- The code of an expression is executed to its end.  The largest number of values that is on the
stack, before or behind any instruction, is the peak of the expression; this is not more than its
depth and one, and not more than the number of its digits.  The stack is empty before the first
instruction and behind the last one, the PRINT, and never in between. -/
theorem stacks_execute_generate (m : Machine) (c : Coder) (e : Expr) :
    (m.execute (c.generate e).1).visits.map Visit.instruction = (c.generate e).1 ∧
    ((m.execute (c.generate e).1).stacks.map List.length).max? = some e.peak ∧
    e.peak ≤ e.depth + 1 ∧ e.peak ≤ e.digitCount ∧
    ∃ inner, (m.execute (c.generate e).1).stacks = [] :: (inner ++ [[]]) ∧ [] ∉ inner := by
  rw [Coder.generate_eq]
  refine ⟨?_, m.max?_length_stacks e, e.peak_le_depth, e.peak_le_digitCount, ?_⟩
  · rw [execute_code, List.map_map]
    exact e.map_instruction_codeStages
  · obtain ⟨i, rest, hstages, hrest⟩ := e.exists_stages_eq_cons []
    refine ⟨(rest.map fun s => s.trees.map Expr.value) ++ [[e.value]], ?_, ?_⟩
    · rw [stacks_execute_code, Expr.codeStages, hstages]
      simp
    · intro hmem
      rcases List.mem_append.mp hmem with hmem | hmem
      · obtain ⟨s, hs, hempty⟩ := List.mem_map.mp hmem
        have hlength := hrest s hs
        rw [List.map_eq_nil_iff.mp hempty] at hlength
        exact Nat.lt_irrefl _ hlength
      · exact nomatch List.mem_singleton.mp hmem

/-- The code of `((1+2)*(3+4))`, with a peak of three. -/
example : (execute {} (Expr.code (.group (.group (.digit 1 0) .add (.digit 2 0) 0) .mul
    (.group (.digit 3 0) .add (.digit 4 0) 0) 0))).stacks.map List.length =
      [0, 1, 2, 1, 2, 3, 2, 1, 0] := rfl

end Machine

end GroupedArith
