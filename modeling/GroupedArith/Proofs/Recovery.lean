/-
# `GroupedArith.Proofs.Recovery` — an accepted program prints values of expressions

A program need not be code of expressions to be accepted: it may print while
operands are waiting below, and its PRINTs may stand on any line.

    PUSH 1   PUSH 2   PUSH 3   PRINT   ADD   PRINT

## What is proved

What an accepted program prints are the answers to some expressions, and these
account for the program: every number that it pushes is a digit of theirs and
every ADD or MUL an operator, each as often as in the program.  The codes of these
expressions one after the other print the same
(`Machine.exists_exprs_of_execute`).

The expressions are those that the machine on trees prints (`Forest.exec`).  That
nothing is lost or used twice is an invariant of its state, which is about the
trees on the stack and those printed taken together (`Forest.Accounts`):

    their opcodes are those of the program without the PRINTs, in some order
-/
import GroupedArith.Proofs.Acceptance
import GroupedArith.Proofs.Forest

namespace GroupedArith

/-! ## What a tree is made of -/

/-- The operators of an expression, each behind those of its operands. -/
def Expr.ops : Expr → List Op
  | digit _ _ => []
  | group l o r _ => l.ops ++ r.ops ++ [o]

/-- The number that is put on the stack. -/
def Opcode.operand? : Opcode → Option UInt8
  | push v => some v
  | _ => none

/-- The operator that is applied. -/
def Opcode.op? : Opcode → Option Op
  | add => some .add
  | mul => some .mul
  | _ => none

theorem Opcode.map_op?_getD (k : Opcode) (o : Op) :
    (k.op?.map (· == o)).getD false = decide (k = o.opcode) := by
  cases k <;> cases o <;> rfl

def Expr.opcodes (e : Expr) : List Opcode := e.body.map Instruction.opcode

theorem Expr.opcodes_withLine (n : Nat) (e : Expr) : (e.withLine n).opcodes = e.opcodes := by
  cases e with
  | digit v m => rfl
  | group l o r m => simp [withLine, opcodes, body]

theorem Expr.opcodes_group (l r : Expr) (o : Op) (n : Nat) :
    (group l o r n).opcodes = l.opcodes ++ r.opcodes ++ [o.opcode] := by
  simp [opcodes, body]

/-- The digits are pushed from left to right. -/
theorem Expr.filterMap_operand?_opcodes (e : Expr) :
    e.opcodes.filterMap Opcode.operand? = e.digits := by
  induction e with
  | digit v n => rfl
  | group l o r n ihl ihr =>
      have ho : [o.opcode].filterMap Opcode.operand? = [] := by cases o <;> rfl
      rw [opcodes_group, List.filterMap_append, List.filterMap_append, ihl, ihr, ho,
        List.append_nil, digits]

theorem Expr.filterMap_op?_opcodes (e : Expr) : e.opcodes.filterMap Opcode.op? = e.ops := by
  induction e with
  | digit v n => rfl
  | group l o r n ihl ihr =>
      have ho : [o.opcode].filterMap Opcode.op? = [o] := by cases o <;> rfl
      rw [opcodes_group, List.filterMap_append, List.filterMap_append, ihl, ihr, ho, ops]

/-! ## Nothing is lost or used twice -/

/-- The opcodes of a program, except for those that print. -/
def work (p : List Instruction) : List Opcode := (p.map Instruction.opcode).filter (· ≠ .print)

theorem work_concat (p : List Instruction) (i : Instruction) :
    work (p ++ [i]) = work p ++ work [i] := by
  simp only [work, List.map_append, List.filter_append]

theorem work_op (o : Op) (n : Nat) : work [⟨o.opcode, n⟩] = [o.opcode] := by
  cases o <;> rfl

theorem filterMap_work {α : Type} {f : Opcode → Option α} (hf : f .print = none)
    (p : List Instruction) : (work p).filterMap f = p.filterMap fun i => f i.opcode := by
  rw [work, List.filterMap_filter, List.filterMap_map]
  refine congrArg (p.filterMap ·) (funext fun i => ?_)
  by_cases hi : i.opcode = .print
  · simp [hi, hf]
  · simp [hi]

namespace Forest

/-- The trees, printed or not, are made of what the program has brought. -/
def Accounts (f : Forest) (p : List Instruction) : Prop :=
  ((f.printed ++ f.pending).flatMap Expr.opcodes).Perm (work p)

theorem Grows.accounts {f f' : Forest} {i : Instruction} {p : List Instruction} (h : f.Grows i f')
    (hf : f.Accounts p) : f'.Accounts (p ++ [i]) := by
  refine List.perm_iff_count.mpr fun a => ?_
  have ha := List.Perm.count_eq hf a
  rw [work_concat, List.count_append, ← ha]
  cases h with
  | push ts es v n =>
      rw [show work [⟨.push v, n⟩] = (Expr.digit v n).opcodes from rfl]
      simp only [List.flatMap_append, List.flatMap_cons, List.count_append]
      omega
  | op l r ts es o n =>
      rw [work_op]
      simp only [List.flatMap_append, List.flatMap_cons, List.count_append, Expr.opcodes_group]
      omega
  | print e ts es n =>
      rw [show work [⟨.print, n⟩] = [] from rfl]
      simp only [List.flatMap_append, List.flatMap_cons, List.flatMap_nil, List.count_append,
        Expr.opcodes_withLine, List.count_nil]
      omega

theorem accounts_of_exec {g : Forest} {p : List Instruction} (h : exec {} p = .ok g) :
    g.Accounts p := by
  have hnil : Accounts {} [] := .nil
  exact exec_preserves (P := Accounts) (fun _ _ _ _ => Grows.accounts) h hnil

end Forest

/-! ## What an accepted program prints -/

section Printed
variable {es : List Expr} {p : List Instruction}

/-- What can be said of single opcodes is said as often of the trees as of the program. -/
theorem perm_filterMap_of_exec {α : Type} {f : Opcode → Option α} (hf : f .print = none)
    (h : Forest.exec {} p = .ok ⟨[], es⟩) :
    (es.flatMap fun e => e.opcodes.filterMap f).Perm (p.filterMap fun i => f i.opcode) := by
  have hperm := List.Perm.filterMap f (Forest.accounts_of_exec h)
  rwa [List.append_nil, List.filterMap_flatMap, filterMap_work hf] at hperm

theorem perm_digits_of_exec (h : Forest.exec {} p = .ok ⟨[], es⟩) :
    (es.flatMap Expr.digits).Perm (p.filterMap fun i => i.opcode.operand?) := by
  have hperm := perm_filterMap_of_exec (f := Opcode.operand?) rfl h
  simpa only [Expr.filterMap_operand?_opcodes] using hperm

theorem count_ops_of_exec (h : Forest.exec {} p = .ok ⟨[], es⟩) (o : Op) :
    (es.flatMap Expr.ops).count o = p.countP fun i => i.opcode = o.opcode := by
  have hperm := perm_filterMap_of_exec (f := Opcode.op?) rfl h
  simp only [Expr.filterMap_op?_opcodes] at hperm
  rw [hperm.count_eq, List.count, List.countP_filterMap]
  exact congrArg (p.countP ·) (funext fun i => i.opcode.map_op?_getD o)

end Printed

/-- Whatever an accepted program prints are the answers to some expressions, in order.  The digits of
these are the numbers that it pushes, and their operators the ADDs and MULs, each as often as in the
program; and their codes, one after the other, print the same. -/
theorem Machine.exists_exprs_of_execute {m : Machine} {p : List Instruction} {as : List Answer}
    (h : (m.execute p).outcome = .ok as) :
    ∃ es : List Expr, as = es.map .ofExpr ∧
      (es.flatMap Expr.digits).Perm (p.filterMap fun i => i.opcode.operand?) ∧
      (∀ o : Op, (es.flatMap Expr.ops).count o = p.countP fun i => i.opcode = o.opcode) ∧
      ∀ (c : Coder) (m' : Machine),
        (m'.execute (es.flatMap fun e => (c.generate e).1)).outcome = .ok as := by
  obtain ⟨es, hexec, has⟩ := Forest.outcome_execute_eq_ok_iff.mp h
  refine ⟨es, has, perm_digits_of_exec hexec, count_ops_of_exec hexec, ?_⟩
  intro c m'
  simp only [Coder.generate_eq]
  exact Forest.outcome_execute_eq_ok_iff.mpr ⟨es, Forest.exec_codes es [], has⟩

/-- The first PRINT finds an operand above one that is still waiting. -/
theorem Machine.exists_exprs_of_execute_interleaved :
    (({} : Machine).execute [⟨.push 1, 0⟩, ⟨.push 2, 0⟩, ⟨.push 3, 0⟩, ⟨.print, 7⟩, ⟨.add, 1⟩,
        ⟨.print, 2⟩]).outcome = .ok [⟨3, 7⟩, ⟨3, 2⟩] ∧
      ∃ es : List Expr, [⟨3, 7⟩, ⟨3, 2⟩] = es.map Answer.ofExpr ∧
        (es.flatMap Expr.digits).Perm [1, 2, 3] ∧
        (es.flatMap Expr.ops).count .add = 1 ∧ (es.flatMap Expr.ops).count .mul = 0 ∧
        (({} : Machine).execute (es.flatMap fun e => (({} : Coder).generate e).1)).outcome =
          .ok [⟨3, 7⟩, ⟨3, 2⟩] := by
  have h : (({} : Machine).execute [⟨.push 1, 0⟩, ⟨.push 2, 0⟩, ⟨.push 3, 0⟩, ⟨.print, 7⟩,
      ⟨.add, 1⟩, ⟨.print, 2⟩]).outcome = .ok [⟨3, 7⟩, ⟨3, 2⟩] := by decide
  obtain ⟨es, has, hdigits, hops, hcode⟩ := exists_exprs_of_execute h
  exact ⟨h, es, has, hdigits, hops .add, hops .mul, hcode {} {}⟩

end GroupedArith
