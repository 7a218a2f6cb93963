/-
# `GroupedArith.Proofs.Forest` — the stack machine on trees

A value on the stack was computed in one way only, and this way is a tree.  A
`Forest` keeps these trees in place of the values:

    instruction     stack before     stack after           printed
    PUSH v          ts               v :: ts
    ADD, MUL        r :: l :: ts     (l o r) :: ts
    PRINT           e :: ts          ts                    e, on the line of the PRINT

A node carries the line of its instruction.  The line of a PRINT is that of the
answer, therefore a printed tree is moved to it at the root (`Expr.withLine`).

## What is proved

For every program, whatever becomes of it, the outcome of the machine is that of
the forest with each tree replaced by the answer to it (`Forest.outcome_run`,
`Forest.outcome_execute`).  So a program is accepted if and only if it leaves an
empty stack of trees, and then it prints the answers to the trees printed
(`Forest.outcome_execute_eq_ok_iff`).

In the other direction the code of a tree builds that tree (`Forest.exec_body`,
`Forest.exec_code`).
-/
import GroupedArith.Proofs.Compilation

namespace GroupedArith

/-- The expression with another line for its root. -/
def Expr.withLine (n : Nat) : Expr → Expr
  | digit v _ => digit v n
  | group l o r _ => group l o r n

@[simp] theorem Expr.withLine_line (e : Expr) : e.withLine e.line = e := by
  cases e <;> rfl

theorem Answer.ofExpr_withLine (n : Nat) (e : Expr) : ofExpr (e.withLine n) = ⟨e.value, n⟩ := by
  cases e <;> rfl

theorem Op.opcode_ne_print (o : Op) : o.opcode ≠ .print := by
  cases o with
  | add => exact nofun
  | mul => exact nofun

/-- The trees behind what a program computes. -/
structure Forest where
  /-- The trees of the values on the stack, the top one first. -/
  pending : List Expr := []
  /-- The trees of the values printed, in order. -/
  printed : List Expr := []
  deriving DecidableEq, Repr

namespace Forest

/-! ## One instruction -/

def step (f : Forest) (i : Instruction) : Except Fault Forest :=
  match i.opcode, f.pending with
  | .push v, ts => .ok ⟨.digit v i.line :: ts, f.printed⟩
  | .add, r :: l :: ts => .ok ⟨.group l .add r i.line :: ts, f.printed⟩
  | .mul, r :: l :: ts => .ok ⟨.group l .mul r i.line :: ts, f.printed⟩
  | .print, e :: ts => .ok ⟨ts, f.printed ++ [e.withLine i.line]⟩
  | _, _ => .error (.underflow i.line)

/-- What an instruction does if it finds its operands. -/
inductive Grows : Forest → Instruction → Forest → Prop
  | push (ts es : List Expr) (v : UInt8) (n : Nat) :
      Grows ⟨ts, es⟩ ⟨.push v, n⟩ ⟨.digit v n :: ts, es⟩
  | op (l r : Expr) (ts es : List Expr) (o : Op) (n : Nat) :
      Grows ⟨r :: l :: ts, es⟩ ⟨o.opcode, n⟩ ⟨.group l o r n :: ts, es⟩
  | print (e : Expr) (ts es : List Expr) (n : Nat) :
      Grows ⟨e :: ts, es⟩ ⟨.print, n⟩ ⟨ts, es ++ [e.withLine n]⟩

theorem step_eq_ok_iff {f f' : Forest} {i : Instruction} : f.step i = .ok f' ↔ f.Grows i f' := by
  constructor
  · intro h
    obtain ⟨o, n⟩ := i
    obtain ⟨ts, es⟩ := f
    match o, ts, h with
    | .push v, ts, h => cases h; exact .push ts es v n
    | .add, r :: l :: ts, h => cases h; exact .op l r ts es .add n
    | .mul, r :: l :: ts, h => cases h; exact .op l r ts es .mul n
    | .print, e :: ts, h => cases h; exact .print e ts es n
  · intro h
    cases h with
    | push => rfl
    | op l r ts es o n => cases o <;> rfl
    | print => rfl

/-! ## Programs -/

theorem bind_eq_ok {ε α β : Type} {x : Except ε α} {k : α → Except ε β} {b : β}
    (h : x.bind k = .ok b) : ∃ a, x = .ok a ∧ k a = .ok b := by
  cases x with
  | ok a => exact ⟨a, rfl, h⟩
  | error e => exact nomatch h

/-- The forest after a program, or the fault that ends it. -/
def exec (f : Forest) : List Instruction → Except Fault Forest
  | [] => .ok f
  | i :: p => (f.step i).bind (·.exec p)

/-- What the machine makes of a program that has come to its end. -/
def finish (f : Forest) : Except Fault (List Answer) :=
  if f.pending.isEmpty then .ok (f.printed.map .ofExpr) else .error (.leftover f.pending.length)

theorem exec_cons {f f' : Forest} {i : Instruction} (p : List Instruction) (h : f.Grows i f') :
    f.exec (i :: p) = f'.exec p := by
  rw [exec, step_eq_ok_iff.mpr h]
  rfl

theorem exec_append (f : Forest) (p q : List Instruction) :
    f.exec (p ++ q) = (f.exec p).bind (·.exec q) := by
  induction p generalizing f with
  | nil => rfl
  | cons i p ih =>
      rw [List.cons_append, exec, exec]
      cases f.step i with
      | ok f' => exact ih f'
      | error fault => rfl

/-- A program that comes to its end has taken its first step. -/
theorem exec_cons_eq_ok {f g : Forest} {i : Instruction} {p : List Instruction}
    (h : f.exec (i :: p) = .ok g) : ∃ f', f.Grows i f' ∧ f'.exec p = .ok g := by
  obtain ⟨f', hstep, hrest⟩ := bind_eq_ok h
  exact ⟨f', step_eq_ok_iff.mp hstep, hrest⟩

/-- What is true of a forest and the program behind it remains true, if each instruction keeps
it. -/
theorem exec_preserves {P : Forest → List Instruction → Prop}
    (hstep : ∀ f i f' q, f.Grows i f' → P f q → P f' (q ++ [i])) {f g : Forest}
    {p q : List Instruction} (h : f.exec p = .ok g) (hf : P f q) : P g (q ++ p) := by
  induction p generalizing f q with
  | nil =>
      cases h
      rwa [List.append_nil]
  | cons i p ih =>
      obtain ⟨f', hgrows, hrest⟩ := exec_cons_eq_ok h
      have := ih hrest (hstep f i f' q hgrows hf)
      rwa [List.append_assoc] at this

/-! ## The machine follows -/

/-- The machine does to the values what is done to their trees. -/
theorem Grows.machine_step {f f' : Forest} {i : Instruction} (h : f.Grows i f') :
    ∃ e? : Option Expr, f'.printed = f.printed ++ e?.toList ∧
      Machine.step ⟨f.pending.map Expr.value⟩ i =
        (⟨f'.pending.map Expr.value⟩, .ok (e?.map Answer.ofExpr)) := by
  cases h with
  | push ts es v n => exact ⟨none, (List.append_nil es).symm, rfl⟩
  | op l r ts es o n =>
      refine ⟨none, (List.append_nil es).symm, ?_⟩
      cases o <;> rfl
  | print e ts es n =>
      refine ⟨some (e.withLine n), rfl, ?_⟩
      rw [Option.map_some, Answer.ofExpr_withLine]
      rfl

/-- The machine has a fault where a tree is missing. -/
theorem machine_step_of_error {f : Forest} {i : Instruction} {fault : Fault}
    (h : f.step i = .error fault) :
    Machine.step ⟨f.pending.map Expr.value⟩ i = (⟨[]⟩, .error fault) := by
  obtain ⟨o, n⟩ := i
  obtain ⟨ts, es⟩ := f
  match o, ts, h with
  | .add, [], h => cases h; rfl
  | .add, [_], h => cases h; rfl
  | .mul, [], h => cases h; rfl
  | .mul, [_], h => cases h; rfl
  | .print, [], h => cases h; rfl

/-- The outcome of a program on the values of some trees, after what was printed already. -/
theorem outcome_run (f : Forest) (p : List Instruction) :
    (Machine.run ⟨f.pending.map Expr.value⟩ p).outcome.map (f.printed.map Answer.ofExpr ++ ·) =
      (f.exec p).bind finish := by
  induction p generalizing f with
  | nil =>
      obtain ⟨ts, es⟩ := f
      cases ts with
      | nil => exact congrArg Except.ok (List.append_nil _)
      | cons t ts => exact congrArg (Except.error ∘ Fault.leftover) (List.length_map _)
  | cons i p ih =>
      rw [Machine.outcome_run_cons]
      cases hstep : f.step i with
      | error fault =>
          rw [machine_step_of_error hstep, exec, hstep]
          rfl
      | ok f' =>
          obtain ⟨e?, hprinted, hmachine⟩ := (step_eq_ok_iff.mp hstep).machine_step
          rw [hmachine, exec, hstep]
          refine Eq.trans ?_ (ih f')
          rw [hprinted, List.map_append, ← Option.toList_map]
          dsimp only
          cases (Machine.run ⟨f'.pending.map Expr.value⟩ p).outcome with
          | error fault => rfl
          | ok as => exact congrArg Except.ok (List.append_assoc _ _ _).symm

theorem outcome_execute (m : Machine) (p : List Instruction) :
    (m.execute p).outcome = (exec {} p).bind finish := by
  rw [← outcome_run]
  exact (congrFun Except.map_id _).symm

/-- A program is accepted if it leaves no tree, and then it prints the answers to those printed. -/
theorem outcome_execute_eq_ok_iff {m : Machine} {p : List Instruction} {as : List Answer} :
    (m.execute p).outcome = .ok as ↔ ∃ es, exec {} p = .ok ⟨[], es⟩ ∧ as = es.map .ofExpr := by
  rw [outcome_execute]
  constructor
  · intro h
    obtain ⟨⟨ts, es⟩, hexec, hfinish⟩ := bind_eq_ok h
    cases ts with
    | nil => exact ⟨es, hexec, (Except.ok.inj hfinish).symm⟩
    | cons t ts => exact nomatch hfinish
  · rintro ⟨es, hexec, rfl⟩
    rw [hexec]
    rfl

/-! ## The code of a tree builds the tree -/

theorem exec_body (e : Expr) (ts es : List Expr) (q : List Instruction) :
    exec ⟨ts, es⟩ (e.body ++ q) = exec ⟨e :: ts, es⟩ q := by
  induction e generalizing ts q with
  | digit v n => exact exec_cons q (.push ts es v n)
  | group l o r n ihl ihr =>
      calc exec ⟨ts, es⟩ ((Expr.group l o r n).body ++ q)
          = exec ⟨ts, es⟩ (l.body ++ (r.body ++ (⟨o.opcode, n⟩ :: q))) := by
            simp only [Expr.body, List.append_assoc, List.cons_append, List.nil_append]
        _ = exec ⟨l :: ts, es⟩ (r.body ++ (⟨o.opcode, n⟩ :: q)) := ihl _ _
        _ = exec ⟨r :: l :: ts, es⟩ (⟨o.opcode, n⟩ :: q) := ihr _ _
        _ = exec ⟨.group l o r n :: ts, es⟩ q := exec_cons q (.op l r ts es o n)

/-- The code of an expression prints its tree, and leaves those that are there. -/
theorem exec_code (e : Expr) (ts es : List Expr) (q : List Instruction) :
    exec ⟨ts, es⟩ (e.code ++ q) = exec ⟨ts, es ++ [e]⟩ q := by
  rw [Expr.code, List.append_assoc, exec_body]
  have h := exec_cons q (.print e ts es e.line)
  rwa [Expr.withLine_line] at h

theorem exec_codes (es fs : List Expr) :
    exec ⟨[], fs⟩ (es.flatMap Expr.code) = .ok ⟨[], fs ++ es⟩ := by
  induction es generalizing fs with
  | nil => rw [List.append_nil]; rfl
  | cons e es ih => rw [List.flatMap_cons, exec_code, ih, List.append_assoc]; rfl

end Forest

end GroupedArith
