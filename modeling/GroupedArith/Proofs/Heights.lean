/-
# `GroupedArith.Proofs.Heights` — the number of values decides what becomes of a program

Every instruction needs some values on the stack, and changes their number by one:

    instruction     needs     effect
    PUSH v          0         +1
    ADD, MUL        2         -1
    PRINT           1         -1

`height p` is the sum of the effects in the program `p`, and `Supplied p` says that
every instruction of `p` finds what it needs: the height of the instructions before
it is not less than its need.  Neither looks at a value.

## What is proved

Let a machine execute `p`, whatever it has executed before
(`Machine.outcome_execute_heights`):

    some instruction is not supplied     `Fault.underflow`, the line of the first one
    all are, and `height p > 0`          `Fault.leftover`, the height
    all are, and `height p ≤ 0`          an answer for each PRINT, on its line

and each instruction up to the first one that is not supplied finds as many values as
the height of those before it.  So a program with other numbers to push ends in the
same way, apart from the values of its answers.

## How

The three ways to end are the cases of `Ends`, one of which a program is in.
`m.Passes p as m'` says that `p` leads from the machine `m` to its end, prints `as` and
leaves the machine `m'`.  One instruction passes exactly if its need is met
(`Machine.step_of_need_le`, `Machine.step_of_lt_need`); a whole program therefore passes
exactly if it is supplied (`Machine.Passes.suppliedFrom`, `Machine.exists_passes`), and
if it is not, there is a first instruction that stops it (`suppliedFrom_or_starves`).
-/
import GroupedArith.Proofs.Compilation
import Mathlib.Order.Basic
import Mathlib.Tactic.ByContra

namespace GroupedArith

/-! ## Needs and effects -/

/-- The number of values that must be on the stack. -/
def Opcode.need : Opcode → Nat
  | push _ => 0
  | add => 2
  | mul => 2
  | print => 1

/-- The change in the number of values on the stack. -/
def Opcode.effect : Opcode → Int
  | push _ => 1
  | add => -1
  | mul => -1
  | print => -1

/-- The sum of the effects of a program. -/
def height : List Instruction → Int
  | [] => 0
  | i :: p => i.opcode.effect + height p

/-- The lines of the PRINTs of a program. -/
def printLines (p : List Instruction) : List Nat :=
  (p.filter fun i => i.opcode = .print).map Instruction.line

/-- Above `h` values that are there already, each instruction finds what it needs. -/
def SuppliedFrom (h : Int) (p : List Instruction) : Prop :=
  ∀ q i r, p = q ++ i :: r → i.opcode.need ≤ h + height q

/-- On an empty stack each instruction finds what it needs. -/
def Supplied (p : List Instruction) : Prop := ∀ q i r, p = q ++ i :: r → i.opcode.need ≤ height q

/-- The first instruction of `p` that finds too few values is `i`, behind the instructions `q`. -/
structure StarvesAt (p q : List Instruction) (i : Instruction) : Prop where
  split : ∃ r, p = q ++ i :: r
  supplied : Supplied q
  short : height q < i.opcode.need

@[simp] theorem height_nil : height [] = 0 := rfl

@[simp] theorem height_cons (i : Instruction) (p : List Instruction) :
    height (i :: p) = i.opcode.effect + height p := rfl

theorem printLines_cons (i : Instruction) (p : List Instruction) :
    printLines (i :: p) = printLines [i] ++ printLines p := by
  rw [printLines, printLines, printLines, ← List.map_append, ← List.filter_append]
  rfl

theorem suppliedFrom_zero {p : List Instruction} : SuppliedFrom 0 p ↔ Supplied p := by
  simp only [SuppliedFrom, Supplied, Int.zero_add]

theorem suppliedFrom_nil (h : Int) : SuppliedFrom h [] := by
  intro q i r heq
  exact absurd heq (by simp)

theorem suppliedFrom_cons {h : Int} {i : Instruction} {p : List Instruction} :
    SuppliedFrom h (i :: p) ↔ i.opcode.need ≤ h ∧ SuppliedFrom (h + i.opcode.effect) p := by
  constructor
  · intro hp
    constructor
    · have hfirst := hp [] i p rfl
      rwa [height_nil, Int.add_zero] at hfirst
    · intro q j r heq
      have hlater := hp (i :: q) j r (by rw [heq]; rfl)
      rwa [height_cons, ← Int.add_assoc] at hlater
  · rintro ⟨hi, hp⟩ q j r heq
    cases q with
    | nil =>
        obtain ⟨rfl, -⟩ := List.cons.inj heq
        rwa [height_nil, Int.add_zero]
    | cons k q =>
        obtain ⟨rfl, hrest⟩ := List.cons.inj heq
        rw [height_cons, ← Int.add_assoc]
        exact hp q j r hrest

instance decidableSuppliedFrom : ∀ (h : Int) (p : List Instruction), Decidable (SuppliedFrom h p)
  | h, [] => .isTrue (suppliedFrom_nil h)
  | h, i :: p =>
    have := decidableSuppliedFrom (h + i.opcode.effect) p
    decidable_of_iff _ suppliedFrom_cons.symm

instance : DecidablePred Supplied := fun _ => decidable_of_iff _ suppliedFrom_zero

/-- Where not every need is met, there is a first one that is not. -/
theorem suppliedFrom_or_starves (h : Int) (p : List Instruction) :
    SuppliedFrom h p ∨
      ∃ q i r, p = q ++ i :: r ∧ SuppliedFrom h q ∧ h + height q < i.opcode.need := by
  -- what follows the first instruction starts at the height that this one leads to
  induction p generalizing h with
  | nil => exact .inl (suppliedFrom_nil h)
  | cons i p ih =>
      by_cases hi : i.opcode.need ≤ h
      · rcases ih (h + i.opcode.effect) with hp | ⟨q, j, r, rfl, hq, hj⟩
        · exact .inl (suppliedFrom_cons.mpr ⟨hi, hp⟩)
        · refine .inr ⟨i :: q, j, r, rfl, suppliedFrom_cons.mpr ⟨hi, hq⟩, ?_⟩
          rwa [height_cons, ← Int.add_assoc]
      · refine .inr ⟨[], i, p, rfl, suppliedFrom_nil h, ?_⟩
        rw [height_nil, Int.add_zero]
        exact Int.not_le.mp hi

theorem supplied_or_starvesAt (p : List Instruction) : Supplied p ∨ ∃ q i, StarvesAt p q i := by
  rcases suppliedFrom_or_starves 0 p with hp | ⟨q, i, r, hsplit, hq, hi⟩
  · exact .inl (suppliedFrom_zero.mp hp)
  · rw [Int.zero_add] at hi
    exact .inr ⟨q, i, ⟨r, hsplit⟩, suppliedFrom_zero.mp hq, hi⟩

namespace Machine

/-! ## One instruction -/

/-- An instruction whose need is met changes the number of values by its effect, and prints if it is
a PRINT, on its line. -/
theorem step_of_need_le {m : Machine} {i : Instruction} (h : i.opcode.need ≤ m.stack.length) :
    ∃ m' a?, m.step i = (m', .ok a?) ∧
      (m'.stack.length : Int) = m.stack.length + i.opcode.effect ∧
      a?.toList.map Answer.line = printLines [i] := by
  obtain ⟨o, n⟩ := i
  obtain ⟨stack⟩ := m
  match o, stack, h with
  | .push v, stack, _ => exact ⟨_, _, rfl, rfl, rfl⟩
  | .add, b :: a :: stack, _ =>
      refine ⟨_, _, rfl, ?_, rfl⟩
      simp only [List.length_cons, Opcode.effect]
      omega
  | .mul, b :: a :: stack, _ =>
      refine ⟨_, _, rfl, ?_, rfl⟩
      simp only [List.length_cons, Opcode.effect]
      omega
  | .print, a :: stack, _ =>
      refine ⟨_, _, rfl, ?_, rfl⟩
      simp only [List.length_cons, Opcode.effect]
      omega

/-- An instruction whose need is not met has a fault on its line, also if it finds one value of the
two that it needs. -/
theorem step_of_lt_need {m : Machine} {i : Instruction} (h : m.stack.length < i.opcode.need) :
    (m.step i).2 = .error (.underflow i.line) := by
  obtain ⟨o, n⟩ := i
  obtain ⟨stack⟩ := m
  match o, stack, h with
  | .add, [], _ => rfl
  | .add, [_], _ => rfl
  | .mul, [], _ => rfl
  | .mul, [_], _ => rfl
  | .print, [], _ => rfl

/-- What an instruction prints is told of the whole program. -/
theorem outcome_run_of_step {m m' : Machine} {i : Instruction} {a? : Option Answer}
    (h : m.step i = (m', .ok a?)) (q : List Instruction) :
    (m.run (i :: q)).outcome = (m'.run q).outcome.map (a?.toList ++ ·) := by
  rw [outcome_run_cons, h]

theorem outcome_run_of_lt_need {m : Machine} {i : Instruction}
    (h : m.stack.length < i.opcode.need) (q : List Instruction) :
    (m.run (i :: q)).outcome = .error (.underflow i.line) := by
  have hfault := step_of_lt_need h
  rw [outcome_run_cons]
  rcases hstep : m.step i with ⟨m', fault | printed⟩
  · rw [hstep] at hfault
    cases hfault
    rfl
  · rw [hstep] at hfault
    exact nomatch hfault

/-! ## Programs that come to their end -/

/-- From the first machine the program comes to its end, prints these answers and leaves the second
machine. -/
inductive Passes : Machine → List Instruction → List Answer → Machine → Prop
  | nil (m : Machine) : Passes m [] [] m
  | cons {m m' m'' : Machine} {i : Instruction} {a? : Option Answer} {p : List Instruction}
      {as : List Answer} :
      m.step i = (m', .ok a?) → Passes m' p as m'' → Passes m (i :: p) (a?.toList ++ as) m''

section Passing
variable {m m' : Machine} {p : List Instruction} {as : List Answer}

/-- What follows is executed on what is left. -/
theorem Passes.outcome_run_append (h : m.Passes p as m') (q : List Instruction) :
    (m.run (p ++ q)).outcome = (m'.run q).outcome.map (as ++ ·) := by
  induction h with
  | nil m => exact (congrFun Except.map_id _).symm
  | @cons _ _ m'' i a? p as hstep _ ih =>
      rw [List.cons_append, outcome_run_of_step hstep, ih]
      cases (m''.run q).outcome with
      | error fault => rfl
      | ok bs => exact congrArg Except.ok (List.append_assoc _ _ _).symm

theorem Passes.outcome_run (h : m.Passes p as m') :
    (m.run p).outcome = m'.finish.map (as ++ ·) := by
  have hrun := h.outcome_run_append []
  rwa [List.append_nil] at hrun

theorem Passes.machine_run (h : m.Passes p as m') : (m.run p).machine = m' := by
  induction h with
  | nil m => rfl
  | cons hstep _ ih =>
      simp only [run, hstep]
      exact ih

/-- The instruction that follows finds what is left. -/
theorem Passes.visits_run (h : m.Passes p as m') (i : Instruction) (q : List Instruction) :
    (m.run (p ++ i :: q)).visits[p.length]? = some ⟨i, m'.stack⟩ := by
  induction h with
  | nil m =>
      rw [List.nil_append, run]
      rcases m.step i with ⟨m', fault | printed⟩
      · rfl
      · rfl
  | cons hstep _ ih =>
      simp only [List.cons_append, run, hstep]
      exact ih

/-- Every need is met, the height tells how many values are left, and each PRINT has its answer. -/
theorem Passes.suppliedFrom (h : m.Passes p as m') :
    SuppliedFrom m.stack.length p ∧ (m'.stack.length : Int) = m.stack.length + height p ∧
      as.map Answer.line = printLines p := by
  induction h with
  | nil m => exact ⟨suppliedFrom_nil _, (Int.add_zero _).symm, rfl⟩
  | @cons m m₁ m₂ i a? p as hstep _ ih =>
      obtain ⟨hp, hheight, hlines⟩ := ih
      have hneed : i.opcode.need ≤ m.stack.length := by
        by_contra hshort
        have hfault := step_of_lt_need (Nat.lt_of_not_le hshort)
        rw [hstep] at hfault
        exact nomatch hfault
      obtain ⟨m₁', a?', hstep', hlength, hline⟩ := step_of_need_le hneed
      obtain ⟨rfl, hprinted⟩ := Prod.mk.inj (hstep.symm.trans hstep')
      obtain rfl := Except.ok.inj hprinted
      refine ⟨suppliedFrom_cons.mpr ⟨Int.ofNat_le.mpr hneed, ?_⟩, ?_, ?_⟩
      · rwa [← hlength]
      · rw [hheight, hlength, height_cons, Int.add_assoc]
      · rw [List.map_append, hline, hlines, ← printLines_cons]

/-- A program whose needs are met comes to its end. -/
theorem exists_passes (h : SuppliedFrom m.stack.length p) : ∃ as m', m.Passes p as m' := by
  induction p generalizing m with
  | nil => exact ⟨[], m, .nil m⟩
  | cons i p ih =>
      obtain ⟨hneed, hp⟩ := suppliedFrom_cons.mp h
      obtain ⟨m₁, a?, hstep, hlength, -⟩ := step_of_need_le (Int.ofNat_le.mp hneed)
      rw [← hlength] at hp
      obtain ⟨as, m₂, hpasses⟩ := ih hp
      exact ⟨_, m₂, .cons hstep hpasses⟩

end Passing

/-! ## Whole programs -/

/-- A program that is supplied leaves as many values as its height says. -/
theorem exists_passes_of_supplied {p : List Instruction} (h : Supplied p) :
    ∃ as m', Passes ⟨[]⟩ p as m' ∧ (m'.stack.length : Int) = height p ∧
      as.map Answer.line = printLines p := by
  obtain ⟨as, m', hpasses⟩ := exists_passes (m := ⟨[]⟩) (suppliedFrom_zero.mpr h)
  obtain ⟨-, hheight, hlines⟩ := hpasses.suppliedFrom
  refine ⟨as, m', hpasses, ?_, hlines⟩
  rw [hheight]
  exact Int.zero_add _

/-- The instruction behind a program that is supplied finds as many values as its height says. -/
theorem visits_execute_of_supplied (m : Machine) {q : List Instruction} (h : Supplied q)
    (i : Instruction) (r : List Instruction) :
    ∃ stack, (m.execute (q ++ i :: r)).visits[q.length]? = some ⟨i, stack⟩ ∧
      (stack.length : Int) = height q := by
  obtain ⟨as, m', hpasses, hheight, -⟩ := exists_passes_of_supplied h
  exact ⟨m'.stack, hpasses.visits_run i r, hheight⟩

end Machine

/-- An outcome without the values of its answers. -/
def answerLines (outcome : Except Fault (List Answer)) : Except Fault (List Nat) :=
  outcome.map (List.map Answer.line)

/-- How a program ends, as far as its heights tell. -/
inductive Ends (p : List Instruction) : Except Fault (List Nat) → Prop
  | underflow {q : List Instruction} {i : Instruction} :
      StarvesAt p q i → Ends p (.error (.underflow i.line))
  | leftover {k : Nat} : Supplied p → height p = k → 0 < k → Ends p (.error (.leftover k))
  | accepted : Supplied p → height p ≤ 0 → Ends p (.ok (printLines p))

theorem exists_ends (p : List Instruction) : ∃ x, Ends p x := by
  rcases supplied_or_starvesAt p with hp | ⟨q, i, hi⟩
  · by_cases hnonpos : height p ≤ 0
    · exact ⟨_, .accepted hp hnonpos⟩
    · obtain ⟨k, hk⟩ := Int.eq_ofNat_of_zero_le (Int.le_of_not_le hnonpos)
      exact ⟨_, .leftover hp hk (by omega)⟩
  · exact ⟨_, .underflow hi⟩

section Ending
variable {p : List Instruction} {x : Except Fault (List Nat)}

/-- A program ends as its heights tell. -/
theorem Ends.answerLines_execute (h : Ends p x) (m : Machine) :
    answerLines (m.execute p).outcome = x := by
  cases h with
  | @underflow q i hi =>
      obtain ⟨r, rfl⟩ := hi.split
      obtain ⟨as, m', hpasses, hheight, -⟩ := Machine.exists_passes_of_supplied hi.supplied
      have hshort : m'.stack.length < i.opcode.need := by
        have := hi.short
        omega
      rw [Machine.execute_eq, hpasses.outcome_run_append, Machine.outcome_run_of_lt_need hshort]
      rfl
  | @leftover k hp hk hpos =>
      obtain ⟨as, m', hpasses, hheight, -⟩ := Machine.exists_passes_of_supplied hp
      have hlength : m'.stack.length = k := by omega
      have hne : ¬ m'.stack.isEmpty := by
        rw [List.isEmpty_iff_length_eq_zero]
        omega
      rw [Machine.execute_eq, hpasses.outcome_run, Machine.finish, if_neg hne, hlength]
      rfl
  | accepted hp hnonpos =>
      obtain ⟨as, m', hpasses, hheight, hlines⟩ := Machine.exists_passes_of_supplied hp
      have hempty : m'.stack.isEmpty := by
        rw [List.isEmpty_iff_length_eq_zero]
        omega
      rw [Machine.execute_eq, hpasses.outcome_run, Machine.finish, if_pos hempty, ← hlines]
      exact congrArg (Except.ok ∘ List.map Answer.line) (List.append_nil as)

theorem answerLines_execute_eq_iff (m : Machine) :
    answerLines (m.execute p).outcome = x ↔ Ends p x := by
  constructor
  · rintro rfl
    obtain ⟨y, hy⟩ := exists_ends p
    rwa [hy.answerLines_execute m]
  · intro h
    exact h.answerLines_execute m

theorem answerLines_eq_error_iff {outcome : Except Fault (List Answer)} {fault : Fault} :
    answerLines outcome = .error fault ↔ outcome = .error fault := by
  cases outcome with
  | error fault' => simp [answerLines, Except.map]
  | ok as => simp [answerLines, Except.map]

theorem answerLines_eq_ok_iff {outcome : Except Fault (List Answer)} {lines : List Nat} :
    answerLines outcome = .ok lines ↔ ∃ as, outcome = .ok as ∧ as.map Answer.line = lines := by
  cases outcome with
  | error fault' => simp [answerLines, Except.map]
  | ok as => simp [answerLines, Except.map]

theorem execute_eq_error_iff_ends (m : Machine) {fault : Fault} :
    (m.execute p).outcome = .error fault ↔ Ends p (.error fault) := by
  rw [← answerLines_eq_error_iff, answerLines_execute_eq_iff]

theorem execute_eq_ok_iff_ends (m : Machine) {lines : List Nat} :
    (∃ as, (m.execute p).outcome = .ok as ∧ as.map Answer.line = lines) ↔ Ends p (.ok lines) := by
  rw [← answerLines_eq_ok_iff, answerLines_execute_eq_iff]

theorem ends_underflow_iff {n : Nat} :
    Ends p (.error (.underflow n)) ↔ ∃ q i, StarvesAt p q i ∧ n = i.line := by
  constructor
  · intro h
    cases h with
    | @underflow q i hi => exact ⟨q, i, hi, rfl⟩
  · rintro ⟨q, i, hi, rfl⟩
    exact .underflow hi

theorem ends_leftover_iff {k : Nat} :
    Ends p (.error (.leftover k)) ↔ Supplied p ∧ height p = k ∧ 0 < k := by
  constructor
  · intro h
    cases h with
    | leftover hp hk hpos => exact ⟨hp, hk, hpos⟩
  · rintro ⟨hp, hk, hpos⟩
    exact .leftover hp hk hpos

theorem ends_ok_iff {lines : List Nat} :
    Ends p (.ok lines) ↔ Supplied p ∧ height p ≤ 0 ∧ lines = printLines p := by
  constructor
  · intro h
    cases h with
    | accepted hp hnonpos => exact ⟨hp, hnonpos, rfl⟩
  · rintro ⟨hp, hnonpos, rfl⟩
    exact .accepted hp hnonpos

end Ending

/-! ## Other numbers

Two programs differ at most in the numbers that they push if they are the same with all of these
replaced by the same number. -/

/-- The instruction with nothing said of the number that it may push. -/
def Instruction.unnumbered (i : Instruction) : Instruction :=
  match i.opcode with
  | .push _ => { i with opcode := .push 0 }
  | _ => i

@[simp] theorem Instruction.line_unnumbered (i : Instruction) : i.unnumbered.line = i.line := by
  obtain ⟨o, n⟩ := i
  cases o <;> rfl

@[simp] theorem Instruction.need_unnumbered (i : Instruction) :
    i.unnumbered.opcode.need = i.opcode.need := by
  obtain ⟨o, n⟩ := i
  cases o <;> rfl

@[simp] theorem Instruction.effect_unnumbered (i : Instruction) :
    i.unnumbered.opcode.effect = i.opcode.effect := by
  obtain ⟨o, n⟩ := i
  cases o <;> rfl

theorem printLines_unnumbered (i : Instruction) : printLines [i.unnumbered] = printLines [i] := by
  obtain ⟨o, n⟩ := i
  cases o <;> rfl

theorem height_map_unnumbered (p : List Instruction) :
    height (p.map Instruction.unnumbered) = height p := by
  induction p with
  | nil => rfl
  | cons i p ih => rw [List.map_cons, height_cons, height_cons, ih, Instruction.effect_unnumbered]

theorem printLines_map_unnumbered (p : List Instruction) :
    printLines (p.map Instruction.unnumbered) = printLines p := by
  induction p with
  | nil => rfl
  | cons i p ih =>
      rw [List.map_cons, printLines_cons, ih, printLines_unnumbered, ← printLines_cons]

theorem Supplied.map_unnumbered {p : List Instruction} (h : Supplied p) :
    Supplied (p.map Instruction.unnumbered) := by
  intro q j r heq
  obtain ⟨q, rest, rfl, rfl, hrest⟩ := List.map_eq_append_iff.mp heq
  obtain ⟨i, r, rfl, rfl, -⟩ := List.map_eq_cons_iff.mp hrest
  rw [Instruction.need_unnumbered, height_map_unnumbered]
  exact h q i r rfl

theorem StarvesAt.map_unnumbered {p q : List Instruction} {i : Instruction}
    (h : StarvesAt p q i) :
    StarvesAt (p.map Instruction.unnumbered) (q.map Instruction.unnumbered) i.unnumbered where
  split := by
    obtain ⟨r, rfl⟩ := h.split
    exact ⟨r.map Instruction.unnumbered, by rw [List.map_append, List.map_cons]⟩
  supplied := h.supplied.map_unnumbered
  short := by
    rw [height_map_unnumbered, Instruction.need_unnumbered]
    exact h.short

/-- With other numbers to push a program ends in the same way. -/
theorem Ends.map_unnumbered {p : List Instruction} {x : Except Fault (List Nat)} (h : Ends p x) :
    Ends (p.map Instruction.unnumbered) x := by
  cases h with
  | @underflow q i hi =>
      rw [← i.line_unnumbered]
      exact .underflow hi.map_unnumbered
  | leftover hp hk hpos => exact .leftover hp.map_unnumbered ((height_map_unnumbered p).trans hk) hpos
  | accepted hp hnonpos =>
      rw [← printLines_map_unnumbered]
      exact .accepted hp.map_unnumbered ((height_map_unnumbered p).trans_le hnonpos)

theorem answerLines_execute_congr (m m' : Machine) {p p' : List Instruction}
    (h : p'.map Instruction.unnumbered = p.map Instruction.unnumbered) :
    answerLines (m'.execute p').outcome = answerLines (m.execute p).outcome := by
  obtain ⟨x, hx⟩ := exists_ends p
  obtain ⟨y, hy⟩ := exists_ends p'
  have hx' := hx.map_unnumbered.answerLines_execute {}
  have hy' := hy.map_unnumbered.answerLines_execute {}
  rw [hx.answerLines_execute, hy.answerLines_execute, ← hx', ← hy', h]

/-! ## The outcome -/

/-- What becomes of a program is decided by its heights.  It underflows if and only if some
instruction finds fewer values than it needs, on the line of the first such instruction.  If there
is none, values are left if and only if its height is positive, and this is their number; otherwise
there is an answer for each PRINT, in order and on its line.  The heights are the numbers of values
that the instructions find.  They depend neither on the numbers that are pushed nor on what the
machine was used for before, and so the kind of outcome, the line of an underflow, the number of
values left and the lines of the answers do not either. -/
theorem Machine.outcome_execute_heights (m : Machine) (p : List Instruction) :
    ((∃ q i, StarvesAt p q i) ↔ ∃ q i r, p = q ++ i :: r ∧ height q < i.opcode.need) ∧
    (∀ n, (m.execute p).outcome = .error (.underflow n) ↔
      ∃ q i, StarvesAt p q i ∧ n = i.line) ∧
    (∀ k, (m.execute p).outcome = .error (.leftover k) ↔
      Supplied p ∧ height p = k ∧ 0 < k) ∧
    (∀ lines, (∃ as, (m.execute p).outcome = .ok as ∧ as.map Answer.line = lines) ↔
      Supplied p ∧ height p ≤ 0 ∧ lines = printLines p) ∧
    (∀ q i r, p = q ++ i :: r → Supplied q →
      ∃ stack, (m.execute p).visits[q.length]? = some ⟨i, stack⟩ ∧
        (stack.length : Int) = height q) ∧
    ∀ (m' : Machine) (p' : List Instruction),
      p'.map Instruction.unnumbered = p.map Instruction.unnumbered →
        answerLines (m'.execute p').outcome = answerLines (m.execute p).outcome := by
  refine ⟨?_, ?_, ?_, ?_, ?_, ?_⟩
  · constructor
    · rintro ⟨q, i, hi⟩
      obtain ⟨r, hsplit⟩ := hi.split
      exact ⟨q, i, r, hsplit, hi.short⟩
    · rintro ⟨q, i, r, hsplit, hshort⟩
      refine (supplied_or_starvesAt p).resolve_left ?_
      intro hp
      exact Int.not_le.mpr hshort (hp q i r hsplit)
  · intro n
    rw [execute_eq_error_iff_ends, ends_underflow_iff]
  · intro k
    rw [execute_eq_error_iff_ends, ends_leftover_iff]
  · intro lines
    rw [execute_eq_ok_iff_ends, ends_ok_iff]
  · rintro q i r rfl hq
    exact visits_execute_of_supplied m hq i r
  · intro m' p' h
    exact answerLines_execute_congr m m' h

/-- The ADD finds one value of the two that it needs, whatever number it is, and whatever an earlier
program has left. -/
theorem Machine.outcome_execute_heights_one_operand :
    Supplied [⟨.push 1, 0⟩] ∧
      (∃ stack, (({} : Machine).execute [⟨.push 1, 0⟩, ⟨.add, 3⟩]).visits[1]? =
        some ⟨⟨.add, 3⟩, stack⟩ ∧ (stack.length : Int) = height [⟨.push 1, 0⟩]) ∧
      StarvesAt [⟨.push 1, 0⟩, ⟨.add, 3⟩] [⟨.push 1, 0⟩] ⟨.add, 3⟩ ∧
      (({} : Machine).execute [⟨.push 1, 0⟩, ⟨.add, 3⟩]).outcome = .error (.underflow 3) ∧
      [⟨.push 255, 0⟩, ⟨.add, 3⟩].map Instruction.unnumbered =
        [⟨.push 1, 0⟩, ⟨.add, 3⟩].map Instruction.unnumbered ∧
      answerLines ((⟨[5, 6]⟩ : Machine).execute [⟨.push 255, 0⟩, ⟨.add, 3⟩]).outcome =
        .error (.underflow 3) := by
  have hsupplied : Supplied [⟨.push 1, 0⟩] := by decide
  have hstarves : StarvesAt [⟨.push 1, 0⟩, ⟨.add, 3⟩] [⟨.push 1, 0⟩] ⟨.add, 3⟩ :=
    ⟨⟨[], rfl⟩, hsupplied, by decide⟩
  have hnumbers : [⟨.push 255, 0⟩, ⟨.add, 3⟩].map Instruction.unnumbered =
      [⟨.push 1, 0⟩, ⟨.add, 3⟩].map Instruction.unnumbered := rfl
  obtain ⟨-, hunderflow, -, -, hvisits, hcongr⟩ :=
    outcome_execute_heights {} [⟨.push 1, 0⟩, ⟨.add, 3⟩]
  have houtcome := (hunderflow 3).mpr ⟨_, _, hstarves, rfl⟩
  refine ⟨hsupplied, hvisits _ _ [] rfl hsupplied, hstarves, houtcome, hnumbers, ?_⟩
  rw [hcongr _ _ hnumbers, houtcome]
  rfl

end GroupedArith
