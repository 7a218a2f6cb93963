/-
# `GroupedArith.Proofs.Overflow` — up to nineteen digits nothing wraps

An operation on words wraps if its result is not that on the integers (`Op.Wraps`).

## What is proved

Let the digits of an expression `e` be at most nine, as those of a source are, and `n` be
their number (`Expr.decimal_values_bounded`):

    exact result of any part of `e`     at most 9^n, and 9^n is reached
    n ≤ 19                              nothing wraps, neither where `e` is evaluated nor
                                        where its code is executed; all values on the
                                        stack are exact, and so is the result
    n = 20                              there is an expression where something wraps

## How

A result is the largest if all operators are products (`Op.over_le_mul`).  Nothing wraps
in an expression if and only if the exact result of each part is less than 2^63
(`Expr.not_wraps_iff`), and 2^63 is between 9^19 and 9^20.  The machine applies the
operations of the expression to the values of its parts, and to nothing else
(`Machine.exists_wraps_visits_iff`, `Machine.exists_subtree_of_mem_stack`).
-/
import GroupedArith.Proofs.Chronicle
import GroupedArith.Proofs.Exactness
import GroupedArith.Proofs.Forest
import GroupedArith.Proofs.Stages
import Mathlib.Algebra.Order.Ring.Int
import Mathlib.Tactic.Linarith

namespace GroupedArith

/-! ## Parts of an expression -/

namespace Expr

/-- An expression and all that it is made of. -/
def subtrees : Expr → List Expr
  | digit v n => [digit v n]
  | group l o r n => group l o r n :: (l.subtrees ++ r.subtrees)

theorem mem_subtrees_self (e : Expr) : e ∈ e.subtrees := by
  cases e with
  | digit v n => exact List.mem_singleton_self _
  | group l o r n => exact List.mem_cons_self

theorem mem_subtrees_group {d l r : Expr} {o : Op} {n : Nat} :
    d ∈ (group l o r n).subtrees ↔ d = group l o r n ∨ d ∈ l.subtrees ∨ d ∈ r.subtrees := by
  rw [subtrees, List.mem_cons, List.mem_append]

theorem digitCount_le_of_mem {d e : Expr} (h : d ∈ e.subtrees) : d.digitCount ≤ e.digitCount := by
  induction e with
  | digit v n => rw [List.mem_singleton.mp h]
  | group l o r n ihl ihr =>
      rw [digitCount]
      rcases mem_subtrees_group.mp h with rfl | hl | hr
      · exact Nat.le_refl _
      · exact Nat.le_add_right_of_le (ihl hl)
      · exact Nat.le_add_left_of_le (ihr hr)

theorem isDecimal_group {l r : Expr} {o : Op} {n : Nat} :
    (group l o r n).IsDecimal ↔ l.IsDecimal ∧ r.IsDecimal := List.forall_mem_append

theorem IsDecimal.of_mem {d e : Expr} (h : e.IsDecimal) (hd : d ∈ e.subtrees) : d.IsDecimal := by
  induction e with
  | digit v n => rwa [List.mem_singleton.mp hd]
  | group l o r n ihl ihr =>
      obtain ⟨hl, hr⟩ := isDecimal_group.mp h
      rcases mem_subtrees_group.mp hd with rfl | hd | hd
      · exact h
      · exact ihl hl hd
      · exact ihr hr hd

/-- What is spelled in tokens has digits up to nine. -/
theorem Spelled.isDecimal {e : Expr} {ts : List Token} (h : e.Spelled ts) : e.IsDecimal := by
  have hdigit : ∀ d : Fin 10, UInt8.ofNat d ≤ 9 := by decide
  induction h with
  | digit d n => exact List.forall_mem_singleton.mpr (hdigit d)
  | group o n m k _ _ ihl ihr => exact isDecimal_group.mpr ⟨ihl, ihr⟩

end Expr

theorem Cursor.isDecimal_of_readExpr {c : Cursor} {e : Expr}
    (h : c.readExpr.answer = .ok (some e)) : e.IsDecimal :=
  (Awaiting.readFrom_complete (.operand .nil) (answer_readExpr_iff.mp h)).1.isDecimal

/-! ## The largest results -/

/-- Of two numbers from 2 on the product is the largest that an operation makes of them. -/
theorem Op.over_le_mul (o : Op) {a b x y : Int} (ha : 0 ≤ a) (hb : 0 ≤ b) (hax : a ≤ x)
    (hby : b ≤ y) (hx : 2 ≤ x) (hy : 2 ≤ y) : o.over a b ≤ x * y := by
  cases o with
  | add =>
      have hroom : 0 ≤ (x - 1) * (y - 1) - 1 := by nlinarith
      show a + b ≤ x * y
      linarith
  | mul => exact Int.mul_le_mul hax hby hb (ha.trans hax)

theorem Expr.nine_le_pow (e : Expr) : (9 : Int) ≤ 9 ^ e.digitCount := by
  have h : (9 : Int) ^ 1 ≤ 9 ^ e.digitCount := pow_le_pow_right₀ (by decide) e.digitCount_pos
  rwa [pow_one] at h

theorem Expr.IsDecimal.exact_le {e : Expr} (h : e.IsDecimal) : e.exact ≤ 9 ^ e.digitCount := by
  induction e with
  | digit v n =>
      have hv : v.toNat ≤ 9 := UInt8.le_iff_toNat_le.mp (h v (List.mem_singleton_self v))
      exact Int.ofNat_le.mpr hv
  | group l o r n ihl ihr =>
      obtain ⟨hl, hr⟩ := isDecimal_group.mp h
      have hl9 := l.nine_le_pow
      have hr9 := r.nine_le_pow
      rw [exact, digitCount, pow_add]
      exact o.over_le_mul l.exact_nonneg r.exact_nonneg (ihl hl) (ihr hr) (by omega) (by omega)

/-! ## Where something wraps -/

/-- The operation on words does not give the result on the integers. -/
def Op.Wraps (o : Op) (a b : Int64) : Prop := (o.apply a b).toInt ≠ o.over a.toInt b.toInt

/-- Some operation wraps when the expression is evaluated. -/
def Expr.Wraps : Expr → Prop
  | digit _ _ => False
  | group l o r _ => l.Wraps ∨ r.Wraps ∨ o.Wraps l.value r.value

/-- The instruction applies an operation, and it wraps. -/
def Visit.Wraps (v : Visit) : Prop :=
  ∃ (o : Op) (a b : Int64) (stack : List Int64),
    v.instruction.opcode = o.opcode ∧ v.stack = b :: a :: stack ∧ o.Wraps a b

namespace Expr

/-- Where nothing wraps, the value is exact. -/
theorem toInt_value_of_not_wraps {e : Expr} (h : ¬ e.Wraps) : e.value.toInt = e.exact := by
  induction e with
  | digit v n => exact toInt_word v
  | group l o r n ihl ihr =>
      simp only [Wraps, not_or, Op.Wraps, not_not] at h
      obtain ⟨hl, hr, ho⟩ := h
      rw [value, ho, ihl hl, ihr hr, exact]

theorem Wraps.of_mem {d e : Expr} (h : d.Wraps) (hd : d ∈ e.subtrees) : e.Wraps := by
  induction e with
  | digit v n => rwa [List.mem_singleton.mp hd] at h
  | group l o r n ihl ihr =>
      rcases mem_subtrees_group.mp hd with rfl | hd | hd
      · exact h
      · exact .inl (ihl hd)
      · exact .inr (.inl (ihr hd))

/-- Nothing wraps if and only if no part has too large a result. -/
theorem not_wraps_iff {e : Expr} : ¬ e.Wraps ↔ ∀ d ∈ e.subtrees, d.exact < 2 ^ 63 := by
  constructor
  · intro h d hd
    have hnot : ¬ d.Wraps := fun hwraps => h (hwraps.of_mem hd)
    exact d.toInt_value_eq_exact_iff.mp (toInt_value_of_not_wraps hnot)
  · intro h
    induction e with
    | digit v n => exact id
    | group l o r n ihl ihr =>
        simp only [subtrees, List.forall_mem_cons, List.forall_mem_append] at h
        obtain ⟨hself, hl, hr⟩ := h
        have hlnot := ihl hl
        have hrnot := ihr hr
        -- the operands are exact, and their result is in the range of a word
        have ho : (o.apply l.value r.value).toInt = o.over l.value.toInt r.value.toInt := by
          rw [toInt_value_of_not_wraps hlnot, toInt_value_of_not_wraps hrnot]
          exact (group l o r n).toInt_value_eq_exact_iff.mpr hself
        rintro (hwraps | hwraps | hwraps)
        · exact hlnot hwraps
        · exact hrnot hwraps
        · exact hwraps ho

end Expr

/-! ## Where the code of an expression is executed -/

theorem Op.opcode_injective : Function.Injective Op.opcode := by
  intro o o' h
  cases o with
  | add =>
      cases o' with
      | add => rfl
      | mul => exact nomatch h
  | mul =>
      cases o' with
      | add => exact nomatch h
      | mul => rfl

theorem Op.opcode_ne_push (o : Op) (v : UInt8) : o.opcode ≠ .push v := by
  cases o with
  | add => exact nofun
  | mul => exact nofun

theorem Visit.not_wraps {v : Visit} (h : ∀ o : Op, v.instruction.opcode ≠ o.opcode) :
    ¬ v.Wraps := by
  rintro ⟨o, a, b, stack, hopcode, -⟩
  exact h o hopcode

/-- The operands are on top of the stack, the right one first. -/
theorem Stage.wraps_opcode_iff {o : Op} {n : Nat} {l r : Expr} {ts : List Expr} :
    (visit ⟨⟨o.opcode, n⟩, r :: l :: ts⟩).Wraps ↔ o.Wraps l.value r.value := by
  constructor
  · rintro ⟨o', a, b, stack, hopcode, hstack, hwraps⟩
    obtain rfl : o = o' := Op.opcode_injective hopcode
    cases hstack
    exact hwraps
  · intro hwraps
    exact ⟨o, _, _, _, rfl, rfl, hwraps⟩

namespace Expr

/-- The operations of an expression are those of its instructions. -/
theorem exists_wraps_stages_iff {e : Expr} {ts : List Expr} :
    (∃ s ∈ e.stages ts, s.visit.Wraps) ↔ e.Wraps := by
  induction e generalizing ts with
  | digit v n =>
      simp only [stages, List.mem_singleton, exists_eq_left, Wraps, iff_false]
      exact Visit.not_wraps fun o => (o.opcode_ne_push v).symm
  | group l o r n ihl ihr =>
      simp only [mem_stages_group, or_and_right, exists_or, exists_eq_left, ihl, ihr,
        Stage.wraps_opcode_iff, Wraps]

theorem exists_wraps_codeStages_iff (e : Expr) :
    (∃ s ∈ e.codeStages, s.visit.Wraps) ↔ e.Wraps := by
  have hprint : ¬ (Stage.visit ⟨⟨.print, e.line⟩, [e]⟩).Wraps :=
    Visit.not_wraps fun o => o.opcode_ne_print.symm
  simp only [codeStages, List.mem_append, List.mem_singleton, or_and_right, exists_or,
    exists_eq_left, exists_wraps_stages_iff, hprint, or_false]

/-- The values on the stack are those of parts of the expression, above those that are there
already. -/
theorem mem_trees_stages {e : Expr} {ts : List Expr} {s : Stage} (hs : s ∈ e.stages ts) :
    ∀ t ∈ s.trees, t ∈ ts ∨ t ∈ e.subtrees := by
  induction e generalizing ts with
  | digit v n =>
      intro t ht
      rw [List.mem_singleton.mp hs] at ht
      exact .inl ht
  | group l o r n ihl ihr =>
      intro t ht
      rw [mem_subtrees_group]
      rcases mem_stages_group.mp hs with hs | hs | rfl
      · exact (ihl hs t ht).imp_right fun h => .inr (.inl h)
      · rcases ihr hs t ht with ht | ht
        · rcases List.mem_cons.mp ht with rfl | ht
          · exact .inr (.inr (.inl t.mem_subtrees_self))
          · exact .inl ht
        · exact .inr (.inr (.inr ht))
      · simp only [List.mem_cons] at ht
        rcases ht with rfl | rfl | ht
        · exact .inr (.inr (.inr t.mem_subtrees_self))
        · exact .inr (.inr (.inl t.mem_subtrees_self))
        · exact .inl ht

end Expr

namespace Machine

theorem visits_execute_generate (m : Machine) (c : Coder) (e : Expr) :
    (m.execute (c.generate e).1).visits = e.codeStages.map Stage.visit := by
  rw [Coder.generate_eq, execute_code]

theorem exists_wraps_visits_iff (m : Machine) (c : Coder) (e : Expr) :
    (∃ v ∈ (m.execute (c.generate e).1).visits, v.Wraps) ↔ e.Wraps := by
  rw [visits_execute_generate, ← e.exists_wraps_codeStages_iff]
  simp only [List.mem_map, exists_exists_and_eq_and]

theorem exists_subtree_of_mem_stack {m : Machine} {c : Coder} {e : Expr} {v : Visit}
    (hv : v ∈ (m.execute (c.generate e).1).visits) :
    ∀ w ∈ v.stack, ∃ d ∈ e.subtrees, d.value = w := by
  rw [visits_execute_generate] at hv
  obtain ⟨s, hs, rfl⟩ := List.mem_map.mp hv
  intro w hw
  obtain ⟨t, ht, rfl⟩ := List.mem_map.mp hw
  refine ⟨t, ?_, rfl⟩
  rcases List.mem_append.mp hs with hs | hs
  · exact (Expr.mem_trees_stages hs t ht).resolve_left List.not_mem_nil
  · rw [List.mem_singleton.mp hs] at ht
    rw [List.mem_singleton.mp ht]
    exact e.mem_subtrees_self

end Machine

/-! ## Nineteen digits and twenty -/

namespace Expr

/-- Nothing wraps where the expression is evaluated and where its code is executed, and all results
are exact. -/
structure ComputedExactly (e : Expr) : Prop where
  evaluation : ¬ e.Wraps
  value : e.value.toInt = e.exact
  nonneg : 0 ≤ e.value.toInt
  outcome : ∀ (m : Machine) (c : Coder),
    (m.execute (c.generate e).1).outcome = .ok [⟨e.value, e.line⟩]
  execution : ∀ (m : Machine) (c : Coder), ∀ v ∈ (m.execute (c.generate e).1).visits, ¬ v.Wraps
  /-- Each value that is ever on the stack is the exact result of a part of the expression. -/
  stack : ∀ (m : Machine) (c : Coder), ∀ v ∈ (m.execute (c.generate e).1).visits,
    ∀ w ∈ v.stack, ∃ d ∈ e.subtrees, w.toInt = d.exact

theorem computedExactly_of_not_wraps {e : Expr} (h : ¬ e.Wraps) : e.ComputedExactly where
  evaluation := h
  value := toInt_value_of_not_wraps h
  nonneg := by
    rw [toInt_value_of_not_wraps h]
    exact e.exact_nonneg
  outcome := by
    intro m c
    rw [Coder.generate_eq]
    exact m.outcome_execute_code e
  execution := by
    intro m c v hv hwraps
    exact h ((m.exists_wraps_visits_iff c e).mp ⟨v, hv, hwraps⟩)
  stack := by
    intro m c v hv w hw
    obtain ⟨d, hd, rfl⟩ := Machine.exists_subtree_of_mem_stack hv w hw
    exact ⟨d, hd, toInt_value_of_not_wraps fun hwraps => h (hwraps.of_mem hd)⟩

theorem exact_le_of_mem {d e : Expr} (h : e.IsDecimal) (hd : d ∈ e.subtrees) :
    d.exact ≤ 9 ^ e.digitCount :=
  calc d.exact ≤ 9 ^ d.digitCount := (h.of_mem hd).exact_le
    _ ≤ 9 ^ e.digitCount := pow_le_pow_right₀ (by decide) (digitCount_le_of_mem hd)

theorem IsDecimal.not_wraps {e : Expr} (h : e.IsDecimal) (hcount : e.digitCount ≤ 19) :
    ¬ e.Wraps := by
  refine not_wraps_iff.mpr fun d hd => ?_
  calc d.exact ≤ 9 ^ e.digitCount := exact_le_of_mem h hd
    _ ≤ 9 ^ 19 := pow_le_pow_right₀ (by decide) hcount
    _ < 2 ^ 63 := by decide

theorem digitCount_power (v : UInt8) (n : Nat) : (power v n).digitCount = n + 1 := by
  induction n with
  | zero => rfl
  | succ n ih => exact congrArg (· + 1) ih

theorem isDecimal_power {v : UInt8} (hv : v ≤ 9) (n : Nat) : (power v n).IsDecimal := by
  induction n with
  | zero => exact List.forall_mem_singleton.mpr hv
  | succ n ih => exact isDecimal_group.mpr ⟨ih, List.forall_mem_singleton.mpr hv⟩

/-- The expressions that are read from a source have digits up to nine.  In such an expression with
`n` digits the exact result of any part is from 0 to 9^n, and there are expressions where it is 9^n.
Up to nineteen digits nothing wraps, neither in the evaluation nor on the machine, where all values on
the stack are exact results of parts; of twenty digits there is an expression where something wraps
in both, and the value is not exact. -/
theorem decimal_values_bounded :
    (∀ (c : Cursor) (e : Expr), c.readExpr.answer = .ok (some e) → e.IsDecimal) ∧
    (∀ e : Expr, e.IsDecimal → ∀ d ∈ e.subtrees, 0 ≤ d.exact ∧ d.exact ≤ 9 ^ e.digitCount) ∧
    (∀ n : Nat, ∃ e : Expr, e.IsDecimal ∧ e.digitCount = n + 1 ∧ e.exact = 9 ^ e.digitCount) ∧
    (∀ e : Expr, e.IsDecimal → e.digitCount ≤ 19 → e.ComputedExactly) ∧
    ∃ e : Expr, e.IsDecimal ∧ e.digitCount = 20 ∧ e.Wraps ∧ e.value.toInt ≠ e.exact ∧
      ∀ (m : Machine) (c : Coder), ∃ v ∈ (m.execute (c.generate e).1).visits, v.Wraps := by
  refine ⟨?_, ?_, ?_, ?_, ?_⟩
  · intro c e h
    exact Cursor.isDecimal_of_readExpr h
  · intro e h d hd
    exact ⟨d.exact_nonneg, exact_le_of_mem h hd⟩
  · intro n
    refine ⟨power 9 n, isDecimal_power (by decide) n, digitCount_power 9 n, ?_⟩
    rw [exact_power, digitCount_power]
    rfl
  · intro e h hcount
    exact computedExactly_of_not_wraps (h.not_wraps hcount)
  · have hlarge : ¬ (power 9 19).exact < 2 ^ 63 := by
      rw [exact_power]
      decide
    have hwraps : (power 9 19).Wraps := by
      by_contra hnot
      exact hlarge (not_wraps_iff.mp hnot _ (mem_subtrees_self _))
    refine ⟨power 9 19, isDecimal_power (by decide) 19, digitCount_power 9 19, hwraps, ?_, ?_⟩
    · exact fun heq => hlarge ((power 9 19).toInt_value_eq_exact_iff.mp heq)
    · intro m c
      exact (m.exists_wraps_visits_iff c _).mpr hwraps

/-- Two nines are read from two lines; nineteen of them multiplied do not wrap. -/
theorem decimal_values_bounded_nines :
    (Cursor.ofString "(9*\n9)").readExpr.answer =
      .ok (some (.group (.digit 9 0) .mul (.digit 9 1) 0)) ∧
    (group (.digit 9 0) .mul (.digit 9 1) 0).IsDecimal ∧
    (group (.digit 9 0) .mul (.digit 9 1) 0).exact ≤ 9 ^ 2 ∧
    (power 9 18).IsDecimal ∧ (power 9 18).digitCount = 19 ∧
    (power 9 18).value.toInt = 1350851717672992089 := by
  obtain ⟨hread, hbound, -, hexact, -⟩ := decimal_values_bounded
  have hanswer : (Cursor.ofString "(9*\n9)").readExpr.answer =
      .ok (some (.group (.digit 9 0) .mul (.digit 9 1) 0)) := rfl
  have hdecimal := hread _ _ hanswer
  have hnines : (power 9 18).IsDecimal := isDecimal_power (by decide) 18
  have hcount : (power 9 18).digitCount = 19 := digitCount_power 9 18
  refine ⟨hanswer, hdecimal, (hbound _ hdecimal _ (mem_subtrees_self _)).2, hnines, hcount, ?_⟩
  rw [(hexact _ hnines hcount.le).value]
  rfl

end Expr

end GroupedArith
