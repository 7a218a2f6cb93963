/-
# `GroupedArith.Proofs.Measures` — the size of a tree, of its code and of its text

## What is proved

Let `n` be the number of digits of an expression.  Tree, code and text agree on it
(`Expr.measures_agree`):

    code    2n instructions      n that push the digits, from left to right
                                 n - 1 ADDs and MULs
                                 one PRINT, the last instruction
    text    n digit characters   if and only if the digits are at most nine
            n - 1 each           of `(`, of `)`, and of operators

and on the depth: read from left to right, the text never closes a parenthesis
that it has not opened, and the largest number of parentheses that are open at one
place is the depth of the tree.

## How

What is counted in a text does not depend on the order of its characters, and these
are those of the digits and `(`, `)` and an operator for each group
(`Expr.toList_render_perm`).

The depth of a text does depend on it.  That the text is nested so deep is said of
all its beginnings at once (`Nested`), and carries over to texts one after the other
and to a text in parentheses.  A text that is nested ends with all parentheses
closed, therefore what comes behind it begins on the same level.
-/
import GroupedArith.Proofs.Decoding
import GroupedArith.Proofs.Recovery
import Mathlib.Data.List.Infix

namespace GroupedArith

namespace Expr

/-! ## Trees -/

theorem length_digits (e : Expr) : e.digits.length = e.digitCount := by
  induction e with
  | digit v n => rfl
  | group l o r n ihl ihr => rw [digits, List.length_append, ihl, ihr, digitCount]

/-- Each group joins two expressions into one. -/
theorem length_ops_succ (e : Expr) : e.ops.length + 1 = e.digitCount := by
  induction e with
  | digit v n => rfl
  | group l o r n ihl ihr =>
      rw [ops, List.length_append, List.length_append, List.length_singleton, digitCount]
      omega

/-! ## Code -/

theorem length_body (e : Expr) : e.body.length = e.digits.length + e.ops.length := by
  induction e with
  | digit v n => rfl
  | group l o r n ihl ihr =>
      simp only [body, digits, ops, List.length_append, List.length_singleton, ihl, ihr]
      omega

theorem length_code (e : Expr) : e.code.length = 2 * e.digitCount := by
  have hdigits := e.length_digits
  have hops := e.length_ops_succ
  rw [code, List.length_append, List.length_singleton, length_body]
  omega

/-- The PRINT at the end adds nothing to what is said of the opcodes of the body. -/
theorem filterMap_code {α : Type} {f : Opcode → Option α} (hf : f .print = none) (e : Expr) :
    (e.code.filterMap fun i => f i.opcode) = e.opcodes.filterMap f := by
  have hprint : ([⟨.print, e.line⟩] : List Instruction).filterMap (fun i => f i.opcode) = [] :=
    List.filterMap_cons_none hf
  rw [code, List.filterMap_append, hprint, List.append_nil, opcodes, List.filterMap_map]
  rfl

theorem countP_add_or_mul_code (e : Expr) :
    e.code.countP (fun i => i.opcode = .add ∨ i.opcode = .mul) = e.ops.length := by
  have hsome : ∀ i : Instruction,
      decide (i.opcode = .add ∨ i.opcode = .mul) = i.opcode.op?.isSome := by
    rintro ⟨o, n⟩
    cases o <;> rfl
  rw [← filterMap_op?_opcodes, ← filterMap_code (f := Opcode.op?) rfl,
    List.length_filterMap_eq_countP]
  simp only [hsome]

/-! ## The characters of a text -/

theorem toList_render_group (l r : Expr) (o : Op) (n : Nat) :
    (group l o r n).render.toList =
      '(' :: (l.render.toList ++ o.symbol :: r.render.toList) ++ [')'] := by
  simp [render, Char.toString]

end Expr

/-- The characters that a number is written with. -/
def decimal (v : UInt8) : List Char := (toString v.toNat).toList

/-- The characters that a group adds to those of its operands. -/
def Op.frame (o : Op) : List Char := ['(', o.symbol, ')']

theorem length_decimal_pos (v : UInt8) : 0 < (decimal v).length := by
  rw [decimal, String.length_toList]
  exact Nat.length_repr_pos

/-- A number is written with one digit if and only if it is at most nine. -/
theorem length_decimal_eq_one_iff (v : UInt8) : (decimal v).length = 1 ↔ v ≤ 9 := by
  have hpos := length_decimal_pos v
  have hone : (decimal v).length ≤ 1 ↔ v.toNat < 10 ^ 1 := by
    rw [decimal, String.length_toList]
    exact Nat.length_repr_le_iff Nat.one_pos
  rw [UInt8.le_iff_toNat_le, show (9 : UInt8).toNat = 9 from rfl]
  omega

theorem length_le_length_flatMap_decimal (vs : List UInt8) :
    vs.length ≤ (vs.flatMap decimal).length := by
  induction vs with
  | nil => exact Nat.le_refl 0
  | cons v vs ih =>
      have hv := length_decimal_pos v
      rw [List.flatMap_cons, List.length_append, List.length_cons]
      omega

/-- Numbers one after the other have as many characters as there are of them if and only if all are
at most nine. -/
theorem length_flatMap_decimal_eq_iff (vs : List UInt8) :
    (vs.flatMap decimal).length = vs.length ↔ ∀ v ∈ vs, v ≤ 9 := by
  induction vs with
  | nil => simp
  | cons v vs ih =>
      have hv := length_decimal_pos v
      have hvs := length_le_length_flatMap_decimal vs
      have hboth := and_congr (length_decimal_eq_one_iff v) ih
      rw [List.forall_mem_cons, ← hboth, List.flatMap_cons, List.length_append, List.length_cons]
      omega

/-- If the frame of each operator has `k` characters of a kind, frames one after the other have `k`
times as many as there are of them. -/
theorem countP_flatMap_frame {p : Char → Bool} {k : Nat} (h : ∀ o : Op, o.frame.countP p = k)
    (os : List Op) : (os.flatMap Op.frame).countP p = os.length * k := by
  induction os with
  | nil => exact (Nat.zero_mul k).symm
  | cons o os ih =>
      rw [List.flatMap_cons, List.countP_append, h, ih, List.length_cons, Nat.succ_mul,
        Nat.add_comm]

namespace Expr

/-- The characters of a text are those of the digits, and for each group its parentheses and its
operator. -/
theorem toList_render_perm (e : Expr) :
    e.render.toList.Perm (e.digits.flatMap decimal ++ e.ops.flatMap Op.frame) := by
  induction e with
  | digit v n => simp [render, digits, ops, decimal]
  | group l o r n ihl ihr =>
      refine List.perm_iff_count.mpr fun c => ?_
      have hl := ihl.count_eq c
      have hr := ihr.count_eq c
      simp only [toList_render_group, digits, ops, Op.frame, List.flatMap_append,
        List.flatMap_cons, List.flatMap_nil, List.count_append, List.count_cons,
        List.count_nil] at hl hr ⊢
      omega

theorem countP_render (p : Char → Bool) (e : Expr) :
    e.render.toList.countP p =
      (e.digits.flatMap decimal).countP p + (e.ops.flatMap Op.frame).countP p := by
  rw [e.toList_render_perm.countP_eq, List.countP_append]

theorem isDigit_of_mem_digits {e : Expr} {c : Char} (h : c ∈ e.digits.flatMap decimal) :
    c.isDigit = true := by
  obtain ⟨v, -, hv⟩ := List.mem_flatMap.mp h
  exact isDigit_of_mem_toString hv

theorem countP_isDigit_render (e : Expr) :
    e.render.toList.countP Char.isDigit = (e.digits.flatMap decimal).length := by
  have hframe : ∀ o : Op, o.frame.countP Char.isDigit = 0 := by
    intro o
    cases o <;> rfl
  rw [countP_render, countP_flatMap_frame hframe, Nat.mul_zero, Nat.add_zero]
  exact List.countP_eq_length.mpr fun c hc => isDigit_of_mem_digits hc

/-- Of the characters that are no digits and of which each group adds one, there is one less than
digits. -/
theorem countP_render_succ {p : Char → Bool} (hp : ∀ c, c.isDigit = true → ¬ p c = true)
    (hframe : ∀ o : Op, o.frame.countP p = 1) (e : Expr) :
    e.render.toList.countP p + 1 = e.digitCount := by
  have hnone : (e.digits.flatMap decimal).countP p = 0 :=
    List.countP_eq_zero.mpr fun c hc => hp c (isDigit_of_mem_digits hc)
  rw [countP_render, hnone, countP_flatMap_frame hframe, Nat.zero_add, Nat.mul_one,
    length_ops_succ]

theorem count_render_succ {a : Char} (ha : ¬ a.isDigit = true)
    (hframe : ∀ o : Op, o.frame.count a = 1) (e : Expr) :
    e.render.toList.count a + 1 = e.digitCount := by
  refine countP_render_succ (fun c hc heq => ?_) hframe e
  rw [eq_of_beq heq] at hc
  exact ha hc

theorem countP_operator_render_succ (e : Expr) :
    e.render.toList.countP (fun c => c = '+' ∨ c = '*') + 1 = e.digitCount := by
  refine countP_render_succ (fun c hc heq => ?_) (fun o => ?_) e
  · rcases of_decide_eq_true heq with rfl | rfl
    · exact nomatch hc
    · exact nomatch hc
  · cases o <;> rfl

end Expr

/-! ## Parentheses -/

/-- How many more parentheses are opened than closed. -/
def balance (text : List Char) : Int := text.count '(' - text.count ')'

theorem balance_append (s t : List Char) : balance (s ++ t) = balance s + balance t := by
  simp only [balance, List.count_append]
  omega

theorem balance_opening (t : List Char) : balance ('(' :: t) = balance t + 1 := by
  rw [balance, balance, List.count_cons_self, List.count_cons_of_ne (by decide)]
  omega

theorem balance_eq_zero {t : List Char} (h : ∀ c ∈ t, c ≠ '(' ∧ c ≠ ')') : balance t = 0 := by
  have hopening : '(' ∉ t := fun hc => (h _ hc).1 rfl
  have hclosing : ')' ∉ t := fun hc => (h _ hc).2 rfl
  rw [balance, List.count_eq_zero.mpr hopening, List.count_eq_zero.mpr hclosing]
  rfl

/-- All parentheses of the text are closed at its end and none before it is opened, and so many are
open at one place. -/
structure Nested (text : List Char) (depth : Nat) : Prop where
  closed : balance text = 0
  bounds : ∀ t, t <+: text → 0 ≤ balance t ∧ balance t ≤ depth
  reached : ∃ t, t <+: text ∧ balance t = depth

namespace Nested
variable {s t : List Char} {d d' : Nat}

theorem of_forall_ne (h : ∀ c ∈ t, c ≠ '(' ∧ c ≠ ')') : Nested t 0 where
  closed := balance_eq_zero h
  bounds := by
    intro u hu
    rw [balance_eq_zero fun c hc => h c (hu.subset hc)]
    exact ⟨Int.le_refl 0, Int.le_refl 0⟩
  reached := ⟨[], List.nil_prefix, rfl⟩

/-- The second text begins where no parenthesis is open. -/
theorem append (hs : Nested s d) (ht : Nested t d') : Nested (s ++ t) (max d d') := by
  have hbehind : ∀ v, balance (s ++ v) = balance v := by
    intro v
    rw [balance_append, hs.closed, Int.zero_add]
  refine { closed := (hbehind t).trans ht.closed, bounds := ?_, reached := ?_ }
  · rintro u ⟨rest, hrest⟩
    rcases List.append_eq_append_iff.mp hrest with ⟨v, rfl, -⟩ | ⟨v, rfl, rfl⟩
    · have hu := hs.bounds u (List.prefix_append u v)
      omega
    · have hv := ht.bounds v (List.prefix_append v rest)
      rw [hbehind]
      omega
  · rcases Nat.le_total d d' with h | h
    · obtain ⟨v, hv, hd⟩ := ht.reached
      refine ⟨s ++ v, (List.prefix_append_right_inj s).mpr hv, ?_⟩
      rw [hbehind, hd, Nat.max_eq_right h]
    · obtain ⟨u, hu, hd⟩ := hs.reached
      exact ⟨u, hu.trans (List.prefix_append s t), by rw [hd, Nat.max_eq_left h]⟩

/-- Inside a pair of parentheses one more is open everywhere. -/
theorem enclose (ht : Nested t d) : Nested ('(' :: t ++ [')']) (d + 1) := by
  have hwhole : balance ('(' :: t ++ [')']) = 0 := by
    rw [balance_append, balance_opening, ht.closed]
    rfl
  refine { closed := hwhole, bounds := ?_, reached := ?_ }
  · intro u hu
    -- a beginning is everything, or empty, or goes into the text inside
    rcases List.prefix_concat_iff.mp hu with rfl | hu
    · rw [hwhole]
      omega
    · rcases List.prefix_cons_iff.mp hu with rfl | ⟨v, rfl, hv⟩
      · exact ⟨Int.le_refl 0, Int.natCast_nonneg _⟩
      · have hbounds := ht.bounds v hv
        rw [balance_opening]
        omega
  · obtain ⟨v, hv, hd⟩ := ht.reached
    refine ⟨'(' :: v, ((List.prefix_cons_inj '(').mpr hv).trans (List.prefix_append _ _), ?_⟩
    rw [balance_opening, hd]
    rfl

/-- The largest number of open parentheses, over the beginnings one by one. -/
theorem max?_balance (h : Nested t d) : (t.inits.map balance).max? = some (d : Int) := by
  rw [List.max?_eq_some_iff]
  constructor
  · obtain ⟨u, hu, hd⟩ := h.reached
    exact List.mem_map.mpr ⟨u, (List.mem_inits u t).mpr hu, hd⟩
  · intro b hb
    obtain ⟨u, hu, rfl⟩ := List.mem_map.mp hb
    exact (h.bounds u ((List.mem_inits u t).mp hu)).2

end Nested

namespace Expr

/-- The text of an expression is nested as deep as its tree. -/
theorem nested_render (e : Expr) : Nested e.render.toList e.depth := by
  induction e with
  | digit v n =>
      refine .of_forall_ne fun c hc => ?_
      have hdigit : c.isDigit = true := isDigit_of_mem_toString hc
      constructor
      · rintro rfl
        exact nomatch hdigit
      · rintro rfl
        exact nomatch hdigit
  | group l o r n ihl ihr =>
      have hsymbol : Nested [o.symbol] 0 := by
        refine .of_forall_ne fun c hc => ?_
        rw [List.mem_singleton.mp hc]
        cases o <;> decide
      have hinside := ihl.append (hsymbol.append ihr)
      rw [Nat.zero_max] at hinside
      rw [toList_render_group, depth, Nat.add_comm]
      exact hinside.enclose

/-- The code of an expression has twice as many instructions as the expression has digits: it pushes
the digits from left to right, applies one operator less, and prints once, at the end.  Its text has
as many digit characters as there are digits exactly if these are at most nine, and of each
parenthesis and of operators one less.  No beginning of the text closes more parentheses than it
opens, and the depth of the expression is the largest number that a beginning leaves open. -/
theorem measures_agree (c : Coder) (e : Expr) :
    ((c.generate e).1.length = 2 * e.digitCount ∧
      (c.generate e).1.filterMap (fun i => i.opcode.operand?) = e.digits ∧
      e.digits.length = e.digitCount ∧
      (c.generate e).1.countP (fun i => i.opcode = .add ∨ i.opcode = .mul) + 1 = e.digitCount ∧
      (c.generate e).1.countP (fun i => i.opcode = .print) = 1 ∧
      (c.generate e).1.getLast? = some ⟨.print, e.line⟩) ∧
    (e.render.toList.countP Char.isDigit = e.digitCount ↔ e.IsDecimal) ∧
    e.render.toList.count '(' + 1 = e.digitCount ∧
    e.render.toList.count ')' + 1 = e.digitCount ∧
    e.render.toList.countP (fun c => c = '+' ∨ c = '*') + 1 = e.digitCount ∧
    (∀ t ∈ e.render.toList.inits, t.count ')' ≤ t.count '(') ∧
    (e.render.toList.inits.map balance).max? = some (e.depth : Int) := by
  rw [Coder.generate_eq]
  refine ⟨⟨e.length_code, ?_, e.length_digits, ?_, ?_, ?_⟩, ?_, ?_, ?_, ?_, ?_, ?_⟩
  · rw [filterMap_code (f := Opcode.operand?) rfl, filterMap_operand?_opcodes]
  · rw [countP_add_or_mul_code, length_ops_succ]
  · exact countP_print_concat_eq_one_iff.mpr opcode_ne_print_of_mem_body
  · exact List.getLast?_concat
  · rw [countP_isDigit_render, ← length_digits]
    exact length_flatMap_decimal_eq_iff e.digits
  · exact e.count_render_succ (by decide) fun o => by cases o <;> rfl
  · exact e.count_render_succ (by decide) fun o => by cases o <;> rfl
  · exact e.countP_operator_render_succ
  · intro t ht
    have hbounds := e.nested_render.bounds t ((List.mem_inits t _).mp ht)
    rw [balance] at hbounds
    omega
  · exact e.nested_render.max?_balance

/-- The balance along `((1+2)*3)`, of depth two. -/
example : ("((1+2)*3)".toList.inits.map balance) = [0, 1, 2, 2, 2, 2, 1, 1, 1, 0] := by decide

end Expr

end GroupedArith
