/-
# `GroupedArith.Proofs.Exactness` — a value is the exact result, modulo 2^64

`e.exact` is what the expression `e` is worth among the integers, where nothing wraps.

## What is proved

`e.value` is `e.exact` brought into the range of a word (`Expr.value_exact`):

    z = e.value      iff    -2^63 ≤ z < 2^63  and  z ≡ e.exact  modulo 2^64

It makes no difference how often and where a result wraps on the way.  So the value
is exact if and only if the exact result is less than 2^63, and expressions have the
same value if and only if their exact results differ by a multiple of 2^64.  An
expression may be rearranged by the laws of sums and products (`Rearranged`), whatever
wraps before and after.

## How

An operation on words is the operation on integers, reduced (`Op.toInt_apply`); and
reducing the operands first does not change a reduced result (`Op.over_bmod`).  These
two carry the reduction from the digits to the whole expression (`Expr.toInt_value`).
-/
import GroupedArith.Expr.Value
import Mathlib.Data.Int.ModEq

namespace GroupedArith

/-! ## Without bounds -/

/-- The operation that an operator stands for, on numbers of any kind. -/
def Op.over {α : Type} [Add α] [Mul α] : Op → α → α → α
  | .add, a, b => a + b
  | .mul, a, b => a * b

/-- What an expression is worth when nothing wraps. -/
def Expr.exact : Expr → Int
  | .digit v _ => v.toNat
  | .group l o r _ => o.over l.exact r.exact

theorem Op.over_nonneg (o : Op) {a b : Int} (ha : 0 ≤ a) (hb : 0 ≤ b) : 0 ≤ o.over a b := by
  cases o with
  | add => exact Int.add_nonneg ha hb
  | mul => exact Int.mul_nonneg ha hb

theorem Expr.exact_nonneg (e : Expr) : 0 ≤ e.exact := by
  induction e with
  | digit v n => exact Int.natCast_nonneg _
  | group l o r n ihl ihr => exact o.over_nonneg ihl ihr

/-! ## Reduced to words -/

theorem toInt_word (v : UInt8) : (word v).toInt = v.toNat := by
  have hv : v.toNat < 256 := v.toNat_lt
  rw [word, Int64.toInt_ofNat_of_lt (by omega)]

/-- An operation on words gives the reduced result. -/
theorem Op.toInt_apply (o : Op) (a b : Int64) :
    (o.apply a b).toInt = (o.over a.toInt b.toInt).bmod (2 ^ 64) := by
  cases o with
  | add => exact Int64.toInt_add a b
  | mul => exact Int64.toInt_mul a b

/-- It is the same whether the operands were reduced before. -/
theorem Op.over_bmod (o : Op) (a b : Int) (n : Nat) :
    (o.over (a.bmod n) (b.bmod n)).bmod n = (o.over a b).bmod n := by
  cases o with
  | add => exact (Int.add_bmod a b n).symm
  | mul => exact (Int.mul_bmod a b n).symm

theorem Expr.toInt_value (e : Expr) : e.value.toInt = e.exact.bmod (2 ^ 64) := by
  induction e with
  | digit v n =>
      have hv : v.toNat < 256 := v.toNat_lt
      rw [value, exact, toInt_word, Int.bmod_eq_of_le (by omega) (by omega)]
  | group l o r n ihl ihr => rw [value, Op.toInt_apply, ihl, ihr, Op.over_bmod, exact]

/-- The value is the only number in the range of a word that is congruent to the exact result. -/
theorem Expr.eq_toInt_value_iff (e : Expr) (z : Int) :
    z = e.value.toInt ↔ -2 ^ 63 ≤ z ∧ z < 2 ^ 63 ∧ z ≡ e.exact [ZMOD 2 ^ 64] := by
  rw [toInt_value, eq_comm, Int.bmod_eq_iff (by decide), Int.modEq_comm, Int.modEq_iff_dvd]
  rfl

theorem Expr.toInt_value_eq_exact_iff (e : Expr) : e.value.toInt = e.exact ↔ e.exact < 2 ^ 63 := by
  have hnonneg := e.exact_nonneg
  rw [eq_comm, eq_toInt_value_iff]
  constructor
  · exact fun h => h.2.1
  · exact fun h => ⟨by omega, h, .rfl⟩

theorem Expr.value_eq_iff_modEq (e e' : Expr) :
    e'.value = e.value ↔ e'.exact ≡ e.exact [ZMOD 2 ^ 64] := by
  rw [← Int64.toInt_inj, toInt_value, toInt_value]
  constructor
  · intro h
    have hmod := congrArg (· % ((2 ^ 64 : Nat) : Int)) h
    simp only [Int.bmod_emod] at hmod
    exact hmod
  · intro h
    rw [← Int.emod_bmod e'.exact, ← Int.emod_bmod e.exact]
    exact congrArg (Int.bmod · (2 ^ 64)) h

/-! ## Rearranging -/

/-- An expression becomes another one by the laws of sums and products, in any of its parts. -/
inductive Rearranged : Expr → Expr → Prop
  | digit (v : UInt8) (n m : Nat) : Rearranged (.digit v n) (.digit v m)
  | group {l l' r r' : Expr} (o : Op) (n m : Nat) :
      Rearranged l l' → Rearranged r r' → Rearranged (.group l o r n) (.group l' o r' m)
  | comm (l : Expr) (o : Op) (r : Expr) (n m : Nat) :
      Rearranged (.group l o r n) (.group r o l m)
  | assoc (a b c : Expr) (o : Op) (n k m j : Nat) :
      Rearranged (.group (.group a o b k) o c n) (.group a o (.group b o c j) m)
  | distrib (a b c : Expr) (n k m i j : Nat) :
      Rearranged (.group a .mul (.group b .add c k) n)
        (.group (.group a .mul b i) .add (.group a .mul c j) m)
  | symm {e e' : Expr} : Rearranged e e' → Rearranged e' e
  | trans {e e' e'' : Expr} : Rearranged e e' → Rearranged e' e'' → Rearranged e e''

/-- The laws hold of the integers. -/
theorem Rearranged.exact_eq {e e' : Expr} (h : Rearranged e e') : e'.exact = e.exact := by
  induction h with
  | digit v n m => rfl
  | group o n m _ _ ihl ihr => rw [Expr.exact, ihl, ihr, Expr.exact]
  | comm l o r n m =>
      cases o with
      | add => exact Int.add_comm _ _
      | mul => exact Int.mul_comm _ _
  | assoc a b c o n k m j =>
      cases o with
      | add => exact (Int.add_assoc _ _ _).symm
      | mul => exact (Int.mul_assoc _ _ _).symm
  | distrib a b c n k m i j => exact (Int.mul_add _ _ _).symm
  | symm _ ih => exact ih.symm
  | trans _ _ ih ih' => exact ih'.trans ih

/-- The product of `n + 1` times the same number. -/
def Expr.power (v : UInt8) : Nat → Expr
  | 0 => .digit v 0
  | n + 1 => .group (power v n) .mul (.digit v 0) 0

theorem Expr.exact_power (v : UInt8) (n : Nat) : (power v n).exact = (v.toNat : Int) ^ (n + 1) := by
  induction n with
  | zero => exact (Int.pow_one _).symm
  | succ n ih => exact congrArg (· * (v.toNat : Int)) ih

/-- The value of an expression is its exact result modulo 2^64, in the range of a word, and nothing
else.  It is the exact result itself if and only if this is less than 2^63.  Expressions with the
same exact result have the same value, such as those that come from each other by the laws of sums
and products, though other results may wrap on the way. -/
theorem Expr.value_exact (e : Expr) :
    (∀ z : Int, z = e.value.toInt ↔ -2 ^ 63 ≤ z ∧ z < 2 ^ 63 ∧ z ≡ e.exact [ZMOD 2 ^ 64]) ∧
    (e.value.toInt = e.exact ↔ e.exact < 2 ^ 63) ∧
    (∀ e' : Expr, e'.value = e.value ↔ e'.exact ≡ e.exact [ZMOD 2 ^ 64]) ∧
    (∀ e' : Expr, e'.exact = e.exact → e'.value = e.value) ∧
    ∀ e' : Expr, Rearranged e e' → e'.value = e.value := by
  have hsame : ∀ e' : Expr, e'.exact = e.exact → e'.value = e.value := by
    intro e' h
    rw [value_eq_iff_modEq, h]
  refine ⟨e.eq_toInt_value_iff, e.toInt_value_eq_exact_iff, e.value_eq_iff_modEq, hsame, ?_⟩
  intro e' h
  exact hsame e' h.exact_eq

/-- With `p` for seven times 255 multiplied, the last product of `p * (100 + 155)` wraps, and so does
that of `p * 255`; of `p * 100 + p * 155` it is one of the two products, and not the sum.  All three
have the value of 255 to the power of 8 in the range of a word. -/
theorem Expr.value_exact_distrib :
    Rearranged (.group (power 255 6) .mul (.group (.digit 100 0) .add (.digit 155 0) 0) 0)
      (.group (.group (power 255 6) .mul (.digit 100 0) 0) .add
        (.group (power 255 6) .mul (.digit 155 0) 0) 0) ∧
    (Expr.group (power 255 6) .mul (.group (.digit 100 0) .add (.digit 155 0) 0) 0).exact =
      255 ^ 8 ∧
    (Expr.group (power 255 6) .mul (.group (.digit 100 0) .add (.digit 155 0) 0) 0).value.toInt =
      255 ^ 8 - 2 ^ 64 ∧
    (Expr.group (.group (power 255 6) .mul (.digit 100 0) 0) .add
        (.group (power 255 6) .mul (.digit 155 0) 0) 0).value =
      (Expr.group (power 255 6) .mul (.group (.digit 100 0) .add (.digit 155 0) 0) 0).value ∧
    (power 255 7).value =
      (Expr.group (power 255 6) .mul (.group (.digit 100 0) .add (.digit 155 0) 0) 0).value := by
  have hlaw := Rearranged.distrib (power 255 6) (.digit 100 0) (.digit 155 0) 0 0 0 0 0
  have hpower : (power 255 7).exact =
      (Expr.group (power 255 6) .mul (.group (.digit 100 0) .add (.digit 155 0) 0) 0).exact := rfl
  obtain ⟨hvalue, -, -, hsame, hrearranged⟩ :=
    value_exact (.group (power 255 6) .mul (.group (.digit 100 0) .add (.digit 155 0) 0) 0)
  refine ⟨hlaw, rfl, ?_, hrearranged _ hlaw, hsame _ hpower⟩
  exact ((hvalue _).mpr ⟨by decide, by decide, by decide⟩).symm

end GroupedArith
