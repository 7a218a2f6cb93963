/-
# `GroupedArith.Proofs.Decoding` — which programs are the code of an expression

## What is proved

Code can be read back: expressions with the same code are the same, their lines
included, and this holds of the codes of several expressions one after the other
as well.  And a program is the code of some expression if and only if

    it has one PRINT, which comes last,
    the PRINT stands on the line of the instruction before it,
    the machine accepts it

(`generate_injective_range`).  The decoder is the machine on trees,
`Forest.exec`.  What makes it one is an invariant of programs without PRINT
(`Forest.code_eq_of_exec`):

    the bodies of the trees on the stack, the bottom one first, are the program

A program that is accepted with its one PRINT at the end has a single tree on
the stack before it, and this tree has the rest of the program for its body.
-/
import GroupedArith.Proofs.Forest

namespace GroupedArith

/-! ## The shape of code -/

theorem Expr.opcode_ne_print_of_mem_body {e : Expr} :
    ∀ i ∈ e.body, i.opcode ≠ .print := by
  induction e with
  | digit v n =>
      intro i hi
      rw [List.mem_singleton.mp hi]
      exact nofun
  | group l o r n ihl ihr =>
      intro i hi
      rcases List.mem_append.mp hi with hi | hi
      · rcases List.mem_append.mp hi with hi | hi
        · exact ihl i hi
        · exact ihr i hi
      · rw [List.mem_singleton.mp hi]
        exact o.opcode_ne_print

/-- The last instruction is that of the root. -/
theorem Expr.exists_body_eq_concat (e : Expr) :
    ∃ q i, e.body = q ++ [i] ∧ i.line = e.line := by
  cases e with
  | digit v n => exact ⟨[], ⟨.push v, n⟩, rfl, rfl⟩
  | group l o r n => exact ⟨l.body ++ r.body, ⟨o.opcode, n⟩, rfl, rfl⟩

/-- A program has one PRINT, at the end, if and only if there is none before it. -/
theorem countP_print_concat_eq_one_iff {q : List Instruction} {n : Nat} :
    List.countP (fun i : Instruction => i.opcode = .print) (q ++ [⟨.print, n⟩]) = 1 ↔
      ∀ i ∈ q, i.opcode ≠ .print := by
  rw [List.countP_append, List.countP_singleton, if_pos (decide_eq_true rfl), Nat.add_eq_right,
    List.countP_eq_zero]
  simp only [decide_eq_true_eq, ne_eq]

/-! ## Reading code back -/

namespace Forest

/-- The code of the trees on the stack, the bottom one first. -/
def code (f : Forest) : List Instruction := f.pending.reverse.flatMap Expr.body

/-- An instruction that prints nothing becomes the last one of the code on the stack. -/
theorem Grows.code_eq {f f' : Forest} {i : Instruction} (h : f.Grows i f')
    (hi : i.opcode ≠ .print) : f'.printed = f.printed ∧ f'.code = f.code ++ [i] := by
  cases h with
  | push ts es v n => exact ⟨rfl, by simp [code, Expr.body]⟩
  | op l r ts es o n => exact ⟨rfl, by simp [code, Expr.body]⟩
  | print => exact absurd rfl hi

theorem Grows.eq_of_print {f f' : Forest} {n : Nat} (h : f.Grows ⟨.print, n⟩ f') :
    ∃ e, f.pending = e :: f'.pending ∧ f'.printed = f.printed ++ [e.withLine n] := by
  generalize hi : (⟨.print, n⟩ : Instruction) = i at h
  cases h with
  | push => exact nomatch hi
  | op l r ts es o m => exact absurd (congrArg Instruction.opcode hi).symm o.opcode_ne_print
  | print e ts es m =>
      cases hi
      exact ⟨e, rfl, rfl⟩

/-- As long as nothing is printed, the stack holds the whole program. -/
theorem code_eq_of_exec {g : Forest} {p : List Instruction} (h : exec {} p = .ok g)
    (hp : ∀ i ∈ p, i.opcode ≠ .print) : g.printed = [] ∧ g.code = p := by
  refine exec_preserves (P := fun f q => (∀ i ∈ q, i.opcode ≠ .print) →
    f.printed = [] ∧ f.code = q) ?_ h (fun _ => ⟨rfl, rfl⟩) hp
  intro f i f' q hgrows ih hq
  obtain ⟨hprinted, hcode⟩ := hgrows.code_eq (hq i (by simp))
  obtain ⟨hf, hfcode⟩ := ih fun j hj => hq j (List.mem_append_left _ hj)
  rw [hprinted, hcode, hf, hfcode]
  exact ⟨rfl, rfl⟩

/-- A program that prints at its end and is accepted has one tree to print, which is the program
before the PRINT. -/
theorem exists_body_eq_of_exec {q : List Instruction} {n : Nat} {es : List Expr}
    (h : exec {} (q ++ [⟨.print, n⟩]) = .ok ⟨[], es⟩) (hq : ∀ i ∈ q, i.opcode ≠ .print) :
    ∃ e : Expr, e.body = q := by
  rw [exec_append] at h
  obtain ⟨f, hf, hprint⟩ := bind_eq_ok h
  obtain ⟨g, hgrows, hg⟩ := exec_cons_eq_ok hprint
  cases hg
  obtain ⟨e, hpending, -⟩ := hgrows.eq_of_print
  refine ⟨e, ?_⟩
  rw [← (code_eq_of_exec hf hq).2, code, hpending]
  simp

end Forest

/-! ## Code and expressions -/

theorem flatMap_code_injective {es fs : List Expr}
    (h : es.flatMap Expr.code = fs.flatMap Expr.code) : es = fs := by
  have hes := Forest.exec_codes es []
  rw [h, Forest.exec_codes fs []] at hes
  exact (Forest.mk.inj (Except.ok.inj hes)).2.symm

theorem Expr.code_injective {e e' : Expr} (h : e.code = e'.code) : e = e' := by
  have hlists : [e] = [e'] := flatMap_code_injective (by simp [h])
  exact List.singleton_inj.mp hlists

theorem exists_code_eq_iff {m : Machine} {p : List Instruction} :
    (∃ e : Expr, e.code = p) ↔
      p.countP (fun i => i.opcode = .print) = 1 ∧ (∃ q i, p = q ++ [i, ⟨.print, i.line⟩]) ∧
        ∃ as, (m.execute p).outcome = .ok as := by
  constructor
  · rintro ⟨e, rfl⟩
    obtain ⟨q, i, hbody, hline⟩ := e.exists_body_eq_concat
    refine ⟨?_, ⟨q, i, ?_⟩, _, m.outcome_execute_code e⟩
    · exact countP_print_concat_eq_one_iff.mpr Expr.opcode_ne_print_of_mem_body
    · rw [Expr.code, hbody, hline, List.append_assoc]
      rfl
  · rintro ⟨hcount, ⟨q, i, rfl⟩, as, has⟩
    have hsplit : q ++ [i, ⟨.print, i.line⟩] = (q ++ [i]) ++ [⟨.print, i.line⟩] := by simp
    rw [hsplit] at hcount has ⊢
    obtain ⟨es, hexec, -⟩ := Forest.outcome_execute_eq_ok_iff.mp has
    obtain ⟨e, he⟩ :=
      Forest.exists_body_eq_of_exec hexec (countP_print_concat_eq_one_iff.mp hcount)
    -- the root of the tree is on the line of the instruction before the PRINT
    obtain ⟨q', i', hbody, hline⟩ := e.exists_body_eq_concat
    obtain ⟨-, hlast⟩ := List.append_inj' (he.symm.trans hbody) rfl
    obtain rfl := List.singleton_inj.mp hlast
    exact ⟨e, by rw [Expr.code, he, hline]⟩

/-- Expressions with the same code are the same, and so are lists of expressions whose codes are the
same one after the other.  Code are the programs with one PRINT, at the end and on the line of the
instruction before it, that the machine accepts. -/
theorem Coder.generate_injective_range :
    (∀ (c c' : Coder) (e e' : Expr), (c.generate e).1 = (c'.generate e').1 ↔ e = e') ∧
    (∀ (c : Coder) (es fs : List Expr),
      (es.flatMap fun e => (c.generate e).1) = (fs.flatMap fun e => (c.generate e).1) ↔ es = fs) ∧
    ∀ (c : Coder) (m : Machine) (p : List Instruction),
      (∃ e, (c.generate e).1 = p) ↔
        p.countP (fun i => i.opcode = .print) = 1 ∧ (∃ q i, p = q ++ [i, ⟨.print, i.line⟩]) ∧
          ∃ as, (m.execute p).outcome = .ok as := by
  simp only [Coder.generate_eq]
  refine ⟨?_, ?_, ?_⟩
  · intro c c' e e'
    exact ⟨Expr.code_injective, congrArg Expr.code⟩
  · intro c es fs
    exact ⟨flatMap_code_injective, fun h => by rw [h]⟩
  · intro c m p
    exact exists_code_eq_iff

end GroupedArith
