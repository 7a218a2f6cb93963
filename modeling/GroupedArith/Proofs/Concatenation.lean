/-
# `GroupedArith.Proofs.Concatenation` — one program after another

Whether values are left is asked at the very end of a program.  So the outcome of
`p ++ q` is not made of the outcomes of `p` and `q` alone: it depends on the stack that
`p` leaves, and this shows in none of them.

## What is proved

For all programs `p` and `q`, executed on machines with any past
(`Machine.outcome_execute_append`):

    outcome of `p`        outcome of `p ++ q`
    answers `as`          the outcome of `q`, with `as` before its answers
    an underflow          the same underflow
    `n` values left       what `q` comes to on the stack that is left

If `q` consists of PRINTs only, the last line reads as follows: fewer than `n` of them
leave the rest of the values, `n` of them print all of them, the top one first, and
one more underflows.

## How

A program that does not underflow leads to its end (`Machine.Passes`), and what follows
is executed on what is left (`Machine.Passes.outcome_run_append`).  The outcome tells
which programs these are, and how many values they leave
(`Machine.passes_of_ok`, `Machine.exists_passes_of_leftover`).
-/
import GroupedArith.Proofs.Heights

namespace GroupedArith

/-- PRINTs on the given lines. -/
def prints (lines : List Nat) : List Instruction := lines.map fun n => ⟨.print, n⟩

/-- An instruction that finds too few values does so whatever follows. -/
theorem StarvesAt.append {p q : List Instruction} {i : Instruction} (h : StarvesAt p q i)
    (r : List Instruction) : StarvesAt (p ++ r) q i where
  split := by
    obtain ⟨s, rfl⟩ := h.split
    exact ⟨s ++ r, by rw [List.append_assoc, List.cons_append]⟩
  supplied := h.supplied
  short := h.short

namespace Machine

section Ended
variable {m : Machine} {p : List Instruction}

/-- A program that is accepted leads from an empty stack to an empty stack. -/
theorem passes_of_ok {as : List Answer} (h : (m.execute p).outcome = .ok as) :
    Passes ⟨[]⟩ p as ⟨[]⟩ := by
  have hends := (execute_eq_ok_iff_ends m).mp ⟨as, h, rfl⟩
  obtain ⟨hp, hnonpos, -⟩ := ends_ok_iff.mp hends
  obtain ⟨bs, ⟨stack⟩, hpasses, hheight, -⟩ := exists_passes_of_supplied hp
  have hlength : (stack.length : Int) = height p := hheight
  obtain rfl : stack = [] := List.length_eq_zero_iff.mp (by omega)
  rw [execute_eq, hpasses.outcome_run] at h
  obtain rfl : bs ++ [] = as := Except.ok.inj h
  rwa [List.append_nil]

/-- A program that leaves values comes to its end with them on the stack. -/
theorem exists_passes_of_leftover {n : Nat} (h : (m.execute p).outcome = .error (.leftover n)) :
    ∃ as stack, Passes ⟨[]⟩ p as ⟨stack⟩ ∧ (m.execute p).machine = ⟨stack⟩ ∧
      stack.length = n ∧ as.map Answer.line = printLines p := by
  obtain ⟨hp, hn, -⟩ := ends_leftover_iff.mp ((execute_eq_error_iff_ends m).mp h)
  obtain ⟨as, ⟨stack⟩, hpasses, hheight, hlines⟩ := exists_passes_of_supplied hp
  have hlength : (stack.length : Int) = height p := hheight
  exact ⟨as, stack, hpasses, hpasses.machine_run, by omega, hlines⟩

theorem outcome_execute_append_of_underflow {n : Nat}
    (h : (m.execute p).outcome = .error (.underflow n)) (m' : Machine) (q : List Instruction) :
    (m'.execute (p ++ q)).outcome = .error (.underflow n) := by
  obtain ⟨q', i, hi, rfl⟩ := ends_underflow_iff.mp ((execute_eq_error_iff_ends m).mp h)
  exact (execute_eq_error_iff_ends m').mpr (.underflow (hi.append q))

end Ended

/-! ## PRINTs -/

/-- PRINTs take values from the top, one by one. -/
theorem passes_prints {stack : List Int64} {lines : List Nat} (h : lines.length ≤ stack.length) :
    Passes ⟨stack⟩ (prints lines) (List.zipWith Answer.mk stack lines)
      ⟨stack.drop lines.length⟩ := by
  induction lines generalizing stack with
  | nil =>
      rw [List.zipWith_nil_right]
      exact .nil ⟨stack⟩
  | cons n lines ih =>
      cases stack with
      | nil => exact absurd h (Nat.not_succ_le_zero _)
      | cons a stack =>
          have hprint : step ⟨a :: stack⟩ ⟨.print, n⟩ = (⟨stack⟩, .ok (some ⟨a, n⟩)) := rfl
          exact .cons hprint (ih (Nat.le_of_succ_le_succ h))

section Prints
variable {stack : List Int64} {lines : List Nat}

theorem outcome_run_prints_of_lt (h : lines.length < stack.length) :
    (run ⟨stack⟩ (prints lines)).outcome = .error (.leftover (stack.length - lines.length)) := by
  have hpasses := passes_prints (Nat.le_of_lt h)
  have hne : ¬ (stack.drop lines.length).isEmpty := by
    rw [List.isEmpty_iff_length_eq_zero, List.length_drop]
    omega
  rw [hpasses.outcome_run, finish, if_neg hne, List.length_drop]
  rfl

theorem outcome_run_prints_of_eq (h : lines.length = stack.length) :
    (run ⟨stack⟩ (prints lines)).outcome = .ok (List.zipWith Answer.mk stack lines) := by
  have hpasses := passes_prints (Nat.le_of_eq h)
  rw [h, List.drop_length] at hpasses
  rw [hpasses.outcome_run]
  exact congrArg Except.ok (List.append_nil _)

/-- The PRINT that comes when all values have been printed underflows. -/
theorem outcome_run_prints_of_gt (h : lines.length = stack.length) (n : Nat) (more : List Nat) :
    (run ⟨stack⟩ (prints (lines ++ n :: more))).outcome = .error (.underflow n) := by
  have hpasses := passes_prints (Nat.le_of_eq h)
  rw [h, List.drop_length] at hpasses
  have hsplit : prints (lines ++ n :: more) = prints lines ++ ⟨.print, n⟩ :: prints more :=
    List.map_append
  rw [hsplit, hpasses.outcome_run_append]
  rfl

end Prints

/-! ## Two programs -/

/-- If a program is accepted, what follows it is executed as it would be alone, and its answers come
behind those of the first.  If it underflows, so it does with anything behind it.  If it leaves
values, what follows is executed on these, so that PRINTs print them, the top one first, until none
is left. -/
theorem outcome_execute_append (m m' m'' : Machine) (p q : List Instruction) :
    (∀ as, (m.execute p).outcome = .ok as →
      (∀ bs, (m'.execute q).outcome = .ok bs → (m''.execute (p ++ q)).outcome = .ok (as ++ bs)) ∧
      ∀ fault, (m'.execute q).outcome = .error fault →
        (m''.execute (p ++ q)).outcome = .error fault) ∧
    (∀ n, (m.execute p).outcome = .error (.underflow n) →
      (m''.execute (p ++ q)).outcome = .error (.underflow n)) ∧
    ∀ n, (m.execute p).outcome = .error (.leftover n) →
      ∃ stack as, (m.execute p).machine = ⟨stack⟩ ∧ stack.length = n ∧
        as.map Answer.line = printLines p ∧
        (m''.execute (p ++ q)).outcome = (run ⟨stack⟩ q).outcome.map (as ++ ·) ∧
        ∀ lines : List Nat,
          (lines.length < n → (m''.execute (p ++ prints lines)).outcome =
            .error (.leftover (n - lines.length))) ∧
          (lines.length = n → (m''.execute (p ++ prints lines)).outcome =
            .ok (as ++ List.zipWith Answer.mk stack lines)) ∧
          (lines.length = n → ∀ line more,
            (m''.execute (p ++ prints (lines ++ line :: more))).outcome =
              .error (.underflow line)) := by
  refine ⟨?_, ?_, ?_⟩
  · intro as has
    have hboth : (m''.execute (p ++ q)).outcome = (m'.execute q).outcome.map (as ++ ·) :=
      (passes_of_ok has).outcome_run_append q
    constructor
    · intro bs hbs
      rw [hboth, hbs]
      rfl
    · intro fault hfault
      rw [hboth, hfault]
      rfl
  · intro n hn
    exact outcome_execute_append_of_underflow hn m'' q
  · intro n hn
    obtain ⟨as, stack, hpasses, hmachine, rfl, hlines⟩ := exists_passes_of_leftover hn
    have hfollow : ∀ r, (m''.execute (p ++ r)).outcome = (run ⟨stack⟩ r).outcome.map (as ++ ·) :=
      hpasses.outcome_run_append
    refine ⟨stack, as, hmachine, rfl, hlines, hfollow q, ?_⟩
    intro lines
    refine ⟨?_, ?_, ?_⟩
    · intro hlt
      rw [hfollow, outcome_run_prints_of_lt hlt]
      rfl
    · intro heq
      rw [hfollow, outcome_run_prints_of_eq heq]
      rfl
    · intro heq line more
      rw [hfollow, outcome_run_prints_of_gt heq]
      rfl

/-- The first program is accepted, underflows, or leaves two values, each on a machine with some
past. -/
theorem outcome_execute_append_samples :
    ((⟨[7]⟩ : Machine).execute [⟨.push 1, 0⟩, ⟨.print, 4⟩]).outcome = .ok [⟨1, 4⟩] ∧
      (({} : Machine).execute [⟨.push 2, 0⟩, ⟨.print, 5⟩]).outcome = .ok [⟨2, 5⟩] ∧
      (({} : Machine).execute ([⟨.push 1, 0⟩, ⟨.print, 4⟩] ++ [⟨.push 2, 0⟩, ⟨.print, 5⟩])).outcome =
        .ok [⟨1, 4⟩, ⟨2, 5⟩] ∧
      (({} : Machine).execute [⟨.push 2, 0⟩]).outcome = .error (.leftover 1) ∧
      (({} : Machine).execute ([⟨.push 1, 0⟩, ⟨.print, 4⟩] ++ [⟨.push 2, 0⟩])).outcome =
        .error (.leftover 1) ∧
      ((⟨[7]⟩ : Machine).execute [⟨.push 1, 0⟩, ⟨.mul, 6⟩]).outcome = .error (.underflow 6) ∧
      (({} : Machine).execute ([⟨.push 1, 0⟩, ⟨.mul, 6⟩] ++ [⟨.print, 8⟩])).outcome =
        .error (.underflow 6) ∧
      (({} : Machine).execute [⟨.push 1, 0⟩, ⟨.push 2, 0⟩]).outcome = .error (.leftover 2) ∧
      (({} : Machine).execute ([⟨.push 1, 0⟩, ⟨.push 2, 0⟩] ++ prints [3])).outcome =
        .error (.leftover 1) ∧
      (({} : Machine).execute ([⟨.push 1, 0⟩, ⟨.push 2, 0⟩] ++ prints [3, 4])).outcome =
        .ok [⟨2, 3⟩, ⟨1, 4⟩] ∧
      (({} : Machine).execute ([⟨.push 1, 0⟩, ⟨.push 2, 0⟩] ++ prints [3, 4, 5])).outcome =
        .error (.underflow 5) := by
  have hone : ((⟨[7]⟩ : Machine).execute [⟨.push 1, 0⟩, ⟨.print, 4⟩]).outcome = .ok [⟨1, 4⟩] := rfl
  have htwo : (({} : Machine).execute [⟨.push 2, 0⟩, ⟨.print, 5⟩]).outcome = .ok [⟨2, 5⟩] := rfl
  have hrest : (({} : Machine).execute [⟨.push 2, 0⟩]).outcome = .error (.leftover 1) := rfl
  have hunder : ((⟨[7]⟩ : Machine).execute [⟨.push 1, 0⟩, ⟨.mul, 6⟩]).outcome =
      .error (.underflow 6) := rfl
  have hleft : (({} : Machine).execute [⟨.push 1, 0⟩, ⟨.push 2, 0⟩]).outcome =
      .error (.leftover 2) := rfl
  have hboth := (outcome_execute_append ⟨[7]⟩ {} {} _ [⟨.push 2, 0⟩, ⟨.print, 5⟩]).1 _ hone
  have hfault := (outcome_execute_append ⟨[7]⟩ {} {} _ [⟨.push 2, 0⟩]).1 _ hone
  obtain ⟨stack, as, hmachine, -, has, -, hprints⟩ :=
    (outcome_execute_append {} {} {} _ []).2.2 _ hleft
  obtain rfl : [2, 1] = stack := congrArg Machine.stack hmachine
  obtain rfl : as = [] := List.map_eq_nil_iff.mp has
  refine ⟨hone, htwo, hboth.1 _ htwo, hrest, hfault.2 _ hrest, hunder, ?_, hleft, ?_, ?_, ?_⟩
  · exact (outcome_execute_append ⟨[7]⟩ {} {} _ [⟨.print, 8⟩]).2.1 _ hunder
  · exact (hprints [3]).1 (by decide)
  · exact (hprints [3, 4]).2.1 rfl
  · exact (hprints [3, 4]).2.2 rfl 5 []

end Machine

end GroupedArith
