/-
# `GroupedArith.Proofs.Selection` — the order of a report is that of the selection

`Engine.all` lists the coder first and the evaluator last.  If reports kept to this
list, a value would stand behind its code, and engines could be selected in any
order.  They do not keep to it: the records stand as the engines were selected.

## What is proved

For any source and any selection of engines (`Session.reports_inOrder_iff`):

    the reports are in the listed order     exactly if the selection is
    two selections give the same reports    exactly if they are equal
    they give the same records,             exactly if one selection
      but maybe in another order              rearranges the other

apart from sources of which no expression is read, on which there is no report.  So
the evaluator, selected in front of the coder, puts the value in front of the code
(`Session.reports_evaluator_coder`).

## How

The records of a report are those of its engines, one engine after the other, and
each record tells whose it is (`Record.engine`).  No engine is silent
(`Engine.exists_records_eq_cons`), and so a report tells its selection.
-/
import GroupedArith.Proofs.Delivery
import Mathlib.Data.List.Forall2

namespace GroupedArith

/-! ## Whose records they are -/

/-- The engine that makes records of this kind. -/
def Record.engine : Record → Engine
  | instruction _ => .coder
  | result _ => .evaluator

namespace Engine

theorem engine_of_mem_records {e : Expr} {g : Engine} {k : Record} (h : k ∈ g.records e) :
    k.engine = g := by
  cases g with
  | coder =>
      obtain ⟨i, -, rfl⟩ := List.mem_map.mp h
      rfl
  | evaluator =>
      obtain rfl := List.mem_singleton.mp h
      rfl

/-- An engine has something to say on every expression. -/
theorem exists_records_eq_cons (e : Expr) (g : Engine) :
    ∃ k ks, g.records e = k :: ks ∧ k.engine = g := by
  have hne : g.records e ≠ [] := by
    cases g with
    | coder => simp [records, Expr.code]
    | evaluator => exact List.cons_ne_nil _ _
  obtain ⟨k, ks, hk⟩ := List.exists_cons_of_ne_nil hne
  exact ⟨k, ks, hk, engine_of_mem_records (hk ▸ List.mem_cons_self)⟩

/-- What engines say one after the other tells which engines they are. -/
theorem flatMap_records_injective (e : Expr) :
    Function.Injective fun engines : List Engine => engines.flatMap (records e) := by
  intro engines engines' h
  induction engines generalizing engines' with
  | nil =>
      cases engines' with
      | nil => rfl
      | cons g' gs' =>
          obtain ⟨k, ks, hk, -⟩ := exists_records_eq_cons e g'
          simp [hk] at h
  | cons g gs ih =>
      obtain ⟨k, ks, hk, hg⟩ := exists_records_eq_cons e g
      cases engines' with
      | nil => simp [hk] at h
      | cons g' gs' =>
          obtain ⟨k', ks', hk', hg'⟩ := exists_records_eq_cons e g'
          -- the first record is from the first engine on both sides
          have hfirst : k = k' := by
            simp only [List.flatMap_cons, hk, hk', List.cons_append] at h
            exact (List.cons.inj h).1
          obtain rfl : g = g' := hg.symm.trans (hfirst ▸ hg')
          exact congrArg (g :: ·) (ih (List.append_cancel_left h))

/-- Among the records of several engines, each engine has its own as often as it was selected. -/
theorem countP_flatMap_records (e : Expr) (g : Engine) (engines : List Engine) :
    (engines.flatMap (records e)).countP (·.engine = g) =
      engines.count g * (g.records e).length := by
  induction engines with
  | nil => simp
  | cons h engines ih =>
      rw [List.flatMap_cons, List.countP_append, ih, List.count_cons]
      by_cases hg : h = g
      · subst hg
        have hall : ∀ k ∈ h.records e, decide (k.engine = h) = true :=
          fun k hk => decide_eq_true (engine_of_mem_records hk)
        rw [List.countP_eq_length.mpr hall, if_pos (beq_self_eq_true h), Nat.succ_mul, Nat.add_comm]
      · have hnone : ∀ k ∈ h.records e, ¬ decide (k.engine = g) = true :=
          fun k hk hkg => hg ((engine_of_mem_records hk).symm.trans (of_decide_eq_true hkg))
        rw [List.countP_eq_zero.mpr hnone, if_neg (by simpa using hg), Nat.zero_add, Nat.add_zero]

theorem flatMap_records_perm_iff (e : Expr) (engines engines' : List Engine) :
    (engines.flatMap (records e)).Perm (engines'.flatMap (records e)) ↔ engines.Perm engines' := by
  constructor
  · intro h
    rw [List.perm_iff_count]
    intro g
    obtain ⟨k, ks, hk, -⟩ := exists_records_eq_cons e g
    have hcount := h.countP_eq (·.engine = g)
    rw [countP_flatMap_records, countP_flatMap_records] at hcount
    exact Nat.eq_of_mul_eq_mul_right (by simp [hk]) hcount
  · intro h
    exact h.flatMap_right _

/-! ## The listed order -/

/-- The place of an engine in the list of all engines. -/
def rank (g : Engine) : Nat := all.idxOf g

/-- The engines stand as they are listed. -/
def InOrder (engines : List Engine) : Prop := engines.Pairwise fun g h => g.rank ≤ h.rank

end Engine

namespace Report

/-- The records stand as their engines are listed: no value in front of an instruction. -/
def InOrder (r : Report) : Prop := r.records.Pairwise fun k l => k.engine.rank ≤ l.engine.rank

instance (r : Report) : Decidable r.InOrder := inferInstanceAs (Decidable (List.Pairwise _ _))

/-- Reports on one expression that have the same records, but maybe in another order. -/
def Rearranges (r r' : Report) : Prop := r.expr = r'.expr ∧ r.records.Perm r'.records

theorem inOrder_fresh_iff (engines : List Engine) (e : Expr) :
    (fresh engines e).InOrder ↔ Engine.InOrder engines := by
  rw [InOrder, records_fresh, List.pairwise_flatMap]
  constructor
  · rintro ⟨-, h⟩
    refine h.imp ?_
    intro g g' hgg'
    obtain ⟨k, ks, hk, hkg⟩ := Engine.exists_records_eq_cons e g
    obtain ⟨l, ls, hl, hlg⟩ := Engine.exists_records_eq_cons e g'
    rw [← hkg, ← hlg]
    exact hgg' k (hk ▸ List.mem_cons_self) l (hl ▸ List.mem_cons_self)
  · intro h
    constructor
    · intro g _
      refine List.pairwise_of_forall_mem_list ?_
      intro k hk l hl
      have hkl : k.engine = l.engine :=
        (Engine.engine_of_mem_records hk).trans (Engine.engine_of_mem_records hl).symm
      exact Nat.le_of_eq (congrArg Engine.rank hkl)
    · refine h.imp ?_
      intro g g' hgg' k hk l hl
      rwa [Engine.engine_of_mem_records hk, Engine.engine_of_mem_records hl]

theorem fresh_eq_iff {engines engines' : List Engine} {e : Expr} :
    fresh engines e = fresh engines' e ↔ engines = engines' := by
  constructor
  · intro h
    refine Engine.flatMap_records_injective e ?_
    have hrecords := congrArg records h
    rwa [records_fresh, records_fresh] at hrecords
  · rintro rfl
    rfl

theorem rearranges_fresh_iff {engines engines' : List Engine} {e : Expr} :
    (fresh engines e).Rearranges (fresh engines' e) ↔ engines.Perm engines' := by
  rw [Rearranges, records_fresh, records_fresh, Engine.flatMap_records_perm_iff]
  exact and_iff_right rfl

end Report

/-! ## The reports of a session -/

namespace Session

/-- The reports of a session, up to the end of its source or the first error. -/
def reports (s : Session) : List Report := s.replies.filterMap fun r => r.answer.toOption.join

theorem reports_ofString (source : String) (engines : List Engine) :
    (ofString source engines).reports = (yielded source).map (Report.fresh engines) := by
  -- the last answer is no report
  have hlast : ((parse source).map fun _ => (none : Option Report)).toOption.join = none := by
    cases parse source with
    | ok es => rfl
    | error err => rfl
  calc (ofString source engines).reports
      = ((ofString source engines).replies.map Reply.answer).filterMap (·.toOption.join) := by
        rw [List.filterMap_map]
        rfl
    _ = (yielded source).filterMap (fun e => some (Report.fresh engines e)) := by
        rw [answers_ofString, List.filterMap_append, List.filterMap_map, List.filterMap_cons, hlast]
        exact List.append_nil _
    _ = (yielded source).map (Report.fresh engines) :=
        congrFun List.filterMap_eq_map' _

/-- The records of a report stand in the order in which their engines were selected.  So, if an
expression is read at all, the reports are in the listed order exactly if the selection is; two
selections give the same reports exactly if they are equal, and reports with the same records in
some order exactly if one of them rearranges the other. -/
theorem reports_inOrder_iff (source : String) (engines : List Engine) :
    (ofString source engines).reports =
      (yielded source).map (fun e => ⟨e, engines.flatMap (Engine.records e)⟩) ∧
    ((∀ r ∈ (ofString source engines).reports, r.InOrder) ↔
      yielded source = [] ∨ Engine.InOrder engines) ∧
    ∀ engines' : List Engine,
      ((ofString source engines).reports = (ofString source engines').reports ↔
        yielded source = [] ∨ engines = engines') ∧
      (List.Forall₂ Report.Rearranges (ofString source engines).reports
          (ofString source engines').reports ↔
        yielded source = [] ∨ engines.Perm engines') := by
  have hevery : ∀ P : Prop, (∀ e ∈ yielded source, P) ↔ yielded source = [] ∨ P := by
    intro P
    cases yielded source with
    | nil => simp
    | cons e es =>
        constructor
        · exact fun h => .inr (h e List.mem_cons_self)
        · exact fun h _ _ => h.resolve_left (List.cons_ne_nil e es)
  refine ⟨?_, ?_, fun engines' => ⟨?_, ?_⟩⟩
  · rw [reports_ofString]
    exact List.map_congr_left fun e _ => congrArg (Report.mk e) (Report.records_fresh engines e)
  · rw [reports_ofString, List.forall_mem_map, ← hevery]
    exact forall₂_congr fun e _ => Report.inOrder_fresh_iff engines e
  · rw [reports_ofString, reports_ofString, List.map_inj_left, ← hevery]
    exact forall₂_congr fun e _ => Report.fresh_eq_iff
  · rw [reports_ofString, reports_ofString, List.forall₂_map_left_iff, List.forall₂_map_right_iff,
      List.forall₂_same, ← hevery]
    exact forall₂_congr fun e _ => Report.rearranges_fresh_iff

/-- The evaluator selected in front of the coder puts the value in front of its code.  These are not
the reports of the same two engines as they are listed. -/
theorem reports_evaluator_coder :
    [Engine.evaluator, .coder].Perm Engine.all ∧
    (ofString "(1+2)" [.evaluator, .coder]).reports =
      [{ expr := .group (.digit 1 0) .add (.digit 2 0) 0
         records :=
          [.result ⟨3, 0⟩, .instruction ⟨.push 1, 0⟩, .instruction ⟨.push 2, 0⟩,
            .instruction ⟨.add, 0⟩, .instruction ⟨.print, 0⟩] }] ∧
    ¬ (∀ r ∈ (ofString "(1+2)" [.evaluator, .coder]).reports, r.InOrder) ∧
    (ofString "(1+2)" [.evaluator, .coder]).reports ≠ (ofString "(1+2)" Engine.all).reports := by
  decide +kernel

end Session

end GroupedArith
