/-
# `GroupedArith.Proofs.Delivery` — what a session delivers, however it is asked

A session can be asked for the next report, for the next element of a sequence
of reports, or for all that remains, in any order and as often as one likes.

## What is proved

Let `n` be the number of expressions that are read from a source before its end
or its first error.  What the source has to give is numbered (`delivery`):

    0, …, n - 1     the reports on the expressions, in order
    n               the error of the source, or that there is nothing more
    from n + 1 on   that there is nothing more

A report is what engines say that were set to work for this expression alone
(`Report.fresh`).  The requests made so far decide which number comes next
(`position`): one of the first two kinds takes one number, a collection takes all
up to `n`.  This is an invariant of a session, `Session.At`; a step keeps it
(`Session.At.next`), therefore a collection does (`Session.At.collect`), and
therefore any sequence of requests.

So nothing is lost or given twice around an error, the error is given once, and
no report depends on the expressions before it (`Session.responses_ofString`).
-/
import GroupedArith.Session
import GroupedArith.Proofs.Refusal

namespace GroupedArith

/-! ## What is read from a source -/

namespace Cursor

/-- The expressions that are read from here on, up to the end or the first error. -/
def yielded (c : Cursor) : List Expr :=
  c.readings.filterMap fun step => step.answer.toOption.join

/-- What comes behind these expressions: the error, or nothing. -/
def ending (c : Cursor) : Except SyntaxError (Option Expr) := c.parsed.map fun _ => none

theorem yielded_of_some {c : Cursor} {e : Expr} (h : c.readExpr.answer = .ok (some e)) :
    c.yielded = e :: c.readExpr.cursor.yielded := by
  rw [yielded, readings_eq_followed, Step.followed, h]
  exact List.filterMap_cons_some (by rw [h]; rfl)

theorem parsed_of_some {c : Cursor} {e : Expr} (h : c.readExpr.answer = .ok (some e)) :
    c.parsed = c.readExpr.cursor.parsed.map (e :: ·) := by
  rw [parsed, readings_eq_followed, Step.followed, h, List.map_cons, h, gather, parsed]

theorem ending_of_some {c : Cursor} {e : Expr} (h : c.readExpr.answer = .ok (some e)) :
    c.ending = c.readExpr.cursor.ending := by
  rw [ending, parsed_of_some h, ending]
  cases c.readExpr.cursor.parsed with
  | ok es => rfl
  | error err => rfl

/-- Where no expression is read, this is the end or an error. -/
theorem followed_of_ne_some {c : Cursor} (h : ∀ e, c.readExpr.answer ≠ .ok (some e)) :
    c.readings = [c.readExpr] ∧
      (c.readExpr.answer = .ok none ∨ ∃ err, c.readExpr.answer = .error err) := by
  rw [readings_eq_followed, Step.followed]
  cases hanswer : c.readExpr.answer with
  | ok e? =>
      cases e? with
      | none => exact ⟨rfl, .inl rfl⟩
      | some e => exact absurd hanswer (h e)
  | error err => exact ⟨rfl, .inr ⟨err, rfl⟩⟩

theorem yielded_of_ne_some {c : Cursor} (h : ∀ e, c.readExpr.answer ≠ .ok (some e)) :
    c.yielded = [] := by
  obtain ⟨hreadings, hanswer | ⟨err, hanswer⟩⟩ := followed_of_ne_some h
  · rw [yielded, hreadings, List.filterMap_cons_none (by rw [hanswer]; rfl), List.filterMap_nil]
  · rw [yielded, hreadings, List.filterMap_cons_none (by rw [hanswer]; rfl), List.filterMap_nil]

theorem parsed_of_ne_some {c : Cursor} (h : ∀ e, c.readExpr.answer ≠ .ok (some e)) :
    c.parsed = c.readExpr.answer.map fun _ => [] := by
  obtain ⟨hreadings, hanswer | ⟨err, hanswer⟩⟩ := followed_of_ne_some h
  · rw [parsed, hreadings, List.map_singleton, hanswer]
    rfl
  · rw [parsed, hreadings, List.map_singleton, hanswer]
    rfl

theorem ending_of_ne_some {c : Cursor} (h : ∀ e, c.readExpr.answer ≠ .ok (some e)) :
    c.ending = c.readExpr.answer := by
  rw [ending, parsed_of_ne_some h]
  obtain ⟨-, hanswer | ⟨err, hanswer⟩⟩ := followed_of_ne_some h
  · rw [hanswer]
    rfl
  · rw [hanswer]
    rfl

/-- If nothing is wrong, the answer to a source is what is read from it. -/
theorem parsed_eq (c : Cursor) : c.parsed = c.ending.map fun _ => c.yielded := by
  induction hm : c.rest.length using Nat.strongRecOn generalizing c with
  | ind m ih =>
      by_cases hsome : ∃ e, c.readExpr.answer = .ok (some e)
      · obtain ⟨e, he⟩ := hsome
        have hrest := ih _ (hm ▸ rest_readExpr_lt he) c.readExpr.cursor rfl
        rw [parsed_of_some he, hrest, ending_of_some he, yielded_of_some he]
        cases c.readExpr.cursor.ending with
        | ok e? => rfl
        | error err => rfl
      · have hnone := not_exists.mp hsome
        rw [parsed_of_ne_some hnone, ending_of_ne_some hnone, yielded_of_ne_some hnone]

end Cursor

/-- The expressions of a source that are read before its end or its first error. -/
def yielded (source : String) : List Expr := (Cursor.ofString source).yielded

/-- What is wrong with a source, if it is not read to its end. -/
def errorOf (source : String) : Option SyntaxError :=
  match parse source with
  | .ok _ => none
  | .error err => some err

/-! ## What is to be delivered -/

/-- What engines say on an expression that are set to work for it. -/
def Report.fresh (engines : List Engine) (e : Expr) : Report where
  expr := e
  records := engines.flatMap fun g => (Reporter.ofEngine g).records e

theorem Report.records_fresh (engines : List Engine) (e : Expr) :
    (fresh engines e).records = engines.flatMap (Engine.records e) := by
  have hsame : (fun g => (Reporter.ofEngine g).records e) = Engine.records e := by
    funext g
    rw [Reporter.records_eq, Reporter.engine_ofEngine]
  exact congrArg engines.flatMap hsame

/-- Engines that have been at work say the same. -/
theorem Report.ofExpr_eq_fresh (reporters : List Reporter) (e : Expr) :
    Report.ofExpr reporters e = fresh (reporters.map Reporter.engine) e := by
  have hsame : Reporter.records e = fun r => (Reporter.ofEngine r.engine).records e := by
    funext r
    rw [Reporter.records_eq, Reporter.records_eq, Reporter.engine_ofEngine]
  rw [fresh, List.flatMap_map]
  exact congrArg (fun said => Report.mk e (reporters.flatMap said)) hsame

/-- What a source has to give as number `k`: a report on each expression that is read, then the
error or that nothing more comes, and from then on that nothing more comes. -/
def delivery (source : String) (engines : List Engine) (k : Nat) :
    Except SyntaxError (Option Report) :=
  match (yielded source)[k]? with
  | some e => .ok (some (.fresh engines e))
  | none => if k = (yielded source).length then (parse source).map fun _ => none else .ok none

/-- All that a source has to give from number `k` on; the error takes the place of the reports. -/
def collected (source : String) (engines : List Engine) (k : Nat) :
    Except SyntaxError (List Report) :=
  if k ≤ (yielded source).length then
    (parse source).map fun _ => ((yielded source).drop k).map (Report.fresh engines)
  else .ok []

section Number
variable {source : String} {engines : List Engine} {k : Nat}

theorem delivery_of_lt (h : k < (yielded source).length) :
    delivery source engines k = .ok (some (.fresh engines (yielded source)[k])) := by
  rw [delivery, List.getElem?_eq_getElem h]

/-- Behind the expressions comes the error, if there is one, and never a report. -/
theorem delivery_of_le (h : (yielded source).length ≤ k) :
    delivery source engines k =
      if k = (yielded source).length then (parse source).map fun _ => none else .ok none := by
  rw [delivery, List.getElem?_eq_none h]

theorem delivery_ne_some (h : (yielded source).length ≤ k) (r : Report) :
    delivery source engines k ≠ .ok (some r) := by
  rw [delivery_of_le h]
  split
  · cases parse source with
    | ok es => exact nofun
    | error err => exact nofun
  · exact nofun

/-- A collection begins with the report that comes next. -/
theorem collected_of_lt (h : k < (yielded source).length) :
    collected source engines k =
      (collected source engines (k + 1)).map (.fresh engines (yielded source)[k] :: ·) := by
  rw [collected, collected, if_pos (Nat.le_of_lt h), if_pos (by omega),
    List.drop_eq_getElem_cons h]
  cases parse source with
  | ok es => rfl
  | error err => rfl

theorem collected_of_le (h : (yielded source).length ≤ k) :
    collected source engines k = (delivery source engines k).map fun _ => [] := by
  rw [collected, delivery_of_le h]
  by_cases hk : k = (yielded source).length
  · rw [if_pos (by omega), if_pos hk, List.drop_of_length_le h]
    cases parse source with
    | ok es => rfl
    | error err => rfl
  · rw [if_neg (by omega), if_neg hk]
    rfl

end Number

namespace Session

/-- What a session can be asked for. -/
inductive Request where
  | report
  /-- The next report, as an element of a sequence. -/
  | item
  /-- All reports that remain. -/
  | collection
  deriving DecidableEq, Repr

inductive Response where
  | report (answer : Except SyntaxError (Option Report))
  | item (answer : Option (Except SyntaxError Report))
  | collection (answer : Except SyntaxError (List Report))

/-- The error in a response, if it is one. -/
def Response.error? : Response → Option SyntaxError
  | report (.error e) => some e
  | item (some (.error e)) => some e
  | collection (.error e) => some e
  | _ => none

def respond (s : Session) : Request → Response × Session
  | .report => (.report s.next.answer, s.next.session)
  | .item => (.item s.next.item?, s.next.session)
  | .collection => (.collection s.collect, s.drained)

/-- The responses to one request after the other. -/
def responses (s : Session) : List Request → List Response
  | [] => []
  | r :: rs => (s.respond r).1 :: (s.respond r).2.responses rs

/-- The response that is due where number `k` comes next. -/
def Response.due (source : String) (engines : List Engine) (k : Nat) : Request → Response
  | .report => .report (delivery source engines k)
  | .item => .item (itemOf (delivery source engines k))
  | .collection => .collection (collected source engines k)

/-- The number that comes next after a request, if it was `k`; behind the expressions is `n`. -/
def Request.pass (n k : Nat) : Request → Nat
  | .collection => max k n + 1
  | _ => k + 1

/-- The number that comes next after some requests. -/
def position (source : String) (history : List Request) : Nat :=
  history.foldl (Request.pass (yielded source).length) 0

/-! ## One step -/

/-- The session stands where number `k` of its source comes next. -/
structure At (s : Session) (source : String) (engines : List Engine) (k : Nat) : Prop where
  engines : s.reporters.map Reporter.engine = engines
  finished : s.finished = decide ((yielded source).length < k)
  exprs : s.finished = false → s.cursor.yielded = (yielded source).drop k
  ending : s.finished = false → s.cursor.ending = (parse source).map fun _ => none

theorem at_ofString (source : String) (engines : List Engine) :
    (ofString source engines).At source engines 0 where
  engines := by simp [ofString, Function.comp_def]
  finished := by simp [ofString]
  exprs := fun _ => rfl
  ending := fun _ => rfl

theorem next_of_finished {s : Session} (h : s.finished = true) : s.next = ⟨.ok none, [], s⟩ :=
  if_pos h

theorem next_of_some {s : Session} {e : Expr} (hf : s.finished = false)
    (h : s.cursor.readExpr.answer = .ok (some e)) :
    s.next.answer = .ok (some (.ofExpr s.reporters e)) ∧
      s.next.session =
        { s with
          cursor := s.cursor.readExpr.cursor
          reporters := s.reporters.map (Reporter.next e)
          count := s.count + 1 } := by
  simp [next, hf, h]

theorem next_of_ne_some {s : Session} (hf : s.finished = false)
    (h : ∀ e, s.cursor.readExpr.answer ≠ .ok (some e)) :
    s.next.answer = s.cursor.readExpr.answer.map (fun _ => none) ∧
      s.next.session = { s with cursor := s.cursor.readExpr.cursor, finished := true } := by
  cases hanswer : s.cursor.readExpr.answer with
  | ok e? =>
      cases e? with
      | none => simp [next, hf, hanswer, Except.map]
      | some e => exact absurd hanswer (h e)
  | error err => simp [next, hf, hanswer, Except.map]

variable {s : Session} {source : String} {engines : List Engine} {k : Nat}

theorem At.next_finished (h : s.At source engines k) (hf : s.finished = true) :
    s.next.answer = delivery source engines k ∧ s.next.session.At source engines (k + 1) := by
  have hk : (yielded source).length < k := of_decide_eq_true (h.finished ▸ hf)
  rw [next_of_finished hf, delivery, List.getElem?_eq_none (by omega), if_neg (by omega)]
  refine ⟨rfl, h.engines, ?_, ?_, ?_⟩
  · exact hf.trans (decide_eq_true (by omega)).symm
  · intro hrunning
    exact absurd (hf.symm.trans hrunning) (by decide)
  · intro hrunning
    exact absurd (hf.symm.trans hrunning) (by decide)

theorem At.next_some {e : Expr} (h : s.At source engines k) (hf : s.finished = false)
    (he : s.cursor.readExpr.answer = .ok (some e)) :
    s.next.answer = delivery source engines k ∧ s.next.session.At source engines (k + 1) := by
  have hyielded := h.exprs hf
  have hending := h.ending hf
  rw [Cursor.yielded_of_some he] at hyielded
  rw [Cursor.ending_of_some he] at hending
  have hget : (yielded source)[k]? = some e := by
    rw [← List.head?_drop, ← hyielded, List.head?_cons]
  have hdrop : s.cursor.readExpr.cursor.yielded = (yielded source).drop (k + 1) := by
    rw [← List.tail_drop, ← hyielded, List.tail_cons]
  have hk : k < (yielded source).length := (List.getElem?_eq_some_iff.mp hget).1
  obtain ⟨hanswer, hsession⟩ := next_of_some hf he
  rw [hanswer, hsession, delivery, hget, Report.ofExpr_eq_fresh, h.engines]
  refine ⟨rfl, ?_, ?_, fun _ => hdrop, fun _ => hending⟩
  · rw [← h.engines, List.map_map]
    exact List.map_congr_left fun r _ => Reporter.engine_next e r
  · exact hf.trans (decide_eq_false (by omega)).symm

theorem At.next_ne_some (h : s.At source engines k) (hf : s.finished = false)
    (he : ∀ e, s.cursor.readExpr.answer ≠ .ok (some e)) :
    s.next.answer = delivery source engines k ∧ s.next.session.At source engines (k + 1) := by
  have hyielded := Cursor.yielded_of_ne_some he
  have hending := Cursor.ending_of_ne_some he
  have hlast : ¬ (yielded source).length < k := of_decide_eq_false (h.finished ▸ hf)
  have hk : (yielded source).length ≤ k :=
    List.drop_eq_nil_iff.mp ((h.exprs hf).symm.trans hyielded)
  obtain ⟨hanswer, hsession⟩ := next_of_ne_some hf he
  rw [hanswer, hsession, ← hending, h.ending hf, delivery, List.getElem?_eq_none hk,
    if_pos (by omega)]
  refine ⟨?_, h.engines, ?_, ?_, ?_⟩
  · cases parse source with
    | ok es => rfl
    | error err => rfl
  · exact (decide_eq_true (by omega)).symm
  · exact fun hrunning => nomatch hrunning
  · exact fun hrunning => nomatch hrunning

/-- One step delivers what comes next, and goes on to the number after it. -/
theorem At.next (h : s.At source engines k) :
    s.next.answer = delivery source engines k ∧ s.next.session.At source engines (k + 1) := by
  cases hf : s.finished with
  | true => exact h.next_finished hf
  | false =>
      by_cases hsome : ∃ e, s.cursor.readExpr.answer = .ok (some e)
      · obtain ⟨e, he⟩ := hsome
        exact h.next_some hf he
      · exact h.next_ne_some hf (not_exists.mp hsome)

/-! ## All that remains -/

theorem replies_eq (s : Session) :
    s.replies = s.next :: match s.next.answer with
      | .ok (some _) => s.next.session.replies
      | _ => [] := by
  rw [replies]
  congr 1
  split
  · rename_i h
    rw [h]
  · rename_i h
    split
    · rename_i h'
      exact absurd h' (h _)
    · rfl

theorem replies_ne_nil (s : Session) : s.replies ≠ [] := by
  rw [replies_eq]
  exact List.cons_ne_nil _ _

theorem collect_of_some {r : Report} (h : s.next.answer = .ok (some r)) :
    s.collect = s.next.session.collect.map (r :: ·) ∧ s.drained = s.next.session.drained := by
  constructor
  · rw [collect, replies_eq, h, List.map_cons, h, gather, collect]
  · rw [drained, replies_eq, h, drained]
    simp only [List.getLast?_cons]
    cases hlast : s.next.session.replies.getLast? with
    | none => exact absurd (List.getLast?_eq_none_iff.mp hlast) (replies_ne_nil _)
    | some reply => rfl

theorem collect_of_ne_some (h : ∀ r, s.next.answer ≠ .ok (some r)) :
    s.collect = s.next.answer.map (fun _ => []) ∧ s.drained = s.next.session := by
  rw [collect, drained, replies_eq]
  cases hanswer : s.next.answer with
  | ok r? =>
      cases r? with
      | none => simp [hanswer, gather, Except.map]
      | some r => exact absurd hanswer (h r)
  | error err => simp [hanswer, gather, Except.map]

/-- A collection takes one number after the other, up to the end or the error. -/
theorem At.collect (h : s.At source engines k) :
    s.collect = collected source engines k ∧
      s.drained.At source engines (max k (yielded source).length + 1) := by
  obtain ⟨hanswer, hsession⟩ := h.next
  -- the induction is on how many reports are left
  generalize hm : (yielded source).length - k = m
  induction m generalizing s k with
  | zero =>
      have hk : (yielded source).length ≤ k := by omega
      have hnone : ∀ r, s.next.answer ≠ .ok (some r) := by
        intro r
        rw [hanswer]
        exact delivery_ne_some hk r
      obtain ⟨hcollect, hdrained⟩ := collect_of_ne_some hnone
      rw [hcollect, hdrained, hanswer, collected_of_le hk, Nat.max_eq_left hk]
      exact ⟨rfl, hsession⟩
  | succ m ih =>
      have hk : k < (yielded source).length := by omega
      rw [delivery_of_lt hk] at hanswer
      obtain ⟨hcollect, hdrained⟩ := collect_of_some hanswer
      obtain ⟨hrest, hat⟩ := ih hsession hsession.next.1 hsession.next.2 (by omega)
      rw [hcollect, hdrained, hrest, collected_of_lt hk]
      rw [Nat.max_eq_right (by omega)] at hat ⊢
      exact ⟨rfl, hat⟩

/-- The answers up to the end or the error are the reports that are left, and then what comes behind
the expressions. -/
theorem At.answers (h : s.At source engines k) (hk : k ≤ (yielded source).length) :
    s.replies.map Reply.answer =
      ((yielded source).drop k).map (fun e => .ok (some (.fresh engines e))) ++
        [(parse source).map fun _ => none] := by
  obtain ⟨hanswer, hsession⟩ := h.next
  generalize hm : (yielded source).length - k = m
  induction m generalizing s k with
  | zero =>
      have hle : (yielded source).length ≤ k := by omega
      rw [replies_eq, List.map_cons, hanswer, delivery_of_le hle, if_pos (by omega),
        List.drop_of_length_le hle]
      cases parse source with
      | ok es => rfl
      | error err => rfl
  | succ m ih =>
      have hlt : k < (yielded source).length := by omega
      rw [delivery_of_lt hlt] at hanswer
      have hrest := ih hsession (by omega) hsession.next.1 hsession.next.2 (by omega)
      rw [replies_eq, List.map_cons, hanswer, hrest, List.drop_eq_getElem_cons hlt]
      rfl

/-! ## Any sequence of requests -/

theorem At.respond (h : s.At source engines k) (r : Request) :
    (s.respond r).1 = .due source engines k r ∧
      (s.respond r).2.At source engines (r.pass (yielded source).length k) := by
  cases r with
  | report => exact ⟨congrArg Response.report h.next.1, h.next.2⟩
  | item =>
      refine ⟨congrArg Response.item ?_, h.next.2⟩
      rw [← h.next.1]
      rfl
  | collection => exact ⟨congrArg Response.collection h.collect.1, h.collect.2⟩

/-- The response to a last request, after those to all others. -/
theorem At.responses_concat (h : s.At source engines k) (history : List Request) (r : Request) :
    s.responses (history ++ [r]) =
      s.responses history ++
        [.due source engines
          (history.foldl (Request.pass (yielded source).length) k) r] := by
  induction history generalizing s k with
  | nil => exact congrArg ([·]) (h.respond r).1
  | cons q history ih => exact congrArg (_ :: ·) (ih (h.respond q).2)

/-! ## The error -/

theorem Request.lt_pass (n k : Nat) (r : Request) : k < r.pass n k := by
  cases r with
  | report => exact Nat.lt_succ_self k
  | item => exact Nat.lt_succ_self k
  | collection => exact Nat.lt_succ_of_le (Nat.le_max_left k n)

theorem le_foldl_pass (n k : Nat) (history : List Request) :
    k ≤ history.foldl (Request.pass n) k := by
  induction history generalizing k with
  | nil => exact Nat.le_refl k
  | cons r history ih => exact Nat.le_trans (Nat.le_of_lt (r.lt_pass n k)) (ih _)

/-- As an element of a sequence an error is an error. -/
theorem Response.error?_item (answer : Except SyntaxError (Option Report)) :
    (item (itemOf answer)).error? = (report answer).error? := by
  cases answer with
  | ok r? =>
      cases r? with
      | none => rfl
      | some r => rfl
  | error err => rfl

theorem Response.error?_report :
    (report (delivery source engines k)).error? =
      if k = (yielded source).length then errorOf source else none := by
  by_cases hk : k < (yielded source).length
  · rw [delivery_of_lt hk, if_neg (by omega)]
    rfl
  · rw [delivery_of_le (by omega), errorOf]
    split
    · cases parse source with
      | ok es => rfl
      | error err => rfl
    · rfl

theorem Response.error?_collection :
    (collection (collected source engines k)).error? =
      if k ≤ (yielded source).length then errorOf source else none := by
  rw [collected, errorOf]
  split
  · cases parse source with
    | ok es => rfl
    | error err => rfl
  · rfl

/-- A response is the error if number `n` is taken in it. -/
theorem Response.error?_due (r : Request) :
    (due source engines k r).error? =
      if k ≤ (yielded source).length ∧ (yielded source).length < r.pass (yielded source).length k
      then errorOf source else none := by
  cases r with
  | report =>
      rw [due, error?_report]
      exact ite_congr (propext (by simp only [Request.pass]; omega)) (fun _ => rfl) (fun _ => rfl)
  | item =>
      rw [due, error?_item, error?_report]
      exact ite_congr (propext (by simp only [Request.pass]; omega)) (fun _ => rfl) (fun _ => rfl)
  | collection =>
      rw [due, error?_collection]
      exact ite_congr (propext (by simp only [Request.pass]; omega)) (fun _ => rfl) (fun _ => rfl)

/-- Number `n` is taken once, and so the error is given once. -/
theorem At.errors_eq (h : s.At source engines k) (history : List Request) :
    (s.responses history).filterMap Response.error? =
      if k ≤ (yielded source).length ∧
          (yielded source).length < history.foldl (Request.pass (yielded source).length) k
      then (errorOf source).toList else [] := by
  induction history generalizing s k with
  | nil => exact (if_neg (by rw [List.foldl_nil]; omega)).symm
  | cons r history ih =>
      obtain ⟨hresponse, hat⟩ := h.respond r
      have hpass := r.lt_pass (yielded source).length k
      have hlater := le_foldl_pass (yielded source).length (r.pass (yielded source).length k) history
      rw [responses, hresponse, List.filterMap_cons, Response.error?_due, ih hat, List.foldl_cons]
      by_cases htaken : k ≤ (yielded source).length ∧
          (yielded source).length < r.pass (yielded source).length k
      · -- it is taken now, and not again
        rw [if_pos htaken, if_neg (by omega), if_pos (by omega)]
        cases errorOf source with
        | none => rfl
        | some err => rfl
      · rw [if_neg htaken]
        exact ite_congr (propext (by omega)) (fun _ => rfl) (fun _ => rfl)

end Session

/-! ## From the beginning -/

/-- All reports on a source are those on what `parse` reads from it. -/
theorem reportAll_eq (source : String) :
    reportAll source = (parse source).map (List.map (Report.fresh Engine.all)) := by
  have hcollect := (Session.at_ofString source Engine.all).collect.1
  have hparsed : parse source = (Cursor.ofString source).ending.map fun _ => yielded source :=
    (Cursor.ofString source).parsed_eq
  rw [reportAll, hcollect, collected, if_pos (Nat.zero_le _), List.drop_zero, hparsed]
  cases (Cursor.ofString source).ending with
  | ok e? => rfl
  | error err => rfl

/-- What a session answers, step after step: a report on each expression, and then the end or the
error. -/
theorem Session.answers_ofString (source : String) (engines : List Engine) :
    (ofString source engines).replies.map Reply.answer =
      (yielded source).map (fun e => .ok (some (.fresh engines e))) ++
        [(parse source).map fun _ => none] :=
  (at_ofString source engines).answers (Nat.zero_le _)

/-- A session answers each request with what its source has to give from the number on that the
requests before it have led to.  It gives the error of the source once, in the response in which
the number behind the expressions is taken.  The reports of all engines on a source are those on
the expressions that are read from it, and are missing if and only if it has an error, which is the
same. -/
theorem Session.responses_ofString (source : String) :
    (∀ (engines : List Engine) (history : List Request) (r : Request),
      (ofString source engines).responses (history ++ [r]) =
        (ofString source engines).responses history ++
          [.due source engines (position source history) r]) ∧
    (∀ (engines : List Engine) (history : List Request),
      ((ofString source engines).responses history).filterMap Response.error? =
        if (yielded source).length < position source history then (errorOf source).toList else []) ∧
    reportAll source = (parse source).map (List.map (Report.fresh Engine.all)) := by
  refine ⟨?_, ?_, reportAll_eq source⟩
  · intro engines history r
    exact (at_ofString source engines).responses_concat history r
  · intro engines history
    rw [(at_ofString source engines).errors_eq history]
    exact ite_congr (propext (and_iff_right (Nat.zero_le _))) (fun _ => rfl) (fun _ => rfl)

example : (Session.ofString "7 )" [.evaluator]).responses [.item, .collection, .report] =
    [.item (some (.ok ⟨.digit 7 0, [.result ⟨7, 0⟩]⟩)), .collection (.error (.missingExpression 0)),
      .report (.ok none)] := by cbv

end GroupedArith
