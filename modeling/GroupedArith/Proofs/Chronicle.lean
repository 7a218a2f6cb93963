/-
# `GroupedArith.Proofs.Chronicle` — the log tells a run as it happened

## What is proved

Let a session run over a source, with all engines and up to the end of the source
or the first error.  Its log is made of these pieces, one after the other
(`Session.chronicle`):

    for each expression that is read    its tokens, one message each
                                        that it was read
                                        the size of its code
                                        its value
    at the end                          the tokens `us` behind the last expression,
                                        and `t`, the last one that is read
                                        a last message, if there is one to give

Without an error there are no tokens `us`, `t` is the end of the source, and the
last message gives the number of expressions.  With an error, `us` is what was read
of groups that are open, and `t` is the token at fault; if a group is not closed,
the last message shows it together with `t`, and otherwise there is none.

So every token is told once and in order, no token is read before what precedes it
was reported on, and no engine works on an expression that is not complete.

## How

A reading step reads the tokens of one expression exactly
(`Awaiting.readFrom_complete`), or tokens up to one that is refused
(`Awaiting.readFrom_incomplete`); both are inductions on the characters that are
left, with what was read before kept as a beginning of an expression.  The log of a
session is then an induction on what is left of its source (`Session.log_eq`).
-/
import GroupedArith.Proofs.Acceptance
import GroupedArith.Proofs.Delivery
import GroupedArith.Proofs.Diagnosis

namespace GroupedArith

/-! ## What a reading step reads -/

namespace Awaiting

theorem refuse_ne_some (a : Awaiting) (t : Token) (e : Expr) : a.refuse t ≠ .ok (some e) := by
  cases a with
  | operand outer => cases outer <;> exact nofun
  | operator => exact nofun
  | closing => exact nofun

/-- A step that completes an expression reads the tokens of the expression that were left, and no
other. -/
theorem readFrom_complete {c : Cursor} {a : Awaiting} {ps : List Placed} {ts : List Token}
    {e : Expr} (ha : a.Spelled ts) (h : (a.readFrom c ps).answer = .ok (some e)) :
    e.Spelled (ts ++ (a.readFrom c ps).tokens) ∧
      ({ c with rest := ps } : Cursor).tokens =
        (a.readFrom c ps).tokens ++ (a.readFrom c ps).cursor.tokens := by
  induction ps generalizing a ts with
  | nil => exact absurd h (refuse_ne_some a _ e)
  | cons p ps ih =>
      cases hp : a.accept? p.token with
      | none =>
          rw [readFrom_cons_refused c ps hp] at h
          exact absurd h (refuse_ne_some a _ e)
      | some progress =>
          have hspelled := (accept?_eq_some_iff.mp hp).spelled ha
          cases progress with
          | more b =>
              rw [readFrom_cons_more c ps hp] at h ⊢
              obtain ⟨hexpr, htokens⟩ := ih hspelled h
              rw [List.append_assoc] at hexpr
              exact ⟨hexpr, congrArg (p.token :: ·) htokens⟩
          | done f =>
              rw [readFrom_cons_done c ps hp] at h ⊢
              obtain rfl : f = e := Option.some.inj (Except.ok.inj h)
              exact ⟨hspelled, rfl⟩

/-- The step refuses the token `t` where the reader is at `b`, having read the tokens `us`; this is
the last token of the step. -/
structure Refuses (s : Step (Except SyntaxError (Option Expr))) (b : Awaiting) (us : List Token)
    (t : Token) : Prop where
  refused : b.accept? t = none
  answer : s.answer = b.refuse t
  tokens : s.tokens = us ++ [t]
  current : s.cursor.current = t

theorem Refuses.after {s : Step (Except SyntaxError (Option Expr))} {b : Awaiting}
    {us : List Token} {t : Token} (h : Refuses s b us t) (x : Token) :
    Refuses (s.after x) b (x :: us) t :=
  ⟨h.refused, h.answer, congrArg (x :: ·) h.tokens, h.current⟩

/-- A step that completes no expression reads on to the first token that is refused. -/
theorem readFrom_incomplete {c : Cursor} {a : Awaiting} {ps : List Placed} {ts : List Token}
    (ha : a.Spelled ts) (h : ∀ e, (a.readFrom c ps).answer ≠ .ok (some e)) :
    ∃ b us t, Refuses (a.readFrom c ps) b us t ∧ b.Spelled (ts ++ us) ∧
      us ++ [t] <+: ({ c with rest := ps } : Cursor).tokens := by
  induction ps generalizing a ts with
  | nil =>
      refine ⟨a, [], .endOfInput c.endLine, ⟨accept?_endOfInput a _, rfl, rfl, rfl⟩, ?_, ?_⟩
      · rwa [List.append_nil]
      · exact List.prefix_rfl
  | cons p ps ih =>
      cases hp : a.accept? p.token with
      | none =>
          rw [readFrom_cons_refused c ps hp]
          refine ⟨a, [], p.token, ⟨hp, rfl, rfl, rfl⟩, ?_, ?_⟩
          · rwa [List.append_nil]
          · exact ⟨_, rfl⟩
      | some progress =>
          have hspelled := (accept?_eq_some_iff.mp hp).spelled ha
          cases progress with
          | more b =>
              rw [readFrom_cons_more c ps hp] at h ⊢
              obtain ⟨b', us, t, hrefuses, hus, hprefix⟩ := ih hspelled h
              rw [List.append_assoc] at hus
              exact ⟨b', p.token :: us, t, hrefuses.after p.token, hus,
                List.cons_prefix_cons.mpr ⟨rfl, hprefix⟩⟩
          | done f =>
              rw [readFrom_cons_done c ps hp] at h
              exact absurd rfl (h f)

end Awaiting

/-! ## Expressions and their tokens -/

/-- How the tokens from a cursor on divide: expressions with their tokens `spans`, then the tokens
`us` of open groups, then the token `t`, which is refused. -/
structure Cursor.Divides (c : Cursor) (spans : List (Expr × List Token)) (a : Awaiting)
    (us : List Token) (t : Token) : Prop where
  exprs : spans.map Prod.fst = c.yielded
  spelled : ∀ p ∈ spans, p.1.Spelled p.2
  groups : a.Spelled us
  refused : a.accept? t = none
  tokens : spans.flatMap Prod.snd ++ (us ++ [t]) <+: c.tokens

theorem Expr.allSpelled_spans {spans : List (Expr × List Token)}
    (h : ∀ p ∈ spans, p.1.Spelled p.2) :
    AllSpelled (spans.map Prod.fst) (spans.flatMap Prod.snd) := by
  induction spans with
  | nil => exact .nil
  | cons p spans ih =>
      obtain ⟨hp, hspans⟩ := List.forall_mem_cons.mp h
      exact .cons hp (ih hspans)

namespace Cursor
variable {c : Cursor} {spans : List (Expr × List Token)} {a : Awaiting} {us : List Token}
  {t : Token}

/-- Reading stops at the refused token. -/
theorem Divides.stopsAt (h : c.Divides spans a us t) :
    c.StopsAt (spans.flatMap Prod.snd ++ us) t ⟨c.yielded, a⟩ where
  tokens := by
    rw [List.append_assoc]
    exact h.tokens
  reached := by
    refine Reached.advance?_eq_some_iff.mpr ⟨_, _, rfl, ?_, h.groups⟩
    rw [← h.exprs]
    exact Expr.allSpelled_spans h.spelled
  refused := h.refused

/-- The next top-level expression is the one that opens at the cursor. -/
theorem answer_readExpr_iff {e : Expr} :
    c.readExpr.answer = .ok (some e) ↔ c.readOperand.answer = .ok (some e) :=
  Token.unlessEnd_eq_ok_some_iff

/-- The expression that is read comes first, with the tokens of its step. -/
theorem Divides.cons {e : Expr} (he : c.readExpr.answer = .ok (some e))
    (h : c.readExpr.cursor.Divides spans a us t) :
    c.Divides ((e, c.readExpr.tokens) :: spans) a us t := by
  have hoperand : c.readOperand.answer = .ok (some e) := answer_readExpr_iff.mp he
  obtain ⟨hspelled, htokens⟩ := Awaiting.readFrom_complete (.operand .nil) hoperand
  have htokens : c.tokens = c.readExpr.tokens ++ c.readExpr.cursor.tokens := htokens
  exact
    { exprs := by rw [List.map_cons, h.exprs, yielded_of_some he]
      spelled := List.forall_mem_cons.mpr ⟨hspelled, h.spelled⟩
      groups := h.groups
      refused := h.refused
      tokens := by
        rw [List.flatMap_cons, List.append_assoc, htokens]
        exact (List.prefix_append_right_inj _).mpr h.tokens }

/-- Where no expression is read, the step ends with the token that is refused, and the answer is
what is wrong with it. -/
theorem exists_divides_of_ne_some (h : ∀ e, c.readExpr.answer ≠ .ok (some e)) :
    ∃ a us t, c.Divides [] a us t ∧ c.readExpr.tokens = us ++ [t] ∧
      c.readExpr.cursor.current = t ∧
      c.readExpr.answer =
        match Awaiting.complaint? t a with
        | none => .ok none
        | some err => .error err := by
  have hoperand : ∀ e, c.readOperand.answer ≠ .ok (some e) := by
    intro e he
    exact h e (answer_readExpr_iff.mpr he)
  obtain ⟨a, us, t, hrefuses, hspelled, hprefix⟩ :=
    Awaiting.readFrom_incomplete (.operand .nil) hoperand
  have hdivides : c.Divides [] a us t :=
    { exprs := by rw [yielded_of_ne_some h, List.map_nil]
      spelled := fun p hp => absurd hp List.not_mem_nil
      groups := hspelled
      refused := hrefuses.refused
      tokens := hprefix }
  exact ⟨a, us, t, hdivides, hrefuses.tokens, hrefuses.current,
    Step.answer_unlessEnd hrefuses.answer hrefuses.current⟩

end Cursor

/-! ## What a step of a session tells -/

/-- What an engine tells of an expression. -/
def Engine.event (e : Expr) : Engine → Event
  | coder => .generated e e.code.length
  | evaluator => .evaluated e e.value

/-- What is told of an expression and its tokens. -/
def spanEvents (engines : List Engine) (p : Expr × List Token) : List Event :=
  p.2.map .token ++ .parsed p.1 :: engines.map (Engine.event p.1)

/-- What is told last of a source of which `count` expressions were read: its end, or a group that
is not closed, with the token in place of the `)`. -/
def closingEvents (count : Nat) (t : Token) : Option SyntaxError → List Event
  | none => [.ended count]
  | some (.missingClosingParen _ fragment) => [.unclosed fragment t.char]
  | some _ => []

theorem Reporter.flatMap_events (e : Expr) (reporters : List Reporter) :
    reporters.flatMap (Reporter.events e) =
      (reporters.map Reporter.engine).map (Engine.event e) := by
  induction reporters with
  | nil => rfl
  | cons r reporters ih =>
      rw [List.flatMap_cons, ih]
      cases r with
      | coder c =>
          rw [events, Coder.events, Coder.generate_eq]
          rfl
      | evaluator => rfl

namespace Session

/-- All that a session tells, up to the end of its source or the first error. -/
def log (s : Session) : List Event := s.replies.flatMap Reply.events

theorem log_of_some {s : Session} {e : Expr} (hf : s.finished = false)
    (h : s.cursor.readExpr.answer = .ok (some e)) :
    s.log =
      spanEvents (s.reporters.map Reporter.engine) (e, s.cursor.readExpr.tokens) ++
        s.next.session.log := by
  have hevents : s.next.events =
      spanEvents (s.reporters.map Reporter.engine) (e, s.cursor.readExpr.tokens) := by
    simp [next, hf, h, Step.events, spanEvents, Reporter.flatMap_events]
  rw [log, replies_eq, (next_of_some hf h).1, List.flatMap_cons, hevents, log]

theorem log_of_ne_some {s : Session} {a : Awaiting} {us : List Token} {t : Token}
    (hf : s.finished = false) (htokens : s.cursor.readExpr.tokens = us ++ [t])
    (hcurrent : s.cursor.readExpr.cursor.current = t)
    (h : s.cursor.readExpr.answer =
      match a.complaint? t with
      | none => .ok none
      | some err => .error err) :
    s.log = (us ++ [t]).map .token ++ closingEvents s.count t (a.complaint? t) := by
  rw [log, replies_eq]
  cases hcomplaint : a.complaint? t with
  | none =>
      rw [hcomplaint] at h
      simp [next, hf, h, Step.events, htokens, closingEvents]
  | some err =>
      rw [hcomplaint] at h
      cases err with
      | missingExpression n => simp [next, hf, h, Step.events, htokens, closingEvents]
      | missingOperator n => simp [next, hf, h, Step.events, htokens, closingEvents]
      | missingClosingParen n p =>
          simp [next, hf, h, Step.events, htokens, hcurrent, closingEvents]

/-- The log tells each expression with its tokens, then the tokens behind them, then how it ends. -/
theorem log_eq {s : Session} (hf : s.finished = false) :
    ∃ spans a us t, s.cursor.Divides spans a us t ∧
      s.log =
        spans.flatMap (spanEvents (s.reporters.map Reporter.engine)) ++
          ((us ++ [t]).map .token ++
            closingEvents (s.count + spans.length) t (Awaiting.complaint? t a)) := by
  -- the induction is on the characters that are left
  induction hm : s.cursor.rest.length using Nat.strongRecOn generalizing s with
  | ind m ih =>
      by_cases hsome : ∃ e, s.cursor.readExpr.answer = .ok (some e)
      · obtain ⟨e, he⟩ := hsome
        obtain ⟨hanswer, hsession⟩ := next_of_some hf he
        have hlt : s.next.session.cursor.rest.length < m := hm ▸ rest_next_lt hanswer
        have hrunning : s.next.session.finished = false := by
          rw [hsession]
          exact hf
        obtain ⟨spans, a, us, t, hdivides, hlog⟩ := ih _ hlt hrunning rfl
        have hengines : s.next.session.reporters.map Reporter.engine =
            s.reporters.map Reporter.engine := by
          rw [hsession, List.map_map]
          exact List.map_congr_left fun r _ => Reporter.engine_next e r
        have hcursor : s.next.session.cursor = s.cursor.readExpr.cursor := by rw [hsession]
        have hcount : s.next.session.count = s.count + 1 := by rw [hsession]
        rw [hcursor] at hdivides
        refine ⟨(e, s.cursor.readExpr.tokens) :: spans, a, us, t, hdivides.cons he, ?_⟩
        rw [log_of_some hf he, hlog, hengines, hcount, List.flatMap_cons, List.append_assoc,
          List.length_cons, Nat.add_assoc, Nat.add_comm 1]
      · obtain ⟨a, us, t, hdivides, htokens, hcurrent, hanswer⟩ :=
          Cursor.exists_divides_of_ne_some (not_exists.mp hsome)
        exact ⟨[], a, us, t, hdivides, log_of_ne_some hf htokens hcurrent hanswer⟩

end Session

/-! ## A run of all engines -/

/-- The log of all engines on a source, with every message kept. -/
def fullLog (source : String) : List Event :=
  (Session.ofString source Engine.all).log.filter (Event.isKept (some .trace))

/-- Every message is kept in a log of the finest level. -/
theorem Event.isKept_trace (e : Event) : e.isKept (some .trace) = true := by
  cases e <;> rfl

/-- The log is that of a run over the source.  Its expressions are read with the tokens `spans`;
behind them come the tokens `us` of open groups, and `t` is the last token that is read. -/
structure Chronicle (log : List Event) (source : String) (spans : List (Expr × List Token))
    (us : List Token) (t : Token) : Prop where
  exprs : spans.map Prod.fst = yielded source
  spelled : ∀ p ∈ spans, p.1.Spelled p.2
  read : tokensRead source = spans.flatMap Prod.snd ++ us ++ [t]
  /-- Each expression is reported on directly behind its last token, in three messages. -/
  messages : log =
    spans.flatMap (fun p => p.2.map .token ++
      [.parsed p.1, .generated p.1 p.1.code.length, .evaluated p.1 p.1.value]) ++
    ((us ++ [t]).map .token ++ closingEvents (yielded source).length t (errorOf source))
  /-- The messages of the reader of tokens are the tokens that are read, each once and in order. -/
  tokens : log.filter (·.target = "paren_calc::parser::lexer") = (tokensRead source).map .token
  /-- The one thing that is told as an error is a group that is not closed. -/
  errors : log.filter (·.level = .error) =
    match errorOf source with
    | some (.missingClosingParen _ fragment) => [.unclosed fragment t.char]
    | _ => []
  /-- The end is told if and only if there is no error. -/
  ends : log.filter (·.level = .info) =
    match errorOf source with
    | none => [.ended (yielded source).length]
    | some _ => []
  /-- A source without an error is read to its end. -/
  complete : ∀ es, parse source = .ok es →
    es = yielded source ∧ us = [] ∧ t.isEndOfInput = true ∧
      tokensRead source = GroupedArith.tokens source
  /-- The last token that is read is the one at fault. -/
  cut : ∀ err, parse source = .error err →
    ∃ a, err.ShowsAt source (yielded source) (spans.flatMap Prod.snd) a us t

/-! ### Which messages are of which kind -/

/-- What is told before the last message: expressions with their tokens, then tokens. -/
def bodyEvents (spans : List (Expr × List Token)) (ts : List Token) : List Event :=
  spans.flatMap (spanEvents Engine.all) ++ ts.map .token

section Kinds
variable (spans : List (Expr × List Token)) (ts : List Token) (count : Nat) (t : Token)
  (error? : Option SyntaxError)

theorem level_of_mem_bodyEvents {e : Event} (h : e ∈ bodyEvents spans ts) :
    e.level = .trace ∨ e.level = .debug := by
  rcases List.mem_append.mp h with h | h
  · obtain ⟨p, -, hp⟩ := List.mem_flatMap.mp h
    simp only [spanEvents, Engine.all, List.mem_append, List.mem_map, List.mem_cons,
      List.map_cons, List.map_nil, List.not_mem_nil, or_false] at hp
    rcases hp with ⟨x, -, rfl⟩ | rfl | rfl | rfl
    · exact .inl rfl
    · exact .inr rfl
    · exact .inr rfl
    · exact .inr rfl
  · obtain ⟨x, -, rfl⟩ := List.mem_map.mp h
    exact .inl rfl

/-- Messages of the other levels come last only. -/
theorem filter_level_bodyEvents {l : Level} (htrace : l ≠ .trace) (hdebug : l ≠ .debug) :
    (bodyEvents spans ts).filter (·.level = l) = [] := by
  rw [List.filter_eq_nil_iff]
  intro e he hlevel
  obtain rfl : e.level = l := of_decide_eq_true hlevel
  rcases level_of_mem_bodyEvents spans ts he with h | h
  · exact htrace h
  · exact hdebug h

theorem filter_level_error_closingEvents :
    (closingEvents count t error?).filter (·.level = .error) =
      match error? with
      | some (.missingClosingParen _ fragment) => [.unclosed fragment t.char]
      | _ => [] := by
  cases error? with
  | none => rfl
  | some err => cases err <;> rfl

theorem filter_level_info_closingEvents :
    (closingEvents count t error?).filter (·.level = .info) =
      match error? with
      | none => [.ended count]
      | some _ => [] := by
  cases error? with
  | none => rfl
  | some err => cases err <;> rfl

theorem filter_target_map_token :
    (ts.map Event.token).filter (·.target = "paren_calc::parser::lexer") = ts.map .token := by
  rw [List.filter_eq_self]
  intro e he
  obtain ⟨x, -, rfl⟩ := List.mem_map.mp he
  rfl

theorem filter_target_bodyEvents :
    (bodyEvents spans ts).filter (·.target = "paren_calc::parser::lexer") =
      (spans.flatMap Prod.snd ++ ts).map .token := by
  have hspan : ∀ p : Expr × List Token,
      (spanEvents Engine.all p).filter (·.target = "paren_calc::parser::lexer") =
        p.2.map .token := by
    intro p
    rw [spanEvents, List.filter_append, filter_target_map_token]
    exact List.append_nil _
  rw [bodyEvents, List.filter_append, filter_target_map_token, List.filter_flatMap,
    List.map_append, List.map_flatMap]
  exact congrArg (· ++ _) (List.flatMap_congr fun p _ => hspan p)

theorem filter_target_closingEvents :
    (closingEvents count t error?).filter (·.target = "paren_calc::parser::lexer") = [] := by
  cases error? with
  | none => rfl
  | some err => cases err <;> rfl

end Kinds

/-! ### The chronicle of a source -/

section Source
variable {source : String} {spans : List (Expr × List Token)} {a : Awaiting} {us : List Token}
  {t : Token}

/-- What is wrong with the refused token is the error of the source. -/
theorem Cursor.Divides.errorOf_eq (h : (Cursor.ofString source).Divides spans a us t) :
    errorOf source = a.complaint? t := by
  rw [errorOf, parse_eq_parsed, h.stopsAt.parsed_eq, Reached.verdict]
  cases a.complaint? t with
  | none => rfl
  | some err => rfl

/-- Without an error all tokens are read, and none is left behind the last expression but the
end. -/
theorem Cursor.Divides.complete (h : (Cursor.ofString source).Divides spans a us t)
    {es : List Expr} (hes : parse source = .ok es) :
    es = GroupedArith.yielded source ∧ us = [] ∧ t.isEndOfInput = true ∧
      GroupedArith.tokensRead source = GroupedArith.tokens source := by
  rw [parse_eq_parsed, h.stopsAt.parsed_eq] at hes
  obtain ⟨hreached, hend⟩ := Reached.verdict_eq_ok_iff.mp hes
  obtain ⟨rfl, rfl⟩ := Reached.mk.inj hreached
  have hus : us = [] := by
    cases h.groups with
    | operand houter =>
        cases houter
        rfl
  obtain ⟨vs, hvs⟩ := h.stopsAt.tokens
  rw [List.append_assoc] at hvs
  have hall := eq_of_tokens_eq hvs.symm hend
  have hlast : vs = [] := by
    rw [hall] at hvs
    exact (List.cons.inj (List.append_cancel_left hvs)).2
  refine ⟨rfl, hus, hend, ?_⟩
  rw [hlast] at hvs
  exact h.stopsAt.tokensRead_eq.trans hvs

theorem Cursor.Divides.showsAt (h : (Cursor.ofString source).Divides spans a us t)
    {err : SyntaxError} (herr : parse source = .error err) :
    err.ShowsAt source (GroupedArith.yielded source) (spans.flatMap Prod.snd) a us t := by
  rw [parse_eq_parsed, h.stopsAt.parsed_eq, Reached.verdict_eq_error_iff] at herr
  have hfaults : a.Faults t err := ⟨h.refused, herr⟩
  have hes : Expr.AllSpelled (GroupedArith.yielded source) (spans.flatMap Prod.snd) := by
    rw [GroupedArith.yielded, ← h.exprs]
    exact Expr.allSpelled_spans h.spelled
  exact hfaults.showsAt h.stopsAt.tokens h.stopsAt.tokensRead_eq hes h.groups

theorem exists_fullLog_eq (source : String) :
    ∃ spans a us t, (Cursor.ofString source).Divides spans a us t ∧
      fullLog source =
        bodyEvents spans (us ++ [t]) ++
          closingEvents (yielded source).length t (errorOf source) := by
  obtain ⟨spans, a, us, t, hdivides, hlog⟩ :=
    Session.log_eq (s := Session.ofString source Engine.all) rfl
  have hdivides : (Cursor.ofString source).Divides spans a us t := hdivides
  have hcount : (Session.ofString source Engine.all).count + spans.length =
      (yielded source).length := by
    rw [yielded, ← hdivides.exprs, List.length_map]
    exact Nat.zero_add _
  refine ⟨spans, a, us, t, hdivides, ?_⟩
  rw [fullLog, List.filter_eq_self.mpr fun e _ => e.isKept_trace, hlog, hcount,
    hdivides.errorOf_eq, bodyEvents, List.append_assoc]
  rfl

/-- The log of all engines on a source tells its run: each expression with its tokens before it and
what the engines make of it behind it, then the tokens up to the end or to the one at fault, then
the number of expressions or the group that is not closed. -/
theorem exists_chronicle (source : String) :
    ∃ spans us t, Chronicle (fullLog source) source spans us t := by
  obtain ⟨spans, a, us, t, hdivides, hlog⟩ := exists_fullLog_eq source
  have hread : tokensRead source = spans.flatMap Prod.snd ++ us ++ [t] :=
    hdivides.stopsAt.tokensRead_eq
  exact ⟨spans, us, t,
    { exprs := hdivides.exprs
      spelled := hdivides.spelled
      read := hread
      messages := by
        rw [hlog, bodyEvents, List.append_assoc]
        rfl
      tokens := by
        rw [hlog, List.filter_append, filter_target_bodyEvents, filter_target_closingEvents,
          List.append_nil, ← List.append_assoc, ← hread]
      errors := by
        rw [hlog, List.filter_append, filter_level_bodyEvents _ _ (by decide) (by decide),
          filter_level_error_closingEvents, List.nil_append]
      ends := by
        rw [hlog, List.filter_append, filter_level_bodyEvents _ _ (by decide) (by decide),
          filter_level_info_closingEvents, List.nil_append]
      complete := fun _ hes => hdivides.complete hes
      cut := fun _ herr => ⟨a, hdivides.showsAt herr⟩ }⟩

end Source

example : fullLog "4 (2+3" =
    [.token ⟨.digit 4, 0⟩, .parsed (.digit 4 0), .generated (.digit 4 0) 2,
      .evaluated (.digit 4 0) 4, .token ⟨.symbol '(', 0⟩, .token ⟨.digit 2, 0⟩,
      .token ⟨.symbol '+', 0⟩, .token ⟨.digit 3, 0⟩, .token ⟨.endOfInput, 0⟩,
      .unclosed "(2+3" '#'] := by
  decide +kernel

end GroupedArith
