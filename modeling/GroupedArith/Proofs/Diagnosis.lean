/-
# `GroupedArith.Proofs.Diagnosis` — which error is reported, and where it shows

## What is proved

A source is not read if and only if it can be divided as follows
(`parse_eq_error_iff`):

    ts    the tokens of complete expressions
    us    the tokens of open groups, as far as they go
    t     the token that cannot follow, the last one that is read

The groups are those of an `Awaiting`, and what the innermost one needs decides
which error it is:

    an expression     `a.LacksExpression t`     missingExpression
    an operator       `a.LacksOperator t`       missingOperator
    its `)`           `a.LacksClosing t`        missingClosingParen

The line of the error is that of `t`.  The fragment of a group that is not closed
is what the source has of it, from its `(` up to `t` without layout: nothing
else is read in between, and a tree is rendered as what it is read from
(`Expr.Spelled.map_char`).
-/
import GroupedArith.Proofs.Layout
import GroupedArith.Proofs.Refusal

namespace GroupedArith

/-! ## What a token fails to be -/

namespace Awaiting

/-- An expression is due and `t` opens none; between two expressions, `t` is not the end either. -/
def LacksExpression (a : Awaiting) (t : Token) : Prop :=
  ∃ outer, a = .operand outer ∧ (∀ d, t.kind ≠ .digit d) ∧ t.kind ≠ .symbol '(' ∧
    (outer = [] → t.isEndOfInput = false)

/-- The innermost group is `( l`, and `t` is no operator. -/
def LacksOperator (a : Awaiting) (t : Token) : Prop :=
  ∃ n l outer, a = .operator n l outer ∧ t.kind ≠ .symbol '+' ∧ t.kind ≠ .symbol '*'

/-- The innermost group is `( l o r`, and `t` does not close it. -/
def LacksClosing (a : Awaiting) (t : Token) : Prop :=
  ∃ n l o r outer, a = .closing n l o r outer ∧ t.kind ≠ .symbol ')'

/-- The token `t` is refused, and `err` is said about it. -/
def Faults (a : Awaiting) (t : Token) (err : SyntaxError) : Prop :=
  a.accept? t = none ∧ a.complaint? t = some err

theorem Faults.unique {a : Awaiting} {t : Token} {err err' : SyntaxError}
    (h : a.Faults t err) (h' : a.Faults t err') : err = err' :=
  Option.some.inj (h.2.symm.trans h'.2)

/-- Where an expression is due, nothing else can be missing. -/
theorem complaint?_operand_eq_some_iff {outer : List OpenGroup} {t : Token} {err : SyntaxError} :
    (operand outer).complaint? t = some err ↔
      err = .missingExpression t.line ∧ (outer = [] → t.isEndOfInput = false) := by
  cases outer with
  | nil =>
      rw [complaint?_operand_nil]
      cases t.isEndOfInput with
      | true => simp
      | false => simp [eq_comm]
  | cons g outer =>
      rw [complaint?_operand_cons, Option.some_inj, eq_comm]
      simp

theorem faults_missingExpression_iff {a : Awaiting} {t : Token} {n : Nat} :
    a.Faults t (.missingExpression n) ↔ a.LacksExpression t ∧ n = t.line := by
  constructor
  · rintro ⟨hrefused, hcomplaint⟩
    cases a with
    | operand outer =>
        obtain ⟨hdigit, hopening⟩ := not_or.mp (accept?_eq_none_iff.mp hrefused)
        obtain ⟨herr, hend⟩ := complaint?_operand_eq_some_iff.mp hcomplaint
        exact ⟨⟨outer, rfl, fun d hd => hdigit ⟨d, hd⟩, hopening, hend⟩,
          SyntaxError.missingExpression.inj herr⟩
    | operator => exact nomatch hcomplaint
    | closing => exact nomatch hcomplaint
  · rintro ⟨⟨outer, rfl, hdigit, hopening, hend⟩, rfl⟩
    refine ⟨accept?_eq_none_iff.mpr ?_, complaint?_operand_eq_some_iff.mpr ⟨rfl, hend⟩⟩
    rintro (⟨d, hd⟩ | hd)
    · exact hdigit d hd
    · exact hopening hd

theorem faults_missingOperator_iff {a : Awaiting} {t : Token} {n : Nat} :
    a.Faults t (.missingOperator n) ↔ a.LacksOperator t ∧ n = t.line := by
  constructor
  · rintro ⟨hrefused, hcomplaint⟩
    cases a with
    | operand outer => exact nomatch (complaint?_operand_eq_some_iff.mp hcomplaint).1
    | operator m l outer =>
        cases hcomplaint
        exact ⟨⟨m, l, outer, rfl, not_or.mp (accept?_eq_none_iff.mp hrefused)⟩, rfl⟩
    | closing => exact nomatch hcomplaint
  · rintro ⟨⟨m, l, outer, rfl, hadd, hmul⟩, rfl⟩
    exact ⟨accept?_eq_none_iff.mpr (not_or.mpr ⟨hadd, hmul⟩), rfl⟩

theorem faults_missingClosingParen_iff {a : Awaiting} {t : Token} {n : Nat} {p : String} :
    a.Faults t (.missingClosingParen n p) ↔
      ∃ m l o r outer, a = .closing m l o r outer ∧ t.kind ≠ .symbol ')' ∧ n = t.line ∧
        p = Expr.renderOpen l o r := by
  constructor
  · rintro ⟨hrefused, hcomplaint⟩
    cases a with
    | operand outer => exact nomatch (complaint?_operand_eq_some_iff.mp hcomplaint).1
    | operator => exact nomatch hcomplaint
    | closing m l o r outer =>
        cases hcomplaint
        exact ⟨m, l, o, r, outer, rfl, accept?_eq_none_iff.mp hrefused, rfl, rfl⟩
  · rintro ⟨m, l, o, r, outer, rfl, hclosing, rfl, rfl⟩
    exact ⟨accept?_eq_none_iff.mpr hclosing, rfl⟩

end Awaiting

theorem Reached.verdict_eq_error_iff {r : Reached} {t : Token} {err : SyntaxError} :
    r.verdict t = .error err ↔ r.awaiting.complaint? t = some err := by
  rw [verdict]
  cases r.awaiting.complaint? t with
  | none => simp
  | some e => simp

/-! ## The text of what was read -/

/-- An expression is rendered as the characters it is spelled with. -/
theorem Expr.Spelled.map_char {e : Expr} {ts : List Token} (h : e.Spelled ts) :
    ts.map Token.char = e.render.toList := by
  induction h with
  | digit d n => exact (toList_digit d).symm
  | group o n m k _ _ ihl ihr => simp [render, ihl, ihr, Token.char, Token.Kind.char, Char.toString]

theorem Expr.renderOpen_eq_map_char {l r : Expr} {us vs : List Token} (o : Op) (n m : Nat)
    (hl : l.Spelled us) (hr : r.Spelled vs) :
    (⟨.symbol '(', n⟩ :: (us ++ ⟨.symbol o.symbol, m⟩ :: vs)).map Token.char =
      (renderOpen l o r).toList := by
  simp [renderOpen, hl.map_char, hr.map_char, Token.char, Token.Kind.char, Char.toString]

/-- What is read before some token shows the first significant characters of the source. -/
theorem map_char_eq_take {s : String} {ts : List Token} {t : Token} (h : ts ++ [t] <+: tokens s) :
    ts.map Token.char = (significant s.toList).take ts.length := by
  obtain ⟨us, hus⟩ := h
  have hlength := congrArg List.length hus
  have hread : ts <+: tokens s := ⟨t :: us, by rw [← hus, List.append_assoc]; rfl⟩
  have hplace : ts <+: (place 0 s.toList).map Placed.token := by
    refine List.prefix_of_prefix_length_le hread (List.prefix_append _ _) ?_
    simp [tokens, Cursor.tokens, Cursor.ofString] at hlength ⊢
    omega
  have hchars := List.prefix_iff_eq_take.mp (hplace.map Token.char)
  rw [List.length_map, List.map_map] at hchars
  rw [hchars, ← map_char_place 0]
  congr 2
  funext p
  exact char_token p

/-! ## The diagnosis -/

/-- The error `err` of the source `s` shows at the token `t`.  Before it are the expressions `es`,
with the tokens `ts`, and the open groups of `a`, with the tokens `us`. -/
structure SyntaxError.ShowsAt (err : SyntaxError) (s : String) (es : List Expr) (ts : List Token)
    (a : Awaiting) (us : List Token) (t : Token) : Prop where
  source : ts ++ us ++ [t] <+: tokens s
  read : tokensRead s = ts ++ us ++ [t]
  exprs : Expr.AllSpelled es ts
  groups : a.Spelled us
  kind : (∃ n, err = .missingExpression n) ∨ (∃ n, err = .missingOperator n) ∨
    ∃ n p, err = .missingClosingParen n p
  expression : (∃ n, err = .missingExpression n) ↔ a.LacksExpression t
  operator : (∃ n, err = .missingOperator n) ↔ a.LacksOperator t
  closing : (∃ n p, err = .missingClosingParen n p) ↔ a.LacksClosing t
  line : err.line = t.line
  /-- The fragment is the source from the `(` of the innermost group up to the token. -/
  fragment : ∀ n p, err = .missingClosingParen n p →
    ∃ m l o r outer vs ls k rs, a = .closing m l o r outer ∧
      us = vs ++ ⟨.symbol '(', m⟩ :: (ls ++ ⟨.symbol o.symbol, k⟩ :: rs) ∧
      OpenGroup.AllSpelled outer vs ∧ l.Spelled ls ∧ r.Spelled rs ∧
      p.toList = ((significant s.toList).take (ts ++ us).length).drop (ts ++ vs).length

theorem SyntaxError.cases_kind (err : SyntaxError) :
    (∃ n, err = .missingExpression n) ∨ (∃ n, err = .missingOperator n) ∨
      ∃ n p, err = .missingClosingParen n p := by
  cases err with
  | missingExpression n => exact .inl ⟨n, rfl⟩
  | missingOperator n => exact .inr (.inl ⟨n, rfl⟩)
  | missingClosingParen n p => exact .inr (.inr ⟨n, p, rfl⟩)

/-- The innermost group, as the source has it. -/
theorem fragment_eq {s : String} {ts vs ws : List Token} {t : Token}
    (h : ts ++ (vs ++ ws) ++ [t] <+: tokens s) :
    ((significant s.toList).take (ts ++ (vs ++ ws)).length).drop (ts ++ vs).length =
      ws.map Token.char := by
  rw [← map_char_eq_take h, ← List.append_assoc, List.map_append]
  exact List.drop_left' (List.length_map _)

/-- What is said of a refused token is the diagnosis. -/
theorem Awaiting.Faults.showsAt {a : Awaiting} {t : Token} {err : SyntaxError} {s : String}
    {es : List Expr} {ts us : List Token} (h : a.Faults t err)
    (hsource : ts ++ us ++ [t] <+: tokens s) (hread : tokensRead s = ts ++ us ++ [t])
    (hes : Expr.AllSpelled es ts) (ha : a.Spelled us) : err.ShowsAt s es ts a us t where
  source := hsource
  read := hread
  exprs := hes
  groups := ha
  kind := err.cases_kind
  expression := by
    constructor
    · rintro ⟨n, rfl⟩
      exact (faults_missingExpression_iff.mp h).1
    · intro hlacks
      exact ⟨_, h.unique (faults_missingExpression_iff.mpr ⟨hlacks, rfl⟩)⟩
  operator := by
    constructor
    · rintro ⟨n, rfl⟩
      exact (faults_missingOperator_iff.mp h).1
    · intro hlacks
      exact ⟨_, h.unique (faults_missingOperator_iff.mpr ⟨hlacks, rfl⟩)⟩
  closing := by
    constructor
    · rintro ⟨n, p, rfl⟩
      obtain ⟨m, l, o, r, outer, rfl, ht, -, -⟩ := faults_missingClosingParen_iff.mp h
      exact ⟨m, l, o, r, outer, rfl, ht⟩
    · rintro ⟨m, l, o, r, outer, rfl, ht⟩
      exact ⟨_, _, h.unique
        (faults_missingClosingParen_iff.mpr ⟨m, l, o, r, outer, rfl, ht, rfl, rfl⟩)⟩
  line := by
    cases err with
    | missingExpression n => exact (faults_missingExpression_iff.mp h).2
    | missingOperator n => exact (faults_missingOperator_iff.mp h).2
    | missingClosingParen n p =>
        obtain ⟨-, -, -, -, -, -, -, rfl, -⟩ := faults_missingClosingParen_iff.mp h
        rfl
  fragment := by
    rintro n p rfl
    obtain ⟨m, l, o, r, outer, rfl, -, -, rfl⟩ := faults_missingClosingParen_iff.mp h
    cases ha with
    | @closing _ _ _ vs ls rs _ _ k ho hl hr =>
        refine ⟨m, l, o, r, outer, vs, ls, k, rs, rfl, rfl, ho, hl, hr, ?_⟩
        rw [fragment_eq hsource, Expr.renderOpen_eq_map_char o m k hl hr]

theorem SyntaxError.ShowsAt.faults {err : SyntaxError} {s : String} {es : List Expr}
    {ts us : List Token} {a : Awaiting} {t : Token} (h : err.ShowsAt s es ts a us t) :
    a.Faults t err := by
  have hline := h.line
  cases err with
  | missingExpression n =>
      exact Awaiting.faults_missingExpression_iff.mpr ⟨h.expression.mp ⟨n, rfl⟩, hline⟩
  | missingOperator n =>
      exact Awaiting.faults_missingOperator_iff.mpr ⟨h.operator.mp ⟨n, rfl⟩, hline⟩
  | missingClosingParen n p =>
      obtain ⟨m, l, o, r, outer, vs, ls, k, rs, rfl, rfl, -, hl, hr, hp⟩ := h.fragment n p rfl
      obtain ⟨-, -, -, -, -, -, ht⟩ := h.closing.mp ⟨n, p, rfl⟩
      rw [fragment_eq h.source, Expr.renderOpen_eq_map_char o m k hl hr, String.toList_inj] at hp
      exact Awaiting.faults_missingClosingParen_iff.mpr ⟨m, l, o, r, outer, rfl, ht, hline, hp⟩

/-- A source is not read if and only if its error shows at some token. -/
theorem parse_eq_error_iff {s : String} {err : SyntaxError} :
    parse s = .error err ↔ ∃ es ts a us t, err.ShowsAt s es ts a us t := by
  constructor
  · intro h
    obtain ⟨ts, t, r, hstop⟩ := (Cursor.ofString s).exists_stopsAt
    rw [parse_eq_parsed, hstop.parsed_eq, Reached.verdict_eq_error_iff] at h
    obtain ⟨us, vs, rfl, hes, ha⟩ := Reached.advance?_eq_some_iff.mp hstop.reached
    have hfaults : r.awaiting.Faults t err := ⟨hstop.refused, h⟩
    exact ⟨r.exprs, us, r.awaiting, vs, t,
      hfaults.showsAt hstop.tokens hstop.tokensRead_eq hes ha⟩
  · rintro ⟨es, ts, a, us, t, h⟩
    have hreached : Reached.start.advance? (ts ++ us) = some ⟨es, a⟩ :=
      Reached.advance?_eq_some_iff.mpr ⟨ts, us, rfl, h.exprs, h.groups⟩
    have hstop : (Cursor.ofString s).StopsAt (ts ++ us) t ⟨es, a⟩ :=
      ⟨h.source, hreached, h.faults.1⟩
    rw [parse_eq_parsed, hstop.parsed_eq, Reached.verdict_eq_error_iff]
    exact h.faults.2

example : parse "1 ((2*3)+4\n5" = .error (.missingClosingParen 1 "((2*3)+4") := by cbv

end GroupedArith
