/-
# `GroupedArith.Proofs.Continuation` — what more text does to an answer

## What is proved

For every text `a`, with `k` line breaks in it (`parse_append`):

* if `a` is read, then `a ++ b` is read as `a` and `b` are one after the other,
  and if `b` has an error, this is the error of `a ++ b`; what comes from `b` is
  `k` lines further down;
* if `a` has an error at one of its characters, then `a ++ b` has the same error,
  whatever `b` is;
* if `a` has an error at its end, then `a ++ b` is read for some `b`.

So an error is reported as soon as nothing that follows can make up for it, and
no sooner: what comes before the character at fault can be completed.

| | |
| :-- | :-- |
| needed | completed by |
| an expression | `0`, and what closes the groups around it |
| an operator | `+0)`, and what closes the groups around it |
| `)` | `)`, and what closes the groups around it |

A group that waits for its left operand is closed by `+0)` once it has it, one
that waits for its right operand by `)` (`OpenGroup.closers`).
-/
import GroupedArith.Proofs.Acceptance
import GroupedArith.Proofs.Diagnosis

namespace GroupedArith

/-! ## The tokens of a longer text -/

/-- What comes from the second text is that many lines further down. -/
theorem tokens_append (a b : String) :
    tokens (a ++ b) = (place 0 a.toList).map Placed.token ++
      (tokens b).map (Token.mapLine (· + a.toList.count '\n')) := by
  have hend : Token.endOfInput (a.toList.count '\n' + b.toList.count '\n') =
      (Token.endOfInput (b.toList.count '\n')).mapLine (· + a.toList.count '\n') := by
    rw [Nat.add_comm]
    rfl
  simp only [tokens, Cursor.tokens, Cursor.ofString, String.toList_append, place_append, place_add,
    List.count_append, List.map_append, List.map_map, hend, List.append_assoc, List.map_cons,
    List.map_nil]
  rfl

theorem prefix_place_of_tokens {a : String} {ts : List Token} {t : Token}
    (h : ts ++ [t] <+: tokens a) (ht : t.isEndOfInput = false) :
    ts ++ [t] <+: (place 0 a.toList).map Placed.token := by
  rcases List.prefix_concat_iff.mp h with heq | hplace
  · obtain ⟨-, hend⟩ := List.append_inj' heq rfl
    obtain rfl := List.singleton_inj.mp hend
    exact nomatch ht
  · exact hplace

/-! ## After expressions -/

/-- The answer to what follows some expressions, with these put before it. -/
theorem Reached.verdict_append (es : List Expr) (r : Reached) (t : Token) :
    verdict ⟨es ++ r.exprs, r.awaiting⟩ t = (r.verdict t).map (es ++ ·) := by
  rw [verdict, verdict]
  cases r.awaiting.complaint? t with
  | none => rfl
  | some e => rfl

/-- After a text that is read, the next one is read as it would be alone, further down. -/
theorem parse_append_of_ok {a : String} {es : List Expr} (ha : parse a = .ok es) (b : String) :
    parse (a ++ b) = (mapAnswer (· + a.toList.count '\n') (parse b)).map (es ++ ·) := by
  have hes := parse_eq_ok_iff_allSpelled.mp ha
  obtain ⟨ts, t, r, hb⟩ := (Cursor.ofString b).exists_stopsAt
  generalize hf : (· + a.toList.count '\n') = f
  have hmoved : (r.mapLines f).Spelled (ts.map (Token.mapLine f)) :=
    Reached.advance?_eq_some_iff.mp (Reached.advance?_mapLines f hb.reached)
  obtain ⟨us, vs, hts, hexprs, hawaiting⟩ := hmoved
  have hstop : (Cursor.ofString (a ++ b)).StopsAt
      ((place 0 a.toList).map Placed.token ++ ts.map (Token.mapLine f)) (t.mapLine f)
      ⟨es ++ (r.mapLines f).exprs, (r.mapLines f).awaiting⟩ := by
    constructor
    · have htokens := List.IsPrefix.map (Token.mapLine f) hb.tokens
      rw [List.map_append] at htokens
      rw [List.append_assoc, show (Cursor.ofString (a ++ b)).tokens = _ from tokens_append a b, hf]
      exact (List.prefix_append_right_inj _).mpr htokens
    · rw [Reached.advance?_eq_some_iff, hts, ← List.append_assoc]
      exact ⟨_, vs, rfl, hes.append hexprs, hawaiting⟩
    · exact Awaiting.accept?_mapLines_eq_none f hb.refused
  rw [parse_eq_parsed, hstop.parsed_eq, Reached.verdict_append, Reached.verdict_mapLine,
    parse_eq_parsed, hb.parsed_eq]

/-! ## Completing a text -/

/-- What completes groups around an expression. -/
def OpenGroup.closers : List OpenGroup → List Char
  | [] => []
  | left _ :: outer => '+' :: '0' :: ')' :: closers outer
  | right _ _ _ :: outer => ')' :: closers outer

/-- What completes an expression that was begun. -/
def Awaiting.completion : Awaiting → List Char
  | operand outer => '0' :: OpenGroup.closers outer
  | operator _ _ outer => '+' :: '0' :: ')' :: OpenGroup.closers outer
  | closing _ _ _ _ outer => ')' :: OpenGroup.closers outer

namespace Reached

theorem advance?_closers (es : List Expr) (e : Expr) (outer : List OpenGroup) (n : Nat) :
    ∃ f, (ofProgress es (.ofExpr e outer)).advance?
      ((place n (OpenGroup.closers outer)).map Placed.token) = some ⟨es ++ [f], .operand []⟩ := by
  induction outer generalizing e with
  | nil => exact ⟨e, rfl⟩
  | cons g outer ih =>
      cases g with
      | left m =>
          obtain ⟨f, hf⟩ := ih (.group e .add (.digit (.ofNat (0 : Fin 10)) n) m)
          refine ⟨f, ?_⟩
          calc advance? ⟨es, .operator m e outer⟩
                ((place n ('+' :: '0' :: ')' :: OpenGroup.closers outer)).map Placed.token)
              = advance? ⟨es, .operand (.right m e .add :: outer)⟩
                  ((place n ('0' :: ')' :: OpenGroup.closers outer)).map Placed.token) :=
                advance?_cons _ (.operator m e outer .add n)
            _ = advance? ⟨es, .closing m e .add (.digit (.ofNat (0 : Fin 10)) n) outer⟩
                  ((place n (')' :: OpenGroup.closers outer)).map Placed.token) :=
                advance?_cons _ (.digit (.right m e .add :: outer) 0 n)
            _ = (ofProgress es (.ofExpr (.group e .add (.digit (.ofNat (0 : Fin 10)) n) m) outer)).advance?
                  ((place n (OpenGroup.closers outer)).map Placed.token) :=
                advance?_cons _ (.closes m e .add _ outer n)
            _ = some ⟨es ++ [f], .operand []⟩ := hf
      | right m l o =>
          obtain ⟨f, hf⟩ := ih (.group l o e m)
          exact ⟨f, (advance?_cons _ (.closes m l o e outer n)).trans hf⟩

/-- The completion leads back between two expressions. -/
theorem advance?_completion (r : Reached) (n : Nat) :
    ∃ es, r.advance? ((place n r.awaiting.completion).map Placed.token) =
      some ⟨es, .operand []⟩ := by
  obtain ⟨es, a⟩ := r
  cases a with
  | operand outer =>
      obtain ⟨f, hf⟩ := advance?_closers es (.digit (.ofNat (0 : Fin 10)) n) outer n
      exact ⟨_, (advance?_cons _ (.digit outer 0 n)).trans hf⟩
  | operator m l outer =>
      obtain ⟨f, hf⟩ := advance?_closers es l (.left m :: outer) n
      exact ⟨_, hf⟩
  | closing m l o r outer =>
      obtain ⟨f, hf⟩ := advance?_closers es r (.right m l o :: outer) n
      exact ⟨_, hf⟩

end Reached

/-- A text whose characters can be read up to its end can be completed. -/
theorem exists_parse_append_eq_ok {a : String} {r : Reached}
    (h : Reached.start.advance? ((place 0 a.toList).map Placed.token) = some r) :
    ∃ b es, parse (a ++ b) = .ok es := by
  obtain ⟨es, hes⟩ := r.advance?_completion (0 + a.toList.count '\n')
  refine ⟨.ofList r.awaiting.completion, es, parse_eq_ok_iff_allSpelled.mpr ?_⟩
  rw [String.toList_append, String.toList_ofList, place_append, List.map_append]
  apply Reached.allSpelled_of_spelled
  rw [← Reached.advance?_eq_some_iff, Reached.advance?_append, h, Option.bind_some, hes]

/-! ## After an error -/

/-- An error at a character stays, whatever follows. -/
theorem parse_append_of_stopsAt {a : String} {ts : List Token} {t : Token} {r : Reached}
    (h : (Cursor.ofString a).StopsAt ts t r) (ht : t.isEndOfInput = false) (b : String) :
    parse (a ++ b) = r.verdict t := by
  have htokens : ts ++ [t] <+: tokens (a ++ b) := by
    rw [tokens_append]
    exact (prefix_place_of_tokens h.tokens ht).trans (List.prefix_append _ _)
  have hstop : (Cursor.ofString (a ++ b)).StopsAt ts t r := ⟨htokens, h.reached, h.refused⟩
  rw [parse_eq_parsed, hstop.parsed_eq]

/-- Where the character at fault stands: it ends a text which has the same error. -/
theorem exists_char_of_stopsAt {a : String} {ts : List Token} {t : Token} {r : Reached}
    (h : (Cursor.ofString a).StopsAt ts t r) (ht : t.isEndOfInput = false) :
    ∃ before after : String, a = before ++ .singleton t.char ++ after ∧
      before.toList.count '\n' = t.line ∧ (place 0 before.toList).map Placed.token = ts ∧
      (Cursor.ofString (before ++ .singleton t.char)).StopsAt ts t r := by
  obtain ⟨us, hus⟩ := prefix_place_of_tokens h.tokens ht
  rw [List.append_assoc] at hus
  obtain ⟨ps, qs', hplace, rfl, hqs⟩ := List.map_eq_append_iff.mp hus.symm
  obtain ⟨p, qs, rfl, rfl, -⟩ := List.map_eq_cons_iff.mp hqs
  obtain ⟨before, after, htext, hc, rfl, hline⟩ := exists_of_place_eq_append hplace
  rw [Nat.zero_add] at hline
  refine ⟨.ofList before, .ofList after, ?_, ?_, ?_, ?_⟩
  · rw [← String.toList_inj]
    simp [htext]
  · rw [String.toList_ofList, hline]
    rfl
  · rw [String.toList_ofList]
  · refine ⟨?_, h.reached, h.refused⟩
    have hplaced : place 0 (before ++ [p.char]) = place 0 before ++ [p] := by
      rw [place_append, place_significant _ _ hc, Nat.zero_add, hline]
      rfl
    rw [Cursor.tokens, Cursor.ofString, String.toList_append, String.toList_ofList,
      String.toList_singleton, char_token, hplaced, List.map_append]
    exact List.prefix_append _ _

/-- Text behind a text that is read is read as it would be alone, further down; an error at a
character is not changed by what follows, and one at the end can be repaired.  What comes before the
character at fault can be completed, and with this character it cannot. -/
theorem parse_append :
    (∀ (a b : String) (es : List Expr), parse a = .ok es →
      (∀ fs, parse b = .ok fs →
        parse (a ++ b) = .ok (es ++ fs.map (Expr.mapLines (· + a.toList.count '\n')))) ∧
      ∀ err, parse b = .error err →
        parse (a ++ b) = .error (err.mapLine (· + a.toList.count '\n'))) ∧
    ∀ (a : String) (err : SyntaxError), parse a = .error err →
      ∃ ts t, tokensRead a = ts ++ [t] ∧
        (t.isEndOfInput = true → ∃ b es, parse (a ++ b) = .ok es) ∧
        (t.isEndOfInput = false →
          (∀ b, parse (a ++ b) = .error err) ∧
          ∃ before after, a = before ++ .singleton t.char ++ after ∧
            before.toList.count '\n' = t.line ∧
            (∃ b es, parse (before ++ b) = .ok es) ∧
            ∀ b, parse (before ++ .singleton t.char ++ b) = .error err) := by
  constructor
  · intro a b es ha
    have hab := parse_append_of_ok ha b
    constructor
    · intro fs hb
      rw [hab, hb]
      rfl
    · intro err hb
      rw [hab, hb]
      rfl
  · intro a err ha
    obtain ⟨ts, t, r, hstop⟩ := (Cursor.ofString a).exists_stopsAt
    have hverdict : r.verdict t = .error err := by rw [← hstop.parsed_eq, ← parse_eq_parsed, ha]
    refine ⟨ts, t, hstop.tokensRead_eq, fun ht => ?_, fun ht => ⟨fun b => ?_, ?_⟩⟩
    · obtain ⟨us, hus⟩ := hstop.tokens
      rw [List.append_assoc] at hus
      have hall := eq_of_tokens_eq hus.symm ht
      exact exists_parse_append_eq_ok (hall ▸ hstop.reached)
    · rw [parse_append_of_stopsAt hstop ht, hverdict]
    · obtain ⟨before, after, htext, hline, hts, hstop'⟩ := exists_char_of_stopsAt hstop ht
      refine ⟨before, after, htext, hline, exists_parse_append_eq_ok (hts ▸ hstop.reached), ?_⟩
      intro b
      rw [parse_append_of_stopsAt hstop' ht, hverdict]

/-- The three cases, at `1` with a line break and `2`, at `(1+`, and at `(1)`. -/
theorem parse_append_samples :
    parse ("1\n" ++ "2") = .ok [.digit 1 0, .digit 2 1] ∧
      (∃ b es, parse ("(1+" ++ b) = .ok es) ∧
      ∀ b, parse ("(1)" ++ b) = .error (.missingOperator 0) := by
  refine ⟨?_, ?_, ?_⟩
  · have ha : parse "1\n" = .ok [.digit 1 0] := by decide +kernel
    have hb : parse "2" = .ok [.digit 2 0] := by decide +kernel
    rw [(parse_append.1 _ _ _ ha).1 _ hb]
    rfl
  · have ha : parse "(1+" = .error (.missingExpression 0) := by decide +kernel
    have htokens : tokensRead "(1+" =
        [⟨.symbol '(', 0⟩, ⟨.digit 1, 0⟩, ⟨.symbol '+', 0⟩] ++ [.endOfInput 0] := by decide +kernel
    obtain ⟨ts, t, hread, hend, -⟩ := parse_append.2 _ _ ha
    obtain ⟨-, ht⟩ := List.append_inj' (htokens.symm.trans hread) rfl
    obtain rfl := List.singleton_inj.mp ht
    exact hend rfl
  · have ha : parse "(1)" = .error (.missingOperator 0) := by decide +kernel
    have htokens : tokensRead "(1)" =
        [⟨.symbol '(', 0⟩, ⟨.digit 1, 0⟩] ++ [⟨.symbol ')', 0⟩] := by decide +kernel
    obtain ⟨ts, t, hread, -, hchar⟩ := parse_append.2 _ _ ha
    obtain ⟨-, ht⟩ := List.append_inj' (htokens.symm.trans hread) rfl
    obtain rfl := List.singleton_inj.mp ht
    exact (hchar rfl).1

end GroupedArith
