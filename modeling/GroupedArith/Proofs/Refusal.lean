/-
# `GroupedArith.Proofs.Refusal` — the first refused token decides

## What is proved

Every source is read up to some token that cannot stand where it is, the end of
the source at the latest (`Cursor.exists_stopsAt`).  Call it `t`, let `ts` be the
tokens before it, and `r` what they have led to; this is `c.StopsAt ts t r`.
Then, whatever follows `t`:

    c.tokensRead = ts ++ [t]        exactly these tokens are read
    c.parsed = r.verdict t          and this is the answer

There are three recursions to bring together: over the characters within one
expression, over the expressions of the source, and over the tokens of the
state `Reached`.  The induction is on the tokens before `t`, for a reader that
is in the middle of an expression (`Awaiting.readFrom_stopsAt`).
-/
import GroupedArith.Reading.Parse
import GroupedArith.Proofs.Spelling

namespace GroupedArith

/-! ## The answer -/

/-- What is wrong with a source whose token `t` is refused; nothing is, if it ends where it may. -/
def Awaiting.complaint? (t : Token) (a : Awaiting) : Option SyntaxError :=
  match t.unlessEnd (a.refuse t) with
  | .ok _ => none
  | .error e => some e

theorem Awaiting.complaint?_operand_nil (t : Token) :
    (operand []).complaint? t =
      if t.isEndOfInput then none else some (.missingExpression t.line) := by
  rw [complaint?, refuse, Token.unlessEnd]
  cases t.isEndOfInput <;> rfl

theorem Awaiting.complaint?_operand_cons (t : Token) (g : OpenGroup) (outer : List OpenGroup) :
    (operand (g :: outer)).complaint? t = some (.missingExpression t.line) := rfl

/-- The answer to a source that was read so far when its token `t` was refused. -/
def Reached.verdict (r : Reached) (t : Token) : Except SyntaxError (List Expr) :=
  match r.awaiting.complaint? t with
  | none => .ok r.exprs
  | some e => .error e

theorem Awaiting.complaint?_eq_none_iff {a : Awaiting} {t : Token} :
    a.complaint? t = none ↔ a = .operand [] ∧ t.isEndOfInput = true := by
  cases a with
  | operand outer =>
      cases outer with
      | nil => simp [complaint?_operand_nil]
      | cons => simp [complaint?_operand_cons]
  | operator => exact iff_of_false nofun nofun
  | closing => exact iff_of_false nofun nofun

/-- Only the end of the source, between two expressions, leaves nothing to complain about. -/
theorem Reached.verdict_eq_ok_iff {r : Reached} {t : Token} {es : List Expr} :
    r.verdict t = .ok es ↔ r = ⟨es, .operand []⟩ ∧ t.isEndOfInput = true := by
  constructor
  · intro h
    rw [verdict] at h
    cases hc : r.awaiting.complaint? t with
    | none =>
        rw [hc] at h
        obtain ⟨ha, hend⟩ := Awaiting.complaint?_eq_none_iff.mp hc
        obtain ⟨es', a⟩ := r
        cases h
        cases ha
        exact ⟨rfl, hend⟩
    | some e =>
        rw [hc] at h
        exact nomatch h
  · rintro ⟨rfl, hend⟩
    rw [verdict, Awaiting.complaint?_eq_none_iff.mpr ⟨rfl, hend⟩]

namespace Cursor

/-- The tokens that are read up to the end of the source or the first error. -/
def tokensRead (c : Cursor) : List Token := c.readings.flatMap Step.tokens

/-- The expressions that follow, or the first error. -/
def parsed (c : Cursor) : Except SyntaxError (List Expr) := gather (c.readings.map Step.answer)

/-- From the cursor the tokens `ts` can be read, and lead to `r`; the next one, `t`, is refused. -/
structure StopsAt (c : Cursor) (ts : List Token) (t : Token) (r : Reached) : Prop where
  tokens : ts ++ [t] <+: c.tokens
  reached : Reached.start.advance? ts = some r
  refused : r.awaiting.accept? t = none

end Cursor

/-- The tokens of a source that are read up to its end or to the first error. -/
def tokensRead (source : String) : List Token := (Cursor.ofString source).tokensRead

theorem parse_eq_parsed (s : String) : parse s = (Cursor.ofString s).parsed := rfl

/-- A value that is found joins those before it. -/
theorem gather_map_append {ε α : Type} (as : List α) (a : α) (l : List (Except ε (Option α))) :
    (gather (.ok (some a) :: l)).map (as ++ ·) = (gather l).map (as ++ [a] ++ ·) := by
  rw [gather]
  cases gather l with
  | error => rfl
  | ok => simp [Except.map]

/-! ## One token -/

/-- A reading step and those after it. -/
def Step.followed (s : Step (Except SyntaxError (Option Expr))) :
    List (Step (Except SyntaxError (Option Expr))) :=
  s :: match s.answer with
    | .ok (some _) => s.cursor.readings
    | _ => []

theorem Cursor.readings_eq_followed (c : Cursor) : c.readings = c.readExpr.followed := by
  rw [Cursor.readings, Step.followed]
  congr 1
  split
  · rename_i h
    rw [h]
  · rename_i h
    split
    · rename_i h'
      exact absurd h' (h _)
    · rfl

/-- A token that is accepted within an expression comes before those of the step. -/
theorem Step.followed_after (t : Token) (s : Step (Except SyntaxError (Option Expr))) :
    (s.after t).unlessEnd.followed.flatMap Step.tokens =
        t :: s.unlessEnd.followed.flatMap Step.tokens ∧
      (s.after t).unlessEnd.followed.map Step.answer =
        s.unlessEnd.followed.map Step.answer :=
  ⟨rfl, rfl⟩

/-- A token that completes an expression is followed by the reading of the next one. -/
theorem Step.followed_done (c : Cursor) (e : Expr) :
    (Step.single c (.ok (some e))).unlessEnd.followed =
      Step.single c (.ok (some e)) :: c.advance.readExpr.followed := by
  rw [← Cursor.readings_eq_followed]
  rfl

/-- A refused token ends the reading, with the complaint if there is one. -/
theorem Step.answer_unlessEnd {s : Step (Except SyntaxError (Option Expr))} {a : Awaiting}
    {t : Token} (hanswer : s.answer = a.refuse t) (hcurrent : s.cursor.current = t) :
    s.unlessEnd.answer =
      match a.complaint? t with
      | none => .ok none
      | some e => .error e := by
  subst hcurrent
  rw [Step.unlessEnd, hanswer]
  cases a with
  | operand outer =>
      cases outer with
      | nil =>
          by_cases h : s.cursor.current.isEndOfInput
          · simp [Awaiting.refuse, Token.unlessEnd, Awaiting.complaint?_operand_nil, h]
          · simp [Awaiting.refuse, Token.unlessEnd, Awaiting.complaint?_operand_nil, h]
      | cons => rfl
  | operator => rfl
  | closing => rfl

theorem Step.unlessEnd_refuse {c : Cursor} {t : Token} (h : c.advance.current = t) (a : Awaiting) :
    (Step.single c (a.refuse t)).unlessEnd.answer =
      match a.complaint? t with
      | none => .ok none
      | some e => .error e :=
  Step.answer_unlessEnd rfl h

/-- The first of the tokens that are left is the next one to be read. -/
theorem Cursor.current_advance {c : Cursor} {t : Token} {us : List Token}
    (h : c.tokens = t :: us) : c.advance.current = t := by
  cases hrest : c.rest with
  | nil =>
      rw [Cursor.tokens, hrest] at h
      rw [Cursor.advance, hrest]
      exact (List.cons.inj h).1
  | cons p ps =>
      rw [Cursor.tokens, hrest] at h
      rw [Cursor.advance, hrest]
      exact (List.cons.inj h).1

namespace Awaiting

theorem readFrom_cons_more {a b : Awaiting} {p : Placed} (c : Cursor) (ps : List Placed)
    (h : a.accept? p.token = some (.more b)) :
    a.readFrom c (p :: ps) = (b.readFrom c ps).after p.token := by
  simp only [readFrom, h]

theorem readFrom_cons_done {a : Awaiting} {e : Expr} {p : Placed} (c : Cursor) (ps : List Placed)
    (h : a.accept? p.token = some (.done e)) :
    a.readFrom c (p :: ps) = .single { c with rest := p :: ps } (.ok (some e)) := by
  simp only [readFrom, h]

theorem readFrom_cons_refused {a : Awaiting} {p : Placed} (c : Cursor) (ps : List Placed)
    (h : a.accept? p.token = none) :
    a.readFrom c (p :: ps) = .single { c with rest := p :: ps } (a.refuse p.token) := by
  simp only [readFrom, h]

theorem readFrom_refused {c : Cursor} {a : Awaiting} {t : Token} {us : List Token}
    {ps : List Placed} (htok : ({ c with rest := ps } : Cursor).tokens = t :: us)
    (h : a.accept? t = none) : a.readFrom c ps = .single { c with rest := ps } (a.refuse t) := by
  cases ps with
  | nil =>
      obtain ⟨rfl, -⟩ := List.cons.inj htok
      rfl
  | cons p ps =>
      obtain ⟨rfl, -⟩ := List.cons.inj htok
      exact readFrom_cons_refused c ps h

/-- Where tokens are left besides the last one, there is a character to be read. -/
theorem exists_placed {c : Cursor} {ps : List Placed} {x : Token} {us : List Token}
    (h : ({ c with rest := ps } : Cursor).tokens = x :: us) (hus : us ≠ []) :
    ∃ p qs, ps = p :: qs ∧ x = p.token ∧ ({ c with rest := qs } : Cursor).tokens = us := by
  cases ps with
  | nil => exact absurd (List.cons.inj h).2.symm hus
  | cons p qs =>
      obtain ⟨rfl, hrest⟩ := List.cons.inj h
      exact ⟨p, qs, rfl, rfl, hrest⟩

/-! ## The tokens before it -/

/-- A reader in the middle of an expression, with `es` behind it, reads on to the first refused
token; the answer is as it should be for the whole. -/
theorem readFrom_stopsAt {c : Cursor} {es : List Expr} {a : Awaiting} {ps : List Placed}
    {ts us : List Token} {t : Token} {r : Reached}
    (htok : ({ c with rest := ps } : Cursor).tokens = ts ++ t :: us)
    (hr : Reached.advance? ⟨es, a⟩ ts = some r) (ht : r.awaiting.accept? t = none) :
    (a.readFrom c ps).unlessEnd.followed.flatMap Step.tokens = ts ++ [t] ∧
      (gather ((a.readFrom c ps).unlessEnd.followed.map Step.answer)).map (es ++ ·) =
        r.verdict t := by
  induction ts generalizing c es a ps with
  | nil =>
      cases hr
      have hcur := Cursor.current_advance htok
      rw [readFrom_refused htok ht, Step.followed, Step.unlessEnd_refuse hcur, Reached.verdict]
      constructor
      · cases a.complaint? t with
        | none => simp [Step.unlessEnd, Step.single, hcur]
        | some e => simp [Step.unlessEnd, Step.single, hcur]
      · cases h : a.complaint? t with
        | none => simp [gather, Step.unlessEnd_refuse hcur, h, Except.map]
        | some e => simp [gather, Step.unlessEnd_refuse hcur, h, Except.map]
  | cons x ts ih =>
      obtain ⟨s, hs, hrest⟩ := Option.bind_eq_some_iff.mp hr
      obtain ⟨progress, hp, rfl⟩ := Option.map_eq_some_iff.mp hs
      obtain ⟨p, qs, rfl, rfl, hqs⟩ := exists_placed htok (by simp)
      cases progress with
      | more b =>
          -- still the same expression
          obtain ⟨htokens, hanswer⟩ := ih hqs hrest
          obtain ⟨htokens', hanswer'⟩ := Step.followed_after p.token (b.readFrom c qs)
          rw [readFrom_cons_more c qs hp, htokens', hanswer', htokens]
          exact ⟨rfl, hanswer⟩
      | done e =>
          -- the next expression, from the cursor behind this one
          obtain ⟨htokens, hanswer⟩ := ih (c := { c with current := p.token, rest := qs }) hqs hrest
          rw [readFrom_cons_done c qs hp, Step.followed_done]
          constructor
          · exact congrArg (p.token :: ·) htokens
          · rw [← hanswer]
            exact gather_map_append es e _

end Awaiting

/-! ## The whole source -/

namespace Cursor

theorem StopsAt.tokensRead_eq {c : Cursor} {ts : List Token} {t : Token} {r : Reached}
    (h : c.StopsAt ts t r) : c.tokensRead = ts ++ [t] := by
  obtain ⟨us, hus⟩ := h.tokens
  rw [List.append_assoc] at hus
  rw [tokensRead, readings_eq_followed]
  exact (Awaiting.readFrom_stopsAt hus.symm h.reached h.refused).1

theorem StopsAt.parsed_eq {c : Cursor} {ts : List Token} {t : Token} {r : Reached}
    (h : c.StopsAt ts t r) : c.parsed = r.verdict t := by
  obtain ⟨us, hus⟩ := h.tokens
  rw [List.append_assoc] at hus
  have hanswer := (Awaiting.readFrom_stopsAt hus.symm h.reached h.refused).2
  rw [parsed, readings_eq_followed, ← hanswer]
  exact (congrFun Except.map_id _).symm

/-- Of tokens that can be followed by the end of a source only, one is refused. -/
theorem exists_refused (r : Reached) (n : Nat) (ts : List Token) :
    ∃ us t vs r', ts ++ [.endOfInput n] = us ++ t :: vs ∧
      r.advance? us = some r' ∧ r'.awaiting.accept? t = none := by
  induction ts generalizing r with
  | nil => exact ⟨[], _, [], r, rfl, rfl, Awaiting.accept?_endOfInput _ n⟩
  | cons t ts ih =>
      cases h : r.awaiting.accept? t with
      | none => exact ⟨[], t, _, r, rfl, rfl, h⟩
      | some p =>
          obtain ⟨us, t', vs, r', heq, hr, ht⟩ := ih (Reached.ofProgress r.exprs p)
          refine ⟨t :: us, t', vs, r', by rw [List.cons_append, heq]; rfl, ?_, ht⟩
          rw [Reached.advance?_cons us (Awaiting.accept?_eq_some_iff.mp h)]
          exact hr

theorem exists_stopsAt (c : Cursor) : ∃ ts t r, c.StopsAt ts t r := by
  obtain ⟨us, t, vs, r, heq, hr, ht⟩ :=
    exists_refused .start c.endLine (c.rest.map Placed.token)
  exact ⟨us, t, r, ⟨vs, by rw [List.append_assoc]; exact heq.symm⟩, hr, ht⟩

end Cursor

end GroupedArith
