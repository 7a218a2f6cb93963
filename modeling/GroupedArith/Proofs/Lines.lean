/-
# `GroupedArith.Proofs.Lines` — the tokens of a source, one call after the other

## What is proved

Let `N` be the number of significant characters of a source `s`.  Its tokens are
numbered (`TokenAt`), and each number has exactly one:

    n < N     the significant character number `n`, a digit if it is one of 0, …, 9
              and a symbol otherwise, on the line that it stands on
    n ≥ N     the end of the source, on the line below all line breaks

A `LineCursor` reads the source line by line.  Whatever it has to pass over, its call
number `n` returns the token number `n`, and this is then its current token; the first
`N + 1` tokens are what it reads up to the end, and what `tokens s` lists
(`LineCursor.pull_ofString`).

## How

A line cursor is a `Cursor` that has not left out the layout yet, and a call is a step of
that cursor (`LineCursor.next_eq`), therefore so many calls are so many steps
(`LineCursor.pull_eq`).  At the beginning both have the same before them: cutting a text
into lines and placing the characters line by line is placing them in one pass
(`LineCursor.placeLines_splitOn`).  What the cursor reads after so many steps is known
from the characters that `place` lists (`Cursor.tokenAt_iff`).
-/
import GroupedArith.Source.Lines
import GroupedArith.Proofs.Position

namespace GroupedArith

/-! ## The tokens of a text by their numbers -/

/-- The token number `n` of a text, the first one being number 0. -/
inductive TokenAt (text : List Char) (n : Nat) : Token → Prop
  | digit {d : Fin 10} {line : Nat} :
      StandsAt text n (Nat.digitChar d) line → TokenAt text n ⟨.digit d, line⟩
  | symbol {c : Char} {line : Nat} :
      StandsAt text n c line → ¬ ('0' ≤ c ∧ c ≤ '9') → TokenAt text n ⟨.symbol c, line⟩
  | endOfInput : (significant text).length ≤ n → TokenAt text n (.endOfInput (text.count '\n'))

/-- The digits are the characters from 0 to 9, and no others. -/
theorem digit?_eq_none_iff {c : Char} : Token.digit? c = none ↔ ¬ ('0' ≤ c ∧ c ≤ '9') := by
  have hdigit : ('0' ≤ c ∧ c ≤ '9') ↔ c.isDigit = true := by
    rw [Char.isDigit, Bool.and_eq_true, decide_eq_true_iff, decide_eq_true_iff]
    rfl
  rw [hdigit, Token.digit?]
  split
  · simp [*]
  · simp [*]

theorem ofChar_of_not_digit {c : Char} (h : ¬ ('0' ≤ c ∧ c ≤ '9')) :
    Token.Kind.ofChar c = .symbol c := by
  rw [Token.Kind.ofChar, digit?_eq_none_iff.mpr h]

/-- The token of a character is the one with its number. -/
theorem tokenAt_of_standsAt {text : List Char} {n line : Nat} {c : Char}
    (h : StandsAt text n c line) : TokenAt text n (Placed.token ⟨c, line⟩) := by
  cases hdigit : Token.digit? c with
  | some d =>
      obtain rfl := digit?_eq_some_iff.mp hdigit
      rw [Placed.token, ofChar_digitChar]
      exact .digit h
  | none =>
      have hc := digit?_eq_none_iff.mp hdigit
      rw [Placed.token, ofChar_of_not_digit hc]
      exact .symbol h hc

/-- Each number has one token: that of its character, or else the end. -/
theorem tokenAt_iff_place {text : List Char} {n : Nat} {t : Token} :
    TokenAt text n t ↔
      t = ((place 0 text)[n]?.map Placed.token).getD (.endOfInput (text.count '\n')) := by
  constructor
  · intro h
    cases h with
    | @digit d line hstands =>
        rw [getElem?_place_iff.mpr hstands, Option.map_some, Option.getD_some, Placed.token,
          ofChar_digitChar]
    | symbol hstands hc =>
        rw [getElem?_place_iff.mpr hstands, Option.map_some, Option.getD_some, Placed.token,
          ofChar_of_not_digit hc]
    | endOfInput hn =>
        rw [← length_place 0] at hn
        rw [List.getElem?_eq_none hn]
        rfl
  · rintro rfl
    cases hplace : (place 0 text)[n]? with
    | none =>
        have hn := List.getElem?_eq_none_iff.mp hplace
        rw [length_place] at hn
        exact .endOfInput hn
    | some p => exact tokenAt_of_standsAt (getElem?_place_iff.mp hplace)

/-! ## The tokens that a cursor reads -/

namespace Cursor

theorem current_advance_eq (c : Cursor) :
    c.advance.current = (c.rest[0]?.map Placed.token).getD (.endOfInput c.endLine) := by
  rw [advance]
  cases c.rest with
  | nil => rfl
  | cons p ps => rfl

/-- So many steps into a source, the next token is the one with that number. -/
theorem tokenAt_iff (source : String) (n : Nat) (t : Token) :
    TokenAt source.toList n t ↔ t = ((ofString source).skip n).advance.current := by
  rw [tokenAt_iff_place, current_advance_eq, rest_skip, endLine_skip, List.getElem?_drop,
    Nat.add_zero]
  rfl

theorem getElem?_upcoming (c : Cursor) (n k : Nat) :
    (c.upcoming n)[k]? = if k < n then some (c.skip k).advance.current else none := by
  induction n generalizing c k with
  | zero => rfl
  | succ n ih =>
      cases k with
      | zero => rfl
      | succ k =>
          rw [upcoming, List.getElem?_cons_succ, ih, skip]
          simp only [Nat.succ_lt_succ_iff]

/-- The current token is the last one that was read. -/
theorem current_skip (c : Cursor) (n : Nat) :
    (c.skip n).current = (c.upcoming n).getLastD c.current := by
  induction n generalizing c with
  | zero => rfl
  | succ n ih => rw [skip, ih, upcoming, List.getLastD_cons]

theorem length_upcoming (c : Cursor) (n : Nat) : (c.upcoming n).length = n := by
  induction n generalizing c with
  | zero => rfl
  | succ n ih => rw [upcoming, List.length_cons, ih]

theorem tokens_eq_cons (c : Cursor) :
    c.tokens = c.advance.current ::
      if c.advance.current.isEndOfInput then [] else c.advance.tokens := by
  obtain ⟨t, ps, n⟩ := c
  cases ps with
  | nil => rfl
  | cons p ps => rw [isEndOfInput_current_advance]; rfl

/-- What is still to be read is one token for each character, and one for the end. -/
theorem tokens_eq_upcoming (c : Cursor) : c.tokens = c.upcoming (c.rest.length + 1) := by
  obtain ⟨t, ps, n⟩ := c
  induction ps generalizing t with
  | nil => rfl
  | cons p ps ih => exact congrArg (p.token :: ·) (ih p.token)

end Cursor

/-! ## Lines -/

namespace LineCursor

theorem isLayout_eq_isLineLayout {c : Char} (h : c ≠ ' ') : isLayout c = isLineLayout c := by
  rw [isLayout, isLineLayout]
  simp only [beq_false_of_ne h, Bool.false_or]
  cases c == '\t' <;> cases c == '\r' <;> cases c == '\n' <;> rfl

theorem placeLines_modifyHead (n : Nat) (c : Char) {lines : List (List Char)} (h : lines ≠ []) :
    placeLines n (lines.modifyHead (c :: ·)) = placeLine n [c] ++ placeLines n lines := by
  cases lines with
  | nil => exact absurd rfl h
  | cons line below =>
      rw [List.modifyHead_cons, placeLines, placeLines, placeLine_cons, List.append_assoc]

theorem splitOn_cons_newline (text : List Char) :
    ('\n' :: text).splitOn '\n' = [] :: text.splitOn '\n' := by
  rw [List.splitOn_eq_splitOnP, List.splitOnP_cons_eq_if_modifyHead, if_pos (beq_self_eq_true _),
    List.splitOn_eq_splitOnP]

theorem splitOn_cons_of_ne {c : Char} (h : c ≠ '\n') (text : List Char) :
    (c :: text).splitOn '\n' = (text.splitOn '\n').modifyHead (c :: ·) := by
  rw [List.splitOn_eq_splitOnP, List.splitOnP_cons_eq_if_modifyHead,
    if_neg (by simpa using h), List.splitOn_eq_splitOnP]

/-- Line by line the characters get the same places as in one pass, and a blank gets none. -/
theorem placeLines_splitOn (n : Nat) (text : List Char) :
    placeLines n ((text.filter (· ≠ ' ')).splitOn '\n') = place n text := by
  -- a line break begins a line of its own, any other character goes in front of the first line
  induction text generalizing n with
  | nil => rfl
  | cons c text ih =>
      by_cases hblank : c = ' '
      · subst hblank
        rw [List.filter_cons_of_neg (by decide), ih, place_layout n text (by decide) rfl]
      · rw [List.filter_cons_of_pos (by simpa using hblank)]
        have hplace : c ≠ '\n' → placeLines n ((c :: text.filter (· ≠ ' ')).splitOn '\n') =
            placeLine n [c] ++ place n text := by
          intro hc
          rw [splitOn_cons_of_ne hc, placeLines_modifyHead n c (List.splitOn_ne_nil _ _), ih]
        rcases char_cases c with rfl | ⟨hc, hlayout⟩ | ⟨hc, hlayout⟩
        · rw [splitOn_cons_newline, place_newline, ← ih]
          rfl
        · rw [hplace hc, place_layout n text hc hlayout]
          rw [isLayout_eq_isLineLayout hblank] at hlayout
          rw [placeLine_layout n hlayout]
          rfl
        · rw [hplace hc, place_significant n text hlayout]
          rw [isLayout_eq_isLineLayout hblank] at hlayout
          rw [placeLine_significant n (by simp [hlayout])]
          rfl

/-- There is one line more than there are line breaks. -/
theorem length_splitOn_newline (text : List Char) :
    (text.splitOn '\n').length = text.count '\n' + 1 := by
  induction text with
  | nil => rfl
  | cons c text ih =>
      by_cases hc : c = '\n'
      · subst hc
        rw [splitOn_cons_newline, List.length_cons, ih, List.count_cons_self]
      · rw [splitOn_cons_of_ne hc, List.length_modifyHead, ih, List.count_cons_of_ne hc]

theorem toCursor_ofString (source : String) :
    (ofString source).toCursor = Cursor.ofString source := by
  have hrest : (ofString source).remaining = place 0 source.toList := by
    rw [← placeLines_splitOn]
    exact (placeLines_drop 0 0 _).symm
  rw [toCursor, hrest, ofString, length_splitOn_newline, List.count_filter (by decide)]
  rfl

/-! ## Calls -/

/-- So many calls are so many steps. -/
theorem pull_eq (c : LineCursor) (n : Nat) :
    (c.pull n).1 = c.toCursor.upcoming n ∧ (c.pull n).2.toCursor = c.toCursor.skip n := by
  induction n generalizing c with
  | zero => exact ⟨rfl, rfl⟩
  | succ n ih =>
      obtain ⟨htoken, hcursor⟩ := c.next_eq
      obtain ⟨htokens, hrest⟩ := ih c.next.2
      rw [hcursor] at htokens hrest
      exact ⟨congr (congrArg List.cons htoken) htokens, hrest⟩

/-- Up to the end it is the same as for the tokens that are still to be read. -/
theorem drain_eq (c : LineCursor) : c.drain = c.toCursor.tokens := by
  fun_induction drain c with
  | case1 c ih =>
      obtain ⟨htoken, hcursor⟩ := c.next_eq
      rw [hcursor] at ih
      rw [c.toCursor.tokens_eq_cons, ← htoken]
      by_cases hend : c.next.1.isEndOfInput = true
      · rw [if_pos hend, if_pos hend]
      · rw [if_neg hend, if_neg hend, ih hend]

/-- Reading line by line, the calls return the tokens of the source by their numbers, the end of the
source again and again; the current token is the one returned last, and the unread token before the
first call.  They are the tokens that are read from the source in one pass.  Up to the end there is
one for each significant character, and one for the end. -/
theorem pull_ofString (source : String) :
    (∀ n, ((ofString source).pull n).1.length = n) ∧
    (∀ n k t, ((ofString source).pull n).1[k]? = some t ↔ k < n ∧ TokenAt source.toList k t) ∧
    (∀ n, ((ofString source).pull n).2.current = ((ofString source).pull n).1.getLastD .unread) ∧
    (∀ n, ((ofString source).pull n).1 = (Cursor.ofString source).upcoming n ∧
      ((ofString source).pull n).2.current = ((Cursor.ofString source).skip n).current) ∧
    (ofString source).drain = tokens source ∧
    ∀ k t, (tokens source)[k]? = some t ↔
      k ≤ (significant source.toList).length ∧ TokenAt source.toList k t := by
  have hpull : ∀ n, ((ofString source).pull n).1 = (Cursor.ofString source).upcoming n ∧
      ((ofString source).pull n).2.current = ((Cursor.ofString source).skip n).current := by
    intro n
    obtain ⟨htokens, hcursor⟩ := (ofString source).pull_eq n
    rw [toCursor_ofString] at htokens hcursor
    exact ⟨htokens, congrArg Cursor.current hcursor⟩
  have hupcoming : ∀ n k t, ((Cursor.ofString source).upcoming n)[k]? = some t ↔
      k < n ∧ TokenAt source.toList k t := by
    intro n k t
    rw [Cursor.getElem?_upcoming, Cursor.tokenAt_iff]
    by_cases hk : k < n
    · rw [if_pos hk, Option.some_inj, eq_comm, and_iff_right hk]
    · rw [if_neg hk]
      exact iff_of_false nofun fun h => hk h.1
  refine ⟨?_, ?_, ?_, hpull, ?_, ?_⟩
  · intro n
    rw [(hpull n).1, Cursor.length_upcoming]
  · intro n k t
    rw [(hpull n).1, hupcoming]
  · intro n
    rw [(hpull n).1, (hpull n).2, Cursor.current_skip]
    rfl
  · rw [drain_eq, toCursor_ofString]
    rfl
  · intro k t
    rw [tokens, Cursor.tokens_eq_upcoming, hupcoming, Nat.lt_succ_iff, ← length_place 0]
    rfl

/-- A row of layout alone counts as a line. -/
example : (ofString "1 \n\r\n\t +").drain =
    [⟨.digit 1, 0⟩, ⟨.symbol '+', 2⟩, ⟨.endOfInput, 2⟩] := by cbv

end LineCursor

end GroupedArith
