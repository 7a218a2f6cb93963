/-
# `GroupedArith.Proofs.Position` — a reader is a place in its source

A source can be read in four ways, in any order and as often as one likes:

    token        the next token, whatever it is
    expr         the next top-level expression
    operand      the expression that opens at the cursor
    operator     the operator at the cursor

Each of them is a `Move`.  It may fail at any depth of an expression that it has begun,
and the next move goes on from there.

## What is proved

Let any moves have been made over a source `s`, and let `k` of the tokens that they
read be characters (`charsRead`).  Then what comes next is known from the place in `s`
behind its significant character number `k` alone (`Cursor.moves_after`):

    any further moves give the same steps as over the rest of `s` from there,
      with the line breaks that are left out added to every line
    a step reads one token at least, and the end of the source once at most
    an `expr` that finds an expression or an error has used up a character,
      so there are no more of them than characters in `s`
    an `expr` that finds the end is followed by no `expr` that finds anything else

## How

A step does nothing but read some tokens (`Cursor.Reads`): whatever it makes of them,
the cursor is so many tokens further (`Cursor.skip`), and they are the ones that were
to come (`Cursor.upcoming`).  So are many steps (`Cursor.exists_tokens_moves`).  The
characters among the tokens say how much of the source is used up
(`Cursor.rest_skip_chars`), and a step sees the rest of the source but not the token
that was read last (`Cursor.moves_congr`).  That the lines are carried along is shown
as for a whole source, one token at a time (`Awaiting.readFrom_mapLines`).
-/
import GroupedArith.Proofs.Layout
import GroupedArith.Proofs.Relining

namespace GroupedArith

/-! ## Moves -/

/-- A way to read on. -/
inductive Move where
  /-- The next token. -/
  | token
  /-- The next top-level expression. -/
  | expr
  /-- The expression that opens at the cursor. -/
  | operand
  | operator
  deriving DecidableEq, Repr

/-- What a move finds. -/
inductive Finding where
  | token (t : Token)
  | expr (answer : Except SyntaxError (Option Expr))
  | operand (answer : Except SyntaxError (Option Expr))
  | operator (o? : Option Op)

/-- Whether a top-level expression was looked for, and something else was found than the end of the
source. -/
def Finding.isNews : Finding → Bool
  | expr (.ok none) => false
  | expr _ => true
  | _ => false

/-- The step with its answer as a finding. -/
def Step.finding {α : Type} (found : α → Finding) (s : Step α) : Step Finding :=
  ⟨found s.answer, s.tokens, s.cursor⟩

namespace Cursor

def move (c : Cursor) : Move → Step Finding
  | .token => .single c (.token c.advance.current)
  | .expr => c.readExpr.finding .expr
  | .operand => c.readOperand.finding .operand
  | .operator => c.readOperator.finding .operator

/-- The steps of moves one after the other. -/
def moves (c : Cursor) : List Move → List (Step Finding)
  | [] => []
  | m :: ms => c.move m :: (c.move m).cursor.moves ms

/-- The cursor after moves. -/
def after (c : Cursor) (ms : List Move) : Cursor := ms.foldl (fun c m => (c.move m).cursor) c

end Cursor

/-- How many of the tokens that are read in moves over a source are characters. -/
def charsRead (source : String) (ms : List Move) : Nat :=
  (((Cursor.ofString source).moves ms).flatMap Step.tokens).countP (! ·.isEndOfInput)

/-! ## So many tokens

What comes next depends on the rest of the source only, and the end of the source can be read
again and again, so that both are defined for any number of tokens. -/

namespace Cursor

/-- The cursor so many tokens further. -/
def skip (c : Cursor) : Nat → Cursor
  | 0 => c
  | n + 1 => c.advance.skip n

/-- The tokens that come next, as many as one likes. -/
def upcoming (c : Cursor) : Nat → List Token
  | 0 => []
  | n + 1 => c.advance.current :: c.advance.upcoming n

theorem rest_advance (c : Cursor) : c.advance.rest = c.rest.tail := by
  obtain ⟨t, ps, n⟩ := c
  cases ps with
  | nil => rfl
  | cons p ps => rfl

theorem endLine_advance (c : Cursor) : c.advance.endLine = c.endLine := by
  obtain ⟨t, ps, n⟩ := c
  cases ps with
  | nil => rfl
  | cons p ps => rfl

/-- The token read last is forgotten with the next one. -/
theorem advance_current (c : Cursor) (t : Token) :
    ({ c with current := t } : Cursor).advance = c.advance := by
  obtain ⟨u, ps, n⟩ := c
  cases ps with
  | nil => rfl
  | cons p ps => rfl

theorem rest_skip (c : Cursor) (n : Nat) : (c.skip n).rest = c.rest.drop n := by
  induction n generalizing c with
  | zero => rfl
  | succ n ih => rw [skip, ih, rest_advance, List.drop_tail]

theorem endLine_skip (c : Cursor) (n : Nat) : (c.skip n).endLine = c.endLine := by
  induction n generalizing c with
  | zero => rfl
  | succ n ih => rw [skip, ih, endLine_advance]

theorem skip_add (c : Cursor) (m n : Nat) : c.skip (m + n) = (c.skip m).skip n := by
  induction m generalizing c with
  | zero => rw [Nat.zero_add]; rfl
  | succ m ih => rw [Nat.succ_add, skip, ih, skip]

theorem upcoming_add (c : Cursor) (m n : Nat) :
    c.upcoming (m + n) = c.upcoming m ++ (c.skip m).upcoming n := by
  induction m generalizing c with
  | zero => rw [Nat.zero_add]; rfl
  | succ m ih => rw [Nat.succ_add, upcoming, ih, upcoming, skip, List.cons_append]

/-- A token is the end of the source if no character is left, and only then. -/
theorem isEndOfInput_current_advance (c : Cursor) :
    c.advance.current.isEndOfInput = c.rest.isEmpty := by
  rw [advance]
  cases c.rest with
  | nil => rfl
  | cons p ps => exact isEndOfInput_token p

theorem countP_upcoming (c : Cursor) (n : Nat) :
    (c.upcoming n).countP (! ·.isEndOfInput) = min n c.rest.length := by
  induction n generalizing c with
  | zero => rw [Nat.zero_min]; rfl
  | succ n ih =>
      rw [upcoming, List.countP_cons, ih, isEndOfInput_current_advance, rest_advance,
        List.length_tail]
      cases c.rest with
      | nil => simp
      | cons p ps => simp [Nat.succ_min_succ]

/-- What is left is known from the characters that were read. -/
theorem rest_skip_chars (c : Cursor) (n : Nat) :
    (c.skip n).rest = c.rest.drop ((c.upcoming n).countP (! ·.isEndOfInput)) := by
  rw [rest_skip, countP_upcoming]
  rcases Nat.le_total n c.rest.length with h | h
  · rw [Nat.min_eq_left h]
  · rw [Nat.min_eq_right h, List.drop_length, List.drop_of_length_le h]

theorem countP_isEndOfInput_upcoming (c : Cursor) (n : Nat) :
    (c.upcoming n).countP Token.isEndOfInput = n - c.rest.length := by
  induction n generalizing c with
  | zero => rw [Nat.zero_sub]; rfl
  | succ n ih =>
      rw [upcoming, List.countP_cons, ih, isEndOfInput_current_advance, rest_advance,
        List.length_tail]
      cases c.rest with
      | nil => simp
      | cons p ps => simp

theorem current_skip_succ (c : Cursor) (n : Nat) :
    (c.skip (n + 1)).current.isEndOfInput = decide (c.rest.length ≤ n) := by
  rw [skip_add, skip, skip, isEndOfInput_current_advance, rest_skip, Bool.eq_iff_iff,
    List.isEmpty_iff, List.drop_eq_nil_iff, decide_eq_true_iff]

/-! ## What a step does to the cursor

A step may find anything, and an error may leave groups open at any depth.  Its cursor does not
show that: it is behind the tokens that were read, and nothing else about it has changed. -/

/-- The step reads the next `n + 1` tokens, the first `n` of which are characters. -/
structure Reads {α : Type} (c : Cursor) (s : Step α) (n : Nat) : Prop where
  tokens : s.tokens = c.upcoming (n + 1)
  cursor : s.cursor = c.skip (n + 1)
  chars : n ≤ c.rest.length

theorem reads_single {α : Type} (c : Cursor) (answer : α) : c.Reads (.single c answer) 0 :=
  ⟨rfl, rfl, Nat.zero_le _⟩

/-- A token that is read before the step. -/
theorem Reads.after {α : Type} {c : Cursor} {p : Placed} {ps : List Placed} {s : Step α} {n : Nat}
    (h : ({ c with rest := ps } : Cursor).Reads s n) :
    ({ c with rest := p :: ps } : Cursor).Reads (s.after p.token) (n + 1) where
  tokens := by
    have hforget := advance_current { c with rest := ps } p.token
    rw [Step.after, h.tokens, upcoming, upcoming, upcoming, ← hforget]
    rfl
  cursor := by
    have hforget := advance_current { c with rest := ps } p.token
    rw [Step.after, h.cursor, skip, skip, skip, ← hforget]
    rfl
  chars := Nat.succ_le_succ h.chars

end Cursor

theorem Awaiting.exists_reads (c : Cursor) (a : Awaiting) (ps : List Placed) :
    ∃ n, ({ c with rest := ps } : Cursor).Reads (a.readFrom c ps) n := by
  induction ps generalizing a with
  | nil => exact ⟨0, Cursor.reads_single _ _⟩
  | cons p ps ih =>
      cases hp : a.accept? p.token with
      | none =>
          rw [readFrom_cons_refused c ps hp]
          exact ⟨0, Cursor.reads_single _ _⟩
      | some progress =>
          cases progress with
          | more b =>
              obtain ⟨n, hn⟩ := ih b
              rw [readFrom_cons_more c ps hp]
              exact ⟨n + 1, hn.after⟩
          | done e =>
              rw [readFrom_cons_done c ps hp]
              exact ⟨0, Cursor.reads_single _ _⟩

namespace Cursor

/-- Whatever a move finds, it reads tokens, the end of the source as the last one at most. -/
theorem exists_reads_move (c : Cursor) (m : Move) : ∃ n, c.Reads (c.move m) n := by
  obtain ⟨n, hn⟩ := Awaiting.exists_reads c (.operand []) c.rest
  cases m with
  | token => exact ⟨0, reads_single c _⟩
  | expr => exact ⟨n, hn.tokens, hn.cursor, hn.chars⟩
  | operand => exact ⟨n, hn.tokens, hn.cursor, hn.chars⟩
  | operator => exact ⟨0, rfl, rfl, Nat.zero_le _⟩

/-- Moves lead as many tokens further as they read. -/
theorem exists_tokens_moves (c : Cursor) (ms : List Move) :
    ∃ n, (c.moves ms).flatMap Step.tokens = c.upcoming n ∧ c.after ms = c.skip n := by
  induction ms generalizing c with
  | nil => exact ⟨0, rfl, rfl⟩
  | cons m ms ih =>
      obtain ⟨k, hk⟩ := c.exists_reads_move m
      obtain ⟨n, htokens, hafter⟩ := ih (c.move m).cursor
      refine ⟨k + 1 + n, ?_, ?_⟩
      · rw [moves, List.flatMap_cons, htokens, hk.tokens, hk.cursor, ← upcoming_add]
      · rw [skip_add, ← hk.cursor, ← hafter]
        rfl

/-- A step does not see the token that was read last. -/
theorem readFrom_current (c : Cursor) (t : Token) (a : Awaiting) (ps : List Placed) :
    a.readFrom { c with current := t } ps = a.readFrom c ps := by
  have hsingle : ∀ (qs : List Placed) (answer : Except SyntaxError (Option Expr)),
      Step.single { c with current := t, rest := qs } answer =
        Step.single { c with rest := qs } answer := by
    intro qs answer
    rw [Step.single, Step.single, advance_current { c with rest := qs } t]
  induction ps generalizing a with
  | nil => exact hsingle [] _
  | cons p ps ih =>
      cases hp : a.accept? p.token with
      | none =>
          rw [Awaiting.readFrom_cons_refused _ ps hp, Awaiting.readFrom_cons_refused _ ps hp]
          exact hsingle _ _
      | some progress =>
          cases progress with
          | more b =>
              rw [Awaiting.readFrom_cons_more _ ps hp, Awaiting.readFrom_cons_more _ ps hp, ih]
          | done e =>
              rw [Awaiting.readFrom_cons_done _ ps hp, Awaiting.readFrom_cons_done _ ps hp]
              exact hsingle _ _

theorem move_current (c : Cursor) (t : Token) (m : Move) :
    ({ c with current := t } : Cursor).move m = c.move m := by
  have hadvance := advance_current c t
  have hread := readFrom_current c t (.operand []) c.rest
  cases m with
  | token => rw [move, move, Step.single, Step.single, hadvance]
  | expr => rw [move, move, readExpr, readExpr, readOperand, hread, readOperand]
  | operand => rw [move, move, readOperand, hread, readOperand]
  | operator => rw [move, move, readOperator, readOperator, Step.single, Step.single, hadvance]

theorem moves_congr {c d : Cursor} (hrest : c.rest = d.rest) (hend : c.endLine = d.endLine)
    (ms : List Move) : c.moves ms = d.moves ms := by
  obtain ⟨t, ps, n⟩ := c
  obtain ⟨u, qs, k⟩ := d
  obtain rfl : ps = qs := hrest
  obtain rfl : n = k := hend
  cases ms with
  | nil => rfl
  | cons m ms => rw [moves, moves, move_current ⟨u, ps, n⟩ t m]

end Cursor

/-! ## Other lines

With other lines in the source, each step is the same step with these lines in its answer, its
tokens and its cursor. -/

def Placed.mapLine (f : Nat → Nat) (p : Placed) : Placed := { p with line := f p.line }

def Cursor.mapLines (f : Nat → Nat) (c : Cursor) : Cursor :=
  ⟨c.current.mapLine f, c.rest.map (Placed.mapLine f), f c.endLine⟩

def Finding.mapLines (f : Nat → Nat) : Finding → Finding
  | token t => token (t.mapLine f)
  | expr answer => expr (mapReading f answer)
  | operand answer => operand (mapReading f answer)
  | operator o? => operator o?

/-- The step with other lines; `g` puts them into its answer. -/
def Step.relined {α : Type} (g : α → α) (f : Nat → Nat) (s : Step α) : Step α :=
  ⟨g s.answer, s.tokens.map (Token.mapLine f), s.cursor.mapLines f⟩

def Step.mapLines (f : Nat → Nat) (s : Step Finding) : Step Finding :=
  s.relined (Finding.mapLines f) f

section Lines
variable (f : Nat → Nat)

theorem Cursor.advance_mapLines (c : Cursor) :
    (c.mapLines f).advance = c.advance.mapLines f := by
  obtain ⟨t, ps, n⟩ := c
  cases ps with
  | nil => rfl
  | cons p ps => rfl

theorem Step.single_mapLines {α : Type} (g : α → α) (c : Cursor) (answer : α) :
    single (c.mapLines f) (g answer) = (single c answer).relined g f := by
  rw [single, Cursor.advance_mapLines]
  rfl

/-- Where the tokens stand makes no difference to what they are read as. -/
theorem Awaiting.readFrom_mapLines (c : Cursor) (a : Awaiting) (ps : List Placed) :
    (a.mapLines f).readFrom (c.mapLines f) (ps.map (Placed.mapLine f)) =
      (a.readFrom c ps).relined (mapReading f) f := by
  induction ps generalizing a with
  | nil =>
      show Step.single (({ c with rest := [] } : Cursor).mapLines f)
        ((a.mapLines f).refuse ((Token.endOfInput c.endLine).mapLine f)) = _
      rw [refuse_mapLines, Step.single_mapLines]
      rfl
  | cons p ps ih =>
      cases hp : a.accept? p.token with
      | none =>
          have hp' := accept?_mapLines_eq_none f hp
          rw [List.map_cons, readFrom_cons_refused _ _ hp', readFrom_cons_refused _ _ hp,
            ← Step.single_mapLines, ← refuse_mapLines]
          rfl
      | some progress =>
          have hp' := accept?_eq_some_iff.mpr ((accept?_eq_some_iff.mp hp).mapLines f)
          cases progress with
          | more b =>
              rw [List.map_cons, readFrom_cons_more _ _ hp', readFrom_cons_more _ _ hp, ih]
              rfl
          | done e =>
              rw [List.map_cons, readFrom_cons_done _ _ hp', readFrom_cons_done _ _ hp,
                ← Step.single_mapLines]
              rfl

namespace Cursor

theorem readOperand_mapLines (c : Cursor) :
    (c.mapLines f).readOperand = c.readOperand.relined (mapReading f) f :=
  Awaiting.readFrom_mapLines f c (.operand []) c.rest

theorem readExpr_mapLines (c : Cursor) :
    (c.mapLines f).readExpr = c.readExpr.relined (mapReading f) f := by
  rw [readExpr, readExpr, readOperand_mapLines]
  have hanswer := Token.unlessEnd_mapLine f c.readOperand.cursor.current c.readOperand.answer
  exact congrArg (Step.mk · _ _) hanswer

theorem move_mapLines (c : Cursor) (m : Move) :
    (c.mapLines f).move m = (c.move m).mapLines f := by
  cases m with
  | token =>
      rw [move, advance_mapLines]
      exact Step.single_mapLines f (Finding.mapLines f) c (.token c.advance.current)
  | expr =>
      rw [move, readExpr_mapLines]
      rfl
  | operand =>
      rw [move, readOperand_mapLines]
      rfl
  | operator =>
      rw [move, move, readOperator, readOperator, advance_mapLines]
      exact congrArg (Step.finding .operator) (Step.single_mapLines f id c _)

theorem moves_mapLines (c : Cursor) (ms : List Move) :
    (c.mapLines f).moves ms = (c.moves ms).map (Step.mapLines f) := by
  induction ms generalizing c with
  | nil => rfl
  | cons m ms ih =>
      have hrest : (Step.mapLines f (c.move m)).cursor = (c.move m).cursor.mapLines f := rfl
      rw [moves, move_mapLines, hrest, ih, moves, List.map_cons]

end Cursor

end Lines

/-! ## The rest of a source -/

/-- The text `before` goes up to the significant character number `k` of the source, and `after` is
what is left. -/
structure CutAt (source : String) (k : Nat) (before after : String) : Prop where
  text : source = before ++ after
  count : (significant before.toList).length = k
  /-- Nothing is before the first character, and nothing behind the one that is counted last. -/
  last : before = "" ∨ ∃ start c, before.toList = start ++ [c] ∧ isLayout c = false

theorem significant_concat {c : Char} (hc : isLayout c = false) (start : List Char) :
    significant (start ++ [c]) = significant start ++ [c] := by
  rw [significant, significant, List.filter_append, List.filter_cons_of_pos (by simp [hc]),
    List.filter_nil]

theorem exists_cutAt {source : String} {k : Nat} (h : k ≤ (significant source.toList).length) :
    ∃ before after, CutAt source k before after := by
  cases k with
  | zero => exact ⟨"", source, String.empty_append.symm, rfl, .inl rfl⟩
  | succ k =>
      rw [← length_place 0] at h
      -- the text is cut right behind the character that is counted last
      have hsplit : place 0 source.toList =
          (place 0 source.toList).take k ++
            (place 0 source.toList)[k] :: (place 0 source.toList).drop (k + 1) := by
        rw [← List.drop_eq_getElem_cons h, List.take_append_drop]
      obtain ⟨start, rest, htext, hc, hstart, -⟩ := exists_of_place_eq_append hsplit
      generalize (place 0 source.toList)[k].char = c at htext hc
      refine ⟨.ofList (start ++ [c]), .ofList rest, ?_, ?_, ?_⟩
      · rw [← String.toList_inj, String.toList_append, String.toList_ofList, String.toList_ofList,
          htext, List.append_assoc]
        rfl
      · have hcount : (significant start).length = k := by
          rw [← length_place 0, hstart, List.length_take]
          omega
        rw [String.toList_ofList, significant_concat hc, List.length_append, hcount]
        rfl
      · exact .inr ⟨start, c, String.toList_ofList, hc⟩

namespace Cursor

theorem charsRead_le (source : String) (ms : List Move) :
    charsRead source ms ≤ (significant source.toList).length := by
  obtain ⟨n, htokens, -⟩ := (ofString source).exists_tokens_moves ms
  rw [charsRead, htokens, countP_upcoming, ← length_place 0]
  exact Nat.min_le_right _ _

/-- After moves over a source, the cursor is at the rest of the source. -/
theorem rest_after (source : String) (ms : List Move) :
    ((ofString source).after ms).rest = (place 0 source.toList).drop (charsRead source ms) ∧
      ((ofString source).after ms).endLine = source.toList.count '\n' := by
  obtain ⟨n, htokens, hafter⟩ := (ofString source).exists_tokens_moves ms
  rw [hafter, endLine_skip, charsRead, htokens]
  exact ⟨rest_skip_chars _ n, rfl⟩

/-- A source from some place on, as it would be alone but further down. -/
theorem rest_mapLines_ofString {before after : String} :
    ((ofString after).mapLines (· + before.toList.count '\n')).rest =
      (place 0 (before ++ after).toList).drop (significant before.toList).length := by
  rw [String.toList_append, place_append, ← length_place 0, List.drop_left, place_add]
  rfl

theorem moves_after_eq {source before after : String} {history : List Move}
    (htext : source = before ++ after)
    (hcount : (significant before.toList).length = charsRead source history) (ms : List Move) :
    ((ofString source).after history).moves ms =
      ((ofString after).moves ms).map (Step.mapLines (· + before.toList.count '\n')) := by
  obtain ⟨hrest, hend⟩ := rest_after source history
  rw [← moves_mapLines]
  apply moves_congr
  · rw [hrest, ← hcount, htext, rest_mapLines_ofString]
  · rw [hend, htext, String.toList_append, List.count_append, Nat.add_comm]
    rfl

end Cursor

/-! ## Progress -/

namespace Cursor

theorem answer_readExpr_of_nil {c : Cursor} (h : c.rest = []) : c.readExpr.answer = .ok none := by
  obtain ⟨t, ps, n⟩ := c
  obtain rfl : ps = [] := h
  rfl

/-- At the end of the source there is no news. -/
theorem answer_move_of_nil {c : Cursor} (h : c.rest = []) (m : Move) :
    (c.move m).answer.isNews = false ∧
      ∀ answer, (c.move m).answer = .expr answer → answer = .ok none := by
  cases m with
  | token => exact ⟨rfl, fun _ heq => nomatch heq⟩
  | expr =>
      have hanswer : (c.move .expr).answer = .expr c.readExpr.answer := rfl
      rw [hanswer, answer_readExpr_of_nil h]
      exact ⟨rfl, fun _ heq => (Finding.expr.inj heq).symm⟩
  | operand => exact ⟨rfl, fun _ heq => nomatch heq⟩
  | operator => exact ⟨rfl, fun _ heq => nomatch heq⟩

/-- A top-level expression is missing without an error only at the end of the source. -/
theorem rest_move_of_none {c : Cursor} {m : Move} (h : (c.move m).answer = .expr (.ok none)) :
    (c.move m).cursor.rest = [] := by
  cases m with
  | expr =>
      obtain ⟨n, hn⟩ := c.exists_reads_move .expr
      have hanswer : c.readExpr.answer = .ok none := Finding.expr.inj h
      have hend : (c.move .expr).cursor.current.isEndOfInput = true := by
        show c.readOperand.cursor.current.isEndOfInput = true
        exact (Token.unlessEnd_eq_ok_none_iff.mp hanswer).2
      rw [hn.cursor, current_skip_succ, decide_eq_true_iff] at hend
      rw [hn.cursor, rest_skip, List.drop_of_length_le (Nat.le_succ_of_le hend)]
  | token => cases h
  | operand => cases h
  | operator => cases h

theorem answer_moves_of_nil {c : Cursor} (h : c.rest = []) {ms : List Move} :
    ∀ step ∈ c.moves ms, ∀ answer, step.answer = .expr answer → answer = .ok none := by
  induction ms generalizing c with
  | nil =>
      intro step hstep
      exact absurd hstep List.not_mem_nil
  | cons m ms ih =>
      obtain ⟨n, hn⟩ := c.exists_reads_move m
      have hrest : (c.move m).cursor.rest = [] := by
        rw [hn.cursor, rest_skip, h, List.drop_nil]
      intro step hstep
      rcases List.mem_cons.mp hstep with rfl | hstep
      · exact (answer_move_of_nil h m).2
      · exact ih hrest step hstep

/-- Once there are no more expressions, there are none later. -/
theorem pairwise_moves (c : Cursor) (ms : List Move) :
    (c.moves ms).Pairwise fun earlier later =>
      earlier.answer = .expr (.ok none) →
        ∀ answer, later.answer = .expr answer → answer = .ok none := by
  induction ms generalizing c with
  | nil => exact .nil
  | cons m ms ih =>
      refine .cons ?_ (ih _)
      intro later hlater hnone
      exact answer_moves_of_nil (rest_move_of_none hnone) later hlater

/-- News takes a character. -/
theorem countP_isNews_le (c : Cursor) (ms : List Move) :
    (c.moves ms).countP (·.answer.isNews) ≤ c.rest.length := by
  induction ms generalizing c with
  | nil => exact Nat.zero_le _
  | cons m ms ih =>
      obtain ⟨n, hn⟩ := c.exists_reads_move m
      have hlater := ih (c.move m).cursor
      have hlength : (c.move m).cursor.rest.length = c.rest.length - (n + 1) := by
        rw [hn.cursor, rest_skip, List.length_drop]
      rw [moves, List.countP_cons]
      -- the move takes a character at least, unless none is left, and then it finds no news
      cases hrest : c.rest with
      | nil =>
          rw [hrest, List.length_nil] at hlength
          rw [if_neg (by rw [(answer_move_of_nil hrest m).1]; exact Bool.false_ne_true)]
          simp only [List.length_nil]
          omega
      | cons p ps =>
          rw [hrest, List.length_cons] at hlength
          have hone : (if (c.move m).answer.isNews = true then 1 else 0) ≤ 1 := by
            split
            · exact Nat.le_refl 1
            · exact Nat.zero_le 1
          simp only [List.length_cons]
          omega

theorem tokens_of_mem_moves {c : Cursor} {ms : List Move} :
    ∀ step ∈ c.moves ms, step.tokens ≠ [] ∧ step.tokens.countP Token.isEndOfInput ≤ 1 := by
  induction ms generalizing c with
  | nil =>
      intro step hstep
      exact absurd hstep List.not_mem_nil
  | cons m ms ih =>
      intro step hstep
      rcases List.mem_cons.mp hstep with rfl | hstep
      · obtain ⟨n, hn⟩ := c.exists_reads_move m
        have hchars := hn.chars
        rw [hn.tokens, countP_isEndOfInput_upcoming]
        exact ⟨List.cons_ne_nil _ _, by omega⟩
      · exact ih step hstep

/-- After any moves over a source, whatever they found, a reader is a place in the source.  Further
moves give the same steps as over what is left of the source alone: the same answers, tokens and
current tokens, on lines that are as many further down as line breaks are left out.  Each step reads
a token, and the end of the source once at most.  There are no more top-level readings that find
something else than the end than there are significant characters; and after one that finds the end,
none finds anything else. -/
theorem moves_after (source : String) (history : List Move) :
    (∃ before after, CutAt source (charsRead source history) before after) ∧
    (∀ before after : String, source = before ++ after →
      (significant before.toList).length = charsRead source history →
      ∀ ms, ((ofString source).after history).moves ms =
        ((ofString after).moves ms).map (Step.mapLines (· + before.toList.count '\n'))) ∧
    (∀ step ∈ (ofString source).moves history,
      step.tokens ≠ [] ∧ step.tokens.countP Token.isEndOfInput ≤ 1) ∧
    ((ofString source).moves history).countP (·.answer.isNews) ≤
      (significant source.toList).length ∧
    ((ofString source).moves history).Pairwise fun earlier later =>
      earlier.answer = .expr (.ok none) →
        ∀ answer, later.answer = .expr answer → answer = .ok none := by
  refine ⟨?_, ?_, ?_, ?_, ?_⟩
  · exact exists_cutAt (charsRead_le source history)
  · intro before after htext hcount ms
    exact moves_after_eq htext hcount ms
  · exact tokens_of_mem_moves
  · rw [← length_place 0]
    exact countP_isNews_le _ history
  · exact pairwise_moves _ history

/-- The error is found in front of the blank, on the second line.  What is read next is the group
behind it, where it stands in the source; and from the end on there is nothing to be found. -/
theorem moves_after_error :
    charsRead "(1\nx (2+3)" [.expr] = 3 ∧
    ((ofString "(1\nx (2+3)").after [.expr]).moves [.expr] =
      ((ofString " (2+3)").moves [.expr]).map (Step.mapLines (· + 1)) ∧
    ((ofString "(1\nx (2+3)").moves [.expr, .expr, .expr]).map Step.answer =
      [.expr (.error (.missingOperator 1)),
        .expr (.ok (some (.group (.digit 2 1) .add (.digit 3 1) 1))), .expr (.ok none)] ∧
    ∀ step ∈ ((ofString "(1\nx (2+3)").after [.expr, .expr, .expr]).moves [.token, .expr],
      ∀ answer, step.answer = .expr answer → answer = .ok none := by
  refine ⟨by decide +kernel, ?_, rfl, ?_⟩
  · exact (moves_after "(1\nx (2+3)" [.expr]).2.1 "(1\nx" " (2+3)" rfl (by decide +kernel) [.expr]
  · have hpairwise :=
      (moves_after "(1\nx (2+3)" [.expr, .expr, .expr, .token, .expr]).2.2.2.2
    rw [moves, List.pairwise_cons, moves, List.pairwise_cons, moves, List.pairwise_cons]
      at hpairwise
    intro step hstep
    exact hpairwise.2.2.1 step hstep rfl

end Cursor

end GroupedArith
