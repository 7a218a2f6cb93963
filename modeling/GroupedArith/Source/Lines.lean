/-
# `GroupedArith.Source.Lines` — a source read line by line

The blanks are taken out of a source and the rest is cut into lines.  A
`LineCursor` stands in front of a column of one of them, and reads on from
there:

    in the row, at layout           one column further
    in the row, at other text       that character is the token
    behind the row                  the next row, from its first column
    behind the last row             the end of the source, which moves nothing

Nothing else is prepared: tabs, carriage returns and empty rows are passed over
when they are met, in the middle of a call.

    c.next       the next token, and the cursor behind it
    c.pull n     the tokens that `n` calls return, and the cursor behind them
    c.drain      the tokens up to the end of the source, the end included
-/
import GroupedArith.Source

namespace GroupedArith

/-- Layout as it is found in a line, where there are no blanks. -/
def isLineLayout (c : Char) : Bool := c == '\t' || c == '\n' || c == '\r'

/-- A place in the lines of a source. -/
structure LineCursor where
  lines : List (List Char)
  row : Nat := 0
  column : Nat := 0
  /-- The token returned last. -/
  current : Token := .unread
  deriving DecidableEq, Repr

namespace LineCursor

/-- The beginning of a source. -/
def ofString (source : String) : LineCursor where
  lines := (source.toList.filter (· ≠ ' ')).splitOn '\n'

/-- Returns a token, which becomes the current one. -/
def returning (c : LineCursor) (t : Token) : Token × LineCursor := (t, { c with current := t })

/-- Reads one token. -/
def next (c : LineCursor) : Token × LineCursor :=
  match _ : c.lines[c.row]? with
  | none => c.returning (.endOfInput (c.lines.length - 1))
  | some chars =>
    match _ : chars[c.column]? with
    | none => { c with row := c.row + 1, column := 0 }.next
    | some char =>
      let c' := { c with column := c.column + 1 }
      if isLineLayout char then c'.next else c'.returning ⟨.ofChar char, c.row⟩
termination_by (c.lines.length - c.row, (c.lines[c.row]?.getD []).length - c.column)
decreasing_by
  · obtain ⟨hrow, -⟩ := List.getElem?_eq_some_iff.mp ‹c.lines[c.row]? = some chars›
    exact .left _ _ (Nat.sub_succ_lt_self _ _ hrow)
  · obtain ⟨hcolumn, -⟩ := List.getElem?_eq_some_iff.mp ‹chars[c.column]? = some char›
    refine .right _ ?_
    simp only [‹c.lines[c.row]? = some chars›, Option.getD_some]
    omega

/-- Reads so many tokens. -/
def pull (c : LineCursor) : Nat → List Token × LineCursor
  | 0 => ([], c)
  | n + 1 =>
    let (ts, c') := c.next.2.pull n
    (c.next.1 :: ts, c')

/-! ## What is left to be read -/

/-- The characters of a line that are not layout, each with its line. -/
def placeLine (n : Nat) (line : List Char) : List Placed :=
  (line.filter (! isLineLayout ·)).map (⟨·, n⟩)

/-- The same for lines one below the other, the first of which has number `n`. -/
def placeLines (n : Nat) : List (List Char) → List Placed
  | [] => []
  | line :: below => placeLine n line ++ placeLines (n + 1) below

/-- The characters still to come: those of the row from the column on, and those of the rows
below. -/
def remaining (c : LineCursor) : List Placed :=
  placeLine c.row ((c.lines[c.row]?.getD []).drop c.column) ++
    placeLines (c.row + 1) (c.lines.drop (c.row + 1))

/-- The same place, with the layout left out in advance. -/
def toCursor (c : LineCursor) : Cursor where
  current := c.current
  rest := c.remaining
  endLine := c.lines.length - 1

theorem placeLine_cons (n : Nat) (c : Char) (line : List Char) :
    placeLine n (c :: line) = placeLine n [c] ++ placeLine n line := by
  rw [placeLine, placeLine, placeLine, ← List.map_append, ← List.filter_append]
  rfl

theorem placeLine_layout (n : Nat) {c : Char} (h : isLineLayout c = true) : placeLine n [c] = [] := by
  rw [placeLine, List.filter_cons_of_neg (by simp [h])]
  rfl

theorem placeLine_significant (n : Nat) {c : Char} (h : ¬ isLineLayout c = true) :
    placeLine n [c] = [⟨c, n⟩] := by
  rw [placeLine, List.filter_cons_of_pos (by simpa using h)]
  rfl

theorem placeLines_drop (n k : Nat) (lines : List (List Char)) :
    placeLines n (lines.drop k) =
      placeLine n (lines[k]?.getD []) ++ placeLines (n + 1) (lines.drop (k + 1)) := by
  cases hline : lines[k]? with
  | none =>
      have hk := List.getElem?_eq_none_iff.mp hline
      rw [List.drop_of_length_le hk, List.drop_of_length_le (Nat.le_succ_of_le hk)]
      rfl
  | some line =>
      obtain ⟨hk, rfl⟩ := List.getElem?_eq_some_iff.mp hline
      rw [List.drop_eq_getElem_cons hk]
      rfl

section Row
variable {c : LineCursor} {chars : List Char}

theorem remaining_of_end (h : c.lines[c.row]? = none) : c.remaining = [] := by
  have hrow := List.getElem?_eq_none_iff.mp h
  rw [remaining, h, Option.getD_none, List.drop_nil, List.drop_of_length_le (Nat.le_succ_of_le hrow)]
  rfl

theorem remaining_of_row_end (h : c.lines[c.row]? = some chars)
    (hend : chars[c.column]? = none) :
    { c with row := c.row + 1, column := 0 }.remaining = c.remaining := by
  have hcolumn := List.getElem?_eq_none_iff.mp hend
  rw [remaining, remaining, h, Option.getD_some, List.drop_of_length_le hcolumn, List.drop_zero,
    ← placeLines_drop]
  rfl

theorem remaining_of_char {char : Char} (h : c.lines[c.row]? = some chars)
    (hchar : chars[c.column]? = some char) :
    c.remaining =
      placeLine c.row [char] ++ { c with column := c.column + 1 }.remaining := by
  obtain ⟨hcolumn, rfl⟩ := List.getElem?_eq_some_iff.mp hchar
  rw [remaining, remaining, h, Option.getD_some, List.drop_eq_getElem_cons hcolumn, placeLine_cons,
    List.append_assoc]

end Row

/-- One call reads one token, however many columns and rows it passes over. -/
theorem next_eq (c : LineCursor) :
    c.next.1 = c.toCursor.advance.current ∧ c.next.2.toCursor = c.toCursor.advance := by
  fun_induction next c with
  | case1 c hrow =>
      rw [Cursor.advance, toCursor, remaining_of_end hrow]
      exact ⟨rfl, congrArg (Cursor.mk _ · _) (remaining_of_end hrow)⟩
  | case2 c chars hrow hcolumn ih =>
      rw [toCursor, remaining_of_row_end hrow hcolumn] at ih
      exact ih
  | case3 c chars hrow char hcolumn c' hlayout ih =>
      rw [toCursor, remaining_of_char hrow hcolumn, placeLine_layout _ hlayout]
      exact ih
  | case4 c chars hrow char hcolumn c' hlayout =>
      rw [Cursor.advance, toCursor, remaining_of_char hrow hcolumn, placeLine_significant _ hlayout]
      exact ⟨rfl, rfl⟩

theorem length_remaining_next_lt {c : LineCursor} (h : ¬ c.next.1.isEndOfInput = true) :
    c.next.2.remaining.length < c.remaining.length := by
  obtain ⟨htoken, hcursor⟩ := c.next_eq
  have hrest : c.next.2.remaining = c.toCursor.advance.rest := congrArg Cursor.rest hcursor
  rw [hrest]
  rw [htoken] at h
  rw [Cursor.advance, toCursor] at h ⊢
  cases hremaining : c.remaining with
  | nil =>
      rw [hremaining] at h
      exact absurd rfl h
  | cons p ps => exact Nat.lt_succ_self _

/-- The tokens up to the end of the source, the end included. -/
def drain (c : LineCursor) : List Token :=
  c.next.1 :: if c.next.1.isEndOfInput then [] else c.next.2.drain
termination_by c.remaining.length
decreasing_by exact length_remaining_next_lt ‹_›

end LineCursor

end GroupedArith
