/-
# `GroupedArith.Source` — a place in a source, and the tokens from there on

A source is read through a `Cursor`: the token read last, and the characters
still to come, each with its line.  Layout (blank, tab, carriage return, line
break) is left out from the start; all that it leaves behind is the line of
what follows it.

    (Cursor.ofString s).rest     the characters of `s` that are not layout
    p.line                       the number of line breaks before `p`
    c.advance                    the cursor one token further
    c.tokens                     what is still to be read, up to the end

The end of the source is a token on the last line.  It is read as often as one
asks for it, and reading it moves nothing.
-/
import GroupedArith.Token

namespace GroupedArith

/-- Blanks, tabs, carriage returns and line breaks separate nothing and mean nothing. -/
def isLayout (c : Char) : Bool := c == ' ' || c == '\t' || c == '\r' || c == '\n'

/-- A character of a source and the number of line breaks before it. -/
structure Placed where
  char : Char
  line : Nat
  deriving DecidableEq, Repr

/-- The token that a character makes. -/
def Placed.token (p : Placed) : Token := ⟨.ofChar p.char, p.line⟩

/-- The characters that are not layout, each with its line; the first stands on `line`. -/
def place (line : Nat) : List Char → List Placed
  | [] => []
  | c :: cs =>
    if c = '\n' then place (line + 1) cs
    else if isLayout c then place line cs
    else ⟨c, line⟩ :: place line cs

/-- A place in a source. -/
structure Cursor where
  /-- The token read last. -/
  current : Token
  rest : List Placed
  endLine : Nat
  deriving DecidableEq, Repr

namespace Cursor

/-- The beginning of a source. -/
def ofString (source : String) : Cursor where
  current := .unread
  rest := place 0 source.toList
  endLine := source.toList.count '\n'

/-- Reads one token, which becomes the current one. -/
def advance (c : Cursor) : Cursor :=
  match c.rest with
  | [] => { c with current := .endOfInput c.endLine }
  | p :: ps => { c with current := p.token, rest := ps }

/-- The tokens still to be read, the end of the source included. -/
def tokens (c : Cursor) : List Token :=
  c.rest.map Placed.token ++ [.endOfInput c.endLine]

end Cursor

/-- The tokens of a source, the end included. -/
def tokens (source : String) : List Token := (Cursor.ofString source).tokens

end GroupedArith
