/-
# `GroupedArith.Token` — the units a source is read in

Every character of a source that is not layout is a token of its own, and one
more token stands for the end of the source:

    kind         character     class
    unread       NUL           INVALID    before anything was read
    endOfInput   #             EOF
    digit d      0, 1, … 9     DIGIT      the ASCII digits only
    symbol c     c             CHAR       every other character

A `#` that is written in the source is the symbol `#`: it shares its character
with the end of the source, but not its kind.
-/

namespace GroupedArith

/-- What a token is. -/
inductive Token.Kind where
  | unread
  | endOfInput
  | digit (d : Fin 10)
  /-- Any other character: parentheses, operators, and what belongs nowhere. -/
  | symbol (c : Char)
  deriving DecidableEq, Repr

/-- A token and the number of line breaks before it. -/
structure Token where
  kind : Token.Kind
  line : Nat
  deriving DecidableEq, Repr

namespace Token

/-- The value of an ASCII digit. -/
def digit? (c : Char) : Option (Fin 10) :=
  if h : c.isDigit then
    some ⟨c.toNat - '0'.toNat, by
      have hc : c.toNat ≤ 57 := by
        simp only [Char.isDigit, Bool.and_eq_true, decide_eq_true_eq] at h
        exact UInt32.le_iff_toNat_le.1 h.2
      have h0 : '0'.toNat = 48 := rfl
      omega⟩
  else none

/-- The kind of a character that is not layout. -/
def Kind.ofChar (c : Char) : Kind :=
  match digit? c with
  | some d => .digit d
  | none => .symbol c

/-- The character that a token shows. -/
def Kind.char : Kind → Char
  | .unread => '\x00'
  | .endOfInput => '#'
  | .digit d => Nat.digitChar d
  | .symbol c => c

def Kind.label : Kind → String
  | .unread => "INVALID"
  | .endOfInput => "EOF"
  | .digit _ => "DIGIT"
  | .symbol _ => "CHAR"

def char (t : Token) : Char := t.kind.char

def unread : Token := ⟨.unread, 0⟩

/-- The end of a source whose last line is `line`. -/
def endOfInput (line : Nat) : Token := ⟨.endOfInput, line⟩

def isEndOfInput (t : Token) : Bool := t.kind = .endOfInput

def text (t : Token) : String := t.kind.label ++ " - " ++ t.char.toString

end Token

end GroupedArith
