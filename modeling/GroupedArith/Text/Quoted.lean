/-
# `GroupedArith.Text.Quoted` — text between quotes

Between quotes a character stands for itself unless that would be hard to read
or would end the quotation:

    NUL, tab, carriage return, line break     \0  \t  \r  \n
    the backslash, and the quote in use       a backslash before it
    what shows nothing of its own             \u and its code point in braces, in
                                              lower-case hexadecimal

Single quotes enclose a character, double quotes a text.
-/
import GroupedArith.Text.Unprintable

namespace GroupedArith

/-- A character as it is written between the given quotes. -/
def escaped (quote c : Char) : String :=
  if c = '\x00' then "\\0"
  else if c = '\t' then "\\t"
  else if c = '\r' then "\\r"
  else if c = '\n' then "\\n"
  else if c = '\\' || c = quote then "\\" ++ c.toString
  else if isUnprintable c then
    "\\u\x7b" ++ String.ofList (Nat.toDigits 16 c.toNat) ++ "\x7d"
  else c.toString

/-- A character in single quotes. -/
def quotedChar (c : Char) : String := "'" ++ escaped '\'' c ++ "'"

/-- A text in double quotes. -/
def quotedText (s : String) : String :=
  "\"" ++ String.join (s.toList.map (escaped '"')) ++ "\""

end GroupedArith
