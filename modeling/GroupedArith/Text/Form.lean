/-
# `GroupedArith.Text.Form` — values written out in full

A `Form` is the outline of a value: what it is called and what it consists of.
It is written on one line or, one part to a line, in lines:

    Name                       an atom: a number, a name, a quotation
    Name(part, part)           a name with parts in order
    Name { field: part }       a name with named parts
    [part, part]               a list

Written in lines, each part is followed by a comma and stands four blanks
further right than what it belongs to.
-/

namespace GroupedArith

/-- The outline of a value. -/
inductive Form where
  /-- Written as it is. -/
  | atom (text : String)
  | tuple (name : String) (parts : List Form)
  | record (name : String) (fields : List (String × Form))
  | list (parts : List Form)

namespace Form

def ofNat (n : Nat) : Form := .atom (toString n)

mutual

/-- The form on one line. -/
def compact : Form → String
  | atom text => text
  | tuple name parts => name ++ "(" ++ ", ".intercalate (compactParts parts) ++ ")"
  | record name fields =>
    name ++ " \x7b " ++ ", ".intercalate (compactFields fields) ++ " \x7d"
  | list parts => "[" ++ ", ".intercalate (compactParts parts) ++ "]"

def compactParts : List Form → List String
  | [] => []
  | part :: parts => part.compact :: compactParts parts

def compactFields : List (String × Form) → List String
  | [] => []
  | (name, part) :: fields => (name ++ ": " ++ part.compact) :: compactFields fields

end

/-- The blanks before a line at the given depth. -/
def indent (depth : Nat) : String := "".pushn ' ' (4 * depth)

mutual

/-- The form in lines.  The first line is not indented, the last one has no line break. -/
def indented (depth : Nat) : Form → String
  | atom text => text
  | tuple name parts => name ++ "(\n" ++ indentedParts depth parts ++ indent depth ++ ")"
  | record name fields =>
    name ++ " \x7b\n" ++ indentedFields depth fields ++ indent depth ++ "\x7d"
  | list [] => "[]"
  | list (part :: parts) =>
    "[\n" ++ indent (depth + 1) ++ part.indented (depth + 1) ++ ",\n" ++
      indentedParts depth parts ++ indent depth ++ "]"

/-- The parts of a form at the given depth, each with its comma. -/
def indentedParts (depth : Nat) : List Form → String
  | [] => ""
  | part :: parts =>
    indent (depth + 1) ++ part.indented (depth + 1) ++ ",\n" ++ indentedParts depth parts

/-- The named parts of a form at the given depth, each with its comma. -/
def indentedFields (depth : Nat) : List (String × Form) → String
  | [] => ""
  | (name, part) :: fields =>
    indent (depth + 1) ++ name ++ ": " ++ part.indented (depth + 1) ++ ",\n" ++
      indentedFields depth fields

end

/-- The form in lines, beginning at the left. -/
def block (f : Form) : String := f.indented 0

end Form

end GroupedArith
