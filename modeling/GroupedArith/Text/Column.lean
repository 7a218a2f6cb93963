/-
# `GroupedArith.Text.Column` — text in columns of a listing

A text that is shorter than its column is filled up with blanks, on the right
or on the left.  A longer one stays as it is and pushes the rest aside.
-/

namespace GroupedArith

/-- The text at the left of a column of the given width. -/
def leftAligned (width : Nat) (s : String) : String := .ofList (s.toList.rightpad width ' ')

/-- The text at the right of a column of the given width. -/
def rightAligned (width : Nat) (s : String) : String := .ofList (s.toList.leftpad width ' ')

end GroupedArith
