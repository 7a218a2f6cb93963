/-
# `GroupedArith.Command.Transcript` — what a command writes, and how it ends

A transcript is everything that can be seen of a command: what it writes to the
output, its own lines and those of the log as they come, what it writes about
errors, and its exit status.

    0    done
    1    a failure, which is written out in full
    2    the command line makes no sense

Whether the lines of the log are seen depends on the level that is kept.
-/
import GroupedArith.Command.Options
import GroupedArith.Inspect

namespace GroupedArith

/-- A piece of output. -/
inductive Chunk where
  | text (s : String)
  | event (e : Event)

/-- The piece as it is seen when the log is kept to `limit`. -/
def Chunk.render (limit : Option Level) : Chunk → String
  | .text s => s
  | .event e => if e.isKept limit then e.line else ""

/-- What is seen of a command. -/
structure Transcript where
  output : List Chunk := []
  errors : String := ""
  status : UInt32 := 0

namespace Transcript

/-- The output as it is seen when the log is kept to `limit`. -/
def stdout (limit : Option Level) (t : Transcript) : String :=
  String.join (t.output.map (Chunk.render limit))

/-- Puts output before a transcript. -/
def after (chunks : List Chunk) (t : Transcript) : Transcript :=
  { t with output := chunks ++ t.output }

def written (s : String) : Transcript := { output := [.text s] }

def failed (f : Failure) : Transcript :=
  { errors := "Error: " ++ f.form.compact ++ "\n", status := 1 }

def misused (m : Misuse) : Transcript := { errors := m.message ++ "\n", status := 2 }

end Transcript

end GroupedArith
