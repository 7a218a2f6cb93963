/-
# `GroupedArith.Failure` — everything that can stop a run

A run reads a source, looks up its engines, reads expressions and, on demand,
executes their code.  Each of these can fail in ways of its own; `Failure` is
their sum.
-/
import GroupedArith.Reading.SyntaxError
import GroupedArith.Code.Execution

namespace GroupedArith

/-- Why a file could not be read as text. -/
inductive FileError where
  | notFound
  | isDirectory
  /-- A part of the path that should be a directory is none. -/
  | notDirectory
  | denied
  | notText
  | other (reason : String)
  deriving DecidableEq, Repr

def FileError.message : FileError → String
  | .notFound => "No such file or directory (os error 2)"
  | .isDirectory => "Is a directory (os error 21)"
  | .notDirectory => "Not a directory (os error 20)"
  | .denied => "Permission denied (os error 13)"
  | .notText => "stream did not contain valid UTF-8"
  | .other reason => reason

/-- Why a run failed. -/
inductive Failure where
  /-- The source is not a sequence of expressions. -/
  | source (e : SyntaxError)
  /-- A program of the stack machine has no result. -/
  | machine (e : Fault)
  | unknownEngine (name : String)
  | file (e : FileError)
  deriving DecidableEq, Repr

def Failure.message : Failure → String
  | .source e => e.message
  | .machine e => e.message
  | .unknownEngine name => "Unknown backend: " ++ name
  | .file e => "IO error: " ++ e.message

/-- The reason behind the failure, where it lies outside the program. -/
def Failure.cause? : Failure → Option String
  | .file e => some e.message
  | _ => none

end GroupedArith
