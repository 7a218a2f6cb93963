/-
# `GroupedArith.Main` — the program

The command line is read and performed as `perform` says.  What is left to do
here is to read a file, to look up the level of the log in the environment, and
to write what the transcript holds.
-/
import GroupedArith.Command.Perform

namespace GroupedArith

/-- The reason why the system did not give the content of a file. -/
def FileError.ofSystem : IO.Error → FileError
  | .noFileOrDirectory _ _ _ => .notFound
  | .inappropriateType none _ _ => .isDirectory
  | .inappropriateType (some _) _ _ => .notDirectory
  | .permissionDenied _ _ _ => .denied
  | e => .other e.toString

/-- The content of a file as text. -/
def readText (path : String) : IO (Except FileError String) := do
  match ← (IO.FS.readBinFile path).toBaseIO with
  | .error e => return .error (.ofSystem e)
  | .ok bytes =>
    match String.fromUTF8? bytes with
    | some text => return .ok text
    | none => return .error .notText

def Invocation.path? : Invocation → Option String
  | run options => options.source.path?
  | parse source => source.path?
  | engines => none
  | version => none

end GroupedArith

open GroupedArith in
/-- Performs the command line and exits with the status that it ends in. -/
def main (arguments : List String) : IO UInt32 := do
  let path? := (Invocation.ofArguments arguments).toOption.bind Invocation.path?
  let content ← match path? with
    | some path => readText path
    | none => pure (.error .notFound)
  let transcript := perform (fun _ => content) arguments
  IO.print (transcript.stdout (Level.ofSetting (← IO.getEnv "RUST_LOG")))
  IO.eprint transcript.errors
  return transcript.status
