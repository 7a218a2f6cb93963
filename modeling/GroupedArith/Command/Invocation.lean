/-
# `GroupedArith.Command.Invocation` — what a command line asks for

    run [FILE] [-e|--expr TEXT] [-b|--backend NAME]… [--show-tree] [--execute]
    parse [FILE] [-e|--expr TEXT]
    backends
    -V, --version

The source is the text behind `--expr`, or the file, but not both; without
either it is the demonstration program.  The version is asked for before any
command, and then nothing else on the command line matters.

Help is left out: `-h`, `--help` and `help` are not known here, and a command line
that asks for help in one of these ways is refused as a misuse.  What is proved of
command lines is not meant for those.
-/
import GroupedArith.Command.Options

namespace GroupedArith

/-- Where a source comes from. -/
inductive SourceChoice where
  | inline (text : String)
  | file (path : String)
  | demo
  deriving DecidableEq, Repr

def SourceChoice.path? : SourceChoice → Option String
  | file path => some path
  | _ => none

/-- What is to be done with a source that is run. -/
structure RunOptions where
  source : SourceChoice
  /-- The names of the engines that report, in order; all of them if there are none. -/
  engines : List String := []
  showTree : Bool := false
  execute : Bool := false
  deriving DecidableEq, Repr

/-- What the program is to do. -/
inductive Invocation where
  | run (options : RunOptions)
  | parse (source : SourceChoice)
  | engines
  | version
  deriving DecidableEq, Repr

/-- The option for a source on the command line. -/
def exprOption : OptionRule := { long := "expr", short? := some 'e', hasValue := true }

def runOptions : List OptionRule :=
  [exprOption, { long := "backend", short? := some 'b', hasValue := true },
    { long := "show-tree" }, { long := "execute" }]

/-- The source that the items of a command line ask for. -/
def SourceChoice.ofItems (l : List Item) : Except Misuse SourceChoice := do
  match ← Item.value? "expr" l, ← Item.operand? l with
  | some _, some _ => throw .twoSources
  | some text, none => return .inline text
  | none, some path => return .file path
  | none, none => return .demo

namespace Invocation

/-- Whether an argument that stands first asks for the version. -/
def asksVersion (argument : String) : Bool :=
  argument == "--version" || argument.toList.take 2 == ['-', 'V']

/-- What the arguments of the program ask for. -/
def ofArguments : List String → Except Misuse Invocation
  | [] => throw .noCommand
  | "run" :: arguments => do
    let l ← items runOptions arguments
    return .run {
      source := ← SourceChoice.ofItems l
      engines := Item.values "backend" l
      showTree := ← Item.isSet "show-tree" l
      execute := ← Item.isSet "execute" l }
  | "parse" :: arguments => do
    let l ← items [exprOption] arguments
    return .parse (← SourceChoice.ofItems l)
  | "backends" :: arguments => do
    match Item.operands (← items [] arguments) with
    | [] => return .engines
    | text :: _ => throw (.surplus text)
  | argument :: _ =>
    if asksVersion argument then return .version else throw (.unknownCommand argument)

end Invocation

end GroupedArith
