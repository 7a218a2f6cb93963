/-
# `GroupedArith.Command.Perform` — the commands

`Invocation.perform` says what each command writes.  Files come in through a
function from paths to contents, and what goes out is a `Transcript`.

Running a source goes expression by expression: its log, its tree if that is
asked for, its records, and if it is to be executed, its code once more and the
value that the machine prints for it, which is checked against the value of the
tree.  The first error ends the run; what was written before it stays.

Parsing a source shows all of its tokens, and its trees if there is no error.
-/
import GroupedArith.Command.Invocation
import GroupedArith.Command.Transcript

namespace GroupedArith

/-- Access to files: the content of the file at a path. -/
abbrev FileReader := String → Except FileError String

/-- The source that is used when none is given. -/
def demoSource : String :=
  "(((9 + (5 * 5)) * 5) + 5)\n    (5 * (9 + 2))\n    (5 * (5 + 5))\n"

/-- The log of a choice of source, and the source. -/
def SourceChoice.load (files : FileReader) : SourceChoice → List Chunk × Except FileError String
  | inline text => ([], .ok text)
  | file path => ([.event (.opening path)], files path)
  | demo => ([], .ok demoSource)

/-- Goes on with a source, if it can be read. -/
def SourceChoice.withSource (files : FileReader) (source : SourceChoice)
    (go : String → Transcript) : Transcript :=
  let (log, content) := source.load files
  .after log <| match content with
    | .ok text => go text
    | .error e => .failed (.file e)

/-! ## Running a source -/

def treeSection (e : Expr) : String :=
  "=== TREE ===\n" ++ e.render ++ " (depth " ++ toString e.depth ++ ")\n" ++ e.form.block ++ "\n"

/-- The output for the values that the machine printed, with a warning behind each one that is not
as expected.  No code that was written for an expression leads to a warning. -/
def printedChunks (expected : Int64) (as : List Answer) : List Chunk :=
  as.flatMap fun a =>
    .text (a.text ++ " (stack machine)\n") ::
      if a.value = expected then [] else [.event (.unexpected a.value expected)]

/-- The output on one report, up to its records. -/
def reportChunks (showTree : Bool) (r : Report) : List Chunk :=
  (if showTree then [.text (treeSection r.expr)] else []) ++ [.text (recordLines r.records)]

/-- The output of a run, reply by reply; the coder and the machine are there for the code that is
executed. -/
def runReplies (showTree execute : Bool) : Coder → Machine → List Reply → Transcript
  | _, _, [] => {}
  | c, m, reply :: replies =>
    .after (reply.events.map .event) <| match reply.answer with
      | .error e => .failed (.source e)
      | .ok none => .written "\n\tEnd\n"
      | .ok (some report) =>
        .after (reportChunks showTree report) <|
          if execute then
            let (code, c') := c.generate report.expr
            let x := m.execute code
            .after ((c.events report.expr ++ x.events).map .event) <| match x.outcome with
              | .error fault => .failed (.machine fault)
              | .ok printed =>
                .after (printedChunks report.expr.value printed)
                  (runReplies showTree execute c' x.machine replies)
          else runReplies showTree execute c m replies

/-- The output of a run over a source with the given engines. -/
def runSource (showTree execute : Bool) (engines : List Engine) (source : String) : Transcript :=
  .after [.text ("\tProgram: " ++ source ++ "\n\n")]
    (runReplies showTree execute {} {} (Session.ofString source engines).replies)

/-- The engines that are meant by a list of names: all if there are no names. -/
def RunOptions.selected (o : RunOptions) : Except Failure (List Engine) :=
  if o.engines.isEmpty then .ok Engine.all else Engine.ofNames o.engines

def RunOptions.perform (files : FileReader) (o : RunOptions) : Transcript :=
  o.source.withSource files fun source =>
    match o.selected with
    | .error f => .failed f
    | .ok engines => runSource o.showTree o.execute engines source

/-! ## Showing a source -/

def tokenLine (t : Token) : String := rightAligned 4 (toString t.line) ++ ": " ++ t.text ++ "\n"

def parseSource (source : String) : Transcript :=
  let tokens := tokens source
  let readings := (Cursor.ofString source).readings
  .after
    ([.text ("=== SOURCE ===\n" ++ source ++ "\n=== TOKENS ===\n")] ++
      tokens.map (fun t => .event (.token t)) ++
      [.text (String.join (tokens.map tokenLine) ++ "=== TREES ===\n")] ++
      (readings.flatMap Step.events).map .event)
    (match parse source with
      | .ok es => .written (String.join (es.map fun e => e.form.block ++ "\n"))
      | .error e => { errors := "Error: " ++ e.message ++ "\n" })

/-! ## All commands -/

def engineListing : String :=
  "Available backends:\n" ++
    String.join (Engine.all.map fun e =>
      "  " ++ leftAligned 8 e.name ++ " - " ++ e.description ++ "\n")

def versionLine : String := "paren-calc 0.1.0\n"

/-- What an invocation writes, and how it ends. -/
def Invocation.perform (files : FileReader) : Invocation → Transcript
  | run options => options.perform files
  | parse source => source.withSource files parseSource
  | engines => .written engineListing
  | version => .written versionLine

/-- What the program writes for its arguments, and how it ends. -/
def perform (files : FileReader) (arguments : List String) : Transcript :=
  match Invocation.ofArguments arguments with
  | .ok invocation => invocation.perform files
  | .error misuse => .misused misuse

end GroupedArith
