/-
# `GroupedArith.Proofs.Status` — what the exit status tells

    arguments that make no sense        2
    the version, the engines            0
    run     the source is not read      1
            no engine of some name      1
            an error in the source      1
            otherwise                   0
    parse   the source is not read      1
            otherwise                   0

This is the status of every command line (`status_perform`), except for those that ask
for help: help is left out (`GroupedArith.Command.Invocation`), and what stands for it
here, a misuse, says nothing about its status.  An error in the source ends both
commands, and both write about it; but only a run makes a failure of it.

## What is proved

The status should be that of a failure exactly if the source has an error
(`Transcript.TellsError`).  With a source that is read and engines that exist
(`perform_tellsError`),

    a run tells of an error      always
    parsing tells of an error    exactly if there is none

so that after parsing, only what is written about errors shows that there is one.

## How

A run ends as its source does, whatever its engines say and whether or not code is
executed (`runSource_shows`).  Parsing writes the source, its tokens and, if there is no
error, its trees (`parseSource_shows`); nothing in it sets a status.
-/
import GroupedArith.Proofs.Output

namespace GroupedArith

/-! ## Showing a source -/

/-- The trees are written all or not at all. -/
def treesSection : Except SyntaxError (List Expr) → String
  | .ok es => String.join (es.map fun e => e.form.block ++ "\n")
  | .error _ => ""

/-- What is written of a source that is shown. -/
def sourceText (s : String) : String :=
  "=== SOURCE ===\n" ++ s ++ "\n=== TOKENS ===\n" ++
    (String.join ((tokens s).map tokenLine) ++ "=== TREES ===\n" ++ treesSection (parse s))

/-- What is written about an error of a source that is shown. -/
def messageLine : Except SyntaxError (List Expr) → String
  | .ok _ => ""
  | .error e => "Error: " ++ e.message ++ "\n"

theorem Transcript.after_append (t : Transcript) (chunks more : List Chunk) :
    t.after (chunks ++ more) = (t.after more).after chunks := by
  rw [after, List.append_assoc]
  rfl

theorem parseSource_shows (s : String) :
    (parseSource s).Shows none (sourceText s) (messageLine (parse s)) 0 := by
  have htokens : (tokens s).map (fun t => Chunk.event (.token t)) =
      ((tokens s).map Event.token).map .event := by
    rw [List.map_map]
    rfl
  rw [parseSource, htokens, Transcript.after_append, Transcript.after_append,
    Transcript.after_append]
  apply Transcript.Shows.after_text
  apply Transcript.Shows.after_events
  apply Transcript.Shows.after_text
  apply Transcript.Shows.after_events
  cases parse s with
  | ok es => exact Transcript.written_shows _
  | error e => exact ⟨rfl, rfl, rfl⟩

/-- A command line that asks for a source to be shown. -/
def SourceChoice.arguments (source : SourceChoice) : List String :=
  "parse" :: (source.settings.map Item.argument ++ "--" :: source.operands)

theorem SourceChoice.ofArguments_arguments (source : SourceChoice) :
    Invocation.ofArguments source.arguments = .ok (.parse source) := by
  have hfits : ∀ i ∈ source.settings, i.Fits [exprOption] := by
    intro i hi
    cases source with
    | inline text =>
        rw [List.mem_singleton.mp hi]
        exact ⟨by decide, _, rfl, rfl⟩
    | file path => exact absurd hi List.not_mem_nil
    | demo => exact absurd hi List.not_mem_nil
  rw [arguments, Invocation.ofArguments, items_arguments hfits]
  cases source with
  | inline text => rfl
  | file path => rfl
  | demo => rfl

/-! ## Every exit status -/

/-- The exit status of an invocation. -/
def Invocation.status (files : FileReader) : Invocation → UInt32
  | run o =>
    match (o.source.load files).2, o.selected with
    | .ok s, .ok _ => exitStatus (GroupedArith.parse s)
    | _, _ => 1
  | parse source =>
    match (source.load files).2 with
    | .ok _ => 0
    | .error _ => 1
  | engines => 0
  | version => 0

/-- Before a source is read, nothing sets a status. -/
theorem SourceChoice.status_withSource (files : FileReader) (source : SourceChoice)
    (go : String → Transcript) :
    (source.withSource files go).status =
      match (source.load files).2 with
      | .ok s => (go s).status
      | .error _ => 1 := by
  rw [withSource]
  obtain ⟨log, content⟩ := source.load files
  cases content with
  | ok s => rfl
  | error e => rfl

theorem Invocation.status_perform (files : FileReader) (i : Invocation) :
    (i.perform files).status = i.status files := by
  cases i with
  | run o =>
      rw [perform, RunOptions.perform, SourceChoice.status_withSource, status]
      cases (o.source.load files).2 with
      | error e => rfl
      | ok s =>
          cases hselected : o.selected with
          | error f => rfl
          | ok engines => exact (runSource_shows o.showTree o.execute engines s).status
  | parse source =>
      rw [perform, SourceChoice.status_withSource, status]
      cases (source.load files).2 with
      | error e => rfl
      | ok s => exact (parseSource_shows s).status
  | engines => rfl
  | version => rfl

theorem perform_of_ok {files : FileReader} {arguments : List String} {i : Invocation}
    (h : Invocation.ofArguments arguments = .ok i) : perform files arguments = i.perform files := by
  rw [perform, h]

/-- The exit status of every command line that does not ask for help. -/
theorem status_perform (files : FileReader) (arguments : List String) :
    (perform files arguments).status =
      match Invocation.ofArguments arguments with
      | .ok i => i.status files
      | .error _ => 2 := by
  cases harguments : Invocation.ofArguments arguments with
  | ok i =>
      rw [perform_of_ok harguments]
      exact i.status_perform files
  | error misuse =>
      rw [perform, harguments]
      rfl

/-! ## Errors of the source -/

/-- The exit status is that of a failure exactly if the source has an error. -/
def Transcript.TellsError (t : Transcript) (s : String) : Prop :=
  t.status ≠ 0 ↔ ∃ err, parse s = .error err

theorem exitStatus_ne_zero_iff (answer : Except SyntaxError (List Expr)) :
    exitStatus answer ≠ 0 ↔ ∃ err, answer = .error err := by
  cases answer with
  | ok es => simp [exitStatus]
  | error err => simp [exitStatus]

/-- Both commands write about an error, and about nothing else. -/
theorem errors_eq_empty_iff (answer : Except SyntaxError (List Expr)) :
    (errorLine answer = "" ↔ ∃ es, answer = .ok es) ∧
      (messageLine answer = "" ↔ ∃ es, answer = .ok es) := by
  cases answer with
  | ok es => simp [errorLine, messageLine]
  | error err => simp [errorLine, messageLine]

theorem Transcript.tellsError_iff_of_zero {t : Transcript} {s : String} (h : t.status = 0) :
    t.TellsError s ↔ ∃ es, parse s = .ok es := by
  rw [TellsError, h]
  cases parse s with
  | ok es => simp
  | error err => simp

/-- Every choice of options for a run, and of a source to be shown, has a command line.  With a
source that is read and engines that exist, the exit status of a run tells whether the source has an
error.  Showing the source writes its tokens, and its trees or the error, and always ends with 0: the
status tells whether there is an error exactly if there is none.  What is written about errors
tells it in both cases. -/
theorem perform_tellsError (files : FileReader) (s : String) :
    (∀ o : RunOptions, ∃ arguments, Invocation.ofArguments arguments = .ok (.run o)) ∧
    (∀ source : SourceChoice, ∃ arguments,
      Invocation.ofArguments arguments = .ok (.parse source)) ∧
    ∀ arguments : List String,
      (∀ o : RunOptions, Invocation.ofArguments arguments = .ok (.run o) →
        (o.source.load files).2 = .ok s →
        o.engines.find? (· ∉ Engine.all.map Engine.name) = none →
          (perform files arguments).TellsError s ∧
          ((perform files arguments).errors = "" ↔ ∃ es, parse s = .ok es)) ∧
      ∀ source : SourceChoice, Invocation.ofArguments arguments = .ok (.parse source) →
        (source.load files).2 = .ok s →
          (perform files arguments).Shows none (sourceText s) (messageLine (parse s)) 0 ∧
          ((perform files arguments).TellsError s ↔ ∃ es, parse s = .ok es) ∧
          ((perform files arguments).errors = "" ↔ ∃ es, parse s = .ok es) := by
  refine ⟨fun o => ⟨o.arguments, o.ofArguments_arguments⟩,
    fun source => ⟨source.arguments, source.ofArguments_arguments⟩, ?_⟩
  intro arguments
  constructor
  · intro o harguments hs hknown
    obtain ⟨engines, hengines⟩ := Engine.exists_meant hknown
    have hselected := RunOptions.selected_of_meant hengines
    have hshows := SourceChoice.withSource_shows hs
      (runSource_shows o.showTree o.execute engines s)
    rw [perform_of_ok harguments, Invocation.perform, RunOptions.perform]
    simp only [hselected]
    constructor
    · rw [Transcript.TellsError, hshows.status]
      exact exitStatus_ne_zero_iff _
    · rw [hshows.errors]
      exact (errors_eq_empty_iff _).1
  · intro source harguments hs
    have hshows := SourceChoice.withSource_shows hs (parseSource_shows s)
    rw [perform_of_ok harguments, Invocation.perform]
    refine ⟨hshows, Transcript.tellsError_iff_of_zero hshows.status, ?_⟩
    rw [hshows.errors]
    exact (errors_eq_empty_iff _).2

/-- Both commands read the same file and write about the same error. -/
theorem perform_tellsError_file :
    Invocation.ofArguments ["run", "--execute", "a"] =
        .ok (.run { source := .file "a", execute := true }) ∧
      Invocation.ofArguments ["parse", "a"] = .ok (.parse (.file "a")) ∧
      (perform (fun _ => .ok "(1 2)") ["run", "--execute", "a"]).TellsError "(1 2)" ∧
      ¬ (perform (fun _ => .ok "(1 2)") ["parse", "a"]).TellsError "(1 2)" ∧
      (perform (fun _ => .ok "(1 2)") ["parse", "a"]).Shows none
        ("=== SOURCE ===\n(1 2)\n=== TOKENS ===\n   0: CHAR - (\n   0: DIGIT - 1\n" ++
          "   0: DIGIT - 2\n   0: CHAR - )\n   0: EOF - #\n=== TREES ===\n")
        "Error: Syntax error at line 0: missing operator\n" 0 := by
  have hrun : Invocation.ofArguments ["run", "--execute", "a"] =
      .ok (.run { source := .file "a", execute := true }) := by
    rfl
  have hparse : Invocation.ofArguments ["parse", "a"] = .ok (.parse (.file "a")) := by
    rfl
  have herror : parse "(1 2)" = .error (.missingOperator 0) := by decide +kernel
  obtain ⟨-, -, hall⟩ := perform_tellsError (fun _ => .ok "(1 2)") "(1 2)"
  obtain ⟨htells, -⟩ := (hall ["run", "--execute", "a"]).1 _ hrun rfl rfl
  obtain ⟨hshows, hiff, -⟩ := (hall ["parse", "a"]).2 _ hparse rfl
  refine ⟨hrun, hparse, htells, ?_, ?_⟩
  · rw [hiff, herror]
    rintro ⟨es, hes⟩
    exact nomatch hes
  · exact ⟨hshows.output.trans (by decide +kernel), hshows.errors.trans (by decide +kernel),
      hshows.status⟩

/-- The group is never closed, but only the run fails. -/
theorem perform_parse_unclosed :
    parse "(" = .error (.missingExpression 0) ∧
      Invocation.ofArguments ["run", "-e", "("] = .ok (.run { source := .inline "(" }) ∧
      (perform (fun _ => .error .notFound) ["run", "-e", "("]).status = 1 ∧
      Invocation.ofArguments ["parse", "-e", "("] = .ok (.parse (.inline "(")) ∧
      (perform (fun _ => .error .notFound) ["parse", "-e", "("]).status = 0 ∧
      ¬ (perform (fun _ => .error .notFound) ["parse", "-e", "("]).TellsError "(" := by
  have herror : parse "(" = .error (.missingExpression 0) := by decide +kernel
  have hstatus : (perform (fun _ => .error .notFound) ["parse", "-e", "("]).status = 0 := by
    decide +kernel
  refine ⟨herror, rfl, by decide +kernel, rfl, hstatus, ?_⟩
  rw [Transcript.tellsError_iff_of_zero hstatus, herror]
  rintro ⟨es, hes⟩
  exact nomatch hes

end GroupedArith
