/-
# `GroupedArith.Proofs.Output` — what is to be seen of a run

A run over a source writes, in this order and with the log off,

    the source
    for each expression that is read    its tree, if trees are to be shown
                                        what the engines say, a line each
                                        its value once more, if code is executed
    a last line, unless there is an error

and the error, if there is one, is written out in full elsewhere and makes the
exit status 1 (`runSource_shows`).  What is written for an expression stays when a
later one has an error.

The engines are looked up before anything is written, so that an unknown name
leaves the output empty (`Engine.ofNames_eq_error`).

The proof is an induction on the expressions that are read.  The coder and the
machine that execute code go along and are any at each step: whatever they were
used for, the code of an expression prints its value and nothing else
(`Machine.outcome_execute_code`), so that executing code never ends a run, and that
there is no value to warn of (`printedChunks_ofExpr`).
-/
import GroupedArith.Command.Perform
import GroupedArith.Proofs.Arguments
import GroupedArith.Proofs.Compilation
import GroupedArith.Proofs.Delivery

namespace GroupedArith

/-! ## Names of engines -/

namespace Engine

theorem ofName_name (g : Engine) : ofName g.name = .ok g := by
  cases g <;> rfl

theorem exists_of_mem_names {name : String} (h : name ∈ all.map Engine.name) :
    ∃ g : Engine, g.name = name := by
  obtain ⟨g, -, hg⟩ := List.mem_map.mp h
  exact ⟨g, hg⟩

theorem ofNames_cons (name : String) (names : List String) :
    ofNames (name :: names) =
      (ofName name).bind fun g => (ofNames names).map (g :: ·) := by
  rw [ofNames, List.mapM_cons]
  cases ofName name with
  | error f => rfl
  | ok g =>
      cases h : names.mapM ofName with
      | error f => simp [ofNames, h, bind, Except.bind, Except.map]
      | ok gs => simp [ofNames, h, bind, Except.bind, Except.map, pure, Except.pure]

/-- Each name stands for the engine that has it. -/
theorem ofNames_map_name (engines : List Engine) : ofNames (engines.map name) = .ok engines := by
  induction engines with
  | nil => rfl
  | cons g engines ih =>
      rw [List.map_cons, ofNames_cons, ofName_name, ih]
      rfl

/-- Names that engines have are the names of some engines. -/
theorem exists_map_name_eq {names : List String}
    (h : names.find? (· ∉ all.map Engine.name) = none) :
    ∃ engines : List Engine, engines.map name = names := by
  induction names with
  | nil => exact ⟨[], rfl⟩
  | cons name names ih =>
      by_cases hname : name ∈ all.map Engine.name
      · rw [List.find?_cons_of_neg (by simpa using hname)] at h
        obtain ⟨g, rfl⟩ := exists_of_mem_names hname
        obtain ⟨engines, rfl⟩ := ih h
        exact ⟨g :: engines, rfl⟩
      · rw [List.find?_cons_of_pos (by simpa using hname)] at h
        exact nomatch h

end Engine

/-- The engines that are meant by a list of names: all if there are no names, otherwise those of
the names, in this order. -/
def Engine.Meant (names : List String) (engines : List Engine) : Prop :=
  if names = [] then engines = Engine.all else engines.map Engine.name = names

theorem RunOptions.selected_of_meant {o : RunOptions} {engines : List Engine}
    (h : Engine.Meant o.engines engines) : o.selected = .ok engines := by
  rw [Engine.Meant] at h
  by_cases hnil : o.engines = []
  · rw [if_pos hnil] at h
    rw [selected, if_pos (List.isEmpty_iff.mpr hnil), h]
  · rw [if_neg hnil] at h
    rw [selected, if_neg (by simpa using hnil), ← h, Engine.ofNames_map_name]

theorem Engine.exists_meant {names : List String}
    (h : names.find? (· ∉ all.map Engine.name) = none) : ∃ engines, Meant names engines := by
  by_cases hnil : names = []
  · exact ⟨all, by rw [Meant, if_pos hnil]⟩
  · obtain ⟨engines, hengines⟩ := exists_map_name_eq h
    exact ⟨engines, by rw [Meant, if_neg hnil, hengines]⟩

/-! ## Transcripts as they are seen -/

namespace Transcript

/-- With the log kept to `limit`, this is the output, this is written about errors, and this is the
exit status. -/
structure Shows (t : Transcript) (limit : Option Level) (output errors : String)
    (status : UInt32) : Prop where
  output : t.stdout limit = output
  errors : t.errors = errors
  status : t.status = status

variable {t : Transcript} {limit : Option Level} {output errors : String} {status : UInt32}

theorem Shows.after (h : t.Shows limit output errors status) (chunks : List Chunk) :
    (t.after chunks).Shows limit (String.join (chunks.map (Chunk.render limit)) ++ output) errors
      status where
  output := by
    rw [← h.output, stdout, Transcript.after, List.map_append, String.join_append]
    rfl
  errors := h.errors
  status := h.status

/-- A log that is off shows nothing. -/
theorem join_render_events (events : List Event) :
    String.join ((events.map Chunk.event).map (Chunk.render none)) = "" := by
  induction events with
  | nil => rfl
  | cons e events ih =>
      rw [List.map_cons, List.map_cons, String.join_cons, ih]
      rfl

theorem Shows.after_events (h : t.Shows none output errors status) (events : List Event) :
    (t.after (events.map .event)).Shows none output errors status := by
  have hafter := h.after (events.map .event)
  rwa [join_render_events, String.empty_append] at hafter

theorem Shows.after_text (h : t.Shows limit output errors status) (text : String) :
    (t.after [.text text]).Shows limit (text ++ output) errors status := by
  have hafter := h.after [.text text]
  rwa [List.map_singleton, String.join_cons, String.join_nil, String.append_empty] at hafter

theorem written_shows (text : String) : (written text).Shows limit text "" 0 where
  output := String.join_cons.trans (by rw [List.map_nil, String.join_nil, String.append_empty]; rfl)
  errors := rfl
  status := rfl

theorem failed_shows (f : Failure) :
    (failed f).Shows limit "" ("Error: " ++ f.form.compact ++ "\n") 1 where
  output := rfl
  errors := rfl
  status := rfl

end Transcript

/-! ## A run over a source -/

/-- What is written for an expression. -/
def exprSection (showTree execute : Bool) (engines : List Engine) (e : Expr) : String :=
  (if showTree then treeSection e else "") ++
    (String.join ((engines.flatMap (Engine.records e)).map fun k => k.text ++ "\n") ++
      if execute then (Answer.ofExpr e).text ++ " (stack machine)\n" else "")

/-- What is written behind the last expression. -/
def closingLine : Except SyntaxError (List Expr) → String
  | .ok _ => "\n\tEnd\n"
  | .error _ => ""

/-- What is written about an error. -/
def errorLine : Except SyntaxError (List Expr) → String
  | .ok _ => ""
  | .error e => "Error: " ++ e.form.compact ++ "\n"

def exitStatus : Except SyntaxError (List Expr) → UInt32
  | .ok _ => 0
  | .error _ => 1

theorem recordLines_fresh (engines : List Engine) (e : Expr) :
    recordLines (Report.fresh engines e).records =
      String.join ((engines.flatMap (Engine.records e)).map fun k => k.text ++ "\n") := by
  rw [recordLines, Report.records_fresh]

/-- The value that is printed for the code of an expression (`Machine.outcome_execute_code`) is the
one that is expected, so that there is no warning. -/
theorem printedChunks_ofExpr (e : Expr) :
    printedChunks e.value [.ofExpr e] =
      [.text ((Answer.ofExpr e).text ++ " (stack machine)\n")] := by
  rw [printedChunks, List.flatMap_singleton]
  exact congrArg (_ :: ·) (if_pos rfl)

/-- Whatever a coder and a machine were used for, what they add is the value, on a line of its
own, and the run goes on. -/
theorem runReplies_cons {reply : Reply} {engines : List Engine} {e : Expr}
    (h : reply.answer = .ok (some (.fresh engines e))) (showTree execute : Bool) (c : Coder)
    (m : Machine) (replies : List Reply) {output errors : String} {status : UInt32}
    (hrest : ∀ c m, (runReplies showTree execute c m replies).Shows none output errors status) :
    (runReplies showTree execute c m (reply :: replies)).Shows none
      (exprSection showTree execute engines e ++ output) errors status := by
  rw [runReplies, h]
  apply Transcript.Shows.after_events
  have hreport : String.join ((reportChunks showTree (.fresh engines e)).map (Chunk.render none)) =
      (if showTree then treeSection e else "") ++
        String.join ((engines.flatMap (Engine.records e)).map fun k => k.text ++ "\n") := by
    rw [← recordLines_fresh, reportChunks]
    cases showTree with
    | true => simp [Chunk.render, Report.fresh]
    | false => simp [Chunk.render]
  rw [exprSection, ← String.append_assoc, ← hreport, String.append_assoc]
  apply Transcript.Shows.after
  cases execute with
  | true =>
      simp only [Report.fresh, Coder.generate_eq, Machine.outcome_execute_code,
        printedChunks_ofExpr, if_true]
      apply Transcript.Shows.after_events
      exact (hrest _ _).after_text _
  | false =>
      rw [if_neg Bool.false_ne_true, if_neg Bool.false_ne_true, String.empty_append]
      exact hrest c m

/-- A run writes a section for each report that it is given, and ends as its source does. -/
theorem runReplies_shows (showTree execute : Bool) {engines : List Engine} {es : List Expr}
    {answer : Except SyntaxError (List Expr)} (c : Coder) (m : Machine) {replies : List Reply}
    (h : replies.map Reply.answer =
      es.map (fun e => .ok (some (.fresh engines e))) ++ [answer.map fun _ => none]) :
    (runReplies showTree execute c m replies).Shows none
      (String.join (es.map (exprSection showTree execute engines)) ++ closingLine answer)
      (errorLine answer) (exitStatus answer) := by
  induction es generalizing c m replies with
  | nil =>
      obtain ⟨reply, rest, rfl, hreply, hrest⟩ := List.map_eq_cons_iff.mp h
      rw [List.map_nil, String.join_nil, String.empty_append, runReplies, hreply]
      apply Transcript.Shows.after_events
      cases answer with
      | ok es => exact Transcript.written_shows _
      | error err => exact Transcript.failed_shows (.source err)
  | cons e es ih =>
      obtain ⟨reply, rest, rfl, hreply, hrest⟩ := List.map_eq_cons_iff.mp h
      rw [List.map_cons, String.join_cons, String.append_assoc]
      exact runReplies_cons hreply showTree execute c m rest fun c m => ih c m hrest

theorem runSource_shows (showTree execute : Bool) (engines : List Engine) (s : String) :
    (runSource showTree execute engines s).Shows none
      ("\tProgram: " ++ s ++ "\n\n" ++
        (String.join ((yielded s).map (exprSection showTree execute engines)) ++
          closingLine (parse s)))
      (errorLine (parse s)) (exitStatus (parse s)) :=
  (runReplies_shows showTree execute {} {} (Session.answers_ofString s engines)).after_text _

/-! ## A command line -/

/-- That a file is about to be read is told to the log only. -/
theorem SourceChoice.withSource_shows {files : FileReader} {source : SourceChoice} {s : String}
    {go : String → Transcript} {output errors : String} {status : UInt32}
    (hs : (source.load files).2 = .ok s) (h : (go s).Shows none output errors status) :
    (source.withSource files go).Shows none output errors status := by
  cases source with
  | inline text =>
      obtain rfl : text = s := Except.ok.inj hs
      exact h.after_events []
  | file path =>
      have hgo : (file path).withSource files go = (go s).after ([.opening path].map .event) := by
        simp only [withSource, load] at hs ⊢
        rw [hs]
        rfl
      rw [hgo]
      exact h.after_events [.opening path]
  | demo =>
      obtain rfl : demoSource = s := Except.ok.inj hs
      exact h.after_events []

end GroupedArith
