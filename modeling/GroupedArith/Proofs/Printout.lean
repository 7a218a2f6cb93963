/-
# `GroupedArith.Proofs.Printout` — the output of a run can be read back

## What is proved

The output of a run is made of these lines, with the messages of the log among them:

    Program: and the source
    a blank line
    for each expression    its tree, if trees are to be shown
                           its records
                           its value once more, if code is executed
    a closing line, unless there is an error

The source may be any text, with lines that look like records.  Still the output
determines the source and the records, whatever else it shows
(`printed_unambiguous`).

## How

The closing line has a blank line before it; where it is found, both are taken away
(`Body.eq_of_closed`).  What is written for the expressions has no blank line, so that
it is all that stands behind the last one.  In it a record is a line that begins with
an `L` and has no parenthesis: no line of a tree and no message begins like this, and a
value of the machine is followed by a note in parentheses (`Carries`).

That messages are lines of their own takes the way a session reads: it tells tokens of
the source, and no token is a line break (`Session.oneLine_of_mem_log`).
-/
import GroupedArith.Proofs.Chronicle
import GroupedArith.Proofs.Legibility
import GroupedArith.Proofs.Output

namespace GroupedArith

/-! ## Texts that carry records -/

def closingRow : List Char := "\tEnd".toList

def isRecordRow (row : List Char) : Bool := row.head? = some 'L' ∧ ')' ∉ row

/-- Rows none of which is blank or the closing line, with these records among them. -/
structure Body (rows : List (List Char)) (ks : List Record) : Prop where
  solid : ∀ row ∈ rows, row ≠ [] ∧ row ≠ closingRow
  records : rows.filter isRecordRow = recordRows ks

/-- The text is made of such rows. -/
def Carries (text : String) (ks : List Record) : Prop := ∃ rows, MadeOf text rows ∧ Body rows ks

theorem carries_nil : Carries "" [] :=
  ⟨[], madeOf_nil, fun _ h => absurd h List.not_mem_nil, rfl⟩

theorem Carries.append {s t : String} {ks ks' : List Record} (hs : Carries s ks)
    (ht : Carries t ks') : Carries (s ++ t) (ks ++ ks') := by
  obtain ⟨rows, hrows, hsolid, hrecords⟩ := hs
  obtain ⟨rows', hrows', hsolid', hrecords'⟩ := ht
  refine ⟨rows ++ rows', hrows.append hrows', ?_, ?_⟩
  · exact List.forall_mem_append.mpr ⟨hsolid, hsolid'⟩
  · rw [List.filter_append, hrecords, hrecords', recordRows, recordRows, recordRows,
      List.map_append]

theorem Record.isRecordRow_text (k : Record) : isRecordRow k.text.toList = true := by
  have hparen : ')' ∉ k.text.toList := fun h => absurd (isDigit_or_mem_of_mem_text h) (by decide)
  refine decide_eq_true ⟨?_, hparen⟩
  rw [toList_text]
  rfl

theorem carries_recordLines (ks : List Record) : Carries (recordLines ks) ks := by
  refine ⟨recordRows ks, madeOf_recordLines ks, ?_, ?_⟩
  · intro row hrow
    obtain ⟨k, -, rfl⟩ := List.mem_map.mp hrow
    have hk := k.isRecordRow_text
    constructor
    · intro hnil
      rw [hnil] at hk
      exact nomatch hk
    · intro hend
      rw [hend] at hk
      exact absurd hk (by decide)
  · refine List.filter_eq_self.mpr fun row hrow => ?_
    obtain ⟨k, -, rfl⟩ := List.mem_map.mp hrow
    exact k.isRecordRow_text

/-! ## Text within a line -/

theorem oneLine_intercalate {sep : String} {ts : List String} (hsep : OneLine sep)
    (h : ∀ t ∈ ts, OneLine t) : OneLine (sep.intercalate ts) := by
  induction ts with
  | nil => exact List.not_mem_nil
  | cons t ts ih =>
      obtain ⟨ht, hts⟩ := List.forall_mem_cons.mp h
      cases ts with
      | nil => rwa [String.intercalate_singleton]
      | cons u us =>
          rw [String.intercalate_cons_cons]
          exact oneLine_append.mpr ⟨oneLine_append.mpr ⟨ht, hsep⟩, ih hts⟩

theorem oneLine_toString (z : Int) : OneLine (toString z) := by
  intro h
  rcases eq_or_isDigit_of_mem_toString h with h | h
  · exact absurd h (by decide)
  · exact nomatch h

/-- Text within a line that cannot be taken for a record or for the closing line. -/
def Plain (s : String) : Prop := ∀ c ∈ s.toList, c ∉ ['\n', '\t', 'L']

instance (s : String) : Decidable (Plain s) := List.decidableBAll _ s.toList

theorem Plain.append {s t : String} (hs : Plain s) (ht : Plain t) : Plain (s ++ t) := by
  intro c hc
  rw [String.toList_append] at hc
  rcases List.mem_append.mp hc with hc | hc
  · exact hs c hc
  · exact ht c hc

theorem Plain.oneLine {s : String} (h : Plain s) : OneLine s := fun hc => h _ hc (by decide)

theorem plain_toString (n : Nat) : Plain (toString n) := by
  intro c hc hmem
  have hdigit := isDigit_of_mem_toString hc
  simp only [List.mem_cons, List.not_mem_nil, or_false] at hmem
  rcases hmem with rfl | rfl | rfl <;> exact nomatch hdigit

theorem Op.plain_symbol (o : Op) : Plain o.symbol.toString := by cases o <;> decide

theorem plain_indent (d : Nat) : Plain (Form.indent d) := by
  rw [Form.indent, String.pushn_eq_repeat_push]
  generalize 4 * d = k
  induction k with
  | zero => decide
  | succ k ih =>
      rw [Nat.repeat, String.push_eq_append]
      exact ih.append (by decide)

theorem plain_render (e : Expr) : Plain e.render := by
  have hopening : Plain "(" := by decide
  induction e with
  | digit v n => exact plain_toString _
  | group l o r n ihl ihr =>
      exact (((hopening.append ihl).append o.plain_symbol).append ihr).append (by decide)

theorem plain_renderOpen (l : Expr) (o : Op) (r : Expr) : Plain (Expr.renderOpen l o r) := by
  have hopening : Plain "(" := by decide
  exact ((hopening.append (plain_render l)).append o.plain_symbol).append (plain_render r)

/-- A line that begins with this character is neither a record nor the closing line. -/
theorem OneLine.carries {s : String} {c : Char} (h : OneLine s) (hs : s.toList.head? = some c)
    (hc : c ∉ ['\t', 'L']) : Carries (s ++ "\n") [] := by
  refine ⟨[s.toList], madeOf_line h, ?_, ?_⟩
  · refine List.forall_mem_singleton.mpr ⟨List.ne_nil_of_mem (List.mem_of_head? hs), ?_⟩
    intro hend
    rw [hend] at hs
    obtain rfl := Option.some.inj hs
    exact hc (by decide)
  · refine List.filter_eq_nil_iff.mpr (List.forall_mem_singleton.mpr fun hrecord => ?_)
    obtain ⟨hhead, -⟩ := of_decide_eq_true hrecord
    obtain rfl := Option.some.inj (hs.symm.trans hhead)
    exact hc (by decide)

/-- A line that is plain and not blank. -/
theorem Plain.carries {s : String} (h : Plain s) (hne : s ≠ "") : Carries (s ++ "\n") [] := by
  obtain ⟨c, cs, hs⟩ := List.exists_cons_of_ne_nil (mt String.toList_eq_nil_iff.mp hne)
  have hc : c ∉ ['\n', '\t', 'L'] := h c (hs ▸ List.mem_cons_self)
  refine h.oneLine.carries (c := c) ?_ fun hmem => hc (List.mem_cons_of_mem _ hmem)
  rw [hs, List.head?_cons]

/-! ## Lines of a tree -/

section Tree
variable {d : Nat} {before after name : String} {part : Form} {fields : List (String × Form)}

theorem carries_record (hbefore : Plain before) (hafter : Plain after) (hname : Plain name)
    (hfields : Carries (Form.indentedFields d fields) []) :
    Carries (before ++ (Form.record name fields).indented d ++ after ++ "\n") [] := by
  have hopening : Carries (before ++ name ++ " \x7b" ++ "\n") [] :=
    ((hbefore.append hname).append (by decide)).carries (by simp)
  have hclosing : Carries (Form.indent d ++ "\x7d" ++ after ++ "\n") [] :=
    (((plain_indent d).append (by decide)).append hafter).carries (by simp)
  have hlines := (hopening.append hfields).append hclosing
  have hsplit : " \x7b\n" = " \x7b" ++ "\n" := rfl
  simpa only [Form.indented, hsplit, String.append_assoc, List.append_nil] using hlines

theorem carries_field
    (hpart : Carries
      (Form.indent (d + 1) ++ name ++ ": " ++ part.indented (d + 1) ++ "," ++ "\n") [])
    (hfields : Carries (Form.indentedFields d fields) []) :
    Carries (Form.indentedFields d ((name, part) :: fields)) [] := by
  have hlines := hpart.append hfields
  have hsplit : ",\n" = "," ++ "\n" := rfl
  simpa only [Form.indentedFields, hsplit, String.append_assoc, List.append_nil] using hlines

theorem carries_atom {text : String} (hname : Plain name) (htext : Plain text)
    (hfields : Carries (Form.indentedFields d fields) []) :
    Carries (Form.indentedFields d ((name, .atom text) :: fields)) [] := by
  have hline : Plain (Form.indent (d + 1) ++ name ++ ": " ++ text ++ ",") :=
    ((((plain_indent _).append hname).append (by decide)).append htext).append (by decide)
  exact carries_field (hline.carries (by simp)) hfields

/-- A tree in full shows no record, wherever it stands. -/
theorem carries_form (e : Expr) (hbefore : Plain before) (hafter : Plain after) :
    Carries (before ++ e.form.indented d ++ after ++ "\n") [] := by
  have hnone : ∀ d, Carries (Form.indentedFields d []) [] := fun _ => carries_nil
  induction e generalizing d before after with
  | digit v n =>
      refine carries_record hbefore hafter (by decide) ?_
      exact carries_atom (by decide) (plain_toString _)
        (carries_atom (by decide) (plain_toString _) (hnone d))
  | group l o r n ihl ihr =>
      have ho : ∃ text, o.form = .atom text ∧ Plain text := by
        cases o with
        | add => exact ⟨"Add", rfl, by decide⟩
        | mul => exact ⟨"Mul", rfl, by decide⟩
      obtain ⟨text, hform, htext⟩ := ho
      have hlabel : ∀ label, Plain label → Plain (Form.indent (d + 1) ++ label ++ ": ") :=
        fun _ hlabel => ((plain_indent _).append hlabel).append (by decide)
      refine carries_record hbefore hafter (by decide) ?_
      refine carries_field (ihl (hlabel "left" (by decide)) (by decide)) ?_
      rw [hform]
      refine carries_atom (by decide) htext ?_
      refine carries_field (ihr (hlabel "right" (by decide)) (by decide)) ?_
      exact carries_atom (by decide) (plain_toString _) (hnone d)

theorem carries_treeSection (e : Expr) : Carries (treeSection e) [] := by
  have hplain : Plain "=== TREE ===" := by decide
  have htitle : Carries ("=== TREE ===" ++ "\n") [] := hplain.carries (by simp)
  have htext : Carries (e.render ++ " (depth " ++ toString e.depth ++ ")" ++ "\n") [] :=
    ((((plain_render e).append (by decide)).append (plain_toString _)).append (by decide)).carries
      (by simp)
  have hform : Carries ("" ++ e.form.indented 0 ++ "" ++ "\n") [] :=
    carries_form e (by decide) (by decide)
  have hlines := (htitle.append htext).append hform
  have hsplit : "=== TREE ===\n" = "=== TREE ===" ++ "\n" := rfl
  have hsplit' : ")\n" = ")" ++ "\n" := rfl
  change Carries ("=== TREE ===\n" ++ e.render ++ " (depth " ++ toString e.depth ++ ")\n" ++
    e.form.indented 0 ++ "\n") []
  simpa only [hsplit, hsplit', String.append_assoc, String.empty_append, List.append_nil]
    using hlines

end Tree

/-! ## Lines of the log -/

theorem Level.exists_head?_eq (l : Level) :
    ∃ c, (leftAligned 5 l.name).toList.head? = some c ∧ c ∉ ['\t', 'L'] := by
  cases l with
  | error => exact ⟨'E', rfl, by decide⟩
  | warn => exact ⟨'W', rfl, by decide⟩
  | info => exact ⟨'I', rfl, by decide⟩
  | debug => exact ⟨'D', rfl, by decide⟩
  | trace => exact ⟨'T', rfl, by decide⟩

/-- A message on one line begins with its level. -/
theorem Event.carries_line {e : Event} (h : OneLine e.message) : Carries e.line [] := by
  obtain ⟨c, hname, hc⟩ := e.level.exists_head?_eq
  have hlevel : OneLine (leftAligned 5 e.level.name) := by cases e.level <;> decide
  have htarget : OneLine e.target := by cases e <;> (rw [target]; decide)
  have hline : OneLine (leftAligned 5 e.level.name ++ " [" ++ e.target ++ "] " ++ e.message) := by
    simp only [oneLine_append]
    exact ⟨⟨⟨⟨hlevel, by decide⟩, htarget⟩, by decide⟩, h⟩
  have hhead : (leftAligned 5 e.level.name ++ " [" ++ e.target ++ "] " ++ e.message).toList.head? =
      some c := by
    simp only [String.toList_append, List.head?_append, hname, Option.some_or]
  exact hline.carries hhead hc

theorem carries_events (limit : Option Level) {events : List Event}
    (h : ∀ e ∈ events, OneLine e.message) :
    Carries (String.join ((events.map Chunk.event).map (Chunk.render limit))) [] := by
  induction events with
  | nil => exact carries_nil
  | cons e events ih =>
      obtain ⟨he, hevents⟩ := List.forall_mem_cons.mp h
      have hchunk : Carries (Chunk.render limit (.event e)) [] := by
        rw [Chunk.render]
        split
        · exact e.carries_line he
        · exact carries_nil
      rw [List.map_cons, List.map_cons, String.join_cons]
      exact hchunk.append (ih hevents)

/-! ### What is told is told on one line -/

theorem oneLine_char {c : Char} (h : c ≠ '\n') : OneLine c.toString := by
  rw [OneLine, Char.toString_eq_singleton, String.toList_singleton, List.mem_singleton]
  exact Ne.symm h

theorem Token.oneLine_message {t : Token} (h : t.char ≠ '\n') :
    OneLine (Event.token t).message := by
  have hlabel : OneLine t.kind.label := by cases t.kind <;> (rw [Kind.label]; decide)
  change OneLine ("token " ++ (t.kind.label ++ " - " ++ t.char.toString) ++ " at line " ++
    toString t.line)
  simp only [oneLine_append]
  exact ⟨⟨⟨by decide, ⟨hlabel, by decide⟩, oneLine_char h⟩, by decide⟩, (plain_toString _).oneLine⟩

theorem Visit.oneLine_text (v : Visit) : OneLine v.text := by
  have hinstruction : OneLine v.instruction.text := (Record.instruction _).oneLine_text
  have hstack : ∀ w ∈ v.stack.reverse.map fun w => toString w.toInt, OneLine w :=
    List.forall_mem_map.mpr fun w _ => oneLine_toString w.toInt
  simp only [text, oneLine_append]
  exact ⟨⟨⟨hinstruction, by decide⟩, oneLine_intercalate (by decide) hstack⟩, by decide⟩

namespace Event

theorem oneLine_parsed (e : Expr) : OneLine (parsed e).message := by
  change OneLine ("parsed " ++ e.render ++ " at line " ++ toString e.line)
  simp only [oneLine_append]
  exact ⟨⟨⟨by decide, (plain_render e).oneLine⟩, by decide⟩, (plain_toString _).oneLine⟩

theorem oneLine_generated (e : Expr) (size : Nat) : OneLine (generated e size).message := by
  change OneLine ("generated " ++ toString size ++ " instruction(s) for " ++ e.render)
  simp only [oneLine_append]
  exact ⟨⟨⟨by decide, (plain_toString _).oneLine⟩, by decide⟩, (plain_render e).oneLine⟩

theorem oneLine_evaluated (e : Expr) (value : Int64) : OneLine (evaluated e value).message := by
  change OneLine (e.render ++ " = " ++ toString value.toInt)
  simp only [oneLine_append]
  exact ⟨⟨(plain_render e).oneLine, by decide⟩, oneLine_toString _⟩

theorem oneLine_ended (count : Nat) : OneLine (ended count).message := by
  change OneLine ("end of input after " ++ toString count ++ " expression(s)")
  simp only [oneLine_append]
  exact ⟨⟨by decide, (plain_toString _).oneLine⟩, by decide⟩

theorem oneLine_unclosed (l : Expr) (o : Op) (r : Expr) {found : Char} (h : found ≠ '\n') :
    OneLine (unclosed (Expr.renderOpen l o r) found).message := by
  change OneLine ("expression: " ++ Expr.renderOpen l o r ++ " <- expected ')', found '" ++
    found.toString ++ "'")
  simp only [oneLine_append]
  exact ⟨⟨⟨⟨by decide, (plain_renderOpen l o r).oneLine⟩, by decide⟩, oneLine_char h⟩, by decide⟩

end Event

theorem Coder.oneLine_of_mem_events {c : Coder} {e : Expr} {x : Event} (h : x ∈ c.events e) :
    OneLine x.message := by
  obtain rfl := List.mem_singleton.mp h
  exact Event.oneLine_generated e _

theorem Execution.oneLine_of_mem_events {x : Execution} {y : Event} (h : y ∈ x.events) :
    OneLine y.message := by
  obtain ⟨v, -, rfl⟩ := List.mem_map.mp h
  exact v.oneLine_text

/-- A line break is layout, and makes no token. -/
theorem char_ne_newline_of_mem_tokens {source : String} {t : Token} (h : t ∈ tokens source) :
    t.char ≠ '\n' := by
  rcases List.mem_append.mp h with h | h
  · obtain ⟨p, hp, rfl⟩ := List.mem_map.mp h
    have hsignificant : p.char ∈ significant source.toList := by
      rw [← map_char_place 0]
      exact List.mem_map_of_mem hp
    have hlayout := List.of_mem_filter hsignificant
    rw [char_token]
    intro hnewline
    rw [hnewline] at hlayout
    exact nomatch hlayout
  · obtain rfl := List.mem_singleton.mp h
    show '#' ≠ '\n'
    decide

theorem oneLine_of_mem_closingEvents {count : Nat} {a : Awaiting} {t : Token} {x : Event}
    (ht : t.char ≠ '\n') (h : x ∈ closingEvents count t (a.complaint? t)) : OneLine x.message := by
  cases hcomplaint : a.complaint? t with
  | none =>
      rw [hcomplaint] at h
      obtain rfl := List.mem_singleton.mp h
      exact Event.oneLine_ended count
  | some err =>
      rw [hcomplaint] at h
      cases err with
      | missingExpression n => exact absurd h List.not_mem_nil
      | missingOperator n => exact absurd h List.not_mem_nil
      | missingClosingParen n fragment =>
          obtain rfl := List.mem_singleton.mp h
          cases a with
          | operand outer => exact nomatch (Awaiting.complaint?_operand_eq_some_iff.mp hcomplaint).1
          | operator => exact nomatch hcomplaint
          | closing m l o r outer =>
              cases hcomplaint
              exact Event.oneLine_unclosed l o r ht

/-- Whatever the source, each message of a session is on one line. -/
theorem Session.oneLine_of_mem_log {source : String} {engines : List Engine} {x : Event}
    (h : x ∈ (Session.ofString source engines).log) : OneLine x.message := by
  obtain ⟨spans, a, us, t, hdivides, hlog⟩ := log_eq (s := ofString source engines) rfl
  have hread : spans.flatMap Prod.snd ++ (us ++ [t]) ⊆ tokens source := hdivides.tokens.subset
  have htoken : ∀ u ∈ spans.flatMap Prod.snd ++ (us ++ [t]), OneLine (Event.token u).message :=
    fun u hu => u.oneLine_message (char_ne_newline_of_mem_tokens (hread hu))
  rw [hlog, List.mem_append, List.mem_append, List.mem_flatMap] at h
  rcases h with ⟨p, hp, hx⟩ | h | h
  · rcases List.mem_append.mp hx with hx | hx
    · obtain ⟨u, hu, rfl⟩ := List.mem_map.mp hx
      exact htoken u (List.mem_append_left _ (List.mem_flatMap.mpr ⟨p, hp, hu⟩))
    · rcases List.mem_cons.mp hx with rfl | hx
      · exact Event.oneLine_parsed p.1
      · obtain ⟨g, -, rfl⟩ := List.mem_map.mp hx
        cases g with
        | coder => exact Event.oneLine_generated p.1 _
        | evaluator => exact Event.oneLine_evaluated p.1 _
  · obtain ⟨u, hu, rfl⟩ := List.mem_map.mp h
    exact htoken u (List.mem_append_right _ hu)
  · have ht : t ∈ tokens source := hread (by simp)
    exact oneLine_of_mem_closingEvents (char_ne_newline_of_mem_tokens ht) h

/-! ## A run over a source -/

/-- The value that the machine prints is on a line with a note in parentheses. -/
theorem carries_printed (a : Answer) : Carries (a.text ++ " (stack machine)\n") [] := by
  have hline : OneLine (a.text ++ " (stack machine)") :=
    oneLine_append.mpr ⟨(Record.result a).oneLine_text, by decide⟩
  have hparen : ')' ∈ (a.text ++ " (stack machine)").toList := by
    rw [String.toList_append, List.mem_append]
    exact .inr (by decide)
  have hsplit : " (stack machine)\n" = " (stack machine)" ++ "\n" := rfl
  rw [hsplit, ← String.append_assoc]
  refine ⟨[(a.text ++ " (stack machine)").toList], madeOf_line hline, ?_, ?_⟩
  · refine List.forall_mem_singleton.mpr ⟨List.ne_nil_of_mem hparen, ?_⟩
    intro hend
    rw [hend] at hparen
    exact absurd hparen (by decide)
  · refine List.filter_eq_nil_iff.mpr (List.forall_mem_singleton.mpr fun hrecord => ?_)
    exact (of_decide_eq_true hrecord).2 hparen

namespace Transcript
variable {t : Transcript} {limit : Option Level} {ks ks' : List Record}
  {answer : Except SyntaxError (List Expr)}

/-- What is written carries these records, up to the closing line for the answer. -/
def Tells (t : Transcript) (limit : Option Level) (ks : List Record)
    (answer : Except SyntaxError (List Expr)) : Prop :=
  ∃ text, Carries text ks ∧ t.stdout limit = text ++ closingLine answer

theorem stdout_after (chunks : List Chunk) :
    (t.after chunks).stdout limit =
      String.join (chunks.map (Chunk.render limit)) ++ t.stdout limit :=
  (Shows.after ⟨rfl, rfl, rfl⟩ chunks).output

theorem Tells.after {chunks : List Chunk} (h : t.Tells limit ks' answer)
    (hchunks : Carries (String.join (chunks.map (Chunk.render limit))) ks) :
    (t.after chunks).Tells limit (ks ++ ks') answer := by
  obtain ⟨text, htext, hstdout⟩ := h
  exact ⟨_, hchunks.append htext, by rw [stdout_after, hstdout, String.append_assoc]⟩

theorem Tells.after_events {events : List Event} (h : t.Tells limit ks answer)
    (hevents : ∀ e ∈ events, OneLine e.message) :
    (t.after (events.map .event)).Tells limit ks answer :=
  h.after (carries_events limit hevents)

theorem Tells.after_text {text : String} (h : t.Tells limit ks' answer) (htext : Carries text ks) :
    (t.after [.text text]).Tells limit (ks ++ ks') answer := by
  refine h.after ?_
  rwa [List.map_singleton, String.join_cons, String.join_nil, String.append_empty]

theorem tells_nil (h : t.stdout limit = closingLine answer) : t.Tells limit [] answer :=
  ⟨"", carries_nil, by rw [h, String.empty_append]⟩

end Transcript

theorem carries_reportChunks (limit : Option Level) (showTree : Bool) (r : Report) :
    Carries (String.join ((reportChunks showTree r).map (Chunk.render limit))) r.records := by
  have hrecords := carries_recordLines r.records
  cases showTree with
  | true => simpa [reportChunks, Chunk.render] using (carries_treeSection r.expr).append hrecords
  | false => simpa [reportChunks, Chunk.render] using hrecords

theorem tells_runReplies (limit : Option Level) (showTree execute : Bool) {engines : List Engine}
    {es : List Expr} {answer : Except SyntaxError (List Expr)} (c : Coder) (m : Machine)
    {replies : List Reply}
    (h : replies.map Reply.answer =
      es.map (fun e => .ok (some (.fresh engines e))) ++ [answer.map fun _ => none])
    (hlog : ∀ x ∈ replies.flatMap Reply.events, OneLine x.message) :
    (runReplies showTree execute c m replies).Tells limit
      (es.flatMap fun e => (Report.fresh engines e).records) answer := by
  induction es generalizing c m replies with
  | nil =>
      obtain ⟨reply, rest, rfl, hreply, hrest⟩ := List.map_eq_cons_iff.mp h
      rw [List.flatMap_cons, List.forall_mem_append] at hlog
      rw [runReplies, hreply]
      refine Transcript.Tells.after_events ?_ hlog.1
      cases answer with
      | ok es => exact Transcript.tells_nil (Transcript.written_shows _).output
      | error err => exact Transcript.tells_nil (Transcript.failed_shows (.source err)).output
  | cons e es ih =>
      obtain ⟨reply, rest, rfl, hreply, hrest⟩ := List.map_eq_cons_iff.mp h
      rw [List.flatMap_cons, List.forall_mem_append] at hlog
      rw [runReplies, hreply, List.flatMap_cons]
      refine Transcript.Tells.after_events ?_ hlog.1
      refine Transcript.Tells.after ?_ (carries_reportChunks limit showTree _)
      cases execute with
      | true =>
          simp only [Report.fresh, Machine.outcome_execute_code, Coder.generate_eq,
            printedChunks_ofExpr, if_true]
          refine Transcript.Tells.after_events ?_ ?_
          · exact (ih _ _ hrest hlog.2).after_text (carries_printed _)
          · exact List.forall_mem_append.mpr
              ⟨fun _ => Coder.oneLine_of_mem_events, fun _ => Execution.oneLine_of_mem_events⟩
      | false => exact ih c m hrest hlog.2

/-- All records of a run, those on one expression behind those on the expressions before it. -/
def runRecords (engines : List Engine) (source : String) : List Record :=
  (yielded source).flatMap fun e => (Report.fresh engines e).records

/-- The lines of the output: the source, a blank line, rows for the expressions, and the closing
line. -/
theorem exists_linesOf_stdout (limit : Option Level) (showTree execute : Bool)
    (engines : List Engine) (s : String) :
    ∃ rows, Body rows (runRecords engines s) ∧
      linesOf ((runSource showTree execute engines s).stdout limit) =
        linesOf ("\tProgram: " ++ s) ++ [] :: (rows ++ linesOf (closingLine (parse s))) := by
  obtain ⟨text, ⟨rows, hrows, hbody⟩, hstdout⟩ :=
    tells_runReplies limit showTree execute {} {} (Session.answers_ofString s engines)
      fun _ => Session.oneLine_of_mem_log
  have hopening : (runSource showTree execute engines s).stdout limit =
      "\tProgram: " ++ s ++ "\n" ++ "" ++ "\n" ++ (text ++ closingLine (parse s)) := by
    rw [runSource, Transcript.stdout_after, hstdout]
    simp [Chunk.render, String.append_assoc]
  have hempty : linesOf "" = [[]] := rfl
  refine ⟨rows, hbody, ?_⟩
  rw [hopening, linesOf_append, linesOf_append, hempty, hrows, List.append_assoc]
  rfl

/-! ## Reading back -/

section Closing
variable {a b rows rows' : List (List Char)} {ks ks' : List Record}

theorem Body.blank_not_mem (h : Body rows ks) : [] ∉ rows := fun hmem => (h.solid [] hmem).1 rfl

theorem Body.closingRow_not_mem (h : Body rows ks) : closingRow ∉ rows :=
  fun hmem => (h.solid closingRow hmem).2 rfl

/-- With a closing line and without one, the lines differ in front of the last line break. -/
theorem Body.ne_closed (h : Body rows ks) :
    a ++ [] :: (rows ++ [[]]) ≠ b ++ [] :: (rows' ++ [[], closingRow, []]) := by
  intro heq
  have hfront : (a ++ [] :: rows) ++ [[]] = (b ++ [] :: (rows' ++ [[], closingRow])) ++ [[]] := by
    simpa using heq
  have hlast : ([] :: rows).getLast? = some closingRow := by
    have hgetLast := congrArg List.getLast? (List.append_cancel_right hfront)
    simpa [List.getLast?_cons] using hgetLast
  rcases List.mem_cons.mp (List.mem_of_getLast? hlast) with hend | hend
  · exact nomatch hend
  · exact h.closingRow_not_mem hend

/-- A closing line that is the same on both sides, or on neither, is cut off. -/
theorem Body.eq_of_closed (h : Body rows ks) (h' : Body rows' ks')
    {answer answer' : Except SyntaxError (List Expr)}
    (heq : a ++ [] :: (rows ++ linesOf (closingLine answer)) =
      b ++ [] :: (rows' ++ linesOf (closingLine answer'))) :
    a ++ [] :: rows = b ++ [] :: rows' := by
  have hcut : ∀ closing : List (List Char),
      a ++ [] :: (rows ++ closing) = b ++ [] :: (rows' ++ closing) →
        a ++ [] :: rows = b ++ [] :: rows' := by
    intro closing heq
    rw [← List.cons_append, ← List.cons_append, ← List.append_assoc, ← List.append_assoc] at heq
    exact List.append_cancel_right heq
  have hend : linesOf "\n\tEnd\n" = [[], closingRow, []] := by decide +kernel
  have hok : ∀ es, linesOf (closingLine (.ok es)) = [[], closingRow, []] := fun _ => hend
  have herror : ∀ err, linesOf (closingLine (.error err)) = [[]] := fun _ => rfl
  cases answer with
  | ok es =>
      cases answer' with
      | ok es' => exact hcut _ heq
      | error err' =>
          rw [hok, herror] at heq
          exact absurd heq.symm h'.ne_closed
  | error err =>
      cases answer' with
      | ok es' =>
          rw [hok, herror] at heq
          exact absurd heq h.ne_closed
      | error err' => exact hcut _ heq

end Closing

/-- Lists of records that are printed as the same text are the same.  The output of a run
determines the source and all records of the run, whatever else it shows. -/
theorem printed_unambiguous :
    (∀ ks ks' : List Record, recordLines ks = recordLines ks' ↔ ks = ks') ∧
    ∀ (limit limit' : Option Level) (showTree showTree' execute execute' : Bool)
      (engines engines' : List Engine) (s s' : String),
      (runSource showTree execute engines s).stdout limit =
          (runSource showTree' execute' engines' s').stdout limit' →
        s = s' ∧ runRecords engines s = runRecords engines' s' := by
  constructor
  · intro ks ks'
    exact recordLines_injective.eq_iff
  · intro limit limit' showTree showTree' execute execute' engines engines' s s' h
    obtain ⟨rows, hbody, hlines⟩ := exists_linesOf_stdout limit showTree execute engines s
    obtain ⟨rows', hbody', hlines'⟩ := exists_linesOf_stdout limit' showTree' execute' engines' s'
    have hclosed := hlines.symm.trans ((congrArg linesOf h).trans hlines')
    obtain ⟨hsource, hrows⟩ := eq_of_cut_last hbody.blank_not_mem hbody'.blank_not_mem
      (hbody.eq_of_closed hbody' hclosed)
    constructor
    · exact (String.append_right_inj _).mp (linesOf_injective hsource)
    · exact recordRows_injective (hbody.records.symm.trans
        ((congrArg (List.filter isRecordRow) hrows).trans hbody'.records))

/-- A source that breaks off at once: there is nothing to report on, nothing to show and nothing to
execute, so that two runs that differ in all this are printed as the same text. -/
theorem printed_unambiguous_broken_off :
    (runSource true false [.coder] "(1").stdout none =
        (runSource false true [.evaluator] "(1").stdout (some .warn) ∧
      "(1" = "(1" ∧ runRecords [.coder] "(1" = runRecords [.evaluator] "(1" := by
  have hstdout : (runSource true false [.coder] "(1").stdout none =
      (runSource false true [.evaluator] "(1").stdout (some .warn) := by decide +kernel
  exact ⟨hstdout, printed_unambiguous.2 none (some .warn) true false false true [.coder]
    [.evaluator] "(1" "(1" hstdout⟩

/-- The blank line and the record in the source are part of the source; the record of the run is
the last line. -/
example : (runSource false false [.evaluator] "3\n\nLINE 0: 3").stdout none =
    "\tProgram: 3\n\nLINE 0: 3\n\nLINE 0: 3\n" := by decide +kernel

end GroupedArith
