/-
# `GroupedArith.Proofs.Spacing` — layout moves lines and does nothing else

Two sources are compared that are the same without their layout.  The reports of
all engines on them then differ in the lines at most: both have an error or none
has, the errors are of one kind with one fragment, and the trees and records are
the same one by one (`reportAll_congr`).  If moreover each character stands on the
same line in both and both end on the same line, nothing differs at all.

So it makes no difference how lines are indented or whether they end in a carriage
return: what does not break a line can be left out (`unindented`).

## What the proof goes through

    tokens      the same in both, up to lines                     `map_mapLine_tokens`
    answer      given by the tokens up to the first refused one   `mapAnswer_parse_congr`
    reports     made from the trees, line for line                `Report.mapLines_fresh`

For the answer it has to be known that the first refused token is one and the same
in both.  The reader does not look at lines (`Reached.advance?_mapLines`), so each
source refuses, with its lines left out, a token of the same list of tokens; and in
a list there is no second one (`Reached.eq_of_refused`).
-/
import GroupedArith.Proofs.Delivery
import GroupedArith.Proofs.Layout
import GroupedArith.Proofs.Relining
import Mathlib.Data.List.Basic

namespace GroupedArith

/-! ## The first refused token -/

namespace Reached

/-- What is read leads past no token that is refused. -/
theorem not_prefix_of_refused {ts us : List Token} {t : Token} {r s : Reached}
    (hr : start.advance? ts = some r) (ht : r.awaiting.accept? t = none)
    (hs : start.advance? us = some s) : ¬ ts ++ [t] <+: us := by
  rintro ⟨vs, rfl⟩
  rw [advance?_append, advance?_append, hr, Option.bind_some] at hs
  have hrefused : r.advance? [t] = none := by
    simp only [advance?, accept?, ht, Option.map_none, Option.bind_none]
  rw [hrefused, Option.bind_none] at hs
  exact Option.some_ne_none s hs.symm

/-- In a list of tokens there is one place at most where a token is refused first. -/
theorem eq_of_refused {l ts us : List Token} {t u : Token} {r s : Reached}
    (hts : ts ++ [t] <+: l) (hr : start.advance? ts = some r) (ht : r.awaiting.accept? t = none)
    (hus : us ++ [u] <+: l) (hs : start.advance? us = some s) (hu : s.awaiting.accept? u = none) :
    ts = us ∧ t = u := by
  have hsame : ts ++ [t] = us ++ [u] := by
    rcases List.prefix_or_prefix_of_prefix hts hus with h | h
    · rcases List.prefix_concat_iff.mp h with heq | hshort
      · exact heq
      · exact absurd hshort (not_prefix_of_refused hr ht hs)
    · rcases List.prefix_concat_iff.mp h with heq | hshort
      · exact heq.symm
      · exact absurd hshort (not_prefix_of_refused hs hu hr)
  obtain ⟨hinit, hlast⟩ := List.append_inj' hsame rfl
  exact ⟨hinit, List.singleton_inj.mp hlast⟩

end Reached

namespace Cursor

/-- The place where reading stops, on other lines. -/
theorem StopsAt.mapLines {c : Cursor} {ts : List Token} {t : Token} {r : Reached}
    (h : c.StopsAt ts t r) (f : Nat → Nat) :
    ts.map (Token.mapLine f) ++ [t.mapLine f] <+: c.tokens.map (Token.mapLine f) ∧
      Reached.start.advance? (ts.map (Token.mapLine f)) = some (r.mapLines f) ∧
      (r.mapLines f).awaiting.accept? (t.mapLine f) = none := by
  refine ⟨?_, Reached.advance?_mapLines f h.reached, Awaiting.accept?_mapLines_eq_none f h.refused⟩
  have htokens := h.tokens.map (Token.mapLine f)
  rwa [List.map_append] at htokens

end Cursor

/-- Tokens that are the same up to lines have answers that are the same up to lines. -/
theorem mapAnswer_parse_congr {s t : String} (f : Nat → Nat)
    (h : (tokens s).map (Token.mapLine f) = (tokens t).map (Token.mapLine f)) :
    mapAnswer f (parse s) = mapAnswer f (parse t) := by
  obtain ⟨ts, x, r, hs⟩ := (Cursor.ofString s).exists_stopsAt
  obtain ⟨us, y, q, ht⟩ := (Cursor.ofString t).exists_stopsAt
  obtain ⟨hsource, hreached, hrefused⟩ := hs.mapLines f
  obtain ⟨hsource', hreached', hrefused'⟩ := ht.mapLines f
  have hlist : (Cursor.ofString s).tokens.map (Token.mapLine f) =
      (Cursor.ofString t).tokens.map (Token.mapLine f) := h
  rw [hlist] at hsource
  obtain ⟨htokens, htoken⟩ := Reached.eq_of_refused hsource hreached hrefused hsource' hreached'
    hrefused'
  rw [htokens, hreached'] at hreached
  have hreach : r.mapLines f = q.mapLines f := (Option.some.inj hreached).symm
  rw [parse_eq_parsed, hs.parsed_eq, parse_eq_parsed, ht.parsed_eq, ← Reached.verdict_mapLine,
    ← Reached.verdict_mapLine, hreach, htoken]

/-! ## Reports on other lines -/

def Instruction.mapLine (f : Nat → Nat) (i : Instruction) : Instruction :=
  { i with line := f i.line }

def Answer.mapLine (f : Nat → Nat) (a : Answer) : Answer := { a with line := f a.line }

def Record.mapLine (f : Nat → Nat) : Record → Record
  | instruction i => instruction (i.mapLine f)
  | result a => result (a.mapLine f)

def Report.mapLines (f : Nat → Nat) (r : Report) : Report :=
  ⟨r.expr.mapLines f, r.records.map (Record.mapLine f)⟩

/-- The reports on a source, or its error, with other lines. -/
def mapReports (f : Nat → Nat) : Except SyntaxError (List Report) → Except SyntaxError (List Report)
  | .ok rs => .ok (rs.map (Report.mapLines f))
  | .error e => .error (e.mapLine f)

section Lines
variable (f : Nat → Nat)

@[simp] theorem Expr.line_mapLines (e : Expr) : (e.mapLines f).line = f e.line := by
  cases e <;> rfl

@[simp] theorem Expr.value_mapLines (e : Expr) : (e.mapLines f).value = e.value := by
  induction e with
  | digit v n => rfl
  | group l o r n ihl ihr => rw [mapLines, value, value, ihl, ihr]

theorem Expr.body_mapLines (e : Expr) :
    (e.mapLines f).body = e.body.map (Instruction.mapLine f) := by
  induction e with
  | digit v n => rfl
  | group l o r n ihl ihr =>
      rw [mapLines, body, body, ihl, ihr, List.map_append, List.map_append]
      rfl

theorem Expr.code_mapLines (e : Expr) :
    (e.mapLines f).code = e.code.map (Instruction.mapLine f) := by
  rw [code, code, body_mapLines, line_mapLines, List.map_append]
  rfl

/-- What an engine says of an expression on other lines. -/
theorem Engine.records_mapLines (e : Expr) (g : Engine) :
    g.records (e.mapLines f) = (g.records e).map (Record.mapLine f) := by
  cases g with
  | coder =>
      rw [records, records, Expr.code_mapLines, List.map_map, List.map_map]
      rfl
  | evaluator =>
      rw [records, records, Answer.ofExpr, Expr.value_mapLines, Expr.line_mapLines]
      rfl

theorem Report.mapLines_fresh (engines : List Engine) (e : Expr) :
    (fresh engines e).mapLines f = fresh engines (e.mapLines f) := by
  have hrecords : (fresh engines e).records.map (Record.mapLine f) =
      (fresh engines (e.mapLines f)).records := by
    rw [records_fresh, records_fresh, List.map_flatMap]
    exact List.flatMap_congr fun g _ => (Engine.records_mapLines f e g).symm
  exact congrArg (Report.mk (e.mapLines f)) hrecords

/-- The reports on a source depend on its lines as its trees do. -/
theorem mapReports_reportAll (s : String) :
    mapReports f (reportAll s) =
      (mapAnswer f (parse s)).map (List.map (Report.fresh Engine.all)) := by
  rw [reportAll_eq]
  cases parse s with
  | ok es =>
      have hreports : (es.map (Report.fresh Engine.all)).map (Report.mapLines f) =
          (es.map (Expr.mapLines f)).map (Report.fresh Engine.all) := by
        rw [List.map_map, List.map_map]
        exact List.map_congr_left fun e _ => Report.mapLines_fresh f Engine.all e
      exact congrArg Except.ok hreports
  | error err => rfl

end Lines

/-! ## Layout -/

/-- Without their lines the tokens are those of the significant characters. -/
theorem map_mapLine_tokens (s : String) :
    (tokens s).map (Token.mapLine fun _ => 0) =
      (significant s.toList).map (fun c => ⟨.ofChar c, 0⟩) ++ [.endOfInput 0] := by
  rw [← map_char_place 0, tokens, Cursor.tokens, List.map_append, List.map_map, List.map_map]
  rfl

/-- A source is known by where its characters stand and by its last line. -/
theorem Cursor.ofString_congr {s t : String} (hplace : place 0 s.toList = place 0 t.toList)
    (hend : s.toList.count '\n' = t.toList.count '\n') : ofString s = ofString t := by
  rw [ofString, ofString, hplace, hend]

/-- The characters are in the same places if they are the same, each on the same line. -/
theorem place_congr {as bs : List Char} (h : significant as = significant bs)
    (hlines : ∀ (i : Nat) (c : Char) (n m : Nat), StandsAt as i c n → StandsAt bs i c m → n = m) :
    place 0 as = place 0 bs := by
  have hchars : (place 0 as).map Placed.char = (place 0 bs).map Placed.char := by
    rw [map_char_place, map_char_place, h]
  have hlength : (place 0 as).length = (place 0 bs).length := by
    simpa using congrArg List.length hchars
  refine List.ext_getElem hlength fun i hi hi' => ?_
  have hchar : (place 0 as)[i].char = (place 0 bs)[i].char := by
    have hget := List.getElem_of_eq hchars (by simpa using hi)
    simpa using hget
  have hline : (place 0 as)[i].line = (place 0 bs)[i].line :=
    hlines i (place 0 as)[i].char _ _ (getElem?_place_iff.mp (List.getElem?_eq_getElem hi))
      (getElem?_place_iff.mp (by rw [hchar]; exact List.getElem?_eq_getElem hi'))
  calc (place 0 as)[i] = ⟨(place 0 as)[i].char, (place 0 as)[i].line⟩ := rfl
    _ = ⟨(place 0 bs)[i].char, (place 0 bs)[i].line⟩ := by rw [hchar, hline]

/-- The text without the layout that does not break a line. -/
def unindented (text : List Char) : List Char := text.filter fun c => c == '\n' || !isLayout c

theorem place_unindented (n : Nat) (text : List Char) :
    place n (unindented text) = place n text := by
  induction text generalizing n with
  | nil => rfl
  | cons c text ih =>
      rcases char_cases c with rfl | ⟨hn, hc⟩ | ⟨hn, hc⟩
      · rw [place_newline, ← ih]
        rfl
      · rw [place_layout n text hn hc, ← ih, unindented, List.filter_cons_of_neg (by simp [hn, hc])]
        rfl
      · rw [place_significant n text hc, ← ih, unindented, List.filter_cons_of_pos (by simp [hc]),
          place_significant n _ hc]
        rfl

theorem count_unindented (text : List Char) : (unindented text).count '\n' = text.count '\n' :=
  List.count_filter rfl

/-- Sources that are the same without their layout have the same reports up to lines, or the same
error up to its line.  If each character stands on the same line in both, and both end on the same
line, the reports or errors are equal; so they are if the sources differ in blanks, tabs and
carriage returns only. -/
theorem reportAll_congr {s t : String} (h : significant s.toList = significant t.toList) :
    mapReports (fun _ => 0) (reportAll s) = mapReports (fun _ => 0) (reportAll t) ∧
      ((∀ (i : Nat) (c : Char) (n m : Nat),
          StandsAt s.toList i c n → StandsAt t.toList i c m → n = m) →
        s.toList.count '\n' = t.toList.count '\n' → reportAll s = reportAll t) ∧
      (unindented s.toList = unindented t.toList → reportAll s = reportAll t) := by
  refine ⟨?_, ?_, ?_⟩
  · have htokens : (tokens s).map (Token.mapLine fun _ => 0) =
        (tokens t).map (Token.mapLine fun _ => 0) := by
      rw [map_mapLine_tokens, map_mapLine_tokens, h]
    rw [mapReports_reportAll, mapReports_reportAll, mapAnswer_parse_congr _ htokens]
  · intro hlines hend
    have hsource : Cursor.ofString s = Cursor.ofString t :=
      Cursor.ofString_congr (place_congr h hlines) hend
    rw [reportAll, reportAll, Session.ofString, Session.ofString, hsource]
  · intro hunindented
    have hsource : Cursor.ofString s = Cursor.ofString t := by
      refine Cursor.ofString_congr ?_ ?_
      · rw [← place_unindented, hunindented, place_unindented]
      · rw [← count_unindented, hunindented, count_unindented]
    rw [reportAll, reportAll, Session.ofString, Session.ofString, hsource]

/-- Sources that differ in how they are indented and how their lines end, and sources with an error
that are broken into lines in different places. -/
theorem reportAll_congr_line_ends :
    significant "(1+\r\n\t2)\r\n 3".toList = significant "( 1\t+\n2)\n3".toList ∧
      (∀ (i : Nat) (c : Char) (n m : Nat), StandsAt "(1+\r\n\t2)\r\n 3".toList i c n →
        StandsAt "( 1\t+\n2)\n3".toList i c m → n = m) ∧
      "(1+\r\n\t2)\r\n 3".toList.count '\n' = "( 1\t+\n2)\n3".toList.count '\n' ∧
      reportAll "(1+\r\n\t2)\r\n 3" = reportAll "( 1\t+\n2)\n3" ∧
      significant "4 (1\n+2".toList = significant "4\n( 1+2\n".toList ∧
      mapReports (fun _ => 0) (reportAll "4 (1\n+2") =
        mapReports (fun _ => 0) (reportAll "4\n( 1+2\n") := by
  have hsame : significant "(1+\r\n\t2)\r\n 3".toList = significant "( 1\t+\n2)\n3".toList := by
    decide
  have hlines : ∀ (i : Nat) (c : Char) (n m : Nat), StandsAt "(1+\r\n\t2)\r\n 3".toList i c n →
      StandsAt "( 1\t+\n2)\n3".toList i c m → n = m := by
    intro i c n m hn hm
    have hplace : place 0 "(1+\r\n\t2)\r\n 3".toList = place 0 "( 1\t+\n2)\n3".toList := by decide
    rw [← getElem?_place_iff, hplace, getElem?_place_iff.mpr hm] at hn
    exact (Placed.mk.inj (Option.some.inj hn)).2.symm
  have hend : "(1+\r\n\t2)\r\n 3".toList.count '\n' = "( 1\t+\n2)\n3".toList.count '\n' := by
    decide
  have herror : significant "4 (1\n+2".toList = significant "4\n( 1+2\n".toList := by decide
  exact ⟨hsame, hlines, hend, (reportAll_congr hsame).2.1 hlines hend, herror,
    (reportAll_congr herror).1⟩

end GroupedArith
