/-
# `GroupedArith.Proofs.Acceptance` — which sources are read, and as what

## What is proved

For every source `s` and all expressions `es` (`parse_eq_ok_iff`)

    parse s = .ok es   ↔   every digit of `es` is at most nine,
                           the texts of `es` together are `s` without its layout,
                           every node carries the line where `s` opens it

The right-hand side does not mention the reader.  For the lines it goes through
the text of an expression: `e.marks` are its characters, and the one that opens a
node (its digit or its `(`) comes with the line of the node.

It follows that what expressions are written as is read as these expressions, on
one line, and that expressions with the same text differ in their lines at most.

The grammar on tokens is in between: the reader accepts what it spells
(`parse_eq_ok_iff_allSpelled`), and characters spell an expression if they are
its text and stand on the lines of its nodes (`Expr.allSpelled_iff`).
-/
import GroupedArith.Proofs.Layout
import GroupedArith.Proofs.Relining
import Mathlib.Data.List.Forall2

namespace GroupedArith

/-! ## The text of a tree, and the lines in it -/

def Expr.digits : Expr → List UInt8
  | digit v _ => [v]
  | group l _ r _ => l.digits ++ r.digits

/-- All digits are at most nine, as those of a source are. -/
def Expr.IsDecimal (e : Expr) : Prop := ∀ v ∈ e.digits, v ≤ 9

/-- The characters of the text of an expression, each with the line of the node that it opens. -/
def Expr.marks : Expr → List (Char × Option Nat)
  | digit v n =>
    match (toString v.toNat).toList with
    | [] => []
    | c :: cs => (c, some n) :: cs.map (·, none)
  | group l o r n => ('(', some n) :: (l.marks ++ (o.symbol, none) :: (r.marks ++ [(')', none)]))

/-- The text of expressions one after the other. -/
def renderAll (es : List Expr) : String := String.join (es.map Expr.render)

theorem Expr.map_fst_marks (e : Expr) : e.marks.map Prod.fst = e.render.toList := by
  induction e with
  | digit v n =>
      rw [marks, render]
      cases (toString v.toNat).toList with
      | nil => rfl
      | cons c cs => simp [Function.comp_def]
  | group l o r n ihl ihr => simp [marks, render, ihl, ihr, Char.toString]

theorem toList_renderAll (es : List Expr) :
    (renderAll es).toList = (es.flatMap Expr.marks).map Prod.fst := by
  rw [renderAll, String.toList_join, List.flatMap_map, List.map_flatMap]
  exact List.flatMap_congr fun e _ => (Expr.map_fst_marks e).symm

theorem Expr.marks_digit (d : Fin 10) (n : Nat) :
    (digit (.ofNat d) n).marks = [(Nat.digitChar d, some n)] := by
  rw [marks, toList_digit]
  rfl

/-! ## The lines of a tree that is moved -/

theorem Expr.digits_mapLines (f : Nat → Nat) (e : Expr) : (e.mapLines f).digits = e.digits := by
  induction e with
  | digit v n => rfl
  | group l o r n ihl ihr => rw [mapLines, digits, digits, ihl, ihr]

theorem Expr.marks_mapLines (f : Nat → Nat) (e : Expr) :
    (e.mapLines f).marks = e.marks.map fun m => (m.1, m.2.map f) := by
  induction e with
  | digit v n =>
      rw [mapLines, marks, marks]
      cases (toString v.toNat).toList with
      | nil => rfl
      | cons c cs => simp [Function.comp_def]
  | group l o r n ihl ihr => simp [mapLines, marks, ihl, ihr]

theorem renderAll_mapLines (f : Nat → Nat) (es : List Expr) :
    renderAll (es.map (Expr.mapLines f)) = renderAll es := by
  rw [renderAll, List.map_map, renderAll]
  congr 1
  exact List.map_congr_left fun e _ => Expr.render_mapLines f e

/-! ## Characters that spell an expression -/

theorem token_digitChar (d : Fin 10) (n : Nat) :
    Placed.token ⟨Nat.digitChar d, n⟩ = ⟨.digit d, n⟩ := by
  rw [Placed.token, ofChar_digitChar]

theorem token_opening (n : Nat) : Placed.token ⟨'(', n⟩ = ⟨.symbol '(', n⟩ := rfl

theorem token_closing (n : Nat) : Placed.token ⟨')', n⟩ = ⟨.symbol ')', n⟩ := rfl

theorem token_symbol (o : Op) (n : Nat) : Placed.token ⟨o.symbol, n⟩ = ⟨.symbol o.symbol, n⟩ := by
  cases o <;> rfl

/-- A placed character is the one that is marked, on the line that is marked. -/
def Placed.Fits (p : Placed) (m : Char × Option Nat) : Prop :=
  p.char = m.1 ∧ ∀ n, m.2 = some n → p.line = n

/-- Characters that fit two texts one after the other divide in two. -/
theorem forall₂_append_right_iff {ps : List Placed} {ms ks : List (Char × Option Nat)} :
    List.Forall₂ Placed.Fits ps (ms ++ ks) ↔
      ∃ us vs, ps = us ++ vs ∧ List.Forall₂ Placed.Fits us ms ∧ List.Forall₂ Placed.Fits vs ks := by
  constructor
  · intro h
    exact ⟨_, _, (List.take_append_drop ms.length ps).symm,
      List.forall₂_take_append ps ms ks h, List.forall₂_drop_append ps ms ks h⟩
  · rintro ⟨us, vs, rfl, hus, hvs⟩
    exact List.rel_append hus hvs

/-- Characters fit a text if they are its characters and those with a line stand on it. -/
theorem forall₂_fits_iff {ps : List Placed} {ms : List (Char × Option Nat)} :
    List.Forall₂ Placed.Fits ps ms ↔
      ms.map Prod.fst = ps.map Placed.char ∧
        ∀ (i : Nat) (c : Char) (n : Nat),
          ms[i]? = some (c, some n) → ps[i]? = some ⟨c, n⟩ := by
  induction ms generalizing ps with
  | nil =>
      rw [List.forall₂_nil_right_iff]
      constructor
      · rintro rfl
        exact ⟨rfl, fun i c n h => nomatch h⟩
      · rintro ⟨h, -⟩
        exact List.map_eq_nil_iff.mp h.symm
  | cons m ms ih =>
      rw [List.forall₂_cons_right_iff]
      constructor
      · rintro ⟨p, qs, ⟨hchar, hline⟩, hqs, rfl⟩
        obtain ⟨htext, hlines⟩ := ih.mp hqs
        refine ⟨by simp [htext, hchar], ?_⟩
        intro i c n h
        cases i with
        | zero =>
            obtain rfl : m = (c, some n) := by simpa using h
            have hn := hline n rfl
            subst hchar hn
            rfl
        | succ i => exact hlines i c n (by simpa using h)
      · rintro ⟨htext, hlines⟩
        obtain ⟨p, qs, rfl, hp, hqs⟩ := List.map_eq_cons_iff.mp htext.symm
        refine ⟨p, qs, ⟨hp, ?_⟩, ih.mpr ⟨hqs.symm, ?_⟩, rfl⟩
        · intro n hn
          have h0 := hlines 0 m.1 n (by simp [← hn])
          simp only [List.getElem?_cons_zero, Option.some.injEq] at h0
          rw [h0]
        · intro i c n h
          exact hlines (i + 1) c n (by simpa using h)

/-- What spells an expression are characters that fit its text. -/
theorem Expr.Spelled.fits {e : Expr} {ts : List Token} (h : e.Spelled ts) :
    ∀ {ps : List Placed}, ps.map Placed.token = ts →
      e.IsDecimal ∧ List.Forall₂ Placed.Fits ps e.marks := by
  induction h with
  | digit d n =>
      intro ps hps
      obtain ⟨p, qs, rfl, hp, hqs⟩ := List.map_eq_cons_iff.mp hps
      obtain rfl := List.map_eq_nil_iff.mp hqs
      have hdecimal : ∀ d : Fin 10, UInt8.ofNat d ≤ 9 := by decide
      rw [Expr.marks_digit, eq_of_token_eq hp]
      refine ⟨fun v hv => ?_, .cons ⟨rfl, fun m hm => Option.some.inj hm⟩ .nil⟩
      rw [List.mem_singleton.mp hv]
      exact hdecimal d
  | @group l r ts us o n m k _ _ ihl ihr =>
      intro ps hps
      obtain ⟨p, qs, rfl, hp, hqs⟩ := List.map_eq_cons_iff.mp hps
      obtain ⟨ls, ps', rfl, hls, hps'⟩ := List.map_eq_append_iff.mp hqs
      obtain ⟨q, qs', rfl, hq, hqs'⟩ := List.map_eq_cons_iff.mp hps'
      obtain ⟨rs, zs, rfl, hrs, hzs⟩ := List.map_eq_append_iff.mp hqs'
      obtain ⟨z, zs', rfl, hz, hzs'⟩ := List.map_eq_cons_iff.mp hzs
      obtain rfl := List.map_eq_nil_iff.mp hzs'
      obtain ⟨hdl, hfl⟩ := ihl hls
      obtain ⟨hdr, hfr⟩ := ihr hrs
      refine ⟨fun v hv => (List.mem_append.mp hv).elim (hdl v) (hdr v), ?_⟩
      rw [eq_of_token_eq hp, eq_of_token_eq hq, eq_of_token_eq hz]
      refine .cons ⟨rfl, fun m hm => Option.some.inj hm⟩ (List.rel_append hfl ?_)
      exact .cons ⟨rfl, fun m hm => nomatch hm⟩
        (List.rel_append hfr (.cons ⟨rfl, fun m hm => nomatch hm⟩ .nil))

theorem Expr.spelled_of_fits {e : Expr} {ps : List Placed} (hd : e.IsDecimal)
    (h : List.Forall₂ Placed.Fits ps e.marks) : e.Spelled (ps.map Placed.token) := by
  induction e generalizing ps with
  | digit v n =>
      obtain ⟨d, rfl⟩ := exists_digit_of_le (hd v (List.mem_singleton.mpr rfl))
      rw [marks_digit] at h
      obtain ⟨p, qs, ⟨hchar, hline⟩, hqs, rfl⟩ := List.forall₂_cons_right_iff.mp h
      obtain rfl := List.forall₂_nil_right_iff.mp hqs
      obtain ⟨c, m⟩ := p
      obtain rfl : c = Nat.digitChar d := hchar
      obtain rfl : m = n := hline n rfl
      rw [List.map_cons, token_digitChar]
      exact .digit d m
  | group l o r n ihl ihr =>
      rw [marks] at h
      obtain ⟨p, qs, ⟨hp, hline⟩, hqs, rfl⟩ := List.forall₂_cons_right_iff.mp h
      obtain ⟨ls, ps', rfl, hls, hps'⟩ := forall₂_append_right_iff.mp hqs
      obtain ⟨q, qs', ⟨hq, -⟩, hqs', rfl⟩ := List.forall₂_cons_right_iff.mp hps'
      obtain ⟨rs, zs, rfl, hrs, hzs⟩ := forall₂_append_right_iff.mp hqs'
      obtain ⟨z, zs', ⟨hz, -⟩, hzs', rfl⟩ := List.forall₂_cons_right_iff.mp hzs
      obtain rfl := List.forall₂_nil_right_iff.mp hzs'
      have hl := ihl (fun v hv => hd v (List.mem_append_left _ hv)) hls
      have hr := ihr (fun v hv => hd v (List.mem_append_right _ hv)) hrs
      obtain ⟨c, m⟩ := p
      obtain ⟨c', m'⟩ := q
      obtain ⟨c'', m''⟩ := z
      obtain rfl : c = '(' := hp
      obtain rfl : c' = o.symbol := hq
      obtain rfl : c'' = ')' := hz
      obtain rfl : m = n := hline n rfl
      simp only [List.map_cons, List.map_append, List.map_nil, token_opening, token_symbol,
        token_closing]
      exact .group o m m' m'' hl hr

theorem Expr.allSpelled_iff {es : List Expr} {ps : List Placed} :
    AllSpelled es (ps.map Placed.token) ↔
      (∀ e ∈ es, e.IsDecimal) ∧ List.Forall₂ Placed.Fits ps (es.flatMap marks) := by
  constructor
  · intro h
    generalize hts : ps.map Placed.token = ts at h
    induction h generalizing ps with
    | nil =>
        obtain rfl := List.map_eq_nil_iff.mp hts
        exact ⟨fun e he => absurd he List.not_mem_nil, .nil⟩
    | cons he _ ih =>
        obtain ⟨us, vs, rfl, hus, hvs⟩ := List.map_eq_append_iff.mp hts
        obtain ⟨hd, hfits⟩ := he.fits hus
        obtain ⟨hds, hrest⟩ := ih hvs
        exact ⟨List.forall_mem_cons.mpr ⟨hd, hds⟩, List.rel_append hfits hrest⟩
  · rintro ⟨hd, h⟩
    induction es generalizing ps with
    | nil =>
        obtain rfl := List.forall₂_nil_right_iff.mp h
        exact .nil
    | cons e es ih =>
        obtain ⟨us, vs, rfl, hus, hvs⟩ := forall₂_append_right_iff.mp h
        obtain ⟨hde, hds⟩ := List.forall_mem_cons.mp hd
        rw [List.map_append]
        exact .cons (spelled_of_fits hde hus) (ih hds hvs)

/-! ## Sources -/

/-- The end of the source comes last. -/
theorem eq_of_tokens_eq {ps : List Placed} {n : Nat} {ts us : List Token} {t : Token}
    (h : ps.map Placed.token ++ [.endOfInput n] = ts ++ t :: us) (ht : t.isEndOfInput = true) :
    ts = ps.map Placed.token := by
  induction ts generalizing ps with
  | nil =>
      cases ps with
      | nil => rfl
      | cons p ps =>
          obtain ⟨rfl, -⟩ := List.cons.inj h
          rw [isEndOfInput_token] at ht
          exact nomatch ht
  | cons x ts ih =>
      cases ps with
      | nil => exact absurd (List.cons.inj h).2 (by simp)
      | cons p ps =>
          obtain ⟨rfl, hrest⟩ := List.cons.inj h
          rw [ih hrest, List.map_cons]

/-- A source is read if it is spelled by the grammar. -/
theorem parse_eq_ok_iff_allSpelled {s : String} {es : List Expr} :
    parse s = .ok es ↔ Expr.AllSpelled es ((place 0 s.toList).map Placed.token) := by
  constructor
  · intro h
    obtain ⟨ts, t, r, hstop⟩ := (Cursor.ofString s).exists_stopsAt
    rw [parse_eq_parsed, hstop.parsed_eq] at h
    obtain ⟨rfl, hend⟩ := Reached.verdict_eq_ok_iff.mp h
    obtain ⟨us, hus⟩ := hstop.tokens
    rw [List.append_assoc] at hus
    rw [← show ts = (place 0 s.toList).map Placed.token from eq_of_tokens_eq hus.symm hend]
    exact Reached.allSpelled_of_spelled (Reached.advance?_eq_some_iff.mp hstop.reached)
  · intro h
    have hstop : (Cursor.ofString s).StopsAt ((place 0 s.toList).map Placed.token)
        (.endOfInput (Cursor.ofString s).endLine) ⟨es, .operand []⟩ :=
      ⟨List.prefix_rfl, Reached.advance?_exprs h [], rfl⟩
    rw [parse_eq_parsed, hstop.parsed_eq]
    rfl

/-- The text of decimal expressions has no layout. -/
theorem Expr.IsDecimal.isLayout_eq_false {e : Expr} (h : e.IsDecimal) :
    ∀ c ∈ e.render.toList, isLayout c = false := by
  induction e with
  | digit v n =>
      obtain ⟨d, rfl⟩ := exists_digit_of_le (h v (List.mem_singleton.mpr rfl))
      intro c hc
      rw [render, toList_digit] at hc
      rw [List.mem_singleton.mp hc]
      exact isLayout_digitChar d
  | group l o r n ihl ihr =>
      obtain ⟨hl, hr⟩ := List.forall_mem_append.mp h
      have ho : isLayout o.symbol = false := by cases o <;> rfl
      intro c hc
      simp only [render, String.toList_append, List.mem_append, Char.toString,
        String.toList_singleton, List.mem_singleton] at hc
      rcases hc with (((hc | hc) | hc) | hc) | hc
      · rw [show c = '(' by simpa using hc]
        rfl
      · exact ihl hl c hc
      · rw [hc]
        exact ho
      · exact ihr hr c hc
      · rw [show c = ')' by simpa using hc]
        rfl

/-- A text without layout has all its characters on the first line. -/
theorem place_eq_map {text : List Char} (h : ∀ c ∈ text, isLayout c = false) :
    place 0 text = text.map (⟨·, 0⟩) := by
  induction text with
  | nil => rfl
  | cons c text ih =>
      obtain ⟨hc, htext⟩ := List.forall_mem_cons.mp h
      rw [place_significant 0 text hc, ih htext, List.map_cons]

theorem isLayout_renderAll {es : List Expr} (h : ∀ e ∈ es, e.IsDecimal) :
    ∀ c ∈ (renderAll es).toList, isLayout c = false := by
  intro c hc
  rw [renderAll, String.toList_join, List.flatMap_map] at hc
  obtain ⟨e, he, hce⟩ := List.mem_flatMap.mp hc
  exact (h e he).isLayout_eq_false c hce

/-- The source is read as `es`, in terms of its text alone. -/
theorem parse_eq_ok_iff_text {s : String} {es : List Expr} :
    parse s = .ok es ↔
      (∀ e ∈ es, e.IsDecimal) ∧
        renderAll es = .ofList (significant s.toList) ∧
        ∀ (i : Nat) (c : Char) (n : Nat),
          (es.flatMap Expr.marks)[i]? = some (c, some n) → StandsAt s.toList i c n := by
  rw [parse_eq_ok_iff_allSpelled, Expr.allSpelled_iff, forall₂_fits_iff, map_char_place,
    ← toList_renderAll, ← String.toList_inj, String.toList_ofList]
  simp only [getElem?_place_iff]

/-- What decimal expressions are written as is read as these expressions, on one line. -/
theorem parse_renderAll {es : List Expr} (h : ∀ e ∈ es, e.IsDecimal) :
    parse (renderAll es) = .ok (es.map (Expr.mapLines fun _ => 0)) := by
  have hlayout := isLayout_renderAll h
  refine parse_eq_ok_iff_text.mpr ⟨?_, ?_, ?_⟩
  · intro e' he'
    obtain ⟨e, he, rfl⟩ := List.mem_map.mp he'
    intro v hv
    rw [Expr.digits_mapLines] at hv
    exact h e he v hv
  · have hall : significant (renderAll es).toList = (renderAll es).toList :=
      List.filter_eq_self.mpr fun c hc => by rw [hlayout c hc]; rfl
    rw [renderAll_mapLines, hall, String.ofList_toList]
  · intro i c n hmark
    rw [List.flatMap_map, List.flatMap_congr fun e _ => Expr.marks_mapLines _ e,
      ← List.map_flatMap, List.getElem?_map] at hmark
    obtain ⟨⟨c', o⟩, hget, heq⟩ := Option.map_eq_some_iff.mp hmark
    obtain ⟨rfl, ho⟩ := Prod.mk.inj heq
    obtain ⟨m, -, rfl⟩ := Option.map_eq_some_iff.mp ho
    rw [← getElem?_place_iff, place_eq_map hlayout, toList_renderAll, List.getElem?_map,
      List.getElem?_map, hget]
    rfl

/-- A source is read as some expressions if and only if their digits are at most nine, their texts
are the source without its layout, and each node carries the number of line breaks before the
character that opens it.  So decimal expressions are read back from their text, on one line, and
no two with the same text differ in more than their lines. -/
theorem parse_eq_ok_iff :
    (∀ (s : String) (es : List Expr), parse s = .ok es ↔
      (∀ e ∈ es, e.IsDecimal) ∧
        renderAll es = .ofList (significant s.toList) ∧
        ∀ (i : Nat) (c : Char) (n : Nat),
          (es.flatMap Expr.marks)[i]? = some (c, some n) → StandsAt s.toList i c n) ∧
      (∀ es : List Expr, parse (renderAll es) = .ok (es.map (Expr.mapLines fun _ => 0)) ↔
        ∀ e ∈ es, e.IsDecimal) ∧
      ∀ es fs : List Expr, (∀ e ∈ es, e.IsDecimal) → (∀ e ∈ fs, e.IsDecimal) →
        renderAll es = renderAll fs →
        es.map (Expr.mapLines fun _ => 0) = fs.map (Expr.mapLines fun _ => 0) := by
  refine ⟨fun s es => parse_eq_ok_iff_text, fun es => ⟨fun h => ?_, parse_renderAll⟩, ?_⟩
  · have hd := (parse_eq_ok_iff_text.mp h).1
    intro e he v hv
    exact hd _ (List.mem_map_of_mem he) v (by rwa [Expr.digits_mapLines])
  · intro es fs hes hfs htext
    have h := parse_renderAll hes
    rw [htext, parse_renderAll hfs] at h
    exact (Except.ok.inj h).symm

example : parse "(1+\n2) 3" = .ok [.group (.digit 1 0) .add (.digit 2 1) 0, .digit 3 1] := by cbv

end GroupedArith
