/-
# `GroupedArith.Proofs.Spelling` — which tokens lead how far

The grammar, as a relation between trees and tokens:

    e.Spelled ts                   the expression `e` is written with the tokens `ts`
    Expr.AllSpelled es ts          the expressions `es`, one after the other
    g.Spelled ts                   the open group `g`, as far as it goes: `(` or `( e o`
    OpenGroup.AllSpelled gs ts     open groups inside each other, the innermost one first
    a.Spelled ts                   the open groups of `a`, and what was read of the innermost:
                                   nothing more, `( e`, or `( e o e`

A tree keeps the line of its digit or of its `(`.  The operator and the `)` may
stand on any line, which is why this is a relation and no function.

## What is proved

A `Reached` says how far a whole source has been read: the complete expressions,
and what the reader needs for the next one.  For all tokens `ts` and all `r`

    Reached.start.advance? ts = some r   ↔   r.Spelled ts

so that the reader gets exactly as far as the tokens are a beginning of a source
(`Reached.advance?_eq_some_iff`).  From left to right this is an invariant of
one step (`Awaiting.Accepts.spelled`), from right to left an induction on the
grammar.
-/
import GroupedArith.Reading.Awaiting

namespace GroupedArith

/-! ## The grammar -/

inductive Expr.Spelled : Expr → List Token → Prop
  | digit (d : Fin 10) (n : Nat) : Spelled (.digit (.ofNat d) n) [⟨.digit d, n⟩]
  | group {l r : Expr} {ts us : List Token} (o : Op) (n m k : Nat) :
      Spelled l ts → Spelled r us →
      Spelled (.group l o r n)
        (⟨.symbol '(', n⟩ :: (ts ++ ⟨.symbol o.symbol, m⟩ :: (us ++ [⟨.symbol ')', k⟩])))

inductive Expr.AllSpelled : List Expr → List Token → Prop
  | nil : AllSpelled [] []
  | cons {e : Expr} {es : List Expr} {ts us : List Token} :
      e.Spelled ts → AllSpelled es us → AllSpelled (e :: es) (ts ++ us)

inductive OpenGroup.Spelled : OpenGroup → List Token → Prop
  | left (n : Nat) : Spelled (.left n) [⟨.symbol '(', n⟩]
  | right {l : Expr} {ts : List Token} (o : Op) (n m : Nat) :
      l.Spelled ts →
      Spelled (.right n l o) (⟨.symbol '(', n⟩ :: (ts ++ [⟨.symbol o.symbol, m⟩]))

inductive OpenGroup.AllSpelled : List OpenGroup → List Token → Prop
  | nil : AllSpelled [] []
  | cons {g : OpenGroup} {outer : List OpenGroup} {ts us : List Token} :
      AllSpelled outer ts → g.Spelled us → AllSpelled (g :: outer) (ts ++ us)

inductive Awaiting.Spelled : Awaiting → List Token → Prop
  | operand {outer : List OpenGroup} {ts : List Token} :
      OpenGroup.AllSpelled outer ts → Spelled (.operand outer) ts
  | operator {l : Expr} {outer : List OpenGroup} {ts us : List Token} (n : Nat) :
      OpenGroup.AllSpelled outer ts → l.Spelled us →
      Spelled (.operator n l outer) (ts ++ ⟨.symbol '(', n⟩ :: us)
  | closing {l r : Expr} {outer : List OpenGroup} {ts us vs : List Token} (o : Op) (n m : Nat) :
      OpenGroup.AllSpelled outer ts → l.Spelled us → r.Spelled vs →
      Spelled (.closing n l o r outer)
        (ts ++ ⟨.symbol '(', n⟩ :: (us ++ ⟨.symbol o.symbol, m⟩ :: vs))

def Progress.Spelled : Progress → List Token → Prop
  | .more a, ts => a.Spelled ts
  | .done e, ts => e.Spelled ts

theorem Expr.AllSpelled.append {es fs : List Expr} {ts us : List Token}
    (hes : AllSpelled es ts) (hfs : AllSpelled fs us) : AllSpelled (es ++ fs) (ts ++ us) := by
  induction hes with
  | nil => exact hfs
  | cons h _ ih =>
      rw [List.append_assoc]
      exact .cons h ih

/-- One expression more, at the end. -/
theorem Expr.AllSpelled.concat {es : List Expr} {e : Expr} {ts us : List Token}
    (hes : AllSpelled es ts) (he : e.Spelled us) : AllSpelled (es ++ [e]) (ts ++ us) := by
  have hone : AllSpelled [e] us := by simpa using AllSpelled.cons he .nil
  exact hes.append hone

/-- A complete operand takes the group around it further. -/
theorem Progress.ofExpr_spelled {e : Expr} {outer : List OpenGroup} {ts us : List Token}
    (ho : OpenGroup.AllSpelled outer ts) (he : e.Spelled us) :
    (ofExpr e outer).Spelled (ts ++ us) := by
  cases ho with
  | nil => exact he
  | cons houter hg =>
      rw [List.append_assoc]
      cases hg with
      | left n => exact .operator n houter he
      | right o n m hl =>
          simp only [List.cons_append, List.append_assoc, List.nil_append]
          exact .closing o n m houter hl he

/-! ## One step -/

theorem Op.ofChar?_eq_some_iff {c : Char} {o : Op} : Op.ofChar? c = some o ↔ c = o.symbol := by
  constructor
  · intro h
    unfold Op.ofChar? at h
    split at h
    · cases h; rfl
    · cases h; rfl
    · exact nomatch h
  · intro h
    subst h
    cases o <;> rfl

inductive Awaiting.Accepts : Awaiting → Token → Progress → Prop
  | digit (outer : List OpenGroup) (d : Fin 10) (n : Nat) :
      Accepts (.operand outer) ⟨.digit d, n⟩ (.ofExpr (.digit (.ofNat d) n) outer)
  | opens (outer : List OpenGroup) (n : Nat) :
      Accepts (.operand outer) ⟨.symbol '(', n⟩ (.more (.operand (.left n :: outer)))
  | operator (n : Nat) (l : Expr) (outer : List OpenGroup) (o : Op) (m : Nat) :
      Accepts (.operator n l outer) ⟨.symbol o.symbol, m⟩ (.more (.operand (.right n l o :: outer)))
  | closes (n : Nat) (l : Expr) (o : Op) (r : Expr) (outer : List OpenGroup) (k : Nat) :
      Accepts (.closing n l o r outer) ⟨.symbol ')', k⟩ (.ofExpr (.group l o r n) outer)

/-- `Awaiting.accept?` takes these steps and no others. -/
theorem Awaiting.accept?_eq_some_iff {a : Awaiting} {t : Token} {p : Progress} :
    a.accept? t = some p ↔ a.Accepts t p := by
  constructor
  · intro h
    unfold accept? at h
    split at h
    · cases h; exact .digit _ _ _
    · cases h; exact .opens _ _
    · obtain ⟨o, ho, hp⟩ := Option.map_eq_some_iff.mp h
      cases Op.ofChar?_eq_some_iff.mp ho
      cases hp
      exact .operator _ _ _ _ _
    · cases h; exact .closes _ _ _ _ _ _
    · exact nomatch h
  · intro h
    cases h with
    | digit => rfl
    | opens => rfl
    | operator n l outer o m =>
        simp only [accept?, Op.ofChar?_eq_some_iff.mpr rfl, Option.map_some]
    | closes => rfl

/-- The kinds of tokens that can stand where the reader is. -/
def Awaiting.Wants : Awaiting → Token.Kind → Prop
  | operand _, k => (∃ d, k = .digit d) ∨ k = .symbol '('
  | operator _ _ _, k => k = .symbol '+' ∨ k = .symbol '*'
  | closing _ _ _ _ _, k => k = .symbol ')'

theorem Awaiting.Accepts.wants {a : Awaiting} {t : Token} {p : Progress} (h : a.Accepts t p) :
    a.Wants t.kind := by
  cases h with
  | digit outer d n => exact Or.inl ⟨d, rfl⟩
  | opens => exact Or.inr rfl
  | operator n l outer o m =>
      cases o with
      | add => exact Or.inl rfl
      | mul => exact Or.inr rfl
  | closes => exact (rfl : Token.Kind.symbol ')' = .symbol ')')

theorem Awaiting.accept?_eq_none_iff {a : Awaiting} {t : Token} :
    a.accept? t = none ↔ ¬ a.Wants t.kind := by
  constructor
  · intro h hw
    obtain ⟨kind, n⟩ := t
    cases a with
    | operand outer =>
        rcases hw with ⟨d, rfl⟩ | rfl
        · exact nomatch h
        · exact nomatch h
    | operator m l outer =>
        rcases hw with rfl | rfl
        · exact nomatch h
        · exact nomatch h
    | closing m l o r outer =>
        cases hw
        exact nomatch h
  · intro h
    cases hp : a.accept? t with
    | none => rfl
    | some p => exact absurd (accept?_eq_some_iff.mp hp).wants h

/-- An accepted token is the next one of the beginning that was read. -/
theorem Awaiting.Accepts.spelled {a : Awaiting} {t : Token} {p : Progress} {ts : List Token}
    (h : a.Accepts t p) (ha : a.Spelled ts) : p.Spelled (ts ++ [t]) := by
  cases h with
  | digit outer d n =>
      cases ha with
      | operand ho => exact Progress.ofExpr_spelled ho (.digit d n)
  | opens outer n =>
      cases ha with
      | operand ho => exact Awaiting.Spelled.operand (.cons ho (.left n))
  | operator n l outer o m =>
      cases ha with
      | operator _ ho hl =>
          rw [List.append_assoc]
          exact Awaiting.Spelled.operand (.cons ho (.right o n m hl))
  | closes n l o r outer k =>
      cases ha with
      | closing _ _ m ho hl hr =>
          rw [List.append_assoc]
          have hgroup := Expr.Spelled.group o n m k hl hr
          simpa using Progress.ofExpr_spelled ho hgroup

/-! ## A whole source -/

/-- How far a source has been read. -/
structure Reached where
  exprs : List Expr
  awaiting : Awaiting
  deriving DecidableEq, Repr

namespace Reached

def start : Reached := ⟨[], .operand []⟩

/-- What a step within an expression means for the source. -/
def ofProgress (es : List Expr) : Progress → Reached
  | .more a => ⟨es, a⟩
  | .done e => ⟨es ++ [e], .operand []⟩

/-- One token further, or `none` if the token cannot stand here. -/
def accept? (r : Reached) (t : Token) : Option Reached :=
  (r.awaiting.accept? t).map (ofProgress r.exprs)

/-- Some tokens further, if all of them can stand where they do. -/
def advance? (r : Reached) : List Token → Option Reached
  | [] => some r
  | t :: ts => (r.accept? t).bind (·.advance? ts)

/-- What was read of a source: complete expressions, and the beginning of another one. -/
def Spelled (r : Reached) (ts : List Token) : Prop :=
  ∃ us vs, ts = us ++ vs ∧ Expr.AllSpelled r.exprs us ∧ r.awaiting.Spelled vs

/-- Between two expressions everything that was read belongs to complete ones. -/
theorem allSpelled_of_spelled {es : List Expr} {ts : List Token}
    (h : Spelled ⟨es, .operand []⟩ ts) : Expr.AllSpelled es ts := by
  obtain ⟨us, vs, rfl, hes, ha⟩ := h
  cases ha with
  | operand ho =>
      cases ho
      rwa [List.append_nil]

theorem advance?_append (r : Reached) (ts us : List Token) :
    r.advance? (ts ++ us) = (r.advance? ts).bind (·.advance? us) := by
  induction ts generalizing r with
  | nil => rfl
  | cons t ts ih =>
      cases h : r.accept? t with
      | none => simp only [List.cons_append, advance?, h, Option.bind_none]
      | some r' => simp only [List.cons_append, advance?, h, Option.bind_some, ih]

theorem start_spelled : start.Spelled [] := ⟨[], [], rfl, .nil, .operand .nil⟩

theorem ofProgress_spelled {es : List Expr} {p : Progress} {ts us : List Token}
    (hes : Expr.AllSpelled es ts) (hp : p.Spelled us) : (ofProgress es p).Spelled (ts ++ us) := by
  cases p with
  | more a => exact ⟨ts, us, rfl, hes, hp⟩
  | done e => exact ⟨ts ++ us, [], (List.append_nil _).symm, hes.concat hp, .operand .nil⟩

theorem accept?_spelled {r r' : Reached} {t : Token} {ts : List Token}
    (hr : r.Spelled ts) (h : r.accept? t = some r') : r'.Spelled (ts ++ [t]) := by
  obtain ⟨us, vs, rfl, hes, ha⟩ := hr
  obtain ⟨p, hp, rfl⟩ := Option.map_eq_some_iff.mp h
  rw [List.append_assoc]
  exact ofProgress_spelled hes ((Awaiting.accept?_eq_some_iff.mp hp).spelled ha)

/-- The invariant of reading: what was read is the beginning of a source that the state says it
is. -/
theorem advance?_spelled {r r' : Reached} {ts us : List Token}
    (hr : r.Spelled us) (h : r.advance? ts = some r') : r'.Spelled (us ++ ts) := by
  induction ts generalizing r us with
  | nil =>
      cases h
      simpa using hr
  | cons t ts ih =>
      obtain ⟨s, hs, hrest⟩ := Option.bind_eq_some_iff.mp h
      have := ih (accept?_spelled hr hs) hrest
      rwa [List.append_assoc] at this

/-! ### Every beginning of a source is read -/

theorem advance?_cons {es : List Expr} {a : Awaiting} {t : Token} {p : Progress} (ts : List Token)
    (h : a.Accepts t p) : advance? ⟨es, a⟩ (t :: ts) = (ofProgress es p).advance? ts := by
  simp only [advance?, accept?, Awaiting.accept?_eq_some_iff.mpr h, Option.map_some,
    Option.bind_some]

/-- An expression is read wherever one is needed, whatever follows. -/
theorem advance?_expr {e : Expr} {ts : List Token} (h : e.Spelled ts) :
    ∀ (es : List Expr) (outer : List OpenGroup) (us : List Token),
      advance? ⟨es, .operand outer⟩ (ts ++ us) =
        (ofProgress es (.ofExpr e outer)).advance? us := by
  induction h with
  | digit d n =>
      intro es outer us
      exact advance?_cons us (.digit outer d n)
  | @group l r ls rs o n m k _ _ ihl ihr =>
      intro es outer us
      calc advance? ⟨es, .operand outer⟩
            ((⟨.symbol '(', n⟩ :: (ls ++ ⟨.symbol o.symbol, m⟩ :: (rs ++ [⟨.symbol ')', k⟩]))) ++ us)
          = advance? ⟨es, .operand outer⟩
              (⟨.symbol '(', n⟩ :: (ls ++ (⟨.symbol o.symbol, m⟩ ::
                (rs ++ (⟨.symbol ')', k⟩ :: us))))) := by
            simp only [List.cons_append, List.append_assoc, List.nil_append]
        _ = advance? ⟨es, .operand (.left n :: outer)⟩
              (ls ++ (⟨.symbol o.symbol, m⟩ :: (rs ++ (⟨.symbol ')', k⟩ :: us)))) :=
            advance?_cons _ (.opens outer n)
        _ = advance? ⟨es, .operator n l outer⟩
              (⟨.symbol o.symbol, m⟩ :: (rs ++ (⟨.symbol ')', k⟩ :: us))) := ihl es _ _
        _ = advance? ⟨es, .operand (.right n l o :: outer)⟩ (rs ++ (⟨.symbol ')', k⟩ :: us)) :=
            advance?_cons _ (.operator n l outer o m)
        _ = advance? ⟨es, .closing n l o r outer⟩ (⟨.symbol ')', k⟩ :: us) := ihr es _ _
        _ = (ofProgress es (.ofExpr (.group l o r n) outer)).advance? us :=
            advance?_cons _ (.closes n l o r outer k)

theorem advance?_openGroup {g : OpenGroup} {ts : List Token} (h : g.Spelled ts)
    (es : List Expr) (outer : List OpenGroup) :
    advance? ⟨es, .operand outer⟩ ts = some ⟨es, .operand (g :: outer)⟩ := by
  cases h with
  | left n => exact advance?_cons [] (.opens outer n)
  | @right l ls o n m hl =>
      rw [advance?_cons _ (.opens outer n)]
      rw [ofProgress, advance?_expr hl es (.left n :: outer)]
      exact advance?_cons [] (.operator n l outer o m)

theorem advance?_openGroups {outer : List OpenGroup} {ts : List Token}
    (h : OpenGroup.AllSpelled outer ts) (es : List Expr) :
    advance? ⟨es, .operand []⟩ ts = some ⟨es, .operand outer⟩ := by
  induction h with
  | nil => rfl
  | cons _ hg ih => rw [advance?_append, ih, Option.bind_some, advance?_openGroup hg]

theorem advance?_awaiting {a : Awaiting} {ts : List Token} (h : a.Spelled ts) (es : List Expr) :
    advance? ⟨es, .operand []⟩ ts = some ⟨es, a⟩ := by
  cases h with
  | operand ho => exact advance?_openGroups ho es
  | @operator l outer ts us n ho hl =>
      rw [advance?_append, advance?_openGroups ho, Option.bind_some,
        advance?_cons _ (.opens outer n), ← List.append_nil us]
      exact advance?_expr hl es (.left n :: outer) []
  | @closing l r outer ts us vs o n m ho hl hr =>
      rw [advance?_append, advance?_openGroups ho, Option.bind_some,
        advance?_cons _ (.opens outer n), ofProgress, advance?_expr hl es (.left n :: outer),
        Progress.ofExpr, ofProgress, advance?_cons _ (.operator n l outer o m),
        ← List.append_nil vs]
      exact advance?_expr hr es (.right n l o :: outer) []

theorem advance?_exprs {es : List Expr} {ts : List Token} (h : Expr.AllSpelled es ts)
    (fs : List Expr) :
    advance? ⟨fs, .operand []⟩ ts = some ⟨fs ++ es, .operand []⟩ := by
  induction h generalizing fs with
  | nil => rw [List.append_nil]; rfl
  | @cons e es ts us he _ ih =>
      rw [advance?_expr he fs [], Progress.ofExpr, ofProgress, ih, List.append_assoc]
      rfl

theorem advance?_eq_some_iff {r : Reached} {ts : List Token} :
    start.advance? ts = some r ↔ r.Spelled ts := by
  constructor
  · intro h
    exact advance?_spelled start_spelled h
  · rintro ⟨us, vs, rfl, hes, ha⟩
    rw [advance?_append, start, advance?_exprs hes, Option.bind_some]
    exact advance?_awaiting ha r.exprs

end Reached

end GroupedArith
