/-
# `GroupedArith.Proofs.Layout` — which characters count, and where they stand

`significant text` is the text without its layout.  `StandsAt text i c n` says
that `c` is the character number `i` of what remains and that `n` line breaks
come before it in the text.  Both speak of the text only; the statements about
sources are made with them.

`place` does what they say: it lists the significant characters in order
(`map_char_place`), each on its line (`getElem?_place_iff`).  What comes behind a
text is placed as it would be alone, that many lines further down
(`place_append`, `place_add`).

The token of a character shows that character (`char_token`), and is never the
end of the source.
-/
import GroupedArith.Source

namespace GroupedArith

/-- The characters of a text that are not layout. -/
def significant (text : List Char) : List Char := text.filter (! isLayout ·)

/-- The significant character number `i` of the text is `c`, and `n` line breaks are before it. -/
def StandsAt (text : List Char) (i : Nat) (c : Char) (n : Nat) : Prop :=
  ∃ before after, text = before ++ c :: after ∧ isLayout c = false ∧
    (significant before).length = i ∧ before.count '\n' = n

/-! ## The tokens of characters -/

theorem toNat_digitChar : ∀ d : Fin 10, (Nat.digitChar d).toNat = 48 + d := by decide

theorem digit?_digitChar : ∀ d : Fin 10, Token.digit? (Nat.digitChar d) = some d := by decide

theorem isLayout_digitChar : ∀ d : Fin 10, isLayout (Nat.digitChar d) = false := by decide

/-- A digit is written with one character. -/
theorem toList_digit : ∀ d : Fin 10, (toString (UInt8.ofNat d).toNat).toList = [Nat.digitChar d] := by
  decide

/-- A number is written with digits only. -/
theorem isDigit_of_mem_toString {n : Nat} {c : Char} (h : c ∈ (toString n).toList) :
    c.isDigit = true := by
  rw [Nat.toString_eq_repr, Nat.toList_repr] at h
  exact Nat.isDigit_of_mem_toDigits (by decide) (by decide) h

theorem exists_digit_of_le {v : UInt8} (h : v ≤ 9) : ∃ d : Fin 10, v = .ofNat d := by
  have hv : v.toNat < 10 := Nat.lt_succ_of_le (UInt8.le_iff_toNat_le.mp h)
  exact ⟨⟨v.toNat, hv⟩, by simp⟩

theorem digit?_eq_some_iff {c : Char} {d : Fin 10} :
    Token.digit? c = some d ↔ c = Nat.digitChar d := by
  constructor
  · intro h
    unfold Token.digit? at h
    split at h
    · rename_i hc
      cases h
      have hlow : 48 ≤ c.toNat := by
        simp only [Char.isDigit, Bool.and_eq_true, decide_eq_true_eq] at hc
        exact UInt32.le_iff_toNat_le.mp hc.1
      rw [← Char.toNat_inj, toNat_digitChar]
      have h0 : '0'.toNat = 48 := rfl
      simp only [h0]
      omega
    · exact nomatch h
  · rintro rfl
    exact digit?_digitChar d

/-- The token of a character is a digit or a symbol, and shows that character. -/
theorem ofChar_cases (c : Char) :
    (∃ d : Fin 10, c = Nat.digitChar d ∧ Token.Kind.ofChar c = .digit d) ∨
      Token.Kind.ofChar c = .symbol c := by
  unfold Token.Kind.ofChar
  cases h : Token.digit? c with
  | none => exact .inr rfl
  | some d => exact .inl ⟨d, digit?_eq_some_iff.mp h, rfl⟩

theorem ofChar_digitChar (d : Fin 10) : Token.Kind.ofChar (Nat.digitChar d) = .digit d := by
  rw [Token.Kind.ofChar, digit?_digitChar]

@[simp] theorem char_token (p : Placed) : p.token.char = p.char := by
  obtain ⟨c, n⟩ := p
  rcases ofChar_cases c with ⟨d, hd, h⟩ | h
  · rw [Token.char, Placed.token, h]
    exact hd.symm
  · rw [Token.char, Placed.token, h]
    rfl

@[simp] theorem isEndOfInput_token (p : Placed) : p.token.isEndOfInput = false := by
  obtain ⟨c, n⟩ := p
  rcases ofChar_cases c with ⟨d, -, h⟩ | h
  · rw [Token.isEndOfInput, Placed.token, h]
    rfl
  · rw [Token.isEndOfInput, Placed.token, h]
    rfl

theorem eq_of_token_eq {p : Placed} {t : Token} (h : p.token = t) : p = ⟨t.char, t.line⟩ := by
  subst h
  rw [char_token]
  rfl

/-! ## Placing a text -/

theorem place_newline (n : Nat) (cs : List Char) : place n ('\n' :: cs) = place (n + 1) cs := rfl

theorem place_layout {c : Char} (n : Nat) (cs : List Char) (hn : c ≠ '\n')
    (hc : isLayout c = true) : place n (c :: cs) = place n cs := by
  rw [place, if_neg hn, if_pos hc]

theorem place_significant {c : Char} (n : Nat) (cs : List Char) (hc : isLayout c = false) :
    place n (c :: cs) = ⟨c, n⟩ :: place n cs := by
  have hn : c ≠ '\n' := by
    rintro rfl
    exact nomatch hc
  rw [place, if_neg hn, if_neg (by simp [hc])]

/-- A character is a line break, other layout, or significant. -/
theorem char_cases (c : Char) :
    c = '\n' ∨ (c ≠ '\n' ∧ isLayout c = true) ∨ (c ≠ '\n' ∧ isLayout c = false) := by
  by_cases hn : c = '\n'
  · exact .inl hn
  · cases hc : isLayout c with
    | true => exact .inr (.inl ⟨hn, rfl⟩)
    | false => exact .inr (.inr ⟨hn, rfl⟩)

theorem place_append (n : Nat) (as bs : List Char) :
    place n (as ++ bs) = place n as ++ place (n + as.count '\n') bs := by
  induction as generalizing n with
  | nil => simp [place]
  | cons c as ih =>
      rw [List.cons_append]
      rcases char_cases c with rfl | ⟨hn, hc⟩ | ⟨hn, hc⟩
      · rw [place_newline, place_newline, ih, List.count_cons_self]
        congr 2
        omega
      · rw [place_layout n _ hn hc, place_layout n _ hn hc, ih, List.count_cons_of_ne hn]
      · rw [place_significant n _ hc, place_significant n _ hc, ih, List.count_cons_of_ne hn]
        rfl

/-- The same text further down. -/
theorem place_add (n k : Nat) (cs : List Char) :
    place (n + k) cs = (place n cs).map fun p => ⟨p.char, p.line + k⟩ := by
  induction cs generalizing n with
  | nil => rfl
  | cons c cs ih =>
      rcases char_cases c with rfl | ⟨hn, hc⟩ | ⟨hn, hc⟩
      · rw [place_newline, place_newline, ← ih]
        congr 1
        omega
      · rw [place_layout _ _ hn hc, place_layout _ _ hn hc, ih]
      · rw [place_significant _ _ hc, place_significant _ _ hc, ih]
        rfl

theorem map_char_place (n : Nat) (cs : List Char) :
    (place n cs).map Placed.char = significant cs := by
  induction cs generalizing n with
  | nil => rfl
  | cons c cs ih =>
      rcases char_cases c with rfl | ⟨hn, hc⟩ | ⟨hn, hc⟩
      · rw [place_newline, ih]
        rfl
      · rw [place_layout n _ hn hc, ih, significant, significant, List.filter_cons_of_neg (by simp [hc])]
      · rw [place_significant n _ hc, List.map_cons, ih, significant, significant,
          List.filter_cons_of_pos (by simp [hc])]

theorem length_place (n : Nat) (cs : List Char) :
    (place n cs).length = (significant cs).length := by
  rw [← map_char_place n, List.length_map]

/-! ## Finding a place again -/

theorem exists_of_place_eq_append {n : Nat} {text : List Char} {ps qs : List Placed} {p : Placed}
    (h : place n text = ps ++ p :: qs) :
    ∃ before after, text = before ++ p.char :: after ∧ isLayout p.char = false ∧
      place n before = ps ∧ n + before.count '\n' = p.line := by
  induction text generalizing n ps with
  | nil => exact absurd h (by simp [place])
  | cons c text ih =>
      rcases char_cases c with rfl | ⟨hn, hc⟩ | ⟨hn, hc⟩
      · rw [place_newline] at h
        obtain ⟨before, after, rfl, hp, hbefore, hline⟩ := ih h
        refine ⟨'\n' :: before, after, rfl, hp, hbefore, ?_⟩
        rw [List.count_cons_self, ← hline]
        omega
      · rw [place_layout n _ hn hc] at h
        obtain ⟨before, after, rfl, hp, hbefore, hline⟩ := ih h
        refine ⟨c :: before, after, rfl, hp, ?_, ?_⟩
        · rw [place_layout n _ hn hc, hbefore]
        · rw [List.count_cons_of_ne hn, hline]
      · rw [place_significant n _ hc] at h
        cases ps with
        | nil =>
            obtain ⟨rfl, -⟩ := List.cons.inj h
            exact ⟨[], text, rfl, hc, rfl, rfl⟩
        | cons q ps =>
            obtain ⟨rfl, hrest⟩ := List.cons.inj h
            obtain ⟨before, after, rfl, hp, hbefore, hline⟩ := ih hrest
            refine ⟨c :: before, after, rfl, hp, ?_, ?_⟩
            · rw [place_significant n _ hc, hbefore]
            · rw [List.count_cons_of_ne hn, hline]

theorem getElem?_place_iff {text : List Char} {i : Nat} {c : Char} {n : Nat} :
    (place 0 text)[i]? = some ⟨c, n⟩ ↔ StandsAt text i c n := by
  constructor
  · intro h
    obtain ⟨hi, hget⟩ := List.getElem?_eq_some_iff.mp h
    have hsplit : place 0 text = (place 0 text).take i ++ ⟨c, n⟩ :: (place 0 text).drop (i + 1) := by
      rw [← hget, ← List.drop_eq_getElem_cons hi, List.take_append_drop]
    obtain ⟨before, after, htext, hc, hbefore, hline⟩ := exists_of_place_eq_append hsplit
    refine ⟨before, after, htext, hc, ?_, by simpa using hline⟩
    rw [← length_place 0, hbefore, List.length_take]
    omega
  · rintro ⟨before, after, rfl, hc, rfl, rfl⟩
    rw [place_append, place_significant _ _ hc, ← length_place 0, List.getElem?_append_right
      (Nat.le_refl _), Nat.sub_self, Nat.zero_add]
    rfl

end GroupedArith
