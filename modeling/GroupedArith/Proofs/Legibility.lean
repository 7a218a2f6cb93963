/-
# `GroupedArith.Proofs.Legibility` — printed records can be read back

A record is written as `LINE n: ` and its content:

    instruction    PUSH v, ADD, MUL or PRINT
    result         an integer in decimals, with a sign if it is negative

## What is proved

Records that are printed line by line can be told apart by their text: if the texts
of two lists of records are the same, so are the lists (`recordLines_injective`).

## How

From the outside in.  A record has no line break, so that a text falls into the lines
of its records (`madeOf_recordLines`).  A line number has no colon, so that a record
falls into its line number and its content (`Record.text_injective`).  A content that
begins with a letter is an instruction, and any other one a result
(`Opcode.text_ne_toString`); its number is read back from the digits
(`integerOf_toString`).
-/
import GroupedArith.Proofs.Layout
import GroupedArith.Report
import Mathlib.Data.List.Basic

namespace GroupedArith

/-! ## Lists that are cut in two -/

section Cut
variable {α : Type} [DecidableEq α] {c : α} {a b x y : List α}

theorem splitOn_injective (c : α) : Function.Injective fun l : List α => l.splitOn c :=
  Function.LeftInverse.injective (g := [c].intercalate) fun _ => List.intercalate_splitOn c

/-- Cut at the first `c`. -/
theorem eq_of_cut_first (ha : c ∉ a) (hb : c ∉ b) (h : a ++ c :: x = b ++ c :: y) :
    a = b ∧ x = y := by
  have hpieces := congrArg (List.splitOn c) h
  rw [List.splitOn_append_cons_self_of_not_mem ha, List.splitOn_append_cons_self_of_not_mem hb]
    at hpieces
  obtain ⟨hfront, hback⟩ := List.cons.inj hpieces
  exact ⟨hfront, splitOn_injective c hback⟩

/-- Cut at the last `c`. -/
theorem eq_of_cut_last (hx : c ∉ x) (hy : c ∉ y) (h : a ++ c :: x = b ++ c :: y) :
    a = b ∧ x = y := by
  have hreverse : x.reverse ++ c :: a.reverse = y.reverse ++ c :: b.reverse := by
    simpa using congrArg List.reverse h
  obtain ⟨hback, hfront⟩ :=
    eq_of_cut_first (mt List.mem_reverse.mp hx) (mt List.mem_reverse.mp hy) hreverse
  exact ⟨List.reverse_inj.mp hfront, List.reverse_inj.mp hback⟩

end Cut

/-! ## Numbers -/

/-- An integer is written with digits, and with a minus sign if it is negative. -/
theorem eq_or_isDigit_of_mem_toString {z : Int} {c : Char} (h : c ∈ (toString z).toList) :
    c = '-' ∨ c.isDigit = true := by
  rw [Int.toString_eq_repr, Int.repr_eq_if] at h
  split at h
  · exact .inr (isDigit_of_mem_toString h)
  · rw [String.toList_append] at h
    rcases List.mem_append.mp h with h | h
    · exact .inl (List.mem_singleton.mp h)
    · exact .inr (isDigit_of_mem_toString h)

/-- The integer that is written like this. -/
def integerOf : List Char → Int
  | '-' :: digits => -(Nat.ofDigitChars 10 digits 0 : Int)
  | digits => Nat.ofDigitChars 10 digits 0

theorem ofDigitChars_toString (n : Nat) : Nat.ofDigitChars 10 (toString n).toList 0 = n := by
  rw [Nat.toString_eq_repr, Nat.toList_repr, Nat.ofDigitChars_ten_toDigits]

theorem integerOf_toString_nat (n : Nat) : integerOf (toString n).toList = n := by
  have hdigits : integerOf (toString n).toList = Nat.ofDigitChars 10 (toString n).toList 0 := by
    cases hn : (toString n).toList with
    | nil => rfl
    | cons c cs =>
        have hc : c.isDigit = true := isDigit_of_mem_toString (hn ▸ List.mem_cons_self)
        rw [integerOf]
        intro digits hcons
        obtain rfl := (List.cons.inj hcons).1
        exact nomatch hc
  rw [hdigits, ofDigitChars_toString]

theorem integerOf_toString (z : Int) : integerOf (toString z).toList = z := by
  rw [Int.toString_eq_repr, Int.repr_eq_if]
  split
  · have hz := integerOf_toString_nat z.toNat
    rw [Nat.toString_eq_repr] at hz
    omega
  · have hz := ofDigitChars_toString (-z).toNat
    rw [Nat.toString_eq_repr] at hz
    rw [String.toList_append]
    show -(Nat.ofDigitChars 10 (-z).toNat.repr.toList 0 : Int) = z
    omega

theorem toString_nat_injective : Function.Injective fun n : Nat => toString n :=
  Function.LeftInverse.injective (g := fun s : String => Nat.ofDigitChars 10 s.toList 0)
    ofDigitChars_toString

theorem toString_int_injective : Function.Injective fun z : Int => toString z :=
  Function.LeftInverse.injective (g := fun s : String => integerOf s.toList) integerOf_toString

/-! ## The content of a record -/

/-- The characters that a record is written with, except for the digits. -/
def recordSigns : List Char := "LINE: PUSHADMRT-".toList

namespace Opcode

/-- The letters that an opcode begins with. -/
def letters : Opcode → List Char
  | push _ => ['P', 'U']
  | add => ['A', 'D']
  | mul => ['M', 'U']
  | print => ['P', 'R']

theorem take_two_toList_text (o : Opcode) : o.text.toList.take 2 = o.letters := by
  cases o with
  | push v => simp [text, letters]
  | add => rfl
  | mul => rfl
  | print => rfl

/-- Two letters tell the four kinds of opcodes apart, and the number one PUSH from another. -/
theorem text_injective : Function.Injective text := by
  intro o o' h
  have hletters : o.letters = o'.letters := by
    rw [← take_two_toList_text, ← take_two_toList_text, h]
  cases o with
  | push v =>
      cases o' with
      | push w =>
          have hnumber : v.toNat = w.toNat :=
            toString_nat_injective ((String.append_right_inj _).mp h)
          rw [UInt8.toNat_inj.mp hnumber]
      | add | mul | print => simp [letters] at hletters
  | add =>
      cases o' with
      | add => rfl
      | push | mul | print => simp [letters] at hletters
  | mul =>
      cases o' with
      | mul => rfl
      | push | add | print => simp [letters] at hletters
  | print =>
      cases o' with
      | print => rfl
      | push | add | mul => simp [letters] at hletters

/-- An opcode begins with letters, and an integer has none. -/
theorem text_ne_toString (o : Opcode) (z : Int) : o.text ≠ toString z := by
  intro h
  have hsigns : ∀ c ∈ o.letters, c = '-' ∨ c.isDigit = true := by
    rw [← take_two_toList_text, h]
    exact fun c hc => eq_or_isDigit_of_mem_toString (List.mem_of_mem_take hc)
  cases o <;> simp [letters] at hsigns

theorem isDigit_or_mem_recordSigns {o : Opcode} {c : Char} (h : c ∈ o.text.toList) :
    c.isDigit = true ∨ c ∈ recordSigns := by
  have hword : ∀ word ∈ ["PUSH ", "ADD", "MUL", "PRINT"], word.toList ⊆ recordSigns := by decide
  cases o with
  | push v =>
      rw [text, String.toList_append] at h
      rcases List.mem_append.mp h with h | h
      · exact .inr (hword "PUSH " (by simp) h)
      · exact .inl (isDigit_of_mem_toString h)
  | add => exact .inr (hword "ADD" (by simp) h)
  | mul => exact .inr (hword "MUL" (by simp) h)
  | print => exact .inr (hword "PRINT" (by simp) h)

end Opcode

/-! ## Records -/

namespace Record

def line : Record → Nat
  | instruction i => i.line
  | result a => a.line

/-- What is written behind the line number. -/
def content : Record → String
  | instruction i => i.opcode.text
  | result a => toString a.value.toInt

theorem text_eq (k : Record) : k.text = "LINE " ++ toString k.line ++ ": " ++ k.content := by
  cases k <;> rfl

theorem toList_text (k : Record) :
    k.text.toList =
      ['L', 'I', 'N', 'E', ' '] ++
        ((toString k.line).toList ++ ':' :: ' ' :: k.content.toList) := by
  rw [text_eq]
  simp

theorem eq_of_content_eq {k k' : Record} (hline : k.line = k'.line)
    (h : k.content = k'.content) : k = k' := by
  cases k with
  | instruction i =>
      cases k' with
      | instruction j =>
          obtain ⟨o, n⟩ := i
          obtain ⟨o', n'⟩ := j
          obtain rfl : n = n' := hline
          obtain rfl : o = o' := Opcode.text_injective h
          rfl
      | result b => exact absurd h (i.opcode.text_ne_toString _)
  | result a =>
      cases k' with
      | instruction j => exact absurd h.symm (j.opcode.text_ne_toString _)
      | result b =>
          obtain ⟨x, n⟩ := a
          obtain ⟨y, n'⟩ := b
          obtain rfl : n = n' := hline
          obtain rfl : x = y := Int64.toInt_inj.mp (toString_int_injective h)
          rfl

/-- A line number has no colon, and is followed by one. -/
theorem text_injective : Function.Injective text := by
  intro k k' h
  have hcolon : ∀ n : Nat, ':' ∉ (toString n).toList :=
    fun n hn => nomatch isDigit_of_mem_toString hn
  have hlist := congrArg String.toList h
  rw [toList_text, toList_text] at hlist
  obtain ⟨hnumber, hcontent⟩ :=
    eq_of_cut_first (hcolon _) (hcolon _) (List.append_cancel_left hlist)
  refine eq_of_content_eq ?_ ?_
  · exact toString_nat_injective (String.toList_inj.mp hnumber)
  · exact String.toList_inj.mp (List.cons.inj hcontent).2

theorem isDigit_or_mem_of_mem_content {k : Record} {c : Char} (h : c ∈ k.content.toList) :
    c.isDigit = true ∨ c ∈ recordSigns := by
  cases k with
  | instruction i => exact Opcode.isDigit_or_mem_recordSigns h
  | result a =>
      rcases eq_or_isDigit_of_mem_toString h with rfl | h
      · exact .inr (by decide)
      · exact .inl h

theorem isDigit_or_mem_of_mem_text {k : Record} {c : Char} (h : c ∈ k.text.toList) :
    c.isDigit = true ∨ c ∈ recordSigns := by
  have hword : ['L', 'I', 'N', 'E', ' '] ⊆ recordSigns := by decide
  rw [toList_text] at h
  rcases List.mem_append.mp h with h | h
  · exact .inr (hword h)
  rcases List.mem_append.mp h with h | h
  · exact .inl (isDigit_of_mem_toString h)
  rcases List.mem_cons.mp h with rfl | h
  · exact .inr (by decide)
  rcases List.mem_cons.mp h with rfl | h
  · exact .inr (by decide)
  · exact isDigit_or_mem_of_mem_content h

end Record

/-! ## Lines -/

/-- The lines of a text.  What is behind the last line break is a line as well, if only an empty
one. -/
def linesOf (text : String) : List (List Char) := text.toList.splitOn '\n'

theorem linesOf_injective : Function.Injective linesOf :=
  (splitOn_injective '\n').comp fun _ _ => String.toList_inj.mp

theorem linesOf_append (s t : String) : linesOf (s ++ "\n" ++ t) = linesOf s ++ linesOf t := by
  have htext : (s ++ "\n" ++ t).toList = s.toList ++ '\n' :: t.toList := by simp
  rw [linesOf, htext]
  exact List.splitOn_append_cons_self _ _

/-- Text without a line break. -/
def OneLine (s : String) : Prop := '\n' ∉ s.toList

instance (s : String) : Decidable (OneLine s) := inferInstanceAs (Decidable ('\n' ∉ s.toList))

theorem oneLine_append {s t : String} : OneLine (s ++ t) ↔ OneLine s ∧ OneLine t := by
  rw [OneLine, OneLine, OneLine, String.toList_append, List.mem_append, not_or]

theorem Record.oneLine_text (k : Record) : OneLine k.text :=
  fun h => absurd (isDigit_or_mem_of_mem_text h) (by decide)

/-- The text is made of whole lines, and these are its rows. -/
def MadeOf (text : String) (rows : List (List Char)) : Prop :=
  ∀ rest, linesOf (text ++ rest) = rows ++ linesOf rest

theorem madeOf_nil : MadeOf "" [] := by
  intro rest
  rw [String.empty_append]
  rfl

theorem madeOf_line {s : String} (h : OneLine s) : MadeOf (s ++ "\n") [s.toList] := by
  intro rest
  have hline : linesOf s = [s.toList] := List.splitOn_eq_singleton h
  rw [linesOf_append, hline]

theorem MadeOf.append {s t : String} {rows rows' : List (List Char)} (hs : MadeOf s rows)
    (ht : MadeOf t rows') : MadeOf (s ++ t) (rows ++ rows') := by
  intro rest
  rw [String.append_assoc, hs, ht, List.append_assoc]

/-- A text is made of whole lines in one way only. -/
theorem MadeOf.unique {s : String} {rows rows' : List (List Char)} (hrows : MadeOf s rows)
    (hothers : MadeOf s rows') : rows = rows' :=
  List.append_cancel_right ((hrows "").symm.trans (hothers ""))

/-! ## Records line by line -/

/-- The characters of each record. -/
def recordRows (ks : List Record) : List (List Char) := ks.map fun k => k.text.toList

theorem recordRows_injective : Function.Injective recordRows :=
  List.map_injective_iff.mpr fun _ _ h => Record.text_injective (String.toList_inj.mp h)

theorem madeOf_recordLines (ks : List Record) : MadeOf (recordLines ks) (recordRows ks) := by
  induction ks with
  | nil => exact madeOf_nil
  | cons k ks ih =>
      have hcons : recordLines (k :: ks) = k.text ++ "\n" ++ recordLines ks := String.join_cons
      rw [hcons]
      exact (madeOf_line k.oneLine_text).append ih

theorem recordLines_injective : Function.Injective recordLines := by
  intro ks ks' h
  have hrows : MadeOf (recordLines ks) (recordRows ks') := h ▸ madeOf_recordLines ks'
  exact recordRows_injective ((madeOf_recordLines ks).unique hrows)

/-- Numbers of several digits, and a result below zero. -/
example : recordLines [.instruction ⟨.push 120, 3⟩, .instruction ⟨.add, 120⟩, .result ⟨-3, 12⟩] =
    "LINE 3: PUSH 120\nLINE 120: ADD\nLINE 12: -3\n" := by decide +kernel

end GroupedArith
