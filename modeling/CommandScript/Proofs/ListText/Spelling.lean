import Mathlib.Tactic.Lemma
import CommandScript.ListText.Writer
import CommandScript.Text.Escape

/-!
# How elements of a list are spelled

The writer of lists knows three forms: an element may stand bare, in braces, or with a backslash
before each special character. For a reader there are only two. In braces, the text stands as it
is, and what matters is that the braces of the text match and that its end does not protect the
closing brace. Without braces, the text is *spelled out*: each character stands for itself or is
named by a backslash and one more character. A bare element is spelled out too, without any
backslash.

Both readers, of lists and of scripts, are compared with the writer through these two forms.

## Main definitions

* `ListText.Spelled` — the characters `w` spell out the text `cs`.
* `ListText.Enclosable` — the text may be put in braces.

## Main results

* `Text.Braced.foldlM_step_of_balancedFrom` — reading text with matching braces inside braces.
* `ListText.elementChars_cases` — every element is written in braces or spelled out.
-/

set_option autoImplicit false

namespace CommandScript

namespace Text

/-! ## Text in braces -/

namespace Braced

/-- The last character of a text is the last one of what follows its first. -/
lemma getLast?_ne_of_cons {c d : Char} {cs : List Char} (h : (c :: cs).getLast? ≠ some d) :
    cs.getLast? ≠ some d := by
  intro hcs
  apply h
  simp [List.getLast?_cons, hcs]

/-- Reading text whose braces match takes all of it and closes the `depth` braces that were open,
unless its last character protects what comes next.

**Proof sketch.** Induction along `balancedFrom`: it makes the same distinctions as the reader,
except that it takes a backslash and the character after it in one step. The reader is between the
two in its `escaped` state, which the hypothesis on the last character keeps from being the last
one. -/
lemma foldlM_step_of_balancedFrom (depth : Nat) (cs : List Char) (taken : List Char)
    (hb : balancedFrom depth cs = true) (hl : cs.getLast? ≠ some '\\') :
    cs.foldlM step ⟨depth, false, taken⟩ = .ok ⟨0, false, cs.reverse ++ taken⟩ := by
  induction depth, cs using balancedFrom.induct generalizing taken with
  | case1 depth =>
    obtain rfl : depth = 0 := by simpa [balancedFrom] using hb
    rfl
  | case2 depth => simp at hl
  | case3 depth c rest ih =>
    have hrest := getLast?_ne_of_cons (getLast?_ne_of_cons hl)
    have hfold := ih (c :: '\\' :: taken) (by simpa [balancedFrom] using hb) hrest
    simpa [step, take, bind, Except.bind] using hfold
  | case4 depth rest ih =>
    have hfold := ih ('{' :: taken) (by simpa [balancedFrom] using hb) (getLast?_ne_of_cons hl)
    simpa [step, take, bind, Except.bind] using hfold
  | case5 rest => simp [balancedFrom] at hb
  | case6 depth rest ih =>
    have hfold := ih ('}' :: taken) (by simpa [balancedFrom] using hb) (getLast?_ne_of_cons hl)
    simpa [step, take, bind, Except.bind] using hfold
  | case7 depth c rest hlone hpair hopen hzero hclose ih =>
    have hbackslash : c ≠ '\\' := by
      rintro rfl
      cases rest with
      | nil => exact hlone rfl rfl
      | cons d rest => exact hpair d rest rfl rfl
    have hopening : c ≠ '{' := hopen
    have hclosing : c ≠ '}' := by
      rintro rfl
      cases depth with
      | zero => exact hzero rfl rfl
      | succ depth => exact hclose depth rfl rfl
    have hfold := ih (c :: taken) (by simpa [balancedFrom, hbackslash, hopening, hclosing] using hb)
      (getLast?_ne_of_cons hl)
    simpa [step, take, bind, Except.bind, hbackslash, hopening, hclosing] using hfold

end Braced

end Text

namespace ListText

open CommandScript.Text

/-! ## The two forms -/

/-- The text may be put in braces: its braces match, and it does not end with a backslash. -/
def Enclosable (cs : List Char) : Prop :=
  balanced cs = true ∧ cs.getLast? ≠ some '\\'

/-- The characters `w` spell out the text `cs`: each character of the text stands for itself, or
a backslash and one more character stand for it. -/
inductive Spelled : List Char → List Char → Prop
  /-- Nothing spells out the empty text. -/
  | nil : Spelled [] []
  /-- A character that is not special stands for itself. -/
  | plain {c : Char} {w cs : List Char} (hc : isSpecial c = false) (h : Spelled w cs) :
    Spelled (c :: w) (c :: cs)
  /-- An escape of two characters stands for what it means. -/
  | escape {c d : Char} {w cs : List Char} (hd : Escape.afterBackslash d = .last c)
    (h : Spelled w cs) : Spelled ('\\' :: d :: w) (c :: cs)

/-- A character that is not special is no blank and none of the signs. -/
lemma isSpecial_eq_false_iff {c : Char} :
    isSpecial c = false ↔ isBlank c = false ∧ c ≠ '{' ∧ c ≠ '}' ∧ c ≠ '[' ∧ c ≠ ']' ∧ c ≠ '$' ∧
      c ≠ '"' ∧ c ≠ ';' ∧ c ≠ '\\' := by
  simp only [isSpecial, Bool.or_eq_false_iff, beq_eq_false_iff_ne, and_assoc]

/-- Reading the text of an enclosable element inside braces takes all of it. -/
lemma Enclosable.foldlM_step {cs : List Char} (h : Enclosable cs) :
    cs.foldlM Braced.step {} = .ok ⟨0, false, cs.reverse⟩ := by
  simpa using Braced.foldlM_step_of_balancedFrom 0 cs [] h.1 h.2

/-! ## What the writer does -/

/-- A special character other than a newline stands for itself after a backslash. -/
lemma afterBackslash_of_isSpecial {c : Char} (hc : isSpecial c = true) (hn : c ≠ '\n') :
    Escape.afterBackslash c = .last c := by
  unfold Escape.afterBackslash
  split
  case h_8 => exact absurd rfl hn
  case h_11 => rfl
  -- the letters that mean something after a backslash are not special
  all_goals exact absurd hc (by decide)

/-- The writer spells out each character. -/
lemma Spelled.escapeChar_append (c : Char) {w cs : List Char} (h : Spelled w cs) :
    Spelled (escapeChar c ++ w) (c :: cs) := by
  unfold escapeChar
  split
  · next hc =>
    subst hc
    exact .escape rfl h
  · next hn =>
    split
    · next hc =>
      subst hc
      exact .escape rfl h
    · split
      · next hc => exact .escape (afterBackslash_of_isSpecial hc hn) h
      · next hc => exact .plain (by simpa using hc) h

/-- Characters that are escaped one by one spell what they were. -/
lemma spelled_flatMap_escapeChar (cs : List Char) : Spelled (cs.flatMap escapeChar) cs := by
  induction cs with
  | nil => exact .nil
  | cons c cs ih => exact ih.escapeChar_append c

/-- A number sign stands for itself, with or without a backslash. -/
lemma Spelled.backslash_numberSign {w cs : List Char} (h : Spelled ('#' :: w) cs) :
    Spelled ('\\' :: '#' :: w) cs := by
  cases h with
  | plain hc h => exact .escape rfl h

/-- Escaped text is spelled out. -/
lemma spelled_escaped (cs : List Char) : Spelled (escaped cs) cs := by
  have hbody := spelled_flatMap_escapeChar cs
  unfold escaped
  dsimp only
  split
  · next hhead =>
    obtain ⟨w, hw⟩ := List.head?_eq_some_iff.1 hhead
    rw [hw] at hbody ⊢
    exact hbody.backslash_numberSign
  · exact hbody

/-- An escaped element never begins with a number sign, so it is no comment in first place. -/
lemma head?_escaped_ne_numberSign (cs : List Char) : (escaped cs).head? ≠ some '#' := by
  unfold escaped
  dsimp only
  split
  · simp
  · next h => exact h

/-- Text without special characters spells out itself. -/
lemma spelled_self {cs : List Char} (h : cs.any isSpecial = false) : Spelled cs cs := by
  induction cs with
  | nil => exact .nil
  | cons c cs ih =>
    simp only [List.any_cons, Bool.or_eq_false_iff] at h
    exact .plain h.1 (ih h.2)

/-- **The two forms of an element**: it is written in braces, which then enclose it, or it is
spelled out, and does not look like a comment. -/
theorem elementChars_cases (cs : List Char) :
    (elementChars cs = '{' :: (cs ++ ['}']) ∧ Enclosable cs) ∨
      (cs ≠ [] ∧ Spelled (elementChars cs) cs ∧ (elementChars cs).head? ≠ some '#') := by
  unfold elementChars
  split
  · next hempty =>
    obtain rfl := List.isEmpty_iff.1 hempty
    exact .inl ⟨rfl, rfl, by simp⟩
  · next hempty =>
    have hne : cs ≠ [] := by simpa [List.isEmpty_iff] using hempty
    split
    · next hplain =>
      simp only [isPlain, Bool.and_eq_true, bne_iff_ne, Bool.not_eq_true'] at hplain
      exact .inr ⟨hne, spelled_self hplain.2, hplain.1⟩
    · split
      · next hbraces =>
        simp only [Bool.and_eq_true, bne_iff_ne] at hbraces
        exact .inl ⟨rfl, hbraces⟩
      · exact .inr ⟨hne, spelled_escaped cs, head?_escaped_ne_numberSign cs⟩

/-- The text of a list is that of its first element, and the others come after a space. -/
lemma toList_write_cons_cons (first next : String) (rest : List String) :
    (write (first :: next :: rest)).toList =
      elementChars first.toList ++ ' ' :: (write (next :: rest)).toList := by
  simp [write, writeElement, String.intercalate_cons_cons]

end ListText

end CommandScript
