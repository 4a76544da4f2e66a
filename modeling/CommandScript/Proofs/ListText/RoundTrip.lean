import CommandScript.ListText.Reader
import CommandScript.Proofs.ListText.Spelling

/-!
# Written lists can be read back

Whatever texts a list is made of, reading its text gives the same texts in the same order. The
reader is followed through one written element at a time: at the end of an element, a space or the
end of the text completes it.

## Main results

* `ListText.Reader.run_spelled`, `ListText.Reader.run_braced` — the reader inside an element.
* `ListText.Reader.run_elementChars` — the reader after a whole element.
* `ListText.read_write` — reading a written list.
-/

set_option autoImplicit false

namespace CommandScript.ListText

open CommandScript.Text

namespace Reader

/-! ## Inside an element -/

/-- Characters that spell out a text add the text to a bare element. -/
lemma run_spelled {w cs : List Char} (h : Spelled w cs) (items : List String)
    (taken : List Char) :
    (reading items (.plain false taken none)).run w =
      reading items (.plain false (cs.reverse ++ taken) none) := by
  induction h generalizing taken with
  | nil => rfl
  | @plain c w cs hc _ ih =>
    obtain ⟨hblank, -, -, -, -, -, -, -, hbackslash⟩ := isSpecial_eq_false_iff.1 hc
    have hstep : (reading items (.plain false taken none)).step c =
        reading items (.plain false (c :: taken) none) := by
      simp [step, plainStep, hbackslash, hblank]
    rw [run_cons, hstep, ih]
    simp
  | @escape c d w cs hd _ ih =>
    have hbackslash : (reading items (.plain false taken none)).step '\\' =
        reading items (.plain false taken (some .start)) := rfl
    have hstep : (reading items (.plain false taken (some .start))).step d =
        reading items (.plain false (c :: taken) none) := by
      simp [step, Escape.step, hd]
    rw [run_cons, hbackslash, run_cons, hstep, ih]
    simp

/-- Between elements, characters that spell out a text begin a bare element with it. -/
lemma run_gap_spelled {w cs : List Char} (h : Spelled w cs) (hne : cs ≠ []) (items : List String) :
    (reading items .gap).run w = reading items (.plain false cs.reverse none) := by
  cases h with
  | nil => exact absurd rfl hne
  | @plain c w cs hc h =>
    obtain ⟨hblank, hbrace, -, -, -, -, hquote, -, hbackslash⟩ := isSpecial_eq_false_iff.1 hc
    have hstep : (reading items .gap).step c = reading items (.plain false [c] none) := by
      simp [step, gapStep, plainStep, hblank, hbrace, hquote, hbackslash]
    rw [run_cons, hstep, run_spelled h]
    simp
  | @escape c d w cs hd h =>
    have hbackslash : (reading items .gap).step '\\' =
        reading items (.plain false [] (some .start)) := rfl
    have hstep : (reading items (.plain false [] (some .start))).step d =
        reading items (.plain false [c] none) := by
      simp [step, Escape.step, hd]
    rw [run_cons, hbackslash, run_cons, hstep, run_spelled h]
    simp

/-- Inside braces the reader does what the braced text does. -/
lemma run_braced {cs : List Char} {b b' : Braced} (h : cs.foldlM Braced.step b = .ok b')
    (items : List String) :
    (reading items (.braced b)).run cs = reading items (.braced b') := by
  induction cs generalizing b with
  | nil =>
    obtain rfl : b = b' := by simpa [pure, Except.pure] using h
    rfl
  | cons c cs ih =>
    rw [List.foldlM_cons] at h
    cases hc : b.step c with
    | error text => simp [hc, bind, Except.bind] at h
    | ok b₁ =>
      rw [hc] at h
      have hstep : (reading items (.braced b)).step c = reading items (.braced b₁) := by
        simp [step, hc]
      rw [run_cons, hstep]
      exact ih h

/-! ## Whole elements -/

/-- **The reader after an element**: a space completes the element, and so does the end of the
text. -/
lemma run_elementChars (items : List String) (cs : List Char) :
    ((reading items .gap).run (elementChars cs)).step ' ' =
        reading (String.ofList cs :: items) .gap ∧
      ((reading items .gap).run (elementChars cs)).finish =
        .ok (String.ofList cs :: items).reverse := by
  rcases elementChars_cases cs with ⟨hform, henc⟩ | ⟨hne, hspelled, -⟩
  · have hopen : (reading items .gap).step '{' = reading items (.braced {}) := rfl
    have hclose : (reading items (.braced ⟨0, false, cs.reverse⟩)).step '}' =
        reading (String.ofList cs :: items) (.closed .afterBrace) := by
      simp [step, Braced.step]
    rw [hform, run_cons, hopen, run_append, run_braced henc.foldlM_step, run_cons, hclose]
    exact ⟨rfl, rfl⟩
  · rw [run_gap_spelled hspelled hne]
    simp [step, plainStep, finish, push, show isBlank ' ' = true from rfl]

/-- Reading a written list adds its elements.

**Proof sketch.** Induction on the elements that are still to come. The reader is between elements
at the start of each; `run_elementChars` says what it does at the space after one and at the end of
the last. -/
lemma finish_run_write (items texts : List String) :
    ((reading items .gap).run (write texts).toList).finish = .ok (items.reverse ++ texts) := by
  induction texts generalizing items with
  | nil => simp [write, finish]
  | cons text rest ih =>
    obtain ⟨hspace, hend⟩ := run_elementChars items text.toList
    cases rest with
    | nil => simpa [write, writeElement] using hend
    | cons next rest =>
      rw [toList_write_cons_cons, run_append, run_cons, hspace, ih]
      simp

end Reader

/-- **Lists can be read back**: reading the text of a list of texts gives exactly these texts, in
their order. -/
theorem read_write (items : List String) : read (write items) = .ok items := by
  simpa [read, Reader.start] using Reader.finish_run_write [] items

example : read (write ["", "#", "\u3000\x7d\\"]) = .ok ["", "#", "\u3000\x7d\\"] := by
  rfl

end CommandScript.ListText
