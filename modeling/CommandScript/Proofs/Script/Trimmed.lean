import Mathlib.Tactic.Lemma
import CommandScript.Proofs.Number.Grammar
import CommandScript.Script.Reader

/-!
# Scripts without the blanks around them

Blanks before a script and after it have no meaning, with one exception: a blank after a backslash
belongs to the escape that the backslash starts. If it is cut off, the backslash comes last and
stands for itself. So a text and the same text without the blanks at its two ends are read alike,
unless an escape is open where the blanks at the end begin.

That a blank does not change what a text is read as, if the text ends here or there, is shown for
every state of the reader in which no escape is open. In a comment, between commands and after a
word, a blank is passed over; a bare word ends at it, as it does at the end of the text; and
whatever is in braces, quotes or brackets stays open.

## Main definitions

* `Script.PlainBlanks` — a text holds no blanks but plain ones.
* `Script.Reader.OpenEscape` — a backslash waits for a character, in a bare word or before one.
* `Script.Reader.Passes` — the reader has read on without any change for the end of the text.
* `Script.EscapedBlank` — a text has a blank at its end that an escape takes.

## Main results

* `Script.Reader.passes_step` — a blank changes nothing, if no escape is open.
* `Script.Reader.finish_run_of_openEscape` — it does if one is.
* `Script.read_trim_eq_iff` — when a text without the blanks at its ends is read as the text is.
-/

set_option autoImplicit false

namespace CommandScript.Script

open CommandScript.Text

/-! ## Plain blanks -/

/-- The text holds no blanks but plain ones. -/
def PlainBlanks (t : String) : Prop :=
  ∀ c ∈ t.toList, isBlank c = true → isPlainBlank c = true

section PlainBlank

variable {c : Char} (hc : isPlainBlank c = true)

include hc

/-- The plain blanks, one by one. -/
lemma eq_of_isPlainBlank :
    c = ' ' ∨ c = '\t' ∨ c = '\r' ∨ c = '\x0b' ∨ c = '\x0c' ∨ c = '\n' := by
  simp only [isPlainBlank, isLineSpace, Bool.or_eq_true, beq_iff_eq] at hc
  tauto

/-- A plain blank has no meaning of its own in a script. -/
lemma ne_of_isPlainBlank :
    c ≠ '#' ∧ c ≠ ';' ∧ c ≠ '\\' ∧ c ≠ '{' ∧ c ≠ '}' ∧ c ≠ '"' ∧ c ≠ '[' ∧ c ≠ ']' ∧ c ≠ '$' := by
  rcases eq_of_isPlainBlank hc with rfl | rfl | rfl | rfl | rfl | rfl <;> decide

/-- A plain blank stands in no name. -/
lemma isNameChar_of_isPlainBlank : isNameChar c = false := by
  rcases eq_of_isPlainBlank hc with rfl | rfl | rfl | rfl | rfl | rfl <;> decide +kernel

/-- A plain blank is no digit. -/
lemma hexValue?_of_isPlainBlank : hexValue? c = none := by
  rcases eq_of_isPlainBlank hc with rfl | rfl | rfl | rfl | rfl | rfl <;> decide

/-- After a backslash, a newline continues the line, and any other plain blank stands for itself. -/
lemma afterBackslash_of_isPlainBlank :
    c ≠ '\n' ∧ Escape.afterBackslash c = .last c ∨
      c = '\n' ∧ Escape.afterBackslash c = .more .continuation := by
  rcases eq_of_isPlainBlank hc with rfl | rfl | rfl | rfl | rfl | rfl <;> decide

end PlainBlank

/-! ## What a script ends in -/

namespace Draft

variable (draft : Draft) (w : Word String)

/-- To end a command that has ended already changes nothing. -/
lemma finish_endCommand : draft.endCommand.finish = draft.finish := by
  unfold finish endCommand
  cases hwords : draft.words with
  | nil => simp [hwords]
  | cons first rest => simp

/-- The script ends in the word that was read last. -/
lemma finish_word :
    (draft.word w).finish = draft.commands.reverse ++ [draft.words.reverse ++ [w]] := by
  simp [finish, endCommand, word]

/-- Scripts that end in different words are different. -/
lemma word_injective {w w' : Word String} (h : (draft.word w).finish = (draft.word w').finish) :
    w = w' := by
  rw [finish_word, finish_word] at h
  simpa using h

/-- A script with one more word is a different one. -/
lemma finish_word_ne : (draft.word w).finish ≠ draft.finish := by
  intro h
  rw [finish_word] at h
  cases hwords : draft.words with
  | nil =>
    have hlength := congrArg List.length h
    simp [finish, endCommand, hwords] at hlength
  | cons first rest => simp [finish, endCommand, hwords] at h

end Draft

namespace Pieces

/-- Words that end in different characters are different. -/
lemma finish_char_injective (p : Pieces) {c d : Char} (h : (p.char c).finish = (p.char d).finish) :
    c = d := by
  unfold finish at h
  cases hparts : p.parts with
  | nil => simpa [char, hparts] using h
  | cons part rest => simpa [char, hparts, flush] using h

end Pieces

namespace Reader

/-- A backslash waits for the character after it, in a bare word or where one could begin, and no
bracket is open. -/
inductive OpenEscape : Reader → Prop
  /-- In a bare word. -/
  | word (draft : Draft) (pieces : Pieces) :
    OpenEscape (.reading draft (.plain false pieces (.escape .start)) [])
  /-- Before a word. -/
  | gap (draft : Draft) : OpenEscape (.reading draft .gapEscape [])

/-- The reader has read on without any change in what it would make of the end of the text, and it
does not wait for a character after a backslash. -/
structure Passes (r r' : Reader) : Prop where
  /-- If the text ends here, it is read as if it had ended there. -/
  finish_eq : r'.finish = r.finish
  /-- No escape is open. -/
  notOpen : ¬ r'.OpenEscape

/-- What ends as a reader does that passes to another passes to that, too. -/
lemma Passes.of_finish_eq {r r' q : Reader} (h : Passes r r') (hq : r.finish = q.finish) :
    Passes q r' :=
  ⟨h.finish_eq.trans hq, h.notOpen⟩

section Blank

variable {c : Char} (hc : isPlainBlank c = true) (draft : Draft) (outer : List Suspended)

include hc

/-- Between words, a blank passes, whether it ends the command or not. -/
lemma passes_gapStep : Passes (.reading draft .gap outer) (gapStep draft outer c) := by
  unfold gapStep
  by_cases hspace : isLineSpace c = true
  · rw [if_pos hspace]
    exact ⟨rfl, by rintro ⟨⟩⟩
  · have hnewline : c = '\n' := by
      simp only [isPlainBlank, Bool.or_eq_true, beq_iff_eq] at hc
      exact hc.resolve_left hspace
    rw [if_neg hspace, if_pos (.inl hnewline)]
    refine ⟨?_, by rintro ⟨⟩⟩
    simp only [finish, Mode.finish, Draft.finish_endCommand]

/-- A blank ends a bare word, and is part of a quoted one. -/
lemma passes_plainStep (quoted : Bool) (pieces : Pieces) :
    Passes (.reading draft (.plain quoted pieces .none) outer)
      (plainStep draft quoted pieces outer c) := by
  have hspecial := ne_of_isPlainBlank hc
  unfold plainStep
  cases quoted with
  | true =>
    simp only [if_true, hspecial, if_false, pieceStep]
    exact ⟨rfl, by rintro ⟨⟩⟩
  | false =>
    have hends : endsWord outer c = true := by
      simp [endsWord, isBlank_of_isPlainBlank hc]
    simp only [Bool.false_eq_true, if_false, hends, if_true]
    exact (passes_gapStep hc (draft.word pieces.finish) outer).of_finish_eq rfl

/-- A blank ends an escape that has begun, or is one more blank of a continued line, and an escape
in a word that is not finished anyway does not matter. -/
lemma passes_escapeStep (quoted : Bool) (pieces : Pieces) (e : Escape)
    (h : ¬ (reading draft (.plain quoted pieces (.escape e)) outer).OpenEscape) :
    Passes (.reading draft (.plain quoted pieces (.escape e)) outer)
      (escapeStep draft quoted pieces e outer c) := by
  unfold escapeStep
  cases e with
  | start =>
    have hpasses : ∀ pieces' pending, pending = .none ∨ pending = .escape .continuation →
        Passes (.reading draft (.plain quoted pieces (.escape .start)) outer)
          (.reading draft (.plain quoted pieces' pending) outer) := by
      intro pieces' pending hpending
      refine ⟨?_, by rcases hpending with rfl | rfl <;> rintro ⟨⟩⟩
      -- whatever becomes of the escape, a quote or a bracket is missing at the end
      cases quoted with
      | true => rcases hpending with rfl | rfl <;> rfl
      | false =>
        cases outer with
        | nil => exact absurd (.word draft pieces) h
        | cons s outer => rcases hpending with rfl | rfl <;> rfl
    rcases afterBackslash_of_isPlainBlank hc with ⟨-, hstep⟩ | ⟨-, hstep⟩
    · rw [Escape.step, hstep]
      exact hpasses (pieces.char c) .none (.inl rfl)
    · rw [Escape.step, hstep]
      exact hpasses pieces (.escape .continuation) (.inr rfl)
  | continuation =>
    simp only [Escape.step]
    by_cases hindent : isIndent c = true
    · rw [if_pos hindent]
      exact ⟨rfl, h⟩
    · rw [if_neg hindent]
      exact (passes_plainStep hc draft outer quoted (pieces.char ' ')).of_finish_eq rfl
  | code letter room value =>
    have hstep : (Escape.code letter room value).step c = .before (Escape.coded letter value) := by
      simp only [Escape.step, hexValue?_of_isPlainBlank hc]
      cases room with
      | zero => rfl
      | succ room => rfl
    rw [hstep]
    exact (passes_plainStep hc draft outer quoted
      (pieces.char (Escape.coded letter value))).of_finish_eq rfl

/-- In a word, a blank is read as the end of the text would be, or what is open stays open. -/
lemma passes_wordStep (quoted : Bool) (pieces : Pieces) (pending : Pending)
    (h : ¬ (reading draft (.plain quoted pieces pending) outer).OpenEscape) :
    Passes (.reading draft (.plain quoted pieces pending) outer)
      (wordStep draft quoted pieces pending outer c) := by
  have hspecial := ne_of_isPlainBlank hc
  cases pending with
  | none => exact passes_plainStep hc draft outer quoted pieces
  | escape e => exact passes_escapeStep hc draft outer quoted pieces e h
  | dollar =>
    simp only [wordStep, hspecial, if_false, isNameChar_of_isPlainBlank hc, Bool.false_eq_true]
    exact (passes_plainStep hc draft outer quoted (pieces.char '$')).of_finish_eq rfl
  | name taken =>
    simp only [wordStep, if_false, isNameChar_of_isPlainBlank hc, Bool.false_eq_true]
    exact (passes_plainStep hc draft outer quoted
      (pieces.word (varNamed taken))).of_finish_eq rfl
  | nameInBraces taken =>
    simp only [wordStep, hspecial, if_false]
    exact ⟨rfl, by rintro ⟨⟩⟩

end Blank

/-- **A blank changes nothing**, if no escape is open: in whatever the reader is in the middle of,
it makes the same of the end of the text after the blank as before it. -/
lemma passes_step {c : Char} (hc : isPlainBlank c = true) {r : Reader} (h : ¬ r.OpenEscape) :
    Passes r (r.step c) := by
  have hspecial := ne_of_isPlainBlank hc
  cases r with
  | failed e => exact ⟨rfl, by rintro ⟨⟩⟩
  | stuck => exact ⟨rfl, by rintro ⟨⟩⟩
  | reading draft mode outer =>
    cases mode with
    | between =>
      rw [step, betweenStep, if_pos (.inl (isBlank_of_isPlainBlank hc))]
      exact ⟨rfl, by rintro ⟨⟩⟩
    | comment escaped =>
      cases escaped with
      | true => exact ⟨rfl, by rintro ⟨⟩⟩
      | false =>
        simp only [step, hspecial, if_false]
        split
        · exact ⟨rfl, by rintro ⟨⟩⟩
        · exact ⟨rfl, by rintro ⟨⟩⟩
    | gap => exact passes_gapStep hc draft outer
    | gapEscape =>
      cases outer with
      | nil => exact absurd (.gap draft) h
      | cons s outer =>
        -- within a bracket nothing is lost, since its end is missing in any case
        rcases afterBackslash_of_isPlainBlank hc with ⟨hne, hstep⟩ | ⟨heq, -⟩
        · rw [step, if_neg hne, escapeStep, Escape.step, hstep]
          exact ⟨rfl, by rintro ⟨⟩⟩
        · rw [step, if_pos heq]
          exact ⟨rfl, by rintro ⟨⟩⟩
    | braced inner =>
      obtain ⟨inner', hinner⟩ : ∃ inner', inner.step c = .ok inner' := by
        simp only [Braced.step, hspecial, if_false]
        split
        · exact ⟨_, rfl⟩
        · exact ⟨_, rfl⟩
      simp only [step, hinner]
      exact ⟨rfl, by rintro ⟨⟩⟩
    | plain quoted pieces pending => exact passes_wordStep hc draft outer quoted pieces pending h
    | closed after =>
      have hends : endsWord outer c = true := by
        simp [endsWord, isBlank_of_isPlainBlank hc]
      rw [step, if_pos hends]
      exact (passes_gapStep hc draft outer).of_finish_eq rfl

/-- Blanks change nothing, if no escape is open. -/
lemma finish_run_of_not_openEscape {cs : List Char} (hcs : ∀ c ∈ cs, isPlainBlank c = true)
    {r : Reader} (h : ¬ r.OpenEscape) : (r.run cs).finish = r.finish := by
  induction cs generalizing r with
  | nil => rfl
  | cons c cs ih =>
    obtain ⟨hc, hcs⟩ := List.forall_mem_cons.1 hcs
    have hpasses := passes_step hc h
    rw [run_cons, ih hcs hpasses.notOpen, hpasses.finish_eq]

/-- **Blanks after an open escape change the script**: the first of them is part of the last word,
in the place of the backslash, or continues the line.

**Proof sketch.** After the first blank no escape is open, so what it has done to the script stays.
In a bare word, it is the last character of the script, or a space is, and where the text ends, a
backslash is. Before a word, it is a word of its own, or there is none, and where the text ends, the
backslash is a word. -/
lemma finish_run_of_openEscape {c : Char} {cs : List Char}
    (hcs : ∀ d ∈ c :: cs, isPlainBlank d = true) {r : Reader} (h : r.OpenEscape) :
    (r.run (c :: cs)).finish ≠ r.finish := by
  obtain ⟨hc, hcs⟩ := List.forall_mem_cons.1 hcs
  obtain ⟨-, -, hbackslash, -⟩ := ne_of_isPlainBlank hc
  -- the last word of the script decides
  have hword : ∀ (draft : Draft) (pieces : Pieces) (d : Char), d ≠ '\\' →
      Outcome.done (draft.word (pieces.char d).finish).finish ≠
        .done (draft.word (pieces.char '\\').finish).finish := by
    intro draft pieces d hd heq
    have hfinish := draft.word_injective (Outcome.done.inj heq)
    exact hd (pieces.finish_char_injective hfinish)
  have hrest : ∀ draft mode, r.step c = .reading draft mode [] →
      ¬ (reading draft mode []).OpenEscape →
      (r.run (c :: cs)).finish = (reading draft mode []).finish := by
    intro draft mode hstep hnot
    rw [run_cons, hstep, finish_run_of_not_openEscape hcs hnot]
  cases h with
  | word draft pieces =>
    rcases afterBackslash_of_isPlainBlank hc with ⟨-, hafter⟩ | ⟨-, hafter⟩
    · rw [hrest draft (.plain false (pieces.char c) .none)
        (by simp only [step, wordStep, escapeStep, Escape.step, hafter]) (by rintro ⟨⟩)]
      exact hword draft pieces c hbackslash
    · rw [hrest draft (.plain false pieces (.escape .continuation))
        (by simp only [step, wordStep, escapeStep, Escape.step, hafter]) (by rintro ⟨⟩)]
      exact hword draft pieces ' ' (by decide)
  | gap draft =>
    rcases afterBackslash_of_isPlainBlank hc with ⟨hne, hafter⟩ | ⟨heq, -⟩
    · rw [hrest draft (.plain false (({} : Pieces).char c) .none)
        (by simp only [step, if_neg hne, escapeStep, Escape.step, hafter]) (by rintro ⟨⟩)]
      exact hword draft {} c hbackslash
    · rw [hrest draft .gap (by rw [step, if_pos heq]) (by rintro ⟨⟩)]
      intro hdone
      exact draft.finish_word_ne _ (Outcome.done.inj hdone).symm

/-- Blanks before a script are passed over. -/
lemma run_start_blanks {cs : List Char} (hcs : ∀ c ∈ cs, isBlank c = true) :
    start.run cs = start := by
  induction cs with
  | nil => rfl
  | cons c cs ih =>
    obtain ⟨hc, hcs⟩ := List.forall_mem_cons.1 hcs
    have hstep : start.step c = start := by
      rw [start, step, betweenStep, if_pos (.inl hc)]
    rw [run_cons, hstep, ih hcs]

end Reader

/-! ## Texts without the blanks at their ends -/

/-- Without the blanks at its ends, a text does not end in a blank. -/
lemma isBlank_getLast?_trimmed {cs : List Char} {c : Char} (h : c ∈ (trimmed cs).getLast?) :
    isBlank c = false := by
  rw [trimmed, List.getLast?_reverse] at h
  have hfirst := List.head?_dropWhile_not isBlank (cs.dropWhile isBlank).reverse
  rw [Option.mem_def.1 h] at hfirst
  simpa using hfirst

/-- The text ends in blanks, and before them an escape is open, which takes the first of them. -/
def EscapedBlank (t : String) : Prop :=
  (∃ c ∈ t.toList.getLast?, isBlank c = true) ∧ (Reader.start.run (trimmed t.toList)).OpenEscape

/-- **A text without the blanks at its ends is read as the text is**, unless a blank is cut off that
an escape takes. This is so for every text whose blanks are plain ones, whether it is a script or
not. -/
theorem read_trim_eq_iff {t : String} (ht : PlainBlanks t) :
    read (trim t) = read t ↔ ¬ EscapedBlank t := by
  obtain ⟨before, after, heq, hbefore, hafter⟩ := exists_eq_append_trimmed t.toList
  have hend : ∀ c ∈ (trimmed t.toList).getLast?, isBlank c = false := fun _ =>
    isBlank_getLast?_trimmed
  have htrim : read (trim t) = (Reader.start.run (trimmed t.toList)).finish := by
    rw [read, trim, String.toList_ofList]
  unfold EscapedBlank
  rw [htrim]
  generalize trimmed t.toList = middle at heq hend
  have hplain : ∀ c ∈ after, isPlainBlank c = true := by
    intro c hc
    apply ht c _ (hafter c hc)
    rw [heq]
    exact List.mem_append_right _ hc
  have hread : read t = ((Reader.start.run middle).run after).finish := by
    rw [read, heq, Reader.run_append, Reader.run_append, Reader.run_start_blanks hbefore]
  rw [hread, heq]
  cases after with
  | nil =>
    -- nothing is cut off at the end, or there is nothing but blanks
    refine iff_of_true rfl ?_
    rintro ⟨⟨c, hlast, hblank⟩, hopen⟩
    cases middle with
    | nil => cases hopen
    | cons d middle =>
      rw [List.append_nil, List.getLast?_append_of_ne_nil _ (List.cons_ne_nil d middle)] at hlast
      rw [hend c hlast] at hblank
      cases hblank
  | cons c after =>
    have hlast : ∃ d ∈ (before ++ middle ++ c :: after).getLast?, isBlank d = true := by
      rw [List.getLast?_append_of_ne_nil _ (List.cons_ne_nil c after),
        List.getLast?_eq_some_getLast (List.cons_ne_nil c after)]
      exact ⟨_, rfl, hafter _ (List.getLast_mem _)⟩
    by_cases hopen : (Reader.start.run middle).OpenEscape
    · refine iff_of_false ?_ (not_not_intro ⟨hlast, hopen⟩)
      exact (Reader.finish_run_of_openEscape hplain hopen).symm
    · refine iff_of_true ?_ fun h => hopen h.2
      exact (Reader.finish_run_of_not_openEscape hplain hopen).symm

end CommandScript.Script
