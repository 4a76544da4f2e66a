import Mathlib.Tactic.Lemma
import CommandScript.Script.Reader

/-!
# What more text can mend

A text that is no script may still become one: a brace, a quote or a bracket was not closed yet, and
the text that follows may close it. Or it is wrong for good, since a word goes on after its closing
brace or quote. The reader tells the two apart: it calls a text incomplete if it was still reading
at the end of it. This is right in both directions. Whatever the reader is in the middle of, there
are characters that bring it to the end of the script; and once it has failed, no character brings
it back.

## Main definitions

* `Script.Reader.Leads` — some characters bring the reader from one state to another.

## Main results

* `Script.Reader.leads_between` — whatever is open in the innermost script can be closed.
* `Script.Reader.exists_finish_eq_done` — so can all brackets around it.
* `Script.Reader.Live.run` — the reader gets stuck only at a blank that is no plain one.
* `Script.read_cases` — a text is a script, or the beginning of one, or wrong for good.
* `Script.isComplete_eq_false_iff` — a text is incomplete if and only if it is no script, but the
  beginning of one.
-/

set_option autoImplicit false

namespace CommandScript.Script

open CommandScript.Text

namespace Reader

/-- Some characters bring the reader from the one state to the other. -/
def Leads (r r' : Reader) : Prop :=
  ∃ cs, r.run cs = r'

/-- What leads on may be read in two parts. -/
lemma Leads.trans {r₁ r₂ r₃ : Reader} (h : Leads r₁ r₂) (h' : Leads r₂ r₃) : Leads r₁ r₃ := by
  obtain ⟨cs, rfl⟩ := h
  obtain ⟨ds, rfl⟩ := h'
  exact ⟨cs ++ ds, run_append r₁ cs ds⟩

/-- One character leads to the next state. -/
lemma leads_step {r r' : Reader} (c : Char) (h : r.step c = r') : Leads r r' :=
  ⟨[c], h⟩

/-! ## Closing what is open -/

section Closing

variable (draft : Draft) (outer : List Suspended)

/-- A minus sign is a character of a word like any other. -/
lemma plainStep_minus (quoted : Bool) (pieces : Pieces) :
    plainStep draft quoted pieces outer '-' =
      reading draft (.plain quoted (pieces.char '-') .none) outer := by
  have hend : endsWord outer '-' = false := by simp [endsWord, closes, isBlank]
  cases quoted with
  | true => rfl
  | false =>
    simp only [plainStep, hend]
    rfl

/-- After a minus sign no escape is open. -/
lemma step_minus_of_escape (quoted : Bool) (pieces : Pieces) (e : Escape) :
    ∃ pieces', (reading draft (.plain quoted pieces (.escape e)) outer).step '-' =
      reading draft (.plain quoted pieces' .none) outer := by
  have hstep : e.step '-' = .last '-' ∨ ∃ d, e.step '-' = .before d := by
    cases e with
    | start => exact .inl rfl
    | continuation => exact .inr ⟨' ', rfl⟩
    | code letter room value =>
      cases room with
      | zero => exact .inr ⟨_, rfl⟩
      | succ room => exact .inr ⟨_, rfl⟩
  obtain hlast | ⟨d, hbefore⟩ := hstep
  · refine ⟨pieces.char '-', ?_⟩
    simp only [step, wordStep, escapeStep, hlast]
  · refine ⟨(pieces.char d).char '-', ?_⟩
    simp only [step, wordStep, escapeStep, hbefore]
    exact plainStep_minus draft outer quoted _

/-- An escape or the name of a variable in a word can be closed. -/
lemma leads_none (quoted : Bool) (pieces : Pieces) (pending : Pending) :
    ∃ pieces', Leads (reading draft (.plain quoted pieces pending) outer)
      (reading draft (.plain quoted pieces' .none) outer) := by
  cases pending with
  | none => exact ⟨pieces, [], rfl⟩
  | escape e =>
    obtain ⟨pieces', h⟩ := step_minus_of_escape draft outer quoted pieces e
    exact ⟨pieces', leads_step '-' h⟩
  | dollar => exact ⟨_, leads_step '-' (plainStep_minus draft outer quoted (pieces.char '$'))⟩
  | name taken =>
    exact ⟨_, leads_step '-' (plainStep_minus draft outer quoted (pieces.word (varNamed taken)))⟩
  | nameInBraces taken => exact ⟨_, leads_step '}' rfl⟩

/-- Between words, a newline ends the command. -/
lemma gapStep_newline : gapStep draft outer '\n' = reading draft.endCommand .between outer := by
  have hspace : isLineSpace '\n' = false := by decide
  simp only [gapStep, hspace]
  rfl

/-- A newline ends a word that was closed. -/
lemma leads_between_of_closed (after : Closer) :
    Leads (reading draft (.closed after) outer) (reading draft.endCommand .between outer) :=
  leads_step '\n' (gapStep_newline draft outer)

/-- A newline ends a bare word in which nothing is open. -/
lemma leads_between_of_bare (pieces : Pieces) :
    Leads (reading draft (.plain false pieces .none) outer)
      (reading (draft.word pieces.finish).endCommand .between outer) :=
  leads_step '\n' (gapStep_newline (draft.word pieces.finish) outer)

/-- A word in braces can be closed.

**Proof sketch.** Induction on the number of open braces; a character that a backslash protects goes
first. -/
lemma leads_closed_of_braced (inner : Braced) :
    ∃ draft', Leads (reading draft (.braced inner) outer)
      (reading draft' (.closed .brace) outer) := by
  obtain ⟨depth, escaped, taken⟩ := inner
  induction depth generalizing escaped taken with
  | zero =>
    have hclose : ∀ taken, ∃ draft', Leads (reading draft (.braced ⟨0, false, taken⟩) outer)
        (reading draft' (.closed .brace) outer) :=
      fun taken => ⟨_, leads_step '}' rfl⟩
    cases escaped with
    | false => exact hclose taken
    | true =>
      obtain ⟨draft', h⟩ := hclose ('-' :: taken)
      exact ⟨draft', (leads_step '-' rfl).trans h⟩
  | succ depth ih =>
    have hclose : ∀ taken, ∃ draft', Leads (reading draft (.braced ⟨depth + 1, false, taken⟩) outer)
        (reading draft' (.closed .brace) outer) := by
      intro taken
      obtain ⟨draft', h⟩ := ih false ('}' :: taken)
      exact ⟨draft', (leads_step '}' rfl).trans h⟩
    cases escaped with
    | false => exact hclose taken
    | true =>
      obtain ⟨draft', h⟩ := hclose ('-' :: taken)
      exact ⟨draft', (leads_step '-' rfl).trans h⟩

/-- **Whatever is open in the innermost script can be closed**, so that a command could begin. -/
lemma leads_between (mode : Mode) :
    ∃ draft', Leads (reading draft mode outer) (reading draft' .between outer) := by
  have hcomment : Leads (reading draft (.comment false) outer) (reading draft .between outer) :=
    leads_step '\n' rfl
  have hgap : Leads (reading draft .gap outer) (reading draft.endCommand .between outer) :=
    leads_step '\n' (gapStep_newline draft outer)
  cases mode with
  | between => exact ⟨draft, [], rfl⟩
  | comment escaped =>
    cases escaped with
    | false => exact ⟨draft, hcomment⟩
    | true => exact ⟨draft, (leads_step '-' rfl).trans hcomment⟩
  | gap => exact ⟨_, hgap⟩
  | gapEscape => exact ⟨_, (leads_step '\n' rfl).trans hgap⟩
  | braced inner =>
    obtain ⟨draft', h⟩ := leads_closed_of_braced draft outer inner
    exact ⟨_, h.trans (leads_between_of_closed draft' outer .brace)⟩
  | closed after => exact ⟨_, leads_between_of_closed draft outer after⟩
  | plain quoted pieces pending =>
    obtain ⟨pieces', h⟩ := leads_none draft outer quoted pieces pending
    cases quoted with
    | false => exact ⟨_, h.trans (leads_between_of_bare draft outer pieces')⟩
    | true =>
      have hquote : Leads (reading draft (.plain true pieces' .none) outer)
          (reading (draft.word pieces'.finish) (.closed .quote) outer) :=
        leads_step '"' rfl
      exact ⟨_, (h.trans hquote).trans (leads_between_of_closed _ outer .quote)⟩

/-- **Whatever is open can be closed**: some characters complete the script.

**Proof sketch.** Induction on the open brackets: what is open in the innermost one is closed, then
the bracket, and the word that waits for it is a word in the next one. -/
lemma exists_finish_eq_done (mode : Mode) :
    ∃ cs script, ((reading draft mode outer).run cs).finish = .done script := by
  induction outer generalizing draft mode with
  | nil =>
    obtain ⟨draft', cs, h⟩ := leads_between draft [] mode
    exact ⟨cs, draft'.finish, by rw [h]; rfl⟩
  | cons s outer ih =>
    obtain ⟨draft', h⟩ := leads_between draft (s :: outer) mode
    have hclose : Leads (reading draft' .between (s :: outer)) (close draft' (s :: outer)) :=
      leads_step ']' rfl
    obtain ⟨cs, hcs⟩ := h.trans hclose
    obtain ⟨ds, script, hds⟩ := ih s.draft
      (.plain s.quoted (s.pieces.word (.substitution draft'.finish)) .none)
    exact ⟨cs ++ ds, script, by rw [run_append, hcs]; exact hds⟩

end Closing

/-! ## Progress -/

/-- The reader is reading, or has found a word that goes on after its closing brace or quote: it has
neither got stuck nor missed the end of the text. -/
def Live : Reader → Prop
  | .reading _ _ _ => True
  | .failed (.extra _) => True
  | .failed (.missing _) => False
  | .stuck => False

section Progress

variable {c : Char}

/-- The end of a bracket leaves the reader at work. -/
lemma live_close (draft : Draft) (outer : List Suspended) : (close draft outer).Live := by
  cases outer with
  | nil => exact trivial
  | cons s outer => exact trivial

/-- So does a character that belongs to a word. -/
lemma live_pieceStep (draft : Draft) (quoted : Bool) (pieces : Pieces)
    (outer : List Suspended) : (pieceStep draft quoted pieces outer c).Live := by
  unfold pieceStep
  repeat' split
  all_goals exact trivial

variable (hc : isBlank c = true → isPlainBlank c = true)

include hc

/-- Between words, a blank that is a plain one is either a line space or a newline. -/
lemma live_gapStep (draft : Draft) (outer : List Suspended) :
    (gapStep draft outer c).Live := by
  have hplain : ¬ isLineSpace c = true → ¬ (c = '\n' ∨ c = ';') → ¬ isBlank c = true := by
    intro hspace hend hblank
    have h := hc hblank
    simp only [isPlainBlank, Bool.or_eq_true, beq_iff_eq] at h
    exact h.elim hspace fun hnewline => hend (.inl hnewline)
  unfold gapStep
  split
  · exact trivial
  next hspace =>
    split
    · exact trivial
    next hend =>
      rw [if_neg (hplain hspace hend)]
      split
      · exact live_close draft outer
      · repeat' split
        · exact trivial
        · exact trivial
        · exact trivial
        · exact live_pieceStep draft false {} outer

/-- So does a character of a word that nothing is pending before. -/
lemma live_plainStep (draft : Draft) (quoted : Bool) (pieces : Pieces)
    (outer : List Suspended) : (plainStep draft quoted pieces outer c).Live := by
  unfold plainStep
  repeat' split
  · exact trivial
  · exact live_pieceStep draft true pieces outer
  · exact live_gapStep hc _ outer
  · exact live_pieceStep draft false pieces outer

/-- So does a character after a backslash. -/
lemma live_escapeStep (draft : Draft) (quoted : Bool) (pieces : Pieces) (e : Escape)
    (outer : List Suspended) : (escapeStep draft quoted pieces e outer c).Live := by
  unfold escapeStep
  split
  · exact trivial
  · exact trivial
  · exact live_plainStep hc draft quoted _ outer

/-- So does any character of a word. -/
lemma live_wordStep (draft : Draft) (quoted : Bool) (pieces : Pieces) (pending : Pending)
    (outer : List Suspended) : (wordStep draft quoted pieces pending outer c).Live := by
  cases pending with
  | none => exact live_plainStep hc draft quoted pieces outer
  | escape e => exact live_escapeStep hc draft quoted pieces e outer
  | dollar =>
    simp only [wordStep]
    repeat' split
    · exact trivial
    · exact trivial
    · exact live_plainStep hc draft quoted _ outer
  | name taken =>
    simp only [wordStep]
    split
    · exact trivial
    · exact live_plainStep hc draft quoted _ outer
  | nameInBraces taken =>
    simp only [wordStep]
    split
    · exact trivial
    · exact trivial

/-- **The reader gets past every character but a blank that is no plain one.** -/
lemma Live.step {r : Reader} (hr : r.Live) : (r.step c).Live := by
  cases r with
  | failed e => exact hr
  | stuck => exact hr
  | reading draft mode outer =>
    cases mode with
    | between =>
      change (betweenStep draft outer c).Live
      unfold betweenStep
      repeat' split
      · exact trivial
      · exact trivial
      · exact live_gapStep hc draft outer
    | comment escaped =>
      cases escaped with
      | true => exact trivial
      | false =>
        simp only [Reader.step]
        repeat' split
        all_goals exact trivial
    | gap => exact live_gapStep hc draft outer
    | gapEscape =>
      simp only [Reader.step]
      split
      · exact trivial
      · exact live_escapeStep hc draft false {} .start outer
    | braced inner =>
      simp only [Reader.step]
      split
      · exact trivial
      · exact trivial
    | plain quoted pieces pending => exact live_wordStep hc draft quoted pieces pending outer
    | closed after =>
      simp only [Reader.step]
      split
      · exact live_gapStep hc draft outer
      · exact trivial

end Progress

/-- A reader that meets no blanks but plain ones stays at work. -/
lemma Live.run {cs : List Char} (hcs : ∀ c ∈ cs, isBlank c = true → isPlainBlank c = true)
    {r : Reader} (hr : r.Live) : (r.run cs).Live := by
  induction cs generalizing r with
  | nil => exact hr
  | cons c cs ih =>
    obtain ⟨hc, hcs⟩ := List.forall_mem_cons.1 hcs
    exact ih hcs (Live.step hc hr)

end Reader

/-! ## Complete texts -/

/-- Reading a longer text goes on where reading its beginning has come to. -/
lemma read_append (t s : String) :
    read (t ++ s) = ((Reader.start.run t.toList).run s.toList).finish := by
  rw [read, String.toList_append, Reader.run_append]

/-- If a word goes on after its closing brace or quote, whatever follows does not mend it. -/
lemma read_append_of_extra {t : String} {after : Closer}
    (h : Reader.start.run t.toList = .failed (.extra after)) (s : String) :
    read (t ++ s) = .failed (.extra after) := by
  rw [read_append, h, Reader.run_failed]
  rfl

/-- If the reader was still reading at the end of a text, some text after it makes it a script. -/
lemma exists_read_append_eq_done {t : String} {draft : Draft} {mode : Mode}
    {outer : List Suspended} (h : Reader.start.run t.toList = .reading draft mode outer) :
    ∃ s script, read (t ++ s) = .done script := by
  obtain ⟨cs, script, hdone⟩ := Reader.exists_finish_eq_done draft outer mode
  refine ⟨String.ofList cs, script, ?_⟩
  rw [read_append, h, String.toList_ofList]
  exact hdone

/-- At the end of a text the reader misses something, if anything is wrong. -/
lemma finish_reading (draft : Draft) (mode : Mode) (outer : List Suspended) :
    (∃ script, (Reader.reading draft mode outer).finish = .done script) ∨
      ∃ what, (Reader.reading draft mode outer).finish = .failed (.missing what) := by
  unfold Reader.finish
  dsimp only
  split
  next what _ => exact .inr ⟨what, rfl⟩
  next draft' _ =>
    split
    · exact .inl ⟨_, rfl⟩
    · exact .inr ⟨.bracket, rfl⟩

/-- The wording of an error tells whether more text can mend it. -/
lemma startsWith_message_iff (e : Error) :
    e.message.startsWith "missing" = true ↔ ∃ what, e = .missing what := by
  cases e with
  | missing what =>
    have hstarts : ∀ what, (Error.missing what).message.startsWith "missing" = true := by
      intro what
      cases what <;> decide +kernel
    exact iff_of_true (hstarts what) ⟨what, rfl⟩
  | extra after =>
    have hstarts : ∀ after, ¬ (Error.extra after).message.startsWith "missing" = true := by
      intro after
      cases after <;> decide +kernel
    exact iff_of_false (hstarts after) fun ⟨_, h⟩ => nomatch h

/-- A text is incomplete if and only if something is missing at its end. -/
lemma isComplete_eq_false_iff_missing (t : String) :
    isComplete t = false ↔ ∃ what, read t = .failed (.missing what) := by
  unfold isComplete
  split
  next what h => exact ⟨fun _ => ⟨what, h⟩, fun _ => rfl⟩
  next hnone => exact ⟨nofun, fun ⟨what, h⟩ => (hnone what h).elim⟩

/-- A text whose blanks are plain ones is a script, or the beginning of one, or it is wrong for
good. -/
lemma read_cases {t : String} (ht : ∀ c ∈ t.toList, isBlank c = true → isPlainBlank c = true) :
    (∃ script, read t = .done script) ∨
      (∃ what, read t = .failed (.missing what)) ∧ (∃ s script, read (t ++ s) = .done script) ∨
      ∃ after, read t = .failed (.extra after) ∧ ∀ s, read (t ++ s) = .failed (.extra after) := by
  have hlive : (Reader.start.run t.toList).Live := Reader.Live.run ht trivial
  unfold read
  cases hr : Reader.start.run t.toList with
  | stuck =>
    rw [hr] at hlive
    exact hlive.elim
  | failed e =>
    rw [hr] at hlive
    cases e with
    | missing what => exact hlive.elim
    | extra after => exact .inr (.inr ⟨after, rfl, read_append_of_extra hr⟩)
  | reading draft mode outer =>
    obtain hdone | hmissing := finish_reading draft mode outer
    · exact .inl hdone
    · exact .inr (.inl ⟨hmissing, exists_read_append_eq_done hr⟩)

/-- **A text is incomplete if and only if it is no script, but the beginning of one.** For every
text whose blanks are plain ones: the text is called incomplete exactly if it cannot be read and
some text after it makes it a script, and this is what the wording of the error says. If a word goes
on after its closing brace or quote, it does so whatever follows; and reading comes to an end. -/
theorem isComplete_eq_false_iff (t : String)
    (ht : ∀ c ∈ t.toList, isBlank c = true → isPlainBlank c = true) :
    (isComplete t = false ↔
      (∃ e, read t = .failed e) ∧ ∃ s script, read (t ++ s) = .done script) ∧
    (isComplete t = false ↔ ∃ e, read t = .failed e ∧ e.message.startsWith "missing" = true) ∧
    (∀ after, read t = .failed (.extra after) → ∀ s, read (t ++ s) = .failed (.extra after)) ∧
    read t ≠ .stuck := by
  simp only [isComplete_eq_false_iff_missing, startsWith_message_iff]
  obtain ⟨script, hread⟩ | ⟨⟨what, hread⟩, hmore⟩ | ⟨after, hread, hlast⟩ := read_cases ht
  · simp [hread]
  · simp [hread, hmore]
  · simp [hread, hlast]

/-- A comment in a bracket in a quoted word, the last character of which is a backslash. -/
theorem isComplete_eq_false_iff_openComment :
    (∀ c ∈ "puts \"[set x 1; # \\".toList, isBlank c = true → isPlainBlank c = true) ∧
      isComplete "puts \"[set x 1; # \\" = false ∧
      ∃ s script, read ("puts \"[set x 1; # \\" ++ s) = .done script := by
  have hplain : ("puts \"[set x 1; # \\".toList.filter isBlank).all isPlainBlank = true := by
    decide +kernel
  have hblanks : ∀ c ∈ "puts \"[set x 1; # \\".toList, isBlank c = true → isPlainBlank c = true :=
    fun c hc hblank => List.all_eq_true.1 hplain c (List.mem_filter.2 ⟨hc, hblank⟩)
  have hincomplete : isComplete "puts \"[set x 1; # \\" = false := by decide +kernel
  obtain ⟨hiff, -⟩ := isComplete_eq_false_iff _ hblanks
  exact ⟨hblanks, hincomplete, (hiff.1 hincomplete).2⟩

end CommandScript.Script
