import CommandScript.Script.Reader
import CommandScript.Proofs.ListText.Spelling

/-!
# Written lists as scripts

The text of a list is also a script. However strange the elements are, it is a script of a single
command, and the words of the command are the elements as fixed texts: nothing in them is
substituted, no element ends a command or starts a comment, and no element is cut in two. The same
holds for the text in brackets, where a further character, the closing bracket, means something.

## Main definitions

* `Script.Reader.AtWordEnd` — the reader has read all of a word but does not know it yet.
* `Script.Draft.literals` — fixed texts added as words.

## Main results

* `Script.Reader.atWordEnd_elementChars` — the reader after a whole element.
* `Script.Reader.atWordEnd_write` — the reader after a whole list.
* `Script.read_listText` — a written list as a script, by itself and in brackets.

## Design

All lemmas are about a reader with any words waiting in open brackets (`outer`). What an element
may be followed by is the end of the text, a space, or the bracket that closes the innermost open
one; `AtWordEnd` speaks of all of these at once.
-/

set_option autoImplicit false

namespace CommandScript.Script

open CommandScript.Text CommandScript.ListText

/-- Adds fixed texts to the command that is being read, as its next words. -/
def Draft.literals (d : Draft) (texts : List String) : Draft :=
  { d with words := (texts.map Word.literal).reverse ++ d.words }

namespace Reader

/-- The reader has read all of a word, and the character or the end of the text that ends the word
would make it part of `draft`. -/
def AtWordEnd (draft : Draft) (outer : List Suspended) (r : Reader) : Prop :=
  (∀ c, endsWord outer c = true → r.step c = gapStep draft outer c) ∧
    r.finish = (reading draft .gap outer).finish

/-! ## Inside a word -/

/-- Characters that spell out a text add the text to a bare word. -/
lemma run_spelled {w cs : List Char} (h : Spelled w cs) (draft : Draft) (pieces : Pieces)
    (outer : List Suspended) :
    (reading draft (.plain false pieces .none) outer).run w =
      reading draft (.plain false { pieces with text := cs.reverse ++ pieces.text } .none)
        outer := by
  induction h generalizing pieces with
  | nil => rfl
  | @plain c w cs hc _ ih =>
    obtain ⟨hblank, -, -, hopen, hclose, hdollar, -, hsemicolon, hbackslash⟩ :=
      isSpecial_eq_false_iff.1 hc
    have hstep : (reading draft (.plain false pieces .none) outer).step c =
        reading draft (.plain false (pieces.char c) .none) outer := by
      simp [step, wordStep, plainStep, pieceStep, endsWord, closes, hblank, hopen, hclose, hdollar,
        hsemicolon, hbackslash]
    rw [run_cons, hstep, ih]
    simp [Pieces.char]
  | @escape c d w cs hd _ ih =>
    have hbackslash : (reading draft (.plain false pieces .none) outer).step '\\' =
        reading draft (.plain false pieces (.escape .start)) outer := by
      simp [step, wordStep, plainStep, pieceStep, endsWord, closes,
        show isBlank '\\' = false from rfl]
    have hstep : (reading draft (.plain false pieces (.escape .start)) outer).step d =
        reading draft (.plain false (pieces.char c) .none) outer := by
      simp [step, wordStep, escapeStep, Escape.step, hd]
    rw [run_cons, hbackslash, run_cons, hstep, ih]
    simp [Pieces.char]

/-- Between words, characters that spell out a text begin a bare word with it.

**Proof sketch.** The first character decides. If it stands for itself, it is none of those that
mean something between words. If it is a backslash, the next character is not a newline, which
would continue the line: after a newline an escape goes on. -/
lemma run_gap_spelled {w cs : List Char} (h : Spelled w cs) (hne : cs ≠ []) (draft : Draft)
    (outer : List Suspended) :
    (reading draft .gap outer).run w =
      reading draft (.plain false { text := cs.reverse } .none) outer := by
  cases h with
  | nil => exact absurd rfl hne
  | @plain c w cs hc h =>
    obtain ⟨hblank, hbrace, -, hopen, hclose, hdollar, hquote, hsemicolon, hbackslash⟩ :=
      isSpecial_eq_false_iff.1 hc
    have hspace : isLineSpace c = false := by
      rw [← Bool.not_eq_true]
      intro hspace
      have hb := isBlank_of_isPlainBlank (c := c) (by simp [isPlainBlank, hspace])
      simp [hb] at hblank
    have hnewline : c ≠ '\n' := by
      rintro rfl
      exact absurd hblank (by decide)
    have hstep : (reading draft .gap outer).step c =
        reading draft (.plain false { text := [c] } .none) outer := by
      simp [step, gapStep, pieceStep, closes, Pieces.char, hspace, hnewline, hblank, hbrace, hopen,
        hclose, hdollar, hquote, hsemicolon, hbackslash]
    rw [run_cons, hstep, run_spelled h]
    simp
  | @escape c d w cs hd h =>
    have hbackslash : (reading draft .gap outer).step '\\' = reading draft .gapEscape outer := by
      simp [step, gapStep, closes, show isLineSpace '\\' = false from rfl]
    have hnewline : d ≠ '\n' := by
      rintro rfl
      simp [Escape.afterBackslash] at hd
    have hstep : (reading draft .gapEscape outer).step d =
        reading draft (.plain false { text := [c] } .none) outer := by
      simp [step, escapeStep, Escape.step, Pieces.char, hd, hnewline]
    rw [run_cons, hbackslash, run_cons, hstep, run_spelled h]
    simp

/-- Inside braces the reader does what the braced text does. -/
lemma run_braced {cs : List Char} {b b' : Braced} (h : cs.foldlM Braced.step b = .ok b')
    (draft : Draft) (outer : List Suspended) :
    (reading draft (.braced b) outer).run cs = reading draft (.braced b') outer := by
  induction cs generalizing b with
  | nil =>
    obtain rfl : b = b' := by simpa [pure, Except.pure] using h
    rfl
  | cons c cs ih =>
    rw [List.foldlM_cons] at h
    cases hc : b.step c with
    | error text => simp [hc, bind, Except.bind] at h
    | ok b₁ =>
      rw [hc] at h
      have hstep : (reading draft (.braced b) outer).step c = reading draft (.braced b₁) outer := by
        simp [step, hc]
      rw [run_cons, hstep]
      exact ih h

/-! ## Whole elements -/

/-- **The reader after an element** has it as a word of fixed text. -/
lemma atWordEnd_elementChars (draft : Draft) (outer : List Suspended) (cs : List Char) :
    AtWordEnd (draft.word (.literal (String.ofList cs))) outer
      ((reading draft .gap outer).run (elementChars cs)) := by
  rcases elementChars_cases cs with ⟨hform, henc⟩ | ⟨hne, hspelled, -⟩
  · have hopen : (reading draft .gap outer).step '{' = reading draft (.braced {}) outer := by
      simp [step, gapStep, closes, show isLineSpace '{' = false from rfl]
    have hclose : (reading draft (.braced ⟨0, false, cs.reverse⟩) outer).step '}' =
        reading (draft.word (.literal (String.ofList cs))) (.closed .brace) outer := by
      simp [step, Braced.step]
    rw [hform, run_cons, hopen, run_append, run_braced henc.foldlM_step, run_cons, hclose]
    refine ⟨fun c hc => ?_, rfl⟩
    simp [step, hc]
  · rw [run_gap_spelled hspelled hne]
    refine ⟨fun c hc => ?_, ?_⟩
    · simp [step, wordStep, plainStep, hc, Pieces.finish]
    · simp [finish, Mode.finish, Pending.finish, Pieces.finish]

/-- The first character of an element is none of those that mean something where a command could
begin. -/
lemma exists_elementChars_eq_cons (cs : List Char) :
    ∃ c w, elementChars cs = c :: w ∧ isBlank c = false ∧ c ≠ ';' ∧ c ≠ '#' := by
  rcases elementChars_cases cs with ⟨hform, -⟩ | ⟨hne, hspelled, hcomment⟩
  · exact ⟨'{', cs ++ ['}'], hform, rfl, by decide, by decide⟩
  · cases hw : elementChars cs with
    | nil =>
      rw [hw] at hspelled
      cases hspelled
      exact absurd rfl hne
    | cons c w =>
      rw [hw] at hspelled hcomment
      refine ⟨c, w, rfl, ?_⟩
      cases hspelled with
      | plain hc _ =>
        obtain ⟨hblank, -, -, -, -, -, -, hsemicolon, -⟩ := isSpecial_eq_false_iff.1 hc
        exact ⟨hblank, hsemicolon, by simpa using hcomment⟩
      | escape _ _ => exact ⟨rfl, by decide, by decide⟩

/-- Where a command could begin, an element begins one. -/
lemma run_between_elementChars (draft : Draft) (outer : List Suspended) (cs ds : List Char) :
    (reading draft .between outer).run (elementChars cs ++ ds) =
      (reading draft .gap outer).run (elementChars cs ++ ds) := by
  obtain ⟨c, w, hw, hblank, hsemicolon, hcomment⟩ := exists_elementChars_eq_cons cs
  have hstep : (reading draft .between outer).step c = (reading draft .gap outer).step c := by
    simp [step, betweenStep, hblank, hsemicolon, hcomment]
  rw [hw, List.cons_append, run_cons, run_cons, hstep]

/-! ## Whole lists -/

/-- **The reader after a list** has its elements as words of fixed text.

**Proof sketch.** Induction on the elements. After each of them the reader is at the end of a word
(`atWordEnd_elementChars`), which the space before the next one completes. -/
lemma atWordEnd_write (draft : Draft) (outer : List Suspended) (first : String)
    (rest : List String) :
    AtWordEnd (draft.literals (first :: rest)) outer
      ((reading draft .gap outer).run (write (first :: rest)).toList) := by
  induction rest generalizing draft first with
  | nil =>
    simpa [write, writeElement, Draft.literals, Draft.word] using
      atWordEnd_elementChars draft outer first.toList
  | cons next rest ih =>
    obtain ⟨hend, -⟩ := atWordEnd_elementChars draft outer first.toList
    have hspace : gapStep (draft.word (.literal (String.ofList first.toList))) outer ' ' =
        reading (draft.word (.literal first)) .gap outer := by
      simp [gapStep, show isLineSpace ' ' = true from rfl]
    have hdraft : (draft.word (.literal first)).literals (next :: rest) =
        draft.literals (first :: next :: rest) := by
      simp [Draft.literals, Draft.word]
    rw [toList_write_cons_cons, run_append, run_cons, hend ' ' rfl, hspace, ← hdraft]
    exact ih (draft.word (.literal first)) next

/-- Where a command could begin, a list begins one. -/
lemma run_between_write (draft : Draft) (outer : List Suspended) (first : String)
    (rest : List String) :
    (reading draft .between outer).run (write (first :: rest)).toList =
      (reading draft .gap outer).run (write (first :: rest)).toList := by
  cases rest with
  | nil =>
    simpa [write, writeElement] using run_between_elementChars draft outer first.toList []
  | cons next rest =>
    rw [toList_write_cons_cons, run_between_elementChars]

end Reader

open CommandScript.Script.Reader

/-- **A written list is a safe script**: reading the text of a list with at least one element gives
a single command, and its words are the elements as fixed texts. Reading the text in brackets gives
a single command with a single word, the substitution of that same command. -/
theorem read_listText (first : String) (rest : List String) :
    read (ListText.write (first :: rest)) = .done [(first :: rest).map Word.literal] ∧
      read ("[" ++ ListText.write (first :: rest) ++ "]") =
        .done [[.substitution [(first :: rest).map Word.literal]]] := by
  constructor
  · obtain ⟨-, hend⟩ := atWordEnd_write {} [] first rest
    rw [read, start, run_between_write, hend]
    simp [Reader.finish, Mode.finish, Draft.finish, Draft.endCommand, Draft.literals]
  · -- the word in the middle of which the bracket opens
    let waiting : Suspended := ⟨{}, false, {}⟩
    obtain ⟨hend, -⟩ := atWordEnd_write {} [waiting] first rest
    have hopen : start.step '[' = reading {} .between [waiting] := rfl
    have hclose : gapStep (Draft.literals {} (first :: rest)) [waiting] ']' =
        close (Draft.literals {} (first :: rest)) [waiting] := rfl
    have htext : ("[" ++ ListText.write (first :: rest) ++ "]").toList =
        '[' :: ((ListText.write (first :: rest)).toList ++ [']']) := by
      simp
    rw [read, htext, run_cons, hopen, run_append, run_between_write, run_cons, hend ']' rfl, hclose]
    simp [waiting, close, Reader.finish, Mode.finish, Pending.finish, Pieces.word, Pieces.flush,
      Pieces.finish, Draft.word, Draft.finish, Draft.endCommand, Draft.literals]

end CommandScript.Script
