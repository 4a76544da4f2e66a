import Mathlib.Tactic.Lemma
import CommandScript.Script.Reader

/-!
# Scripts in brackets

A script in brackets is the script that its text stands for on its own. The reader does not cut that
text out, however. It reads on from the opening bracket, with the word that waits and all that is
around it on its stack, and what it meets at the end is not the end of a text but a closing bracket,
at which words and commands end, escapes and the names of variables are over, and before which more
text of the word may still come.

So two runs of the reader are set side by side: the one over the whole text, and the one over the
text in the brackets alone. They go in step, the stack of the one being the stack of the other with
the waiting words below it, for as long as the bracket stays open. The characters differ in nothing
until a closing bracket comes while only the innermost script is open; there the one run closes the
bracket, and the other would take the character for one of the text. But at this place the text of
the other run ends, and what it makes of its end is what the closing bracket makes of it.

## Main definitions

* `Script.Reader.within` — the reader with more words waiting below those on its stack.
* `Script.Reader.Above` — the words have not been gone on with yet.
* `Script.Bracket` — a bracket in a text, from the opening to the closing one.

## Main results

* `Script.Reader.step_within` — a step of the reader, with more words waiting.
* `Script.Reader.run_within` — a run of the reader, for as long as the bracket stays open.
* `Script.Bracket.read_alone` — the text in brackets is a script on its own, the same as in them.
-/

set_option autoImplicit false

namespace CommandScript.Script

open CommandScript.Text

namespace Reader

/-- The reader with more words waiting below those on its stack. -/
def within (base : List Suspended) : Reader → Reader
  | .reading draft mode outer => .reading draft mode (outer ++ base)
  | .failed e => .failed e
  | .stuck => .stuck

/-- None of the words that wait has been gone on with: they are still below all others. -/
def Above (base : List Suspended) : Reader → Prop
  | .reading _ _ outer => base <:+ outer
  | .failed _ | .stuck => True

/-- The words that wait are put below those on the stack. -/
@[simp] lemma within_reading (base : List Suspended) (draft : Draft) (mode : Mode)
    (outer : List Suspended) :
    (reading draft mode outer).within base = .reading draft mode (outer ++ base) := rfl

/-- A reader that is stuck has no stack. -/
@[simp] lemma within_stuck (base : List Suspended) : stuck.within base = .stuck := rfl

/-- Nor has one that has failed. -/
@[simp] lemma within_failed (base : List Suspended) (e : Error) :
    (failed e).within base = .failed e := rfl

/-! ## Characters that close nothing below -/

section Step

variable {draft : Draft} {outer base : List Suspended} {c : Char}

/-- The character is no closing bracket, or it closes one that was opened above the words that
wait. -/
def StaysAbove (outer : List Suspended) (c : Char) : Prop :=
  c = ']' → outer ≠ []

/-- A character closes the same bracket with more words waiting below. -/
lemma closes_append (h : StaysAbove outer c) : closes (outer ++ base) c = closes outer c := by
  by_cases hc : c = ']'
  · cases outer with
    | nil => exact absurd rfl (h hc)
    | cons w outer => rfl
  · simp only [closes, beq_eq_false_iff_ne.2 hc, Bool.false_and]

/-- And it ends the same words. -/
lemma endsWord_append (h : StaysAbove outer c) :
    endsWord (outer ++ base) c = endsWord outer c := by
  simp only [endsWord, closes_append h]

/-- The bracket that is closed is the innermost one. -/
lemma close_append (draft : Draft) (h : closes outer c = true) :
    close draft (outer ++ base) = (close draft outer).within base := by
  cases outer with
  | nil => simp [closes] at h
  | cons w outer => rfl

/-- A character that belongs to a word leaves what waits below alone. -/
lemma pieceStep_append (quoted : Bool) (pieces : Pieces) :
    pieceStep draft quoted pieces (outer ++ base) c =
      (pieceStep draft quoted pieces outer c).within base := by
  simp only [pieceStep, apply_ite (within base), within_reading, List.cons_append]

/-- So does a character between words. -/
lemma gapStep_append (h : StaysAbove outer c) :
    gapStep draft (outer ++ base) c = (gapStep draft outer c).within base := by
  simp only [gapStep, closes_append h, pieceStep_append, apply_ite (within base), within_reading,
    within_stuck]
  cases hcloses : closes outer c with
  | true => rw [close_append draft hcloses]
  | false => rfl

/-- So does a character of a word that nothing is pending before. -/
lemma plainStep_append (quoted : Bool) (pieces : Pieces) (h : StaysAbove outer c) :
    plainStep draft quoted pieces (outer ++ base) c =
      (plainStep draft quoted pieces outer c).within base := by
  simp only [plainStep, endsWord_append h, gapStep_append h, pieceStep_append,
    apply_ite (within base), within_reading]

/-- So does a character after a backslash. -/
lemma escapeStep_append (quoted : Bool) (pieces : Pieces) (e : Escape) (h : StaysAbove outer c) :
    escapeStep draft quoted pieces e (outer ++ base) c =
      (escapeStep draft quoted pieces e outer c).within base := by
  unfold escapeStep
  split
  · rfl
  · rfl
  · exact plainStep_append quoted _ h

/-- So does any character of a word. -/
lemma wordStep_append (quoted : Bool) (pieces : Pieces) (pending : Pending)
    (h : StaysAbove outer c) :
    wordStep draft quoted pieces pending (outer ++ base) c =
      (wordStep draft quoted pieces pending outer c).within base := by
  cases pending with
  | none => exact plainStep_append quoted pieces h
  | escape e => exact escapeStep_append quoted pieces e h
  | dollar | name taken | nameInBraces taken =>
    simp only [wordStep, plainStep_append _ _ h, apply_ite (within base), within_reading]

/-- **A step with more words waiting** is the step without them, with them below it, if the
character closes nothing below. -/
lemma step_within (mode : Mode) (h : StaysAbove outer c) :
    ((reading draft mode outer).within base).step c =
      ((reading draft mode outer).step c).within base := by
  cases mode with
  | between | gap | gapEscape | closed after =>
    simp only [step, within_reading, betweenStep, endsWord_append h, gapStep_append h,
      escapeStep_append _ _ _ h, apply_ite (within base), within_failed]
  | comment escaped =>
    cases escaped <;> simp only [step, within_reading, apply_ite (within base)]
  | braced inner =>
    simp only [step, within_reading]
    cases inner.step c <;> rfl
  | plain quoted pieces pending => exact wordStep_append quoted pieces pending h

end Step

/-! ## The closing bracket -/

section Closing

variable {draft : Draft} {base : List Suspended}

/-- What a closing bracket may do to a reader that has only the innermost script left above the
words that wait: it closes the bracket, and the script in it is the one that the text would stand
for if it ended there; or it is a character like any other. -/
def Closed (base : List Suspended) (r result : Reader) : Prop :=
  (∃ d, r.finish = .done d.finish ∧ result = close d base) ∨ result = (r.step ']').within base

/-- An escape that is over before a character stands for what it stands for at the end of the
text. -/
lemma eq_close_of_before {e : Escape} {c d : Char} (h : e.step c = .before d) : d = e.close := by
  cases e with
  | start =>
    simp only [Escape.step, Escape.afterBackslash] at h
    split at h <;> cases h
  | continuation =>
    simp only [Escape.step] at h
    split at h
    · cases h
    · exact (Escape.Step.before.inj h).symm
  | code letter room value =>
    simp only [Escape.step] at h
    split at h <;> cases h <;> rfl

variable (hbase : base ≠ [])

include hbase

/-- A closing bracket closes, if a bracket is open. -/
lemma closes_bracket : closes base ']' = true := by
  simp [closes, hbase]

/-- Between words, that is what it does. -/
lemma gapStep_bracket (draft : Draft) : gapStep draft base ']' = close draft base := by
  have hspace : isLineSpace ']' = false := by decide
  simp [gapStep, hspace, closes_bracket hbase]

/-- In a bare word the bracket ends the word first. -/
lemma plainStep_bracket (pieces : Pieces) :
    plainStep draft false pieces base ']' = close (draft.word pieces.finish) base := by
  simp [plainStep, endsWord, closes_bracket hbase, gapStep_bracket hbase]

/-- In a quoted or bare word, no escape and no name being open. -/
lemma closed_plainStep {pending : Pending} {quoted : Bool} {pieces pieces' : Pieces}
    (hfinish : pending.finish pieces = .ok pieces')
    (hstep : ∀ outer, wordStep draft quoted pieces pending outer ']' =
      plainStep draft quoted pieces' outer ']') :
    Closed base (.reading draft (.plain quoted pieces pending) [])
      (wordStep draft quoted pieces pending base ']') := by
  cases quoted with
  | true =>
    refine .inr ?_
    have hquote : ']' ≠ '"' := by decide
    simp only [step, hstep, plainStep, if_true, if_neg hquote]
    have happend : pieceStep draft true pieces' ([] ++ base) ']' =
        (pieceStep draft true pieces' [] ']').within base := pieceStep_append true pieces'
    exact happend
  | false =>
    refine .inl ⟨draft.word pieces'.finish, ?_, ?_⟩
    · simp [Reader.finish, Mode.finish, hfinish]
    · rw [hstep, plainStep_bracket hbase]

/-- In a quoted or bare word, whatever is open in it. -/
lemma closed_wordStep (quoted : Bool) (pieces : Pieces) (pending : Pending) :
    Closed base (.reading draft (.plain quoted pieces pending) [])
      (wordStep draft quoted pieces pending base ']') := by
  cases pending with
  | none => exact closed_plainStep hbase rfl fun _ => rfl
  | dollar => exact closed_plainStep hbase rfl fun _ => rfl
  | name taken =>
    have hname : isNameChar ']' = false := by decide
    exact closed_plainStep hbase rfl fun _ => by simp [wordStep, hname]
  | nameInBraces taken => exact .inr rfl
  | escape e =>
    cases he : e.step ']' with
    | more e' =>
      refine .inr ?_
      simp [step, wordStep, escapeStep, he]
    | last d =>
      refine .inr ?_
      simp [step, wordStep, escapeStep, he]
    | before d =>
      obtain rfl : d = e.close := eq_close_of_before he
      exact closed_plainStep hbase rfl fun _ => by simp [wordStep, escapeStep, he]

/-- **A closing bracket closes the bracket as the end of the text would finish the script**, or it
is a character like any other.

**Proof sketch.** Between commands or words, it closes the bracket at once. In a bare word, an
escape or a name is over, as at the end of the text; then the word is, and the bracket is closed. In
a comment, in braces, in quotes, in a name in braces and right after a backslash, it is a character
like any other. -/
lemma step_closing (mode : Mode) :
    Closed base (.reading draft mode []) ((reading draft mode base).step ']') := by
  cases mode with
  | between =>
    refine .inl ⟨draft, rfl, ?_⟩
    have hblank : isBlank ']' = false := by decide
    simp [step, betweenStep, hblank, gapStep_bracket hbase]
  | gap => exact .inl ⟨draft, rfl, gapStep_bracket hbase draft⟩
  | closed after =>
    refine .inl ⟨draft, rfl, ?_⟩
    simp [step, endsWord, closes_bracket hbase, gapStep_bracket hbase]
  | comment escaped => cases escaped <;> exact .inr rfl
  | gapEscape => exact .inr rfl
  | braced inner =>
    refine .inr ?_
    simp only [step]
    cases inner.step ']' <;> rfl
  | plain quoted pieces pending => exact closed_wordStep hbase quoted pieces pending

end Closing

/-! ## Runs -/

section Run

variable {base : List Suspended}

/-- What waits below the stack is below it. -/
lemma above_within (base : List Suspended) (r : Reader) : (r.within base).Above base := by
  cases r with
  | reading draft mode outer => exact List.suffix_append outer base
  | failed e => trivial
  | stuck => trivial

/-- Once the bracket is closed, its word waits no more. -/
lemma not_above_close (draft : Draft) (w : Suspended) (outer : List Suspended) :
    ¬ (close draft (w :: outer)).Above (w :: outer) := by
  intro h
  have hle : (w :: outer).length ≤ outer.length := List.IsSuffix.length_le h
  exact absurd hle (Nat.not_succ_le_self _)

/-- A step with more words waiting is the step without them, or the character closes the bracket
that they wait for, the script in it being finished as at the end of the text. -/
lemma step_within_or (r : Reader) (c : Char) (w : Suspended) (outer : List Suspended) :
    (r.within (w :: outer)).step c = (r.step c).within (w :: outer) ∨
      c = ']' ∧ ∃ d, r.finish = .done d.finish ∧
        (r.within (w :: outer)).step c = close d (w :: outer) := by
  cases r with
  | failed e => exact .inl rfl
  | stuck => exact .inl rfl
  | reading draft mode inner =>
    by_cases hstays : StaysAbove inner c
    · exact .inl (step_within mode hstays)
    · obtain ⟨rfl, rfl⟩ : c = ']' ∧ inner = [] := by
        simpa [StaysAbove] using hstays
      have hbase : w :: outer ≠ [] := List.cons_ne_nil w outer
      exact (step_closing hbase mode).symm.imp_right fun hclose => ⟨rfl, hclose⟩

/-- A step with more words waiting, after which they still wait. -/
lemma step_within_of_above {r : Reader} {c : Char} {w : Suspended} {outer : List Suspended}
    (h : ((r.within (w :: outer)).step c).Above (w :: outer)) :
    (r.within (w :: outer)).step c = (r.step c).within (w :: outer) := by
  refine (step_within_or r c w outer).resolve_right ?_
  rintro ⟨-, d, -, hclose⟩
  rw [hclose] at h
  exact not_above_close d w outer h

/-- A step with more words waiting, after which they wait no more. -/
lemma exists_close {r : Reader} {c : Char} {w : Suspended} {outer : List Suspended}
    (h : ¬ ((r.within (w :: outer)).step c).Above (w :: outer)) :
    ∃ d, r.finish = .done d.finish ∧
      (r.within (w :: outer)).step c = close d (w :: outer) := by
  refine ((step_within_or r c w outer).resolve_left fun hstep => h ?_).2
  rw [hstep]
  exact above_within (w :: outer) (r.step c)

/-- **A run with more words waiting is the run without them, with them below it**, for as long as
they wait.

**Proof sketch.** Induction on the text, for every state that it is begun in. -/
lemma run_within (w : Suspended) (outer : List Suspended) (r : Reader) (text : List Char)
    (h : ∀ taken, taken <+: text → ((r.within (w :: outer)).run taken).Above (w :: outer)) :
    (r.within (w :: outer)).run text = (r.run text).within (w :: outer) := by
  induction text generalizing r with
  | nil => rfl
  | cons c text ih =>
    have hstep : (r.within (w :: outer)).step c = (r.step c).within (w :: outer) :=
      step_within_of_above (h [c] (List.prefix_append [c] text))
    rw [run_cons, hstep, run_cons]
    refine ih (r.step c) fun taken htaken => ?_
    rw [← hstep]
    exact h (c :: taken) (List.cons_prefix_cons.2 ⟨rfl, htaken⟩)

end Run

end Reader

/-! ## Brackets -/

open Reader

/-- **A bracket in a text**: what stands before it, the text in it, and the word that waits for it
with all that is around it. It may be open in other brackets, and in a bare or a quoted word. -/
structure Bracket (before inside : List Char) (w : Suspended) (outer : List Suspended) : Prop where
  /-- It is opened, and a script is begun. -/
  opened : start.run (before ++ ['[']) = .reading {} .between (w :: outer)
  /-- It stays open up to the end of the text in it. -/
  stays : ∀ taken, taken <+: inside →
    (start.run (before ++ ['['] ++ taken)).Above (w :: outer)
  /-- The next character closes it: the word that waited waits no more. -/
  closed : ∃ draft mode, start.run (before ++ ['['] ++ inside ++ [']']) = .reading draft mode outer

/-- **The text in brackets is a script on its own, the same as in the brackets.** Whenever a bracket
is opened and closed, in whatever word and however deep in other brackets, the text in it can be
read as a script by itself, and that script is what the word goes on with after the bracket.

**Proof sketch.** While the bracket is open, the reader goes in step with one that reads the text in
it from the beginning. The closing bracket cannot be a character like any other then, since the word
would still wait. So it finishes the script as the end of the text does. -/
theorem Bracket.read_alone {before inside : List Char} {w : Suspended} {outer : List Suspended}
    (h : Bracket before inside w outer) :
    ∃ script, read (String.ofList inside) = .done script ∧
      start.run (before ++ ['['] ++ inside ++ [']']) =
        .reading w.draft (.plain w.quoted (w.pieces.word (.substitution script)) .none) outer := by
  have hinside : start.run (before ++ ['['] ++ inside) =
      (start.run inside).within (w :: outer) := by
    rw [run_append, h.opened]
    refine run_within w outer start inside fun taken htaken => ?_
    have habove := h.stays taken htaken
    rwa [run_append, h.opened] at habove
  obtain ⟨draft, mode, hclosed⟩ := h.closed
  rw [run_append, hinside] at hclosed ⊢
  -- were the closing bracket a character like any other, the word would still wait
  have hnot : ¬ (((start.run inside).within (w :: outer)).step ']').Above (w :: outer) := by
    intro habove
    have hrun : ((start.run inside).within (w :: outer)).step ']' = .reading draft mode outer :=
      hclosed
    rw [hrun] at habove
    exact absurd (List.IsSuffix.length_le habove) (Nat.not_succ_le_self _)
  obtain ⟨d, hfinish, hclose⟩ := exists_close hnot
  exact ⟨d.finish, by rwa [read, String.toList_ofList], hclose⟩

/-- In quotes, in a bracket of a bare word: `f [g "[x]` with the inner bracket. -/
theorem Bracket.read_alone_nestedInQuotes :
    Bracket ['f', ' ', '[', 'g', ' ', '"'] ['x'] ⟨⟨[], [.literal "g"]⟩, true, {}⟩
        [⟨⟨[], [.literal "f"]⟩, false, {}⟩] ∧
      ∃ script, read (String.ofList ['x']) = .done script ∧
        start.run (['f', ' ', '[', 'g', ' ', '"'] ++ ['['] ++ ['x'] ++ [']']) =
          .reading ⟨[], [.literal "g"]⟩
            (.plain true (Pieces.word {} (.substitution script)) .none)
            [⟨⟨[], [.literal "f"]⟩, false, {}⟩] := by
  have h : Bracket ['f', ' ', '[', 'g', ' ', '"'] ['x'] ⟨⟨[], [.literal "g"]⟩, true, {}⟩
      [⟨⟨[], [.literal "f"]⟩, false, {}⟩] :=
    { opened := rfl
      stays := by
        intro taken htaken
        obtain rfl | rfl : taken = [] ∨ taken = ['x'] := by
          simpa [List.prefix_cons_iff] using htaken
        · exact List.suffix_rfl
        · exact List.suffix_rfl
      closed := ⟨_, _, rfl⟩ }
  exact ⟨h, h.read_alone⟩

end CommandScript.Script
