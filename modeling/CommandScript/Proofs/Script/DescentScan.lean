import CommandScript.Proofs.ListText.Descent
import CommandScript.Proofs.Script.Completion
import CommandScript.Proofs.Script.Descent

/-!
# Recursive descent and the scan

The scan of a script reads every character once and keeps what it is in the middle of on a stack.
Recursive descent keeps the same on the stack of its calls. So at every place where one of its
readers is called or returns there is a state of the scan that belongs to it: from the state at the
call, the scan makes of the text what it makes of the rest of the text from the state at the return.
The readers are taken one after another, the ones that are called first, and brackets by induction
on how deep they are nested.

This settles when recursive descent comes to an end, since the scan always does, and says so where
it makes no progress. As many turns as the text has characters, and one more, are enough for every
loop. With these, recursive descent is unfinished exactly where the scan is stuck; and the scan is
stuck only at an odd blank between words.

## Main definitions

* `Script.Reader.account` — what the scan makes of the rest of a text.
* `Script.Progress` — what the turns of the loops consume.

## Main results

* `Script.word_agrees`, `Script.command_agrees`, `Script.script_agrees` — the readers agree with the
  scan.
* `Script.descend_eq` — recursive descent reads what the scan reads, or does not come to an end.
* `Script.descent_terminates` — recursive descent comes to an end and reads the whole text, unless
  an odd blank holds it up.
-/

set_option autoImplicit false

namespace CommandScript.Script

open CommandScript.Text

/-- What comes of reading a whole text; a reader that is stuck never finishes. -/
def Outcome.descent {α : Type} : Outcome α → Descent Error α
  | .done a => .read a []
  | .failed e => .failed e
  | .stuck => .unfinished

namespace Reader

/-- What the scan makes of the rest of a text. -/
def account (r : Reader) (text : List Char) : Descent Error (Script String) :=
  (r.run text).finish.descent

/-- The first character is scanned first. -/
@[simp] lemma account_cons (r : Reader) (c : Char) (text : List Char) :
    r.account (c :: text) = (r.step c).account text := rfl

/-- A scan that has failed stays so, whatever follows. -/
@[simp] lemma account_failed (e : Error) (text : List Char) :
    (failed e).account text = .failed e := by
  rw [account, run_failed]
  rfl

/-- A scan that is stuck comes to no end. -/
@[simp] lemma account_stuck (text : List Char) : stuck.account text = .unfinished := by
  rw [account, run_stuck]
  rfl

/-- The scan between commands. -/
def between (outer : List Suspended) (commands : List (Command String)) : Reader :=
  .reading ⟨commands, []⟩ .between outer

/-- The scan between words, a word having been read. -/
def afterWord (draft : Draft) (outer : List Suspended) (w : Word String) : Reader :=
  .reading (draft.word w) .gap outer

/-- The scan in a quoted or bare word, where neither an escape nor a name is open. -/
def inWord (draft : Draft) (quoted : Bool) (outer : List Suspended) (pieces : Pieces) : Reader :=
  .reading draft (.plain quoted pieces .none) outer

end Reader

open Reader

section Agreement

variable {enough : Prop} {n : Nat} {draft : Draft} {outer : List Suspended}

/-! ## The space between words -/

/-- Characters of which the scan takes no notice can be dropped. -/
lemma account_dropWhile {r : Reader} {p : Char → Bool} (h : ∀ c, p c = true → r.step c = r)
    (text : List Char) : r.account (text.dropWhile p) = r.account text := by
  have hrun : r.run (text.dropWhile p) = r.run text := foldl_dropWhile h text
  rw [account, hrun, account]

/-- Between words, line spaces are dropped. -/
lemma step_of_isLineSpace {c : Char} (hc : isLineSpace c = true) :
    (reading draft .gap outer).step c = reading draft .gap outer := by
  simp [step, gapStep, hc]

/-- Line spaces are passed over as the scan passes over them. -/
lemma lineSpace_agrees (text : List Char) :
    (loop lineSpaceTurn (n + 1) () text).Agrees (text.length ≤ n)
      ((reading draft .gap outer).account text) fun _ => (reading draft .gap outer).account := by
  refine Descent.Agrees.loop (x := fun _ => (reading draft .gap outer).account) (fun _ text => ?_)
    (fun _ text _ rest h => .inl (lineSpaceTurn_consumed h)) () text
  rw [← account_dropWhile fun c hc => step_of_isLineSpace hc]
  unfold lineSpaceTurn
  split
  next rest h =>
    have hindent : (reading draft .gap outer).account (Escape.continuation.read rest).2 =
        (reading draft .gap outer).account rest := by
      rw [Escape.read_continuation]
      exact account_dropWhile (fun c hc => step_of_isLineSpace (isLineSpace_of_isIndent hc)) rest
    rw [h]
    exact Descent.Agrees.map (.read hindent.symm)
  next => exact .read rfl

/-! ## What a word is made of -/

section Pieces

variable {quoted : Bool} {pieces : Pieces}

/-- The scan reads an escape as it is read on its own. -/
lemma account_escape (e : Escape) (text : List Char) :
    (reading draft (.plain quoted pieces (.escape e)) outer).account text =
      (inWord draft quoted outer (pieces.char (e.read text).1)).account (e.read text).2 := by
  induction text generalizing e with
  | nil => rfl
  | cons c text ih =>
    rw [account_cons]
    simp only [step, wordStep, escapeStep, Escape.read]
    cases e.step c with
    | more e' => exact ih e'
    | last d => rfl
    | before d => rfl

/-- The scan takes the name of a variable up to the first character that belongs to none. -/
lemma account_name (taken text : List Char) :
    (reading draft (.plain quoted pieces (.name taken)) outer).account text =
      (inWord draft quoted outer (pieces.word (varNamed ((text.takeWhile isNameChar).reverse ++
        taken)))).account (text.dropWhile isNameChar) := by
  induction text generalizing taken with
  | nil => rfl
  | cons c text ih =>
    rw [account_cons]
    simp only [step, wordStep]
    cases hc : isNameChar c with
    | true =>
      rw [List.takeWhile_cons_of_pos hc, List.dropWhile_cons_of_pos hc, List.reverse_cons,
        List.append_assoc]
      exact ih (c :: taken)
    | false =>
      rw [List.takeWhile_cons_of_neg (by simp [hc]), List.dropWhile_cons_of_neg (by simp [hc])]
      rfl

/-- The scan takes the name of a variable in braces up to the closing brace. -/
lemma account_nameInBraces (taken text : List Char) :
    (reading draft (.plain quoted pieces (.nameInBraces taken)) outer).account text =
      match text.dropWhile (· != '}') with
      | [] => .failed (.missing .nameBrace)
      | _ :: rest =>
        (inWord draft quoted outer (pieces.word (varNamed ((text.takeWhile (· != '}')).reverse ++
          taken)))).account rest := by
  induction text generalizing taken with
  | nil => rfl
  | cons c text ih =>
    rw [account_cons]
    simp only [step, wordStep]
    by_cases hc : c = '}'
    · subst hc
      rfl
    · have hother : (c != '}') = true := by simp [hc]
      rw [List.takeWhile_cons_of_pos (p := (· != '}')) hother,
        List.dropWhile_cons_of_pos (p := (· != '}')) hother, List.reverse_cons,
        List.append_assoc, if_neg hc]
      exact ih (c :: taken)

/-- A name in braces is read as the scan reads it. -/
lemma nameInBraces_agrees (text : List Char) :
    (nameInBraces pieces text).Agrees enough
      ((reading draft (.plain quoted pieces (.nameInBraces [])) outer).account text)
      fun p => (inWord draft quoted outer p).account := by
  rw [account_nameInBraces, nameInBraces]
  cases text.dropWhile (· != '}') with
  | nil => exact .failed rfl
  | cons c rest =>
    refine .read ?_
    simp only [varNamed, List.append_nil, List.reverse_reverse]

/-- So is a bare name. -/
lemma bareName_agrees {c : Char} (hc : c ≠ '{') (rest : List Char) :
    (bareName pieces (c :: rest)).Agrees enough
      ((reading draft (.plain quoted pieces .dollar) outer).account (c :: rest))
      fun p => (inWord draft quoted outer p).account := by
  rw [account_cons]
  simp only [step, wordStep, if_neg hc, bareName]
  cases hname : isNameChar c with
  | true =>
    simp only [List.takeWhile_cons_of_pos hname, List.dropWhile_cons_of_pos hname, if_true]
    refine .read ?_
    rw [account_name]
    simp [varNamed]
  | false =>
    rw [List.takeWhile_cons_of_neg (by simp [hname])]
    exact .read rfl

/-- So is what follows a dollar sign. -/
lemma dollar_agrees (text : List Char) :
    (dollar pieces text).Agrees enough
      ((reading draft (.plain quoted pieces .dollar) outer).account text)
      fun p => (inWord draft quoted outer p).account := by
  cases text with
  | nil => exact .read rfl
  | cons c rest =>
    simp only [dollar]
    split
    next hc =>
      subst hc
      exact nameInBraces_agrees rest
    next hc => exact bareName_agrees hc rest

/-- The scripts in brackets that are nested less than `n` deep are read as the scan reads them. -/
def BracketsAgree (n : Nat) : Prop :=
  ∀ s outer text, (script n true text).Agrees (text.length < n)
    ((between (s :: outer) []).account text)
    fun script => (between (s :: outer) script.reverse).account

/-- At the end of the text a bracket is missing; at the closing bracket the word goes on. -/
lemma bracket_agrees (hscript : BracketsAgree n) (text : List Char) :
    (bracket (script n true) pieces text).Agrees (text.length < n)
      ((between (⟨draft, quoted, pieces⟩ :: outer) []).account text)
      fun p => (inWord draft quoted outer p).account := by
  refine Descent.Agrees.bind (hscript _ outer text) fun script rest h => ?_
  obtain rfl | ⟨-, rest', rfl⟩ := rest_of_script h
  · exact .failed rfl
  · refine .read ?_
    have hclose : (between (⟨draft, quoted, pieces⟩ :: outer) script.reverse).step ']' =
        inWord draft quoted outer (pieces.word (.substitution script)) := by
      have hfinish : (Draft.mk script.reverse []).finish = script := List.reverse_reverse script
      exact congrArg (fun s => inWord draft quoted outer (pieces.word (.substitution s))) hfinish
    rw [account_cons, hclose]

/-- So is a piece of a word, if brackets are. -/
lemma piece_agrees (hscript : BracketsAgree n) (c : Char) (rest : List Char) :
    (piece (script n true) pieces c rest).Agrees (rest.length < n)
      ((pieceStep draft quoted pieces outer c).account rest)
      fun p => (inWord draft quoted outer p).account := by
  unfold piece pieceStep
  repeat' split
  · exact bracket_agrees hscript rest
  · exact dollar_agrees rest
  · exact Descent.Agrees.map (.read (account_escape .start rest))
  · exact .read rfl

end Pieces

/-! ## Words -/

/-- Whether a word is in brackets can be seen on the stack of the scan. -/
lemma endsWord_eq (outer : List Suspended) (c : Char) :
    Reader.endsWord outer c = endsWord (!outer.isEmpty) c := by
  simp only [Reader.endsWord, endsWord, closes]

/-- The end of a word is read as the scan reads it. -/
lemma wordEnd_agrees (after : Closer) (w : Word String) (text : List Char) :
    (wordEnd (!outer.isEmpty) after w text).Agrees enough
      ((reading (draft.word w) (.closed after) outer).account text)
      fun w => (afterWord draft outer w).account := by
  cases text with
  | nil => exact .read rfl
  | cons c rest =>
    rw [account_cons]
    simp only [wordEnd, step, endsWord_eq]
    split
    · exact .read rfl
    · exact .failed (account_failed _ rest)

/-- The scan takes text in braces as it is read on its own. -/
lemma account_braced (b : Braced) (text : List Char) :
    (reading draft (.braced b) outer).account text =
      match b.read text with
      | none => .failed (.missing .brace)
      | some (inner, rest) =>
        (reading (draft.word (.literal (String.ofList inner))) (.closed .brace) outer).account
          rest := by
  induction text generalizing b with
  | nil => rfl
  | cons c text ih =>
    rw [account_cons]
    simp only [step, Braced.read]
    cases b.step c with
    | ok b' => exact ih b'
    | error inner => rfl

/-- So is a braced word. -/
lemma bracedWord_agrees (text : List Char) :
    (bracedWord (!outer.isEmpty) text).Agrees enough
      ((reading draft (.braced {}) outer).account text)
      fun w => (afterWord draft outer w).account := by
  rw [account_braced, bracedWord]
  cases Braced.read {} text with
  | none => exact .failed rfl
  | some read => exact wordEnd_agrees _ _ _

section Nested

variable (hscript : BracketsAgree n)

include hscript

/-- The loop over a quoted word agrees with the scan. -/
lemma quoted_agrees (pieces : Pieces) (text : List Char) :
    (loop (quotedTurn (script n true) (!outer.isEmpty)) (n + 1) pieces text).Agrees
      (text.length ≤ n) ((inWord draft true outer pieces).account text)
      fun w => (afterWord draft outer w).account := by
  refine Descent.Agrees.loop (x := fun pieces => (inWord draft true outer pieces).account)
    (fun pieces text => ?_)
    (fun _ _ _ _ h => .inl (quotedTurn_consumed (script_leaves n true) h)) pieces text
  cases text with
  | nil => exact .failed rfl
  | cons c rest =>
    rw [account_cons]
    simp only [quotedTurn, inWord, step, wordStep, plainStep, if_true]
    split
    · exact Descent.Agrees.map (wordEnd_agrees _ _ rest)
    · exact Descent.Agrees.map ((piece_agrees hscript c rest).mono Nat.lt_of_succ_le)

/-- The loop over a bare word agrees with the scan. -/
lemma bare_agrees (pieces : Pieces) (text : List Char) :
    (loop (bareTurn (script n true) (!outer.isEmpty)) (n + 1) pieces text).Agrees
      (text.length ≤ n) ((inWord draft false outer pieces).account text)
      fun w => (afterWord draft outer w).account := by
  refine Descent.Agrees.loop (x := fun pieces => (inWord draft false outer pieces).account)
    (fun pieces text => ?_)
    (fun _ _ _ _ h => .inl (bareTurn_consumed (script_leaves n true) h)) pieces text
  cases text with
  | nil => exact .read rfl
  | cons c rest =>
    rw [account_cons]
    simp only [bareTurn, inWord, step, wordStep, plainStep, endsWord_eq]
    split
    · exact .read rfl
    · exact Descent.Agrees.map ((piece_agrees hscript c rest).mono Nat.lt_of_succ_le)

omit hscript in
/-- Between words, the scan is stuck at an odd blank. -/
lemma account_of_facesOddBlank {text : List Char} (h : FacesOddBlank text) :
    (reading draft .gap outer).account text = .unfinished := by
  obtain ⟨c, rest, rfl, hblank, hline, hnewline⟩ := h.exists_cons
  have hsemicolon : c ≠ ';' := ne_of_isBlank hblank (by decide)
  have hbracket : c ≠ ']' := ne_of_isBlank hblank (by decide)
  have hbackslash : c ≠ '\\' := ne_of_isBlank hblank (by decide)
  have hbrace : c ≠ '{' := ne_of_isBlank hblank (by decide)
  have hquote : c ≠ '"' := ne_of_isBlank hblank (by decide)
  have hstep : (reading draft .gap outer).step c = .stuck := by
    simp [step, gapStep, closes, *]
  rw [account_cons, hstep, account_stuck]

omit hscript in
/-- Where a bare word begins, the scan between words is already in it.

**Proof sketch.** A backslash that does not continue the line opens an escape of the word. Any other
character is read as a character of the word. -/
lemma account_bare {c : Char} {rest : List Char} (hsettled : Settled (c :: rest))
    (hcommand : endsCommand (!outer.isEmpty) c = false) (hbrace : c ≠ '{') (hquote : c ≠ '"')
    (hblank : isBlank c = false) :
    (reading draft .gap outer).account (c :: rest) =
      (inWord draft false outer {}).account (c :: rest) := by
  have hline : isLineSpace c = false := hsettled.space c rest rfl
  simp only [endsCommand, Bool.or_eq_false_iff, beq_eq_false_iff_ne] at hcommand
  obtain ⟨⟨hnewline, hsemicolon⟩, hbracket⟩ := hcommand
  have hcloses : closes outer c = false := hbracket
  have hends : Reader.endsWord outer c = false := by
    simp [Reader.endsWord, hblank, hsemicolon, hcloses]
  have hword : (inWord draft false outer {}).step c = pieceStep draft false {} outer c := by
    simp [inWord, step, wordStep, plainStep, hends]
  rw [account_cons, account_cons, hword]
  by_cases hbackslash : c = '\\'
  · subst hbackslash
    have hgap : (reading draft .gap outer).step '\\' = .reading draft .gapEscape outer := by
      simp [step, gapStep, hline, hcloses]
    rw [hgap]
    cases rest with
    | nil => rfl
    | cons d rest =>
      have hd : d ≠ '\n' := by
        rintro rfl
        exact hsettled.continuation rest rfl
      rw [account_cons]
      simp only [step, if_neg hd]
      rfl
  · have hgap : (reading draft .gap outer).step c = pieceStep draft false {} outer c := by
      simp [step, gapStep, *]
    rw [hgap]

/-- **A word agrees with the scan**, where the space before it is skipped and the command does not
end. -/
lemma word_agrees {c : Char} {rest : List Char} (hsettled : Settled (c :: rest))
    (hcommand : endsCommand (!outer.isEmpty) c = false) :
    (word (n + 1) (script n true) (!outer.isEmpty) c rest).Agrees ((c :: rest).length ≤ n)
      ((reading draft .gap outer).account (c :: rest))
      fun w => (afterWord draft outer w).account := by
  have hline : isLineSpace c = false := hsettled.space c rest rfl
  have hshorter : (c :: rest).length ≤ n → rest.length ≤ n := Nat.le_of_succ_le
  unfold word
  split
  next hbrace =>
    subst hbrace
    rw [account_cons]
    simp only [step, gapStep, hline]
    exact bracedWord_agrees rest
  next hbrace =>
    split
    next hquote =>
      subst hquote
      rw [account_cons]
      simp only [step, gapStep, hline]
      exact (quoted_agrees hscript {} rest).mono hshorter
    next hquote =>
      cases hblank : isBlank c with
      | false =>
        rw [account_bare hsettled hcommand hbrace hquote hblank]
        exact bare_agrees hscript {} (c :: rest)
      | true =>
        -- the word is empty, and both accounts are unfinished, whatever it is
        have hends : endsWord (!outer.isEmpty) c = true := by simp [endsWord, hblank]
        obtain ⟨-, hnewline⟩ := isBlank_of_endsWord hends hcommand
        have hodd : FacesOddBlank (c :: rest) :=
          facesOddBlank_cons_iff.2 ⟨hblank, hline, hnewline⟩
        rw [loop, bareTurn_of_endsWord _ hends]
        refine .read ?_
        rw [account_of_facesOddBlank hodd, afterWord, account_of_facesOddBlank hodd]

/-! ## Commands -/

omit hscript in
/-- Where a command ends, it makes no difference to the scan if it has been ended before. -/
lemma account_endCommand {text : List Char}
    (h : ∀ c rest, text = c :: rest → endsCommand (!outer.isEmpty) c = true) :
    (reading draft .gap outer).account text =
      (reading draft.endCommand .between outer).account text := by
  have hfinish : draft.endCommand.finish = draft.finish := by
    unfold Draft.finish Draft.endCommand
    split <;> simp_all
  cases text with
  | nil =>
    simp only [account, run_nil, Reader.finish, Mode.finish, hfinish]
  | cons c rest =>
    have hc := h c rest rfl
    simp only [endsCommand, Bool.or_eq_true, beq_iff_eq] at hc
    obtain (rfl | rfl) | hbracket := hc
    · rfl
    · rfl
    · simp only [Bool.and_eq_true, beq_iff_eq, Bool.not_eq_true'] at hbracket
      obtain ⟨rfl, houter⟩ := hbracket
      cases outer with
      | nil => cases houter
      | cons s outer =>
        have hclose : close draft.endCommand (s :: outer) = close draft (s :: outer) := by
          simp only [close, hfinish]
        exact congrArg (fun r : Reader => r.account rest) hclose.symm

/-- The command that is being read is ended with the words read so far. -/
def afterCommand (outer : List Suspended) (commands : List (Command String))
    (words : List (Word String)) : Reader :=
  .reading (Draft.mk commands words).endCommand .between outer

omit hscript in
/-- After a command the scan is between commands, with the command added. -/
lemma afterCommand_eq (outer : List Suspended) (commands : List (Command String))
    (words : List (Word String)) :
    afterCommand outer commands words = between outer (addCommand commands words) := by
  cases words <;> rfl

/-- A further word of a command is read as the scan reads it. -/
lemma nextWord_agrees (commands : List (Command String)) (words : List (Word String))
    {text : List Char} (hsettled : Settled text) :
    (nextWord (n + 1) (script n true) (!outer.isEmpty) words text).Agrees (text.length ≤ n)
      ((reading ⟨commands, words⟩ .gap outer).account text)
      (Turn.elim (fun words => (reading ⟨commands, words⟩ .gap outer).account)
        fun words => (afterCommand outer commands words).account) := by
  cases text with
  | nil => exact .read (account_endCommand nofun)
  | cons c rest =>
    simp only [nextWord]
    split
    next hc =>
      refine .read (account_endCommand ?_)
      rintro d rest' ⟨⟩
      exact hc
    next hc => exact Descent.Agrees.map (word_agrees hscript hsettled (by simpa using hc))

/-- **The loop over the words of a command agrees with the scan.** -/
lemma command_agrees (commands : List (Command String)) (words : List (Word String))
    (text : List Char) :
    (loop (commandTurn (n + 1) (script n true) (!outer.isEmpty)) (n + 1) words text).Agrees
      (text.length ≤ n) ((reading ⟨commands, words⟩ .gap outer).account text)
      fun words => (afterCommand outer commands words).account := by
  refine Descent.Agrees.loop (x := fun words => (reading ⟨commands, words⟩ .gap outer).account)
    (fun words text => ?_) (fun words text words' rest h => ?_) words text
  · refine Descent.Agrees.bind (lineSpace_agrees text) fun _ rest hspace => ?_
    have hrest : rest <:+ text := loop_leaves lineSpaceTurn_leaves _ rest hspace
    exact (nextWord_agrees hscript commands words (settled_of_lineSpace hspace)).mono
      (Nat.le_trans hrest.length_le)
  · obtain hconsumed | ⟨hodd, -⟩ := commandTurn_consumed (script_leaves n true) h
    · exact .inl hconsumed
    · exact .inr (account_of_facesOddBlank hodd)

/-! ## Scripts -/

omit hscript in
/-- Between commands, blanks and semicolons are dropped. -/
lemma step_of_separates (commands : List (Command String)) {c : Char} (hc : separates c = true) :
    (between outer commands).step c = between outer commands := by
  have hor : isBlank c = true ∨ c = ';' := by simpa [separates] using hc
  simp only [between, step, betweenStep, if_pos hor]

omit hscript in
/-- The scan skips a comment. -/
lemma account_comment (commands : List (Command String)) (text : List Char) :
    (reading ⟨commands, []⟩ (.comment false) outer).account text =
      (between outer commands).account (skipComment text) := by
  fun_induction skipComment text with
  | case1 => rfl
  | case2 => rfl
  | case3 d rest ih => exact ih
  | case4 rest => rfl
  | case5 c rest hend hbackslash hnewline ih =>
    rw [account_cons, ← ih]
    have hc : c ≠ '\\' := by
      rintro rfl
      cases rest with
      | nil => exact hend rfl rfl
      | cons d rest => exact hbackslash d rest rfl rfl
    simp only [step, if_neg hc, if_neg fun h => hnewline h]

/-- A further command is read as the scan reads it. -/
lemma nextCommand_agrees (commands : List (Command String)) {text : List Char}
    (hseparates : ∀ c rest, text = c :: rest → separates c = false) :
    (nextCommand (n + 1) (script n true) (!outer.isEmpty) commands text).Agrees (text.length ≤ n)
      ((between outer commands).account text)
      (Turn.elim (fun commands => (between outer commands).account)
        fun script => (between outer script.reverse).account) := by
  cases text with
  | nil =>
    refine .read ?_
    simp only [Turn.elim, List.reverse_reverse]
  | cons c rest =>
    have hc : ¬ (isBlank c = true ∨ c = ';') := by
      simpa [separates] using hseparates c rest rfl
    simp only [nextCommand]
    split
    · refine .read ?_
      simp only [Turn.elim, List.reverse_reverse]
    · split
      next hcomment =>
        subst hcomment
        exact .read (account_comment commands rest)
      next hcomment =>
        -- the first character of a command is read as in a gap between words
        have hgap : (between outer commands).account (c :: rest) =
            (reading ⟨commands, []⟩ .gap outer).account (c :: rest) := by
          simp only [account_cons, between, step, betweenStep, if_neg hc, if_neg hcomment]
        rw [hgap]
        have hcommand := @command_agrees n outer hscript commands [] (c :: rest)
        simp only [afterCommand_eq] at hcommand
        exact Descent.Agrees.map hcommand

end Nested

/-- **Recursive descent agrees with the scan** on every script, in brackets or not.

**Proof sketch.** Induction on the number of turns, which is also how deep brackets may be nested. A
bracket consumes a character, so that one turn less is enough for the script in it. -/
lemma script_agrees (n : Nat) (outer : List Suspended) (text : List Char) :
    (script n (!outer.isEmpty) text).Agrees (text.length < n) ((between outer []).account text)
      fun script => (between outer script.reverse).account := by
  induction n generalizing outer text with
  | zero => exact fun h => absurd (h rfl) (Nat.not_lt_zero _)
  | succ n ih =>
    have hscript : BracketsAgree n := fun s outer text => ih (s :: outer) text
    have hturn : ∀ commands text,
        (scriptTurn (n + 1) (script n true) (!outer.isEmpty) commands text).Agrees
          (text.length ≤ n) ((between outer commands).account text)
          (Turn.elim (fun commands => (between outer commands).account)
            fun script => (between outer script.reverse).account) := by
      intro commands text
      rw [← account_dropWhile fun c hc => step_of_separates commands hc]
      exact (nextCommand_agrees hscript commands fun c rest h => eq_false_of_dropWhile h).mono
        (Nat.le_trans (List.dropWhile_suffix separates).length_le)
    have hloop := Descent.Agrees.loop hturn
      (fun _ _ _ _ h => .inl (scriptTurn_consumed (script_leaves n true) h)) [] text
    exact hloop.mono Nat.le_of_lt_succ

end Agreement

/-! ## Whole texts -/

/-- **Recursive descent reads what the scan reads**, unless the turns did not suffice. -/
lemma descend_eq {t : String} {turns : Nat}
    (h : descend turns t = .unfinished → t.toList.length < turns) :
    descend turns t = (read t).descent := by
  have hagrees : (read t).descent = (descend turns t).bind
      fun script => (between [] script.reverse).account :=
    script_agrees turns [] t.toList h
  rw [hagrees]
  cases hread : descend turns t with
  | failed e => rfl
  | unfinished => rfl
  | read script rest =>
    obtain rfl : rest = [] := (rest_of_script hread).resolve_right nofun
    have hfinish : (between [] script.reverse).account [] = .read script.reverse.reverse [] := rfl
    rw [List.reverse_reverse] at hfinish
    exact hfinish.symm

/-- **What the turns of the loops consume that are not the last ones**, wherever they are taken, in
brackets or not. The scripts in brackets that a turn meets are read with `n` turns. -/
structure Progress (n : Nat) (bracketed : Bool) (text : List Char) : Prop where
  /-- The loop over the commands of a script. -/
  betweenCommands : ∀ turns commands commands' rest,
    scriptTurn turns (script n true) bracketed commands text = .read (.again commands') rest →
      Consumed text rest
  /-- The loop over the words of a command, which alone may consume nothing. -/
  betweenWords : ∀ turns words words' rest,
    commandTurn turns (script n true) bracketed words text = .read (.again words') rest →
      Consumed text rest ∨ FacesOddBlank text ∧ rest = text
  /-- It does so if an odd blank comes next. -/
  oddBlank : FacesOddBlank text → ∀ turns words,
    commandTurn (turns + 1) (script n true) bracketed words text =
      .read (.again (.literal "" :: words)) text
  /-- The loop over the space between words. -/
  lineSpace : ∀ rest, lineSpaceTurn () text = .read (.again ()) rest → Consumed text rest
  /-- The loop over a quoted word. -/
  quoted : ∀ pieces pieces' rest,
    quotedTurn (script n true) bracketed pieces text = .read (.again pieces') rest →
      Consumed text rest
  /-- The loop over a bare word. -/
  bare : ∀ pieces pieces' rest,
    bareTurn (script n true) bracketed pieces text = .read (.again pieces') rest →
      Consumed text rest

/-- Every turn of the descent takes some of the text, or is the last. -/
lemma progress (n : Nat) (bracketed : Bool) (text : List Char) : Progress n bracketed text where
  betweenCommands _ _ _ _ := scriptTurn_consumed (script_leaves n true)
  betweenWords _ _ _ _ := commandTurn_consumed (script_leaves n true)
  oddBlank h _ := commandTurn_of_facesOddBlank h
  lineSpace _ := lineSpaceTurn_consumed
  quoted _ _ _ := quotedTurn_consumed (script_leaves n true)
  bare _ _ _ := bareTurn_consumed (script_leaves n true)

/-- In a text whose blanks are plain ones, no odd blank comes next, at no place. -/
lemma not_facesOddBlank {cs text : List Char}
    (hcs : ∀ c ∈ cs, isBlank c = true → isPlainBlank c = true) (htext : text <:+ cs) :
    ¬ FacesOddBlank text := by
  rintro ⟨c, hc, hblank, hplain⟩
  have hmem : c ∈ cs := htext.subset (List.mem_of_mem_head? hc)
  rw [hcs c hmem hblank] at hplain
  cases hplain

/-- If the scan is stuck, no number of turns is enough. -/
lemma descend_of_stuck {t : String} (h : read t = .stuck) (turns : Nat) :
    descend turns t = .unfinished := by
  by_cases hunfinished : descend turns t = .unfinished
  · exact hunfinished
  · have hread : descend turns t = (read t).descent := descend_eq fun h => absurd h hunfinished
    rw [h] at hread
    exact hread

/-- **Recursive descent comes to an end, because its loops consume what they read.** As many turns
as the text has characters, and one more, are enough for every loop.

A list text is read to its end, or an error is found in it. So is a script whose blanks are plain
ones; if there is no error, nothing is left of the text. For an arbitrary text, recursive descent
comes to what the scan comes to; and where the scan is stuck, no number of turns is enough.

Every turn of every loop that is not the last one consumes a character, with one exception: a turn
of the loop over the words of a command leaves the text as it is if an odd blank comes next, and
only then. There is none in a text whose blanks are plain ones. -/
theorem descent_terminates (t : String) :
    (∀ turns, t.toList.length < turns →
      ListText.descend turns t = .ofExcept (ListText.read t)) ∧
    ((∀ c ∈ t.toList, isBlank c = true → isPlainBlank c = true) →
      (∀ turns, t.toList.length < turns →
        (∃ script, descend turns t = .read script [] ∧ read t = .done script) ∨
          ∃ e, descend turns t = .failed e ∧ read t = .failed e) ∧
      ∀ text, text <:+ t.toList → ¬ FacesOddBlank text) ∧
    (∀ turns, t.toList.length < turns → descend turns t = (read t).descent) ∧
    (∀ turns script rest, descend turns t = .read script rest → rest = []) ∧
    (read t = .stuck → ∀ turns, descend turns t = .unfinished) ∧
    (∀ text, ListText.Progress text) ∧
    ∀ n bracketed text, Progress n bracketed text := by
  refine ⟨fun turns h => ListText.descend_eq h, fun ht => ⟨fun turns h => ?_, fun text =>
    not_facesOddBlank ht⟩, fun turns h => descend_eq fun _ => h, fun turns script rest h =>
    (rest_of_script h).resolve_right nofun, descend_of_stuck, ListText.progress, progress⟩
  have hread : descend turns t = (read t).descent := descend_eq fun _ => h
  obtain ⟨script, hdone⟩ | ⟨⟨what, hfailed⟩, -⟩ | ⟨after, hfailed, -⟩ := read_cases ht
  · rw [hdone] at hread
    exact .inl ⟨script, hread, hdone⟩
  · rw [hfailed] at hread
    exact .inr ⟨_, hread, hfailed⟩
  · rw [hfailed] at hread
    exact .inr ⟨_, hread, hfailed⟩

/-- A comment, a script in brackets in a quoted word, and a line that is continued: 24 turns are
enough. -/
theorem descent_terminates_nested :
    (∀ c ∈ "# x\na \"[b {c}]\" \\\n d".toList, isBlank c = true → isPlainBlank c = true) ∧
      ∃ script, descend 24 "# x\na \"[b {c}]\" \\\n d" = .read script [] := by
  have hplain : ("# x\na \"[b {c}]\" \\\n d".toList.filter isBlank).all isPlainBlank = true := by
    decide +kernel
  have hblanks : ∀ c ∈ "# x\na \"[b {c}]\" \\\n d".toList,
      isBlank c = true → isPlainBlank c = true :=
    fun c hc hblank => List.all_eq_true.1 hplain c (List.mem_filter.2 ⟨hc, hblank⟩)
  obtain ⟨-, hscript, -⟩ := descent_terminates "# x\na \"[b {c}]\" \\\n d"
  obtain ⟨script, hread, -⟩ | ⟨e, -, hfailed⟩ := (hscript hblanks).1 24 (by decide +kernel)
  · exact ⟨hblanks, script, hread⟩
  · have hcomplete : ∀ e, read "# x\na \"[b {c}]\" \\\n d" ≠ .failed e := nofun
    exact absurd hfailed (hcomplete e)

-- A no-break space is an odd blank.
example (turns : Nat) : descend turns "a\u00a0b" = .unfinished :=
  descend_of_stuck rfl turns

end CommandScript.Script
