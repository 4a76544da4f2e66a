import CommandScript.Proofs.Text.Descent
import CommandScript.Script.Reader

/-!
# Reading scripts by recursive descent

A script can be read by readers that call each other: one for the commands of a script, in it one
for the words of a command, in it one for what a word is made of, and there, at an opening bracket,
the one for scripts again. Five of them are loops, and it depends on what they consume whether they
come to an end.

Two notions of a blank meet here. Between the words of a command, the *line spaces* are skipped; a
bare word ends before any *blank*. A blank that is neither a line space nor a newline falls between
the two: it is not skipped, it does not end the command, and the word that begins there ends before
it. So the loop over the words of a command adds an empty word and stands where it stood. This is
the only turn of any of the loops that is not the last one and consumes nothing. It happens in every
context, since a bracket changes only what `]` means.

## Main definitions

* `Script.lineSpaceTurn`, `Script.bareTurn`, `Script.quotedTurn`, `Script.commandTurn`,
  `Script.scriptTurn` — a turn of each loop.
* `Script.script`, `Script.descend` — scripts, read by recursive descent.
* `Script.FacesOddBlank` — a blank comes next that is neither a line space nor a newline.

## Main results

* `Script.lineSpaceTurn_consumed`, `Script.bareTurn_consumed`, `Script.quotedTurn_consumed`,
  `Script.scriptTurn_consumed` — every turn that is not the last one consumes a character.
* `Script.commandTurn_consumed` — so does every turn of the loop over the words of a command, unless
  an odd blank comes next.
* `Script.commandTurn_of_facesOddBlank` — if one does, the turn leaves the text as it is.
* `Script.rest_of_script` — a script ends at the end of the text or before its closing bracket.
-/

set_option autoImplicit false

namespace CommandScript.Script

open CommandScript.Text

/-! ## The loops -/

/-- Whether a word ends before the character. -/
def endsWord (bracketed : Bool) (c : Char) : Bool :=
  isBlank c || c == ';' || (c == ']' && bracketed)

/-- Whether a command ends before the character. -/
def endsCommand (bracketed : Bool) (c : Char) : Bool :=
  c == '\n' || c == ';' || (c == ']' && bracketed)

/-- Whether the character may stand between two commands. -/
def separates (c : Char) : Bool :=
  isBlank c || c == ';'

/-- A turn of the loop over the space between words: the line spaces and, if the line is continued,
the backslash, the newline and the indent. -/
def lineSpaceTurn (_ : Unit) (text : List Char) : Descent Error (Turn Unit Unit) :=
  match text.dropWhile isLineSpace with
  | '\\' :: '\n' :: rest => (escape ('\n' :: rest)).map fun _ => .again ()
  | rest => .read (.finished ()) rest

/-- After the closing brace or quote of a word the word must end. -/
def wordEnd (bracketed : Bool) (after : Closer) (w : Word String) :
    List Char → Descent Error (Word String)
  | [] => .read w []
  | c :: rest => if endsWord bracketed c then .read w (c :: rest) else .failed (.extra after)

/-- Reads a word in braces after its opening brace. -/
def bracedWord (bracketed : Bool) (text : List Char) : Descent Error (Word String) :=
  match Braced.read {} text with
  | none => .failed (.missing .brace)
  | some (inner, rest) => wordEnd bracketed .brace (.literal (String.ofList inner)) rest

/-- Reads the name of a variable in braces after the opening brace. -/
def nameInBraces (pieces : Pieces) (text : List Char) : Descent Error Pieces :=
  match text.dropWhile (· != '}') with
  | [] => .failed (.missing .nameBrace)
  | _ :: rest =>
    .read (pieces.word (.var (String.ofList (text.takeWhile (· != '}'))))) rest

/-- Reads the name of a variable, which may turn out to be none. -/
def bareName (pieces : Pieces) (text : List Char) : Descent Error Pieces :=
  match text.takeWhile isNameChar with
  | [] => .read (pieces.char '$') text
  | c :: name =>
    .read (pieces.word (.var (String.ofList (c :: name)))) (text.dropWhile isNameChar)

/-- Reads a variable after its dollar sign. -/
def dollar (pieces : Pieces) : List Char → Descent Error Pieces
  | [] => bareName pieces []
  | c :: rest => if c = '{' then nameInBraces pieces rest else bareName pieces (c :: rest)

section Loops

variable (turns : Nat) (inner : List Char → Descent Error (Script String)) (bracketed : Bool)

/-- Reads a script after its opening bracket, and its closing bracket. -/
def bracket (pieces : Pieces) (text : List Char) : Descent Error Pieces :=
  (inner text).bind fun script rest =>
    match rest with
    | ']' :: rest => .read (pieces.word (.substitution script)) rest
    | _ => .failed (.missing .bracket)

/-- Reads a character of a bare or quoted word, or the substitution that begins with it. -/
def piece (pieces : Pieces) (c : Char) (rest : List Char) : Descent Error Pieces :=
  if c = '[' then bracket inner pieces rest
  else if c = '$' then dollar pieces rest
  else if c = '\\' then (escape rest).map pieces.char
  else .read (pieces.char c) rest

/-- A turn of the loop over a quoted word. -/
def quotedTurn (pieces : Pieces) : List Char → Descent Error (Turn Pieces (Word String))
  | [] => .failed (.missing .quote)
  | c :: rest =>
    if c = '"' then (wordEnd bracketed .quote pieces.finish rest).map .finished
    else (piece inner pieces c rest).map .again

/-- A turn of the loop over a bare word. -/
def bareTurn (pieces : Pieces) : List Char → Descent Error (Turn Pieces (Word String))
  | [] => .read (.finished pieces.finish) []
  | c :: rest =>
    if endsWord bracketed c then .read (.finished pieces.finish) (c :: rest)
    else (piece inner pieces c rest).map .again

/-- Reads a word that begins with the character. -/
def word (c : Char) (rest : List Char) : Descent Error (Word String) :=
  if c = '{' then bracedWord bracketed rest
  else if c = '"' then loop (quotedTurn inner bracketed) turns {} rest
  else loop (bareTurn inner bracketed) turns {} (c :: rest)

/-- Reads the next word of a command, if the command does not end, the space before it being
skipped. -/
def nextWord (words : List (Word String)) :
    List Char → Descent Error (Turn (List (Word String)) (List (Word String)))
  | [] => .read (.finished words) []
  | c :: rest =>
    if endsCommand bracketed c then .read (.finished words) (c :: rest)
    else (word turns inner bracketed c rest).map fun w => .again (w :: words)

/-- A turn of the loop over the words of a command, the latest first. The loops within the turn are
given `turns` turns. -/
def commandTurn (words : List (Word String)) (text : List Char) :
    Descent Error (Turn (List (Word String)) (List (Word String))) :=
  (loop lineSpaceTurn turns () text).bind fun _ => nextWord turns inner bracketed words

/-- What is left of a text after a comment, given without its number sign. -/
def skipComment : List Char → List Char
  | [] => []
  | '\\' :: [] => []
  | '\\' :: _ :: rest => skipComment rest
  | '\n' :: rest => rest
  | _ :: rest => skipComment rest

/-- Adds a command, given with its latest word first. A command without words is none. -/
def addCommand (commands : List (Command String)) (words : List (Word String)) :
    List (Command String) :=
  if words.isEmpty then commands else words.reverse :: commands

/-- Reads what stands at the beginning of a command: the end of the script, a comment, or a
command. -/
def nextCommand (commands : List (Command String)) :
    List Char → Descent Error (Turn (List (Command String)) (Script String))
  | [] => .read (.finished commands.reverse) []
  | c :: rest =>
    if c == ']' && bracketed then .read (.finished commands.reverse) (c :: rest)
    else if c = '#' then .read (.again commands) (skipComment rest)
    else
      (loop (commandTurn turns inner bracketed) turns [] (c :: rest)).map fun words =>
        .again (addCommand commands words)

/-- A turn of the loop over the commands of a script, the latest first. -/
def scriptTurn (commands : List (Command String)) (text : List Char) :
    Descent Error (Turn (List (Command String)) (Script String)) :=
  nextCommand turns inner bracketed commands (text.dropWhile separates)

end Loops

/-- Reads a script, in brackets or not. Brackets may be nested as deep as the number of turns says,
and every loop is given that many turns, less one for each bracket around it. -/
def script : Nat → Bool → List Char → Descent Error (Script String)
  | 0, _, _ => .unfinished
  | n + 1, bracketed, text =>
    loop (scriptTurn (n + 1) (script n true) bracketed) (n + 1) [] text

/-- The script that a text stands for, read by recursive descent. -/
def descend (turns : Nat) (text : String) : Descent Error (Script String) :=
  script turns false text.toList

/-! ## The space between words -/

section LineSpace

variable {turns : Nat} {text rest : List Char}

/-- Neither a line space nor the continuation of the line comes next. -/
structure Settled (text : List Char) : Prop where
  /-- What comes next is no line space. -/
  space : ∀ c rest, text = c :: rest → isLineSpace c = false
  /-- The line is not continued here. -/
  continuation : ∀ rest, text ≠ '\\' :: '\n' :: rest

/-- A turn over line spaces leaves a part of the text. -/
lemma lineSpaceTurn_leaves (s : Unit) (text : List Char) : (lineSpaceTurn s text).Leaves text := by
  have hsuffix : text.dropWhile isLineSpace <:+ text := List.dropWhile_suffix _
  unfold lineSpaceTurn
  split
  next rest h =>
    rw [h] at hsuffix
    exact ((escape_leaves _).map _).of_suffix ((List.suffix_cons '\\' _).trans hsuffix)
  next => exact (Descent.leaves_read _).of_suffix hsuffix

/-- Between words, every turn that is not the last one consumes a character. -/
lemma lineSpaceTurn_consumed (h : lineSpaceTurn () text = .read (.again ()) rest) :
    Consumed text rest := by
  have hsuffix : text.dropWhile isLineSpace <:+ text := List.dropWhile_suffix _
  unfold lineSpaceTurn at h
  split at h
  next left hleft =>
    rw [hleft] at hsuffix
    exact .of_suffix hsuffix (consumed_cons ((escape_leaves _).map _ _ rest h))
  next => cases h

/-- Where no more line spaces are taken, none follows. -/
lemma settled_of_lineSpace (h : loop lineSpaceTurn turns () text = .read () rest) :
    Settled rest := by
  obtain ⟨s, text', -, hlast⟩ := exists_finished_of_loop lineSpaceTurn_leaves h
  unfold lineSpaceTurn at hlast
  split at hlast
  next => cases hlast
  next left hnone =>
    cases hlast
    exact ⟨fun c rest hc => eq_false_of_dropWhile hc, fun rest hrest => hnone rest hrest⟩

end LineSpace

/-! ## Words -/

section Words

variable {turns : Nat} {inner : List Char → Descent Error (Script String)} {bracketed : Bool}
  {text rest : List Char} {c : Char}

/-- The end of a word leaves a part of the text. -/
lemma wordEnd_leaves (after : Closer) (w : Word String) (text : List Char) :
    (wordEnd bracketed after w text).Leaves text := by
  cases text with
  | nil => exact Descent.leaves_read w
  | cons c rest =>
    simp only [wordEnd]
    split
    · exact Descent.leaves_read w
    · exact Descent.leaves_failed _

/-- So does a braced word. -/
lemma bracedWord_leaves (text : List Char) : (bracedWord bracketed text).Leaves text := by
  unfold bracedWord
  split
  next => exact Descent.leaves_failed _
  next inner rest h => exact (wordEnd_leaves _ _ rest).of_suffix (Braced.read_suffix h)

/-- So does a name in braces. -/
lemma nameInBraces_leaves (pieces : Pieces) (text : List Char) :
    (nameInBraces pieces text).Leaves text := by
  have hsuffix : text.dropWhile (· != '}') <:+ text := List.dropWhile_suffix _
  unfold nameInBraces
  split
  next => exact Descent.leaves_failed _
  next c rest h =>
    rw [h] at hsuffix
    exact (Descent.leaves_read _).of_suffix ((List.suffix_cons c rest).trans hsuffix)

/-- So does a bare name. -/
lemma bareName_leaves (pieces : Pieces) (text : List Char) :
    (bareName pieces text).Leaves text := by
  unfold bareName
  split
  · exact Descent.leaves_read _
  · exact (Descent.leaves_read _).of_suffix (List.dropWhile_suffix _)

/-- So does what follows a dollar sign. -/
lemma dollar_leaves (pieces : Pieces) (text : List Char) : (dollar pieces text).Leaves text := by
  cases text with
  | nil => exact bareName_leaves pieces []
  | cons c rest =>
    simp only [dollar]
    split
    · exact (nameInBraces_leaves pieces rest).of_suffix (List.suffix_cons c rest)
    · exact bareName_leaves pieces (c :: rest)

variable (hinner : ∀ text, (inner text).Leaves text)

include hinner

/-- So does a bracket, if what is in it does. -/
lemma bracket_leaves (pieces : Pieces) (text : List Char) :
    (bracket inner pieces text).Leaves text := by
  refine (hinner text).bind fun script rest => ?_
  split
  next rest => exact (Descent.leaves_read _).of_suffix (List.suffix_cons ']' rest)
  next => exact Descent.leaves_failed _

/-- So does a piece of a word. -/
lemma piece_leaves (pieces : Pieces) (c : Char) (rest : List Char) :
    (piece inner pieces c rest).Leaves rest := by
  unfold piece
  repeat' split
  · exact bracket_leaves hinner pieces rest
  · exact dollar_leaves pieces rest
  · exact (escape_leaves rest).map _
  · exact Descent.leaves_read _

/-- So does a turn within quotes. -/
lemma quotedTurn_leaves (pieces : Pieces) (text : List Char) :
    (quotedTurn inner bracketed pieces text).Leaves text := by
  cases text with
  | nil => exact Descent.leaves_failed _
  | cons c rest =>
    have hrest : rest <:+ c :: rest := List.suffix_cons c rest
    simp only [quotedTurn]
    split
    · exact ((wordEnd_leaves _ _ rest).map _).of_suffix hrest
    · exact ((piece_leaves hinner pieces c rest).map _).of_suffix hrest

/-- In a quoted word, every turn that is not the last one consumes a character. -/
lemma quotedTurn_consumed {pieces pieces' : Pieces}
    (h : quotedTurn inner bracketed pieces text = .read (.again pieces') rest) :
    Consumed text rest := by
  cases text with
  | nil => cases h
  | cons c text =>
    simp only [quotedTurn] at h
    split at h
    · obtain ⟨w, -, hw⟩ := Descent.map_eq_read_iff.1 h
      cases hw
    · exact consumed_cons ((piece_leaves hinner pieces c text).map _ _ rest h)

/-- A bare word takes the character it begins with, if the character does not end it. -/
lemma bareTurn_cons {pieces : Pieces} {t : Turn Pieces (Word String)}
    (hc : endsWord bracketed c = false)
    (h : bareTurn inner bracketed pieces (c :: text) = .read t rest) :
    Consumed (c :: text) rest := by
  simp only [bareTurn, hc] at h
  exact consumed_cons ((piece_leaves hinner pieces c text).map _ t rest h)

omit hinner in
/-- A bare word ends before the character that ends it. -/
lemma bareTurn_of_endsWord (pieces : Pieces) (hc : endsWord bracketed c = true) :
    bareTurn inner bracketed pieces (c :: text) = .read (.finished pieces.finish) (c :: text) := by
  simp only [bareTurn, hc, if_true]

/-- In a bare word, every turn that is not the last one consumes a character. -/
lemma bareTurn_consumed {pieces pieces' : Pieces}
    (h : bareTurn inner bracketed pieces text = .read (.again pieces') rest) :
    Consumed text rest := by
  cases text with
  | nil => cases h
  | cons c text =>
    cases hc : endsWord bracketed c with
    | true =>
      rw [bareTurn_of_endsWord pieces hc] at h
      cases h
    | false => exact bareTurn_cons hinner hc h

/-- A turn of a bare word leaves a part of the text. -/
lemma bareTurn_leaves (pieces : Pieces) (text : List Char) :
    (bareTurn inner bracketed pieces text).Leaves text := by
  intro t rest h
  cases text with
  | nil =>
    cases h
    exact List.suffix_rfl
  | cons c text =>
    cases hc : endsWord bracketed c with
    | true =>
      rw [bareTurn_of_endsWord pieces hc] at h
      cases h
      exact List.suffix_rfl
    | false => exact (bareTurn_cons hinner hc h).1

/-- A word consumes something, or it begins with a character that ends it. -/
lemma word_consumed_or {w : Word String} (h : word turns inner bracketed c text = .read w rest) :
    Consumed (c :: text) rest ∨ endsWord bracketed c = true ∧ rest = c :: text := by
  unfold word at h
  split at h
  · exact .inl (consumed_cons (bracedWord_leaves text w rest h))
  · split at h
    · exact .inl (consumed_cons (loop_leaves (quotedTurn_leaves hinner) w rest h))
    · cases hc : endsWord bracketed c with
      | false =>
        exact .inl (consumed_of_loop (bareTurn_leaves hinner)
          (fun t rest => bareTurn_cons hinner hc) h)
      | true =>
        cases turns with
        | zero => cases h
        | succ turns =>
          rw [loop, bareTurn_of_endsWord _ hc] at h
          cases h
          exact .inr ⟨rfl, rfl⟩

/-- So does a word of any kind. -/
lemma word_leaves (c : Char) (text : List Char) :
    (word turns inner bracketed c text).Leaves (c :: text) := by
  intro w rest h
  obtain hconsumed | ⟨-, rfl⟩ := word_consumed_or hinner h
  · exact hconsumed.1
  · exact List.suffix_rfl

end Words

/-! ## Commands -/

/-- A blank comes next that is neither a line space nor a newline. -/
def FacesOddBlank (text : List Char) : Prop :=
  ∃ c ∈ text.head?, isBlank c = true ∧ isPlainBlank c = false

section Commands

variable {turns : Nat} {inner : List Char → Descent Error (Script String)} {bracketed : Bool}
  {text rest : List Char} {c : Char}

/-- An odd blank is one that is neither a line space nor a newline. -/
lemma facesOddBlank_cons_iff :
    FacesOddBlank (c :: text) ↔ isBlank c = true ∧ isLineSpace c = false ∧ c ≠ '\n' := by
  simp [FacesOddBlank, isPlainBlank]

/-- A text that faces an odd blank begins with it. -/
lemma FacesOddBlank.exists_cons (h : FacesOddBlank text) :
    ∃ c rest, text = c :: rest ∧ isBlank c = true ∧ isLineSpace c = false ∧ c ≠ '\n' := by
  cases text with
  | nil =>
    obtain ⟨c, hc, -⟩ := h
    cases hc
  | cons c rest => exact ⟨c, rest, rfl, facesOddBlank_cons_iff.1 h⟩

/-- What ends a command ends a word. -/
lemma endsWord_of_endsCommand (h : endsCommand bracketed c = true) :
    endsWord bracketed c = true := by
  simp only [endsCommand, endsWord, Bool.or_eq_true, beq_iff_eq] at h ⊢
  obtain (rfl | hsemicolon) | hbracket := h
  · exact .inl (.inl (by decide))
  · exact .inl (.inr hsemicolon)
  · exact .inr hbracket

/-- A character that ends a word and not the command is a blank and no newline. -/
lemma isBlank_of_endsWord (h : endsWord bracketed c = true) (h' : endsCommand bracketed c = false) :
    isBlank c = true ∧ c ≠ '\n' := by
  simp only [endsCommand, endsWord, Bool.or_eq_true, Bool.or_eq_false_iff, beq_eq_false_iff_ne]
    at h h'
  obtain ⟨⟨hnewline, hsemicolon⟩, hbracket⟩ := h'
  obtain (hblank | hc) | hc := h
  · exact ⟨hblank, hnewline⟩
  · exact absurd (by simpa using hc) hsemicolon
  · rw [hbracket] at hc
    cases hc

variable (hinner : ∀ text, (inner text).Leaves text)

include hinner

/-- A further word leaves a part of the text. -/
lemma nextWord_leaves (words : List (Word String)) (text : List Char) :
    (nextWord turns inner bracketed words text).Leaves text := by
  cases text with
  | nil => exact Descent.leaves_read _
  | cons c rest =>
    simp only [nextWord]
    split
    · exact Descent.leaves_read _
    · exact (word_leaves hinner c rest).map _

/-- So does a turn over the words of a command. -/
lemma commandTurn_leaves (words : List (Word String)) (text : List Char) :
    (commandTurn turns inner bracketed words text).Leaves text :=
  (loop_leaves lineSpaceTurn_leaves).bind fun _ => nextWord_leaves hinner words

/-- A command consumes something if it begins with a character that ends no word. -/
lemma commandTurn_cons {words : List (Word String)}
    {t : Turn (List (Word String)) (List (Word String))} (hc : endsWord bracketed c = false)
    (h : commandTurn turns inner bracketed words (c :: text) = .read t rest) :
    Consumed (c :: text) rest := by
  obtain ⟨s, between, hspace, hword⟩ := Descent.bind_eq_read_iff.1 h
  have hrest : rest <:+ between := nextWord_leaves hinner words between t rest hword
  obtain rfl | hconsumed := eq_or_consumed (loop_leaves lineSpaceTurn_leaves s between hspace)
  · have hcommand : endsCommand bracketed c = false := by
      cases hends : endsCommand bracketed c with
      | false => rfl
      | true => exact absurd (endsWord_of_endsCommand hends) (by simp [hc])
    simp only [nextWord, hcommand] at hword
    obtain ⟨w, hw, -⟩ := Descent.map_eq_read_iff.1 hword
    obtain hconsumed | ⟨hends, -⟩ := word_consumed_or hinner hw
    · exact hconsumed
    · exact absurd hends (by simp [hc])
  · exact hconsumed.trans_suffix hrest

/-- **In a command, every turn that is not the last one consumes a character, unless an odd blank
comes next**; then it leaves the text as it is.

**Proof sketch.** If a space before the word was skipped, something was consumed. If not, what comes
next is no line space. The word consumes something, or it begins with a character that ends a word
but not the command. Such a character is a blank and no newline, and hence an odd one. -/
lemma commandTurn_consumed {words words' : List (Word String)}
    (h : commandTurn turns inner bracketed words text = .read (.again words') rest) :
    Consumed text rest ∨ FacesOddBlank text ∧ rest = text := by
  obtain ⟨s, between, hspace, hword⟩ := Descent.bind_eq_read_iff.1 h
  have hsettled : Settled between := settled_of_lineSpace hspace
  have hrest : rest <:+ between := nextWord_leaves hinner words between _ rest hword
  obtain rfl | hconsumed := eq_or_consumed (loop_leaves lineSpaceTurn_leaves s between hspace)
  · cases between with
    | nil => cases hword
    | cons c text =>
      simp only [nextWord] at hword
      split at hword
      next => cases hword
      next hcommand =>
        obtain ⟨w, hw, -⟩ := Descent.map_eq_read_iff.1 hword
        obtain hconsumed | ⟨hends, hsame⟩ := word_consumed_or hinner hw
        · exact .inl hconsumed
        · obtain ⟨hblank, hnewline⟩ := isBlank_of_endsWord hends (by simpa using hcommand)
          have hline : isLineSpace c = false := hsettled.space c text rfl
          exact .inr ⟨facesOddBlank_cons_iff.2 ⟨hblank, hline, hnewline⟩, hsame⟩
  · exact .inl (hconsumed.trans_suffix hrest)

omit hinner

/-- A blank is none of the characters that mean something to the reader. -/
lemma ne_of_isBlank {d : Char} (hc : isBlank c = true) (hd : isBlank d = false) : c ≠ d := by
  rintro rfl
  rw [hd] at hc
  cases hc

/-- **If an odd blank comes next in a command, the turn adds an empty word and leaves the text as it
is**, so that the next turn does the same. -/
lemma commandTurn_of_facesOddBlank (h : FacesOddBlank text) (words : List (Word String)) :
    commandTurn (turns + 1) inner bracketed words text =
      .read (.again (.literal "" :: words)) text := by
  obtain ⟨c, rest, rfl, hblank, hline, hnewline⟩ := h.exists_cons
  have hspace : loop lineSpaceTurn (turns + 1) () (c :: rest) = .read () (c :: rest) := by
    have hturn : lineSpaceTurn () (c :: rest) = .read (.finished ()) (c :: rest) := by
      have hbackslash : c ≠ '\\' := ne_of_isBlank hblank (by decide)
      simp [lineSpaceTurn, hline, hbackslash]
    rw [loop, hturn]
    rfl
  have hcommand : endsCommand bracketed c = false := by
    have hsemicolon : c ≠ ';' := ne_of_isBlank hblank (by decide)
    have hbracket : c ≠ ']' := ne_of_isBlank hblank (by decide)
    simp [endsCommand, hnewline, hsemicolon, hbracket]
  have hword : word (turns + 1) inner bracketed c rest = .read (.literal "") (c :: rest) := by
    have hbrace : c ≠ '{' := ne_of_isBlank hblank (by decide)
    have hquote : c ≠ '"' := ne_of_isBlank hblank (by decide)
    have hends : endsWord bracketed c = true := by simp [endsWord, hblank]
    rw [word, if_neg hbrace, if_neg hquote, loop, bareTurn_of_endsWord _ hends]
    rfl
  simp [commandTurn, hspace, nextWord, hcommand, hword, Descent.map]

end Commands

/-! ## Scripts -/

section Scripts

variable {turns : Nat} {inner : List Char → Descent Error (Script String)} {bracketed : Bool}
  {text rest : List Char} {c : Char}

/-- A comment leaves a part of the text. -/
lemma skipComment_suffix (text : List Char) : skipComment text <:+ text := by
  fun_induction skipComment text with
  | case1 => exact List.suffix_rfl
  | case2 => exact List.nil_suffix
  | case3 d rest ih => exact ih.trans ((List.suffix_cons d rest).trans (List.suffix_cons '\\' _))
  | case4 rest => exact List.suffix_cons '\n' rest
  | case5 c rest _ _ _ ih => exact ih.trans (List.suffix_cons c rest)

/-- A character that separates nothing and closes no bracket ends no word. -/
lemma endsWord_eq_false (hseparates : separates c = false)
    (hbracket : (c == ']' && bracketed) = false) : endsWord bracketed c = false := by
  simp only [separates] at hseparates
  simp only [endsWord, hseparates, hbracket, Bool.or_false]

variable (hinner : ∀ text, (inner text).Leaves text)

include hinner

/-- A further command leaves a part of the text. -/
lemma nextCommand_leaves (commands : List (Command String)) (text : List Char) :
    (nextCommand turns inner bracketed commands text).Leaves text := by
  cases text with
  | nil => exact Descent.leaves_read _
  | cons c rest =>
    simp only [nextCommand]
    repeat' split
    · exact Descent.leaves_read _
    · exact (Descent.leaves_read _).of_suffix
        ((skipComment_suffix rest).trans (List.suffix_cons c rest))
    · exact (loop_leaves (commandTurn_leaves hinner)).map _

/-- So does a turn over commands. -/
lemma scriptTurn_leaves (commands : List (Command String)) (text : List Char) :
    (scriptTurn turns inner bracketed commands text).Leaves text :=
  (nextCommand_leaves hinner commands _).of_suffix (List.dropWhile_suffix _)

/-- **Between commands, every turn that is not the last one consumes a character.**

**Proof sketch.** A comment consumes its number sign. A command begins with a character that is
neither a blank nor a semicolon nor the bracket that ends the script. It ends no word, so the first
turn of the loop over the words consumes something. -/
lemma scriptTurn_consumed {commands commands' : List (Command String)}
    (h : scriptTurn turns inner bracketed commands text = .read (.again commands') rest) :
    Consumed text rest := by
  have hsuffix : text.dropWhile separates <:+ text := List.dropWhile_suffix _
  unfold scriptTurn at h
  cases htext : text.dropWhile separates with
  | nil =>
    rw [htext] at h
    cases h
  | cons c between =>
    rw [htext] at h hsuffix
    refine .of_suffix hsuffix ?_
    simp only [nextCommand] at h
    split at h
    next => cases h
    next hbracket =>
      split at h
      · cases h
        exact consumed_cons (skipComment_suffix between)
      · obtain ⟨words, hwords, -⟩ := Descent.map_eq_read_iff.1 h
        have hends : endsWord bracketed c = false :=
          endsWord_eq_false (eq_false_of_dropWhile htext) (by simpa using hbracket)
        exact consumed_of_loop (commandTurn_leaves hinner)
          (fun t rest => commandTurn_cons hinner hends) hwords

end Scripts

section Script

variable {n : Nat} {bracketed : Bool} {text rest : List Char}

/-- So does a script. -/
lemma script_leaves (n : Nat) (bracketed : Bool) (text : List Char) :
    (script n bracketed text).Leaves text := by
  induction n generalizing bracketed text with
  | zero => exact nofun
  | succ n ih => exact loop_leaves (scriptTurn_leaves (ih true))

/-- **A script ends at the end of the text**, or before its closing bracket if it is in brackets. -/
lemma rest_of_script {s : Script String} (h : script n bracketed text = .read s rest) :
    rest = [] ∨ bracketed = true ∧ ∃ rest', rest = ']' :: rest' := by
  cases n with
  | zero => cases h
  | succ n =>
    obtain ⟨commands, text', -, hlast⟩ :=
      exists_finished_of_loop (scriptTurn_leaves (script_leaves n true)) h
    unfold scriptTurn at hlast
    cases htext : text'.dropWhile separates with
    | nil =>
      rw [htext] at hlast
      cases hlast
      exact .inl rfl
    | cons c between =>
      rw [htext] at hlast
      simp only [nextCommand] at hlast
      split at hlast
      next hbracket =>
        cases hlast
        simp only [Bool.and_eq_true, beq_iff_eq] at hbracket
        exact .inr ⟨hbracket.2, between, by rw [hbracket.1]⟩
      next =>
        split at hlast
        · cases hlast
        · obtain ⟨words, -, hwords⟩ := Descent.map_eq_read_iff.1 hlast
          cases hwords

end Script

end CommandScript.Script
