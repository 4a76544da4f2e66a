import CommandScript.Script.Word
import CommandScript.Text.Alphanumeric
import CommandScript.Text.Braces
import CommandScript.Text.Escape

/-!
# Reading scripts

Commands end at a newline or a semicolon, words at a blank. A word in braces is taken as it
stands. In a bare or quoted word, `$` refers to a variable, brackets hold a script whose result is
put in their place, and a backslash starts an escape. A number sign where a command could begin
starts a comment.

The reader is a scan with a stack: it takes the characters one at a time, and an opening bracket
inside a word sets the word and all that is around it aside until the bracket is closed. An error
is a state that no further character leaves. So is being *stuck*: between two words, a blank that
is neither a newline nor a line space is never consumed, and reading does not come to an end.

## Main definitions

* `Script.Error` — what can be wrong with a script, split in what more text can mend
  (`Script.Missing`) and what it cannot.
* `Script.Pieces` — a word under construction, `Script.Draft` — a script under construction.
* `Script.Mode`, `Script.Reader`, `Script.Reader.step` — the scan.
* `Script.Outcome`, `Script.read` — the script that a text stands for.
* `Script.isComplete` — whether a text can be run as it is, or is wrong beyond repair.
-/

set_option autoImplicit false

namespace CommandScript.Script

open CommandScript.Text

/-- What is still open at the end of a text. -/
inductive Missing where
  /-- A word in braces. -/
  | brace
  /-- A word in quotes. -/
  | quote
  /-- A script in brackets. -/
  | bracket
  /-- The name of a variable in braces. -/
  | nameBrace
deriving DecidableEq, Repr

/-- What closes a word explicitly. -/
inductive Closer where
  /-- A closing brace. -/
  | brace
  /-- A closing quote. -/
  | quote
deriving DecidableEq, Repr

/-- What can be wrong with a script. -/
inductive Error where
  /-- The text ends too early. -/
  | missing (what : Missing)
  /-- A word goes on after its closing brace or quote. -/
  | extra (after : Closer)
deriving DecidableEq, Repr

/-- The wording of an error. -/
def Error.message : Error → String
  | .missing .brace => "missing close-brace"
  | .missing .quote => "missing \""
  | .missing .bracket => "missing close-bracket"
  | .missing .nameBrace => "missing close-brace for variable name"
  | .extra .brace => "extra characters after close-brace"
  | .extra .quote => "extra characters after close-quote"

/-! ## Words and scripts under construction -/

/-- A word under construction. -/
structure Pieces where
  /-- The finished parts, the latest first. -/
  parts : List (Word String) := []
  /-- The fixed text since then, the latest character first. -/
  text : List Char := []

namespace Pieces

/-- Adds a character of fixed text. -/
def char (p : Pieces) (c : Char) : Pieces :=
  { p with text := c :: p.text }

/-- Makes the fixed text a part, unless it is empty. -/
def flush (p : Pieces) : List (Word String) :=
  if p.text.isEmpty then p.parts else .literal (String.ofList p.text.reverse) :: p.parts

/-- Adds a variable or a substitution. -/
def word (p : Pieces) (w : Word String) : Pieces :=
  { parts := w :: p.flush, text := [] }

/-- The finished word. It is fixed text if nothing is substituted in it, and a single part stands
for itself. -/
def finish (p : Pieces) : Word String :=
  if p.parts.isEmpty then .literal (String.ofList p.text.reverse)
  else
    match p.flush with
    | [w] => w
    | parts => .joined parts.reverse

end Pieces

/-- A script under construction. -/
structure Draft where
  /-- The finished commands, the latest first. -/
  commands : List (Command String) := []
  /-- The words of the command that is being read, the latest first. -/
  words : List (Word String) := []

namespace Draft

/-- Adds a word to the command that is being read. -/
def word (d : Draft) (w : Word String) : Draft :=
  { d with words := w :: d.words }

/-- Ends the command that is being read. A command without words is none. -/
def endCommand (d : Draft) : Draft :=
  if d.words.isEmpty then d else { commands := d.words.reverse :: d.commands, words := [] }

/-- The finished script. -/
def finish (d : Draft) : Script String :=
  d.endCommand.commands.reverse

end Draft

/-! ## The scan -/

/-- What the reader is in the middle of inside a word. -/
inductive Pending where
  /-- Nothing in particular. -/
  | none
  /-- An escape. -/
  | escape (e : Escape)
  /-- Right after a dollar sign. -/
  | dollar
  /-- The name of a variable, the latest character first. -/
  | name (taken : List Char)
  /-- The name of a variable in braces, the latest character first. -/
  | nameInBraces (taken : List Char)

/-- What the reader is in the middle of. -/
inductive Mode where
  /-- Between commands. -/
  | between
  /-- In a comment, perhaps right after a backslash. -/
  | comment (escaped : Bool)
  /-- Between the words of a command, or before its end. -/
  | gap
  /-- Between words, after a backslash that may continue the line. -/
  | gapEscape
  /-- In a word in braces. -/
  | braced (inner : Braced)
  /-- In a quoted or bare word. -/
  | plain (quoted : Bool) (pieces : Pieces) (pending : Pending)
  /-- Right after the closing brace or quote of a word. -/
  | closed (after : Closer)

/-- A word that waits for the script in a bracket inside it, and what is around it. -/
structure Suspended where
  /-- The script that the word belongs to. -/
  draft : Draft
  /-- Whether the word is quoted. -/
  quoted : Bool
  /-- The word up to the bracket. -/
  pieces : Pieces

/-- A script text that is being read. -/
inductive Reader where
  /-- The innermost script, the mode in it, and the words that wait for it, the innermost first. -/
  | reading (draft : Draft) (mode : Mode) (outer : List Suspended)
  /-- The text is no script, whatever follows. -/
  | failed (error : Error)
  /-- The reader makes no progress any more. -/
  | stuck

namespace Reader

/-- Nothing has been read. -/
def start : Reader :=
  .reading {} .between []

/-- Whether the character closes a bracket: it does where one is open. -/
def closes (outer : List Suspended) (c : Char) : Bool :=
  c == ']' && !outer.isEmpty

/-- Closes the innermost bracket: the script in it becomes part of the word that waits for it. -/
def close (draft : Draft) : List Suspended → Reader
  | [] => .reading draft .between []
  | s :: outer =>
    .reading s.draft (.plain s.quoted (s.pieces.word (.substitution draft.finish)) .none) outer

/-- Reads a character of a quoted or bare word that does not end it, no escape and no name being
open. -/
def pieceStep (draft : Draft) (quoted : Bool) (pieces : Pieces) (outer : List Suspended)
    (c : Char) : Reader :=
  if c = '[' then .reading {} .between (⟨draft, quoted, pieces⟩ :: outer)
  else if c = '$' then .reading draft (.plain quoted pieces .dollar) outer
  else if c = '\\' then .reading draft (.plain quoted pieces (.escape .start)) outer
  else .reading draft (.plain quoted (pieces.char c) .none) outer

/-- Reads a character between the words of a command. -/
def gapStep (draft : Draft) (outer : List Suspended) (c : Char) : Reader :=
  if isLineSpace c then .reading draft .gap outer
  else if c = '\n' ∨ c = ';' then .reading draft.endCommand .between outer
  else if closes outer c then close draft outer
  else if c = '\\' then .reading draft .gapEscape outer
  else if c = '{' then .reading draft (.braced {}) outer
  else if c = '"' then .reading draft (.plain true {} .none) outer
  else if isBlank c then .stuck
  else pieceStep draft false {} outer c

/-- Whether the character ends a word. -/
def endsWord (outer : List Suspended) (c : Char) : Bool :=
  isBlank c || c == ';' || closes outer c

/-- Reads a character of a quoted or bare word, no escape and no name being open. -/
def plainStep (draft : Draft) (quoted : Bool) (pieces : Pieces) (outer : List Suspended)
    (c : Char) : Reader :=
  if quoted then
    if c = '"' then .reading (draft.word pieces.finish) (.closed .quote) outer
    else pieceStep draft true pieces outer c
  else if endsWord outer c then gapStep (draft.word pieces.finish) outer c
  else pieceStep draft false pieces outer c

/-- Reads a character of an escape in a word. -/
def escapeStep (draft : Draft) (quoted : Bool) (pieces : Pieces) (e : Escape)
    (outer : List Suspended) (c : Char) : Reader :=
  match e.step c with
  | .more e => .reading draft (.plain quoted pieces (.escape e)) outer
  | .last d => .reading draft (.plain quoted (pieces.char d) .none) outer
  | .before d => plainStep draft quoted (pieces.char d) outer c

/-- The variable whose name was read with its latest character first. -/
def varNamed (taken : List Char) : Word String :=
  .var (String.ofList taken.reverse)

/-- Reads a character of a quoted or bare word. -/
def wordStep (draft : Draft) (quoted : Bool) (pieces : Pieces) (pending : Pending)
    (outer : List Suspended) (c : Char) : Reader :=
  match pending with
  | .none => plainStep draft quoted pieces outer c
  | .escape e => escapeStep draft quoted pieces e outer c
  | .dollar =>
    if c = '{' then .reading draft (.plain quoted pieces (.nameInBraces [])) outer
    else if isNameChar c then .reading draft (.plain quoted pieces (.name [c])) outer
    else plainStep draft quoted (pieces.char '$') outer c
  | .name taken =>
    if isNameChar c then .reading draft (.plain quoted pieces (.name (c :: taken))) outer
    else plainStep draft quoted (pieces.word (varNamed taken)) outer c
  | .nameInBraces taken =>
    if c = '}' then .reading draft (.plain quoted (pieces.word (varNamed taken)) .none) outer
    else .reading draft (.plain quoted pieces (.nameInBraces (c :: taken))) outer

/-- Reads a character between commands. -/
def betweenStep (draft : Draft) (outer : List Suspended) (c : Char) : Reader :=
  if isBlank c ∨ c = ';' then .reading draft .between outer
  else if c = '#' then .reading draft (.comment false) outer
  else gapStep draft outer c

/-- Reads a character. -/
def step (r : Reader) (c : Char) : Reader :=
  match r with
  | .failed e => .failed e
  | .stuck => .stuck
  | .reading draft mode outer =>
    match mode with
    | .between => betweenStep draft outer c
    | .comment true => .reading draft (.comment false) outer
    | .comment false =>
      if c = '\\' then .reading draft (.comment true) outer
      else if c = '\n' then .reading draft .between outer
      else .reading draft (.comment false) outer
    | .gap => gapStep draft outer c
    | .gapEscape =>
      if c = '\n' then .reading draft .gap outer else escapeStep draft false {} .start outer c
    | .braced inner =>
      match inner.step c with
      | .ok inner => .reading draft (.braced inner) outer
      | .error text => .reading (draft.word (.literal (String.ofList text))) (.closed .brace) outer
    | .plain quoted pieces pending => wordStep draft quoted pieces pending outer c
    | .closed after => if endsWord outer c then gapStep draft outer c else .failed (.extra after)

/-- Reads characters from left to right. -/
def run (r : Reader) (cs : List Char) : Reader :=
  cs.foldl step r

/-- Nothing is read from the empty text. -/
@[simp] theorem run_nil (r : Reader) : r.run [] = r := rfl

/-- The first character is read first. -/
@[simp] theorem run_cons (r : Reader) (c : Char) (cs : List Char) :
    r.run (c :: cs) = (r.step c).run cs := rfl

/-- A text may be read in two parts. -/
theorem run_append (r : Reader) (cs ds : List Char) : r.run (cs ++ ds) = (r.run cs).run ds :=
  List.foldl_append

/-- An error is final. -/
@[simp] theorem run_failed (e : Error) (cs : List Char) : (failed e).run cs = failed e := by
  induction cs with
  | nil => rfl
  | cons c cs ih => simpa [step] using ih

/-- A stuck reader stays stuck. -/
@[simp] theorem run_stuck (cs : List Char) : stuck.run cs = stuck := by
  induction cs with
  | nil => rfl
  | cons c cs ih => simpa [step] using ih

end Reader

/-! ## The end of the text -/

/-- What comes of reading. -/
inductive Outcome (α : Type) where
  /-- The whole text was read. -/
  | done (result : α)
  /-- The text is wrong. -/
  | failed (error : Error)
  /-- Reading does not come to an end. -/
  | stuck

/-- A bare word that the text ends in, or what the text ends in instead. -/
def Pending.finish (pieces : Pieces) : Pending → Except Missing Pieces
  | .none => .ok pieces
  | .escape e => .ok (pieces.char e.close)
  | .dollar => .ok (pieces.char '$')
  | .name taken => .ok (pieces.word (Reader.varNamed taken))
  | .nameInBraces _ => .error .nameBrace

/-- The script of the innermost bracket, if the text may end in the mode. -/
def Mode.finish (draft : Draft) : Mode → Except Missing Draft
  | .between | .comment _ | .gap | .closed _ => .ok draft
  | .gapEscape => .ok (draft.word (.literal "\\"))
  | .braced _ => .error .brace
  | .plain quoted pieces pending =>
    match pending.finish pieces with
    | .error m => .error m
    | .ok pieces => if quoted then .error .quote else .ok (draft.word pieces.finish)

/-- The script read, if the text ends here. -/
def Reader.finish : Reader → Outcome (Script String)
  | .failed e => .failed e
  | .stuck => .stuck
  | .reading draft mode outer =>
    match mode.finish draft with
    | .error m => .failed (.missing m)
    | .ok draft => if outer.isEmpty then .done draft.finish else .failed (.missing .bracket)

/-- The script that a text stands for. -/
def read (text : String) : Outcome (Script String) :=
  (Reader.start.run text.toList).finish

/-- Whether a text needs no more: it is a script, or it is wrong in a way that more text cannot
mend. -/
def isComplete (text : String) : Bool :=
  match read text with
  | .failed (.missing _) => false
  | _ => true

end CommandScript.Script
