import CommandScript.Text.Braces
import CommandScript.Text.Escape

/-!
# Reading list text

A list is written as its elements separated by blanks. An element is *bare*, *braced* or *quoted*.
Braces keep the text between them as it stands; in bare and quoted elements a backslash starts an
escape. The reader is a scan: it takes the characters one at a time, and an error is a state that
no further character leaves.

## Main definitions

* `ListText.Error` — what can be wrong with list text.
* `ListText.Reader`, `ListText.Reader.step` — the scan.
* `ListText.read` — the elements of a list text.
-/

set_option autoImplicit false

namespace CommandScript.ListText

open CommandScript.Text

/-- What can be wrong with list text. -/
inductive Error where
  /-- Something other than a blank follows a closing brace. -/
  | afterBrace
  /-- Something other than a blank follows a closing quote. -/
  | afterQuote
  /-- The text ends inside braces. -/
  | openBrace
  /-- The text ends inside quotes. -/
  | openQuote
deriving DecidableEq, Repr

/-- The wording of an error. -/
def Error.message : Error → String
  | .afterBrace => "list element in braces followed by non-whitespace"
  | .afterQuote => "list element in quotes followed by non-whitespace"
  | .openBrace => "unmatched open brace in list"
  | .openQuote => "unmatched open quote in list"

/-- What the reader is in the middle of. -/
inductive Mode where
  /-- Between elements. -/
  | gap
  /-- In a braced element. -/
  | braced (inner : Braced)
  /-- In a quoted or bare element: the characters so far, the latest first, and the escape that is
  being read, if any. -/
  | plain (quoted : Bool) (taken : List Char) (escape : Option Escape)
  /-- Right after the closing brace or quote of an element, where a blank must follow. -/
  | closed (after : Error)
deriving DecidableEq, Repr

/-- A list text that is being read. -/
inductive Reader where
  /-- The elements so far, the latest first. -/
  | reading (items : List String) (mode : Mode)
  /-- The text is no list, whatever follows. -/
  | failed (error : Error)
deriving DecidableEq, Repr

namespace Reader

/-- Nothing has been read. -/
def start : Reader :=
  .reading [] .gap

/-- Adds an element, given with its latest character first. -/
def push (items : List String) (taken : List Char) : List String :=
  String.ofList taken.reverse :: items

/-- Reads a character of a quoted or bare element, no escape being open. -/
def plainStep (items : List String) (quoted : Bool) (taken : List Char) (c : Char) : Reader :=
  if c = '\\' then .reading items (.plain quoted taken (some .start))
  else if quoted then
    if c = '"' then .reading (push items taken) (.closed .afterQuote)
    else .reading items (.plain true (c :: taken) none)
  else if isBlank c then .reading (push items taken) .gap
  else .reading items (.plain false (c :: taken) none)

/-- Reads a character between elements. -/
def gapStep (items : List String) (c : Char) : Reader :=
  if isBlank c then .reading items .gap
  else if c = '{' then .reading items (.braced {})
  else if c = '"' then .reading items (.plain true [] none)
  else plainStep items false [] c

/-- Reads a character. -/
def step (r : Reader) (c : Char) : Reader :=
  match r with
  | .failed e => .failed e
  | .reading items .gap => gapStep items c
  | .reading items (.braced inner) =>
    match inner.step c with
    | .ok inner => .reading items (.braced inner)
    | .error text => .reading (String.ofList text :: items) (.closed .afterBrace)
  | .reading items (.plain quoted taken none) => plainStep items quoted taken c
  | .reading items (.plain quoted taken (some escape)) =>
    match escape.step c with
    | .more escape => .reading items (.plain quoted taken (some escape))
    | .last d => .reading items (.plain quoted (d :: taken) none)
    | .before d => plainStep items quoted (d :: taken) c
  | .reading items (.closed after) => if isBlank c then .reading items .gap else .failed after

/-- Reads characters from left to right. -/
def run (r : Reader) (cs : List Char) : Reader :=
  cs.foldl step r

/-- The elements read, if the text may end here. -/
def finish : Reader → Except Error (List String)
  | .failed e => .error e
  | .reading items .gap => .ok items.reverse
  | .reading items (.closed _) => .ok items.reverse
  | .reading _ (.braced _) => .error .openBrace
  | .reading _ (.plain true _ _) => .error .openQuote
  | .reading items (.plain false taken none) => .ok (push items taken).reverse
  | .reading items (.plain false taken (some e)) => .ok (push items (e.close :: taken)).reverse

/-- Nothing is read from the empty text. -/
@[simp] theorem run_nil (r : Reader) : r.run [] = r := rfl

/-- The first character is read first. -/
@[simp] theorem run_cons (r : Reader) (c : Char) (cs : List Char) :
    r.run (c :: cs) = (r.step c).run cs := rfl

/-- A text may be read in two parts. -/
theorem run_append (r : Reader) (cs ds : List Char) : r.run (cs ++ ds) = (r.run cs).run ds :=
  List.foldl_append

/-- An error is final. -/
@[simp] theorem run_failed (e : Error) (cs : List Char) : (failed e).run cs = failed e := by
  induction cs with
  | nil => rfl
  | cons c cs ih => simpa [step] using ih

end Reader

/-- The elements of a list text. -/
def read (text : String) : Except Error (List String) :=
  (Reader.start.run text.toList).finish

end CommandScript.ListText
