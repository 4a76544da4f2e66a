import CommandScript.Text.Blank
import CommandScript.Text.Braces

/-!
# Writing list text

An element is written bare if nothing in it is special, in braces if its braces match, and
otherwise with a backslash before each special character. The elements are separated by one space.

## Main definitions

* `ListText.isSpecial`, `ListText.isPlain` — what may not and what may be written bare.
* `ListText.writeElement`, `ListText.write` — the text of an element and of a list.
-/

set_option autoImplicit false

namespace CommandScript.ListText

open CommandScript.Text

/-- The characters that mean something to the reader of lists or of scripts. -/
def isSpecial (c : Char) : Bool :=
  isBlank c || c == '{' || c == '}' || c == '[' || c == ']' || c == '$' || c == '"' || c == ';' ||
    c == '\\'

/-- Whether a nonempty element can be written as it is. -/
def isPlain (cs : List Char) : Bool :=
  cs.head? != some '#' && !cs.any isSpecial

/-- One character with the backslash it needs. -/
def escapeChar (c : Char) : List Char :=
  if c = '\n' then ['\\', 'n']
  else if c = '\t' then ['\\', 't']
  else if isSpecial c then ['\\', c]
  else [c]

/-- An element with a backslash before each special character, and before a leading number
sign. -/
def escaped (cs : List Char) : List Char :=
  let body := cs.flatMap escapeChar
  if body.head? = some '#' then '\\' :: body else body

/-- The characters that an element is written with. -/
def elementChars (cs : List Char) : List Char :=
  if cs.isEmpty then ['{', '}']
  else if isPlain cs then cs
  else if balanced cs && cs.getLast? != some '\\' then '{' :: (cs ++ ['}'])
  else escaped cs

/-- The text that an element is written as. -/
def writeElement (text : String) : String :=
  String.ofList (elementChars text.toList)

/-- The text of a list. -/
def write (items : List String) : String :=
  " ".intercalate (items.map writeElement)

end CommandScript.ListText
