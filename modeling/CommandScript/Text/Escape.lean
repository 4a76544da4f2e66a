import CommandScript.Text.Blank

/-!
# Backslash escapes

What a backslash and the characters after it stand for. Both readers, of lists and of scripts,
read one character at a time, so an escape is a small machine: it is opened by the backslash,
takes characters, and at some point stands for a text. Some escapes know only from the character
after them that they are over; that character is then *not* part of the escape.

## Main definitions

* `Text.Escape` — an escape that is being read.
* `Text.Escape.step` — what one more character does to it.
* `Text.Escape.close` — what it stands for if the text ends.
-/

set_option autoImplicit false

namespace CommandScript.Text

/-- The value of a hexadecimal digit. -/
def hexValue? (c : Char) : Option Nat :=
  if '0' ≤ c ∧ c ≤ '9' then some (c.toNat - '0'.toNat)
  else if 'a' ≤ c ∧ c ≤ 'f' then some (c.toNat - 'a'.toNat + 10)
  else if 'A' ≤ c ∧ c ≤ 'F' then some (c.toNat - 'A'.toNat + 10)
  else none

/-- An escape that is being read. -/
inductive Escape where
  /-- Only the backslash has been read. -/
  | start
  /-- A line was continued; the indent of the next line is being skipped. -/
  | continuation
  /-- A character is being given by its code: the letter that said so, how many more digits may
  follow, and the code so far if there was a digit. -/
  | code (letter : Char) (room : Nat) (value : Option Nat)
deriving DecidableEq, Repr

namespace Escape

/-- The character with the given code, or the letter that announced it where there was no digit
or no such character. -/
def coded (letter : Char) (value : Option Nat) : Char :=
  match value with
  | none => letter
  | some n => if n.isValidChar then Char.ofNat n else letter

/-- What a character does to an escape. -/
inductive Step where
  /-- The escape goes on. -/
  | more (escape : Escape)
  /-- The character ends the escape, which stands for this character. -/
  | last (stands : Char)
  /-- The escape was over before the character, and stands for this character. -/
  | before (stands : Char)
deriving DecidableEq, Repr

/-- Reads the character after the backslash. -/
def afterBackslash (c : Char) : Step :=
  match c with
  | 'n' => .last '\n'
  | 't' => .last '\t'
  | 'r' => .last '\r'
  | 'a' => .last '\x07'
  | 'b' => .last '\x08'
  | 'f' => .last '\x0c'
  | 'v' => .last '\x0b'
  | '\n' => .more .continuation
  | 'u' => .more (.code 'u' 4 none)
  | 'x' => .more (.code 'x' 2 none)
  | c => .last c

/-- Reads one more character of an escape. -/
def step (e : Escape) (c : Char) : Step :=
  match e with
  | .start => afterBackslash c
  | .continuation => if isIndent c then .more .continuation else .before ' '
  | .code letter room value =>
    match room, hexValue? c with
    | 0, _ => .before (coded letter value)
    | _ + 1, none => .before (coded letter value)
    | 1, some d => .last (coded letter (some (value.getD 0 * 16 + d)))
    | room + 2, some d => .more (.code letter (room + 1) (some (value.getD 0 * 16 + d)))

/-- What an escape stands for if the text ends in it. -/
def close : Escape → Char
  | .start => '\\'
  | .continuation => ' '
  | .code letter _ value => coded letter value

end Escape

end CommandScript.Text
