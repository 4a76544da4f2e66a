/-!
# Text in braces

Text between braces is taken as it stands. It ends at the brace that closes the opening one;
braces inside must match, and a backslash keeps the next character from counting.

## Main definitions

* `Text.Braced` — text in braces that is being read, with `Text.Braced.step`.
* `Text.balanced` — whether the braces of a text match, so that it can be put in braces.
-/

set_option autoImplicit false

namespace CommandScript.Text

/-- Text in braces that is being read, after the opening brace. -/
structure Braced where
  /-- The number of braces opened inside and not yet closed. -/
  depth : Nat := 0
  /-- Whether the last character was a backslash that protects the next one. -/
  escaped : Bool := false
  /-- The characters read, the latest first. -/
  taken : List Char := []
deriving DecidableEq, Repr

namespace Braced

/-- Takes a character as part of the text. -/
def take (b : Braced) (c : Char) (depth : Nat) (escaped : Bool) : Braced :=
  { depth, escaped, taken := c :: b.taken }

/-- Reads a character. Yields the whole text in reading order when the character is the closing
brace. -/
def step (b : Braced) (c : Char) : Except (List Char) Braced :=
  if b.escaped then .ok (b.take c b.depth false)
  else if c = '\\' then .ok (b.take c b.depth true)
  else if c = '{' then .ok (b.take c (b.depth + 1) false)
  else if c = '}' then
    match b.depth with
    | 0 => .error b.taken.reverse
    | depth + 1 => .ok (b.take c depth false)
  else .ok (b.take c b.depth false)

end Braced

/-- Whether the braces of the text match, `depth` of them being open at its start. -/
def balancedFrom : Nat → List Char → Bool
  | depth, [] => depth == 0
  | depth, '\\' :: [] => depth == 0
  | depth, '\\' :: _ :: rest => balancedFrom depth rest
  | depth, '{' :: rest => balancedFrom (depth + 1) rest
  | 0, '}' :: _ => false
  | depth + 1, '}' :: rest => balancedFrom depth rest
  | depth, _ :: rest => balancedFrom depth rest

/-- Whether the braces of the text match. -/
def balanced (cs : List Char) : Bool :=
  balancedFrom 0 cs

end CommandScript.Text
