import CommandScript.Text.Grapheme

/-!
# Backspaces

A line that does not come from a terminal may hold backspaces, each of which takes back the
grapheme cluster before it. What is remembered of each cluster is the number of its bytes, in eight
bits: of a cluster of 256 bytes or more only as many bytes are taken back as are left over when
whole multiples of 256 are taken away.

## Main definitions

* `Shell.Typed` — what has been typed and not taken back.
* `Shell.dropBytes` — a text without its last bytes.
* `Shell.applyBackspaces` — a line with its backspaces carried out.
-/

set_option autoImplicit false

namespace CommandScript.Shell

open CommandScript.Text

/-- What has been typed and not taken back. -/
structure Typed where
  /-- The characters, the latest first. -/
  taken : List Char := []
  /-- For each cluster that can be taken back, how many bytes go; the latest first. -/
  sizes : List Nat := []
deriving DecidableEq, Repr

/-- The number of bytes of a text. -/
def byteCount (cs : List Char) : Nat :=
  cs.foldr (fun c n => c.utf8Size + n) 0

/-- Drops bytes from the front. Fails if that would split a character. -/
def dropBytes : Nat → List Char → Option (List Char)
  | 0, cs => some cs
  | _ + 1, [] => none
  | n + 1, c :: cs => if c.utf8Size ≤ n + 1 then dropBytes (n + 1 - c.utf8Size) cs else none

namespace Typed

/-- Takes back the last cluster, if there is one. -/
def takeBack (t : Typed) : Option Typed :=
  match t.sizes with
  | [] => some t
  | n :: sizes => (dropBytes n t.taken).map fun taken => { taken, sizes }

/-- Adds a cluster. -/
def add (t : Typed) (cluster : List Char) : Typed :=
  { taken := cluster.reverse ++ t.taken, sizes := byteCount cluster % 256 :: t.sizes }

/-- Adds a cluster, or takes one back if it is a backspace. -/
def step (t : Typed) (cluster : List Char) : Option Typed :=
  if cluster = ['\x08'] then t.takeBack else some (t.add cluster)

end Typed

/-- A line with its backspaces carried out. Fails if that would split a character. -/
def applyBackspaces (line : String) : Option String :=
  ((graphemes line.toList).foldlM Typed.step {}).map fun t => String.ofList t.taken.reverse

end CommandScript.Shell
