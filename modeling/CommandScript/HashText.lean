import CommandScript.Failure
import CommandScript.ListText.Writer
import CommandScript.Table

/-!
# Hash text

A hash is written as a list of its keys, each followed by its value. When it is read, a key that
comes again keeps its place and takes the new value.

## Main definitions

* `HashText.pairUp` — pairs the elements of a list.
* `HashText.read`, `HashText.write` — between a hash and its text.
-/

set_option autoImplicit false

namespace CommandScript.HashText

/-- Pairs each element at an even place with the one after it. Fails if one is left over. -/
def pairUp {α : Type} : List α → Option (List (α × α))
  | [] => some []
  | [_] => none
  | key :: value :: rest => (pairUp rest).map ((key, value) :: ·)

/-- The hash that a text stands for. -/
def read (text : String) : Except Failure (Table String) :=
  match ListText.read text with
  | .error e => .error (.list e)
  | .ok items =>
    match pairUp items with
    | none => .error .oddHash
    | some entries => .ok (Table.ofPairs entries)

/-- The keys of a hash, each followed by its value. -/
def flatten (entries : Table String) : List String :=
  entries.entries.flatMap fun e => [e.1, e.2]

/-- The text of a hash. -/
def write (entries : Table String) : String :=
  ListText.write (flatten entries)

end CommandScript.HashText
