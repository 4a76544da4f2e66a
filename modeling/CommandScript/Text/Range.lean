/-!
# Ranges of characters

Properties of characters that no rule describes are given as the ranges of codes that have them.

## Main definitions

* `Text.Ranges` — ranges of codes, `Text.Ranges.contains` — whether a character is in one of them.
-/

set_option autoImplicit false

namespace CommandScript.Text

/-- Ranges of codes, each by its first and its last one. -/
abbrev Ranges : Type :=
  List (Nat × Nat)

/-- Whether the code of the character is in one of the ranges. -/
def Ranges.contains (ranges : Ranges) (c : Char) : Bool :=
  ranges.any fun r => r.1 ≤ c.toNat && c.toNat ≤ r.2

end CommandScript.Text
