/-!
# Blank characters

The characters that separate things in text. Three sets matter: the *blanks*, which are the
white space of the Unicode standard; the *line spaces*, the blanks that separate the words of one
command; and the *indents*, which a line continuation swallows.

## Main definitions

* `Text.isBlank`, `Text.isLineSpace`, `Text.isIndent` — the three sets.
* `Text.isPlainBlank` — a blank that is a line space or a newline.
* `Text.trimmed`, `Text.trim` — a text without the blanks at its two ends.
-/

set_option autoImplicit false

namespace CommandScript.Text

/-- The white space of the Unicode standard: 25 characters. -/
def isBlank (c : Char) : Bool :=
  let n := c.toNat
  (9 ≤ n && n ≤ 13) || n == 0x20 || n == 0x85 || n == 0xA0 || n == 0x1680 ||
    (0x2000 ≤ n && n ≤ 0x200A) || n == 0x2028 || n == 0x2029 || n == 0x202F || n == 0x205F ||
    n == 0x3000

/-- The blanks that separate the words of one command: space, tab, carriage return, vertical tab
and form feed. -/
def isLineSpace (c : Char) : Bool :=
  c == ' ' || c == '\t' || c == '\r' || c == '\x0b' || c == '\x0c'

/-- The characters that a line continuation swallows at the start of the next line. -/
def isIndent (c : Char) : Bool :=
  c == ' ' || c == '\t'

/-- A blank that a script may hold anywhere: a line space or a newline. -/
def isPlainBlank (c : Char) : Bool :=
  isLineSpace c || c == '\n'

/-- The characters without the blanks at the two ends. -/
def trimmed (cs : List Char) : List Char :=
  ((cs.dropWhile isBlank).reverse.dropWhile isBlank).reverse

/-- The text without the blanks at its two ends. -/
def trim (text : String) : String :=
  String.ofList (trimmed text.toList)

/-- A plain blank is a blank. -/
theorem isBlank_of_isPlainBlank {c : Char} (h : isPlainBlank c = true) : isBlank c = true := by
  simp only [isPlainBlank, isLineSpace, Bool.or_eq_true, beq_iff_eq] at h
  rcases h with ((((rfl | rfl) | rfl) | rfl) | rfl) | rfl <;> decide

/-- What may stand before a command on its line separates words, too. -/
theorem isLineSpace_of_isIndent {c : Char} (h : isIndent c = true) : isLineSpace c = true := by
  simp only [isIndent, Bool.or_eq_true, beq_iff_eq] at h
  rcases h with rfl | rfl <;> decide

end CommandScript.Text
