import CommandScript.Text.GraphemeClass

/-!
# Grapheme clusters

A text falls into grapheme clusters, the pieces that a reader takes for one character each. Whether
a character still belongs to the cluster before it depends on the class of the two characters at the
seam, and sometimes on how the cluster began: two pictures are joined only if the joiner follows a
picture, two consonants only if there is a linker between them, and half flags are taken in pairs.

## Main definitions

* `Text.Seam` — what is known of a cluster at its end.
* `Text.Seam.joins` — whether a character belongs to the cluster before it.
* `Text.graphemes` — the clusters of a text.

## Main results

* `Text.flatten_graphemes` — the clusters put together are the text.
-/

set_option autoImplicit false

namespace CommandScript.Text

/-- How far a cluster has come with a sequence of joined pictures. -/
inductive PictureState where
  /-- It ends with no picture. -/
  | none
  /-- It ends with a picture, perhaps extended. -/
  | picture
  /-- It ends with a picture and a joiner. -/
  | joined
deriving DecidableEq, Repr

/-- How far a cluster has come with a sequence of joined consonants. -/
inductive ConjunctState where
  /-- It ends with no consonant. -/
  | none
  /-- It ends with a consonant, perhaps extended. -/
  | consonant
  /-- It ends with a consonant and a linker, perhaps extended. -/
  | linked
deriving DecidableEq, Repr

/-- What is known of a cluster at its end. -/
structure Seam where
  /-- The class of its last character. -/
  last : GraphemeClass
  /-- Whether it ends with a picture. -/
  picture : PictureState := .none
  /-- Whether it ends with a consonant. -/
  conjunct : ConjunctState := .none
  /-- Whether it ends with half a flag whose other half is missing. -/
  halfFlag : Bool := false
deriving DecidableEq, Repr

namespace Seam

/-- Whether a character of the class belongs to the cluster. -/
def joins (s : Seam) (c : GraphemeClass) : Bool :=
  match s.last, c with
  | .carriageReturn, .lineFeed => true
  | .carriageReturn, _ | .lineFeed, _ | .control, _ => false
  | _, .carriageReturn | _, .lineFeed | _, .control => false
  | _, .extend | _, .linker | _, .nonJoiner | _, .joiner | _, .spacingMark => true
  | .prepended, _ => true
  | .leading, .leading | .leading, .vowel | .leading, .openSyllable
  | .leading, .closedSyllable => true
  | .openSyllable, .vowel | .openSyllable, .trailing | .vowel, .vowel | .vowel, .trailing => true
  | .closedSyllable, .trailing | .trailing, .trailing => true
  | _, .consonant => s.conjunct == .linked
  | _, .pictograph => s.picture == .joined
  | _, .regional => s.halfFlag
  | _, _ => false

/-- How far the pictures have come after one more character. -/
def nextPicture (p : PictureState) (c : GraphemeClass) : PictureState :=
  match c, p with
  | .pictograph, _ => .picture
  | .extend, .picture | .linker, .picture | .nonJoiner, .picture => .picture
  | .joiner, .picture => .joined
  | _, _ => .none

/-- How far the consonants have come after one more character. -/
def nextConjunct (k : ConjunctState) (c : GraphemeClass) : ConjunctState :=
  match c, k with
  | .consonant, _ => .consonant
  | .linker, .consonant | .linker, .linked => .linked
  | .extend, k | .joiner, k => k
  | _, _ => .none

/-- The end of a cluster that begins with a character of the class. -/
def first (c : GraphemeClass) : Seam :=
  { last := c
    picture := nextPicture .none c
    conjunct := nextConjunct .none c
    halfFlag := c == .regional }

/-- The end of the cluster after one more character of the class. -/
def next (s : Seam) (c : GraphemeClass) : Seam :=
  { last := c
    picture := nextPicture s.picture c
    conjunct := nextConjunct s.conjunct c
    halfFlag := c == .regional && !s.halfFlag }

end Seam

/-- The clusters of a text of which `taken`, the latest character first, is the cluster that has
been begun, and `seam` what is known of it. -/
def graphemesFrom (taken : List Char) (seam : Seam) : List Char → List (List Char)
  | [] => [taken.reverse]
  | c :: cs =>
    let kind := graphemeClass c
    if seam.joins kind then graphemesFrom (c :: taken) (seam.next kind) cs
    else taken.reverse :: graphemesFrom [c] (.first kind) cs

/-- The clusters of a text. -/
def graphemes : List Char → List (List Char)
  | [] => []
  | c :: cs => graphemesFrom [c] (.first (graphemeClass c)) cs

/-- Cutting a text into clusters loses no character, whatever has been put aside before. -/
theorem flatten_graphemesFrom (taken : List Char) (seam : Seam) (cs : List Char) :
    (graphemesFrom taken seam cs).flatten = taken.reverse ++ cs := by
  induction cs generalizing taken seam with
  | nil => simp [graphemesFrom]
  | cons c cs ih =>
    simp only [graphemesFrom]
    split
    · rw [ih]
      simp
    · rw [List.flatten_cons, ih]
      simp

/-- The clusters put together are the text. -/
theorem flatten_graphemes (cs : List Char) : (graphemes cs).flatten = cs := by
  cases cs with
  | nil => rfl
  | cons c cs => simp [graphemes, flatten_graphemesFrom]

end CommandScript.Text
