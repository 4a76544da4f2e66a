import CommandScript.Number.Integer
import CommandScript.Number.Shortest

/-!
# The text of a floating-point number

A float is written without an exponent and in a way that tells it from an integer: a whole number
has all its digits, a point and one zero, any other number the fewest digits that read back. It is
read from the usual decimal forms and from the names of infinity and of what is no number.

## Main definitions

* `Number.writeFloat` — the text of a float.
* `Number.exponentFrom` — the exponent that digits stand for, which has a limit.
* `Number.readFloat?` — the float that a text stands for: the nearest one.
-/

set_option autoImplicit false

namespace CommandScript.Number

open CommandScript.Text

/-! ## Writing -/

/-- The digits of a number with a point before the last `places` of them. -/
def withPoint (digits : List Char) (places : Nat) : List Char :=
  let padded := List.replicate (places + 1 - digits.length) '0' ++ digits
  padded.take (padded.length - places) ++ '.' :: padded.drop (padded.length - places)

/-- A decimal without an exponent. -/
def positional (d : Decimal) : List Char :=
  match d.exponent with
  | .ofNat k => Nat.toDigits 10 (d.digits * Nat.pow 10 k)
  | .negSucc k => withPoint (Nat.toDigits 10 d.digits) (k + 1)

/-- The digits of a nonnegative double. -/
def magnitudeChars (x : Binary64) : List Char :=
  let (n, m) := x.fraction
  if n % m = 0 then Nat.toDigits 10 (n / m) ++ ['.', '0'] else positional x.shortest

/-- The text of what the bits of a double stand for. -/
def Datum.write : Datum → String
  | .nan => "NaN"
  | .infinity false => "inf"
  | .infinity true => "-inf"
  | .finite false x => String.ofList (magnitudeChars x)
  | .finite true x => String.ofList ('-' :: magnitudeChars x)

/-- The text of a float. -/
def writeFloat (x : Float) : String :=
  (decode x.toBits).write

/-! ## Reading -/

/-- A character in lower case, if it is a letter of the first 128 characters. -/
def lowerChar (c : Char) : Char :=
  if 'A' ≤ c ∧ c ≤ 'Z' then Char.ofNat (c.toNat + 32) else c

/-- A text in lower case, as far as the letters of the first 128 characters go. -/
def lower (cs : List Char) : List Char :=
  cs.map lowerChar

/-- From here on the digits of an exponent no longer count, `2 ^ 16`. -/
def exponentLimit : Nat :=
  65536

/-- The exponent that the digits stand for, starting from `value`. Once the limit is reached the
digits that follow change nothing. Fails on a character that is no digit. -/
def exponentFrom : Nat → List Char → Option Nat
  | value, [] => some value
  | value, c :: cs =>
    match decimalValue? c with
    | some d => exponentFrom (if value < exponentLimit then value * 10 + d else value) cs
    | none => none

/-- The exponent that one or more digits stand for. -/
def exponentDigits? (cs : List Char) : Option Nat :=
  if cs.isEmpty then none else exponentFrom 0 cs

/-- The exponent written after its mark: an optional sign and one or more digits. -/
def exponent? : List Char → Option Int
  | '-' :: rest => (exponentDigits? rest).map fun n => -(n : Int)
  | '+' :: rest => (exponentDigits? rest).map fun n => (n : Int)
  | rest => (exponentDigits? rest).map fun n => (n : Int)

/-- Whether the character marks an exponent. -/
def isExponentMark (c : Char) : Bool :=
  c == 'e' || c == 'E'

/-- Reads digits with at most one point among them, and an exponent after them. -/
def decimal? (cs : List Char) : Option Decimal :=
  let mantissa := cs.takeWhile (fun c => !isExponentMark c)
  let power := cs.dropWhile (fun c => !isExponentMark c)
  let whole := mantissa.takeWhile (· != '.')
  let places := (mantissa.dropWhile (· != '.')).drop 1
  match digitsValue 10 decimalValue? (whole ++ places), power with
  | none, _ => none
  | some n, [] => some ⟨n, -places.length⟩
  | some n, _ :: e => (exponent? e).map fun p => ⟨n, p - places.length⟩

/-- A power of ten that a number other than zero reaches: its exponent is close to the greatest
such one, and taken from the bits of the number. -/
def reachedPower (n : Nat) : Nat :=
  Nat.log2 n * 30102 / 100000

/-- A power of ten that a number does not reach: its exponent is close to the least such one, and
taken from the bits of the number. -/
def unreachedPower (n : Nat) : Nat :=
  (Nat.log2 n + 1) * 30104 / 100000 + 1

/-- The bits of the double nearest to a decimal. Far outside the range of doubles the power of ten
is not computed. -/
def Decimal.nearestBits (d : Decimal) : Nat :=
  if d.digits = 0 then 0
  else if reachedPower d.digits + d.exponent > 310 then infinityBits
  else if unreachedPower d.digits + d.exponent < -330 then 0
  else
    let (n, m) := d.fraction
    Number.nearestBits n m

/-- The bits of a double without its sign. -/
def magnitudeBits? (cs : List Char) : Option Nat :=
  let word := String.ofList (lower cs)
  if word = "inf" ∨ word = "infinity" then some infinityBits
  else if word = "nan" then some (infinityBits + leastNormal / 2)
  else (decimal? cs).map Decimal.nearestBits

/-- The bits of a double written with an optional sign. -/
def floatBits? : List Char → Option Nat
  | '-' :: rest => (magnitudeBits? rest).map (· + signBit)
  | '+' :: rest => magnitudeBits? rest
  | rest => magnitudeBits? rest

/-- The float that a text stands for, blanks around it ignored. -/
def readFloat? (text : String) : Option Float :=
  (floatBits? (trimmed text.toList)).map fun bits => Float.ofBits bits.toUInt64

end CommandScript.Number
