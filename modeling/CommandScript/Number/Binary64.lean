/-!
# Double precision

A double is a whole number of at most 53 bits times a power of two. Everything about its decimal
text is computed on these two numbers, in exact arithmetic.

## Main definitions

* `Number.Binary64` — a finite double as `coefficient * 2 ^ exponent`.
* `Number.Binary64.decode` — what the bits of a double stand for.
* `Number.roundDiv` — a quotient rounded to the nearest integer, a tie to the even one.
* `Number.nearestBits` — the bits of the double nearest to a fraction.
-/

set_option autoImplicit false

namespace CommandScript.Number

/-- A nonnegative finite double, `coefficient * 2 ^ exponent`. -/
structure Binary64 where
  /-- At most 53 bits. -/
  coefficient : Nat
  /-- At least `-1074`. -/
  exponent : Int
deriving DecidableEq, Repr

/-- What the bits of a double stand for. -/
inductive Datum where
  /-- No number. -/
  | nan
  /-- Beyond all numbers. -/
  | infinity (negative : Bool)
  /-- A number with its sign, which zero has too. -/
  | finite (negative : Bool) (magnitude : Binary64)
deriving DecidableEq, Repr

/-- The least coefficient of 53 bits, `2 ^ 52`. -/
def leastNormal : Nat :=
  4503599627370496

/-- The bit of the sign, `2 ^ 63`. -/
def signBit : Nat :=
  9223372036854775808

/-- Reads the sign, the eleven bits of the exponent and the 52 bits of the fraction. -/
def decode (bits : UInt64) : Datum :=
  let n : Nat := bits.toNat
  let negative := n / signBit == 1
  let biased : Nat := n / leastNormal % 2048
  let fraction : Nat := n % leastNormal
  if biased = 2047 then
    if fraction = 0 then .infinity negative else .nan
  else if biased = 0 then .finite negative ⟨fraction, -1074⟩
  else .finite negative ⟨fraction + leastNormal, (biased : Int) - 1075⟩

/-- The quotient rounded to the nearest integer, a tie to the even one. -/
def roundDiv (num den : Nat) : Nat :=
  let q := num / den
  let r := num % den
  if 2 * r < den then q
  else if 2 * r > den then q + 1
  else if q % 2 = 0 then q else q + 1

/-- The fraction `num / den` divided by `2 ^ e`, as a fraction. -/
def scaleDown (num den : Nat) (e : Int) : Nat × Nat :=
  match e with
  | .ofNat k => (num, den * Nat.pow 2 k)
  | .negSucc k => (num * Nat.pow 2 (k + 1), den)

/-- The exponent of the doubles around the fraction `num / den`: with it the coefficient has 53
bits, or fewer at the lower end of the range. -/
def exponentFor (num den : Nat) : Int :=
  let guess : Int := (Nat.log2 num : Int) - (Nat.log2 den : Int) - 53
  let (a, b) := scaleDown num den guess
  let e := if 2 * leastNormal * b ≤ a then guess + 1 else guess
  max e (-1074)

/-- The bits of infinity. -/
def infinityBits : Nat :=
  2047 * leastNormal

/-- The bits of the double nearest to the fraction `num / den`, a tie to the even coefficient. A
fraction beyond the largest double gives infinity. -/
def nearestBits (num den : Nat) : Nat :=
  if num = 0 then 0
  else
    let e := exponentFor num den
    let (a, b) := scaleDown num den e
    min ((e + 1074).toNat * leastNormal + roundDiv a b) infinityBits

end CommandScript.Number
