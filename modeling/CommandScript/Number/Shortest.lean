import CommandScript.Number.Binary64

/-!
# The shortest decimal of a double

The decimals that read back as a given double are those in the interval around it that rounds to
it. Among them the one with the fewest digits is written, and of several with that many digits the
nearest; of two equally near, the larger.

## Main definitions

* `Number.Decimal` — `digits * 10 ^ exponent`.
* `Number.Binary64.reads` — whether a decimal lies in the interval that rounds to the double.
* `Number.Binary64.shortest` — the shortest decimal of a positive double.
-/

set_option autoImplicit false

namespace CommandScript.Number

/-- The number `digits * 10 ^ exponent`. -/
structure Decimal where
  /-- The digits as one whole number. -/
  digits : Nat
  /-- The power of ten. -/
  exponent : Int
deriving DecidableEq, Repr

/-- A fraction times `10 ^ e`. -/
def scaleTen (num den : Nat) (e : Int) : Nat × Nat :=
  match e with
  | .ofNat k => (num * Nat.pow 10 k, den)
  | .negSucc k => (num, den * Nat.pow 10 (k + 1))

/-- A fraction times `2 ^ e`. -/
def scaleTwo (num den : Nat) (e : Int) : Nat × Nat :=
  scaleDown num den (-e)

/-- The fraction that a decimal stands for. -/
def Decimal.fraction (d : Decimal) : Nat × Nat :=
  scaleTen d.digits 1 d.exponent

/-- The same number without zeros at the end of its digits; there are at most `fuel` of them. -/
def Decimal.strip : Nat → Decimal → Decimal
  | 0, d => d
  | fuel + 1, d =>
    if d.digits ≠ 0 ∧ d.digits % 10 = 0 then strip fuel ⟨d.digits / 10, d.exponent + 1⟩ else d

namespace Binary64

/-- The fraction that a double stands for. -/
def fraction (x : Binary64) : Nat × Nat :=
  scaleTwo x.coefficient 1 x.exponent

/-- Four times the coefficients at the two ends of the interval that rounds to the double. Just
above a power of two the lower neighbour is nearer. -/
def ends (x : Binary64) : Nat × Nat :=
  let low := if x.coefficient = leastNormal ∧ x.exponent > -1074 then 1 else 2
  (4 * x.coefficient - low, 4 * x.coefficient + 2)

/-- Whether the decimal lies in the interval that rounds to the double. The ends belong to it if
the coefficient is even. -/
def reads (x : Binary64) (d : Decimal) : Bool :=
  let (low, high) := x.ends
  -- the decimal in quarters of the unit of the coefficient
  let (n, m) := d.fraction
  let (a, b) := scaleTwo (4 * n) m (-x.exponent)
  if x.coefficient % 2 = 0 then low * b ≤ a && a ≤ high * b else low * b < a && a < high * b

/-- The number of decimal digits before the point of a double that is at least one, and minus the
number of zeros after it otherwise. -/
def pointPlace (x : Binary64) : Int :=
  let (n, m) := x.fraction
  let guess : Int := (Nat.toDigits 10 n).length - (Nat.toDigits 10 m).length
  let (a, b) := scaleTen n m (-guess)
  if b ≤ a then guess + 1 else guess

/-- The better of the two neighbours of a double among the decimals with the exponent, if one of
them reads back. -/
def onGrid? (x : Binary64) (e : Int) : Option Decimal :=
  let (n, m) := x.fraction
  let (a, b) := scaleTen n m (-e)
  let below : Decimal := ⟨a / b, e⟩
  let above : Decimal := ⟨a / b + 1, e⟩
  match x.reads below, x.reads above with
  | true, true => if 2 * (a % b) < b then some below else some above
  | true, false => some below
  | false, true => some above
  | false, false => none

/-- The first grid that holds a decimal that reads back, from `digits` digits on. -/
def shortestFrom (x : Binary64) (place : Int) : Nat → Nat → Decimal
  | 0, digits => (x.onGrid? (place - digits)).getD ⟨0, 0⟩
  | fuel + 1, digits =>
    match x.onGrid? (place - digits) with
    | some d => d
    | none => shortestFrom x place fuel (digits + 1)

/-- The shortest decimal that reads back as the positive double; 17 digits are always enough. -/
def shortest (x : Binary64) : Decimal :=
  (x.shortestFrom x.pointPlace 17 1).strip 17

end Binary64

end CommandScript.Number
