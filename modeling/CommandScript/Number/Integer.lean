import CommandScript.Text.Blank
import CommandScript.Text.Escape

/-!
# Integer numerals

An integer is written as an optional sign and either decimal digits or `0x` and hexadecimal
digits, with blanks around it. The magnitude must fit in 63 bits, so the least long integer has a
text that is no numeral.

## Main definitions

* `Number.readInteger?` — the integer that a text stands for.
* `Number.digitsValueFrom`, `Number.digitsValue` — the number that a sequence of digits stands for,
  digit by digit and in blocks.
* `Number.toInt32?` — an integer that fits in 32 bits, as such.
* `Number.writeInteger` — the decimal text of an integer.

## Main results

* `Number.digitsValue_eq` — blocks of digits stand for the same number as the digits one by one.
-/

set_option autoImplicit false

namespace CommandScript.Number

open CommandScript.Text

/-- The value of a decimal digit. -/
def decimalValue? (c : Char) : Option Nat :=
  if '0' ≤ c ∧ c ≤ '9' then some (c.toNat - '0'.toNat) else none

/-- The number that the digits stand for in the base, starting from `value`. Fails on a character
that is no digit. -/
def digitsValueFrom (base : Nat) (digit? : Char → Option Nat) : Nat → List Char → Option Nat
  | value, [] => some value
  | value, c :: cs =>
    match digit? c with
    | some d => digitsValueFrom base digit? (value * base + d) cs
    | none => none

/-- How far the digits of a block may reach: with a further digit a block is still a small number,
`10 ^ 17`. -/
def blockReach : Nat :=
  100000000000000000

/-- The number that the digits stand for in the base, starting from `value * scale + block`. The
digits are gathered in blocks, so that a long number is multiplied once for each block and not once
for each digit. -/
def blockValueFrom (base : Nat) (digit? : Char → Option Nat) :
    Nat → Nat → Nat → List Char → Option Nat
  | value, scale, block, [] => some (value * scale + block)
  | value, scale, block, c :: cs =>
    match digit? c with
    | some d =>
      if scale < blockReach then
        blockValueFrom base digit? value (scale * base) (block * base + d) cs
      else blockValueFrom base digit? (value * scale + block) base d cs
    | none => none

/-- Gathering the digits in blocks changes nothing. -/
theorem blockValueFrom_eq (base : Nat) (digit? : Char → Option Nat) (value scale block : Nat)
    (cs : List Char) :
    blockValueFrom base digit? value scale block cs =
      digitsValueFrom base digit? (value * scale + block) cs := by
  induction cs generalizing value scale block with
  | nil => rfl
  | cons c cs ih =>
    simp only [blockValueFrom, digitsValueFrom]
    cases digit? c with
    | none => rfl
    | some d =>
      by_cases h : scale < blockReach
      · simp only [h, if_true, ih]
        rw [Nat.add_mul, Nat.mul_assoc, Nat.add_assoc]
      · simp only [h, if_false, ih]

/-- The number that one or more digits stand for in the base. -/
def digitsValue (base : Nat) (digit? : Char → Option Nat) (cs : List Char) : Option Nat :=
  if cs.isEmpty then none else blockValueFrom base digit? 0 1 0 cs

/-- One or more digits stand for what is reached by taking them in one after another. -/
theorem digitsValue_eq (base : Nat) (digit? : Char → Option Nat) (cs : List Char) :
    digitsValue base digit? cs = if cs.isEmpty then none else digitsValueFrom base digit? 0 cs := by
  simp only [digitsValue, blockValueFrom_eq, Nat.zero_mul, Nat.add_zero]

/-- The number written by decimal digits or by `0x` and hexadecimal digits. -/
def magnitude? : List Char → Option Nat
  | '0' :: 'x' :: digits => digitsValue 16 hexValue? digits
  | '0' :: 'X' :: digits => digitsValue 16 hexValue? digits
  | digits => digitsValue 10 decimalValue? digits

/-- The largest magnitude that a numeral may have. -/
def largest : Nat :=
  9223372036854775807

/-- The number written without a sign, if it is not too large. -/
def unsigned? (cs : List Char) : Option Nat :=
  (magnitude? cs).filter (· ≤ largest)

/-- The integer written by the characters, blanks around it removed. -/
def signed? : List Char → Option Int
  | '-' :: rest => (unsigned? rest).map fun n => -(n : Int)
  | '+' :: rest => (unsigned? rest).map fun n => (n : Int)
  | rest => (unsigned? rest).map fun n => (n : Int)

/-- The integer that a text stands for. -/
def readInteger? (text : String) : Option Int :=
  signed? (trimmed text.toList)

/-- Whether an integer fits in 32 bits. -/
def fitsInt32 (n : Int) : Bool :=
  -2147483648 ≤ n && n ≤ 2147483647

/-- The integer as a word of 32 bits, if it fits. -/
def toInt32? (n : Int) : Option Int32 :=
  if fitsInt32 n then some (Int32.ofInt n) else none

/-- The decimal text of a natural number. -/
def writeNat (n : Nat) : String :=
  String.ofList (Nat.toDigits 10 n)

/-- The decimal text of an integer. -/
def writeInteger : Int → String
  | .ofNat n => writeNat n
  | .negSucc n => "-" ++ writeNat (n + 1)

end CommandScript.Number
