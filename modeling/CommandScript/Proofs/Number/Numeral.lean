import CommandScript.Value.Conversion
import Mathlib.Tactic.Lemma

/-!
# Numerals

An integer that is written can be read back, unless it is the one whose magnitude is too large for a
numeral. What a text stands for as an integer of 32 bits, of 64 bits and as a truth value hangs
together: a value may be held as one of them and asked for another.

## Main results

* `Number.readInteger?_writeInteger` — a written integer can be read back.
* `Store.readInt?_writeInteger` — so can every integer of 32 bits.
* `Store.readInt?_of_readLong?` — an integer of 32 bits read from the long integer of a text.
* `Store.readBool?_of_readInt?`, `Store.readBool?_of_readLong?` — the truth value of a numeral.
-/

set_option autoImplicit false

namespace CommandScript

namespace Text

/-- Where no blank is, there is nothing to trim. -/
lemma trimmed_of_not_isBlank {cs : List Char} (h : ∀ c ∈ cs, isBlank c = false) :
    trimmed cs = cs := by
  have hdrop : ∀ ds : List Char, (∀ c ∈ ds, isBlank c = false) → ds.dropWhile isBlank = ds := by
    intro ds hds
    cases ds with
    | nil => rfl
    | cons d ds => exact List.dropWhile_cons_of_neg (by simp [hds d (by simp)])
  unfold trimmed
  rw [hdrop cs h, hdrop cs.reverse fun c hc => h c (List.mem_reverse.1 hc), List.reverse_reverse]

end Text

namespace Number

open CommandScript.Text

/-- The digits stand together, from `0` on. -/
lemma toNat_bounds_of_isDigit {c : Char} (h : c.isDigit = true) : 48 ≤ c.toNat ∧ c.toNat ≤ 57 := by
  simp only [Char.isDigit, Bool.and_eq_true, decide_eq_true_eq, ge_iff_le,
    UInt32.le_iff_toNat_le] at h
  exact h

/-- A digit is no blank. -/
lemma isBlank_of_isDigit {c : Char} (h : c.isDigit = true) : isBlank c = false := by
  obtain ⟨hlow, hhigh⟩ := toNat_bounds_of_isDigit h
  simp only [isBlank, Bool.or_eq_false_iff, Bool.and_eq_false_iff, decide_eq_false_iff_not,
    beq_eq_false_iff_ne]
  omega

/-- A digit's value is its distance from `0`. -/
lemma decimalValue?_of_isDigit {c : Char} (h : c.isDigit = true) :
    decimalValue? c = some (c.toNat - '0'.toNat) := by
  refine if_pos ?_
  simpa [Char.isDigit, Char.le_def] using h

/-- Digits stand for the number that the core library reads off them. -/
lemma digitsValueFrom_of_isDigit (value : Nat) {cs : List Char} (h : ∀ c ∈ cs, c.isDigit = true) :
    digitsValueFrom 10 decimalValue? value cs = some (Nat.ofDigitChars 10 cs value) := by
  induction cs generalizing value with
  | nil => rfl
  | cons c cs ih =>
    have hc := decimalValue?_of_isDigit (h c List.mem_cons_self)
    rw [Nat.ofDigitChars_cons, Nat.mul_comm, ← ih _ fun d hd => h d (List.mem_cons_of_mem c hd)]
    simp only [digitsValueFrom, hc]

/-- Digits do not start like a number with another base. -/
lemma magnitude?_of_isDigit {cs : List Char} (h : ∀ c ∈ cs, c.isDigit = true) :
    magnitude? cs = digitsValue 10 decimalValue? cs := by
  unfold magnitude?
  split
  next => exact absurd (h 'x' (by simp)) (by decide)
  next => exact absurd (h 'X' (by simp)) (by decide)
  next => rfl

/-- Digits are read as the number that they were written for. -/
lemma unsigned?_toDigits {n : Nat} (h : n ≤ largest) : unsigned? (Nat.toDigits 10 n) = some n := by
  have hdigits : ∀ c ∈ Nat.toDigits 10 n, c.isDigit = true := fun c hc =>
    Nat.isDigit_of_mem_toDigits (by decide) (by decide) hc
  unfold unsigned?
  rw [magnitude?_of_isDigit hdigits, digitsValue_eq, digitsValueFrom_of_isDigit 0 hdigits,
    Nat.ofDigitChars_ten_toDigits]
  simp [Nat.toDigits_ne_nil, h]

/-- Without a sign, the integer is the number. -/
lemma signed?_toDigits {n : Nat} (h : n ≤ largest) :
    signed? (Nat.toDigits 10 n) = some (n : Int) := by
  have hdigits : ∀ c ∈ Nat.toDigits 10 n, c.isDigit = true := fun c hc =>
    Nat.isDigit_of_mem_toDigits (by decide) (by decide) hc
  have hvalue := unsigned?_toDigits h
  unfold signed?
  split
  next hcs => exact absurd (hdigits '-' (by simp [hcs])) (by decide)
  next hcs => exact absurd (hdigits '+' (by simp [hcs])) (by decide)
  next => simp [hvalue]

/-- So they are behind a minus sign. -/
lemma signed?_minus_toDigits {n : Nat} (h : n ≤ largest) :
    signed? ('-' :: Nat.toDigits 10 n) = some (-(n : Int)) := by
  have hvalue := unsigned?_toDigits h
  simp [signed?, hvalue]

/-- **A written integer can be read back**, unless its magnitude is too large for a numeral. -/
lemma readInteger?_writeInteger {n : Int} (h : n.natAbs ≤ largest) :
    readInteger? (writeInteger n) = some n := by
  have hblank : ∀ (m : Nat), ∀ c ∈ Nat.toDigits 10 m, isBlank c = false := fun m c hc =>
    isBlank_of_isDigit (Nat.isDigit_of_mem_toDigits (by decide) (by decide) hc)
  unfold readInteger?
  cases n with
  | ofNat m =>
    have htext : (writeInteger (.ofNat m)).toList = Nat.toDigits 10 m := by
      simp [writeInteger, writeNat]
    rw [htext, trimmed_of_not_isBlank (hblank m)]
    exact signed?_toDigits h
  | negSucc m =>
    have htext : (writeInteger (.negSucc m)).toList = '-' :: Nat.toDigits 10 (m + 1) := by
      simp [writeInteger, writeNat]
    have hminus : ∀ c ∈ '-' :: Nat.toDigits 10 (m + 1), isBlank c = false := by
      intro c hc
      obtain rfl | hc := List.mem_cons.1 hc
      · decide
      · exact hblank _ c hc
    rw [htext, trimmed_of_not_isBlank hminus]
    exact signed?_minus_toDigits h

/-- What is read fits in 64 bits. -/
lemma natAbs_le_of_readInteger? {t : String} {n : Int} (h : readInteger? t = some n) :
    n.natAbs ≤ largest := by
  have hunsigned : ∀ {cs : List Char} {m : Nat}, unsigned? cs = some m → m ≤ largest := by
    intro cs m hm
    simpa using (Option.filter_eq_some_iff.1 hm).2
  unfold readInteger? signed? at h
  split at h
  all_goals
    simp only [bind_pure_comp, Option.map_eq_map, Option.map_map, Option.map_eq_some_iff] at h
    obtain ⟨m, hm, rfl⟩ := h
    have hle := hunsigned hm
    dsimp only [Function.comp]
    omega

/-- An integer of 32 bits that is read is the integer it was read from. -/
lemma toInt32?_eq_some {n : Int} {m : Int32} (h : toInt32? n = some m) : m.toInt = n := by
  unfold toInt32? at h
  split at h
  next hfits =>
    cases h
    simp only [fitsInt32, Bool.and_eq_true, decide_eq_true_eq] at hfits
    exact Int32.toInt_ofInt_of_le (by omega) (by omega)
  next => cases h

/-- Every integer of 32 bits fits. -/
lemma toInt32?_toInt (n : Int32) : toInt32? n.toInt = some n := by
  have hlow := n.le_toInt
  have hhigh := n.toInt_lt
  unfold toInt32?
  rw [if_pos (by simp only [fitsInt32, Bool.and_eq_true, decide_eq_true_eq]; omega),
    Int32.ofInt_toInt]

end Number

namespace Store

open Number

/-- An integer of 32 bits is read from its numeral. -/
lemma readInt?_writeInteger (n : Int32) : readInt? (writeInteger n.toInt) = some n := by
  have hlow := n.le_toInt
  have hhigh := n.toInt_lt
  have hlargest : largest = 9223372036854775807 := rfl
  unfold readInt?
  rw [readInteger?_writeInteger (by omega)]
  exact toInt32?_toInt n

/-- The long integer of a text is the integer that is read. -/
lemma readInteger?_of_readLong? {t : String} {n : Int64} (h : readLong? t = some n) :
    readInteger? t = some n.toInt := by
  obtain ⟨m, hm, rfl⟩ := Option.map_eq_some_iff.1 h
  have hle := natAbs_le_of_readInteger? hm
  have hlargest : largest = 9223372036854775807 := rfl
  rw [hm, Int64.toInt_ofInt_of_le (by omega) (by omega)]

/-- An integer of 64 bits can be read as one of 32 bits if and only if it fits. -/
lemma readInt?_of_readLong? {t : String} {n : Int64} (h : readLong? t = some n) :
    readInt? t = toInt32? n.toInt := by
  unfold readInt?
  rw [readInteger?_of_readLong? h]
  rfl

/-- An integer of 32 bits is the same as a long one. -/
lemma readLong?_of_readInt? {t : String} {n : Int32} (h : readInt? t = some n) :
    readLong? t = some n.toInt64 := by
  obtain ⟨m, hm, hn⟩ := Option.bind_eq_some_iff.1 h
  have htoInt := toInt32?_eq_some hn
  unfold readLong?
  rw [hm, Option.map_some, ← htoInt, Int64.ofInt_int32ToInt]

/-- A long integer is read as it is written, but for the least one, whose magnitude is out of
range. -/
lemma readLong?_writeInteger {n : Int64} (hn : n ≠ Int64.minValue) :
    readLong? (writeInteger n.toInt) = some n := by
  have hlow := n.le_toInt
  have hhigh := n.toInt_lt
  have hleast : n.toInt ≠ Int64.minValue.toInt := mt Int64.toInt_inj.1 hn
  have hmin : Int64.minValue.toInt = -9223372036854775808 := by decide
  have hlargest : largest = 9223372036854775807 := rfl
  unfold readLong?
  rw [readInteger?_writeInteger (by omega), Option.map_some, Int64.ofInt_toInt]

/-- An integer of 32 bits is true unless it is zero. -/
lemma readBool?_of_readInt? {t : String} {n : Int32} (h : readInt? t = some n) :
    readBool? t = some (n != 0) := by
  obtain ⟨m, hm, hn⟩ := Option.bind_eq_some_iff.1 h
  have htoInt := toInt32?_eq_some hn
  unfold readBool?
  rw [hm]
  have hzero : n = 0 ↔ m = 0 := by
    rw [← htoInt, ← Int32.toInt_inj]
    rfl
  simp [bne, BEq.beq, hzero]

/-- So is one of 64 bits. -/
lemma readBool?_of_readLong? {t : String} {n : Int64} (h : readLong? t = some n) :
    readBool? t = some (n != 0) := by
  unfold readBool?
  rw [readInteger?_of_readLong? h]
  have hzero : n = 0 ↔ n.toInt = 0 := by
    rw [← Int64.toInt_inj]
    rfl
  simp [bne, BEq.beq, hzero]

end Store

end CommandScript
