import CommandScript.Value.Conversion
import Mathlib.Data.List.TakeWhile
import Mathlib.Tactic.Lemma

/-!
# Integers, truth values and floating-point numerals

A text may be a numeral of an integer, a numeral of a floating-point number, a word for a truth
value, or several of these. Where two readings of a text are possible they agree on what counts: an
integer is zero exactly if the floating-point number nearest to it is, and no word for a truth value
is a number.

The first is shown on the bits. An integer other than zero is at least one, so its exponent field is
not empty, and no zero has such bits.

## Main results

* `Number.ofBits_bne_zero` — bits with an exponent stand for something other than zero.
* `Number.readFloat?_bne_zero` — a numeral of both kinds is zero as both or as neither.
* `Number.readFloat?_eq_none_of_word` — words for truth values are no numbers.
-/

set_option autoImplicit false

namespace CommandScript.Number

open CommandScript.Text

/-! ## Bits that stand for zero -/

section Bits

open Float.Model
open Float.Model.UnpackedFloat (unpackExponent unpackMantissa unpackExponent_packComponents)

/-- The leading bit of a mantissa stands for the least normal number. -/
lemma toNat_mantissa (b : BitVec Format.binary64.numBits) :
    (1#1 ++ unpackMantissa b).toNat = leastNormal + (unpackMantissa b).toNat := by
  have happend : ∀ v : BitVec 52, (1#1 ++ v).toNat = leastNormal + v.toNat := by
    intro v
    rw [BitVec.toNat_append, ← Nat.shiftLeft_add_eq_or_of_lt v.isLt, Nat.shiftLeft_eq]
    exact congrArg (· + v.toNat) (Nat.one_mul _)
  exact happend (unpackMantissa b)

/-- Bits with an exponent stand for an infinity, for no number, or for a number whose mantissa has
the leading bit. -/
lemma unpack_cases {b : BitVec Format.binary64.numBits} (h : unpackExponent b ≠ 0#11) :
    (∃ t, UnpackedFloat.unpack Format.binary64 b = .infinity t) ∨
      UnpackedFloat.unpack Format.binary64 b = .notANumber ∨
      ∃ t hpos, UnpackedFloat.unpack Format.binary64 b =
        .finite t (1#1 ++ unpackMantissa b).toNat ((unpackExponent b).toNat -
          (Format.binary64.exponentBias + Format.binary64.mantissaBitsWithoutImplicit)) hpos := by
  have hzero : unpackExponent b ≠ BitVec.ofNat Format.binary64.exponentBits 0 := h
  unfold UnpackedFloat.unpack
  dsimp only
  by_cases hmax : unpackExponent b = -BitVec.ofNat Format.binary64.exponentBits 1
  · by_cases hmantissa :
        unpackMantissa b = BitVec.ofNat Format.binary64.mantissaBitsWithoutImplicit 0
    · exact .inl ⟨_, by rw [if_pos hmax, if_pos hmantissa]⟩
    · exact .inr (.inl (by rw [if_pos hmax, if_neg hmantissa]))
  · have hpos : 0 < (1#1 ++ unpackMantissa b).toNat := by
      rw [toNat_mantissa]
      exact Nat.add_pos_left (by decide) _
    exact .inr (.inr ⟨_, hpos, by rw [if_neg hmax, if_neg hzero]⟩)

/-- Bits with an exponent keep it if they are read and written again. -/
lemma unpackExponent_pack_ne_zero {b : BitVec Format.binary64.numBits}
    (h : unpackExponent b ≠ 0#11) :
    unpackExponent (UnpackedFloat.pack Format.binary64 (UnpackedFloat.unpack Format.binary64 b)) ≠
      0#11 := by
  obtain ⟨t, hb⟩ | hb | ⟨t, hpos, hb⟩ := unpack_cases h
  · rw [hb]
    unfold UnpackedFloat.pack UnpackedFloat.packedInfinity
    rw [unpackExponent_packComponents]
    decide
  · rw [hb]
    unfold UnpackedFloat.pack UnpackedFloat.packedNaN
    rw [unpackExponent_packComponents]
    decide
  · have hbiased : (((unpackExponent b).toNat : Int) -
        ((Format.binary64.exponentBias : Int) + Format.binary64.mantissaBitsWithoutImplicit) +
          Format.binary64.exponentBias + Format.binary64.mantissaBitsWithoutImplicit).toNat =
        (unpackExponent b).toNat := by omega
    -- with the leading bit the mantissa has all its bits
    have hmantissa : (1#1 ++ unpackMantissa b).toNat.log2 + 1 = Format.binary64.mantissaBits := by
      have hlt : (unpackMantissa b).toNat < leastNormal := (unpackMantissa b).isLt
      have hlog : (leastNormal + (unpackMantissa b).toNat).log2 = 52 := by
        have hleast : leastNormal = 4503599627370496 := rfl
        rw [Nat.log2_eq_iff (by omega)]
        omega
      rw [toNat_mantissa, hlog]
      rfl
    rw [hb]
    unfold UnpackedFloat.pack
    dsimp only
    rw [if_pos hmantissa, hbiased]
    split
    · unfold UnpackedFloat.packedInfinity
      rw [unpackExponent_packComponents]
      decide
    · rw [unpackExponent_packComponents, BitVec.ofNat_toNat]
      simpa using h

/-- What bits with an exponent stand for is not equal to zero. -/
lemma compare_zero_ne {b : BitVec Format.binary64.numBits} (h : unpackExponent b ≠ 0#11)
    (s : UnpackedFloat.Sign) :
    UnpackedFloat.compare (UnpackedFloat.unpack Format.binary64 b) (.zero s) ≠ some .eq := by
  have hgreater : some Ordering.gt ≠ some .eq := by decide
  have hless : some Ordering.lt ≠ some .eq := by decide
  have hnone : Option.none ≠ some Ordering.eq := by decide
  obtain ⟨t, hb⟩ | hb | ⟨t, hpos, hb⟩ := unpack_cases h
  · rw [hb]
    cases t with
    | positive => exact hgreater
    | negative => exact hless
  · rw [hb]
    exact hnone
  · rw [hb]
    cases t with
    | positive => exact hgreater
    | negative => exact hless

/-- **Bits with an exponent** stand for something other than zero. -/
lemma ofBits_bne_zero {b : UInt64}
    (h : @unpackExponent Format.binary64 b.toBitVec ≠ 0#11) :
    (Float.ofBits b != 0) = true := by
  have hzero : (0 : Float).toModel.unpack = .zero .positive := by rfl
  have hne := compare_zero_ne (unpackExponent_pack_ne_zero h) .positive
  change (!(Float.Model.pack (UnpackedFloat.unpack Format.binary64 b.toBitVec)).beq
    (0 : Float).toModel) = true
  unfold Float.Model.beq UnpackedFloat.beq
  rw [hzero, Bool.not_eq_true', beq_eq_false_iff_ne]
  exact hne

/-- The exponent is in the bits from the place of the least normal number up to the sign. -/
lemma unpackExponent_ne_zero {n : Nat} (h : n / leastNormal % 2048 ≠ 0) :
    @unpackExponent Format.binary64 n.toUInt64.toBitVec ≠ 0#11 := by
  intro hzero
  have hnat := congrArg BitVec.toNat hzero
  have hfield : (@unpackExponent Format.binary64 n.toUInt64.toBitVec).toNat =
      (n % 18446744073709551616) / leastNormal % 2048 := by
    simp only [unpackExponent, BitVec.toNat_cast, BitVec.extractLsb_toNat,
      Nat.shiftRight_eq_div_pow]
    rfl
  rw [hfield] at hnat
  have hleast : leastNormal = 4503599627370496 := rfl
  rw [hleast] at h hnat
  change _ = 0 at hnat
  omega

end Bits

/-! ## Digits -/

/-- A decimal digit stands between `0` and `9`. -/
lemma le_of_decimalValue? {c : Char} {d : Nat} (h : decimalValue? c = some d) :
    '0' ≤ c ∧ c ≤ '9' := by
  unfold decimalValue? at h
  split at h
  next hdigit => exact hdigit
  next => cases h

/-- A digit is no letter, so there is nothing to make lower. -/
lemma lowerChar_of_decimalValue? {c : Char} {d : Nat} (h : decimalValue? c = some d) :
    lowerChar c = c := by
  obtain ⟨-, hhigh⟩ := le_of_decimalValue? h
  refine if_neg fun hletter => ?_
  exact absurd (Char.le_trans hletter.1 hhigh) (by decide)

/-- A decimal digit is no mark of an exponent. -/
lemma isExponentMark_of_decimalValue? {c : Char} {d : Nat} (h : decimalValue? c = some d) :
    isExponentMark c = false := by
  unfold isExponentMark
  rw [Bool.or_eq_false_iff, beq_eq_false_iff_ne, beq_eq_false_iff_ne]
  constructor
  · rintro rfl
    exact absurd (le_of_decimalValue? h) (by decide)
  · rintro rfl
    exact absurd (le_of_decimalValue? h) (by decide)

/-- Digits stand for a number only if all of them are digits. -/
lemma exists_decimalValue?_of_digitsValueFrom {value m : Nat} {cs : List Char}
    (h : digitsValueFrom 10 decimalValue? value cs = some m) :
    ∀ c ∈ cs, ∃ d, decimalValue? c = some d := by
  induction cs generalizing value with
  | nil => exact nofun
  | cons c cs ih =>
    rw [digitsValueFrom] at h
    cases hc : decimalValue? c with
    | none =>
      rw [hc] at h
      cases h
    | some d =>
      rw [hc] at h
      intro e he
      obtain rfl | he := List.mem_cons.1 he
      · exact ⟨d, hc⟩
      · exact ih h e he

/-- What has a decimal value consists of digits, and is not empty. -/
lemma exists_decimalValue?_of_digitsValue {m : Nat} {cs : List Char}
    (h : digitsValue 10 decimalValue? cs = some m) :
    cs ≠ [] ∧ ∀ c ∈ cs, ∃ d, decimalValue? c = some d := by
  rw [digitsValue_eq] at h
  split at h
  next => cases h
  next hne => exact ⟨fun hnil => hne (hnil ▸ rfl), exists_decimalValue?_of_digitsValueFrom h⟩

/-- A character that is no digit spoils the number. -/
lemma digitsValue_eq_none {c : Char} {cs : List Char} (hc : c ∈ cs)
    (h : decimalValue? c = none) : digitsValue 10 decimalValue? cs = none := by
  cases hvalue : digitsValue 10 decimalValue? cs with
  | none => rfl
  | some m =>
    obtain ⟨d, hd⟩ := (exists_decimalValue?_of_digitsValue hvalue).2 c hc
    rw [hd] at h
    cases h

/-! ## Decimals -/

/-- Digits alone are a decimal. -/
lemma decimal?_of_digitsValue {m : Nat} {cs : List Char}
    (h : digitsValue 10 decimalValue? cs = some m) : decimal? cs = some ⟨m, 0⟩ := by
  have hdigits := (exists_decimalValue?_of_digitsValue h).2
  have hmark : ∀ c ∈ cs, (!isExponentMark c) = true := by
    intro c hc
    obtain ⟨d, hd⟩ := hdigits c hc
    rw [isExponentMark_of_decimalValue? hd]
    rfl
  have hpoint : ∀ c ∈ cs, (c != '.') = true := by
    intro c hc
    obtain ⟨d, hd⟩ := hdigits c hc
    rw [bne_iff_ne]
    rintro rfl
    exact absurd (le_of_decimalValue? hd) (by decide)
  have hall {p : Char → Bool} (hp : ∀ c ∈ cs, p c = true) :
      cs.takeWhile p = cs ∧ cs.dropWhile p = [] :=
    ⟨List.takeWhile_eq_self_iff.2 hp, List.dropWhile_eq_nil_iff.2 hp⟩
  unfold decimal?
  simp only [(hall hmark).1, (hall hmark).2, (hall hpoint).1, (hall hpoint).2, List.drop_nil,
    List.append_nil, h]
  rfl

/-- A decimal goes on with digits, a point or the mark of an exponent. -/
lemma decimal?_eq_none {ds cs : List Char} {c : Char}
    (hds : ∀ d ∈ ds, isExponentMark d = false ∧ d ≠ '.') (hc : decimalValue? c = none)
    (hmark : isExponentMark c = false) (hpoint : c ≠ '.') : decimal? (ds ++ c :: cs) = none := by
  have hmem {p : Char → Bool} {rest : List Char} (hp : ∀ d ∈ ds, p d = true) (hpc : p c = true) :
      (ds ++ c :: rest).takeWhile p = ds ++ c :: rest.takeWhile p := by
    rw [List.takeWhile_append_of_pos hp, List.takeWhile_cons_of_pos hpc]
  unfold decimal?
  dsimp only
  rw [hmem (fun d hd => by rw [(hds d hd).1]; rfl) (by rw [hmark]; rfl),
    hmem (fun d hd => bne_iff_ne.2 (hds d hd).2) (bne_iff_ne.2 hpoint),
    digitsValue_eq_none (c := c) (by simp) hc]

/-- What does not start like the name of infinity, or of what is no number, is read as a decimal. -/
lemma magnitudeBits?_eq_decimal? {cs : List Char} (h : ∀ c, cs.head? = some c →
    lowerChar c ≠ 'i' ∧ lowerChar c ≠ 'n') :
    magnitudeBits? cs = (decimal? cs).map Decimal.nearestBits := by
  have hword : ∀ word : String, (∀ c, word.toList.head? = some c → c = 'i' ∨ c = 'n') →
      word.toList ≠ [] → String.ofList (lower cs) ≠ word := by
    rintro word hstart hne rfl
    rw [String.toList_ofList] at hstart hne
    cases cs with
    | nil => exact hne rfl
    | cons c cs =>
      obtain ⟨hi, hn⟩ := h c rfl
      obtain hstart | hstart := hstart (lowerChar c) rfl
      · exact hi hstart
      · exact hn hstart
  unfold magnitudeBits?
  dsimp only
  rw [if_neg, if_neg]
  · exact hword "nan" (fun c hc => .inr (by simpa using hc.symm)) (by decide)
  · rintro (hinf | hinf)
    · exact hword "inf" (fun c hc => .inl (by simpa using hc.symm)) (by decide) hinf
    · exact hword "infinity" (fun c hc => .inl (by simpa using hc.symm)) (by decide) hinf

/-- What starts with a letter other than the mark of an exponent is no decimal. -/
lemma decimal?_eq_none_of_lower {c : Char} {cs : List Char}
    (hvalue : decimalValue? (lowerChar c) = none) (hmark : lowerChar c ≠ 'e')
    (hpoint : lowerChar c ≠ '.') : decimal? (c :: cs) = none := by
  rw [← List.nil_append (c :: cs)]
  refine decimal?_eq_none nofun ?_ ?_ ?_
  · cases hc : decimalValue? c with
    | none => rfl
    | some d =>
      rw [lowerChar_of_decimalValue? hc, hc] at hvalue
      cases hvalue
  · unfold isExponentMark
    rw [Bool.or_eq_false_iff, beq_eq_false_iff_ne, beq_eq_false_iff_ne]
    constructor
    · rintro rfl
      exact hmark (by decide)
    · rintro rfl
      exact hmark (by decide)
  · rintro rfl
    exact hpoint (by decide)

/-! ## The bits of an integer -/

/-- A positive integer is at least one, so its bits are those of a normal number. -/
lemma leastNormal_le_nearestBits {m : Nat} (hm : m ≠ 0) :
    leastNormal ≤ nearestBits m 1 ∧ nearestBits m 1 ≤ infinityBits := by
  have hexponent : -53 ≤ exponentFor m 1 := by
    unfold exponentFor
    dsimp only
    have hone : Nat.log2 1 = 0 := by decide
    rw [hone]
    split
    · omega
    · omega
  have hleast : leastNormal = 4503599627370496 := rfl
  have hinfinity : infinityBits = 2047 * leastNormal := rfl
  unfold nearestBits
  rw [if_neg hm]
  dsimp only
  have hplace : 1 ≤ (exponentFor m 1 + 1074).toNat := by omega
  have hscaled := Nat.mul_le_mul_right leastNormal hplace
  omega

/-- An integer that fits a numeral is not far outside the range of doubles. -/
lemma nearestBits_integer {m : Nat} (hm : m ≠ 0) (hle : m ≤ largest) :
    Decimal.nearestBits ⟨m, 0⟩ = nearestBits m 1 := by
  have hlog : Nat.log2 m < 63 := by
    have hlargest : largest = 9223372036854775807 := rfl
    rw [Nat.log2_lt hm]
    omega
  unfold Decimal.nearestBits
  dsimp only
  rw [if_neg hm, if_neg, if_neg]
  · change nearestBits (m * 1) 1 = _
    rw [Nat.mul_one]
  · omega
  · unfold reachedPower
    omega

/-- The bits of a number that is written without a sign. -/
lemma magnitudeBits?_of_unsigned? {cs : List Char} {m b : Nat} (hm : unsigned? cs = some m)
    (hb : magnitudeBits? cs = some b) :
    m = 0 ∧ b = 0 ∨ m ≠ 0 ∧ leastNormal ≤ b ∧ b ≤ infinityBits := by
  obtain ⟨hmagnitude, hle⟩ := Option.filter_eq_some_iff.1 hm
  have hle : m ≤ largest := of_decide_eq_true hle
  -- a number with another base is no decimal
  have hhex : ∀ (x : Char) (rest : List Char), (x = 'x' ∨ x = 'X') →
      magnitudeBits? ('0' :: x :: rest) ≠ some b := by
    intro x rest hx hsome
    have hnone : decimal? (['0'] ++ x :: rest) = none := by
      apply decimal?_eq_none
      · simp [isExponentMark]
      · obtain rfl | rfl := hx
        · decide
        · decide
      · obtain rfl | rfl := hx
        · decide
        · decide
      · obtain rfl | rfl := hx
        · decide
        · decide
    rw [magnitudeBits?_eq_decimal? (by simp [lowerChar])] at hsome
    rw [List.singleton_append] at hnone
    rw [hnone] at hsome
    cases hsome
  unfold magnitude? at hmagnitude
  split at hmagnitude
  next rest => exact absurd hb (hhex 'x' rest (.inl rfl))
  next rest => exact absurd hb (hhex 'X' rest (.inr rfl))
  next =>
    obtain ⟨hne, hdigits⟩ := exists_decimalValue?_of_digitsValue hmagnitude
    have hstart : ∀ c, cs.head? = some c → lowerChar c ≠ 'i' ∧ lowerChar c ≠ 'n' := by
      intro c hc
      obtain ⟨d, hd⟩ := hdigits c (List.mem_of_mem_head? hc)
      rw [lowerChar_of_decimalValue? hd]
      obtain ⟨-, hhigh⟩ := le_of_decimalValue? hd
      constructor
      · rintro rfl
        exact absurd hhigh (by decide)
      · rintro rfl
        exact absurd hhigh (by decide)
    rw [magnitudeBits?_eq_decimal? hstart, decimal?_of_digitsValue hmagnitude] at hb
    cases hb
    by_cases hzero : m = 0
    · subst hzero
      exact .inl ⟨rfl, rfl⟩
    · rw [nearestBits_integer hzero hle]
      exact .inr ⟨hzero, leastNormal_le_nearestBits hzero⟩

/-- The sign of a number does not make it zero or other than zero. -/
lemma ofBits_bne_zero_of_magnitude {m b bits : Nat}
    (h : m = 0 ∧ b = 0 ∨ m ≠ 0 ∧ leastNormal ≤ b ∧ b ≤ infinityBits)
    (hbits : bits = b ∨ bits = b + signBit) : (Float.ofBits bits.toUInt64 != 0) = (m != 0) := by
  obtain ⟨rfl, rfl⟩ | ⟨hm, hlow, hhigh⟩ := h
  · obtain rfl | rfl := hbits
    · decide
    · decide
  · have hexponent : bits / leastNormal % 2048 ≠ 0 := by
      have hleast : leastNormal = 4503599627370496 := rfl
      have hinfinity : infinityBits = 2047 * leastNormal := rfl
      have hsign : signBit = 9223372036854775808 := rfl
      rw [hleast] at hlow hinfinity ⊢
      omega
    rw [ofBits_bne_zero (unpackExponent_ne_zero hexponent)]
    exact (bne_iff_ne.2 hm).symm

/-- What a text stands for as an integer and as a floating-point number, but for the sign. -/
lemma exists_unsigned?_of_signed? {cs : List Char} {n : Int} (h : signed? cs = some n) :
    ∃ rest m, unsigned? rest = some m ∧ (n = m ∨ n = -(m : Int)) ∧
      (floatBits? cs = (magnitudeBits? rest).map (· + signBit) ∨
        floatBits? cs = magnitudeBits? rest) := by
  unfold signed? at h
  split at h
  all_goals
    simp only [bind_pure_comp, Option.map_eq_map, Option.map_map, Option.map_eq_some_iff] at h
    obtain ⟨m, hm, rfl⟩ := h
  next rest => exact ⟨rest, m, hm, .inr rfl, .inl rfl⟩
  next rest => exact ⟨rest, m, hm, .inl rfl, .inr rfl⟩
  next hminus hplus =>
    refine ⟨cs, m, hm, .inl rfl, .inr ?_⟩
    unfold floatBits?
    split
    next rest => exact absurd rfl (hminus rest)
    next rest => exact absurd rfl (hplus rest)
    next => rfl

/-- **A numeral of both kinds** is zero as an integer exactly if it is zero as a floating-point
number.

**Proof sketch.** Without the sign the text is digits only. They stand for a whole number, and the
nearest double has the bits zero, or an exponent. -/
lemma readFloat?_bne_zero {t : String} {n : Int} {x : Float} (hn : readInteger? t = some n)
    (hx : readFloat? t = some x) : (x != 0) = (n != 0) := by
  obtain ⟨bits, hbits, rfl⟩ := Option.map_eq_some_iff.1 hx
  obtain ⟨rest, m, hm, hsign, hfloat⟩ := exists_unsigned?_of_signed? hn
  have hzero : (n != 0) = (m != 0) := by
    rw [Bool.eq_iff_iff, bne_iff_ne, bne_iff_ne]
    omega
  rw [hzero]
  obtain hfloat | hfloat := hfloat
  · rw [hfloat] at hbits
    obtain ⟨b, hb, rfl⟩ := Option.map_eq_some_iff.1 hbits
    exact ofBits_bne_zero_of_magnitude (magnitudeBits?_of_unsigned? hm hb) (.inr rfl)
  · rw [hfloat] at hbits
    exact ofBits_bne_zero_of_magnitude (magnitudeBits?_of_unsigned? hm hbits) (.inl rfl)

/-! ## Words -/

/-- The words for truth values, by their characters. -/
lemma eq_cons_of_lookup {w : String} {b : Bool} (h : Store.boolWords.lookup w = some b) :
    (∃ c rest, w.toList = c :: rest ∧ decimalValue? c = none ∧ c ≠ 'e' ∧ c ≠ '.' ∧ c ≠ '-' ∧
      c ≠ '+') ∧ w ≠ "inf" ∧ w ≠ "infinity" ∧ w ≠ "nan" := by
  obtain ⟨before, after, heq, -⟩ := List.lookup_eq_some_iff.1 h
  have hmem : (w, b) ∈ Store.boolWords := by
    rw [heq]
    exact List.mem_append_right _ List.mem_cons_self
  simp only [Store.boolWords, List.mem_cons, Prod.mk.injEq, List.not_mem_nil, or_false] at hmem
  obtain ⟨rfl, -⟩ | ⟨rfl, -⟩ | ⟨rfl, -⟩ | ⟨rfl, -⟩ | ⟨rfl, -⟩ | ⟨rfl, -⟩ := hmem
  all_goals exact ⟨⟨_, _, rfl, by decide⟩, by decide⟩

/-- A text in lower case that is a word is neither a decimal nor a name of what is no number, and
it has no sign. -/
lemma floatBits?_eq_none_of_word {cs : List Char} {b : Bool}
    (h : Store.boolWords.lookup (String.ofList (lower cs)) = some b) : floatBits? cs = none := by
  obtain ⟨⟨c, rest, hchars, hvalue, hmark, hpoint, hminus, hplus⟩, hinf, hinfinity, hnan⟩ :=
    eq_cons_of_lookup h
  rw [String.toList_ofList] at hchars
  obtain ⟨d, tail, rfl, rfl, -⟩ := List.map_eq_cons_iff.1 hchars
  have hmagnitude : magnitudeBits? (d :: tail) = none := by
    unfold magnitudeBits?
    dsimp only
    rw [if_neg (not_or.2 ⟨hinf, hinfinity⟩), if_neg hnan,
      decimal?_eq_none_of_lower hvalue hmark hpoint]
    rfl
  unfold floatBits?
  split
  next heq =>
    obtain ⟨rfl, -⟩ := List.cons.inj heq
    exact absurd (by decide) hminus
  next heq =>
    obtain ⟨rfl, -⟩ := List.cons.inj heq
    exact absurd (by decide) hplus
  next => exact hmagnitude

/-- **Words for truth values are no numbers.** -/
lemma readFloat?_eq_none_of_word {t : String} {b : Bool}
    (h : Store.boolWords.lookup (String.ofList (lower (trimmed t.toList))) = some b) :
    readFloat? t = none := by
  unfold readFloat?
  rw [floatBits?_eq_none_of_word h]
  rfl

end CommandScript.Number
