import CommandScript.Proofs.Number.Numeral
import CommandScript.Proofs.Value.Additions
import Mathlib.Data.List.TakeWhile
import Mathlib.Data.Nat.Digits.Lemmas
import Mathlib.Tactic.IntervalCases

/-!
# How integers are written

The texts that stand for integers are told here by a grammar that does not speak of reading: an
optional sign, then either `0x` or `0X` and hexadecimal digits, or decimal digits, with blanks
around all of it. What the digits stand for is the number with these digits in the base. A text is
read as an integer exactly if the grammar has it, and the magnitude fits in 63 bits.

## Main definitions

* `Number.IsDigit`, `Number.Digits` — digits in a base.
* `Number.Magnitude`, `Number.Numeral` — numbers without a sign, and integers.
* `Number.Stands` — the texts that stand for an integer, blanks around it allowed.

## Main results

* `Number.signed?_eq_some_iff` — what is read without the blanks.
* `Number.readInteger?_eq_some_iff` — what is read.
* `Number.integer_texts` — integers are read as the grammar says, into 32 bits and into 64, and
  reading undoes writing.
-/

set_option autoImplicit false

namespace CommandScript

open CommandScript.Text

namespace Number

/-! ## The grammar -/

/-- The character is a digit of the base, at most sixteen, that stands for `d`. Letters may be small
or capital. -/
def IsDigit (base : Nat) (c : Char) (d : Nat) : Prop :=
  d < base ∧ (c = d.digitChar ∨ c = d.digitChar.toUpper)

/-- One or more digits of the base, the first one being the highest. -/
def Digits (base : Nat) (cs : List Char) (n : Nat) : Prop :=
  cs ≠ [] ∧ ∃ ds, List.Forall₂ (IsDigit base) cs ds ∧ n = Nat.ofDigits base ds.reverse

/-- A number without a sign: decimal digits, or hexadecimal ones after `0x` or `0X`. -/
inductive Magnitude : List Char → Nat → Prop
  /-- Decimal digits. -/
  | decimal {cs : List Char} {n : Nat} (h : Digits 10 cs n) : Magnitude cs n
  /-- Hexadecimal digits. -/
  | hexadecimal {cs : List Char} {n : Nat} {x : Char} (hx : x = 'x' ∨ x = 'X')
    (h : Digits 16 cs n) : Magnitude ('0' :: x :: cs) n

/-- An integer: a number, perhaps with a sign. -/
inductive Numeral : List Char → Int → Prop
  /-- There is no sign. -/
  | unsigned {cs : List Char} {n : Nat} (h : Magnitude cs n) : Numeral cs n
  /-- The sign is a plus. -/
  | plus {cs : List Char} {n : Nat} (h : Magnitude cs n) : Numeral ('+' :: cs) n
  /-- The sign is a minus. -/
  | minus {cs : List Char} {n : Nat} (h : Magnitude cs n) : Numeral ('-' :: cs) (-n)

/-- **The text stands for the integer**: without the blanks around it, it is how the integer is
written, and the magnitude is less than `2 ^ 63`. -/
def Stands (text : String) (v : Int) : Prop :=
  v.natAbs < 2 ^ 63 ∧ ∃ before cs after, text.toList = before ++ cs ++ after ∧
    (∀ c ∈ before, isBlank c = true) ∧ (∀ c ∈ after, isBlank c = true) ∧ Numeral cs v

/-! ## Digits -/

/-- What holds of the characters with small codes can be found out by trying them all. -/
lemma char_of_small {P : Char → Prop} (low high : Nat)
    (h : ∀ n, low ≤ n → n ≤ high → P (Char.ofNat n)) {c : Char} (hlow : low ≤ c.toNat)
    (hhigh : c.toNat ≤ high) : P c := by
  have hc := h c.toNat hlow hhigh
  rwa [Char.ofNat_toNat] at hc

/-- A digit of a base up to ten has the value that it has in the grammar. -/
lemma isDigit_ten_of_range {c : Char} (hlow : 48 ≤ c.toNat) (hhigh : c.toNat ≤ 57) :
    IsDigit 10 c (c.toNat - '0'.toNat) := by
  refine char_of_small 48 57 (P := fun c => IsDigit 10 c (c.toNat - '0'.toNat))
    (fun n hn hn' => ?_) hlow hhigh
  unfold IsDigit
  interval_cases n <;> decide

/-- A decimal digit is a hexadecimal one. -/
lemma IsDigit.hexadecimal {c : Char} {d : Nat} (h : IsDigit 10 c d) : IsDigit 16 c d :=
  ⟨Nat.lt_trans h.1 (by decide), h.2⟩

/-- The reader of decimal digits knows the digits of the grammar. -/
lemma decimalValue?_eq_some_iff {c : Char} {d : Nat} :
    decimalValue? c = some d ↔ IsDigit 10 c d := by
  unfold decimalValue?
  simp only [Char.le_def, UInt32.le_iff_toNat_le, Option.ite_none_right_eq_some, Option.some.injEq]
  constructor
  · rintro ⟨⟨hlow, hhigh⟩, rfl⟩
    exact isDigit_ten_of_range hlow hhigh
  · rintro ⟨hd, rfl | rfl⟩
    · interval_cases d <;> decide
    · interval_cases d <;> decide

/-- So does the reader of hexadecimal digits. -/
lemma hexValue?_eq_some_iff {c : Char} {d : Nat} : hexValue? c = some d ↔ IsDigit 16 c d := by
  constructor
  · intro h
    unfold hexValue? at h
    simp only [Char.le_def, UInt32.le_iff_toNat_le] at h
    split at h
    next hrange =>
      obtain rfl := Option.some.inj h
      exact (isDigit_ten_of_range hrange.1 hrange.2).hexadecimal
    next =>
      split at h
      next hrange =>
        obtain rfl := Option.some.inj h
        refine char_of_small 97 102
          (P := fun c => IsDigit 16 c (c.toNat - 'a'.toNat + 10)) (fun n hn hn' => ?_)
          hrange.1 hrange.2
        unfold IsDigit
        interval_cases n <;> decide
      next =>
        split at h
        next hrange =>
          obtain rfl := Option.some.inj h
          refine char_of_small 65 70
            (P := fun c => IsDigit 16 c (c.toNat - 'A'.toNat + 10)) (fun n hn hn' => ?_)
            hrange.1 hrange.2
          unfold IsDigit
          interval_cases n <;> decide
        next => cases h
  · rintro ⟨hd, rfl | rfl⟩
    · interval_cases d <;> decide
    · interval_cases d <;> decide

/-- A digit more in front of others. -/
lemma add_ofDigits_reverse_cons {base value d k : Nat} {ds : List Nat} (hk : ds.length = k) :
    value * base ^ (k + 1) + Nat.ofDigits base (d :: ds).reverse =
      (value * base + d) * base ^ k + Nat.ofDigits base ds.reverse := by
  rw [Nat.ofDigits_reverse_cons, hk]
  ring

/-- Digits that are read one by one stand for the number with these digits, added to what was read
before. -/
lemma digitsValueFrom_eq_some_iff {base : Nat} {digit? : Char → Option Nat}
    (hdigit : ∀ {c d}, digit? c = some d ↔ IsDigit base c d) {value n : Nat} {cs : List Char} :
    digitsValueFrom base digit? value cs = some n ↔
      ∃ ds, List.Forall₂ (IsDigit base) cs ds ∧
        n = value * base ^ cs.length + Nat.ofDigits base ds.reverse := by
  induction cs generalizing value with
  | nil =>
    simp only [digitsValueFrom, Option.some.injEq, List.forall₂_nil_left_iff, exists_eq_left,
      List.length_nil, pow_zero, List.reverse_nil, Nat.ofDigits_nil]
    omega
  | cons c cs ih =>
    simp only [digitsValueFrom, List.forall₂_cons_left_iff]
    constructor
    · intro h
      split at h
      next d hd =>
        obtain ⟨ds, hds, rfl⟩ := ih.1 h
        exact ⟨d :: ds, ⟨d, ds, hdigit.1 hd, hds, rfl⟩,
          (add_ofDigits_reverse_cons hds.length_eq.symm).symm⟩
      next => cases h
    · rintro ⟨_, ⟨d, ds, hd, hds, rfl⟩, rfl⟩
      rw [hdigit.2 hd]
      exact ih.2 ⟨ds, hds, add_ofDigits_reverse_cons hds.length_eq.symm⟩

/-- Digits are read as the number that they stand for in the grammar, in either base. -/
lemma digitsValue_eq_some_iff {base : Nat} {digit? : Char → Option Nat}
    (hdigit : ∀ {c d}, digit? c = some d ↔ IsDigit base c d) {n : Nat} {cs : List Char} :
    digitsValue base digit? cs = some n ↔ Digits base cs n := by
  rw [digitsValue_eq]
  simp only [List.isEmpty_iff, Option.ite_none_left_eq_some, digitsValueFrom_eq_some_iff hdigit,
    Nat.zero_mul, Nat.zero_add]
  rfl

/-! ## Numbers and integers -/

/-- A decimal digit of the grammar is one of the ten digits. -/
lemma IsDigit.isDigit {c : Char} {d : Nat} (h : IsDigit 10 c d) : c.isDigit = true := by
  obtain ⟨hd, rfl | rfl⟩ := h
  · interval_cases d <;> decide
  · interval_cases d <;> decide

/-- A digit is neither a blank nor a sign. -/
lemma IsDigit.range {c : Char} {d : Nat} (h : IsDigit 16 c d) :
    48 ≤ c.toNat ∧ c.toNat ≤ 102 := by
  obtain ⟨hd, rfl | rfl⟩ := h
  · interval_cases d <;> decide
  · interval_cases d <;> decide

/-- What holds of every digit holds of every character of digits. -/
lemma Digits.forall_mem {base : Nat} {P : Char → Prop} {cs : List Char} {n : Nat}
    (h : Digits base cs n) (hP : ∀ {c d}, IsDigit base c d → P c) : ∀ c ∈ cs, P c := by
  obtain ⟨-, ds, hds, -⟩ := h
  intro c hc
  obtain ⟨i, hi, rfl⟩ := List.mem_iff_getElem.1 hc
  exact hP (hds.get hi (hds.length_eq ▸ hi))

/-- Magnitudes are read as the grammar has them. -/
lemma magnitude?_eq_some_iff {cs : List Char} {n : Nat} :
    magnitude? cs = some n ↔ Magnitude cs n := by
  constructor
  · intro h
    unfold magnitude? at h
    split at h
    · exact .hexadecimal (.inl rfl) ((digitsValue_eq_some_iff hexValue?_eq_some_iff).1 h)
    · exact .hexadecimal (.inr rfl) ((digitsValue_eq_some_iff hexValue?_eq_some_iff).1 h)
    · exact .decimal ((digitsValue_eq_some_iff decimalValue?_eq_some_iff).1 h)
  · intro h
    cases h with
    | decimal h =>
      rw [magnitude?_of_isDigit (h.forall_mem IsDigit.isDigit)]
      exact (digitsValue_eq_some_iff decimalValue?_eq_some_iff).2 h
    | hexadecimal hx h =>
      have hdigits := (digitsValue_eq_some_iff hexValue?_eq_some_iff).2 h
      obtain rfl | rfl := hx
      · exact hdigits
      · exact hdigits

/-- The characters of a magnitude lie between `0` and `x`. -/
lemma Magnitude.range {cs : List Char} {n : Nat} (h : Magnitude cs n) :
    ∀ c ∈ cs, 48 ≤ c.toNat ∧ c.toNat ≤ 120 := by
  cases h with
  | decimal h =>
    exact h.forall_mem fun hd => ⟨hd.hexadecimal.range.1, by have := hd.hexadecimal.range.2; omega⟩
  | @hexadecimal cs n x hx h =>
    have hdigits : ∀ c ∈ cs, 48 ≤ c.toNat ∧ c.toNat ≤ 120 :=
      h.forall_mem fun hd => ⟨hd.range.1, by have := hd.range.2; omega⟩
    intro c hc
    obtain rfl | rfl | hc := by simpa only [List.mem_cons] using hc
    · decide
    · obtain rfl | rfl := hx <;> decide
    · exact hdigits c hc

/-- A magnitude is read if it is not too large. -/
lemma unsigned?_eq_some_iff {cs : List Char} {n : Nat} :
    unsigned? cs = some n ↔ Magnitude cs n ∧ n < 2 ^ 63 := by
  have hlargest : largest = 9223372036854775807 := rfl
  simp only [unsigned?, Option.filter_eq_some_iff, magnitude?_eq_some_iff, decide_eq_true_eq]
  refine and_congr_right fun _ => ?_
  omega

/-- The characters of a numeral lie between `+` and `x`. -/
lemma Numeral.range {cs : List Char} {v : Int} (h : Numeral cs v) :
    ∀ c ∈ cs, 43 ≤ c.toNat ∧ c.toNat ≤ 120 := by
  have hwide : ∀ {cs : List Char} {n : Nat}, Magnitude cs n →
      ∀ c ∈ cs, 43 ≤ c.toNat ∧ c.toNat ≤ 120 := fun hm c hc => by
    have hrange := hm.range c hc
    omega
  cases h with
  | unsigned h => exact hwide h
  | plus h => exact List.forall_mem_cons.2 ⟨by decide, hwide h⟩
  | minus h => exact List.forall_mem_cons.2 ⟨by decide, hwide h⟩

/-- A numeral has no blanks. -/
lemma Numeral.not_isBlank {cs : List Char} {v : Int} (h : Numeral cs v) :
    ∀ c ∈ cs, isBlank c = false := by
  intro c hc
  obtain ⟨hlow, hhigh⟩ := h.range c hc
  simp only [isBlank, Bool.or_eq_false_iff, Bool.and_eq_false_iff, decide_eq_false_iff_not,
    beq_eq_false_iff_ne]
  omega

/-- **What is read without the blanks** is what the grammar says. -/
lemma signed?_eq_some_iff {cs : List Char} {v : Int} :
    signed? cs = some v ↔ Numeral cs v ∧ v.natAbs < 2 ^ 63 := by
  constructor
  · intro h
    unfold signed? at h
    split at h
    all_goals
      simp only [bind_pure_comp, Option.map_eq_map, Option.map_map, Option.map_eq_some_iff] at h
      obtain ⟨n, hn, rfl⟩ := h
      obtain ⟨hmagnitude, hlt⟩ := unsigned?_eq_some_iff.1 hn
    · exact ⟨.minus hmagnitude, by rwa [Function.comp_apply, Int.natAbs_neg, Int.natAbs_natCast]⟩
    · exact ⟨.plus hmagnitude, by rwa [Function.comp_apply, Int.natAbs_natCast]⟩
    · exact ⟨.unsigned hmagnitude, by rwa [Function.comp_apply, Int.natAbs_natCast]⟩
  · rintro ⟨h, hlt⟩
    cases h with
    | unsigned h =>
      rw [Int.natAbs_natCast] at hlt
      have hvalue := unsigned?_eq_some_iff.2 ⟨h, hlt⟩
      -- a sign is no digit
      unfold signed?
      split
      next => exact absurd (h.range '-' List.mem_cons_self) (by decide)
      next => exact absurd (h.range '+' List.mem_cons_self) (by decide)
      next =>
        rw [hvalue]
        rfl
    | plus h =>
      rw [Int.natAbs_natCast] at hlt
      rw [signed?, unsigned?_eq_some_iff.2 ⟨h, hlt⟩]
      rfl
    | minus h =>
      rw [Int.natAbs_neg, Int.natAbs_natCast] at hlt
      rw [signed?, unsigned?_eq_some_iff.2 ⟨h, hlt⟩]
      rfl

end Number

/-! ## Texts -/

namespace Text

/-- What is cut off at the two ends is blank. -/
lemma exists_eq_append_trimmed (cs : List Char) :
    ∃ before after, cs = before ++ trimmed cs ++ after ∧
      (∀ c ∈ before, isBlank c = true) ∧ ∀ c ∈ after, isBlank c = true := by
  have hblank : ∀ ds : List Char, ∀ c ∈ ds.takeWhile isBlank, isBlank c = true := fun ds =>
    List.all_eq_true.1 List.all_takeWhile
  refine ⟨cs.takeWhile isBlank, ((cs.dropWhile isBlank).reverse.takeWhile isBlank).reverse, ?_,
    hblank cs, fun c hc => hblank _ c (List.mem_reverse.1 hc)⟩
  rw [trimmed, List.append_assoc, ← List.reverse_append, List.takeWhile_append_dropWhile,
    List.reverse_reverse, List.takeWhile_append_dropWhile]

/-- Blanks around something without blanks are cut off. -/
lemma trimmed_append {before cs after : List Char} (hbefore : ∀ c ∈ before, isBlank c = true)
    (hcs : ∀ c ∈ cs, isBlank c = false) (hafter : ∀ c ∈ after, isBlank c = true) :
    trimmed (before ++ cs ++ after) = cs := by
  have hself : ∀ ds : List Char, (∀ c ∈ ds, isBlank c = false) → ds.dropWhile isBlank = ds := by
    intro ds hds
    rw [List.dropWhile_eq_self_iff]
    intro hlength
    simp [hds _ (List.getElem_mem hlength)]
  have hafter' : ∀ c ∈ after.reverse, isBlank c = true := fun c hc =>
    hafter c (List.mem_reverse.1 hc)
  cases cs with
  | nil =>
    have hall : ∀ c ∈ before ++ [] ++ after, isBlank c = true := by
      intro c hc
      rw [List.append_nil, List.mem_append] at hc
      exact hc.elim (hbefore c) (hafter c)
    rw [trimmed, List.dropWhile_eq_nil_iff.2 hall]
    rfl
  | cons c cs =>
    have hleft : (before ++ c :: cs ++ after).dropWhile isBlank = c :: cs ++ after := by
      rw [List.append_assoc, List.dropWhile_append_of_pos hbefore, List.cons_append,
        List.dropWhile_cons_of_neg (by simp [hcs c List.mem_cons_self])]
    rw [trimmed, hleft, List.reverse_append, List.dropWhile_append_of_pos hafter',
      hself _ fun d hd => hcs d (List.mem_reverse.1 hd), List.reverse_reverse]

end Text

namespace Number

/-- **A text is read as an integer** exactly if it stands for it. -/
lemma readInteger?_eq_some_iff {t : String} {v : Int} :
    readInteger? t = some v ↔ Stands t v := by
  unfold readInteger? Stands
  rw [signed?_eq_some_iff, and_comm]
  refine and_congr_right fun _ => ⟨fun h => ?_, ?_⟩
  · obtain ⟨before, after, heq, hbefore, hafter⟩ := exists_eq_append_trimmed t.toList
    exact ⟨before, _, after, heq, hbefore, hafter, h⟩
  · rintro ⟨before, cs, after, heq, hbefore, hafter, h⟩
    rwa [heq, trimmed_append hbefore h.not_isBlank hafter]

end Number

/-! ## Values -/

namespace Store

open Number

/-- What a conversion makes of a new value that has a text and no form yet. The value may belong to
a script. -/
def ofNew {α : Type} (convert : Ref → ConvM α) (t : String) (literal : Bool) (s : Store) :
    Except Failure α :=
  let (r, s) := alloc { text := some t, literal } s
  ConvM.outcome (convert r s)

/-- Reading the text of a value gives what the text is read as. -/
lemma outcome_readAs {α : Type} {read? : String → Option α} {rep : α → Rep}
    {failure : String → Failure} {s : Store} {r : Ref} {t : String}
    (h : (s.cell r).text = some t) :
    ConvM.outcome (readAs r read? rep failure s) = readOr read? failure t := by
  unfold readAs readOr
  rw [ConvM.liftBind_apply, text_apply, h]
  dsimp only
  cases read? t with
  | some a => rfl
  | none => rfl

/-- A value without a form is read as an integer from its text. -/
lemma asInt_of_none {s : Store} {r : Ref} (h : (s.cell r).rep = .none) :
    asInt r s = readAs r readInt? .int .notInteger s := by
  rw [asInt, ConvM.getBind_apply, h]

/-- So it is as an integer of 64 bits. -/
lemma asLong_of_none {s : Store} {r : Ref} (h : (s.cell r).rep = .none) :
    asLong r s = readAs r readLong? .long .notLong s := by
  rw [asLong, ConvM.getBind_apply, h]

/-- A new value is taken as an integer as its text is. -/
lemma ofNew_asInt (t : String) (literal : Bool) (s : Store) :
    ofNew asInt t literal s = intOf t := by
  have hcell := cell_alloc_self { text := some t, literal } s
  exact (congrArg ConvM.outcome (asInt_of_none (congrArg Cell.rep hcell))).trans
    (outcome_readAs (congrArg Cell.text hcell))

/-- So it is as an integer of 64 bits. -/
lemma ofNew_asLong (t : String) (literal : Bool) (s : Store) :
    ofNew asLong t literal s = longOf t := by
  have hcell := cell_alloc_self { text := some t, literal } s
  exact (congrArg ConvM.outcome (asLong_of_none (congrArg Cell.rep hcell))).trans
    (outcome_readAs (congrArg Cell.text hcell))

/-- A value is found if and only if its text can be read. -/
lemma readOr_eq_ok_iff {α : Type} {read? : String → Option α} {failure : String → Failure}
    {t : String} {a : α} : readOr read? failure t = .ok a ↔ read? t = some a := by
  unfold readOr
  cases read? t with
  | some b => simp
  | none => simp

/-- Whether a value is found depends on whether its text can be read. -/
lemma isOk_readOr {α : Type} (read? : String → Option α) (failure : String → Failure)
    (t : String) : (readOr read? failure t).isOk = (read? t).isSome := by
  unfold readOr
  cases read? t with
  | some b => rfl
  | none => rfl

/-- An integer of 32 bits is read if and only if its value is. -/
lemma readInt?_eq_some_iff {t : String} {n : Int32} :
    readInt? t = some n ↔ readInteger? t = some n.toInt := by
  constructor
  · intro h
    obtain ⟨v, hv, hn⟩ := Option.bind_eq_some_iff.1 h
    rw [hv, toInt32?_eq_some hn]
  · intro h
    rw [readInt?, h]
    exact toInt32?_toInt n

/-- So is an integer of 64 bits. -/
lemma readLong?_eq_some_iff {t : String} {n : Int64} :
    readLong? t = some n ↔ readInteger? t = some n.toInt := by
  refine ⟨readInteger?_of_readLong?, fun h => ?_⟩
  rw [readLong?, h, Option.map_some, Int64.ofInt_toInt]

end Store

namespace Number

/-- The integers of 32 bits are those between the two ends of the range. -/
lemma exists_toInt32_eq_iff {v : Int} :
    (∃ n : Int32, n.toInt = v) ↔ -2 ^ 31 ≤ v ∧ v < 2 ^ 31 := by
  constructor
  · rintro ⟨n, rfl⟩
    exact ⟨n.le_toInt, n.toInt_lt⟩
  · rintro ⟨hlow, hhigh⟩
    exact ⟨.ofInt v, Int32.toInt_ofInt_of_le (by omega) (by omega)⟩

/-- The least long integer is written as a text that no numeral is. -/
lemma readInteger?_writeInteger_int64 (n : Int64) :
    readInteger? (writeInteger n.toInt) = if n = Int64.minValue then none else some n.toInt := by
  split
  next hn =>
    subst hn
    decide +kernel
  next hn => exact Store.readInteger?_of_readLong? (Store.readLong?_writeInteger hn)

/-- **The texts of integers.** A text is read as an integer exactly if it stands for this integer:
if it is, without the blanks around it, an optional sign and either `0x` or `0X` and hexadecimal
digits or decimal digits, with a magnitude less than `2 ^ 63`. A new value with the text is taken as
an integer of 32 bits if this is the one that is read, and as one of 64 bits likewise; so the former
succeeds if what is read is in the range, and the latter whenever an integer is read. What is
written for an integer is read as this integer, but for the least one of 64 bits, whose text is not
read.

**Proof sketch.** Digits that are taken in one after another come to the number that has them in the
base, by induction on the digits. The characters of a numeral are no blanks, so that trimming a text
removes what is around the numeral and nothing else; and none of the digits is a sign, so that it is
known which of the three ways of writing an integer is at hand. -/
theorem integer_texts :
    (∀ t v, readInteger? t = some v ↔ Stands t v) ∧
    (∀ t literal s,
      (∀ n, Store.ofNew Store.asInt t literal s = .ok n ↔ Stands t n.toInt) ∧
      ((Store.ofNew Store.asInt t literal s).isOk ↔
        ∃ v, readInteger? t = some v ∧ -2 ^ 31 ≤ v ∧ v < 2 ^ 31)) ∧
    (∀ t literal s,
      (∀ n, Store.ofNew Store.asLong t literal s = .ok n ↔ Stands t n.toInt) ∧
      ((Store.ofNew Store.asLong t literal s).isOk ↔ (readInteger? t).isSome)) ∧
    (∀ n : Int32, readInteger? (writeInteger n.toInt) = some n.toInt) ∧
    ∀ n : Int64, readInteger? (writeInteger n.toInt) =
      if n = Int64.minValue then none else some n.toInt := by
  refine ⟨fun _ _ => readInteger?_eq_some_iff, fun t literal s => ⟨fun n => ?_, ?_⟩,
    fun t literal s => ⟨fun n => ?_, ?_⟩,
    fun n => Store.readInt?_eq_some_iff.1 (Store.readInt?_writeInteger n),
    readInteger?_writeInteger_int64⟩
  · rw [Store.ofNew_asInt, Store.intOf, Store.readOr_eq_ok_iff, Store.readInt?_eq_some_iff,
      readInteger?_eq_some_iff]
  · rw [Store.ofNew_asInt, Store.intOf, Store.isOk_readOr, Option.isSome_iff_exists]
    simp only [Store.readInt?_eq_some_iff, ← exists_toInt32_eq_iff]
    constructor
    · rintro ⟨n, hn⟩
      exact ⟨n.toInt, hn, n, rfl⟩
    · rintro ⟨_, hv, n, rfl⟩
      exact ⟨n, hv⟩
  · rw [Store.ofNew_asLong, Store.longOf, Store.readOr_eq_ok_iff, Store.readLong?_eq_some_iff,
      readInteger?_eq_some_iff]
  · rw [Store.ofNew_asLong, Store.longOf, Store.isOk_readOr, Store.readLong?, Option.isSome_map]

/-- With a plus, a capital `X` and zeros in front, and without digits. -/
example : readInteger? " +0X00fF\n" = some 255 ∧ readInteger? "+0x" = none := by
  decide +kernel

end Number

end CommandScript
