import CommandScript.Proofs.Number.FloatNumeral
import CommandScript.Proofs.Value.Forms

/-!
# Values that are held as numbers

A value that is held as a number is used as that number, whatever its text is. As a floating-point
number a value may be taken from the integer that it is held as, and as a truth value from the
floating-point number that it is held as. But the texts that are numerals of integers, those that
are numerals of floating-point numbers, and those that stand for truth values are not the same:
`0x10` is no floating-point numeral, and `1.5` stands for no truth value. So, for such texts, these
two conversions depend on how the value was used before.

This is the only way in which they do. If each integer numeral is a floating-point numeral, as all
decimal ones are, no history of the value makes a difference to whether it can be taken as a
floating-point number; and likewise for truth values.

## Main definitions

* `Rep.isInteger`, `Rep.isFloat` — the value is held as a number.
* `Store.FloatAsNew`, `Store.BoolAsNew` — a value is used as a new value with its text would be.

## Main results

* `Store.Converted.float` — a value made from a text is held as a floating-point number only if its
  text stands for that number.
* `Store.floatAsNew_iff`, `Store.boolAsNew_iff` — when a value is used as a new one.
* `Store.numbers_coherent_iff` — the texts for which this never depends on history.
-/

set_option autoImplicit false

namespace CommandScript

/-- Whether the form is an integer. -/
def Rep.isInteger : Rep → Bool
  | .int _ => true
  | .long _ => true
  | _ => false

/-- Whether the form is a floating-point number. -/
def Rep.isFloat : Rep → Bool
  | .float _ => true
  | _ => false

/-- The floating-point number that a value in this form is used as, if it is held as a number. -/
def Rep.float? : Rep → Option Float
  | .int n => some n.toFloat
  | .long n => some n.toFloat
  | .float x => some x
  | _ => Option.none

/-- The truth value that a value in this form is used as, if it is held as a number. -/
def Rep.truth? : Rep → Option Bool
  | .int n => some (n != 0)
  | .long n => some (n != 0)
  | .float x => some (x != 0)
  | _ => Option.none

/-- A form that is a floating-point number is one. -/
lemma Rep.exists_eq_float {rep : Rep} (h : rep.isFloat) : ∃ x, rep = .float x := by
  cases rep with
  | float x => exact ⟨x, rfl⟩
  | _ => cases h

/-- An integer stands for a floating-point number, too. -/
lemma Rep.exists_float?_eq_some {rep : Rep} (h : rep.isInteger) : ∃ x, rep.float? = some x := by
  cases rep with
  | int n => exact ⟨n.toFloat, rfl⟩
  | long n => exact ⟨n.toFloat, rfl⟩
  | _ => cases h

namespace Store

variable {τ : List String} {s : Store} {r : Ref} {t : String}

/-! ## How values come to be held as floating-point numbers -/

/-- Keeping a form changes that of no other value. -/
lemma rep_cache (r : Ref) (rep : Rep) (s : Store) (q : Ref) :
    ((cache r rep s).2.cell q).rep = (s.cell q).rep ∨
      q = r ∧ ((cache r rep s).2.cell q).rep = rep := by
  have htext : ((text r s).2.cell q).rep = (s.cell q).rep := (rewords_text r).keepsForms s q
  cases hobject : (text r s).2.objectOf? r with
  | some o => exact .inl (by rw [cache_of_object hobject, htext])
  | none =>
    rw [cache_apply hobject, rep_setRep]
    split
    next h => exact .inr ⟨h.1, rfl⟩
    next => exact .inl htext

/-- A value that is there and is no object takes on the form. -/
lemma rep_cache_self {rep : Rep} (hr : r.index < s.cells.size) (hobject : s.objectOf? r = none) :
    ((cache r rep s).2.cell r).rep = rep := by
  have htext := rewords_text r s
  have hobject' : (text r s).2.objectOf? r = none :=
    (objectOf?_congr (htext.rep_eq r)).trans hobject
  rw [cache_apply hobject', rep_setRep, if_pos ⟨rfl, htext.size.symm ▸ hr⟩]

/-- The values `q` that are held as floating-point numbers after a conversion of `r`, if this came
to `u`: those that were before, and `r` itself, if its text was read as such a number. -/
def FloatsFrom (c : Conversion) (r : Ref) (s u : Store) : Prop :=
  ∀ q x, (u.cell q).rep = .float x → (s.cell q).rep = .float x ∨
    c = .float ∧ q = r ∧ Number.readFloat? (text r s).1 = some x

/-- A conversion that keeps all forms keeps those that are floating-point numbers. -/
lemma floatsFrom_of_keepsForms {c : Conversion} {u : Store}
    (h : ∀ q, (u.cell q).rep = (s.cell q).rep) : FloatsFrom c r s u :=
  fun q _ hx => .inl ((h q).symm.trans hx)

/-- Keeping a form that is no floating-point number. -/
lemma floatsFrom_cache {c : Conversion} {rep : Rep} {u : Store}
    (h : ∀ q, (u.cell q).rep = (s.cell q).rep) (hrep : ∀ x, rep ≠ .float x) :
    FloatsFrom c r s (cache r rep u).2 := by
  intro q x hx
  obtain hkept | ⟨-, hnew⟩ := rep_cache r rep u q
  · exact .inl (((h q).symm.trans hkept.symm).trans hx)
  · exact absurd (hnew.symm.trans hx) (hrep x)

/-- A number is taken as it is, or it is read and kept. -/
lemma floatsFrom_readAs {α : Type} {c : Conversion} {m : ConvM α} {read? : String → Option α}
    {rep : α → Rep} {failure : String → Failure}
    (h : finalState (m s) = s ∧ (s.cell r).rep.container? = none ∨
      m s = readAs r read? rep failure s)
    (hrep : ∀ a x, read? (text r s).1 = some a → rep a = .float x →
      c = .float ∧ Number.readFloat? (text r s).1 = some x) :
    FloatsFrom c r s (finalState (m s)) := by
  have htext := (rewords_text r).keepsForms s
  obtain ⟨hsame, -⟩ | hread := h
  · rw [hsame]
    exact floatsFrom_of_keepsForms fun _ => rfl
  · rw [hread, finalState_readAs]
    cases ha : read? (text r s).1 with
    | none => exact floatsFrom_of_keepsForms htext
    | some a =>
      intro q x hx
      obtain hkept | ⟨hq, hnew⟩ := rep_cache r (rep a) (text r s).2 q
      · exact .inl (((htext q).symm.trans hkept.symm).trans hx)
      · obtain ⟨hc, hfloat⟩ := hrep a x ha (hnew.symm.trans hx)
        exact .inr ⟨hc, hq, hfloat⟩

/-- To fetch a form that is no floating-point number makes none. -/
lemma Fetched.floatsFrom {α : Type} {c : Conversion} {form : α → Rep}
    {result : EStateM.Result Failure Store α} (h : Fetched c form r s result)
    (hform : ∀ a x, form a ≠ .float x) : FloatsFrom c r s (finalState result) := by
  cases h with
  | held h => exact floatsFrom_of_keepsForms fun _ => rfl
  | failed e _ => exact floatsFrom_of_keepsForms ((rewords_text r).keepsForms s)
  | @read a texts _ _ => exact floatsFrom_cache (keepsForms_read texts r s) (hform a)

/-- Nor does taking a value as a script. -/
lemma FetchedScript.floatsFrom {result : Script.Outcome (Script Ref) × Store}
    (h : FetchedScript r s result) : FloatsFrom .script r s result.2 := by
  have htext := (rewords_text r).keepsForms s
  cases h with
  | held h => exact floatsFrom_of_keepsForms fun _ => rfl
  | failed h => exact floatsFrom_of_keepsForms htext
  | read script h =>
    have hload := Script.keepsForms_load script (text r s).2
    rw [h] at hload
    exact floatsFrom_cache (fun q => (hload q).trans (htext q)) nofun

/-- **Only the conversion to a floating-point number** gives this form, to the value that is
converted, and its text stands for the number. -/
lemma floatsFrom_apply (c : Conversion) (r : Ref) (s : Store) :
    FloatsFrom c r s (c.apply r s) := by
  cases c with
  | text => exact floatsFrom_of_keepsForms ((rewords_text r).keepsForms s)
  | int => exact floatsFrom_readAs (asInt_taken r s) fun _ _ _ h => nomatch h
  | long => exact floatsFrom_readAs (asLong_taken r s) fun _ _ _ h => nomatch h
  | float =>
    refine floatsFrom_readAs (asFloat_taken r s) fun a x ha hx => ?_
    obtain rfl := Rep.float.inj hx
    exact ⟨rfl, ha⟩
  | bool => exact floatsFrom_of_keepsForms (rep_asBool r s)
  | list => exact (fetched_asList r s).floatsFrom nofun
  | hash => exact (fetched_asHash r s).floatsFrom nofun
  | script => exact (fetchedScript_asScript r s).floatsFrom

/-- **A value that is held as a floating-point number** after conversions, and was not before, has a
text that stands for this number.

**Proof sketch.** Induction on the conversions. The last one either keeps the form of the value, or
it is the conversion of this value to a floating-point number, and then its text was read; and no
conversion changes a text. -/
lemma Converted.float {s' : Store} (h : Converted s s') (hs : s.Sound τ) (hr : TextOf τ r t)
    (hnone : (s.cell r).rep = .none) {x : Float} (hx : (s'.cell r).rep = .float x) :
    Number.readFloat? t = some x := by
  induction h with
  | refl =>
    rw [hnone] at hx
    cases hx
  | step h c q hq ih =>
    obtain hkept | ⟨-, rfl, hread⟩ := floatsFrom_apply c q _ r x hx
    · exact ih hkept
    · obtain ⟨τ', hτ', hs'⟩ := h.sound hs
      rwa [hs'.text_eq (hr.mono hτ')] at hread

/-! ## What values are used as -/

/-- The floating-point number that a text stands for. -/
def floatOf : String → Except Failure Float :=
  readOr Number.readFloat? .notFloat

/-- A value is used as the number that it is held as, or else as what its text stands for. -/
lemma outcome_asFloat (hs : s.Sound τ) (hr : TextOf τ r t) :
    ConvM.outcome (asFloat r s) = (s.cell r).rep.float?.elim (floatOf t) .ok := by
  have hread : ConvM.outcome (readAs r Number.readFloat? .float .notFloat s) = floatOf t := by
    unfold readAs
    rw [ConvM.liftBind_apply, hs.text_eq hr]
    unfold floatOf readOr
    cases Number.readFloat? t with
    | some x => rfl
    | none => rfl
  unfold asFloat
  rw [ConvM.getBind_apply]
  cases (s.cell r).rep with
  | int n => rfl
  | long n => rfl
  | float x => rfl
  | _ =>
    simp only [Rep.float?, Option.elim_none]
    exact hread

/-- The truth value that a value is converted to: that of its form, or else of its text. -/
lemma outcome_asBool (hs : s.Sound τ) (hr : TextOf τ r t) :
    ConvM.outcome (asBool r s) = (s.cell r).rep.truth?.elim (boolOf t) .ok := by
  have hbool : (bool? r s).1 = (s.cell r).rep.truth?.elim (readBool? t) some := by
    have hread : ((text r >>= fun t => pure (readBool? t) : StoreM (Option Bool)) s).1 =
        readBool? t := by
      rw [StoreM.bind_apply, hs.text_eq hr]
      rfl
    unfold bool?
    rw [StoreM.getBind_apply]
    cases (s.cell r).rep with
    | int n => rfl
    | long n => rfl
    | float x => rfl
    | _ =>
      simp only [Rep.truth?, Option.elim_none]
      exact hread
  have htext : (text r (bool? r s).2).1 = t := by
    obtain ⟨τ', hτ', hs'⟩ := hs.bool? hr
    exact hs'.text_eq (hr.mono hτ')
  unfold asBool
  rw [ConvM.liftBind_apply, hbool]
  cases (s.cell r).rep.truth? with
  | some b => rfl
  | none =>
    simp only [Option.elim_none, boolOf, readOr]
    cases readBool? t with
    | some b => rfl
    | none =>
      change ConvM.outcome ((liftM (text r) >>= fun t => throw (.notBoolean t) : ConvM Bool) _) = _
      rw [ConvM.liftBind_apply, htext]
      rfl

/-- Whether a conversion succeeds, and why not, without what it gives. -/
def success {α : Type} (x : Except Failure α) : Except Failure Unit :=
  x.map fun _ => ()

/-- A value with the text `t` can be taken as a floating-point number if a new value with this text
can, wherever that is made, and else fails for the same reason. -/
def FloatAsNew (t : String) (r : Ref) (s : Store) : Prop :=
  ∀ u, Built u → ∀ q v, ofText t u = (q, v) →
    success (ConvM.outcome (asFloat r s)) = success (ConvM.outcome (asFloat q v))

/-- A value with the text `t` is the same truth value as a new value with this text, wherever that
is made, or fails for the same reason. -/
def BoolAsNew (t : String) (r : Ref) (s : Store) : Prop :=
  ∀ u, Built u → ∀ q v, ofText t u = (q, v) →
    ConvM.outcome (asBool r s) = ConvM.outcome (asBool q v)

/-- A new value is in a store that has texts, its own among them, and it is held in no form. -/
lemma Built.ofText {u v : Store} (hu : Built u) {q : Ref} (hnew : ofText t u = (q, v)) :
    Built v ∧ q.index < v.cells.size ∧ (v.cell q).rep = .none ∧
      ∃ ρ, v.Sound ρ ∧ TextOf ρ q t := by
  obtain ⟨ρ, hsound⟩ := hu.sound
  obtain ⟨ρ', -, hv, hq⟩ := (denotes_ofText (τ := ρ) t).sound (blind_alloc (by simp)) hsound
  have hbuilt := hu.text t
  have hnone : ((Store.ofText t u).2.cell (Store.ofText t u).1).rep = .none :=
    congrArg Cell.rep ((cell_alloc { text := some t } u _).trans (if_pos rfl))
  rw [hnew] at hv hq hbuilt hnone
  exact ⟨hbuilt, hv.length ▸ hq.lt, hnone, ρ', hv, hq⟩

/-- All new values with a text come to the same, and a value is used as a new one if it comes to
that, too. -/
lemma asNew_iff {β : Type} {o : Ref → Store → β} {b : β}
    (hfresh : ∀ ρ v q, v.Sound ρ → TextOf ρ q t → (v.cell q).rep = .none → o q v = b) :
    (∀ u, Built u → ∀ q v, ofText t u = (q, v) → o r s = o q v) ↔
      o r s = b := by
  have hnew : ∀ u, Built u → ∀ q v, ofText t u = (q, v) → o q v = b := by
    intro u hu q v hnew
    obtain ⟨-, -, hnone, ρ, hv, hq⟩ := hu.ofText hnew
    exact hfresh ρ v q hv hq hnone
  constructor
  · intro h
    rw [h {} .empty _ _ rfl, hnew {} .empty _ _ rfl]
  · intro h u hu q v hq
    rw [h, hnew u hu q v hq]

/-- To be read as a new value is to have the outcome of the text. -/
lemma floatAsNew_iff_floatOf :
    FloatAsNew t r s ↔ success (ConvM.outcome (asFloat r s)) = success (floatOf t) := by
  refine asNew_iff (o := fun r s => success (ConvM.outcome (asFloat r s)))
    fun ρ v q hv hq hnone => ?_
  rw [outcome_asFloat hv hq, hnone]
  rfl

/-- So it is with truth values. -/
lemma boolAsNew_iff_boolOf : BoolAsNew t r s ↔ ConvM.outcome (asBool r s) = boolOf t := by
  refine asNew_iff (o := fun r s => ConvM.outcome (asBool r s)) fun ρ v q hv hq hnone => ?_
  rw [outcome_asBool hv hq, hnone]
  rfl

/-! ## When values are used as new ones -/

/-- **As a floating-point number** a value is used as a new one, unless it is held as an integer and
its text is no floating-point numeral. -/
lemma floatAsNew_iff (hs : s.Sound τ) (hr : TextOf τ r t)
    (hfloat : ∀ x, (s.cell r).rep = .float x → Number.readFloat? t = some x) :
    FloatAsNew t r s ↔ ((s.cell r).rep.isInteger → (Number.readFloat? t).isSome) := by
  rw [floatAsNew_iff_floatOf, outcome_asFloat hs hr]
  unfold floatOf readOr
  cases hrep : (s.cell r).rep with
  | int n => cases Number.readFloat? t <;> simp [Rep.isInteger, Rep.float?, success, Except.map]
  | long n => cases Number.readFloat? t <;> simp [Rep.isInteger, Rep.float?, success, Except.map]
  | float x => simp [hfloat x hrep, Rep.isInteger, Rep.float?, success, Except.map]
  | _ => simp [Rep.isInteger, Rep.float?]

/-- A text that stands for a truth value and for a floating-point number is an integer numeral, and
the one is whether the other differs from zero. -/
lemma readBool?_of_readFloat? {b : Bool} {x : Float} (hb : readBool? t = some b)
    (hx : Number.readFloat? t = some x) : b = (x != 0) := by
  unfold readBool? at hb
  split at hb
  next n hn =>
    rw [Number.readFloat?_bne_zero hn hx]
    exact (Option.some.inj hb).symm
  next =>
    rw [Number.readFloat?_eq_none_of_word hb] at hx
    cases hx

/-- **As a truth value** a value is used as a new one, unless it is held as a floating-point number
and its text stands for no truth value. -/
lemma boolAsNew_iff (hs : s.Sound τ) (hr : TextOf τ r t)
    (hfloat : ∀ x, (s.cell r).rep = .float x → Number.readFloat? t = some x) :
    BoolAsNew t r s ↔ ((s.cell r).rep.isFloat → (readBool? t).isSome) := by
  have hform := hs.coherent.form r t hr
  rw [cell_unfloated, Cell.unfloated] at hform
  rw [boolAsNew_iff_boolOf, outcome_asBool hs hr]
  unfold boolOf readOr
  cases hrep : (s.cell r).rep with
  | int n =>
    rw [hrep] at hform
    simp [readBool?_of_readInt? hform, Rep.isFloat, Rep.truth?]
  | long n =>
    rw [hrep] at hform
    simp [readBool?_of_readLong? hform, Rep.isFloat, Rep.truth?]
  | float x =>
    cases hb : readBool? t with
    | none => simp [Rep.isFloat, Rep.truth?]
    | some b => simp [readBool?_of_readFloat? hb (hfloat x hrep), Rep.isFloat, Rep.truth?]
  | _ => simp [Rep.isFloat, Rep.truth?]

/-! ## Histories that can be told -/

/-- What is read from the text of a new value is kept as its form. -/
lemma rep_readAs {α : Type} {read? : String → Option α} {rep : α → Rep} {failure : String → Failure}
    {a : α} (hs : s.Sound τ) (hr : TextOf τ r t) (hnone : (s.cell r).rep = .none)
    (ha : read? t = some a) :
    ((finalState (readAs r read? rep failure s)).cell r).rep = rep a := by
  have htext := rewords_text r s
  have hvalid : r.index < (text r s).2.cells.size := by
    rw [htext.size, ← hs.length]
    exact hr.lt
  have hobject : (text r s).2.objectOf? r = none := by
    unfold objectOf?
    rw [htext.rep_eq, hnone]
  rw [finalState_readAs, hs.text_eq hr, ha]
  exact rep_cache_self hvalid hobject

/-- **An integer numeral** can be held as an integer. -/
lemma exists_converted_isInteger (hs : s.Sound τ) (hr : TextOf τ r t)
    (hnone : (s.cell r).rep = .none) (hlong : (readLong? t).isSome) :
    ∃ s', Converted s s' ∧ (s'.cell r).rep.isInteger := by
  obtain ⟨n, hn⟩ := Option.isSome_iff_exists.1 hlong
  refine ⟨_, Converted.refl.step .long r (hs.length ▸ hr.lt), ?_⟩
  have hread : asLong r s = readAs r readLong? .long .notLong s := by
    unfold asLong
    rw [ConvM.getBind_apply, hnone]
  unfold Conversion.apply
  rw [hread, rep_readAs hs hr hnone hn]
  rfl

/-- **A floating-point numeral** can be held as a floating-point number. -/
lemma exists_converted_isFloat (hs : s.Sound τ) (hr : TextOf τ r t)
    (hnone : (s.cell r).rep = .none) (hfloat : (Number.readFloat? t).isSome) :
    ∃ s', Converted s s' ∧ (s'.cell r).rep.isFloat := by
  obtain ⟨x, hx⟩ := Option.isSome_iff_exists.1 hfloat
  refine ⟨_, Converted.refl.step .float r (hs.length ▸ hr.lt), ?_⟩
  have hread : asFloat r s = readAs r Number.readFloat? .float .notFloat s := by
    unfold asFloat
    rw [ConvM.getBind_apply, hnone]
  unfold Conversion.apply
  rw [hread, rep_readAs hs hr hnone hx]
  rfl

/-- A value that is held as an integer has an integer numeral as its text. -/
lemma Sound.isSome_readLong? (hs : s.Sound τ) (hr : TextOf τ r t)
    (h : (s.cell r).rep.isInteger) : (readLong? t).isSome := by
  have hform := hs.coherent.form r t hr
  rw [cell_unfloated, Cell.unfloated] at hform
  cases hrep : (s.cell r).rep with
  | int n =>
    rw [hrep] at hform
    rw [readLong?_of_readInt? hform]
    rfl
  | long n =>
    rw [hrep] at hform
    exact Option.isSome_iff_exists.2 ⟨n, hform⟩
  | _ =>
    rw [hrep] at h
    cases h

/-- **Conversions to numbers and truth values that depend on history.** A value is made from a text,
and it and other values are converted in any way. Whether it can then be taken as a floating-point
number is, whatever its history, the same as for a new value with this text, if and only if the
text, if it is an integer numeral, is a floating-point numeral. Which truth value it is, if any, is
the same as for a new value, if and only if the text, if it is a floating-point numeral, stands for
a truth value. Where there is a difference, the value is taken as what it is held as: as the
integer, or as whether the floating-point number differs from zero.

**Proof sketch.** If it is held as an integer, its text is an integer numeral, and if it is held as
a floating-point number, its text is such a numeral. So with the condition on texts it is always
used as a new one. Without it, converting it to a long integer, or to a floating-point number, makes
the difference. -/
theorem numbers_coherent_iff {u s : Store} (hu : Built u) {t : String} {r : Ref}
    (hnew : ofText t u = (r, s)) :
    ((∀ s', Converted s s' → FloatAsNew t r s') ↔
        ((readLong? t).isSome → (Number.readFloat? t).isSome)) ∧
      ((∀ s', Converted s s' → BoolAsNew t r s') ↔
        ((Number.readFloat? t).isSome → (readBool? t).isSome)) ∧
      ∀ s', Converted s s' →
        (¬ FloatAsNew t r s' →
          (s'.cell r).rep.isInteger ∧ (ConvM.outcome (asFloat r s')).isOk) ∧
        (¬ BoolAsNew t r s' →
          ∃ x, (s'.cell r).rep = .float x ∧ ConvM.outcome (asBool r s') = .ok (x != 0)) := by
  obtain ⟨-, -, hnone, τ, hs, hr⟩ := hu.ofText hnew
  have hsound : ∀ s', Converted s s' → ∃ τ', s'.Sound τ' ∧ TextOf τ' r t ∧
      ∀ x, (s'.cell r).rep = .float x → Number.readFloat? t = some x := by
    intro s' h
    obtain ⟨τ', hτ', hs'⟩ := h.sound hs
    exact ⟨τ', hs', hr.mono hτ', fun x hx => h.float hs hr hnone hx⟩
  refine ⟨⟨fun hall hlong => ?_, fun himp s' h => ?_⟩,
    ⟨fun hall hfloat => ?_, fun himp s' h => ?_⟩, fun s' h => ⟨fun hnot => ?_, fun hnot => ?_⟩⟩
  -- as a floating-point number: a value that is held as an integer makes the difference
  · obtain ⟨s', h, hinteger⟩ := exists_converted_isInteger hs hr hnone hlong
    obtain ⟨τ', hs', hr', hread⟩ := hsound s' h
    exact (floatAsNew_iff hs' hr' hread).1 (hall s' h) hinteger
  · obtain ⟨τ', hs', hr', hread⟩ := hsound s' h
    exact (floatAsNew_iff hs' hr' hread).2 fun hinteger =>
      himp (hs'.isSome_readLong? hr' hinteger)
  -- as a truth value: one that is held as a floating-point number makes it
  · obtain ⟨s', h, hheld⟩ := exists_converted_isFloat hs hr hnone hfloat
    obtain ⟨τ', hs', hr', hread⟩ := hsound s' h
    exact (boolAsNew_iff hs' hr' hread).1 (hall s' h) hheld
  · obtain ⟨τ', hs', hr', hread⟩ := hsound s' h
    refine (boolAsNew_iff hs' hr' hread).2 fun hheld => himp ?_
    obtain ⟨x, hx⟩ := Rep.exists_eq_float hheld
    exact Option.isSome_iff_exists.2 ⟨x, hread x hx⟩
  -- where there is a difference, the form of the value is what tells
  · obtain ⟨τ', hs', hr', hread⟩ := hsound s' h
    rw [floatAsNew_iff hs' hr' hread, Classical.not_imp] at hnot
    refine ⟨hnot.1, ?_⟩
    obtain ⟨x, hx⟩ := Rep.exists_float?_eq_some hnot.1
    rw [outcome_asFloat hs' hr', hx]
    rfl
  · obtain ⟨τ', hs', hr', hread⟩ := hsound s' h
    rw [boolAsNew_iff hs' hr' hread, Classical.not_imp] at hnot
    obtain ⟨x, hx⟩ := Rep.exists_eq_float hnot.1
    refine ⟨x, hx, ?_⟩
    rw [outcome_asBool hs' hr', hx]
    rfl

/-- For decimal digits no history makes a difference. -/
theorem numbers_coherent_digits :
    (∀ s', Converted (ofText "12" {}).2 s' → FloatAsNew "12" ⟨0⟩ s') ∧
      ∀ s', Converted (ofText "12" {}).2 s' → BoolAsNew "12" ⟨0⟩ s' := by
  obtain ⟨hfloat, hbool, -⟩ := numbers_coherent_iff .empty (t := "12") (r := ⟨0⟩) rfl
  exact ⟨hfloat.2 fun _ => by decide +kernel, hbool.2 fun _ => by decide +kernel⟩

/-- A hexadecimal numeral that was used as an integer can be taken as a floating-point number, and a
number with a point that was used as such is true; new values with these texts are neither. -/
theorem numbers_told_by_history :
    (∃ s', Converted (ofText "0x10" {}).2 s' ∧ ¬ FloatAsNew "0x10" ⟨0⟩ s') ∧
      ∃ s', Converted (ofText "1.5" {}).2 s' ∧ ¬ BoolAsNew "1.5" ⟨0⟩ s' := by
  have hsize : ∀ t, 0 < (ofText t {}).2.cells.size := fun _ => Nat.one_pos
  refine ⟨⟨_, Converted.refl.step .int ⟨0⟩ (hsize _), fun hnew => ?_⟩,
    ⟨_, Converted.refl.step .float ⟨0⟩ (hsize _), fun hnew => ?_⟩⟩
  · have hsame := congrArg Except.isOk (hnew {} .empty _ _ rfl)
    revert hsame
    decide +kernel
  · have hsame := congrArg Except.isOk (hnew {} .empty _ _ rfl)
    revert hsame
    decide +kernel

end Store

end CommandScript
