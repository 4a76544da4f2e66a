import CommandScript.Proofs.Value.FloatForms

/-!
# Conversions do not depend on history

Values are made from texts, numbers and truth values, and from other values as lists and hashes of
them. They are then used as numbers, lists, hashes, scripts, in any order and as often as one
likes, and so are their elements; each use may fix a text and replace a form. Nothing of this can be
told from the values: the text of a value stays what it was, and a value is converted as a new value
with its text would be.

## Main definitions

* `Store.Sound` — the texts of a store in which some values may be in a floating-point form.
* `Conversion`, `Conversion.apply` — the conversions, and what they do to a store.
* `Store.Built`, `Store.Converted` — how stores come about.
* `Store.elements`, `Store.pairs` — what lists and hashes are, as texts.

## Main results

* `Store.Sound.apply` — no conversion changes a text.
* `Store.Built.sound` — every value that was made has a text.
* `Store.conversions_coherent` — conversions do not depend on history.
-/

set_option autoImplicit false

namespace CommandScript

open StoreM (Exactly Each lasting_textOf)

/-- The outcome of a conversion, without the store. -/
def ConvM.outcome {α : Type} : EStateM.Result Failure Store α → Except Failure α
  | .ok a _ => .ok a
  | .error f _ => .error f

/-- The values of a table, with other things in their place. -/
lemma Table.related_withValues_self {α β : Type} {R : α → β → Prop} {t : Table α} {things : List β}
    (h : List.Forall₂ R t.values things) : Table.Related R t (t.withValues things) := by
  have hflip : Table.Related (flip R) (t.withValues things) t :=
    Table.related_withValues rfl h.flip
  exact (List.Forall₂.flip hflip).imp fun e f he => ⟨he.1.symm, he.2⟩

namespace Store

variable {τ : List String} {s : Store} {r : Ref} {t : String}

/-! ## Texts of a store with floating-point forms -/

/-- But for floating-point forms, the form of each value is what reading its text gives, and `τ` are
the texts; a value in a floating-point form knows its text. -/
structure Sound (s : Store) (τ : List String) : Prop where
  /-- Without the floating-point forms, the store is coherent. -/
  coherent : Coherent s.unfloated τ
  /-- A value in a floating-point form knows its text. -/
  floats : s.FloatsWritten

/-- The store without values is sound. -/
lemma sound_empty : Sound {} [] where
  coherent := ⟨rfl, (size_unfloated {}).symm, fun _ _ h => (Nat.not_lt_zero _ h.lt).elim,
    fun _ _ h => (Nat.not_lt_zero _ h.lt).elim⟩
  floats := by
    intro r x hx
    have hcell : Store.cell {} r = blank := by
      unfold cell
      rw [Array.getElem?_eq_none (Nat.zero_le _)]
      rfl
    rw [hcell] at hx
    cases hx

/-- There are as many texts as values. -/
lemma Sound.length (hs : s.Sound τ) : τ.length = s.cells.size :=
  hs.coherent.length.trans (size_unfloated s)

/-- Every value that is there has a text. -/
lemma Sound.exists_textOf (hs : s.Sound τ) (hr : r.index < s.cells.size) : ∃ t, TextOf τ r t := by
  have hlt : r.index < τ.length := by
    rw [hs.length]
    exact hr
  exact ⟨_, List.getElem?_eq_getElem hlt⟩

/-- All values that are there have texts. -/
lemma Sound.exists_each (hs : s.Sound τ) {rs : List Ref} (hrs : ∀ r ∈ rs, r.index < s.cells.size) :
    ∃ texts, Each TextOf τ rs texts := by
  induction rs with
  | nil => exact ⟨[], .nil⟩
  | cons r rs ih =>
    obtain ⟨t, ht⟩ := hs.exists_textOf (hrs r List.mem_cons_self)
    obtain ⟨texts, htexts⟩ := ih fun q hq => hrs q (List.mem_cons_of_mem _ hq)
    exact ⟨t :: texts, .cons ht htexts⟩

end Store

open Store

/-- What a computation does that looks at no floating-point forms, is what it stands for. -/
lemma StoreM.Denotes.sound {α β : Type} {τ : List String} {K : List String → α → β → Prop}
    {m : StoreM α} {b : β} {s : Store} (hm : m.Denotes τ K b) (hblind : m.Blind) (hs : s.Sound τ) :
    ∃ τ', τ <+: τ' ∧ (m s).2.Sound τ' ∧ K τ' (m s).1 b := by
  obtain ⟨hsame, hfloats⟩ := hblind s hs.floats
  obtain ⟨τ', hτ', hs', hK⟩ := hm s.unfloated hs.coherent
  rw [hsame] at hs' hK
  exact ⟨τ', hτ', ⟨hs', hfloats⟩, hK⟩

namespace ConvM

variable {α β : Type} {τ : List String} {m : ConvM α} {s : Store}

/-- A computation that stands for something keeps stores sound. -/
lemma Denotes.sound {K : List String → α → β → Prop} {x : Except Failure β}
    (hm : m.Denotes τ K x) (hblind : m.Blind) (hs : s.Sound τ) :
    ∃ τ', τ <+: τ' ∧ (finalState (m s)).Sound τ' := by
  have hveiled := hblind s hs.floats
  have hstands := hm s.unfloated hs.coherent
  generalize m s = o at hveiled ⊢
  generalize m s.unfloated = o' at hveiled hstands
  cases hveiled with
  | ok hfloats =>
    cases hstands with
    | ok hτ ht hK => exact ⟨_, hτ, ht, hfloats⟩
  | error hfloats =>
    cases hstands with
    | error hτ ht => exact ⟨_, hτ, ht, hfloats⟩

/-- A conversion that stands for something on texts has it as its outcome. -/
lemma Denotes.outcome_eq {x : Except Failure α} (hm : m.Denotes τ Exactly x) (hblind : m.Blind)
    (hs : s.Sound τ) : outcome (m s) = x := by
  have hveiled := hblind s hs.floats
  have hstands := hm s.unfloated hs.coherent
  generalize m s = o at hveiled ⊢
  generalize m s.unfloated = o' at hveiled hstands
  cases hveiled with
  | ok hfloats =>
    cases hstands with
    | ok hτ ht hK => exact congrArg Except.ok hK
  | error hfloats =>
    cases hstands with
    | error hτ ht => rfl

end ConvM

namespace Store

variable {τ : List String} {s : Store} {r : Ref} {t : String}

/-! ## Long integers, elements and entries -/

/-- The long integer that a text stands for. -/
def longOf : String → Except Failure Int64 :=
  readOr readLong? .notLong

/-- **A value as a long integer** is what its text stands for, in whatever form it is held. -/
lemma denotes_asLong (hr : TextOf τ r t) : (asLong r).Denotes τ Exactly (longOf t) := by
  refine .getBind fun s hs => ?_
  have hform := hs.form r t hr
  split
  next n hn =>
    rw [hn] at hform
    have hlong : longOf t = .ok n.toInt64 := by
      simp only [longOf, readOr, readLong?_of_readInt? hform]
    rw [hlong]
    exact .pure rfl
  next n hn =>
    rw [hn] at hform
    have hlong : longOf t = .ok n := by
      simp only [longOf, readOr, show readLong? t = some n from hform]
    rw [hlong]
    exact .pure rfl
  next => exact denotes_readAs hr fun _ _ h => h

/-- A new integer of 64 bits has its numeral as its text, unless it is the least one. -/
lemma denotes_ofLong {n : Int64} (hn : n ≠ Int64.minValue) :
    (ofLong n).Denotes τ TextOf (Number.writeInteger n.toInt) :=
  denotes_alloc (readLong?_writeInteger hn) (.inr ⟨rfl, rfl⟩)

/-- The texts of the elements of a list. -/
def elements (r : Ref) : ConvM (List String) := do
  let items ← asList r
  (texts items : StoreM (List String))

/-- The keys of a hash in order, and the texts of its values. -/
def pairs (r : Ref) : ConvM (List String × List String) := do
  let entries ← asHash r
  let texts ← (texts entries.values : StoreM (List String))
  return (entries.keys, texts)

/-- The keys and values of the hash that a text stands for. -/
def pairsOf (t : String) : Except Failure (List String × List String) := do
  let table ← HashText.read t
  return (table.keys, table.values)

/-- The elements of a value depend on its text. -/
lemma denotes_elements (hr : TextOf τ r t) : (elements r).Denotes τ Exactly (listOf t) :=
  (denotes_asList hr).bindKeep fun _ _ _ _ _ hitems => .lift (denotes_texts hitems)

/-- They are read in the same way where floating-point forms are forgotten. -/
lemma blind_elements (r : Ref) : (elements r).Blind :=
  (blind_asList r).bind fun items => .lift (blind_texts items)

/-- The pairs of a value depend on its text. -/
lemma denotes_pairs (hr : TextOf τ r t) : (pairs r).Denotes τ Exactly (pairsOf t) := by
  refine (denotes_asHash hr).bind fun τ₁ entries table _ _ htable => ?_
  refine .liftBind (denotes_texts htable.values) fun τ₂ texts _ htexts => .pure ?_
  obtain rfl : texts = table.values := htexts
  exact Prod.ext htable.keys_eq rfl

/-- They are read in the same way where floating-point forms are forgotten. -/
lemma blind_pairs (r : Ref) : (pairs r).Blind :=
  (blind_asHash r).bind fun _ => (ConvM.Blind.lift (blind_texts _)).bind fun _ => .pure _

/-! ## Floating-point numbers and truth values -/

/-- A value that knows its text may take on a floating-point form. -/
lemma Sound.setFloat (hs : s.Sound τ) (hr : TextOf τ r t) (htext : (s.cell r).text ≠ none)
    (x : Float) : (setRep r (.float x) s).2.Sound τ where
  coherent := by
    have hknown : (s.unfloated.cell r).text = some t := by
      obtain hknown | ⟨hunknown, -⟩ := hs.coherent.text r t hr
      · exact hknown
      · rw [cell_unfloated] at hunknown
        exact absurd hunknown htext
    change Coherent (unfloated { s with cells := s.cells.modify r.index _ }) τ
    rw [unfloated_modify (g := fun c => { c with rep := .none }) (fun c => rfl)]
    exact hs.coherent.modify hr trivial hknown
  floats := hs.floats.modify fun x _ => htext

/-- The text is read, and what is read is kept. -/
lemma finalState_readAs {α : Type} (r : Ref) (read? : String → Option α) (rep : α → Rep)
    (failure : String → Failure) (s : Store) :
    finalState (readAs r read? rep failure s) =
      match read? (text r s).1 with
      | some a => (cache r (rep a) (text r s).2).2
      | none => (text r s).2 := by
  unfold readAs
  rw [ConvM.liftBind_apply]
  cases read? (text r s).1 with
  | some a => rfl
  | none => rfl

/-- Reading a floating-point number keeps all texts. -/
lemma Sound.readFloat (hs : s.Sound τ) (hr : TextOf τ r t) :
    ∃ τ', τ <+: τ' ∧
      (finalState (readAs r Number.readFloat? .float .notFloat s)).Sound τ' := by
  obtain ⟨τ₁, h₁, hs₁, -⟩ := (denotes_text hr).sound (blind_text r) hs
  rw [finalState_readAs]
  cases Number.readFloat? (text r s).1 with
  | none => exact ⟨τ₁, h₁, hs₁⟩
  | some x =>
    generalize (text r s).2 = s₁ at hs₁
    obtain ⟨τ₂, h₂, hs₂, -⟩ := (denotes_text (hr.mono h₁)).sound (blind_text r) hs₁
    have hr₂ := (hr.mono h₁).mono h₂
    have hobject : (text r s₁).2.objectOf? r = none := by
      rw [← objectOf?_unfloated]
      exact hs₂.coherent.objectOf?_eq_none hr₂
    have htext : ((text r s₁).2.cell r).text ≠ none := by
      rw [cell_text_text]
      exact Option.some_ne_none _
    refine ⟨τ₂, h₁.trans h₂, ?_⟩
    dsimp only
    rw [cache_apply hobject]
    exact hs₂.setFloat hr₂ htext x

/-- A number is taken as it is, all else is read. -/
lemma asFloat_cases (r : Ref) (s : Store) :
    finalState (asFloat r s) = s ∨
      asFloat r s = readAs r Number.readFloat? .float .notFloat s := by
  unfold asFloat
  rw [ConvM.getBind_apply]
  cases (s.cell r).rep with
  | int n => exact .inl rfl
  | long n => exact .inl rfl
  | float x => exact .inl rfl
  | _ => exact .inr rfl

/-- Taking a value as a floating-point number keeps stores sound. -/
lemma Sound.asFloat (hs : s.Sound τ) (hr : TextOf τ r t) :
    ∃ τ', τ <+: τ' ∧ (finalState (asFloat r s)).Sound τ' := by
  obtain hsame | hread := asFloat_cases r s
  · rw [hsame]
    exact ⟨τ, List.prefix_rfl, hs⟩
  · rw [hread]
    exact hs.readFloat hr

/-- Looking for a truth value asks for the text at most. -/
lemma bool?_cases (r : Ref) (s : Store) :
    (Store.bool? r s).2 = s ∨ (Store.bool? r s).2 = (text r s).2 := by
  unfold Store.bool?
  rw [StoreM.getBind_apply]
  cases (s.cell r).rep with
  | int n => exact .inl rfl
  | long n => exact .inl rfl
  | float x => exact .inl rfl
  | _ => exact .inr rfl

/-- Looking for a truth value keeps stores sound. -/
lemma Sound.bool? (hs : s.Sound τ) (hr : TextOf τ r t) :
    ∃ τ', τ <+: τ' ∧ (Store.bool? r s).2.Sound τ' := by
  obtain hsame | htext := bool?_cases r s
  · rw [hsame]
    exact ⟨τ, List.prefix_rfl, hs⟩
  · obtain ⟨τ₁, h₁, hs₁, -⟩ := (denotes_text hr).sound (blind_text r) hs
    rw [htext]
    exact ⟨τ₁, h₁, hs₁⟩

/-- So does taking a value as a truth value. -/
lemma Sound.asBool (hs : s.Sound τ) (hr : TextOf τ r t) :
    ∃ τ', τ <+: τ' ∧ (finalState (asBool r s)).Sound τ' := by
  obtain ⟨τ₁, h₁, hs₁⟩ := hs.bool? hr
  unfold Store.asBool
  rw [ConvM.liftBind_apply]
  cases (Store.bool? r s).1 with
  | some b => exact ⟨τ₁, h₁, hs₁⟩
  | none =>
    obtain ⟨τ₂, h₂, hs₂, -⟩ := (denotes_text (hr.mono h₁)).sound (blind_text r) hs₁
    exact ⟨τ₂, h₁.trans h₂, hs₂⟩

end Store

/-! ## Histories -/

/-- The conversions. -/
inductive Conversion where
  /-- To a text. -/
  | text
  /-- To an integer of 32 bits. -/
  | int
  /-- To a long integer. -/
  | long
  /-- To a floating-point number. -/
  | float
  /-- To a truth value. -/
  | bool
  /-- To a list. -/
  | list
  /-- To a hash. -/
  | hash
  /-- To a script. -/
  | script
deriving DecidableEq, Repr

/-- What a conversion of a value leaves behind, whether it fails or not. -/
def Conversion.apply (c : Conversion) (r : Ref) (s : Store) : Store :=
  match c with
  | .text => (Store.text r s).2
  | .int => finalState (Store.asInt r s)
  | .long => finalState (Store.asLong r s)
  | .float => finalState (Store.asFloat r s)
  | .bool => finalState (Store.asBool r s)
  | .list => finalState (Store.asList r s)
  | .hash => finalState (Store.asHash r s)
  | .script => (Store.asScript r s).2

namespace Store

variable {τ : List String} {s : Store} {r : Ref}

/-- **No conversion changes a text**, whether it fails or not. -/
lemma Sound.apply (hs : s.Sound τ) (hr : r.index < s.cells.size) (c : Conversion) :
    ∃ τ', τ <+: τ' ∧ (c.apply r s).Sound τ' := by
  obtain ⟨t, ht⟩ := hs.exists_textOf hr
  cases c with
  | text =>
    obtain ⟨τ', hτ', hs', -⟩ := (denotes_text ht).sound (blind_text r) hs
    exact ⟨τ', hτ', hs'⟩
  | int => exact (denotes_asInt ht).sound (blind_asInt r) hs
  | long => exact (denotes_asLong ht).sound (blind_asLong r) hs
  | float => exact hs.asFloat ht
  | bool => exact hs.asBool ht
  | list => exact (denotes_asList ht).sound (blind_asList r) hs
  | hash => exact (denotes_asHash ht).sound (blind_asHash r) hs
  | script =>
    obtain ⟨τ', hτ', hs', -⟩ := (denotes_asScript ht).sound (blind_asScript r) hs
    exact ⟨τ', hτ', hs'⟩

/-- Stores that come about by making values from texts, integers, truth values, long integers other
than the least one, and lists and hashes of values that are there, and by converting values. -/
inductive Built : Store → Prop
  /-- There are no values yet. -/
  | empty : Built {}
  /-- A text. -/
  | text {s : Store} (h : Built s) (t : String) : Built (ofText t s).2
  /-- A text that belongs to a script. -/
  | literal {s : Store} (h : Built s) (t : String) : Built (ofLiteral t s).2
  /-- An integer. -/
  | int {s : Store} (h : Built s) (n : Int32) : Built (ofInt n s).2
  /-- A truth value. -/
  | bool {s : Store} (h : Built s) (b : Bool) : Built (ofBool b s).2
  /-- A long integer. -/
  | long {s : Store} (h : Built s) (n : Int64) (hn : n ≠ Int64.minValue) : Built (ofLong n s).2
  /-- A list. -/
  | list {s : Store} (h : Built s) (items : Stack Ref)
    (hitems : ∀ r ∈ items.toList, r.index < s.cells.size) : Built (ofStack items s).2
  /-- A hash. -/
  | hash {s : Store} (h : Built s) (entries : Table Ref)
    (hentries : ∀ r ∈ entries.values, r.index < s.cells.size) : Built (ofHash entries s).2
  /-- A conversion of a value. -/
  | converted {s : Store} (h : Built s) (c : Conversion) (r : Ref) (hr : r.index < s.cells.size) :
    Built (c.apply r s)

/-- The store `t` comes from `s` by conversions of values, in any order: of those of `s`, and of
those that conversions have made. -/
inductive Converted (s : Store) : Store → Prop
  /-- There are no conversions. -/
  | refl : Converted s s
  /-- One more conversion. -/
  | step {t : Store} (h : Converted s t) (c : Conversion) (r : Ref) (hr : r.index < t.cells.size) :
    Converted s (c.apply r t)

/-- A new value has a text, and all others keep theirs. -/
lemma Sound.make (hs : s.Sound τ) {m : StoreM Ref} {t : String} (hm : m.Denotes τ TextOf t)
    (hblind : m.Blind) : ∃ τ', (m s).2.Sound τ' := by
  obtain ⟨τ', -, hs', -⟩ := hm.sound hblind hs
  exact ⟨τ', hs'⟩

/-- **Every value that was made has a text.**

**Proof sketch.** Induction on how the store came about: a new value is read as it is written, and a
conversion changes no text. -/
lemma Built.sound (hs : Built s) : ∃ τ, s.Sound τ := by
  induction hs with
  | empty => exact ⟨[], sound_empty⟩
  | text h t ih =>
    obtain ⟨τ, hs⟩ := ih
    exact hs.make (denotes_ofText t) (blind_alloc (by simp))
  | literal h t ih =>
    obtain ⟨τ, hs⟩ := ih
    exact hs.make (denotes_ofLiteral t) (blind_alloc (by simp))
  | int h n ih =>
    obtain ⟨τ, hs⟩ := ih
    exact hs.make (denotes_ofInt n) (blind_alloc (by simp))
  | bool h b ih =>
    obtain ⟨τ, hs⟩ := ih
    exact hs.make (denotes_ofInt _) (blind_alloc (by simp))
  | long h n hn ih =>
    obtain ⟨τ, hs⟩ := ih
    exact hs.make (denotes_ofLong hn) (blind_alloc (by simp))
  | list h items hitems ih =>
    obtain ⟨τ, hs⟩ := ih
    obtain ⟨texts, htexts⟩ := hs.exists_each hitems
    exact hs.make (denotes_ofStack htexts) (blind_alloc (by simp))
  | hash h entries hentries ih =>
    obtain ⟨τ, hs⟩ := ih
    obtain ⟨texts, htexts⟩ := hs.exists_each hentries
    exact hs.make (denotes_ofHash (Table.related_withValues_self htexts)) (blind_alloc (by simp))
  --  converted|a conversion keeps all texts
  | converted h c r hr ih =>
    obtain ⟨τ, hs⟩ := ih
    obtain ⟨τ', -, hs'⟩ := hs.apply hr c
    exact ⟨τ', hs'⟩

/-- Conversions keep all texts, however many there are. -/
lemma Converted.sound {s' : Store} (h : Converted s s') (hs : s.Sound τ) :
    ∃ τ', τ <+: τ' ∧ s'.Sound τ' := by
  induction h with
  | refl => exact ⟨τ, List.prefix_rfl, hs⟩
  | step _ c r hr ih =>
    obtain ⟨τ₁, h₁, hs₁⟩ := ih
    obtain ⟨τ₂, h₂, hs₂⟩ := hs₁.apply hr c
    exact ⟨τ₂, h₁.trans h₂, hs₂⟩

/-- No conversion takes a value away. -/
lemma Converted.size_le {s' : Store} (h : Converted s s') (hs : Built s) :
    s.cells.size ≤ s'.cells.size := by
  obtain ⟨τ, hsound⟩ := hs.sound
  obtain ⟨τ', hτ', hsound'⟩ := h.sound hsound
  rw [← hsound.length, ← hsound'.length]
  exact hτ'.length_le

/-- The text of a value is the one that it stands for. -/
lemma Sound.text_eq (hs : s.Sound τ) {t : String} (hr : TextOf τ r t) : (text r s).1 = t := by
  obtain ⟨τ', -, -, htext⟩ := (denotes_text hr).sound (blind_text r) hs
  exact htext

/-- **Conversions do not depend on history.** For every value that was made from texts, integers,
truth values, long integers other than the least one, or lists and hashes of such values, and after
any conversions of it, of its elements and of other values: its text is what it was, and used as an
integer, a long integer, a list or a hash, it is the same, or fails for the same reason, as a new
value with that text, wherever that is made. -/
theorem conversions_coherent {s s' : Store} (hs : Built s) {r : Ref} (hr : r.index < s.cells.size)
    (h : Converted s s') :
    (text r s').1 = (text r s).1 ∧
      ∀ u, Built u → ∀ q v, ofText (text r s).1 u = (q, v) →
        ConvM.outcome (asInt r s') = ConvM.outcome (asInt q v) ∧
        ConvM.outcome (asLong r s') = ConvM.outcome (asLong q v) ∧
        ConvM.outcome (elements r s') = ConvM.outcome (elements q v) ∧
        ConvM.outcome (pairs r s') = ConvM.outcome (pairs q v) := by
  obtain ⟨τ, hsound⟩ := hs.sound
  obtain ⟨t, ht⟩ := hsound.exists_textOf hr
  obtain ⟨τ', hτ', hsound'⟩ := h.sound hsound
  have ht' := ht.mono hτ'
  rw [hsound.text_eq ht]
  refine ⟨hsound'.text_eq ht', fun u hu q v hnew => ?_⟩
  obtain ⟨ρ, hu⟩ := hu.sound
  obtain ⟨ρ', -, hv, hq⟩ := (denotes_ofText (τ := ρ) t).sound (blind_alloc (by simp)) hu
  rw [hnew] at hv hq
  refine ⟨?_, ?_, ?_, ?_⟩
  · rw [(denotes_asInt ht').outcome_eq (blind_asInt r) hsound',
      (denotes_asInt hq).outcome_eq (blind_asInt q) hv]
  · rw [(denotes_asLong ht').outcome_eq (blind_asLong r) hsound',
      (denotes_asLong hq).outcome_eq (blind_asLong q) hv]
  · rw [(denotes_elements ht').outcome_eq (blind_elements r) hsound',
      (denotes_elements hq).outcome_eq (blind_elements q) hv]
  · rw [(denotes_pairs ht').outcome_eq (blind_pairs r) hsound',
      (denotes_pairs hq).outcome_eq (blind_pairs q) hv]

/-- The truth value `true`, and a list with it as its only element. -/
def listOfTrue : Store :=
  (ofStack (.ofList [⟨0⟩]) (ofBool true {}).2).2

/-- The list of the example is built from texts and conversions. -/
lemma built_listOfTrue : Built listOfTrue := by
  refine (Built.empty.bool true).list _ fun r hr => ?_
  rw [Stack.toList_ofList, List.mem_singleton] at hr
  subst hr
  exact Nat.one_pos

/-- A list that was used as a floating-point number and as a script, and the element of which was
used as a hash, still is the list and, if need be, the number that it was. -/
theorem conversions_coherent_listOfTrue :
    ∃ s', Converted listOfTrue s' ∧ (text ⟨1⟩ s').1 = "1" ∧
      ConvM.outcome (asInt ⟨1⟩ s') = .ok 1 ∧ ConvM.outcome (elements ⟨1⟩ s') = .ok ["1"] := by
  have htext : (text ⟨1⟩ listOfTrue).1 = "1" := by decide +kernel
  have hzero : (0 : Nat) < listOfTrue.cells.size := by decide
  have hone : (1 : Nat) < listOfTrue.cells.size := by decide
  have hfloat := Converted.refl.step .float ⟨1⟩ hone
  have hscript := hfloat.step .script ⟨1⟩
    (Nat.lt_of_lt_of_le hone (hfloat.size_le built_listOfTrue))
  have hhash := hscript.step .hash ⟨0⟩
    (Nat.lt_of_lt_of_le hzero (hscript.size_le built_listOfTrue))
  generalize Conversion.apply .hash ⟨0⟩ _ = s' at hhash
  obtain ⟨hsame, hfresh⟩ := conversions_coherent built_listOfTrue (r := ⟨1⟩) hone hhash
  rw [htext] at hsame hfresh
  obtain ⟨hint, -, helements, -⟩ := hfresh {} .empty ⟨0⟩ _ rfl
  exact ⟨s', hhash, hsame, hint, helements⟩

end Store

end CommandScript
