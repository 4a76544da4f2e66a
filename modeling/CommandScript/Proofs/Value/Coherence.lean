import CommandScript.Proofs.Number.Numeral
import CommandScript.Proofs.Table.Related
import CommandScript.Proofs.Value.Growth

/-!
# Coherent stores

Every value is, in the end, a text, and the form in which it is held is only a convenience. This is
so if the form of each value is what reading its text gives: then a conversion may use the form, or
read the text, with the same outcome. A store is *coherent* with a list of texts, one for each cell,
if these are the texts of its values and all forms agree with them.

What a computation does is then told on texts alone. It *denotes* something if, from any coherent
store, it comes to a coherent store that keeps all texts, with a result that stands for it.

## Main definitions

* `Store.TextOf` — the text of a value.
* `Script.Loaded` — a script with values in the place of its fixed texts.
* `Store.ReadsAs` — the form is what reading the text gives.
* `Store.WrittenAs` — the text is how the form is written.
* `Store.Coherent` — the texts of a store.
* `StoreM.Denotes` — what a computation stands for on texts.

## Main results

* `StoreM.Denotes.bind`, `StoreM.Denotes.getBind`, `StoreM.Denotes.mapM` — computations made of
  others.
* `Store.denotes_alloc` — making a value, `Store.denotes_text` — asking for a text,
  `Store.denotes_cache` — keeping a form.
-/

set_option autoImplicit false

namespace CommandScript

/-! ## Texts and forms -/

/-- The text of the value is `t`, where `τ` are the texts of the cells in order. -/
def Store.TextOf (τ : List String) (r : Ref) (t : String) : Prop :=
  τ[r.index]? = some t

open Store (TextOf)

namespace Script

mutual

/-- The word with values in the place of its fixed texts. -/
inductive LoadedWord (τ : List String) : Word Ref → Word String → Prop
  | literal {r : Ref} {t : String} (h : TextOf τ r t) : LoadedWord τ (.literal r) (.literal t)
  | var (name : String) : LoadedWord τ (.var name) (.var name)
  | substitution {commands : List (List (Word Ref))} {script : List (List (Word String))}
    (h : Loaded τ commands script) : LoadedWord τ (.substitution commands) (.substitution script)
  | joined {parts : List (Word Ref)} {words : List (Word String)} (h : LoadedWords τ parts words) :
    LoadedWord τ (.joined parts) (.joined words)

/-- The words with values in the place of their fixed texts. -/
inductive LoadedWords (τ : List String) : List (Word Ref) → List (Word String) → Prop
  | nil : LoadedWords τ [] []
  | cons {w : Word Ref} {w' : Word String} {ws : List (Word Ref)} {ws' : List (Word String)}
    (h : LoadedWord τ w w') (hs : LoadedWords τ ws ws') : LoadedWords τ (w :: ws) (w' :: ws')

/-- The script with values in the place of its fixed texts. -/
inductive Loaded (τ : List String) : List (List (Word Ref)) → List (List (Word String)) → Prop
  | nil : Loaded τ [] []
  | cons {c : List (Word Ref)} {c' : List (Word String)} {cs : List (List (Word Ref))}
    {cs' : List (List (Word String))} (h : LoadedWords τ c c') (hs : Loaded τ cs cs') :
    Loaded τ (c :: cs) (c' :: cs')

end

end Script

namespace Store

/-- The form is what reading the text gives. -/
def ReadsAs (τ : List String) (t : String) : Rep → Prop
  | .none => True
  | .int n => readInt? t = some n
  | .long n => readLong? t = some n
  | .float _ => False
  | .list items => ∃ texts, ListText.read t = .ok texts ∧ List.Forall₂ (TextOf τ) items.toList texts
  | .hash entries => ∃ table, HashText.read t = .ok table ∧ entries.Related (TextOf τ) table
  | .script commands => ∃ script, Script.read t = .done script ∧ Script.Loaded τ commands script
  | .object _ => False

/-- The text is how the form is written. -/
def WrittenAs (τ : List String) (t : String) : Rep → Prop
  | .none | .script _ => t = ""
  | .int n => t = Number.writeInteger n.toInt
  | .long n => t = Number.writeInteger n.toInt
  | .float x => t = Number.writeFloat x
  | .list items => ∃ texts, List.Forall₂ (TextOf τ) items.toList texts ∧ t = ListText.write texts
  | .hash entries => ∃ table, entries.Related (TextOf τ) table ∧ t = HashText.write table
  | .object _ => False

/-- The store has no objects, `τ` are the texts of its values, and the form of each value is what
reading its text gives. A value whose text is not known yet has parts that are older than it. -/
structure Coherent (s : Store) (τ : List String) : Prop where
  /-- There are no objects. -/
  objects : s.objects = #[]
  /-- There is a text for each cell. -/
  length : τ.length = s.cells.size
  /-- The form of a value is what reading its text gives. -/
  form : ∀ r t, TextOf τ r t → ReadsAs τ t (s.cell r).rep
  /-- The text of a value is known, or it is how its form is written. -/
  text : ∀ r t, TextOf τ r t → (s.cell r).text = some t ∨
    (s.cell r).text = none ∧ WrittenAs (τ.take r.index) t (s.cell r).rep

/-! ## More texts -/

/-- A value has its text when there are more texts. -/
lemma TextOf.mono {τ τ' : List String} (h : τ <+: τ') {r : Ref} {t : String} (ht : TextOf τ r t) :
    TextOf τ' r t := by
  obtain ⟨ρ, rfl⟩ := h
  obtain ⟨hlt, -⟩ := List.getElem?_eq_some_iff.1 ht
  unfold TextOf at ht ⊢
  rw [List.getElem?_append_left hlt, ht]

/-- A value that has a text is among those there are. -/
lemma TextOf.lt {τ : List String} {r : Ref} {t : String} (h : TextOf τ r t) :
    r.index < τ.length :=
  (List.getElem?_eq_some_iff.1 h).1

/-- A value has one text. -/
lemma textOf_rightUnique (τ : List String) : Relator.RightUnique (TextOf τ) :=
  fun _ _ _ h h' => Option.some.inj (h.symm.trans h')

end Store

namespace Script

variable {τ τ' : List String}

mutual

/-- A word stands for what it did when there are more texts. -/
theorem LoadedWord.mono (hτ : τ <+: τ') :
    ∀ {w : Word Ref} {w' : Word String}, LoadedWord τ w w' → LoadedWord τ' w w'
  | _, _, .literal h => .literal (h.mono hτ)
  | _, _, .var name => .var name
  | _, _, .substitution h => .substitution (h.mono hτ)
  | _, _, .joined h => .joined (h.mono hτ)

/-- So do the words of a command. -/
theorem LoadedWords.mono (hτ : τ <+: τ') :
    ∀ {ws : List (Word Ref)} {ws' : List (Word String)}, LoadedWords τ ws ws' →
      LoadedWords τ' ws ws'
  | _, _, .nil => .nil
  | _, _, .cons h hs => .cons (h.mono hτ) (hs.mono hτ)

/-- So does a script. -/
theorem Loaded.mono (hτ : τ <+: τ') :
    ∀ {cs : List (List (Word Ref))} {cs' : List (List (Word String))}, Loaded τ cs cs' →
      Loaded τ' cs cs'
  | _, _, .nil => .nil
  | _, _, .cons h hs => .cons (h.mono hτ) (hs.mono hτ)

end

end Script

namespace Store

/-- A text is read as a form when there are more texts. -/
lemma ReadsAs.mono {τ τ' : List String} (hτ : τ <+: τ') {t : String} {rep : Rep}
    (h : ReadsAs τ t rep) : ReadsAs τ' t rep := by
  cases rep with
  | none => trivial
  | int n => exact h
  | long n => exact h
  | float x => exact h
  | list items =>
    obtain ⟨texts, hread, htexts⟩ := h
    exact ⟨texts, hread, htexts.imp fun _ _ ht => ht.mono hτ⟩
  | hash entries =>
    obtain ⟨table, hread, htable⟩ := h
    exact ⟨table, hread, htable.mono fun _ _ ht => ht.mono hτ⟩
  | script commands =>
    obtain ⟨script, hread, hscript⟩ := h
    exact ⟨script, hread, hscript.mono hτ⟩
  | object o => exact h

/-- A form is written as its text when there are more texts. -/
lemma WrittenAs.mono {τ τ' : List String} (hτ : τ <+: τ') {t : String} {rep : Rep}
    (h : WrittenAs τ t rep) : WrittenAs τ' t rep := by
  cases rep with
  | none => exact h
  | int n => exact h
  | long n => exact h
  | float x => exact h
  | list items =>
    obtain ⟨texts, htexts, rfl⟩ := h
    exact ⟨texts, htexts.imp fun _ _ ht => ht.mono hτ, rfl⟩
  | hash entries =>
    obtain ⟨table, htable, rfl⟩ := h
    exact ⟨table, htable.mono fun _ _ ht => ht.mono hτ, rfl⟩
  | script commands => exact h
  | object o => exact h

end Store

open Store (Coherent ReadsAs WrittenAs)

/-! ## What computations stand for -/

namespace StoreM

variable {α β γ δ : Type} {τ : List String}

/-- The result is the thing itself. -/
def Exactly (_ : List String) (a b : α) : Prop :=
  a = b

/-- The results stand for the things, one by one. -/
def Each (K : List String → α → β → Prop) (τ : List String) : List α → List β → Prop :=
  List.Forall₂ (K τ)

/-- What stands for something still does when there are more texts. -/
def Lasting (K : List String → α → β → Prop) : Prop :=
  ∀ ⦃τ τ' : List String⦄, τ <+: τ' → ∀ ⦃a b⦄, K τ a b → K τ' a b

/-- From any store with the texts `τ`, the computation comes to a store that has these texts and
perhaps more, with a result that stands for `b`. -/
def Denotes (τ : List String) (K : List String → α → β → Prop) (m : StoreM α) (b : β) : Prop :=
  ∀ s, Coherent s τ → ∃ τ', τ <+: τ' ∧ Coherent (m s).2 τ' ∧ K τ' (m s).1 b

variable {K : List String → α → β → Prop} {L : List String → γ → δ → Prop}

/-- Texts last. -/
lemma lasting_textOf : Lasting Store.TextOf :=
  fun _ _ hτ _ _ h => h.mono hτ

/-- What lasts for each thing lasts for all. -/
lemma Lasting.each (hK : Lasting K) : Lasting (Each K) :=
  fun _ _ hτ _ _ h => h.imp fun _ _ hab => hK hτ hab

/-- A result that is there already stands for what it stands for. -/
lemma Denotes.pure {a : α} {b : β} (h : K τ a b) : Denotes τ K (Pure.pure a) b :=
  fun _ hs => ⟨τ, List.prefix_rfl, hs, h⟩

/-- One thing after another stands for what comes of both. -/
lemma Denotes.bind {m : StoreM α} {f : α → StoreM γ} {b : β} {d : δ} (hm : Denotes τ K m b)
    (hf : ∀ τ' a, τ <+: τ' → K τ' a b → Denotes τ' L (f a) d) : Denotes τ L (m >>= f) d := by
  intro s hs
  obtain ⟨τ', hτ', hs', hab⟩ := hm s hs
  obtain ⟨τ'', hτ'', hs'', hcd⟩ := hf τ' (m s).1 hτ' hab (m s).2 hs'
  exact ⟨τ'', hτ'.trans hτ'', hs'', hcd⟩

/-- A look at the store. -/
lemma Denotes.getBind {f : Store → StoreM γ} {d : δ}
    (hf : ∀ s, Coherent s τ → Denotes τ L (f s) d) : Denotes τ L (get >>= f) d :=
  fun s hs => hf s hs s hs

/-- What is done for each of many things stands for what comes of each. -/
lemma Denotes.mapM {f : α → StoreM γ} {L : List String → γ → β → Prop} (hK : Lasting K)
    (hL : Lasting L) {as : List α} {bs : List β} (h : Each K τ as bs)
    (hf : ∀ τ' a b, τ <+: τ' → K τ' a b → Denotes τ' L (f a) b) :
    Denotes τ (Each L) (as.mapM f) bs := by
  induction as generalizing τ bs with
  | nil =>
    cases h
    exact .pure .nil
  | cons a as ih =>
    cases h with
    | @cons _ b _ bs hab hrest =>
      rw [List.mapM_cons]
      refine (hf τ a b List.prefix_rfl hab).bind fun τ₁ c h₁ hc => ?_
      have hrest₁ : Each K τ₁ as bs := hK.each h₁ hrest
      have hf₁ := fun τ' a b h' hab => hf τ' a b (h₁.trans h') hab
      exact (ih hrest₁ hf₁).bind fun τ₂ cs h₂ hcs => .pure (.cons (hL h₂ hc) hcs)

/-- To be the thing itself lasts. -/
lemma lasting_exactly : Lasting (Exactly (α := α)) :=
  fun _ _ _ _ _ h => h

/-- Things that are the same one by one are the same. -/
lemma each_exactly_iff {as bs : List α} : Each Exactly τ as bs ↔ as = bs := by
  unfold Each Exactly
  rw [List.forall₂_eq_eq_eq]

/-- What is done for each of many things comes to the same, if each does. -/
lemma Denotes.mapM_exactly {f : α → StoreM β} (hK : Lasting K) {as : List α} {bs : List β}
    (h : Each K τ as bs) (hf : ∀ τ' a b, τ <+: τ' → K τ' a b → Denotes τ' Exactly (f a) b) :
    Denotes τ Exactly (as.mapM f) bs := by
  intro s hs
  obtain ⟨τ', hτ', hs', heach⟩ := Denotes.mapM hK lasting_exactly h hf s hs
  exact ⟨τ', hτ', hs', each_exactly_iff.1 heach⟩

end StoreM

open StoreM

namespace Store

variable {τ : List String} {r : Ref} {t : String}

/-! ## Making and changing cells -/

/-- Only the cell at hand is changed. -/
lemma cell_modify (f : Cell → Cell) {s : Store} {r : Ref} (hr : r.index < s.cells.size) (q : Ref) :
    ({ s with cells := s.cells.modify r.index f } : Store).cell q =
      if q = r then f (s.cell r) else s.cell q := by
  simp only [cell, Array.getElem?_modify]
  by_cases hq : q = r
  · subst hq
    simp [hr]
  · have hindex : ¬ r.index = q.index := by
      intro h
      apply hq
      cases q
      cases r
      simp_all
    simp [hq, hindex]

/-- After one more text, a value has the text that it had, or it is the new one. -/
lemma textOf_concat {u : String} (h : TextOf (τ ++ [t]) r u) :
    (r.index ≠ τ.length ∧ TextOf τ r u) ∨ r.index = τ.length ∧ u = t := by
  unfold TextOf at h ⊢
  by_cases hnew : r.index = τ.length
  · rw [hnew, List.getElem?_concat_length] at h
    exact .inr ⟨hnew, (Option.some.inj h).symm⟩
  · have hlt := (List.getElem?_eq_some_iff.1 h).1
    rw [List.length_append, List.length_singleton] at hlt
    rw [List.getElem?_append_left (by omega)] at h
    exact .inl ⟨hnew, h⟩

/-- **Making a value.** Its text is known, or its form is written so; and its form is what reading
the text gives. -/
lemma denotes_alloc {c : Cell} (hform : ReadsAs τ t c.rep)
    (htext : c.text = some t ∨ c.text = none ∧ WrittenAs τ t c.rep) :
    Denotes τ TextOf (alloc c) t := by
  intro s hs
  have hprefix : τ <+: τ ++ [t] := List.prefix_append τ [t]
  refine ⟨τ ++ [t], hprefix, ⟨hs.objects, ?_, fun r u hr => ?_, fun r u hr => ?_⟩, ?_⟩
  · simp [alloc, hs.length]
  · rw [cell_alloc, ← hs.length]
    obtain ⟨hold, hr⟩ | ⟨hnew, rfl⟩ := textOf_concat hr
    · rw [if_neg hold]
      exact (hs.form r u hr).mono hprefix
    · rw [if_pos hnew]
      exact hform.mono hprefix
  · rw [cell_alloc, ← hs.length]
    obtain ⟨hold, hr⟩ | ⟨hnew, rfl⟩ := textOf_concat hr
    · rw [if_neg hold, List.take_append_of_le_length (Nat.le_of_lt hr.lt)]
      exact hs.text r u hr
    · rw [if_pos hnew, hnew, List.take_left]
      exact htext
  · change (τ ++ [t])[s.cells.size]? = some t
    rw [← hs.length, List.getElem?_concat_length]

/-- A cell may be replaced by one that knows the text and has a form that reading it gives. -/
lemma Coherent.modify {s : Store} {f : Cell → Cell} (hs : Coherent s τ) (hr : TextOf τ r t)
    (hform : ReadsAs τ t (f (s.cell r)).rep) (htext : (f (s.cell r)).text = some t) :
    Coherent { s with cells := s.cells.modify r.index f } τ := by
  have hvalid : r.index < s.cells.size := hs.length ▸ hr.lt
  refine ⟨hs.objects, by simp [hs.length], fun q u hq => ?_, fun q u hq => ?_⟩
  · rw [cell_modify f hvalid]
    split
    next heq =>
      subst heq
      exact textOf_rightUnique τ hr hq ▸ hform
    next => exact hs.form q u hq
  · rw [cell_modify f hvalid]
    split
    next heq =>
      subst heq
      exact .inl (textOf_rightUnique τ hr hq ▸ htext)
    next => exact hs.text q u hq

/-- To fix the text that a value has makes no difference. -/
lemma denotes_fixText (hr : TextOf τ r t) : Denotes τ Exactly (fixText r t) () :=
  fun _ hs => ⟨τ, List.prefix_rfl, hs.modify hr (hs.form r t hr) rfl, rfl⟩

/-! ## Texts -/

/-- Writing a form gives the text that it is written as, if asking for the texts of its parts gives
these. -/
lemma denotes_writeRep {ρ : List String} {rep : Rep} {f : Ref → StoreM String}
    (hf : ∀ τ' r t, τ <+: τ' → TextOf ρ r t → Denotes τ' Exactly (f r) t)
    (hw : WrittenAs ρ t rep) : Denotes τ Exactly (writeRep f rep) t := by
  have hparts : ∀ {rs : List Ref} {texts : List String}, List.Forall₂ (TextOf ρ) rs texts →
      Denotes τ Exactly (rs.mapM f) texts := fun h =>
    .mapM_exactly (K := fun _ => TextOf ρ) (fun _ _ _ _ _ hr => hr) h hf
  cases rep with
  | none => exact .pure hw.symm
  | int n => exact .pure hw.symm
  | long n => exact .pure hw.symm
  | float x => exact .pure hw.symm
  | list items =>
    obtain ⟨texts, htexts, rfl⟩ := hw
    exact (hparts htexts).bind fun _ texts' _ h => .pure (congrArg ListText.write h)
  | hash entries =>
    obtain ⟨table, htable, rfl⟩ := hw
    refine (hparts htable.values).bind fun _ texts' _ h => .pure (congrArg HashText.write ?_)
    rw [show texts' = table.values from h, Table.withValues_values htable.keys_eq]
  | script commands => exact .pure hw.symm
  | object o => exact hw.elim

/-- Asking for a text gives it, if it goes down far enough.

**Proof sketch.** Induction on how far it goes down. If the text is not known, it is how the form is
written, and the parts of the form are older: going down from them, one step less is enough. -/
lemma denotes_textWithin {fuel : Nat} (hr : TextOf τ r t) (hfuel : r.index < fuel) :
    Denotes τ Exactly (textWithin fuel r) t := by
  induction fuel generalizing τ r t with
  | zero => omega
  | succ fuel ih =>
    unfold textWithin
    refine .getBind fun s hs => ?_
    dsimp only
    obtain hknown | ⟨hunknown, hwritten⟩ := hs.text r t hr
    · rw [hknown]
      exact .pure rfl
    · rw [hunknown]
      have hparts : ∀ τ' q u, τ <+: τ' → TextOf (τ.take r.index) q u →
          Denotes τ' Exactly (textWithin fuel q) u := by
        intro τ' q u hτ' hq
        have holder := hq.lt
        rw [List.length_take] at holder
        exact ih ((hq.mono (List.take_prefix _ _)).mono hτ') (by omega)
      refine (denotes_writeRep hparts hwritten).bind fun τ₁ text h₁ htext => ?_
      obtain rfl : text = t := htext
      exact (denotes_fixText (hr.mono h₁)).bind fun τ₂ _ _ _ => .pure rfl

/-- **Asking for the text of a value gives it.** -/
lemma denotes_text (hr : TextOf τ r t) : Denotes τ Exactly (text r) t :=
  denotes_textWithin hr (Nat.lt_succ_self _)

/-- The texts of values are the texts that they have. -/
lemma denotes_texts {rs : List Ref} {texts : List String} (h : Each TextOf τ rs texts) :
    Denotes τ Exactly (Store.texts rs) texts :=
  .mapM_exactly lasting_textOf h fun _ _ _ _ hr => denotes_text hr

/-- The text of a list is written from the texts of its elements. -/
lemma denotes_listText {rs : List Ref} {texts : List String} (h : Each TextOf τ rs texts) :
    Denotes τ Exactly (listText rs) (ListText.write texts) :=
  (denotes_texts h).bind fun _ _ _ htexts => .pure (congrArg ListText.write htexts)

/-! ## Keeping a form -/

/-- A text that is known is given; else the form is written, and the text is known from then on. -/
lemma text_apply (r : Ref) (s : Store) :
    text r s = match (s.cell r).text with
      | some t => (t, s)
      | none =>
        let written := writeRep (textWithin r.index) (s.cell r).rep s
        (written.1, (fixText r written.1 written.2).2) := by
  change (match (s.cell r).text with
    | some text => (Pure.pure text : StoreM String)
    | none => do
      let text ← writeRep (textWithin r.index) (s.cell r).rep
      fixText r text
      return text) s = _
  cases (s.cell r).text with
  | some t => rfl
  | none => rfl

/-- A text that was asked for is known. -/
lemma cell_text_text (r : Ref) (s : Store) : ((text r s).2.cell r).text = some (text r s).1 := by
  rw [text_apply]
  cases htext : (s.cell r).text with
  | some t => exact htext
  | none =>
    -- only cells that are there have an unknown text
    have hvalid : r.index < s.cells.size := by
      by_contra h
      rw [cell, Array.getElem?_eq_none (by omega)] at htext
      cases htext
    have hgrown := (grows_writeRep (grows_textWithin r.index) (s.cell r).rep s).cells
    change (Store.cell { cells := Array.modify _ r.index _, objects := _ } r).text = _
    rw [cell_modify _ (by omega), if_pos rfl]

/-- A value with a text wraps no object. -/
lemma Coherent.objectOf?_eq_none {s : Store} (hs : Coherent s τ) (hr : TextOf τ r t) :
    s.objectOf? r = none := by
  have hform := hs.form r t hr
  unfold objectOf?
  split
  next o ho =>
    rw [ho] at hform
    exact hform.elim
  · rfl

/-- The form of a value that wraps no object is replaced once its text is known. -/
lemma cache_apply {rep : Rep} {s : Store} (h : (text r s).2.objectOf? r = none) :
    cache r rep s = setRep r rep (text r s).2 := by
  unfold cache
  simp only [bind, StateT.bind, get, getThe, MonadStateOf.get, StateT.get, pure]
  generalize text r s = known at h ⊢
  obtain ⟨t, s'⟩ := known
  simp only [h]

/-- **Keeping a form** that reading the text gives changes no text. -/
lemma denotes_cache {rep : Rep} (hr : TextOf τ r t) (hrep : ReadsAs τ t rep) :
    Denotes τ Exactly (cache r rep) () := by
  intro s hs
  obtain ⟨τ', hτ', hs', htext⟩ := denotes_text hr s hs
  have hr' := hr.mono hτ'
  rw [cache_apply (hs'.objectOf?_eq_none hr')]
  refine ⟨τ', hτ', hs'.modify hr' (hrep.mono hτ') ?_, rfl⟩
  rw [← show (text r s).1 = t from htext]
  exact cell_text_text r s

end Store

end CommandScript
