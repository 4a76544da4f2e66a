import CommandScript.Proofs.Value.Additions

/-!
# The text of a value, read off the store

Asking for the text of a value writes it down, and the texts of its parts too. But what will be
written can be read off the store before: it is the text that is known, or how the form is written,
the parts being worded in the same way.

In the same way it can be said what a conversion may do. It makes texts known, it makes new values,
and it may give the value another form, whose parts are new. All other values are held as before,
and all values are worded as before. The texts that it makes known need not be texts of parts: a
procedure is written with the texts that it was made from, and these may be part of other values.

A text that is not known can be read off where what a value is written with is older than the
value. What a value holds is left alone by what is done to other values only if, besides, no value
is part of itself. There is a rank then, which goes down from a value to its parts. Age is not such
a rank: the parts that a conversion gives to a value are younger than the value.

## Main definitions

* `Store.wording` — the text of a value, without asking for it.
* `Store.Founded` — values whose texts are not known are written with older values.
* `Store.Orderly` — founded stores in which no value is part of itself.
* `Store.Told` — what asking for texts may do.
* `Store.Casts` — what a conversion may do.

## Main results

* `Store.SameWording.wording_eq` — when values are worded as before.
* `Store.tells_text` — asking for the text of a value gives its wording.
* `Store.casts_apply` — what a conversion does.
* `Store.Casts.orderly`, `Store.Casts.wording_eq` — conversions keep stores orderly, and texts.
-/

set_option autoImplicit false

namespace CommandScript

namespace Store

/-! ## Wordings -/

/-- How an object is written, given how values are worded. -/
def writtenObject (f : Ref → String) : Option Object → String
  | none => ""
  | some (.native n) => n.write
  | some (.procedure p) => ListText.write ([p.spec, p.body].map f)

/-- How a form is written, given how values are worded. -/
def writtenForm (s : Store) (f : Ref → String) : Rep → String
  | .none | .script _ => ""
  | .int n => Number.writeInteger n.toInt
  | .long n => Number.writeInteger n.toInt
  | .float x => Number.writeFloat x
  | .list items => ListText.write (items.toList.map f)
  | .hash entries => HashText.write (entries.withValues (entries.values.map f))
  | .object o => writtenObject f (s.object? o)

/-- The text of a value, going down at most `fuel` cells. -/
def wordingWithin (s : Store) : Nat → Ref → String
  | 0, _ => ""
  | fuel + 1, r => (s.cell r).text.getD (s.writtenForm (s.wordingWithin fuel) (s.cell r).rep)

/-- The text that a value has: the one that is known, or how its form is written. -/
def wording (s : Store) (r : Ref) : String :=
  s.wordingWithin (r.index + 1) r

/-! ## Founded and orderly stores -/

/-- The values that a form is written with: its parts, and what a procedure is made of. -/
def sources (s : Store) : Rep → List Ref
  | .object o =>
    match s.object? o with
    | some (.procedure p) => [p.spec, p.body]
    | _ => []
  | rep => rep.parts

/-- Objects that are wrapped are there, and a value whose text is not known is written with values
that are older than it. -/
structure Founded (s : Store) : Prop where
  /-- The object that a value wraps is there. -/
  wrapped : ∀ r o, (s.cell r).rep = .object o → ∃ x, s.object? o = some x
  /-- What a value is written with, its text not being known, is older. -/
  older : ∀ r, (s.cell r).text = none → ∀ e ∈ s.sources (s.cell r).rep, e.index < r.index

/-- Besides, no value is part of itself: there is a *rank* that the parts of a value have less of,
and that is less than the number of values. -/
structure Orderly (s : Store) : Prop extends Founded s where
  /-- The parts of a value are there, and have a smaller rank. -/
  ranked : ∃ rank : Ref → Nat, ∀ r, r.index < s.cells.size → rank r < s.cells.size ∧
    ∀ e ∈ (s.cell r).rep.parts, e.index < s.cells.size ∧ rank e < rank r

section Wording

variable {s t : Store} {r q : Ref}

/-- A form is written with its parts. -/
lemma mem_sources_of_mem_parts {rep : Rep} {e : Ref} (he : e ∈ rep.parts) : e ∈ s.sources rep := by
  cases rep with
  | object o => cases he
  | _ => exact he

/-- How a form is written depends on what it is written with only. -/
lemma writtenForm_congr {f g : Ref → String} {rep : Rep} (hf : ∀ e ∈ s.sources rep, f e = g e)
    (hobject : ∀ o, rep = .object o → ∃ x, s.object? o = some x)
    (hobjects : ∀ o x, s.object? o = some x → t.object? o = some x) :
    s.writtenForm f rep = t.writtenForm g rep := by
  cases rep with
  | list items => exact congrArg ListText.write (List.map_congr_left hf)
  | hash entries =>
    exact congrArg (fun texts => HashText.write (entries.withValues texts)) (List.map_congr_left hf)
  | object o =>
    obtain ⟨x, hx⟩ := hobject o rfl
    rw [sources, hx] at hf
    simp only [writtenForm, hobjects o _ hx, hx]
    cases x with
    | native n => rfl
    | procedure p => exact congrArg ListText.write (List.map_congr_left hf)
  | _ => rfl

/-- A text that is known is how the value is worded. -/
lemma wordingWithin_of_text {text : String} (h : (s.cell r).text = some text) (fuel : Nat) :
    s.wordingWithin (fuel + 1) r = text := by
  rw [wordingWithin, h, Option.getD_some]

/-- A value whose text is not known is worded as its form is written. -/
lemma wordingWithin_of_none (h : (s.cell r).text = none) (fuel : Nat) :
    s.wordingWithin (fuel + 1) r = s.writtenForm (s.wordingWithin fuel) (s.cell r).rep := by
  rw [wordingWithin, h, Option.getD_none]

/-- Going down far enough, it does not matter how far.

**Proof sketch.** Induction on how far it goes down: the parts of a value whose text is not known
are older than it. -/
lemma Founded.wordingWithin_eq_wordingWithin (hs : s.Founded) {fuel fuel' : Nat}
    (h : r.index < fuel) (h' : r.index < fuel') :
    s.wordingWithin fuel r = s.wordingWithin fuel' r := by
  induction fuel generalizing r fuel' with
  | zero => exact absurd h (Nat.not_lt_zero _)
  | succ fuel ih =>
    obtain ⟨fuel', rfl⟩ := Nat.exists_eq_add_one_of_ne_zero (Nat.ne_zero_of_lt h')
    cases htext : (s.cell r).text with
    | some text => rw [wordingWithin_of_text htext, wordingWithin_of_text htext]
    | none =>
      rw [wordingWithin_of_none htext, wordingWithin_of_none htext]
      refine writtenForm_congr (fun e he => ?_) (hs.wrapped r) fun _ _ => id
      have holder : e.index < r.index := hs.older r htext e he
      exact ih (by omega) (by omega)

/-- There is fuel enough for a value that is not too young. -/
lemma Founded.wordingWithin_eq (hs : s.Founded) {fuel : Nat} (h : r.index < fuel) :
    s.wordingWithin fuel r = s.wording r :=
  hs.wordingWithin_eq_wordingWithin h (Nat.lt_succ_self _)

/-- A text that is known is how the value is worded, whatever fuel there is. -/
lemma wording_of_text {text : String} (h : (s.cell r).text = some text) : s.wording r = text :=
  wordingWithin_of_text h _

/-- **A text that is not known is how the form is written**, the parts being worded so. -/
lemma Founded.wording_of_none (hs : s.Founded) (h : (s.cell r).text = none) :
    s.wording r = s.writtenForm s.wording (s.cell r).rep := by
  rw [wording, wordingWithin_of_none h]
  refine writtenForm_congr (fun e he => ?_) (hs.wrapped r) fun _ _ => id
  exact hs.wordingWithin_eq (hs.older r h e he)

/-- Only values that are there may have no known text. -/
lemma lt_of_text_eq_none (h : (s.cell r).text = none) : r.index < s.cells.size := by
  by_contra hge
  rw [cell_of_size_le (Nat.le_of_not_lt hge)] at h
  cases h

/-- An object is looked up among the objects only. -/
lemma object?_congr (h : t.objects = s.objects) (o : ObjectRef) : t.object? o = s.object? o := by
  rw [object?, h, object?]

/-- What a form is written with depends on the objects only. -/
lemma sources_congr (h : t.objects = s.objects) (rep : Rep) : t.sources rep = s.sources rep := by
  cases rep with
  | object o => simp only [sources, object?_congr h]
  | _ => rfl

/-- What may be known and held in the store `t` so that values are worded as in `s`: what is known
is how they are worded, and where it is not, nothing has changed. -/
structure SameWording (s t : Store) : Prop where
  /-- The objects are what they were. -/
  objects : ∀ o x, s.object? o = some x → t.object? o = some x
  /-- A text that is known is right; for a text that is not known, nothing has changed. -/
  text : ∀ q, q.index < s.cells.size →
    (t.cell q).text = some (s.wording q) ∨
      (t.cell q).text = none ∧ (s.cell q).text = none ∧ (t.cell q).rep = (s.cell q).rep

/-- Where nothing has changed, a text is right or not known. -/
lemma text_eq_or_of_cell_eq (h : t.cell q = s.cell q) :
    (t.cell q).text = some (s.wording q) ∨
      (t.cell q).text = none ∧ (s.cell q).text = none ∧ (t.cell q).rep = (s.cell q).rep := by
  rw [h]
  cases htext : (s.cell q).text with
  | some text => exact .inl (congrArg some (wording_of_text htext).symm)
  | none => exact .inr ⟨rfl, rfl, rfl⟩

/-- **Values are worded as before.**

**Proof sketch.** Induction on the age of the value: if its text is not known, its parts are older,
and there are the same parts as before. -/
lemma SameWording.wording_eq (h : SameWording s t) (hs : s.Founded) (ht : t.Founded)
    (hr : r.index < s.cells.size) : t.wording r = s.wording r := by
  induction hn : r.index using Nat.strongRecOn generalizing r with
  | ind n ih =>
    subst hn
    obtain hknown | ⟨hunknown, hunknown', hrep⟩ := h.text r hr
    · exact wording_of_text hknown
    · rw [ht.wording_of_none hunknown, hs.wording_of_none hunknown', hrep]
      refine (writtenForm_congr (fun e he => ?_) (hs.wrapped r) h.objects).symm
      have holder : e.index < r.index := hs.older r hunknown' e he
      exact (ih e.index holder (Nat.lt_trans holder hr) rfl).symm

end Wording

/-! ## What values hold -/

section Holds

variable {s t : Store} {r e q : Ref}

/-- What is held by something that is held is held. -/
lemma Holds.trans (h : s.Holds r e) (h' : s.Holds e q) : s.Holds r q := by
  induction h' with
  | itself => exact h
  | element _ hq ih => exact ih.element hq

/-- What a part holds is held. -/
lemma holds_of_part (he : e ∈ (s.cell r).rep.parts) (h : s.Holds e q) : s.Holds r q :=
  Holds.trans (.element .itself he) h

/-- What a value holds depends on the forms of what it holds. -/
lemma Holds.congr (h : s.Holds r q) (hrep : ∀ p, s.Holds r p → (t.cell p).rep = (s.cell p).rep) :
    t.Holds r q := by
  induction h with
  | itself => exact .itself
  | element he hq ih => exact ih.element (hrep _ he ▸ hq)

/-- What a value holds is there. -/
lemma Orderly.lt_of_holds (hs : s.Orderly) (hr : r.index < s.cells.size) (h : s.Holds r q) :
    q.index < s.cells.size := by
  obtain ⟨rank, hrank⟩ := hs.ranked
  induction h with
  | itself => exact hr
  | element _ hq ih => exact ((hrank _ ih).2 _ hq).1

end Holds

/-! ## Asking for texts -/

section Text

variable {P : Ref → Prop} {s t u : Store} {r : Ref}

/-- The store `t` is `s`, but for texts that are known now: texts of values of which `P` holds. -/
structure Told (P : Ref → Prop) (s t : Store) : Prop where
  /-- The objects are the same. -/
  objects : t.objects = s.objects
  /-- There are as many cells. -/
  size : t.cells.size = s.cells.size
  /-- A cell is the same, or its text is known now. -/
  cell : ∀ q, t.cell q = s.cell q ∨
    P q ∧ (s.cell q).text = none ∧ t.cell q = { s.cell q with text := some (s.wording q) }

/-- To ask for nothing tells nothing. -/
lemma Told.refl (P : Ref → Prop) (s : Store) : Told P s s :=
  ⟨rfl, rfl, fun _ => .inl rfl⟩

/-- Asking for texts keeps all forms. -/
lemma Told.rep (h : Told P s t) (q : Ref) : (t.cell q).rep = (s.cell q).rep := by
  obtain hsame | ⟨-, -, hknown⟩ := h.cell q
  · rw [hsame]
  · rw [hknown]

/-- A text that is not known now was not known before. -/
lemma Told.text_eq_none {q : Ref} (h : Told P s t) (hq : (t.cell q).text = none) :
    (s.cell q).text = none := by
  obtain hsame | ⟨-, hnone, -⟩ := h.cell q
  · rwa [hsame] at hq
  · exact hnone

/-- Asking for texts words nothing otherwise. -/
lemma Told.sameWording (h : Told P s t) : SameWording s t := by
  refine ⟨fun o _ ho => (object?_congr h.objects o).trans ho, fun q _ => ?_⟩
  obtain hsame | ⟨-, -, hknown⟩ := h.cell q
  · exact text_eq_or_of_cell_eq hsame
  · rw [hknown]
    exact .inl rfl

/-- How a value that is not there is worded is known. -/
lemma wording_of_size_le (hr : s.cells.size ≤ r.index) : s.wording r = "" :=
  wording_of_text (congrArg Cell.text (cell_of_size_le hr))

/-- A value is written from the same values as before. -/
lemma Told.sources_eq (h : Told P s t) (q : Ref) :
    t.sources (t.cell q).rep = s.sources (s.cell q).rep := by
  rw [h.rep]
  exact sources_congr h.objects _

/-- Asking for texts keeps stores founded. -/
lemma Told.founded (h : Told P s t) (hs : s.Founded) : t.Founded where
  wrapped r o hr := by
    rw [h.rep] at hr
    rw [object?_congr h.objects]
    exact hs.wrapped r o hr
  older r hr e he := by
    rw [h.sources_eq] at he
    obtain hsame | ⟨-, -, hknown⟩ := h.cell r
    · exact hs.older r (hsame ▸ hr) e he
    · rw [hknown] at hr
      cases hr

/-- Values are worded as before when texts have been asked for. -/
lemma Told.wording_eq (h : Told P s t) (hs : s.Founded) (r : Ref) :
    t.wording r = s.wording r := by
  by_cases hr : r.index < s.cells.size
  · exact h.sameWording.wording_eq hs (h.founded hs) hr
  · have hge : s.cells.size ≤ r.index := Nat.le_of_not_lt hr
    rw [wording_of_size_le hge, wording_of_size_le (h.size ▸ hge)]

/-- Texts may be asked for one after the other. -/
lemma Told.trans (h : Told P s t) (h' : Told P t u) (hs : s.Founded) : Told P s u where
  objects := h'.objects.trans h.objects
  size := h'.size.trans h.size
  cell q := by
    obtain hsame' | ⟨hP, hnone, hknown⟩ := h'.cell q
    · rw [hsame']
      exact h.cell q
    · obtain hsame | ⟨-, -, hknown'⟩ := h.cell q
      · rw [hsame, h.wording_eq hs] at hknown
        rw [hsame] at hnone
        exact .inr ⟨hP, hnone, hknown⟩
      · rw [hknown'] at hnone
        cases hnone

/-- The computation comes to `a`, and nothing happens but that texts of values of which `P` holds
are known now. -/
def Tells {α : Type} (P : Ref → Prop) (s : Store) (a : α) (result : α × Store) : Prop :=
  result.1 = a ∧ Told P s result.2

/-- The texts of many values are how each of them is worded. -/
lemma tells_mapM {f : Ref → StoreM String} {g : Ref → String} (hs : s.Founded) (rs : List Ref)
    (hf : ∀ r ∈ rs, ∀ t, Told P s t → Tells P t (g r) (f r t)) :
    Tells P s (rs.map g) (rs.mapM f s) := by
  induction rs generalizing s with
  | nil => exact ⟨rfl, .refl P s⟩
  | cons r rs ih =>
    have hfirst := hf r List.mem_cons_self s (.refl P s)
    have hrest := ih (hfirst.2.founded hs) fun q hq t ht =>
      hf q (List.mem_cons_of_mem r hq) t (hfirst.2.trans ht hs)
    rw [StoreM.mapM_cons_apply]
    exact ⟨congrArg₂ List.cons hfirst.1 hrest.1, hfirst.2.trans hrest.2 hs⟩

/-- Writing a form asks for the texts of what it is written with. -/
lemma tells_writeRep {f : Ref → StoreM String} {g : Ref → String} {rep : Rep} (hs : s.Founded)
    (hobject : ∀ o, rep = .object o → ∃ x, s.object? o = some x)
    (hf : ∀ e ∈ s.sources rep, ∀ t, Told P s t → Tells P t (g e) (f e t)) :
    Tells P s (s.writtenForm g rep) (writeRep f rep s) := by
  cases rep with
  | list items =>
    obtain ⟨htexts, htold⟩ := tells_mapM hs items.toList hf
    exact ⟨congrArg ListText.write htexts, htold⟩
  | hash entries =>
    obtain ⟨htexts, htold⟩ := tells_mapM hs entries.values hf
    exact ⟨congrArg (fun texts => HashText.write (entries.withValues texts)) htexts, htold⟩
  | object o =>
    obtain ⟨x, hx⟩ := hobject o rfl
    rw [sources, hx] at hf
    rw [writtenForm, hx]
    change Tells P s _ (displayWith f o s)
    unfold displayWith
    rw [hx]
    cases x with
    | native n => exact ⟨rfl, .refl P s⟩
    | procedure p =>
      obtain ⟨htexts, htold⟩ := tells_mapM hs [p.spec, p.body] hf
      exact ⟨congrArg ListText.write htexts, htold⟩
  | _ => exact ⟨rfl, .refl P s⟩

/-- A text that is not known is written down. -/
lemma told_fixText (h : Told P s t) (hP : P r) (hr : (s.cell r).text = none) :
    Told P s (fixText r (s.wording r) t).2 where
  objects := h.objects
  size := (rewords_fixText r (s.wording r) t).size.trans h.size
  cell q := by
    have hvalid : r.index < t.cells.size := h.size ▸ lt_of_text_eq_none hr
    change Store.cell { t with cells := t.cells.modify r.index _ } q = _ ∨
      _ ∧ _ ∧ Store.cell { t with cells := t.cells.modify r.index _ } q = _
    rw [cell_modify _ hvalid]
    split
    next heq =>
      subst heq
      refine .inr ⟨hP, hr, ?_⟩
      obtain hsame | ⟨-, -, hknown⟩ := h.cell q
      · rw [hsame]
      · rw [hknown]
    next => exact h.cell q

/-- Asking for a text gives the wording, and makes texts known of what the value is written with.

**Proof sketch.** Induction on how far it goes down. If the text is not known, the texts of what the
value is written with are asked for one after another; it is older than the value, and `P` holds of
it if it does of the value. -/
lemma tells_textWithin (hs : s.Founded) {fuel : Nat} (hr : P r)
    (hP : ∀ q, P q → (s.cell q).text = none → ∀ e ∈ s.sources (s.cell q).rep, P e)
    (h : r.index < fuel) :
    Tells P s (s.wording r) (textWithin fuel r s) := by
  induction fuel generalizing r s with
  | zero => exact absurd h (Nat.not_lt_zero _)
  | succ fuel ih =>
    unfold textWithin
    rw [StoreM.getBind_apply]
    cases htext : (s.cell r).text with
    | some text => exact ⟨(wording_of_text htext).symm, .refl P s⟩
    | none =>
      have hparts : ∀ e ∈ s.sources (s.cell r).rep, ∀ t, Told P s t →
          Tells P t (s.wording e) (textWithin fuel e t) := by
        intro e he t ht
        have holder : e.index < r.index := hs.older r htext e he
        rw [← ht.wording_eq hs]
        refine ih (ht.founded hs) (hP r hr htext e he) (fun q hq hnone => ?_) (by omega)
        rw [ht.sources_eq]
        exact hP q hq (ht.text_eq_none hnone)
      obtain ⟨hwritten, htold⟩ := tells_writeRep hs (hs.wrapped r) hparts
      have hword : (writeRep (textWithin fuel) (s.cell r).rep s).1 = s.wording r :=
        hwritten.trans (hs.wording_of_none htext).symm
      have hlast := told_fixText htold hr htext
      rw [← hword] at hlast
      exact ⟨hword, hlast⟩

/-- **Asking for a text gives the wording**, and makes texts known at most. -/
lemma tells_text (hs : s.Founded) (r : Ref) :
    Tells (fun _ => True) s (s.wording r) (text r s) :=
  tells_textWithin hs trivial (fun _ _ _ _ _ => trivial) (Nat.lt_succ_self _)

/-- No text is made known of what is younger than the value. -/
lemma tells_text_of_lt (hs : s.Founded) {n : Nat} (hr : r.index < n) :
    Tells (fun q => q.index < n) s (s.wording r) (text r s) := by
  refine tells_textWithin hs hr (fun q hq hnone e he => ?_) (Nat.lt_succ_self _)
  exact Nat.lt_trans (hs.older q hnone e he) hq

/-- Asking for several texts gives their wordings. -/
lemma tells_texts (hs : s.Founded) (rs : List Ref) :
    Tells (fun _ => True) s (rs.map s.wording) (texts rs s) := by
  refine tells_mapM hs rs fun r _ t ht => ?_
  rw [← ht.wording_eq hs]
  exact tells_text (ht.founded hs) r

end Text

/-! ## Founded stores are kept -/

section Founded

variable {s : Store} {r q : Ref}

/-- The store without values is founded. -/
lemma founded_empty : Founded {} := by
  have hcell : ∀ r, (({} : Store).cell r) = blank := fun r => cell_of_size_le (Nat.zero_le _)
  refine ⟨fun r o ho => ?_, fun r hr => ?_⟩
  · rw [hcell] at ho
    cases ho
  · rw [hcell] at hr
    cases hr

/-- A new value whose text is known, or that is written with values that are there. -/
lemma Founded.alloc (hs : s.Founded) {c : Cell}
    (hsources : c.text = none → ∀ e ∈ s.sources c.rep, e.index < s.cells.size)
    (hobject : ∀ o, c.rep = .object o → ∃ x, s.object? o = some x) :
    (Store.alloc c s).2.Founded where
  wrapped r o ho := by
    rw [cell_alloc] at ho
    split at ho
    · exact hobject o ho
    · exact hs.wrapped r o ho
  older r hnone e he := by
    rw [cell_alloc] at hnone he
    split at he
    next heq =>
      rw [if_pos heq] at hnone
      exact heq.symm ▸ hsources hnone e he
    next hne =>
      rw [if_neg hne] at hnone
      exact hs.older r hnone e he

/-- A new object. -/
lemma Founded.allocObject (hs : s.Founded) (x : Object) : (Store.allocObject x s).2.Founded := by
  have hobject : ∀ r o, (s.cell r).rep = .object o →
      (Store.allocObject x s).2.object? o = s.object? o := by
    intro r o ho
    obtain ⟨y, hy⟩ := hs.wrapped r o ho
    obtain ⟨hlt, -⟩ := Array.getElem?_eq_some_iff.1 hy
    change (s.objects.push x)[o.index]? = s.object? o
    rw [Array.getElem?_push, if_neg (Nat.ne_of_lt hlt), object?]
  refine ⟨fun r o ho => ?_, fun r hr e he => hs.older r hr e ?_⟩
  · rw [hobject r o ho]
    exact hs.wrapped r o ho
  · change e ∈ (Store.allocObject x s).2.sources (s.cell r).rep at he
    cases hrep : (s.cell r).rep with
    | object o =>
      rw [hrep, sources, hobject r o hrep] at he
      exact he
    | _ =>
      rw [hrep] at he
      exact he

/-- An object is shared by the copy of a value, or the copy gets one of its own that is the same
now. -/
lemma exists_copyObject {o : ObjectRef} {x : Object} (ho : s.object? o = some x) :
    ∃ o' t, copyObject o s = (o', t) ∧ (t = s ∨ t = (Store.allocObject x s).2) ∧
      t.object? o = some x ∧ t.object? o' = some x := by
  unfold copyObject
  rw [ho]
  cases x with
  | procedure p => exact ⟨o, s, rfl, .inl rfl, ho, ho⟩
  | native n =>
    dsimp only
    split
    · exact ⟨⟨s.objects.size⟩, _, rfl, .inr rfl, (enlarges_allocObject _ s).object o _ ho,
        Array.getElem?_push_size⟩
    · exact ⟨o, s, rfl, .inl rfl, ho, ho⟩

/-- The copy of a value that is there is there. -/
lemma copyWithin_lt (fuel : Nat) (hr : r.index < s.cells.size) :
    (copyWithin fuel r s).1.index < (copyWithin fuel r s).2.cells.size := by
  cases fuel with
  | zero => exact hr
  | succ fuel =>
    rw [copyWithin_succ, size_alloc]
    exact Nat.lt_succ_self _

/-- Copies of several values: the store stays founded, and the copies of values that are there are
there. -/
lemma founded_mapM_copyWithin {fuel : Nat}
    (hcopy : ∀ r s, s.Founded → (copyWithin fuel r s).2.Founded) (rs : List Ref) (hs : s.Founded) :
    (rs.mapM (copyWithin fuel) s).2.Founded ∧
      ((∀ r ∈ rs, r.index < s.cells.size) →
        ∀ e ∈ (rs.mapM (copyWithin fuel) s).1,
          e.index < (rs.mapM (copyWithin fuel) s).2.cells.size) := by
  induction rs generalizing s with
  | nil => exact ⟨hs, fun _ => nofun⟩
  | cons r rs ih =>
    obtain ⟨hfounded, hthere⟩ := ih (hcopy r s hs)
    have hfirst := enlarges_copyWithin fuel r s
    have hrest := StoreM.Enlarges.mapM (enlarges_copyWithin fuel) rs (copyWithin fuel r s).2
    rw [StoreM.mapM_cons_apply]
    refine ⟨hfounded, fun hrs => List.forall_mem_cons.2 ⟨?_, hthere fun q hq => ?_⟩⟩
    · exact hrest.lt (copyWithin_lt fuel (hrs r List.mem_cons_self))
    · exact hfirst.lt (hrs q (List.mem_cons_of_mem r hq))

/-- The form of a copy: the store stays founded, what the form is written with is there if what the
form of the value is written with is there, and so are objects. -/
lemma founded_copyRep {fuel : Nat} (hcopy : ∀ r s, s.Founded → (copyWithin fuel r s).2.Founded)
    {rep : Rep} (hs : s.Founded) (hobject : ∀ o, rep = .object o → ∃ x, s.object? o = some x) :
    ∃ rep' t, copyRep (copyWithin fuel) rep s = (rep', t) ∧ t.Founded ∧
      ((∀ e ∈ s.sources rep, e.index < s.cells.size) →
        ∀ e ∈ t.sources rep', e.index < t.cells.size) ∧
      ∀ o, rep' = .object o → ∃ x, t.object? o = some x := by
  cases rep with
  | list items =>
    obtain ⟨hfounded, hthere⟩ := founded_mapM_copyWithin hcopy items.toList hs
    refine ⟨_, _, rfl, hfounded, fun hitems e he => hthere hitems e ?_, nofun⟩
    change e ∈ (Stack.ofList _).toList at he
    rwa [Stack.toList_ofList] at he
  | hash entries =>
    obtain ⟨hfounded, hthere⟩ := founded_mapM_copyWithin hcopy entries.values hs
    exact ⟨_, _, rfl, hfounded,
      fun hvalues e he => hthere hvalues e (Table.mem_values_withValues he), nofun⟩
  | object o =>
    obtain ⟨x, hx⟩ := hobject o rfl
    obtain ⟨o', t, heq, ht, -, hx'⟩ := exists_copyObject hx
    -- the copy of an object is no cell
    have hsize : t.cells.size = s.cells.size := by
      obtain rfl | rfl := ht
      · rfl
      · rfl
    refine ⟨.object o', t, ?_, ?_, fun hsources e he => ?_, ?_⟩
    · change (Rep.object (copyObject o s).1, (copyObject o s).2) = _
      rw [heq]
    · obtain rfl | rfl := ht
      · exact hs
      · exact hs.allocObject x
    · rw [sources, hx'] at he
      rw [sources, hx] at hsources
      exact hsize ▸ hsources e he
    · rintro _ ⟨⟩
      exact ⟨x, hx'⟩
  | _ => exact ⟨_, s, rfl, hs, id, nofun⟩

/-- **Copies keep stores founded**: where the text of a value is not known, what its copy is written
with is there. -/
lemma founded_copyWithin (fuel : Nat) (r : Ref) (hs : s.Founded) :
    (copyWithin fuel r s).2.Founded := by
  induction fuel generalizing r s with
  | zero => exact hs
  | succ fuel ih =>
    obtain ⟨rep, t, heq, ht, hsources, hobject⟩ :=
      founded_copyRep (fun r s => ih r) hs (hs.wrapped r)
    rw [copyWithin_succ, heq]
    refine ht.alloc (fun hnone => hsources fun e he => ?_) hobject
    exact Nat.lt_trans (hs.older r hnone e he) (lt_of_text_eq_none hnone)

/-- A variable holds the value or a copy of it. -/
lemma Founded.own (hs : s.Founded) (r : Ref) : (Store.own r s).2.Founded := by
  cases h : s.isLiteral r with
  | false => exact (own_of_not_literal h).symm ▸ hs
  | true => exact (own_of_literal h).symm ▸ founded_copyWithin _ r hs

/-- Giving a value another form changes no other value. -/
lemma cell_setRep (s : Store) (r : Ref) (rep : Rep) (q : Ref) :
    (setRep r rep s).2.cell q = s.cell q ∨
      q = r ∧ (setRep r rep s).2.cell q = { s.cell r with rep } := by
  by_cases hr : r.index < s.cells.size
  · by_cases hq : q = r
    · exact .inr ⟨hq, (cell_modify _ hr q).trans (if_pos hq)⟩
    · exact .inl ((cell_modify _ hr q).trans (if_neg hq))
  · left
    change Store.cell { s with cells := s.cells.modify r.index _ } q = _
    unfold cell
    rw [Array.getElem?_modify]
    split
    next hq =>
      rw [← hq, Array.getElem?_eq_none (Nat.le_of_not_lt hr)]
      rfl
    next => rfl

/-- A value whose text is known may be given a form that is no object. -/
lemma Founded.setRep (hs : s.Founded) (hr : (s.cell r).text ≠ none) {rep : Rep}
    (hrep : ∀ o, rep ≠ .object o) : (Store.setRep r rep s).2.Founded where
  wrapped q o ho := by
    obtain hsame | ⟨-, hgiven⟩ := cell_setRep s r rep q
    · exact hs.wrapped q o (hsame ▸ ho)
    · rw [hgiven] at ho
      exact absurd ho (hrep o)
  older q hnone e he := by
    obtain hsame | ⟨-, hgiven⟩ := cell_setRep s r rep q
    · rw [hsame] at hnone he
      exact hs.older q hnone e he
    · rw [hgiven] at hnone
      exact absurd hnone hr

end Founded

/-! ## New values -/

/-- The store `t` has the cells of `s`, and perhaps more, which know their texts and are held in no
form. -/
structure Appended (s t : Store) : Prop where
  /-- The objects are the same. -/
  objects : t.objects = s.objects
  /-- No cell is lost. -/
  size : s.cells.size ≤ t.cells.size
  /-- What was there is as it was. -/
  old : ∀ q, q.index < s.cells.size → t.cell q = s.cell q
  /-- What is new knows its text, and is held in no form. -/
  new : ∀ q, s.cells.size ≤ q.index → (t.cell q).rep = .none ∧ (t.cell q).text ≠ none

/-- Nothing need be appended. -/
lemma Appended.refl (s : Store) : Appended s s := by
  refine ⟨rfl, Nat.le_refl _, fun _ _ => rfl, fun q hq => ?_⟩
  rw [cell_of_size_le hq]
  exact ⟨rfl, Option.some_ne_none _⟩

/-- Values may be appended twice. -/
lemma Appended.trans {s t u : Store} (h : Appended s t) (h' : Appended t u) : Appended s u where
  objects := h'.objects.trans h.objects
  size := Nat.le_trans h.size h'.size
  old q hq := (h'.old q (Nat.lt_of_lt_of_le hq h.size)).trans (h.old q hq)
  new q hq := by
    by_cases hlt : q.index < t.cells.size
    · rw [h'.old q hlt]
      exact h.new q hq
    · exact h'.new q (Nat.le_of_not_lt hlt)

/-- Values that know their texts are written with nothing. -/
lemma Appended.founded {s t : Store} (h : Appended s t) (hs : s.Founded) : t.Founded where
  wrapped r o ho := by
    by_cases hr : r.index < s.cells.size
    · rw [object?_congr h.objects]
      exact hs.wrapped r o (h.old r hr ▸ ho)
    · rw [(h.new r (Nat.le_of_not_lt hr)).1] at ho
      cases ho
  older r hnone e he := by
    by_cases hr : r.index < s.cells.size
    · rw [h.old r hr] at hnone he
      exact hs.older r hnone e (sources_congr h.objects _ ▸ he)
    · exact absurd hnone (h.new r (Nat.le_of_not_lt hr)).2

end Store

open Store

namespace StoreM

variable {α β : Type}

/-- The computation makes new values with texts at most. -/
def Appends (m : StoreM α) : Prop :=
  ∀ s, Appended s (m s).2

/-- A result that is there already appends nothing. -/
lemma Appends.pure (a : α) : Appends (Pure.pure a) :=
  fun s => .refl s

/-- One thing after another appends, if each does. -/
lemma Appends.bind {m : StoreM α} {f : α → StoreM β} (hm : Appends m) (hf : ∀ a, Appends (f a)) :
    Appends (m >>= f) :=
  fun s => (hm s).trans (hf (m s).1 (m s).2)

/-- So does what is done for each of many things. -/
lemma Appends.mapM {f : α → StoreM β} (hf : ∀ a, Appends (f a)) (as : List α) :
    Appends (as.mapM f) := by
  induction as with
  | nil => exact .pure []
  | cons a as ih =>
    rw [List.mapM_cons]
    exact (hf a).bind fun b => ih.bind fun bs => .pure (b :: bs)

end StoreM

namespace Store

/-- A new value with a text. -/
lemma appends_alloc {text : String} {literal : Bool} :
    (alloc { text := some text, literal }).Appends := by
  intro s
  refine ⟨rfl, ?_, fun q hq => cell_alloc_of_lt hq, fun q hq => ?_⟩
  · rw [size_alloc]
    exact Nat.le_succ _
  · rw [cell_alloc]
    split
    · exact ⟨rfl, Option.some_ne_none _⟩
    · exact (Appended.refl s).new q hq

/-- So does making values with texts. -/
lemma appends_ofTexts (texts : List String) : (ofTexts texts).Appends :=
  .mapM (f := ofText) (fun _ => appends_alloc) texts

/-- New values made from texts are new. -/
lemma mem_ofTexts {texts : List String} {s : Store} {e : Ref} (he : e ∈ (ofTexts texts s).1) :
    s.cells.size ≤ e.index ∧ e.index < (ofTexts texts s).2.cells.size := by
  induction texts generalizing s with
  | nil => cases he
  | cons text texts ih =>
    have hsize : (ofText text s).2.cells.size = s.cells.size + 1 := size_alloc _ s
    have hgrown := (appends_ofTexts texts (ofText text s).2).size
    rw [ofTexts_cons] at he ⊢
    obtain rfl | hrest := List.mem_cons.1 he
    · have hnew : (ofText text s).1.index = s.cells.size := rfl
      dsimp only
      omega
    · obtain ⟨hle, hlt⟩ := ih hrest
      dsimp only
      omega

end Store

namespace Script

mutual

/-- So does loading a word. -/
lemma appends_loadWord : ∀ w : Word String, (loadWord w).Appends
  | .literal _ => appends_alloc.bind fun _ => .pure _
  | .var _ => .pure _
  | .substitution script => (appends_load script).bind fun _ => .pure _
  | .joined parts => (appends_loadWords parts).bind fun _ => .pure _

/-- So does loading the words of a command. -/
lemma appends_loadWords : ∀ ws : List (Word String), (loadWords ws).Appends
  | [] => .pure _
  | w :: rest => (appends_loadWord w).bind fun _ => (appends_loadWords rest).bind fun _ => .pure _

/-- Loading a script makes new values for its fixed texts. -/
lemma appends_load : ∀ script : List (List (Word String)), (load script).Appends
  | [] => .pure _
  | c :: rest => (appends_loadWords c).bind fun _ => (appends_load rest).bind fun _ => .pure _

end

end Script

namespace Store

/-! ## Conversions -/

section Casts

variable {s t u : Store} {r q : Ref}

/-- **What a conversion of the value `r` may do**, from `s` to `t`: texts are made known, new values
are made, and a form of its own may be given to `r`. -/
structure Casts (s : Store) (r : Ref) (t : Store) : Prop where
  /-- The objects are the same. -/
  objects : t.objects = s.objects
  /-- No cell is lost. -/
  size : s.cells.size ≤ t.cells.size
  /-- A text is as it was, or it is known now. -/
  text : ∀ q, q.index < s.cells.size →
    (t.cell q).text = (s.cell q).text ∨ (t.cell q).text = some (s.wording q)
  /-- A form is as it was; or the value has another one, its text is known, it was and is no object,
  and its parts are new. -/
  rep : ∀ q, q.index < s.cells.size → (t.cell q).rep = (s.cell q).rep ∨
    q = r ∧ (t.cell q).text ≠ none ∧ (∀ o, (s.cell q).rep ≠ .object o) ∧
      (∀ o, (t.cell q).rep ≠ .object o) ∧
      ∀ e ∈ (t.cell q).rep.parts, s.cells.size ≤ e.index ∧ e.index < t.cells.size
  /-- What is new knows its text, and is held in no form. -/
  new : ∀ q, s.cells.size ≤ q.index → (t.cell q).rep = .none ∧ (t.cell q).text ≠ none

/-- Making texts known. -/
lemma Told.casts {P : Ref → Prop} (h : Told P s t) (r : Ref) : Casts s r t where
  objects := h.objects
  size := Nat.le_of_eq h.size.symm
  text q _ := by
    obtain hsame | ⟨-, -, hknown⟩ := h.cell q
    · exact .inl (congrArg Cell.text hsame)
    · exact .inr (congrArg Cell.text hknown)
  rep q _ := .inl (h.rep q)
  new q hq := by
    rw [cell_of_size_le (h.size ▸ hq)]
    exact ⟨rfl, Option.some_ne_none _⟩

/-- New values are made after that. -/
lemma Casts.append {P : Ref → Prop} (h : Told P s t) (h' : Appended t u) : Casts s r u where
  objects := h'.objects.trans h.objects
  size := h.size ▸ h'.size
  text q hq := by
    rw [h'.old q (h.size.symm ▸ hq)]
    exact (h.casts r).text q hq
  rep q hq := by
    rw [h'.old q (h.size.symm ▸ hq)]
    exact .inl (h.rep q)
  new q hq := h'.new q (h.size.symm ▸ hq)

/-- A value whose text is known may be given a form that is made of new values. -/
lemma Casts.withRep (h : Casts s r u) (hr : r.index < s.cells.size)
    (hknown : (u.cell r).text ≠ none)
    (hnone : ∀ o, (s.cell r).rep ≠ .object o) {rep : Rep} (hobject : ∀ o, rep ≠ .object o)
    (hparts : ∀ e ∈ rep.parts, s.cells.size ≤ e.index ∧ e.index < u.cells.size) :
    Casts s r (setRep r rep u).2 := by
  have hvalid : r.index < u.cells.size := Nat.lt_of_lt_of_le hr h.size
  have hsize : (setRep r rep u).2.cells.size = u.cells.size := Array.size_modify
  have hself : (setRep r rep u).2.cell r = { u.cell r with rep } :=
    (cell_modify _ hvalid r).trans (if_pos rfl)
  have hother : ∀ q, q ≠ r → (setRep r rep u).2.cell q = u.cell q := fun q hq =>
    (cell_modify _ hvalid q).trans (if_neg hq)
  refine ⟨h.objects, hsize.symm ▸ h.size, fun q hq => ?text, fun q hq => ?rep, fun q hq => ?new⟩
  case text =>
    by_cases heq : q = r
    · subst heq
      rw [hself]
      exact h.text q hq
    · rw [hother q heq]
      exact h.text q hq
  case rep =>
    by_cases heq : q = r
    · subst heq
      rw [hself, hsize]
      exact .inr ⟨rfl, hknown, hnone, hobject, hparts⟩
    · rw [hother q heq]
      exact .inl ((h.rep q hq).resolve_right fun hnew => heq hnew.1)
  case new =>
    have hne : q ≠ r := by
      rintro rfl
      omega
    rw [hother q hne]
    exact h.new q hq

/-- **Keeping a form** that is made of new values. -/
lemma casts_cache (hs : s.Founded) (hr : r.index < s.cells.size)
    (hu : Appended (Store.text r s).2 u) {rep : Rep} (hobject : ∀ o, rep ≠ .object o)
    (hparts : ∀ e ∈ rep.parts, s.cells.size ≤ e.index ∧ e.index < u.cells.size) :
    Casts s r (cache r rep u).2 := by
  obtain ⟨-, htold⟩ := tells_text hs r
  have hcasts : Casts s r u := .append htold hu
  have hsame : u.cell r = (Store.text r s).2.cell r := hu.old r (htold.size.symm ▸ hr)
  have hknown : (u.cell r).text = some (Store.text r s).1 := by rw [hsame, cell_text_text]
  have htext : (Store.text r u).2 = u := by rw [text_apply, hknown]
  cases hobj : u.objectOf? r with
  | some o =>
    rw [cache_of_object (htext.symm ▸ hobj), htext]
    exact hcasts
  | none =>
    have hnone : ∀ o, (s.cell r).rep ≠ .object o := by
      intro o ho
      rw [objectOf?, hsame, htold.rep, ho] at hobj
      cases hobj
    rw [cache_apply (htext.symm ▸ hobj), htext]
    exact hcasts.withRep hr (hknown ▸ Option.some_ne_none _) hnone hobject hparts

/-- The text is read, and what is read is kept. -/
lemma casts_readAs {α : Type} (hs : s.Founded) (hr : r.index < s.cells.size)
    (read? : String → Option α) {rep : α → Rep} (failure : String → Failure)
    (hobject : ∀ a o, rep a ≠ .object o) (hparts : ∀ a, (rep a).parts = []) :
    Casts s r (finalState (readAs r read? rep failure s)) := by
  rw [finalState_readAs]
  cases read? (Store.text r s).1 with
  | none => exact (tells_text hs r).2.casts r
  | some a =>
    refine casts_cache hs hr (.refl _) (hobject a) fun e he => ?_
    rw [hparts a] at he
    cases he

/-- To do nothing is within what a conversion may do. -/
lemma casts_refl (s : Store) (r : Ref) : Casts s r s :=
  (Told.refl (fun _ => True) s).casts r

/-- A number is taken as it is, or the text is read. -/
lemma casts_number {α : Type} {m : ConvM α} (hs : s.Founded) (hr : r.index < s.cells.size)
    {read? : String → Option α} {rep : α → Rep} {failure : String → Failure} {p : Prop}
    (h : finalState (m s) = s ∧ p ∨ m s = readAs r read? rep failure s)
    (hobject : ∀ a o, rep a ≠ .object o) (hparts : ∀ a, (rep a).parts = []) :
    Casts s r (finalState (m s)) := by
  obtain ⟨hsame, -⟩ | hread := h
  · rw [hsame]
    exact casts_refl s r
  · rw [hread]
    exact casts_readAs hs hr read? failure hobject hparts

/-- Lists and hashes are made of new values. -/
lemma Fetched.casts {α : Type} {c : Conversion} {form : α → Rep} (hs : s.Founded)
    (hr : r.index < s.cells.size) {result : EStateM.Result Failure Store α}
    (h : Fetched c form r s result) (hobject : ∀ a o, form a ≠ .object o) :
    Casts s r (finalState result) := by
  have htold := (tells_text hs r).2
  cases h with
  | held h => exact casts_refl s r
  | failed e _ => exact htold.casts r
  | @read a texts _ hparts =>
    refine casts_cache hs hr (appends_ofTexts texts _) (hobject a) fun e he => ?_
    obtain ⟨hle, hlt⟩ := mem_ofTexts (hparts e he)
    exact ⟨htold.size ▸ hle, hlt⟩

/-- Keeping a form that is no object. -/
lemma Founded.cache {rep : Rep} (hs : s.Founded) (hobject : ∀ o, rep ≠ .object o) (r : Ref) :
    (Store.cache r rep s).2.Founded := by
  have htold := (tells_text hs r).2.founded hs
  cases hobj : (Store.text r s).2.objectOf? r with
  | some o => rwa [cache_of_object hobj]
  | none =>
    rw [cache_apply hobj]
    refine htold.setRep ?_ hobject
    rw [cell_text_text]
    exact Option.some_ne_none _

/-- **Taking a value as a list keeps stores founded**, be it there or not. -/
lemma Founded.asList (hs : s.Founded) (r : Ref) : (finalState (Store.asList r s)).Founded := by
  have hfetched := fetched_asList r s
  have htold := (tells_text hs r).2.founded hs
  generalize Store.asList r s = result at hfetched
  cases hfetched with
  | held h => exact hs
  | failed e _ => exact htold
  | read texts _ _ => exact ((appends_ofTexts texts _).founded htold).cache (by nofun) r

/-- Reading a value as a script does what a conversion may do. -/
lemma FetchedScript.casts (hs : s.Founded) (hr : r.index < s.cells.size)
    {result : Script.Outcome (Script Ref) × Store} (h : FetchedScript r s result) :
    Casts s r result.2 := by
  cases h with
  | held h => exact casts_refl s r
  | failed h => exact (tells_text hs r).2.casts r
  | @read commands u script h =>
    have hu := Script.appends_load script (Store.text r s).2
    rw [h] at hu
    exact casts_cache hs hr hu nofun nofun

/-- Looking for a truth value asks for the text at most. -/
lemma casts_asBool (hs : s.Founded) (r : Ref) : Casts s r (finalState (asBool r s)) := by
  have htold : Told (fun _ => True) s (bool? r s).2 := by
    obtain hsame | htext := bool?_cases r s
    · rw [hsame]
      exact .refl _ s
    · rw [htext]
      exact (tells_text hs r).2
  unfold asBool
  rw [ConvM.liftBind_apply]
  cases (bool? r s).1 with
  | some b => exact htold.casts r
  | none =>
    have hagain := (tells_text (htold.founded hs) r).2
    exact (htold.trans hagain hs).casts r

/-- **What a conversion may do.** -/
lemma casts_apply (hs : s.Founded) (hr : r.index < s.cells.size) (c : Conversion) :
    Casts s r (c.apply r s) := by
  cases c with
  | text => exact (tells_text hs r).2.casts r
  | int => exact casts_number hs hr (asInt_taken r s) (fun _ _ => nofun) fun _ => rfl
  | long => exact casts_number hs hr (asLong_taken r s) (fun _ _ => nofun) fun _ => rfl
  | float => exact casts_number hs hr (asFloat_taken r s) (fun _ _ => nofun) fun _ => rfl
  | bool => exact casts_asBool hs r
  | list => exact (fetched_asList r s).casts hs hr fun _ _ => nofun
  | hash => exact (fetched_asHash r s).casts hs hr fun _ _ => nofun
  | script => exact (fetchedScript_asScript r s).casts hs hr

/-! ## What conversions keep -/

/-- Values are worded as before after a conversion. -/
lemma Casts.sameWording (h : Casts s r t) : SameWording s t := by
  refine ⟨fun o _ ho => (object?_congr h.objects o).trans ho, fun q hq => ?_⟩
  obtain hsame | hknown := h.text q hq
  · cases htext : (s.cell q).text with
    | some text => exact .inl (by rw [hsame, htext, wording_of_text htext])
    | none =>
      rw [htext] at hsame
      refine .inr ⟨hsame, rfl, (h.rep q hq).resolve_right fun hnew => hnew.2.1 hsame⟩
  · exact .inl hknown

/-- Conversions keep stores founded: where a text is not known, the form is as it was. -/
lemma Casts.founded (h : Casts s r t) (hs : s.Founded) : t.Founded where
  wrapped q o ho := by
    have hq : q.index < s.cells.size := by
      by_contra hge
      rw [(h.new q (Nat.le_of_not_lt hge)).1] at ho
      cases ho
    have hrep := (h.rep q hq).resolve_right fun hnew => hnew.2.2.2.1 o ho
    rw [object?_congr h.objects]
    exact hs.wrapped q o (hrep ▸ ho)
  older q hnone e he := by
    have hq : q.index < s.cells.size := by
      by_contra hge
      exact (h.new q (Nat.le_of_not_lt hge)).2 hnone
    have hrep := (h.rep q hq).resolve_right fun hnew => hnew.2.1 hnone
    have htext := (h.text q hq).resolve_right fun hknown => by
      rw [hnone] at hknown
      cases hknown
    have hsources : t.sources (t.cell q).rep = s.sources (s.cell q).rep := by
      rw [hrep]
      exact sources_congr h.objects _
    exact hs.older q (htext ▸ hnone) e (hsources ▸ he)

/-- **Conversions keep stores orderly.**

**Proof sketch.** If `m` values are made, the rank of each that was there goes up by `m`; those that
are new have the ranks below. -/
lemma Casts.orderly (h : Casts s r t) (hs : s.Orderly) : t.Orderly where
  toFounded := h.founded hs.toFounded
  ranked := by
    obtain ⟨rank, hrank⟩ := hs.ranked
    obtain ⟨m, hm⟩ := Nat.exists_eq_add_of_le h.size
    refine ⟨fun q => if q.index < s.cells.size then rank q + m else q.index - s.cells.size,
      fun q hq => ?_⟩
    by_cases hold : q.index < s.cells.size
    · obtain ⟨hbound, hparts⟩ := hrank q hold
      simp only [if_pos hold]
      refine ⟨by omega, fun e he => ?_⟩
      obtain hrep | ⟨-, -, -, -, hnew⟩ := h.rep q hold
      · obtain ⟨hvalid, hlt⟩ := hparts e (hrep ▸ he)
        rw [if_pos hvalid]
        omega
      · obtain ⟨hle, hlt⟩ := hnew e he
        rw [if_neg (by omega)]
        omega
    · have hrep := (h.new q (Nat.le_of_not_lt hold)).1
      simp only [if_neg hold, hrep]
      refine ⟨by omega, fun e he => ?_⟩
      cases he

/-- **Conversions keep texts.** -/
lemma Casts.wording_eq (h : Casts s r t) (hs : s.Founded) (hq : q.index < s.cells.size) :
    t.wording q = s.wording q :=
  h.sameWording.wording_eq hs (h.founded hs) hq

end Casts

end Store

end CommandScript
