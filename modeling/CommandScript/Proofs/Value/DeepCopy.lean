import CommandScript.Proofs.Value.KeptObjects
import CommandScript.Proofs.Value.Wording

/-!
# Copies are separate

A copy of a value has a cell of its own for every place in the value, even for places that share
one. So the copy and the value hold no cell in common, and they never will: a conversion gives a
value new parts, or none. What is done to the one leaves the other alone then, and the texts too,
which are found out going down from a value to its parts.

Objects are another matter. A thing of a host may be shared by a copy, and a procedure always is, so
that the copy and the value are written with the same texts of a procedure. These may become known,
but they are what they were, since a text that can be found out does not depend on when it is asked
for.

## Main definitions

* `Store.Assembled` — stores of texts, numbers, procedures, things of hosts, and lists and hashes of
  such.
* `Store.Twins` — a value and a copy of it.
* `Store.part?`, `Rep.places` — what is at the end of a way into a value, and the ways on.
* `Store.Matching` — the same type, the same places and the same text.
* `Store.Apart` — two values that hold no cell in common.
* `Store.ConvertsOnly`, `Store.Unaffected` — conversions of what one value holds, and values that
  they leave as they are.

## Main results

* `Store.Assembled.orderly` — such stores are orderly.
* `Store.copied_copyWithin` — a copy is a twin.
* `Store.Twins.wording_eq` — twins are worded in the same way.
* `Store.Apart.casts` — values stay apart.
* `Store.copy_separate` — copies are separate.
-/

set_option autoImplicit false

namespace CommandScript

/-- The places in a form, in order. -/
def Rep.places : Rep → List Store.Place
  | .list items => (List.range items.toList.length).map .index
  | .hash entries => entries.keys.map .key
  | _ => []

/-- The forms are the same, but for their parts, which are related in order; and objects are the
same. -/
inductive Rep.Mirrored (t : Store) (R : Ref → Ref → Prop) : Rep → Rep → Prop
  /-- Lists of the same length. -/
  | list {items items' : Stack Ref} (h : List.Forall₂ R items.toList items'.toList) :
    Mirrored t R (.list items) (.list items')
  /-- Hashes with the same keys in order. -/
  | hash {entries entries' : Table Ref} (h : Table.Related R entries entries') :
    Mirrored t R (.hash entries) (.hash entries')
  /-- Objects that are the same now. -/
  | object {o o' : ObjectRef} {x : Object} (h : t.object? o = some x)
    (h' : t.object? o' = some x) : Mirrored t R (.object o) (.object o')
  /-- The same form, without parts. -/
  | same {rep : Rep} (h : rep.parts = []) (hobject : ∀ o, rep ≠ .object o) : Mirrored t R rep rep

namespace Store

/-! ## Orderly stores -/

section Orderly

variable {s t : Store} {r q : Ref} {c : Cell}

/-- Values that are there are worded as before. -/
lemma Enlarged.wording_eq (h : Enlarged s t) (hs : s.Founded) (ht : t.Founded)
    (hq : q.index < s.cells.size) : t.wording q = s.wording q := by
  refine SameWording.wording_eq ⟨h.object, fun p hp => ?_⟩ hs ht hq
  exact text_eq_or_of_cell_eq (h.cell p hp)

/-- The parts of a value that is there are there. -/
lemma Orderly.lt_of_mem_parts (hs : s.Orderly) (hr : r.index < s.cells.size)
    (hq : q ∈ (s.cell r).rep.parts) : q.index < s.cells.size :=
  hs.lt_of_holds hr (.element .itself hq)

/-- A new value that is made of values and objects that are there. -/
lemma Orderly.alloc (hs : s.Orderly) (hparts : ∀ e ∈ c.rep.parts, e.index < s.cells.size)
    (hsources : c.text = none → ∀ e ∈ s.sources c.rep, e.index < s.cells.size)
    (hobject : ∀ o, c.rep = .object o → ∃ x, s.object? o = some x) :
    (Store.alloc c s).2.Orderly where
  toFounded := hs.toFounded.alloc hsources hobject
  ranked := by
    obtain ⟨rank, hrank⟩ := hs.ranked
    refine ⟨fun q => if q.index = s.cells.size then s.cells.size else rank q, fun r hr => ?_⟩
    rw [size_alloc, cell_alloc] at *
    by_cases heq : r.index = s.cells.size
    · simp only [if_pos heq]
      refine ⟨Nat.lt_succ_self _, fun e he => ?_⟩
      have hlt := hparts e he
      rw [if_neg (Nat.ne_of_lt hlt)]
      exact ⟨Nat.lt_succ_of_lt hlt, (hrank e hlt).1⟩
    · simp only [if_neg heq]
      obtain ⟨hbound, hbelow⟩ := hrank r (by omega)
      refine ⟨Nat.lt_succ_of_lt hbound, fun e he => ?_⟩
      obtain ⟨hlt, hless⟩ := hbelow e he
      rw [if_neg (Nat.ne_of_lt hlt)]
      exact ⟨Nat.lt_succ_of_lt hlt, hless⟩

/-- No value is part of itself, whatever the objects are. -/
lemma Orderly.objects (hs : s.Orderly) (hcells : t.cells = s.cells) (ht : t.Founded) :
    t.Orderly where
  toFounded := ht
  ranked := by
    have hcell : ∀ r, t.cell r = s.cell r := fun r => by rw [cell, hcells, cell]
    simp only [hcells, hcell]
    exact hs.ranked

/-- A thing of a host changes, or takes the place of another object. It is written with no
values. -/
lemma Founded.setNative (hs : s.Founded) (o : ObjectRef) (n : Native) :
    (setObject o (.native n) s).2.Founded := by
  -- only this object changes, and no text is written with parts of a native one
  have hobject : ∀ o', (setObject o (.native n) s).2.object? o' = s.object? o' ∨
      (setObject o (.native n) s).2.object? o' = some (.native n) := by
    intro o'
    change (s.objects.setIfInBounds o.index (.native n))[o'.index]? = s.object? o' ∨
      (s.objects.setIfInBounds o.index (.native n))[o'.index]? = _
    rw [Array.getElem?_setIfInBounds]
    split
    next heq =>
      split
      · exact .inr rfl
      next hlt =>
        rw [object?, ← heq, Array.getElem?_eq_none (Nat.le_of_not_lt hlt)]
        exact .inl rfl
    next => exact .inl rfl
  refine ⟨fun r o' ho => ?_, fun r hnone e he => ?_⟩
  · obtain hsame | hnew := hobject o'
    · rw [hsame]
      exact hs.wrapped r o' ho
    · exact ⟨_, hnew⟩
  · change e ∈ (setObject o (.native n) s).2.sources (s.cell r).rep at he
    refine hs.older r hnone e ?_
    cases hrep : (s.cell r).rep with
    | object o' =>
      rw [hrep] at he
      obtain hsame | hnew := hobject o'
      · rwa [sources, hsame] at he
      · rw [sources, hnew] at he
        cases he
    | _ =>
      rw [hrep] at he
      exact he

end Orderly

end Store

namespace Rep.Mirrored

variable {R R' : Ref → Ref → Prop} {rep rep' : Rep} {s t : Store}

/-- Forms that correspond by one relation correspond by any that says less. -/
lemma mono (h : Mirrored t R rep rep') (hR : ∀ e e', R e e' → R' e e') :
    Mirrored t R' rep rep' := by
  cases h with
  | list h => exact .list (h.imp hR)
  | hash h => exact .hash (h.mono hR)
  | object h h' => exact .object h h'
  | same h hobject => exact .same h hobject

/-- Forms that correspond in a store do so when cells and objects have been added. -/
lemma enlarge (h : Mirrored s R rep rep') (ht : Store.Enlarged s t) : Mirrored t R rep rep' := by
  cases h with
  | list h => exact .list h
  | hash h => exact .hash h
  | object h h' => exact .object (ht.object _ _ h) (ht.object _ _ h')
  | same h hobject => exact .same h hobject

/-- The parts are related in order. -/
lemma parts (h : Mirrored t R rep rep') : List.Forall₂ R rep.parts rep'.parts := by
  cases h with
  | list h => exact h
  | hash h => exact h.values
  | object => exact .nil
  | same h => rw [h]; exact .nil

/-- The objects are there. -/
lemma wrapped {o : ObjectRef} (h : Mirrored t R rep rep') (ho : rep' = .object o) :
    ∃ x, t.object? o = some x := by
  cases h with
  | list => cases ho
  | hash => cases ho
  | object _ h' =>
    cases ho
    exact ⟨_, h'⟩
  | same _ hobject => exact absurd ho (hobject o)

/-- What a form is written with is one of its parts, or both forms are written with it. -/
lemma mem_parts_or_mem_sources {e : Ref} (h : Mirrored t R rep rep') (he : e ∈ t.sources rep') :
    e ∈ rep'.parts ∨ e ∈ t.sources rep := by
  cases h with
  | list => exact .inl he
  | hash => exact .inl he
  | object h h' =>
    right
    rw [Store.sources, h]
    rwa [Store.sources, h'] at he
  | same _ => exact .inr he

/-- There are the same places in both. -/
lemma places_eq (h : Mirrored t R rep rep') : rep'.places = rep.places := by
  cases h with
  | list h => rw [places, places, h.length_eq]
  | hash h => rw [places, places, h.keys_eq]
  | object => rfl
  | same => rfl

/-- At each place there are related parts in both, or there are none in either. -/
lemma at?_rel (h : Mirrored t R rep rep') (place : Store.Place) :
    Option.Rel R (rep.at? place) (rep'.at? place) := by
  cases h with
  | @list items items' h =>
    cases place with
    | key name => exact .none
    | index i =>
      change Option.Rel R items.toList[i]? items'.toList[i]?
      by_cases hi : i < items.toList.length
      · have hi' : i < items'.toList.length := h.length_eq ▸ hi
        rw [List.getElem?_eq_getElem hi, List.getElem?_eq_getElem hi']
        exact .some (h.get hi hi')
      · have hi' : ¬ i < items'.toList.length := h.length_eq ▸ hi
        rw [List.getElem?_eq_none (Nat.le_of_not_lt hi),
          List.getElem?_eq_none (Nat.le_of_not_lt hi')]
        exact .none
  | hash h =>
    cases place with
    | key name => exact h.find? name
    | index i => exact .none
  | object => exact .none
  | same h =>
    cases hpart : rep.at? place with
    | none => exact .none
    | some e =>
      have hmem := Store.mem_parts_of_at? hpart
      rw [h] at hmem
      cases hmem

/-- Mirrored forms are written in the same way, if their parts are worded so. -/
lemma writtenForm_eq {f : Ref → String} (h : Mirrored t R rep rep')
    (hf : ∀ e ∈ rep.parts, ∀ e', R e e' → f e' = f e) :
    t.writtenForm f rep' = t.writtenForm f rep := by
  have hparts : rep'.parts.map f = rep.parts.map f := by
    have hrel := h.parts
    generalize rep.parts = es at hf hrel
    generalize rep'.parts = es' at hrel
    induction hrel with
    | nil => rfl
    | cons he _ ih =>
      rw [List.map_cons, List.map_cons, hf _ List.mem_cons_self _ he,
        ih fun e hmem => hf e (List.mem_cons_of_mem _ hmem)]
  cases h with
  | list => exact congrArg ListText.write hparts
  | hash h =>
    have htable : ∀ texts : List String, Table.withValues _ texts = Table.withValues _ texts :=
      fun texts => Table.ext_entries (congrArg (fun keys => keys.zip texts) h.keys_eq.symm)
    exact congrArg HashText.write ((htable _).trans (congrArg _ hparts))
  | object h h' => simp only [Store.writtenForm, h, h']
  | same => rfl

end Rep.Mirrored

namespace Store

/-! ## Twins -/

section Twins

variable {R : Ref → Ref → Prop} {rep rep' : Rep} {s t u : Store} {base : Nat} {r r' q q' e : Ref}

/-- The value `r'` is a copy of the value `r` with related parts, and it is not among the first
`base` values. -/
structure TwinCells (base : Nat) (t : Store) (R : Ref → Ref → Prop) (r r' : Ref) : Prop where
  /-- The value is there. -/
  there : r.index < t.cells.size
  /-- The copy is there. -/
  made : r'.index < t.cells.size
  /-- The copy is a new one. -/
  fresh : base ≤ r'.index
  /-- The copy belongs to no script. -/
  literal : (t.cell r').literal = false
  /-- The same text is known of both, or none. -/
  text : (t.cell r').text = (t.cell r).text
  /-- The forms are the same, but for their parts. -/
  rep : Rep.Mirrored t R (t.cell r).rep (t.cell r').rep

/-- The value `r'` is a copy of the value `r`, and so at any depth: there is a relation between the
two values, and of all parts of values so related too, that says so. -/
def Twins (base : Nat) (t : Store) (r r' : Ref) : Prop :=
  ∃ R : Ref → Ref → Prop, (∀ a b, R a b → TwinCells base t R a b) ∧ R r r'

/-- Cells that are twins by one relation are twins by any that says less. -/
lemma TwinCells.mono {R' : Ref → Ref → Prop} (h : TwinCells base t R r r')
    (hR : ∀ e e', R e e' → R' e e') : TwinCells base t R' r r' :=
  { h with rep := h.rep.mono hR }

/-- Twins have twins for parts. -/
lemma Twins.cells (h : Twins base t r r') : TwinCells base t (Twins base t) r r' := by
  obtain ⟨R, hR, hr⟩ := h
  exact (hR r r' hr).mono fun e e' he => ⟨R, hR, he⟩

/-- What has twins for parts is a twin. -/
lemma TwinCells.twins (h : TwinCells base t (Twins base t) r r') : Twins base t r r' := by
  refine ⟨fun a b => Twins base t a b ∨ a = r ∧ b = r', fun a b hab => ?_, .inr ⟨rfl, rfl⟩⟩
  have hcells : TwinCells base t (Twins base t) a b := by
    obtain htwins | ⟨rfl, rfl⟩ := hab
    · exact htwins.cells
    · exact h
  exact hcells.mono fun _ _ => .inl

/-- Twins stay twins when there are more values. -/
lemma Twins.enlarge (h : Twins base s r r') (ht : Enlarged s t) : Twins base t r r' := by
  obtain ⟨R, hR, hr⟩ := h
  refine ⟨R, fun a b hab => ?_, hr⟩
  have hcells := hR a b hab
  constructor
  case there => exact ht.lt hcells.there
  case made => exact ht.lt hcells.made
  case fresh => exact hcells.fresh
  all_goals rw [ht.cell b hcells.made]
  case literal => exact hcells.literal
  all_goals rw [ht.cell a hcells.there]
  case text => exact hcells.text
  case rep => exact hcells.rep.enlarge ht

/-- **Twins are worded in the same way.**

**Proof sketch.** Induction on the age of the value: if its text is not known, its parts are older,
and they are worded as their twins are. -/
lemma Twins.wording_eq (h : Twins base t r r') (ht : t.Founded) : t.wording r' = t.wording r := by
  induction hn : r.index using Nat.strongRecOn generalizing r r' with
  | ind n ih =>
    subst hn
    have hcells := h.cells
    cases htext : (t.cell r).text with
    | some text => rw [wording_of_text htext, wording_of_text (hcells.text.trans htext)]
    | none =>
      rw [ht.wording_of_none htext, ht.wording_of_none (hcells.text.trans htext)]
      exact hcells.rep.writtenForm_eq fun e he e' htwins =>
        ih e.index (ht.older r htext e (mem_sources_of_mem_parts he)) htwins rfl

/-- What a copy holds is the twin of what the value holds. -/
lemma Twins.exists_of_holds (h : Twins base t r r') (hq : t.Holds r' q') :
    ∃ q, t.Holds r q ∧ Twins base t q q' := by
  induction hq with
  | itself => exact ⟨r, .itself, h⟩
  | @element e' q' _ hpart ih =>
    obtain ⟨e, he, htwins⟩ := ih
    have hparts := htwins.cells.rep.parts
    obtain ⟨i, hi, rfl⟩ := List.mem_iff_getElem.1 hpart
    have hi' : i < (t.cell e).rep.parts.length := hparts.length_eq ▸ hi
    exact ⟨(t.cell e).rep.parts[i], he.element (List.getElem_mem hi'), hparts.get hi' hi⟩

/-! ## Copying makes twins -/

/-- What a copy of the value `r` of the store `s` comes to, that is made in the store `u`. -/
structure Copied (s u : Store) (r : Ref) (result : Ref × Store) : Prop where
  /-- Nothing that was there is changed. -/
  enlarged : Enlarged u result.2
  /-- The store stays orderly. -/
  orderly : result.2.Orderly
  /-- The copy is a twin, and not among the values of `s`. -/
  twins : Twins s.cells.size result.2 r result.1

/-- Copies are made of several values, one after another. -/
lemma copied_mapM {f : Ref → StoreM Ref} {rs : List Ref} (hu : Enlarged s u) (hu' : u.Orderly)
    (hf : ∀ r ∈ rs, ∀ u, Enlarged s u → u.Orderly → Copied s u r (f r u)) :
    ∃ rs' t, rs.mapM f u = (rs', t) ∧ Enlarged u t ∧ t.Orderly ∧
      List.Forall₂ (Twins s.cells.size t) rs rs' := by
  induction rs generalizing u with
  | nil => exact ⟨[], u, rfl, .refl u, hu', .nil⟩
  | cons r rs ih =>
    have hfirst := hf r List.mem_cons_self u hu hu'
    obtain ⟨rs', t, heq, hrest, ht, htwins⟩ := ih (hu.trans hfirst.enlarged) hfirst.orderly
      fun q hq => hf q (List.mem_cons_of_mem r hq)
    refine ⟨(f r u).1 :: rs', t, ?_, hfirst.enlarged.trans hrest, ht,
      .cons (hfirst.twins.enlarge hrest) htwins⟩
    rw [StoreM.mapM_cons_apply, heq]

/-- An object is shared, or the copy gets one of its own that is the same now. -/
lemma copied_object {o : ObjectRef} {x : Object} (hu : u.Orderly) (ho : u.object? o = some x) :
    ∃ o' t, copyObject o u = (o', t) ∧ Enlarged u t ∧ t.Orderly ∧
      t.object? o = some x ∧ t.object? o' = some x := by
  obtain ⟨o', t, heq, ht, hx, hx'⟩ := exists_copyObject ho
  refine ⟨o', t, heq, ?_, ?_, hx, hx'⟩
  · obtain rfl | rfl := ht
    · exact .refl t
    · exact enlarges_allocObject x u
  · obtain rfl | rfl := ht
    · exact hu
    · exact hu.objects rfl (hu.toFounded.allocObject x)

/-- A form is copied. -/
lemma copied_rep {f : Ref → StoreM Ref} (hu : Enlarged s u) (hu' : u.Orderly)
    (hobject : ∀ o, rep = .object o → ∃ x, u.object? o = some x)
    (hf : ∀ e ∈ rep.parts, ∀ u, Enlarged s u → u.Orderly → Copied s u e (f e u)) :
    ∃ rep' t, copyRep f rep u = (rep', t) ∧ Enlarged u t ∧ t.Orderly ∧
      Rep.Mirrored t (Twins s.cells.size t) rep rep' := by
  cases rep with
  | list items =>
    obtain ⟨items', t, heq, hlarge, ht, htwins⟩ := copied_mapM hu hu' hf
    refine ⟨.list (.ofList items'), t, ?_, hlarge, ht, .list ?_⟩
    · change (Rep.list (.ofList (items.toList.mapM f u).1), (items.toList.mapM f u).2) = _
      rw [show items.toList.mapM f u = (items', t) from heq]
    · rw [Stack.toList_ofList]
      exact htwins
  | hash entries =>
    obtain ⟨values', t, heq, hlarge, ht, htwins⟩ := copied_mapM hu hu' hf
    refine ⟨.hash (entries.withValues values'), t, ?_, hlarge, ht, .hash ?_⟩
    · change (Rep.hash (entries.withValues (entries.values.mapM f u).1),
        (entries.values.mapM f u).2) = _
      rw [show entries.values.mapM f u = (values', t) from heq]
    · have hrelated := Table.related_withValues (R := flip (Twins s.cells.size t))
        (t := entries) rfl htwins.flip
      exact (hrelated.imp fun _ _ h => ⟨h.1.symm, h.2⟩ : List.Forall₂ _ _ _).flip
  | object o =>
    obtain ⟨x, hx⟩ := hobject o rfl
    obtain ⟨o', t, heq, hlarge, ht, ho, ho'⟩ := copied_object hu' hx
    refine ⟨.object o', t, ?_, hlarge, ht, .object ho ho'⟩
    change (Rep.object (copyObject o u).1, (copyObject o u).2) = _
    rw [heq]
  | _ => exact ⟨_, u, rfl, .refl u, hu', .same rfl (by nofun)⟩

/-- **A copy is a twin**, if going down far enough.

**Proof sketch.** Induction on how far it goes down: the parts of a value have a smaller rank than
the value. They are copied one after another, and then the new value comes last. -/
lemma copied_copyWithin {rank : Ref → Nat} (hs : s.Orderly)
    (hrank : ∀ r, r.index < s.cells.size → ∀ e ∈ (s.cell r).rep.parts, rank e < rank r)
    {fuel : Nat} (hr : r.index < s.cells.size) (hfuel : rank r < fuel) (hu : Enlarged s u)
    (hu' : u.Orderly) : Copied s u r (copyWithin fuel r u) := by
  induction fuel generalizing r u with
  | zero => exact absurd hfuel (Nat.not_lt_zero _)
  | succ fuel ih =>
    have hcell := hu.cell r hr
    -- the parts are copied first, each in a store that the copies before it have enlarged
    obtain ⟨rep', t, heq, hlarge, ht, hrep⟩ := copied_rep (f := copyWithin fuel) hu hu'
      (hu'.wrapped r) fun e he v hv hv' => by
        rw [hcell] at he
        have hless := hrank r hr e he
        exact ih (hs.lt_of_mem_parts hr he) (by omega) hv hv'
    have hcopy : copyWithin (fuel + 1) r u = alloc { text := (u.cell r).text, rep := rep' } t := by
      rw [copyWithin_succ, heq]
    rw [hcopy]
    have hnew := enlarges_alloc (c := { text := (u.cell r).text, rep := rep' }) rfl t
    have hvalid := hu.lt hr
    have hparts : ∀ e ∈ rep'.parts, e.index < t.cells.size := by
      intro e he
      obtain ⟨i, hi, rfl⟩ := List.mem_iff_getElem.1 he
      exact (hrep.parts.get (hrep.parts.length_eq ▸ hi) hi).cells.made
    refine ⟨hlarge.trans hnew, ht.alloc hparts (fun hnone e he => ?_) (fun o => hrep.wrapped),
      TwinCells.twins ?_⟩
    · -- where the text of the value is not known, what it is written with is older than it
      obtain he | he := hrep.mem_parts_or_mem_sources he
      · exact hparts e he
      · have hsame := hlarge.cell r hvalid
        have holder := ht.older r (hsame ▸ hnone) e (hsame ▸ he)
        exact Nat.lt_trans holder (hlarge.lt hvalid)
    · constructor
      case there => exact hnew.lt (hlarge.lt hvalid)
      case made => exact (size_alloc _ t).symm ▸ Nat.lt_succ_self _
      case fresh => exact Nat.le_trans hu.size hlarge.size
      all_goals rw [cell_alloc_self]
      all_goals rw [hnew.cell r (hlarge.lt hvalid), hlarge.cell r hvalid]
      case rep => exact (hrep.mono fun _ _ h => h.enlarge hnew).enlarge hnew

/-- **A copy is a twin.** -/
lemma copied_copy (hs : s.Orderly) (hr : r.index < s.cells.size) : Copied s s r (copy r s) := by
  obtain ⟨rank, hrank⟩ := hs.ranked
  exact copied_copyWithin hs (fun q hq e he => ((hrank q hq).2 e he).2) hr (hrank r hr).1 (.refl s)
    hs

end Twins

/-! ## Stores of texts, numbers, procedures, things of hosts, lists and hashes -/

/-- Stores that come about from objects, which are procedures and things of hosts, and from values
that are a text or a number, wrap an object, or are a list or a hash of values, in any order. Such a
value may be made with any text and with any form, whether it belongs to a script or not; what it is
written with has to be there. And values may be converted and copied meanwhile, and things may
change. -/
inductive Assembled : Store → Prop
  /-- There are no values. -/
  | empty : Assembled {}
  /-- A new value, which is made of what is there. -/
  | value {s : Store} (h : Assembled s) (c : Cell)
    (hsources : ∀ e ∈ s.sources c.rep, e.index < s.cells.size)
    (hobject : ∀ o, c.rep = .object o → ∃ x, s.object? o = some x) :
    Assembled (alloc c s).2
  /-- A new object. -/
  | object {s : Store} (h : Assembled s) (x : Object) : Assembled (allocObject x s).2
  /-- A thing of a host changes. -/
  | changed {s : Store} (h : Assembled s) (o : ObjectRef) (n : Native) :
    Assembled (setObject o (.native n) s).2
  /-- A value is converted. -/
  | converted {s : Store} (h : Assembled s) {r : Ref} (hr : r.index < s.cells.size)
    (c : Conversion) : Assembled (c.apply r s)
  /-- A value is copied. -/
  | copied {s : Store} (h : Assembled s) {r : Ref} (hr : r.index < s.cells.size) :
    Assembled (copy r s).2

/-- Where there are no values, none is part of itself. -/
lemma orderly_empty : Orderly {} :=
  ⟨founded_empty, fun _ => 0, fun _ hr => absurd hr (Nat.not_lt_zero _)⟩

/-- **Such stores are orderly.** -/
lemma Assembled.orderly {s : Store} (h : Assembled s) : s.Orderly := by
  induction h with
  | empty => exact orderly_empty
  | value _ c hsources hobject ih =>
    exact ih.alloc (fun e he => hsources e (mem_sources_of_mem_parts he)) (fun _ => hsources)
      hobject
  | object _ x ih => exact ih.objects rfl (ih.toFounded.allocObject x)
  | changed _ o n ih => exact ih.objects rfl (ih.toFounded.setNative o n)
  | converted _ hr c ih => exact (casts_apply ih.toFounded hr c).orderly ih
  | copied _ hr ih => exact (copied_copy ih hr).orderly

/-! ## Ways into values -/

/-- What is at the end of a way into a value, by the forms in which values are held. -/
def part? (s : Store) : List Place → Ref → Option Ref
  | [], r => some r
  | place :: path, r => ((s.cell r).rep.at? place).bind (s.part? path)

/-- What is the same of the value `q` of the store `s` and the value `q'` of the store `t`. -/
structure Matching (s t : Store) (q q' : Ref) : Prop where
  /-- They are of the same type. -/
  typeOf : t.typeOf q' = s.typeOf q
  /-- They are lists of the same length, or hashes with the same keys in order, or neither. -/
  places : (t.cell q').rep.places = (s.cell q).rep.places
  /-- They have the same text. -/
  text : (Store.text q' t).1 = (Store.text q s).1

section Ways

variable {s t : Store} {base : Nat} {r r' q : Ref} {path : List Place}

/-- What is at the end of a way into a value is held by it. -/
lemma holds_of_part? (h : s.part? path r = some q) : s.Holds r q := by
  induction path generalizing r with
  | nil =>
    cases h
    exact .itself
  | cons place path ih =>
    obtain ⟨e, he, h⟩ := Option.bind_eq_some_iff.1 h
    exact holds_of_part (mem_parts_of_at? he) (ih h)

/-- Ways into values that are there stay what they are when there are more. -/
lemma Enlarged.part?_eq (h : Enlarged s t) (hs : s.Orderly) (hr : r.index < s.cells.size) :
    t.part? path r = s.part? path r := by
  induction path generalizing r with
  | nil => rfl
  | cons place path ih =>
    rw [part?, part?, h.cell r hr]
    cases hpart : (s.cell r).rep.at? place with
    | none => rfl
    | some e => exact ih (hs.lt_of_mem_parts hr (mem_parts_of_at? hpart))

/-- Each way leads to twins, or nowhere in both. -/
lemma Twins.part?_rel (h : Twins base t r r') (path : List Place) :
    Option.Rel (Twins base t) (t.part? path r) (t.part? path r') := by
  induction path generalizing r r' with
  | nil => exact .some h
  | cons place path ih =>
    have hplace := h.cells.rep.at?_rel place
    rw [part?, part?]
    generalize (t.cell r).rep.at? place = e at hplace
    generalize (t.cell r').rep.at? place = e' at hplace
    cases hplace with
    | none => exact .none
    | some he => exact ih he

/-- The type of a value depends on its form, and on its object if it has one. -/
lemma typeOf_congr (hrep : (t.cell q).rep = (s.cell q).rep)
    (hobject : ∀ o, t.object? o = s.object? o) : t.typeOf q = s.typeOf q := by
  unfold typeOf
  rw [hrep]
  cases (s.cell q).rep with
  | object o => exact congrArg (fun x => (x.map Object.tag).getD .object) (hobject o)
  | _ => rfl

/-- Twins are of the same type. -/
lemma Twins.typeOf_eq (h : Twins base t r r') : t.typeOf r' = t.typeOf r := by
  have hrep := h.cells.rep
  unfold typeOf
  generalize (t.cell r).rep = rep at hrep
  generalize (t.cell r').rep = rep' at hrep
  cases hrep with
  | object h h' => simp only [h, h']
  | _ => rfl

/-- A value keeps its type when cells and objects are added. -/
lemma Enlarged.typeOf_eq (h : Enlarged s t) (hs : s.Founded) (hq : q.index < s.cells.size) :
    t.typeOf q = s.typeOf q := by
  unfold typeOf
  rw [h.cell q hq]
  cases hrep : (s.cell q).rep with
  | object o =>
    obtain ⟨x, hx⟩ := hs.wrapped q o hrep
    simp only [hx, h.object o _ hx]
  | _ => rfl

/-- A copy matches the value as it was. -/
lemma Twins.matching {q' : Ref} (h : Twins base t q q') (hlarge : Enlarged s t) (hs : s.Founded)
    (ht : t.Founded) (hq : q.index < s.cells.size) : Matching s t q q' where
  typeOf := h.typeOf_eq.trans (hlarge.typeOf_eq hs hq)
  places := h.cells.rep.places_eq.trans (by rw [hlarge.cell q hq])
  text := by
    rw [(tells_text ht q').1, h.wording_eq ht, hlarge.wording_eq hs ht hq, (tells_text hs q).1]

end Ways

/-! ## Values that are apart -/

/-- Each of the conversions, which are made one after another, is of a value of which `P` holds
then. -/
def ConvertsOnly (P : Store → Ref → Prop) : List (Ref × Conversion) → Store → Prop
  | [], _ => True
  | (r, c) :: steps, s => P s r ∧ ConvertsOnly P steps (c.apply r s)

/-- Whatever conversions are made of what the value `b` holds, all that the value `a` holds is still
held by it then, and has the same text and the same type. -/
def Unaffected (s : Store) (a b : Ref) : Prop :=
  ∀ steps, ConvertsOnly (fun t q => t.Holds b q) steps s → ∀ q, s.Holds a q →
    (converted steps s).Holds a q ∧ (text q (converted steps s)).1 = (text q s).1 ∧
      (converted steps s).typeOf q = s.typeOf q

section Apart

variable {s t : Store} {a b q r : Ref} {steps : List (Ref × Conversion)}

/-- Two values that are there hold no cell in common. -/
structure Apart (s : Store) (a b : Ref) : Prop where
  /-- The one is there. -/
  left : a.index < s.cells.size
  /-- The other is there. -/
  right : b.index < s.cells.size
  /-- What the one holds, the other does not. -/
  disjoint : ∀ q, s.Holds a q → ¬ s.Holds b q

/-- Two values that have nothing in common have nothing in common, the other way around. -/
lemma Apart.symm (h : Apart s a b) : Apart s b a :=
  ⟨h.right, h.left, fun q hb ha => h.disjoint q ha hb⟩

/-- What a value holds after a conversion, it held before, or it is new. -/
lemma Casts.holds_of_holds (h : Casts s r t) (hs : s.Orderly) (hb : b.index < s.cells.size)
    (hq : t.Holds b q) : s.Holds b q ∨ s.cells.size ≤ q.index := by
  induction hq with
  | itself => exact .inl .itself
  | @element e q _ hpart ih =>
    obtain hheld | hnew := ih
    · obtain hrep | ⟨-, -, -, -, hparts⟩ := h.rep e (hs.lt_of_holds hb hheld)
      · exact .inl (hheld.element (hrep ▸ hpart))
      · exact .inr (hparts q hpart).1
    · rw [(h.new e hnew).1] at hpart
      cases hpart

/-- A conversion of something that the one value holds leaves the forms in which all that the other
holds is held. -/
lemma Apart.rep_eq (h : Apart s a b) (hs : s.Orderly) (hr : s.Holds b r) (hcast : Casts s r t)
    (hq : s.Holds a q) : (t.cell q).rep = (s.cell q).rep := by
  refine (hcast.rep q (hs.lt_of_holds h.left hq)).resolve_right ?_
  rintro ⟨rfl, -⟩
  exact h.disjoint q hq hr

/-- The other value holds what it held. -/
lemma Apart.holds_iff (h : Apart s a b) (hs : s.Orderly) (hr : s.Holds b r)
    (hcast : Casts s r t) : t.Holds a q ↔ s.Holds a q := by
  have hrep : ∀ p, s.Holds a p → (t.cell p).rep = (s.cell p).rep := fun _ => h.rep_eq hs hr hcast
  refine ⟨fun hq => ?_, fun hq => hq.congr hrep⟩
  induction hq with
  | itself => exact .itself
  | element _ hpart ih => exact ih.element (hrep _ ih ▸ hpart)

/-- **Values stay apart**: what a conversion gives to a value is new. -/
lemma Apart.casts (h : Apart s a b) (hs : s.Orderly) (hr : s.Holds b r) (hcast : Casts s r t) :
    Apart t a b := by
  refine ⟨Nat.lt_of_lt_of_le h.left hcast.size, Nat.lt_of_lt_of_le h.right hcast.size,
    fun q ha hb => ?_⟩
  have hold := (h.holds_iff hs hr hcast).1 ha
  obtain hheld | hnew := hcast.holds_of_holds hs h.right hb
  · exact h.disjoint q hold hheld
  · have hlt := hs.lt_of_holds h.left hold
    omega

/-- **What is apart is unaffected.**

**Proof sketch.** Induction on the conversions: each one leaves the forms and texts of what
the value holds as they are, even if it makes some of the texts known, and leaves the two
values apart. -/
lemma Apart.unaffected (h : Apart s a b) (hs : s.Orderly) : Unaffected s a b := by
  intro steps hsteps
  induction steps generalizing s with
  | nil => exact fun q hq => ⟨hq, rfl, rfl⟩
  | cons step steps ih =>
    obtain ⟨r, c⟩ := step
    obtain ⟨hr, hrest⟩ := hsteps
    intro q hq
    have hcast := casts_apply hs.toFounded (hs.lt_of_holds h.right hr) c
    have horderly := hcast.orderly hs
    obtain ⟨hheld, htext, htype⟩ := ih (h.casts hs hr hcast) horderly hrest q
      ((h.holds_iff hs hr hcast).2 hq)
    refine ⟨hheld, htext.trans ?_, htype.trans ?_⟩
    · rw [(tells_text horderly.toFounded q).1, (tells_text hs.toFounded q).1]
      exact hcast.wording_eq hs.toFounded (hs.lt_of_holds h.left hq)
    · exact typeOf_congr (h.rep_eq hs hr hcast hq) (object?_congr hcast.objects)

/-- Conversions of what either value holds leave them apart, and the store orderly. -/
lemma Apart.converted (h : Apart s a b) (hs : s.Orderly)
    (hsteps : ConvertsOnly (fun t q => t.Holds a q ∨ t.Holds b q) steps s) :
    (converted steps s).Orderly ∧ Apart (converted steps s) a b := by
  induction steps generalizing s with
  | nil => exact ⟨hs, h⟩
  | cons step steps ih =>
    obtain ⟨r, c⟩ := step
    obtain ⟨ha | hb, hrest⟩ := hsteps
    · have hcast := casts_apply hs.toFounded (hs.lt_of_holds h.left ha) c
      exact ih (h.symm.casts hs ha hcast).symm (hcast.orderly hs) hrest
    · have hcast := casts_apply hs.toFounded (hs.lt_of_holds h.right hb) c
      exact ih (h.casts hs hb hcast) (hcast.orderly hs) hrest

end Apart

/-! ## Copies -/

section Copies

variable {s t : Store} {r r' q : Ref}

/-- What a value holds, it still holds when there are more values, and nothing else. -/
lemma Enlarged.holds_iff (h : Enlarged s t) (hs : s.Orderly) (hr : r.index < s.cells.size) :
    t.Holds r q ↔ s.Holds r q := by
  refine ⟨fun hq => ?_, fun hq => hq.congr fun p hp => ?_⟩
  · induction hq with
    | itself => exact .itself
    | element _ hpart ih =>
      rw [h.cell _ (hs.lt_of_holds hr ih)] at hpart
      exact ih.element hpart
  · rw [h.cell p (hs.lt_of_holds hr hp)]

/-- A value and a copy of it are apart: what the copy holds is not among the values that were there.
-/
lemma Copied.apart (h : Copied s s r (r', t)) (hs : s.Orderly) (hr : r.index < s.cells.size) :
    Apart t r r' := by
  refine ⟨h.enlarged.lt hr, h.twins.cells.made, fun q hq hq' => ?_⟩
  obtain ⟨p, -, htwins⟩ := h.twins.exists_of_holds hq'
  have hfresh : s.cells.size ≤ q.index := htwins.cells.fresh
  have hlt := hs.lt_of_holds hr ((h.enlarged.holds_iff hs hr).1 hq)
  omega

/-- **Copies are separate.** Take a value that is made of texts, numbers, procedures, things of
hosts, and lists and hashes of such values nested to any depth, held in whatever forms. It is as it
was when it is copied. Each way into it leads to a part of the same type and text in the copy, with
the same ways on, in the same order. Nothing that the copy holds belongs to a script, or is held by
the value. However the two and their parts are converted then, whatever conversions are made of what
the one of them holds, everything that the other one holds keeps its text and its type.

**Proof sketch.** A copy is a twin of the value, made of cells that are new. So the two are apart,
and conversions leave them so. -/
theorem copy_separate (hs : s.Assembled) (hr : r.index < s.cells.size)
    (hcopy : copy r s = (r', t)) :
    (∀ q, s.Holds r q → t.cell q = s.cell q) ∧
      (∀ path, Option.Rel (Matching s t) (s.part? path r) (t.part? path r')) ∧
      (∀ q, t.Holds r' q → t.isLiteral q = false ∧ ¬ t.Holds r q) ∧
      ∀ steps, ConvertsOnly (fun u q => u.Holds r q ∨ u.Holds r' q) steps t →
        Unaffected (converted steps t) r r' ∧ Unaffected (converted steps t) r' r := by
  have hcopied := copied_copy hs.orderly hr
  rw [hcopy] at hcopied
  have hapart := hcopied.apart hs.orderly hr
  obtain ⟨hlarge, ht, htwins⟩ := hcopied
  refine ⟨fun q hq => hlarge.cell q (hs.orderly.lt_of_holds hr hq), fun path => ?_, fun q hq => ?_,
    fun steps hsteps => ?_⟩
  -- what is found in the copy is a twin of what is found in the value
  · have hpath := htwins.part?_rel path
    rw [hlarge.part?_eq hs.orderly hr] at hpath
    generalize t.part? path r' = part' at hpath
    cases hpart : s.part? path r with
    | none =>
      rw [hpart] at hpath
      cases hpath
      exact .none
    | some q =>
      rw [hpart] at hpath
      cases hpath with
      | some h =>
        have hlt := hs.orderly.lt_of_holds hr (holds_of_part? hpart)
        exact .some (h.matching hlarge hs.orderly.toFounded ht.toFounded hlt)
  · obtain ⟨p, -, htwins⟩ := htwins.exists_of_holds hq
    exact ⟨htwins.cells.literal, fun hheld => hapart.disjoint q hheld hq⟩
  · obtain ⟨horderly, hstill⟩ := hapart.converted ht hsteps
    exact ⟨hstill.unaffected horderly, hstill.symm.unaffected horderly⟩

/-- A text of a script twice in a list, and a procedure that is made of it. -/
def procedureInList : Store :=
  let fixed := (ofLiteral "list $x" (ofLiteral "x" {}).2).2
  let procedure : Procedure := { spec := ⟨0⟩, params := [⟨"x", none⟩], body := ⟨1⟩ }
  let made := (allocObject (.procedure procedure) fixed).2
  (ofList [⟨0⟩, ⟨0⟩, ⟨2⟩] (ofShared ⟨0⟩ made).2).2

/-- The list is made of what is there. -/
lemma assembled_procedureInList : procedureInList.Assembled := by
  have hfixed : (ofLiteral "list $x" (ofLiteral "x" {}).2).2.Assembled :=
    (Assembled.empty.value { text := some "x", literal := true } (by nofun) (by nofun)).value
      { text := some "list $x", literal := true } (by nofun) (by nofun)
  refine ((hfixed.object _).value { text := none, rep := .object ⟨0⟩ } ?proc ?there).value
    { text := none, rep := .list (.ofList [⟨0⟩, ⟨0⟩, ⟨2⟩]) } ?list nofun
  case proc =>
    intro e he
    change e ∈ [⟨0⟩, ⟨1⟩] at he
    obtain rfl | rfl : e = ⟨0⟩ ∨ e = ⟨1⟩ := by simpa using he
    · decide
    · decide
  case there =>
    rintro o ⟨⟩
    exact ⟨_, rfl⟩
  case list =>
    intro e he
    change e ∈ [⟨0⟩, ⟨0⟩, ⟨2⟩] at he
    obtain rfl | rfl : e = ⟨0⟩ ∨ e = ⟨2⟩ := by simpa using he
    · decide
    · decide

/-- The copy of a list in which a text is shared has the text twice, and it shares the procedure,
but not the value that is the procedure; the copy is the value `7`. -/
theorem copy_separate_procedureInList :
    procedureInList.Assembled ∧ (3 : Nat) < procedureInList.cells.size ∧
      (copy ⟨3⟩ procedureInList).1 = ⟨7⟩ ∧
      (copy ⟨3⟩ procedureInList).2.part? [.index 0] ⟨7⟩ = some ⟨4⟩ ∧
      (copy ⟨3⟩ procedureInList).2.part? [.index 1] ⟨7⟩ = some ⟨5⟩ ∧
      (copy ⟨3⟩ procedureInList).2.part? [.index 2] ⟨7⟩ = some ⟨6⟩ ∧
      (copy ⟨3⟩ procedureInList).2.typeOf ⟨6⟩ = .proc ∧
      (∀ q, (copy ⟨3⟩ procedureInList).2.Holds ⟨7⟩ q →
        (copy ⟨3⟩ procedureInList).2.isLiteral q = false ∧
          ¬ (copy ⟨3⟩ procedureInList).2.Holds ⟨3⟩ q) ∧
      Unaffected (copy ⟨3⟩ procedureInList).2 ⟨3⟩ ⟨7⟩ ∧
      Unaffected (copy ⟨3⟩ procedureInList).2 ⟨7⟩ ⟨3⟩ := by
  have hthere : (3 : Nat) < procedureInList.cells.size := by decide
  have hcopy : copy ⟨3⟩ procedureInList = (⟨7⟩, (copy ⟨3⟩ procedureInList).2) := rfl
  obtain ⟨-, -, hnew, hlater⟩ := copy_separate assembled_procedureInList hthere hcopy
  exact ⟨assembled_procedureInList, hthere, rfl, by decide, by decide, by decide, rfl, hnew,
    hlater [] trivial⟩

end Copies

end Store

end CommandScript
