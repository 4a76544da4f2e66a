import CommandScript.Proofs.Value.Forms

/-!
# Objects that conversions keep

A value may be an object, and so may the elements of a list or of a hash, at any depth. No
conversion takes an object from the value that wraps it. But a list is only a form in which a value
is held: if the value is used as a number, as a hash or as a script, its text is read, the new form
takes the place of the list, and whoever asks for the list afterwards gets new values, made from the
text. The objects in it are out of reach then. This is the only way to lose them.

## Main definitions

* `Store.Place`, `Store.follow`, `Store.objectAt` — ways through lists and hashes to objects.
* `Store.Leads` — the way to an object, read off the forms of values.
* `Store.converted`, `Store.given` — sequences of conversions, and the forms that they give to
  values.

## Main results

* `Store.follow_eq_some_iff` — the two definitions of ways agree.
* `Store.leads_converted_iff` — which ways are left after some conversions.
* `Store.objectAt_converted` — an object is kept if and only if no list or hash on the way to it is
  given another form.
* `Store.objectAt_converted_int` — an object that is lost.
-/

set_option autoImplicit false

namespace CommandScript

namespace Store

/-! ## Ways to objects -/

/-- A place in a list or in a hash. -/
inductive Place where
  /-- A place in a list. -/
  | index (i : Nat)
  /-- A key of a hash. -/
  | key (name : String)
deriving DecidableEq, Repr

/-- The conversion that a place needs. -/
def Place.conversion : Place → Conversion
  | .index _ => .list
  | .key _ => .hash

/-- Something that was taken from a value, and what is picked from it. -/
def pick {α : Type} (choose : α → Option Ref) :
    EStateM.Result Failure Store α → Option (Ref × Store)
  | .ok a t => (choose a).map fun e => (e, t)
  | .error _ _ => none

/-- What is at a place of a value, which is taken as a list or as a hash. -/
def fetch (place : Place) (r : Ref) (s : Store) : Option (Ref × Store) :=
  match place with
  | .index i => pick (fun items => items[i]?) (asList r s)
  | .key name => pick (fun entries => entries.find? name) (asHash r s)

/-- Goes from a value to what is at a place of it, and on, place by place. If there is an object at
the end, it is given, with all that was taken as a list or as a hash on the way. -/
def follow : List Place → Ref → Store → Option (List (Ref × Conversion) × ObjectRef)
  | [], r, s => (s.objectOf? r).map fun o => ([], o)
  | place :: path, r, s => do
    let (e, t) ← fetch place r s
    let (way, o) ← follow path e t
    return ((r, place.conversion) :: way, o)

/-- The object that a way leads to. -/
def objectAt (path : List Place) (r : Ref) (s : Store) : Option ObjectRef :=
  (follow path r s).map Prod.snd

end Store

/-- What is at a place, for a form that is a list or a hash. -/
def Rep.at? : Rep → Store.Place → Option Ref
  | .list items, .index i => items.toList[i]?
  | .hash entries, .key name => entries.find? name
  | _, _ => Option.none

namespace Store

/-- The way to an object, by the forms of the values: nothing needs to be read. -/
inductive Leads (s : Store) : Ref → List Place → List (Ref × Conversion) → ObjectRef → Prop
  /-- The value is the object. -/
  | here {r : Ref} {o : ObjectRef} (h : s.objectOf? r = some o) : Leads s r [] [] o
  /-- The object is in the value. -/
  | into {r e : Ref} {place : Place} {path : List Place} {way : List (Ref × Conversion)}
    {o : ObjectRef} (he : (s.cell r).rep.at? place = some e) (h : Leads s e path way o) :
    Leads s r (place :: path) ((r, place.conversion) :: way) o

section Ways

variable {s t : Store} {c : Conversion} {r q e : Ref} {place : Place} {path : List Place}
  {way : List (Ref × Conversion)} {o : ObjectRef}

/-- What stands at a place of a form is among its parts. -/
lemma mem_parts_of_at? {rep : Rep} (h : rep.at? place = some e) : e ∈ rep.parts := by
  unfold Rep.at? at h
  split at h
  · exact List.mem_of_getElem? h
  · exact Table.mem_values_of_find? h
  · cases h

/-- A form that has a place is a container, of the kind that the place is for. -/
lemma container?_of_at? {rep : Rep} (h : rep.at? place = some e) :
    rep.container? = some place.conversion := by
  unfold Rep.at? at h
  split at h
  · rfl
  · rfl
  · cases h

/-- No way leads on from a value that is held in no form. -/
lemma not_leads_of_rep (h : (s.cell r).rep = .none) : ¬ s.Leads r path way o := by
  rintro (⟨ho⟩ | ⟨he, -⟩)
  · rw [objectOf?, h] at ho
    cases ho
  · rw [h] at he
    cases he

/-- No way leads on from a value with parts that are held in no form. -/
lemma not_leads_of_parts (hobject : s.objectOf? r = none)
    (hparts : ∀ e ∈ (s.cell r).rep.parts, e = r ∨ (s.cell e).rep = .none) :
    ¬ s.Leads r path way o := by
  induction path generalizing way with
  | nil =>
    rintro ⟨ho⟩
    rw [hobject] at ho
    cases ho
  | cons place path ih =>
    rintro (_ | ⟨he, h⟩)
    obtain rfl | hnone := hparts _ (mem_parts_of_at? he)
    · exact ih h
    · exact not_leads_of_rep hnone h

/-- A conversion brings objects nowhere. -/
lemma Formed.not_leads (h : Formed c r s t) (he : (s.cell e).rep = .none) :
    ¬ t.Leads e path way o := by
  cases h with
  | kept hforms _ => exact not_leads_of_rep ((hforms e).trans he)
  | replaced _ _ _ hobject' hrest hparts =>
    by_cases her : e = r
    · subst her
      exact not_leads_of_parts hobject' hparts
    · exact not_leads_of_rep ((hrest e her).trans he)

/-- **Picking a part.** It is there by the form of the value, or it is new. -/
lemma Fetched.pick_eq_some {α : Type} {form : α → Rep} {choose : α → Option Ref}
    {result : EStateM.Result Failure Store α} (hresult : Fetched c form r s result)
    (hgives : c.gives r s = (ConvM.outcome result).isOk)
    (hform : ∀ a, (form a).container? = some c) (hchoose : ∀ a, choose a = (form a).at? place)
    (h : pick choose result = some (e, t)) :
    (s.cell r).rep.at? place = some e ∧ t = s ∨ Formed c r s t ∧ (s.cell e).rep = .none := by
  have hformed := hresult.formed hgives hform
  cases hresult with
  | failed => cases h
  | @held a hrep =>
    obtain ⟨e', he, heq⟩ := Option.map_eq_some_iff.1 h
    obtain ⟨rfl, rfl⟩ := Prod.mk.inj heq
    refine .inl ⟨?_, rfl⟩
    rw [hrep, ← hchoose, he]
  | @read a texts _ hparts =>
    obtain ⟨e', he, heq⟩ := Option.map_eq_some_iff.1 h
    obtain ⟨rfl, rfl⟩ := Prod.mk.inj heq
    refine .inr ⟨hformed, ?_⟩
    rw [hchoose] at he
    rw [← keepsForms_read texts r s]
    exact rep_ofTexts texts _ e' (hparts e' (mem_parts_of_at? he))

/-- If the form that is fetched is there already, its part is picked and the store is left alone. -/
lemma Fetched.pick_of_at? {α : Type} {form : α → Rep} {choose : α → Option Ref}
    {result : EStateM.Result Failure Store α} (hresult : Fetched c form r s result)
    (hc : c = place.conversion) (hchoose : ∀ a, choose a = (form a).at? place)
    (h : (s.cell r).rep.at? place = some e) : pick choose result = some (e, s) := by
  subst hc
  cases hresult with
  | failed _ hother => exact absurd (container?_of_at? h) hother
  | held hrep =>
    rw [hrep, ← hchoose] at h
    exact Option.map_eq_some_iff.2 ⟨e, h, rfl⟩
  | read _ hother => exact absurd (container?_of_at? h) hother

/-- The place of an index is that of the list. -/
lemma at?_index (items : List Ref) (i : Nat) :
    items[i]? = (Rep.list (.ofList items)).at? (.index i) := by
  rw [Rep.at?, Stack.toList_ofList]

/-- What is fetched stood at its place already, or is a new value without a form. -/
lemma fetch_eq_some (h : fetch place r s = some (e, t)) :
    (s.cell r).rep.at? place = some e ∧ t = s ∨
      Formed place.conversion r s t ∧ (s.cell e).rep = .none := by
  cases place with
  | index i =>
    exact (fetched_asList r s).pick_eq_some rfl (fun _ => rfl) (fun items => at?_index items i) h
  | key name => exact (fetched_asHash r s).pick_eq_some rfl (fun _ => rfl) (fun _ => rfl) h

/-- A part that stands at its place is fetched from there, and nothing changes. -/
lemma fetch_of_at? (h : (s.cell r).rep.at? place = some e) : fetch place r s = some (e, s) := by
  cases place with
  | index i => exact (fetched_asList r s).pick_of_at? rfl (fun items => at?_index items i) h
  | key name => exact (fetched_asHash r s).pick_of_at? rfl (fun _ => rfl) h

/-- The way to an object can be read off the forms of the values.

**Proof sketch.** Induction on the way. If a value on it is not held as the list or hash that it is
taken as, its parts are new, and no way leads on from them. -/
lemma follow_eq_some_iff : follow path r s = some (way, o) ↔ s.Leads r path way o := by
  induction path generalizing r s way with
  | nil =>
    constructor
    · intro h
      obtain ⟨o', ho, heq⟩ := Option.map_eq_some_iff.1 h
      obtain ⟨rfl, rfl⟩ := Prod.mk.inj heq
      exact .here ho
    · rintro ⟨ho⟩
      exact Option.map_eq_some_iff.2 ⟨o, ho, rfl⟩
  | cons place path ih =>
    constructor
    · intro h
      obtain ⟨⟨e, t⟩, hfetch, h⟩ := Option.bind_eq_some_iff.1 h
      obtain ⟨⟨way', o'⟩, hrest, heq⟩ := Option.bind_eq_some_iff.1 h
      obtain ⟨rfl, rfl⟩ := Prod.mk.inj (Option.some.inj heq)
      obtain ⟨he, rfl⟩ | ⟨hformed, hnone⟩ := fetch_eq_some hfetch
      · exact .into he (ih.1 hrest)
      · exact absurd (ih.1 hrest) (hformed.not_leads hnone)
    · rintro (_ | ⟨he, h⟩)
      refine Option.bind_eq_some_iff.2 ⟨(_, s), fetch_of_at? he, ?_⟩
      exact Option.bind_eq_some_iff.2 ⟨(_, o), ih.2 h, rfl⟩

/-! ## Sequences of conversions -/

/-- An object stays what it is. -/
lemma Formed.objectOf?_eq (h : Formed c r s t) (ho : s.objectOf? q = some o) :
    t.objectOf? q = some o := by
  have hrep : (t.cell q).rep = (s.cell q).rep := by
    cases h with
    | kept hforms _ => exact hforms q
    | replaced _ _ hobject _ hrest _ =>
      refine hrest q fun hq => ?_
      rw [hq, hobject] at ho
      cases ho
  rw [objectOf?_congr hrep, ho]

/-- A list or hash that is not given another form stays what it is. -/
lemma Formed.at?_eq (h : Formed c r s t) (he : (s.cell q).rep.at? place = some e)
    (hsame : c.gives r s = true → q = r → place.conversion = c) :
    (t.cell q).rep.at? place = some e := by
  have hrep : (t.cell q).rep = (s.cell q).rep := by
    cases h with
    | kept hforms _ => exact hforms q
    | replaced hgives hother _ _ hrest _ =>
      refine hrest q fun hq => hother ?_
      rw [← hq, container?_of_at? he, hsame hgives hq]
  rw [hrep, he]

/-- A way is left if no list or hash on it is given another form. -/
lemma Leads.formed (h : s.Leads q path way o) (hformed : Formed c r s t)
    (hsame : c.gives r s = true → ∀ f, (r, f) ∈ way → f = c) : t.Leads q path way o := by
  induction h with
  | here ho => exact .here (hformed.objectOf?_eq ho)
  | into he _ ih =>
    refine .into (hformed.at?_eq he fun hgives hq => ?_) (ih fun hgives f hf => ?_)
    · exact hsame hgives _ (hq ▸ List.mem_cons_self)
    · exact hsame hgives f (List.mem_cons_of_mem _ hf)

/-- A way that is left was there, and no list or hash on it was given another form. -/
lemma Leads.of_formed (h : t.Leads q path way o) (hformed : Formed c r s t) :
    s.Leads q path way o ∧ (c.gives r s = true → ∀ f, (r, f) ∈ way → f = c) := by
  induction h with
  | @here q o ho =>
    refine ⟨.here ?_, fun _ _ hf => nomatch hf⟩
    cases hformed with
    | kept hforms _ => rw [← objectOf?_congr (hforms q), ho]
    | replaced _ _ _ hobject' hrest _ =>
      have hq : q ≠ r := by
        rintro rfl
        rw [hobject'] at ho
        cases ho
      rw [← objectOf?_congr (hrest q hq), ho]
  | @into q e place path way o he h ih =>
    obtain ⟨hleads, hway⟩ := ih
    cases hformed with
    | kept hforms hsame =>
      rw [hforms] at he
      refine ⟨.into he hleads, fun hgives f hf => ?_⟩
      obtain heq | hf := List.mem_cons.1 hf
      · obtain ⟨rfl, rfl⟩ := Prod.mk.inj heq
        exact hsame hgives _ (container?_of_at? he)
      · exact hway hgives f hf
    | replaced hgives hother hobject hobject' hrest hparts =>
      -- the way does not pass the value with the new form, whose parts lead nowhere
      have hq : q ≠ r := by
        rintro rfl
        exact not_leads_of_parts hobject' hparts (.into he h)
      rw [hrest q hq] at he
      refine ⟨.into he hleads, fun hgives f hf => ?_⟩
      obtain heq | hf := List.mem_cons.1 hf
      · exact absurd (Prod.mk.inj heq).1.symm hq
      · exact hway hgives f hf

end Ways

/-- The store after some conversions, of the values given with them. -/
def converted : List (Ref × Conversion) → Store → Store
  | [], s => s
  | (r, c) :: steps, s => converted steps (c.apply r s)

/-- The forms that some conversions give to values: those to a number, a list, a hash or a script
that succeed. -/
def given : List (Ref × Conversion) → Store → List (Ref × Conversion)
  | [], _ => []
  | (r, c) :: steps, s =>
    if c.gives r s then (r, c) :: given steps (c.apply r s) else given steps (c.apply r s)

/-- What is given by a sequence of conversions, one conversion at a time. -/
lemma mem_given_cons {r q : Ref} {c f : Conversion} {steps : List (Ref × Conversion)} {s : Store} :
    (q, f) ∈ given ((r, c) :: steps) s ↔
      (c.gives r s = true ∧ (q, f) = (r, c)) ∨ (q, f) ∈ given steps (c.apply r s) := by
  rw [given]
  split
  next hgives => rw [List.mem_cons, and_iff_right hgives]
  next hgives => rw [or_iff_right fun h => hgives h.1]

/-- **What conversions leave of the ways to objects.**

**Proof sketch.** Induction on the conversions: what the others leave of the ways that the first one
has left. -/
lemma leads_converted_iff (steps : List (Ref × Conversion)) (s : Store) {q : Ref}
    {path : List Place} {way : List (Ref × Conversion)} {o : ObjectRef} :
    (converted steps s).Leads q path way o ↔
      s.Leads q path way o ∧ ∀ r f c, (r, f) ∈ way → (r, c) ∈ given steps s → f = c := by
  induction steps generalizing s with
  | nil => exact ⟨fun h => ⟨h, fun _ _ _ _ hc => nomatch hc⟩, fun h => h.1⟩
  | cons step steps ih =>
    obtain ⟨r, c⟩ := step
    have hformed := formed_apply c r s
    refine (ih (c.apply r s)).trans ⟨fun ⟨h, hrest⟩ => ?_, fun ⟨h, hall⟩ => ?_⟩
    · obtain ⟨hs, hfirst⟩ := h.of_formed hformed
      refine ⟨hs, fun r' f c' hf hc' => ?_⟩
      obtain ⟨hgives, heq⟩ | hc' := mem_given_cons.1 hc'
      · obtain ⟨rfl, rfl⟩ := Prod.mk.inj heq
        exact hfirst hgives f hf
      · exact hrest r' f c' hf hc'
    · refine ⟨h.formed hformed fun hgives f hf => ?_, fun r' f c' hf hc' => ?_⟩
      · exact hall r f c hf (mem_given_cons.2 (.inl ⟨hgives, rfl⟩))
      · exact hall r' f c' hf (mem_given_cons.2 (.inr hc'))

/-- **Which objects conversions keep.** After any conversions of any values, an object is at the end
of a way through lists and hashes if and only if it was there before, and no list or hash on the
way was converted to a number, a script, or the other of the two. A way without places is the object
itself, so that is always kept. -/
theorem objectAt_converted (steps : List (Ref × Conversion)) (s : Store) (path : List Place)
    (r : Ref) (o : ObjectRef) :
    objectAt path r (converted steps s) = some o ↔
      ∃ way, follow path r s = some (way, o) ∧
        ∀ q f c, (q, f) ∈ way → (q, c) ∈ given steps s → f = c := by
  constructor
  · intro h
    obtain ⟨⟨way, o'⟩, hfollow, rfl⟩ := Option.map_eq_some_iff.1 h
    obtain ⟨hs, hway⟩ := (leads_converted_iff steps s).1 (follow_eq_some_iff.1 hfollow)
    exact ⟨way, follow_eq_some_iff.2 hs, hway⟩
  · rintro ⟨way, hfollow, hway⟩
    have hleft := (leads_converted_iff steps s).2 ⟨follow_eq_some_iff.1 hfollow, hway⟩
    exact Option.map_eq_some_iff.2 ⟨(way, o), follow_eq_some_iff.2 hleft, rfl⟩

/-- A thing of a host that is written as a number, and a list with it as its only element. -/
def listOfNumeral : Store :=
  (ofStack (.ofList [⟨0⟩]) (ofObject (.native { tag := .object, label := "5" }) {}).2).2

/-- **An object can be lost.** A list of one object that is written as a number is used as a number,
and the object is not in the list anymore. -/
theorem objectAt_converted_int :
    ¬ ∀ (s : Store) (r : Ref) (path : List Place) (o : ObjectRef) (cs : List Conversion),
      objectAt path r s = some o →
        objectAt path r (converted (cs.map fun c => (r, c)) s) = some o := by
  intro h
  have hkept := h listOfNumeral ⟨1⟩ [.index 0] ⟨0⟩ [.int] (by decide +kernel)
  have hlost : objectAt [.index 0] ⟨1⟩ (converted [(⟨1⟩, .int)] listOfNumeral) = none := by
    decide +kernel
  exact Option.some_ne_none _ (hkept.symm.trans hlost)

end Store

end CommandScript
