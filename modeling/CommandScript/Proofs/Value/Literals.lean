import CommandScript.Proofs.Value.Wording

/-!
# Values that belong to scripts

When a script is read, a value is made for each of its fixed texts. These values belong to the
script. Every reference that is kept anywhere goes to a value that is there, and whether that value
belongs to a script is settled when it is made: so there are *marks*, one for each value, that only
become more. The elements of a hash belong to no script, as they are made from texts or are copies.
Of the elements of lists this is said only if lists are to be *tidy*. And a value whose text is not
known is written with older values. All of this is kept by every computation on the store that the
interpreter uses.

## Main definitions

* `Marks`, `Marks.Valid`, `Marks.Free`, `Marks.Part` — which values there are, and which of them
  belong to no script.
* `Store.Closed` — the marks of a store, and what its references go to.
* `StoreM.Makes`, `ConvM.Makes` — the computation keeps a store closed, and what its result is.

## Main results

* `Store.makes_own` — what a variable may hold belongs to no script.
* `Store.makes_asStack`, `Store.makes_asHash`, `Store.makes_asScript` — conversions.
* `Procedure.makes_define`, `Exception.makes_diagnosis` and others — what is made of values.
-/

set_option autoImplicit false

namespace CommandScript

/-- For each value, whether it belongs to a script. -/
abbrev Marks : Type :=
  List Bool

namespace Marks

variable {tidy : Prop} {μ μ' : Marks} {r : Ref}

/-- The value is there. -/
def Valid (μ : Marks) (r : Ref) : Prop :=
  r.index < μ.length

/-- The value is there and belongs to no script. -/
def Free (μ : Marks) (r : Ref) : Prop :=
  μ[r.index]? = some false

/-- The value may be an element of a list: it is there and, if lists are to be tidy, belongs to no
script. -/
def Part (tidy : Prop) (μ : Marks) (r : Ref) : Prop :=
  μ.Valid r ∧ (tidy → μ.Free r)

/-- A value that belongs to no script is there. -/
lemma Free.valid (h : μ.Free r) : μ.Valid r :=
  (List.getElem?_eq_some_iff.1 h).1

/-- It may be an element of a list, tidy or not. -/
lemma Free.part (h : μ.Free r) : μ.Part tidy r :=
  ⟨h.valid, fun _ => h⟩

/-- A value is there when there are more. -/
lemma Valid.mono (h : μ.Valid r) (hμ : μ <+: μ') : μ'.Valid r :=
  Nat.lt_of_lt_of_le h hμ.length_le

/-- A value belongs to no script when there are more. -/
lemma Free.mono (h : μ.Free r) (hμ : μ <+: μ') : μ'.Free r := by
  obtain ⟨ρ, rfl⟩ := hμ
  have hlt := h.valid
  unfold Free at h ⊢
  rw [List.getElem?_append_left hlt, h]

/-- A value may be an element of a list when there are more. -/
lemma Part.mono (h : μ.Part tidy r) (hμ : μ <+: μ') : μ'.Part tidy r :=
  ⟨h.1.mono hμ, fun htidy => (h.2 htidy).mono hμ⟩

/-- Nothing is said of the thing. -/
def Anything {α : Type} (_ : Marks) (_ : α) : Prop :=
  True

/-- All of the things are of this kind. -/
def All {α : Type} (R : Marks → α → Prop) (μ : Marks) (as : List α) : Prop :=
  ∀ a ∈ as, R μ a

/-- What is of this kind still is when there are more values. -/
def Firm {α : Type} (R : Marks → α → Prop) : Prop :=
  ∀ ⦃μ μ' : Marks⦄, μ <+: μ' → ∀ ⦃a⦄, R μ a → R μ' a

/-- Values that are there stay so. -/
lemma firm_valid : Firm Valid :=
  fun _ _ hμ _ h => h.mono hμ

/-- Values that belong to no script go on belonging to none. -/
lemma firm_free : Firm Free :=
  fun _ _ hμ _ h => h.mono hμ

/-- What may be an element of a list may be one later. -/
lemma firm_part : Firm (Part tidy) :=
  fun _ _ hμ _ h => h.mono hμ

/-- What stays so for each thing stays so for all. -/
lemma Firm.all {α : Type} {R : Marks → α → Prop} (hR : Firm R) : Firm (All R) :=
  fun _ _ hμ _ h a ha => hR hμ (h a ha)

/-- Values that belong to scripts may be collected, if lists are not to be tidy. -/
lemma All.parts {rs : List Ref} (h : All Valid μ rs) (htidy : ¬ tidy) : All (Part tidy) μ rs :=
  fun r hr => ⟨h r hr, fun ht => (htidy ht).elim⟩

end Marks

open Marks

/-! ## Closed stores -/

namespace Script

mutual

/-- The values in the place of the fixed texts of a word. -/
def wordLiterals : Word Ref → List Ref
  | .literal r => [r]
  | .var _ => []
  | .substitution script => literals script
  | .joined parts => wordsLiterals parts

/-- The values in the place of the fixed texts of some words. -/
def wordsLiterals : List (Word Ref) → List Ref
  | [] => []
  | w :: rest => wordLiterals w ++ wordsLiterals rest

/-- The values in the place of the fixed texts of a script. -/
def literals : List (List (Word Ref)) → List Ref
  | [] => []
  | c :: rest => wordsLiterals c ++ literals rest

end

end Script

/-- The values that a form is made of are there; those of a hash belong to no script. -/
def Rep.Closed (tidy : Prop) (μ : Marks) : Rep → Prop
  | .list items => ∀ e ∈ items.toList, μ.Part tidy e
  | .hash entries => ∀ e ∈ entries.values, μ.Free e
  | .script commands => ∀ e ∈ Script.literals commands, μ.Valid e
  | _ => True

/-- The values that a procedure is made of are there. -/
structure Procedure.Valid (μ : Marks) (p : Procedure) : Prop where
  /-- The parameters as they were written. -/
  spec : μ.Valid p.spec
  /-- What parameters get if there is no argument. -/
  fallback : ∀ q ∈ p.params, ∀ d, q.fallback = some d → μ.Valid d
  /-- The script to run. -/
  body : μ.Valid p.body

/-- The values that an object is made of are there. A procedure may collect values in a list, so
there is none if lists are to be tidy. -/
def Object.Closed (tidy : Prop) (μ : Marks) : Object → Prop
  | .procedure p => ¬ tidy ∧ p.Valid μ
  | .native _ => True

/-- The marks of the values are `μ`, what is kept in the store is made of values that are there, and
values are written with older values. -/
structure Store.Closed (tidy : Prop) (μ : Marks) (s : Store) : Prop where
  /-- The marks. -/
  marks : s.cells.toList.map Cell.literal = μ
  /-- The forms of values. -/
  forms : ∀ r, (s.cell r).rep.Closed tidy μ
  /-- The objects. -/
  objects : ∀ o object, s.object? o = some object → object.Closed tidy μ
  /-- What values are written with. -/
  founded : s.Founded

section Mono

variable {tidy : Prop} {μ μ' : Marks}

/-- A form is closed when there are more values. -/
lemma Rep.Closed.mono {rep : Rep} (h : rep.Closed tidy μ) (hμ : μ <+: μ') :
    rep.Closed tidy μ' := by
  cases rep with
  | list items => exact fun e he => (h e he).mono hμ
  | hash entries => exact fun e he => (h e he).mono hμ
  | script commands => exact fun e he => (h e he).mono hμ
  | _ => trivial

/-- A procedure is there when there are more values. -/
lemma Procedure.Valid.mono {p : Procedure} (h : p.Valid μ) (hμ : μ <+: μ') : p.Valid μ' :=
  ⟨h.spec.mono hμ, fun q hq d hd => (h.fallback q hq d hd).mono hμ, h.body.mono hμ⟩

/-- So is an object. -/
lemma Object.Closed.mono {o : Object} (h : o.Closed tidy μ) (hμ : μ <+: μ') :
    o.Closed tidy μ' := by
  cases o with
  | procedure p => exact ⟨h.1, h.2.mono hμ⟩
  | native n => trivial

end Mono

namespace Store

variable {tidy : Prop} {μ : Marks} {s : Store} {r : Ref}

/-- The marks tell of each cell whether it is a literal. -/
lemma Closed.getElem? (hs : s.Closed tidy μ) (r : Ref) :
    μ[r.index]? = (s.cells[r.index]?).map Cell.literal := by
  rw [← hs.marks, List.getElem?_map, Array.getElem?_toList]

/-- A value that is there is marked by whether it belongs to a script. -/
lemma Closed.isLiteral_eq (hs : s.Closed tidy μ) (hr : μ.Valid r) :
    μ[r.index]? = some (s.isLiteral r) := by
  have hmark := hs.getElem? r
  rw [hmark]
  unfold isLiteral cell
  cases hcell : s.cells[r.index]? with
  | some c => rfl
  | none =>
    rw [hcell] at hmark
    exact absurd hr (Nat.not_lt.2 (List.getElem?_eq_none_iff.1 hmark))

/-- What belongs to no script is no literal. -/
lemma Closed.isLiteral_of_free (hs : s.Closed tidy μ) (hr : μ.Free r) : s.isLiteral r = false :=
  Option.some.inj ((hs.isLiteral_eq hr.valid).symm.trans hr)

/-- What is there and no literal belongs to no script. -/
lemma Closed.free_of_isLiteral (hs : s.Closed tidy μ) (hr : μ.Valid r)
    (h : s.isLiteral r = false) : μ.Free r := by
  unfold Free
  rw [hs.isLiteral_eq hr, h]

/-- There are as many marks as cells. -/
lemma Closed.length_eq (hs : s.Closed tidy μ) : μ.length = s.cells.size := by
  rw [← hs.marks, List.length_map, Array.length_toList]

/-- The store without values is closed. -/
lemma closed_empty : Closed tidy [] {} where
  marks := rfl
  forms r := by
    rw [cell_of_size_le (Nat.zero_le _)]
    trivial
  objects o object h := by
    unfold object? at h
    rw [Array.getElem?_eq_none (Nat.zero_le _)] at h
    cases h
  founded := founded_empty

/-- The marks are the same if each cell has the mark that it had. -/
lemma map_literal_eq {t : Store} (hsize : t.cells.size = s.cells.size)
    (h : ∀ r, (t.cell r).literal = (s.cell r).literal) :
    t.cells.toList.map Cell.literal = s.cells.toList.map Cell.literal := by
  refine List.ext_getElem? fun i => ?_
  rw [List.getElem?_map, List.getElem?_map, Array.getElem?_toList, Array.getElem?_toList]
  have hi := h ⟨i⟩
  unfold cell at hi
  by_cases hlt : i < s.cells.size
  · rw [Array.getElem?_eq_getElem hlt, Array.getElem?_eq_getElem (hsize ▸ hlt)] at hi ⊢
    exact congrArg some hi
  · rw [Array.getElem?_eq_none (Nat.le_of_not_lt hlt),
      Array.getElem?_eq_none (hsize ▸ Nat.le_of_not_lt hlt)]

/-- Which texts are known does not matter. -/
lemma Closed.told {P : Ref → Prop} {t : Store} (hs : s.Closed tidy μ) (h : Told P s t) :
    t.Closed tidy μ where
  marks := by
    rw [map_literal_eq h.size fun r => ?_, hs.marks]
    obtain hsame | ⟨-, -, hknown⟩ := h.cell r
    · rw [hsame]
    · rw [hknown]
  forms r := by
    rw [h.rep r]
    exact hs.forms r
  objects o object ho := by
    rw [object?_congr h.objects] at ho
    exact hs.objects o object ho
  founded := h.founded hs.founded

/-- The form of a value whose text is known may be replaced. -/
lemma Closed.setRep (hs : s.Closed tidy μ) {rep : Rep} (hrep : rep.Closed tidy μ)
    (hobject : ∀ o, rep ≠ .object o) {r : Ref} (hr : (s.cell r).text ≠ none) :
    (setRep r rep s).2.Closed tidy μ where
  marks := by
    rw [map_literal_eq Array.size_modify fun q => ?_, hs.marks]
    change (Store.cell { s with cells := s.cells.modify r.index _ } q).literal = _
    unfold cell
    rw [Array.getElem?_modify]
    split
    next =>
      cases s.cells[q.index]? with
      | none => rfl
      | some c => rfl
    next => rfl
  forms := forall_cell_modify (P := fun c => c.rep.Closed tidy μ) hs.forms hrep
  objects := hs.objects
  founded := hs.founded.setRep hr hobject

/-- What a form is written with is there. -/
lemma Closed.lt_of_mem_sources (hs : s.Closed tidy μ) {rep : Rep} (hrep : rep.Closed tidy μ)
    {e : Ref} (he : e ∈ s.sources rep) : e.index < s.cells.size := by
  rw [← hs.length_eq]
  cases rep with
  | list items => exact (hrep e he).1
  | hash entries => exact (hrep e he).valid
  | object o =>
    rw [sources] at he
    split at he
    next p hp =>
      have hvalid := (hs.objects o _ hp).2
      simp only [List.mem_cons, List.not_mem_nil, or_false] at he
      obtain rfl | rfl := he
      · exact hvalid.spec
      · exact hvalid.body
    next => cases he
  | _ => cases he

/-- A value may be added. -/
lemma Closed.alloc (hs : s.Closed tidy μ) {c : Cell} (hc : c.rep.Closed tidy μ)
    (hobject : ∀ o, c.rep = .object o → ∃ x, s.object? o = some x) :
    (alloc c s).2.Closed tidy (μ ++ [c.literal]) where
  marks := by
    change (s.cells.push c).toList.map Cell.literal = _
    rw [Array.toList_push, List.map_append, hs.marks]
    rfl
  forms := by
    have hμ : μ <+: μ ++ [c.literal] := List.prefix_append _ _
    exact forall_cell_alloc (P := fun c => c.rep.Closed tidy _) (fun r => (hs.forms r).mono hμ)
      (hc.mono hμ)
  objects o object h := (hs.objects o object h).mono (List.prefix_append _ _)
  founded := hs.founded.alloc (fun _ _ he => hs.lt_of_mem_sources hc he) hobject

/-- An object may be added. -/
lemma Closed.allocObject (hs : s.Closed tidy μ) {o : Object} (ho : o.Closed tidy μ) :
    (allocObject o s).2.Closed tidy μ where
  marks := hs.marks
  forms := hs.forms
  objects q object h := by
    change (s.objects.push o)[q.index]? = some object at h
    rw [Array.getElem?_push] at h
    split at h
    · cases h
      exact ho
    · exact hs.objects q object h
  founded := hs.founded.allocObject o

end Store

open Store

/-! ## Computations on closed stores -/

namespace StoreM

variable {α β : Type} {tidy : Prop} {μ : Marks} {R : Marks → α → Prop} {S : Marks → β → Prop}

/-- From a closed store with the marks `μ`, the computation comes to a closed store with these marks
and perhaps more, with a result of this kind. -/
def Makes (tidy : Prop) (μ : Marks) (R : Marks → α → Prop) (m : StoreM α) : Prop :=
  ∀ s, s.Closed tidy μ → ∃ μ', μ <+: μ' ∧ (m s).2.Closed tidy μ' ∧ R μ' (m s).1

/-- What is said of the result may be weakened. -/
lemma Makes.imp {R' : Marks → α → Prop} {m : StoreM α} (hm : Makes tidy μ R m)
    (h : ∀ μ' a, μ <+: μ' → R μ' a → R' μ' a) : Makes tidy μ R' m := by
  intro s hs
  obtain ⟨μ', hμ, hs', ha⟩ := hm s hs
  exact ⟨μ', hμ, hs', h μ' _ hμ ha⟩

/-- A result that is there already needs no value. -/
lemma Makes.pure {a : α} (h : R μ a) : Makes tidy μ R (Pure.pure a) :=
  fun _ hs => ⟨μ, List.prefix_rfl, hs, h⟩

/-- One thing after another leaves a store closed, if both do. -/
lemma Makes.bind {m : StoreM α} {f : α → StoreM β} (hm : Makes tidy μ R m)
    (hf : ∀ μ' a, μ <+: μ' → R μ' a → Makes tidy μ' S (f a)) : Makes tidy μ S (m >>= f) := by
  intro s hs
  obtain ⟨μ₁, h₁, hs₁, ha⟩ := hm s hs
  obtain ⟨μ₂, h₂, hs₂, hb⟩ := hf μ₁ (m s).1 h₁ ha (m s).2 hs₁
  exact ⟨μ₂, h₁.trans h₂, hs₂, hb⟩

/-- A look at the store. -/
lemma Makes.getBind {f : Store → StoreM β}
    (hf : ∀ s, s.Closed tidy μ → Makes tidy μ S (f s)) : Makes tidy μ S (get >>= f) :=
  fun s hs => hf s hs s hs

/-- So does what is done for each of many things. -/
lemma Makes.mapM {f : α → StoreM β} (hS : Firm S) {as : List α}
    (hf : ∀ μ' a, μ <+: μ' → a ∈ as → Makes tidy μ' S (f a)) :
    Makes tidy μ (All S) (as.mapM f) := by
  induction as generalizing μ with
  | nil => exact .pure fun b hb => nomatch hb
  | cons a as ih =>
    rw [List.mapM_cons]
    refine (hf μ a List.prefix_rfl List.mem_cons_self).bind fun μ₁ b h₁ hb => ?_
    have hrest := ih fun μ' a' hμ' ha' => hf μ' a' (h₁.trans hμ') (List.mem_cons_of_mem _ ha')
    refine hrest.bind fun μ₂ bs h₂ hbs => .pure fun b' hb' => ?_
    obtain rfl | hb' := List.mem_cons.1 hb'
    · exact hS h₂ hb
    · exact hbs b' hb'

end StoreM

open StoreM

namespace Store

variable {tidy : Prop} {μ : Marks}

/-! ## Making values -/

/-- **A new value** that belongs to no script. -/
lemma makes_alloc {c : Cell} (hc : c.rep.Closed tidy μ) (hobject : ∀ o, c.rep ≠ .object o)
    (hfree : c.literal = false) : Makes tidy μ Free (alloc c) := by
  intro s hs
  have hclosed := hs.alloc hc fun o ho => absurd ho (hobject o)
  refine ⟨μ ++ [c.literal], List.prefix_append _ _, hclosed, ?_⟩
  change (μ ++ [c.literal])[s.cells.size]? = some false
  rw [← hs.length_eq, List.getElem?_concat_length, hfree]

/-- A new text belongs to no script. -/
lemma makes_ofText (text : String) : Makes tidy μ Free (ofText text) :=
  makes_alloc trivial nofun rfl

/-- A new literal is there. -/
lemma makes_ofLiteral (text : String) : Makes tidy μ Valid (ofLiteral text) := by
  intro s hs
  have hclosed := hs.alloc (c := { text := some text, literal := true }) trivial nofun
  refine ⟨μ ++ [true], List.prefix_append _ _, hclosed, ?_⟩
  change s.cells.size < (μ ++ [true]).length
  rw [List.length_append, hs.length_eq]
  exact Nat.lt_succ_self _

/-- A new value with a closed form belongs to no script. -/
lemma makes_ofRep {rep : Rep} (h : rep.Closed tidy μ) (hobject : ∀ o, rep ≠ .object o) :
    Makes tidy μ Free (ofRep rep) :=
  makes_alloc h hobject rfl

/-- So it is with an integer. -/
lemma makes_ofInt (n : Int32) : Makes tidy μ Free (ofInt n) :=
  makes_ofRep trivial nofun

/-- So it is with a list of what may be its elements. -/
lemma makes_ofList {items : List Ref} (h : All (Part tidy) μ items) :
    Makes tidy μ Free (ofList items) := by
  refine makes_ofRep (fun e he => ?_) nofun
  rw [Stack.toList_ofList] at he
  exact h e he

/-- So it is with many texts. -/
lemma makes_ofTexts (texts : List String) : Makes tidy μ (All Free) (ofTexts texts) :=
  .mapM firm_free fun _ _ _ _ => makes_ofText _

/-- A new value around an object that is there. -/
lemma exists_ofShared {s : Store} (hs : s.Closed tidy μ) {o : ObjectRef} {x : Object}
    (ho : s.object? o = some x) (text : Option String) :
    ∃ μ', μ <+: μ' ∧ (alloc { text, rep := .object o } s).2.Closed tidy μ' ∧
      Free μ' (alloc { text, rep := .object o } s).1 := by
  have hclosed := hs.alloc (c := { text, rep := .object o }) trivial fun o' ho' => by
    cases ho'
    exact ⟨x, ho⟩
  refine ⟨μ ++ [false], List.prefix_append _ _, hclosed, ?_⟩
  · change (μ ++ [false])[s.cells.size]? = some false
    rw [← hs.length_eq, List.getElem?_concat_length]

/-- So it is with an object. -/
lemma makes_ofObject {o : Object} (h : o.Closed tidy μ) : Makes tidy μ Free (ofObject o) := by
  intro s hs
  refine exists_ofShared (x := o) (hs.allocObject h) ?_ none
  change (s.objects.push o)[s.objects.size]? = some o
  exact Array.getElem?_push_size

/-- Asking for a text leaves a store closed. -/
lemma makes_text (r : Ref) : Makes tidy μ Anything (text r) :=
  fun _ hs => ⟨μ, List.prefix_rfl, hs.told (tells_text hs.founded r).2, trivial⟩

/-- So does asking for many. -/
lemma makes_texts (rs : List Ref) : Makes tidy μ Anything (texts rs) :=
  fun _ hs => ⟨μ, List.prefix_rfl, hs.told (tells_texts hs.founded rs).2, trivial⟩

/-- So does the text of a list. -/
lemma makes_listText (rs : List Ref) : Makes tidy μ Anything (listText rs) :=
  (makes_texts rs).bind fun _ _ _ _ => .pure trivial

/-! ## Copies -/

/-- An object is copied, or shared with the copy. -/
lemma closed_copyObject {s : Store} (hs : s.Closed tidy μ) {o : ObjectRef} {x : Object}
    (ho : s.object? o = some x) : (copyObject o s).2.Closed tidy μ ∧
      ∃ y, (copyObject o s).2.object? (copyObject o s).1 = some y := by
  unfold copyObject
  split
  next n _ =>
    split
    · exact ⟨hs.allocObject trivial, _, Array.getElem?_push_size⟩
    · exact ⟨hs, x, ho⟩
  next => exact ⟨hs, x, ho⟩

/-- A form that is no object is copied with all that it is made of. -/
lemma makes_copyRep {copy : Ref → StoreM Ref} {rep : Rep} (hrep : rep.Closed tidy μ)
    (hobject : ∀ o, rep ≠ .object o)
    (hcopy : ∀ μ' r, Makes tidy μ' (fun μ'' q => q = r ∨ Free μ'' q) (copy r)) :
    Makes tidy μ (fun μ' rep' => rep'.Closed tidy μ' ∧ ∀ o, rep' ≠ .object o)
      (copyRep copy rep) := by
  cases rep with
  | list items =>
    have hparts : Makes tidy μ (All (Part tidy)) (items.toList.mapM copy) := by
      refine .mapM firm_part fun μ' e hμ' he => (hcopy μ' e).imp fun μ'' q hμ'' hq => ?_
      obtain rfl | hq := hq
      · exact ((hrep q he).mono hμ').mono hμ''
      · exact hq.part
    refine hparts.bind fun μ' copies _ hcopies => .pure ⟨fun e he => ?_, nofun⟩
    rw [Stack.toList_ofList] at he
    exact hcopies e he
  | hash entries =>
    have hparts : Makes tidy μ (All Free) (entries.values.mapM copy) := by
      refine .mapM firm_free fun μ' e hμ' he => (hcopy μ' e).imp fun μ'' q hμ'' hq => ?_
      obtain rfl | hq := hq
      · exact ((hrep q he).mono hμ').mono hμ''
      · exact hq
    exact hparts.bind fun μ' copies _ hcopies => .pure ⟨fun e he =>
      hcopies e (Table.mem_values_withValues he), nofun⟩
  | object o => exact absurd rfl (hobject o)
  | script commands => exact .pure ⟨hrep, nofun⟩
  | _ => exact .pure ⟨trivial, nofun⟩

/-- A copy is new, unless there is nothing left to go down. -/
lemma makes_copyWithin (fuel : Nat) (r : Ref) :
    Makes tidy μ (fun μ' q => fuel = 0 ∧ q = r ∨ Free μ' q) (copyWithin fuel r) := by
  induction fuel generalizing μ r with
  | zero => exact .pure (.inl ⟨rfl, rfl⟩)
  | succ fuel ih =>
    have hcopy : ∀ μ' r', Makes tidy μ' (fun μ'' q => q = r' ∨ Free μ'' q) (copyWithin fuel r') :=
      fun μ' r' => (ih r').imp fun _ _ _ hq => hq.imp_left And.right
    intro s hs
    rw [copyWithin_succ]
    -- an object is copied as an object; any other form is made of copies of its parts
    by_cases hobject : ∃ o, (s.cell r).rep = .object o
    · obtain ⟨o, ho⟩ := hobject
      obtain ⟨x, hx⟩ := hs.founded.wrapped r o ho
      obtain ⟨hclosed, y, hy⟩ := closed_copyObject hs hx
      obtain ⟨μ', hμ, hs', hfree⟩ := exists_ofShared hclosed hy (s.cell r).text
      rw [ho]
      exact ⟨μ', hμ, hs', .inr hfree⟩
    · obtain ⟨μ₁, h₁, hs₁, hrep, hplain⟩ :=
        makes_copyRep (hs.forms r) (fun o ho => hobject ⟨o, ho⟩) hcopy s hs
      obtain ⟨μ₂, h₂, hs₂, hfree⟩ :=
        makes_alloc (c := { text := (s.cell r).text, rep := _ }) hrep hplain rfl _ hs₁
      exact ⟨μ₂, h₁.trans h₂, hs₂, .inr hfree⟩

/-- A copy belongs to no script, nor do the copies of its parts. -/
lemma makes_copy {r : Ref} (hr : μ.Valid r) : Makes tidy μ Free (copy r) := by
  refine .getBind fun s hs => (makes_copyWithin _ r).imp fun μ' q _ hq => ?_
  obtain ⟨hnone, -⟩ | hq := hq
  · rw [← hs.length_eq] at hnone
    unfold Valid at hr
    omega
  · exact hq

/-- **What a variable may hold** belongs to no script. -/
lemma makes_own {r : Ref} (hr : μ.Valid r) : Makes tidy μ Free (own r) := by
  refine .getBind fun s hs => ?_
  split
  · exact makes_copy hr
  next hfree => exact .pure (hs.free_of_isLiteral hr (Bool.eq_false_iff.2 hfree))

/-! ## Keeping forms -/

/-- Keeping a closed form leaves a store closed. -/
lemma makes_cache (r : Ref) {rep : Rep} (hrep : rep.Closed tidy μ)
    (hobject : ∀ o, rep ≠ .object o) : Makes tidy μ Anything (cache r rep) := by
  intro s hs
  have hs' : (text r s).2.Closed tidy μ := hs.told (tells_text hs.founded r).2
  refine ⟨μ, List.prefix_rfl, ?_, trivial⟩
  cases hwrapped : (text r s).2.objectOf? r with
  | some o =>
    rw [cache_of_object hwrapped]
    exact hs'
  | none =>
    rw [cache_apply hwrapped]
    refine hs'.setRep hrep hobject ?_
    rw [cell_text_text]
    exact Option.some_ne_none _

end Store

namespace Script

variable {tidy : Prop}

mutual

/-- The literals of a loaded word are there. -/
lemma makes_loadWord (μ : Marks) :
    ∀ w : Word String, Makes tidy μ (fun μ' w' => All Valid μ' (wordLiterals w')) (loadWord w)
  | .literal text => (makes_ofLiteral text).bind fun _ r _ hr => .pure fun e he => by
      rw [wordLiterals, List.mem_singleton] at he
      exact he ▸ hr
  | .var name => .pure fun e he => by
      rw [wordLiterals] at he
      cases he
  | .substitution script => (makes_load μ script).bind fun _ script' _ hscript =>
      .pure fun e he => by
        rw [wordLiterals] at he
        exact hscript e he
  | .joined parts => (makes_loadWords μ parts).bind fun _ parts' _ hparts =>
      .pure fun e he => by
        rw [wordLiterals] at he
        exact hparts e he

/-- So are those of the words of a command. -/
lemma makes_loadWords (μ : Marks) :
    ∀ ws : List (Word String),
      Makes tidy μ (fun μ' ws' => All Valid μ' (wordsLiterals ws')) (loadWords ws)
  | [] => .pure fun e he => by
      rw [wordsLiterals] at he
      cases he
  | w :: rest => (makes_loadWord μ w).bind fun μ₁ w' _ hw =>
      (makes_loadWords μ₁ rest).bind fun _ rest' hμ hrest => .pure fun e he => by
        rw [wordsLiterals] at he
        obtain he | he := List.mem_append.1 he
        · exact (hw e he).mono hμ
        · exact hrest e he

/-- The values that a script is loaded with are there. -/
lemma makes_load (μ : Marks) :
    ∀ script : List (List (Word String)),
      Makes tidy μ (fun μ' script' => All Valid μ' (literals script')) (load script)
  | [] => .pure fun e he => by
      rw [literals] at he
      cases he
  | c :: rest => (makes_loadWords μ c).bind fun μ₁ c' _ hc =>
      (makes_load μ₁ rest).bind fun _ rest' hμ hrest => .pure fun e he => by
        rw [literals] at he
        obtain he | he := List.mem_append.1 he
        · exact (hc e he).mono hμ
        · exact hrest e he

end

end Script

/-! ## Conversions -/

namespace ConvM

variable {α β : Type} {tidy : Prop} {μ : Marks} {R : Marks → α → Prop} {S : Marks → β → Prop}

/-- From a closed store with the marks `μ`, the computation comes to a closed store with these marks
and perhaps more, whether it fails or not; its result, if there is one, is of this kind. -/
def Makes (tidy : Prop) (μ : Marks) (R : Marks → α → Prop) (m : ConvM α) : Prop :=
  ∀ s, s.Closed tidy μ → ∃ μ', μ <+: μ' ∧ (finalState (m s)).Closed tidy μ' ∧
    ∀ a t, m s = .ok a t → R μ' a

/-- A result that is there already needs no value. -/
lemma Makes.pure {a : α} (h : R μ a) : Makes tidy μ R (Pure.pure a) := by
  refine fun s hs => ⟨μ, List.prefix_rfl, hs, fun b t hok => ?_⟩
  cases hok
  exact h

/-- A failure has no result. -/
lemma Makes.throw (f : Failure) : Makes tidy μ R (MonadExcept.throw f) :=
  fun _ hs => ⟨μ, List.prefix_rfl, hs, fun _ _ hok => nomatch hok⟩

/-- Work on values may be part of a conversion. -/
lemma Makes.lift {m : StoreM α} (hm : m.Makes tidy μ R) : Makes tidy μ R (liftM m) := by
  intro s hs
  obtain ⟨μ', hμ, hs', ha⟩ := hm s hs
  refine ⟨μ', hμ, hs', fun b t hok => ?_⟩
  cases hok
  exact ha

/-- One conversion after another leaves a store closed, if both do. -/
lemma Makes.bind {m : ConvM α} {f : α → ConvM β} (hm : Makes tidy μ R m)
    (hf : ∀ μ' a, μ <+: μ' → R μ' a → Makes tidy μ' S (f a)) : Makes tidy μ S (m >>= f) := by
  intro s hs
  obtain ⟨μ₁, h₁, hs₁, ha⟩ := hm s hs
  change ∃ μ', _ ∧ (finalState (EStateM.bind m f s)).Closed tidy μ' ∧
    ∀ b t, EStateM.bind m f s = .ok b t → S μ' b
  unfold EStateM.bind
  cases hms : m s with
  | ok a t =>
    rw [hms] at hs₁
    obtain ⟨μ₂, h₂, hs₂, hb⟩ := hf μ₁ a h₁ (ha a t hms) t hs₁
    exact ⟨μ₂, h₁.trans h₂, hs₂, hb⟩
  | error e t =>
    rw [hms] at hs₁
    exact ⟨μ₁, h₁, hs₁, fun _ _ hok => nomatch hok⟩

/-- A look at the store. -/
lemma Makes.getBind {f : Store → ConvM β}
    (hf : ∀ s, s.Closed tidy μ → Makes tidy μ S (f s)) : Makes tidy μ S (get >>= f) :=
  fun s hs => hf s hs s hs

/-- So does what is done for each of many things. -/
lemma Makes.mapM {f : α → ConvM β} (hS : Firm S) {as : List α}
    (hf : ∀ μ' a, μ <+: μ' → a ∈ as → Makes tidy μ' S (f a)) :
    Makes tidy μ (All S) (as.mapM f) := by
  induction as generalizing μ with
  | nil => exact .pure fun b hb => nomatch hb
  | cons a as ih =>
    rw [List.mapM_cons]
    refine (hf μ a List.prefix_rfl List.mem_cons_self).bind fun μ₁ b h₁ hb => ?_
    have hrest := ih fun μ' a' hμ' ha' => hf μ' a' (h₁.trans hμ') (List.mem_cons_of_mem _ ha')
    refine hrest.bind fun μ₂ bs h₂ hbs => .pure fun b' hb' => ?_
    obtain rfl | hb' := List.mem_cons.1 hb'
    · exact hS h₂ hb
    · exact hbs b' hb'

end ConvM

namespace Store

variable {tidy : Prop} {μ : Marks}

/-- What is read from a text holds no values. -/
lemma makes_readAs {α : Type} (r : Ref) (read? : String → Option α) {rep : α → Rep}
    (failure : String → Failure) (hrep : ∀ μ' a, (rep a).Closed tidy μ')
    (hobject : ∀ a o, rep a ≠ .object o) :
    ConvM.Makes tidy μ Anything (readAs r read? rep failure) := by
  refine (ConvM.Makes.lift (makes_text r)).bind fun _ t _ _ => ?_
  split
  · have hcache := fun μ' a => makes_cache r (hrep μ' a) (hobject a)
    exact (ConvM.Makes.lift (hcache _ _)).bind fun _ _ _ _ => .pure trivial
  · exact .throw _

/-- So it is with an integer. -/
lemma makes_asInt (r : Ref) : ConvM.Makes tidy μ Anything (asInt r) := by
  refine .getBind fun s _ => ?_
  split
  · exact .pure trivial
  · split
    · exact .pure trivial
    · exact makes_readAs r _ _ (fun _ _ => trivial) fun _ _ => nofun
  · exact makes_readAs r _ _ (fun _ _ => trivial) fun _ _ => nofun

/-- So it is with an integer of 64 bits. -/
lemma makes_asLong (r : Ref) : ConvM.Makes tidy μ Anything (asLong r) := by
  refine .getBind fun s _ => ?_
  split
  · exact .pure trivial
  · exact .pure trivial
  · exact makes_readAs r _ _ (fun _ _ => trivial) fun _ _ => nofun

/-- So it is with a truth value that is looked for. -/
lemma makes_bool? (r : Ref) : StoreM.Makes tidy μ Anything (bool? r) := by
  refine .getBind fun _ _ => ?_
  split
  · exact .pure trivial
  · exact .pure trivial
  · exact .pure trivial
  · exact (makes_text r).bind fun _ _ _ _ => .pure trivial

/-- So it is with one that there has to be. -/
lemma makes_asBool (r : Ref) : ConvM.Makes tidy μ Anything (asBool r) := by
  refine (ConvM.Makes.lift (makes_bool? r)).bind fun _ b _ _ => ?_
  split
  · exact .pure trivial
  · exact (ConvM.Makes.lift (makes_text r)).bind fun _ _ _ _ => .throw _

/-- The items that are read from a text are new values. -/
lemma makes_readItems (t : String) : ConvM.Makes tidy μ (All Free) (readItems t) := by
  unfold readItems
  split
  · exact .lift (makes_ofTexts _)
  · exact .throw _

/-- **The elements of a value** that is taken as a list. -/
lemma makes_asStack (r : Ref) :
    ConvM.Makes tidy μ (fun μ' items => All (Part tidy) μ' items.toList) (asStack r) := by
  refine .getBind fun s hs => ?_
  split
  next items hitems =>
    have hform := hs.forms r
    rw [hitems] at hform
    exact .pure hform
  next =>
    refine (ConvM.Makes.lift (makes_text r)).bind fun _ t _ _ => ?_
    refine (makes_readItems t).bind fun μ₂ items _ hitems => ?_
    have hparts : ∀ e ∈ (Stack.ofList items).toList, Part tidy μ₂ e := by
      intro e he
      rw [Stack.toList_ofList] at he
      exact (hitems e he).part
    have hform : Rep.Closed tidy μ₂ (.list (.ofList items)) := hparts
    refine (ConvM.Makes.lift (makes_cache r hform nofun)).bind fun μ₃ _ h₃ _ => ?_
    exact .pure (firm_part.all h₃ hparts)

/-- The elements of a list are what a list may have. -/
lemma makes_asList (r : Ref) : ConvM.Makes tidy μ (All (Part tidy)) (asList r) :=
  (makes_asStack r).bind fun _ _ _ hitems => .pure hitems

/-- **The entries of a value** that is taken as a hash. -/
lemma makes_asHash (r : Ref) :
    ConvM.Makes tidy μ (fun μ' entries => All Free μ' entries.values) (asHash r) := by
  refine .getBind fun s hs => ?_
  split
  next entries hentries =>
    have hform := hs.forms r
    rw [hentries] at hform
    exact .pure hform
  next =>
    refine (ConvM.Makes.lift (makes_text r)).bind fun _ t _ _ => ?_
    split
    · exact .throw _
    next table _ =>
      refine (ConvM.Makes.lift (makes_ofTexts table.values)).bind fun μ₂ values _ hvalues => ?_
      have hparts : ∀ e ∈ (table.withValues values).values, Free μ₂ e := fun e he =>
        hvalues e (Table.mem_values_withValues he)
      have hform : Rep.Closed tidy μ₂ (.hash (table.withValues values)) := hparts
      refine (ConvM.Makes.lift (makes_cache r hform nofun)).bind fun μ₃ _ h₃ _ => ?_
      exact .pure (firm_free.all h₃ hparts)

end Store

/-- The values of a script are there, if there is one. -/
def Script.Outcome.Valid (μ : Marks) : Outcome (Script Ref) → Prop
  | .done commands => All Marks.Valid μ (Script.literals commands)
  | _ => True

namespace Store

variable {tidy : Prop} {μ : Marks}

/-- **The script** that a value is taken as. -/
lemma makes_asScript (r : Ref) : StoreM.Makes tidy μ Script.Outcome.Valid (asScript r) := by
  refine .getBind fun s hs => ?_
  split
  next commands hcommands =>
    have hform := hs.forms r
    rw [hcommands] at hform
    exact .pure hform
  next =>
    refine (makes_text r).bind fun μ₁ t _ _ => ?_
    split
    · exact .pure trivial
    · exact .pure trivial
    next script _ =>
      refine (Script.makes_load μ₁ script).bind fun μ₂ commands _ hcommands => ?_
      have hform : Rep.Closed tidy μ₂ (.script commands) := hcommands
      refine (makes_cache r hform nofun).bind fun μ₃ _ h₃ _ => ?_
      exact .pure (firm_valid.all h₃ hcommands)

end Store

/-! ## Procedures and exceptions -/

/-- What a parameter gets if there is no argument is there. -/
def Parameter.Valid (μ : Marks) (q : Parameter) : Prop :=
  ∀ d, q.fallback = some d → μ.Valid d

/-- A parameter is there when there are more values. -/
lemma Parameter.firm_valid : Firm Parameter.Valid :=
  fun _ _ hμ _ h d hd => (h d hd).mono hμ

namespace Procedure

variable {tidy : Prop} {μ : Marks}

/-- What is read as a parameter is there. -/
lemma makes_readParameter (spec : Ref) :
    ConvM.Makes tidy μ Parameter.Valid (readParameter spec) := by
  refine (makes_asList spec).bind fun μ₁ parts _ hparts => ?_
  split
  · exact (ConvM.Makes.lift (makes_text _)).bind fun _ _ _ _ => .pure fun d hd => nomatch hd
  next name fallback =>
    refine (ConvM.Makes.lift (makes_text _)).bind fun μ₂ _ h₂ _ => .pure fun d hd => ?_
    cases hd
    exact (hparts fallback (List.mem_cons_of_mem _ List.mem_cons_self)).1.mono h₂
  · exact (ConvM.Makes.lift (makes_text _)).bind fun _ _ _ _ => .throw _

/-- A procedure that is defined is there, if its specification and its body are. -/
lemma makes_define {spec body : Ref} (hspec : μ.Valid spec) (hbody : μ.Valid body) :
    ConvM.Makes tidy μ Procedure.Valid (define spec body) := by
  refine (makes_asList spec).bind fun μ₁ specs h₁ _ => ?_
  have hparams : ConvM.Makes tidy μ₁ (All Parameter.Valid) (specs.mapM readParameter) :=
    .mapM Parameter.firm_valid fun _ spec _ _ => makes_readParameter spec
  refine hparams.bind fun μ₂ params h₂ hparams => .pure ⟨?_, hparams, ?_⟩
  · exact (hspec.mono h₁).mono h₂
  · exact (hbody.mono h₁).mono h₂

end Procedure

/-- What is kept of an exception is there. The value of an error becomes an element of a list when
the error is noted. -/
structure Exception.Closed (tidy : Prop) (μ : Marks) (e : Exception) : Prop where
  /-- The returned value, or the message. -/
  value : μ.Valid e.value
  /-- The message of an error. -/
  message : e.isError = true → μ.Part tidy e.value
  /-- The commands that it has unwound through. -/
  frames : All Free μ e.frames

/-- What is known of an error belongs to no script. -/
def ErrorStack.Closed (μ : Marks) (s : ErrorStack) : Prop :=
  All Free μ s.toList

namespace Exception

variable {tidy : Prop} {μ : Marks} {e : Exception}

/-- An exception is closed when there are more values. -/
lemma firm_closed : Firm (Exception.Closed tidy) :=
  fun _ _ hμ _ h => ⟨h.value.mono hμ, fun he => (h.message he).mono hμ, firm_free.all hμ h.frames⟩

/-- An exception with a message that may be an element of a list. -/
lemma closed_of_part (hvalue : μ.Part tidy e.value) (hnew : e.frames = []) : e.Closed tidy μ where
  value := hvalue.1
  message _ := hvalue
  frames r hr := by
    rw [hnew] at hr
    cases hr

/-- The exception of a return carries a value that is there. -/
lemma closed_ofReturn {value : Ref} (h : μ.Valid value) : (ofReturn value).Closed tidy μ :=
  ⟨h, fun he => (nomatch he), fun _ hr => (nomatch hr)⟩

/-- A new frame may be added to its trace. -/
lemma Closed.addFrame {frame : Ref} (h : e.Closed tidy μ) (hframe : μ.Free frame) :
    (e.addFrame frame).Closed tidy μ := by
  refine ⟨h.value, h.message, fun r hr => ?_⟩
  obtain rfl | hr := List.mem_cons.1 hr
  · exact hframe
  · exact h.frames r hr

/-- A thrown exception is closed, if its value may be an element of a list. -/
lemma makes_thrown {value : Ref} (h : μ.Part tidy value) (label : Option String) :
    StoreM.Makes tidy μ (Exception.Closed tidy) (thrown value label) :=
  (makes_text value).bind fun _ _ hμ _ => .pure (closed_of_part (h.mono hμ) rfl)

/-- The error for a failure is closed. -/
lemma makes_ofFailure (f : Failure) :
    StoreM.Makes tidy μ (Exception.Closed tidy) (ofFailure f) :=
  (makes_ofText _).bind fun _ _ _ hr => .pure (closed_of_part hr.part rfl)

/-- So is a signal. -/
lemma makes_signal (code : Code) : StoreM.Makes tidy μ (Exception.Closed tidy) (signal code) :=
  (makes_ofText _).bind fun _ _ _ hr => .pure (closed_of_part hr.part rfl)

/-- **What an interpreter keeps of an error** belongs to no script; its value is then an element of
a list. -/
lemma makes_diagnosis (h : e.Closed tidy μ) (herror : e.isError = true) :
    StoreM.Makes tidy μ ErrorStack.Closed e.diagnosis := by
  refine (makes_ofText _).bind fun μ₁ code h₁ hcode => ?_
  have hpair : All (Part tidy) μ₁ [code, e.value] := by
    intro r hr
    obtain rfl | hr := List.mem_cons.1 hr
    · exact hcode.part
    · rw [List.mem_singleton.1 hr]
      exact (h.message herror).mono h₁
  refine (makes_ofList hpair).bind fun μ₂ head h₂ hhead => .pure fun r hr => ?_
  obtain hr | hr := List.mem_append.1 hr
  · rw [Option.mem_toList] at hr
    cases hr
    exact hhead
  · exact ((h.frames r (List.mem_reverse.1 hr)).mono h₁).mono h₂

end Exception

end CommandScript
