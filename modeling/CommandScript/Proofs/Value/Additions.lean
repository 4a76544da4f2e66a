import CommandScript.Proofs.Value.Forms

/-!
# What is there stays as it is

Making a value, copying one and asking for a text add something to the store: a cell, an object, or
a text that was not known. What is already there stays as it is, and so whatever has once been said
of a value, of the form in which it is held or of a text of it that is known, can still be said of
it. Only a conversion takes a form away.

Copies do even less: no text is written down, and the new values belong to no script. All that was
there is exactly what it was.

## Main definitions

* `Store.Added` — one store has what another has, as it was there, and perhaps more.
* `Store.Enlarged` — the same cells and objects, and perhaps more that belong to no script.
* `StoreM.Adds`, `StoreM.Enlarges` — the computation does no more than that.

## Main results

* `StoreM.Adds.bind`, `StoreM.Adds.mapM` — computations made of others.
* `Store.adds_text` — asking for a text adds texts at most.
* `Store.enlarges_own` — copies leave what is copied as it is.
-/

set_option autoImplicit false

namespace CommandScript

namespace Store

/-- The store `t` has the values of `s`, held as they were there and with the texts that were known
there, and perhaps more. -/
structure Added (s t : Store) : Prop where
  /-- No cell is lost. -/
  cells : s.cells.size ≤ t.cells.size
  /-- A value is held in the form in which it was. -/
  rep : ∀ r, r.index < s.cells.size → (t.cell r).rep = (s.cell r).rep
  /-- A text that was known is known. -/
  text : ∀ r text, r.index < s.cells.size → (s.cell r).text = some text →
    (t.cell r).text = some text

/-- Nothing has been added. -/
lemma Added.refl (s : Store) : Added s s :=
  ⟨Nat.le_refl _, fun _ _ => rfl, fun _ _ _ => id⟩

/-- Something is added, and then something else. -/
lemma Added.trans {s t u : Store} (h : Added s t) (h' : Added t u) : Added s u where
  cells := Nat.le_trans h.cells h'.cells
  rep r hr := (h'.rep r (Nat.lt_of_lt_of_le hr h.cells)).trans (h.rep r hr)
  text r text hr htext := h'.text r text (Nat.lt_of_lt_of_le hr h.cells) (h.text r text hr htext)

/-- The store `t` has the cells and objects of `s`, as they are, and perhaps more; no new value
belongs to a script. -/
structure Enlarged (s t : Store) : Prop where
  /-- No cell is lost. -/
  size : s.cells.size ≤ t.cells.size
  /-- What was there is as it was. -/
  cell : ∀ q, q.index < s.cells.size → t.cell q = s.cell q
  /-- What is new belongs to no script. -/
  fresh : ∀ q, s.cells.size ≤ q.index → t.isLiteral q = false
  /-- The objects are what they were. -/
  object : ∀ o x, s.object? o = some x → t.object? o = some x

section Enlarged

variable {s t u : Store} {q : Ref}

/-- What is not there belongs to no script. -/
lemma isLiteral_of_size_le (hq : s.cells.size ≤ q.index) : s.isLiteral q = false :=
  congrArg Cell.literal (cell_of_size_le hq)

/-- Nothing is new. -/
lemma Enlarged.refl (s : Store) : Enlarged s s :=
  ⟨Nat.le_refl _, fun _ _ => rfl, fun _ => isLiteral_of_size_le, fun _ _ => id⟩

/-- What is there stays there. -/
lemma Enlarged.lt (h : Enlarged s t) (hq : q.index < s.cells.size) : q.index < t.cells.size :=
  Nat.lt_of_lt_of_le hq h.size

/-- No value becomes one that belongs to a script, and none ceases to be one. -/
lemma Enlarged.isLiteral_eq (h : Enlarged s t) (q : Ref) : t.isLiteral q = s.isLiteral q := by
  by_cases hq : q.index < s.cells.size
  · exact congrArg Cell.literal (h.cell q hq)
  · have hge := Nat.le_of_not_lt hq
    rw [h.fresh q hge, isLiteral_of_size_le hge]

/-- Something is new, and then something else. -/
lemma Enlarged.trans (h : Enlarged s t) (h' : Enlarged t u) : Enlarged s u where
  size := Nat.le_trans h.size h'.size
  cell q hq := (h'.cell q (h.lt hq)).trans (h.cell q hq)
  fresh q hq := (h'.isLiteral_eq q).trans (h.fresh q hq)
  object o x ho := h'.object o x (h.object o x ho)

/-- If all is as it was, then so are the forms and the texts. -/
lemma Enlarged.added (h : Enlarged s t) : Added s t where
  cells := h.size
  rep r hr := congrArg Cell.rep (h.cell r hr)
  text r text hr htext := by rw [h.cell r hr, htext]

end Enlarged

end Store

open Store

namespace StoreM

variable {α β : Type}

/-- The computation does no more than add something to the store. -/
def Adds (m : StoreM α) : Prop :=
  ∀ s, Added s (m s).2

/-- A result that is there already adds nothing. -/
lemma Adds.pure (a : α) : Adds (Pure.pure a) :=
  fun s => .refl s

/-- One thing after another does no more than add, if neither does more. -/
lemma Adds.bind {m : StoreM α} {f : α → StoreM β} (hm : Adds m) (hf : ∀ a, Adds (f a)) :
    Adds (m >>= f) :=
  fun s => (hm s).trans (hf (m s).1 (m s).2)

/-- A look at the store adds nothing. -/
lemma Adds.get : Adds (MonadState.get : StoreM Store) :=
  fun s => .refl s

/-- The same is done for each of many things. -/
lemma Adds.mapM {f : α → StoreM β} (hf : ∀ a, Adds (f a)) (as : List α) : Adds (as.mapM f) := by
  induction as with
  | nil => exact .pure []
  | cons a as ih =>
    rw [List.mapM_cons]
    exact (hf a).bind fun b => ih.bind fun bs => .pure (b :: bs)

/-- The computation does no more than make values that belong to no script, and objects. -/
def Enlarges (m : StoreM α) : Prop :=
  ∀ s, Enlarged s (m s).2

/-- Nothing that is there is changed then. -/
lemma Enlarges.adds {m : StoreM α} (h : Enlarges m) : Adds m :=
  fun s => (h s).added

/-- A result that is there already makes nothing. -/
lemma Enlarges.pure (a : α) : Enlarges (Pure.pure a) :=
  fun s => .refl s

/-- One thing after another makes new values only, if each does. -/
lemma Enlarges.bind {m : StoreM α} {f : α → StoreM β} (hm : Enlarges m)
    (hf : ∀ a, Enlarges (f a)) : Enlarges (m >>= f) :=
  fun s => (hm s).trans (hf (m s).1 (m s).2)

/-- A look at the store makes nothing. -/
lemma Enlarges.get : Enlarges (MonadState.get : StoreM Store) :=
  fun s => .refl s

/-- New values are made for each of many things. -/
lemma Enlarges.mapM {f : α → StoreM β} (hf : ∀ a, Enlarges (f a)) (as : List α) :
    Enlarges (as.mapM f) := by
  induction as with
  | nil => exact .pure []
  | cons a as ih =>
    rw [List.mapM_cons]
    exact (hf a).bind fun b => ih.bind fun bs => .pure (b :: bs)

end StoreM

namespace Store

/-! ## New values -/

/-- There is one cell more. -/
lemma size_alloc (c : Cell) (s : Store) : (alloc c s).2.cells.size = s.cells.size + 1 :=
  Array.size_push _

/-- The others are as they were. -/
lemma cell_alloc_of_lt {c : Cell} {s : Store} {r : Ref} (hr : r.index < s.cells.size) :
    (alloc c s).2.cell r = s.cell r := by
  rw [cell_alloc, if_neg (Nat.ne_of_lt hr)]

/-- The new cell is the one that was asked for. -/
lemma cell_alloc_self (c : Cell) (s : Store) : (alloc c s).2.cell (alloc c s).1 = c := by
  rw [cell_alloc]
  exact if_pos rfl

/-- Making a value, one of a script or not, changes no other. -/
lemma adds_alloc (c : Cell) : (alloc c).Adds := by
  refine fun s => ⟨?_, fun r hr => ?_, fun r text hr htext => ?_⟩
  · rw [size_alloc]
    exact Nat.le_succ _
  · rw [cell_alloc_of_lt hr]
  · rw [cell_alloc_of_lt hr, htext]

/-- A new value that belongs to no script. -/
lemma enlarges_alloc {c : Cell} (hc : c.literal = false) : (alloc c).Enlarges := by
  refine fun s => ⟨?_, fun q hq => cell_alloc_of_lt hq, fun q hq => ?_, fun _ _ => id⟩
  · rw [size_alloc]
    exact Nat.le_succ _
  · rw [isLiteral, cell_alloc]
    split
    · exact hc
    · exact isLiteral_of_size_le hq

/-- A new object. -/
lemma enlarges_allocObject (x : Object) : (allocObject x).Enlarges := by
  refine fun s => ⟨Nat.le_refl _, fun _ _ => rfl, fun _ => isLiteral_of_size_le, fun o y ho => ?_⟩
  obtain ⟨hlt, -⟩ := Array.getElem?_eq_some_iff.1 ho
  change (s.objects.push x)[o.index]? = some y
  rw [Array.getElem?_push, if_neg (Nat.ne_of_lt hlt)]
  exact ho

/-! ## Texts -/

/-- To show an object adds no more than its text does. -/
lemma adds_displayWith {text : Ref → StoreM String} (h : ∀ r, (text r).Adds) (o : ObjectRef) :
    (displayWith text o).Adds := by
  intro s
  unfold displayWith
  split
  · exact .refl s
  · exact .refl s
  · exact (StoreM.Adds.mapM h _).bind (fun _ => .pure _) s

/-- To write a form adds no more than the texts of its parts do. -/
lemma adds_writeRep {text : Ref → StoreM String} (h : ∀ r, (text r).Adds) (rep : Rep) :
    (writeRep text rep).Adds := by
  cases rep with
  | list items => exact (StoreM.Adds.mapM h _).bind fun _ => .pure _
  | hash entries => exact (StoreM.Adds.mapM h _).bind fun _ => .pure _
  | object o => exact adds_displayWith h o
  | _ => exact .pure _

/-- Writing down a text for a value adds something if the value had none to begin with. -/
lemma Added.fixText {s t : Store} {r : Ref} (h : Added s t) (hr : (s.cell r).text = none)
    (text : String) : Added s (Store.fixText r text t).2 := by
  have hforms := rewords_fixText r text t
  refine ⟨?_, fun q hq => ?_, fun q known hq hknown => ?_⟩
  · rw [hforms.size]
    exact h.cells
  · rw [hforms.rep_eq, h.rep q hq]
  · have hne : q ≠ r := by
      rintro rfl
      rw [hr] at hknown
      cases hknown
    have hvalid : r.index < s.cells.size := by
      by_contra hge
      rw [cell_of_size_le (Nat.le_of_not_lt hge)] at hr
      cases hr
    change (Store.cell { t with cells := t.cells.modify r.index _ } q).text = _
    rw [cell_modify _ (Nat.lt_of_lt_of_le hvalid h.cells), if_neg hne]
    exact h.text q known hq hknown

/-- The text of a value is added, with the texts that it is written from. -/
lemma adds_textWithin (fuel : Nat) (r : Ref) : (textWithin fuel r).Adds := by
  induction fuel generalizing r with
  | zero => exact .pure _
  | succ fuel ih =>
    intro s
    unfold textWithin
    rw [StoreM.getBind_apply]
    cases hr : (s.cell r).text with
    | some text => exact .refl s
    | none => exact (adds_writeRep ih (s.cell r).rep s).fixText hr _

/-- **Asking for a text adds texts at most.** -/
lemma adds_text (r : Ref) : (text r).Adds :=
  adds_textWithin _ r

/-! ## Copies -/

/-- The form of a copy is made of copies. An object is shared, or another one is made. -/
lemma enlarges_copyRep {copy : Ref → StoreM Ref} (h : ∀ r, (copy r).Enlarges) (rep : Rep) :
    (copyRep copy rep).Enlarges := by
  cases rep with
  | list items => exact (StoreM.Enlarges.mapM h _).bind fun _ => .pure _
  | hash entries => exact (StoreM.Enlarges.mapM h _).bind fun _ => .pure _
  | object o =>
    refine StoreM.Enlarges.bind (fun s => ?_) fun _ => .pure _
    unfold copyObject
    split
    · split
      · exact enlarges_allocObject _ s
      · exact .refl s
    · exact .refl s
  | _ => exact .pure _

/-- The last step of a copy makes the value that is the copy. -/
lemma copyWithin_succ (fuel : Nat) (r : Ref) (s : Store) :
    copyWithin (fuel + 1) r s =
      alloc { text := (s.cell r).text, rep := (copyRep (copyWithin fuel) (s.cell r).rep s).1 }
        (copyRep (copyWithin fuel) (s.cell r).rep s).2 :=
  rfl

/-- A copy, and the copies of its parts, are new values. -/
lemma enlarges_copyWithin (fuel : Nat) (r : Ref) : (copyWithin fuel r).Enlarges := by
  induction fuel generalizing r with
  | zero => exact .pure _
  | succ fuel ih =>
    exact StoreM.Enlarges.get.bind fun s =>
      (enlarges_copyRep ih _).bind fun rep => enlarges_alloc rfl

/-- **A copy leaves what is copied as it is.** -/
lemma enlarges_copy (r : Ref) : (copy r).Enlarges :=
  StoreM.Enlarges.get.bind fun _ => enlarges_copyWithin _ r

/-- What a variable is given is the value or a copy of it. -/
lemma enlarges_own (r : Ref) : (own r).Enlarges := by
  refine StoreM.Enlarges.get.bind fun s => ?_
  split
  · exact enlarges_copy r
  · exact .pure _

/-- A variable can hold a value that belongs to no script. -/
lemma own_of_not_literal {s : Store} {r : Ref} (h : s.isLiteral r = false) :
    own r s = (r, s) := by
  change (if s.isLiteral r = true then copy r else pure r : StoreM Ref) s = (r, s)
  rw [h]
  rfl

/-- Of a value that belongs to a script, a variable holds a copy. -/
lemma own_of_literal {s : Store} {r : Ref} (h : s.isLiteral r = true) : own r s = copy r s := by
  change (if s.isLiteral r = true then copy r else pure r : StoreM Ref) s = copy r s
  rw [h]
  rfl

end Store

end CommandScript
