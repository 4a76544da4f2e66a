import CommandScript.Proofs.Value.Additions

/-!
# Known texts stay known

The text of a value, once it is known, is the text of this value for good. A conversion may replace
the form of a value, but it fixes the text first. So whoever has seen the text of a value may rely
on it whatever happens to the value afterwards.

## Main definitions

* `Store.Retained` — no cell is lost from one store to another, and no text that was known.
* `StoreM.Retains`, `ConvM.Retains` — the computation leaves such a store, whatever its outcome.

## Main results

* `StoreM.Adds.retains` — what only adds something to a store takes no text away.
* `Store.retains_asInt`, `Store.retains_asList`, `Store.retains_asScript` and others — the
  conversions.
-/

set_option autoImplicit false

namespace CommandScript

namespace Store

/-- The store `t` has the cells of `s`, and the texts that were known there. -/
structure Retained (s t : Store) : Prop where
  /-- No cell is lost. -/
  cells : s.cells.size ≤ t.cells.size
  /-- A text that was known is known. -/
  text : ∀ r text, r.index < s.cells.size → (s.cell r).text = some text →
    (t.cell r).text = some text

/-- All texts are retained in the same store. -/
lemma Retained.refl (s : Store) : Retained s s :=
  ⟨Nat.le_refl _, fun _ _ _ => id⟩

/-- Texts may be retained by way of a third store. -/
lemma Retained.trans {s t u : Store} (h : Retained s t) (h' : Retained t u) : Retained s u where
  cells := Nat.le_trans h.cells h'.cells
  text r text hr htext := h'.text r text (Nat.lt_of_lt_of_le hr h.cells) (h.text r text hr htext)

/-- What is added retains all texts. -/
lemma Added.retained {s t : Store} (h : Added s t) : Retained s t :=
  ⟨h.cells, h.text⟩

end Store

open Store

/-! ## Computations that cannot fail -/

namespace StoreM

variable {α β : Type}

/-- The computation takes no known text away. -/
def Retains (m : StoreM α) : Prop :=
  ∀ s, Retained s (m s).2

/-- What adds to a store retains its texts. -/
lemma Adds.retains {m : StoreM α} (h : Adds m) : Retains m :=
  fun s => (h s).retained

/-- A result that is there already takes no text away. -/
lemma Retains.pure (a : α) : Retains (Pure.pure a) :=
  fun s => .refl s

/-- Nor does a look at the store. -/
lemma Retains.get : Retains (MonadState.get : StoreM Store) :=
  fun s => .refl s

/-- Nor does one thing after another, if neither does. -/
lemma Retains.bind {m : StoreM α} {f : α → StoreM β} (hm : Retains m) (hf : ∀ a, Retains (f a)) :
    Retains (m >>= f) :=
  fun s => (hm s).trans (hf (m s).1 (m s).2)

end StoreM

/-! ## Computations that may fail -/

namespace ConvM

variable {α β : Type}

/-- The computation takes no known text away, whether it fails or not. -/
def Retains (m : ConvM α) : Prop :=
  ∀ s, Retained s (finalState (m s))

/-- A result that is there already takes no text away. -/
lemma Retains.pure (a : α) : Retains (Pure.pure a) :=
  fun s => .refl s

/-- Nor does a look at the store. -/
lemma Retains.get : Retains (MonadState.get : ConvM Store) :=
  fun s => .refl s

/-- Nor does a failure. -/
lemma Retains.throw (f : Failure) : Retains (MonadExcept.throw f : ConvM α) :=
  fun s => .refl s

/-- Nor does work on values, within a conversion. -/
lemma Retains.lift {m : StoreM α} (hm : m.Retains) : Retains (liftM m) :=
  hm

/-- Nor does one conversion after another, if neither does. -/
lemma Retains.bind {m : ConvM α} {f : α → ConvM β} (hm : Retains m) (hf : ∀ a, Retains (f a)) :
    Retains (m >>= f) := by
  intro s
  have hs := hm s
  change Retained s (finalState (EStateM.bind m f s))
  unfold EStateM.bind
  cases h : m s with
  | ok a t =>
    rw [h] at hs
    exact hs.trans (hf a t)
  | error e t =>
    rw [h] at hs
    exact hs

/-- Nor does what is done for each of many things. -/
lemma Retains.mapM {f : α → ConvM β} (hf : ∀ a, Retains (f a)) (as : List α) :
    Retains (as.mapM f) := by
  induction as with
  | nil => exact .pure []
  | cons a as ih =>
    rw [List.mapM_cons]
    exact (hf a).bind fun b => ih.bind fun bs => .pure (b :: bs)

end ConvM

/-! ## What only adds something -/

namespace Store

/-- New texts add to a store. -/
lemma adds_ofTexts (texts : List String) : (ofTexts texts).Adds :=
  .mapM (f := ofText) (fun _ => adds_alloc _) texts

/-- So does an object. -/
lemma adds_ofObject (o : Object) : (ofObject o).Adds :=
  (enlarges_allocObject o).adds.bind fun _ => adds_alloc _

/-- The texts of values are made known. -/
lemma adds_texts (rs : List Ref) : (texts rs).Adds :=
  .mapM adds_text rs

/-- So is the text of a list. -/
lemma adds_listText (rs : List Ref) : (listText rs).Adds :=
  (adds_texts rs).bind fun _ => .pure _

end Store

namespace Script

mutual

/-- The literals of a word are added. -/
lemma adds_loadWord : ∀ w : Word String, (loadWord w).Adds
  | .literal _ => (adds_alloc _).bind fun _ => .pure _
  | .var _ => .pure _
  | .substitution script => (adds_load script).bind fun _ => .pure _
  | .joined parts => (adds_loadWords parts).bind fun _ => .pure _

/-- So are those of the words of a command. -/
lemma adds_loadWords : ∀ ws : List (Word String), (loadWords ws).Adds
  | [] => .pure _
  | w :: rest => (adds_loadWord w).bind fun _ => (adds_loadWords rest).bind fun _ => .pure _

/-- Loading a script makes values. -/
lemma adds_load : ∀ script : List (List (Word String)), (load script).Adds
  | [] => .pure _
  | c :: rest => (adds_loadWords c).bind fun _ => (adds_load rest).bind fun _ => .pure _

end

end Script

namespace Exception

/-- A thrown exception adds its values. -/
lemma adds_thrown (value : Ref) (label : Option String) : (thrown value label).Adds :=
  (adds_text value).bind fun _ => .pure _

/-- So does the error for a failure. -/
lemma adds_ofFailure (f : Failure) : (ofFailure f).Adds :=
  (adds_alloc _).bind fun _ => .pure _

/-- So does a signal. -/
lemma adds_signal (code : Code) : (signal code).Adds :=
  (adds_alloc _).bind fun _ => .pure _

/-- A diagnosis adds a list. -/
lemma adds_diagnosis (e : Exception) : e.diagnosis.Adds :=
  (adds_alloc _).bind fun _ => (adds_alloc _).bind fun _ => .pure _

end Exception

/-! ## Conversions -/

namespace Store

/-- A form is replaced, the text is not. -/
lemma retains_setRep (r : Ref) (rep : Rep) : (setRep r rep).Retains := by
  refine fun s => ⟨Nat.le_of_eq Array.size_modify.symm, fun q text hq htext => ?_⟩
  change (Store.cell { s with cells := s.cells.modify r.index fun c => { c with rep } } q).text = _
  unfold cell at htext ⊢
  rw [Array.getElem?_modify]
  split
  next =>
    cases hcell : s.cells[q.index]? with
    | none =>
      rw [hcell] at htext
      exact htext
    | some c =>
      rw [hcell] at htext
      exact htext
  next => exact htext

/-- Asking for a text takes none away. -/
lemma retains_text (r : Ref) : (text r).Retains :=
  (adds_text r).retains

/-- Nor does keeping a form. -/
lemma retains_cache (r : Ref) (rep : Rep) : (cache r rep).Retains := by
  refine (retains_text r).bind fun _ => StoreM.Retains.get.bind fun s => ?_
  split
  · exact .pure _
  · exact retains_setRep r rep

/-- Nor does reading a text. -/
lemma retains_readAs {α : Type} (r : Ref) (read? : String → Option α) (rep : α → Rep)
    (failure : String → Failure) : (readAs r read? rep failure).Retains := by
  refine (ConvM.Retains.lift (retains_text r)).bind fun t => ?_
  split
  · exact (ConvM.Retains.lift (retains_cache r _)).bind fun _ => .pure _
  · exact .throw _

/-- Nor does taking a value as an integer. -/
lemma retains_asInt (r : Ref) : (asInt r).Retains := by
  refine ConvM.Retains.get.bind fun s => ?_
  split
  · exact .pure _
  · split
    · exact .pure _
    · exact retains_readAs r _ _ _
  · exact retains_readAs r _ _ _

/-- Nor does taking it as an integer of 64 bits. -/
lemma retains_asLong (r : Ref) : (asLong r).Retains := by
  refine ConvM.Retains.get.bind fun s => ?_
  split
  · exact .pure _
  · exact .pure _
  · exact retains_readAs r _ _ _

/-- Nor does looking for a truth value. -/
lemma retains_bool? (r : Ref) : (bool? r).Retains := by
  refine StoreM.Retains.get.bind fun s => ?_
  split
  · exact .pure _
  · exact .pure _
  · exact .pure _
  · exact (retains_text r).bind fun _ => .pure _

/-- Nor does taking a value as a truth value. -/
lemma retains_asBool (r : Ref) : (asBool r).Retains := by
  refine (ConvM.Retains.lift (retains_bool? r)).bind fun b => ?_
  split
  · exact .pure _
  · exact (ConvM.Retains.lift (retains_text r)).bind fun _ => .throw _

/-- Nor does making values of the items that were read. -/
lemma retains_readItems (t : String) : (readItems t).Retains := by
  unfold readItems
  split
  · exact .lift (adds_ofTexts _).retains
  · exact .throw _

/-- Nor does taking a value as a stack of elements. -/
lemma retains_asStack (r : Ref) : (asStack r).Retains := by
  refine ConvM.Retains.get.bind fun s => ?_
  split
  · exact .pure _
  · refine (ConvM.Retains.lift (retains_text r)).bind fun t => ?_
    refine (retains_readItems t).bind fun items => ?_
    exact (ConvM.Retains.lift (retains_cache r _)).bind fun _ => .pure _

/-- Nor does taking it as a list. -/
lemma retains_asList (r : Ref) : (asList r).Retains :=
  (retains_asStack r).bind fun _ => .pure _

/-- Nor does taking it as a hash. -/
lemma retains_asHash (r : Ref) : (asHash r).Retains := by
  refine ConvM.Retains.get.bind fun s => ?_
  split
  · exact .pure _
  · refine (ConvM.Retains.lift (retains_text r)).bind fun t => ?_
    split
    · exact .throw _
    · refine (ConvM.Retains.lift (adds_ofTexts _).retains).bind fun values => ?_
      exact (ConvM.Retains.lift (retains_cache r _)).bind fun _ => .pure _

/-- Nor does taking it as a script. -/
lemma retains_asScript (r : Ref) : (asScript r).Retains := by
  refine StoreM.Retains.get.bind fun s => ?_
  split
  · exact .pure _
  · refine (retains_text r).bind fun t => ?_
    split
    · exact .pure _
    · exact .pure _
    · exact (Script.adds_load _).retains.bind fun _ => (retains_cache r _).bind fun _ => .pure _

end Store

namespace Procedure

/-- Reading a parameter takes no text away. -/
lemma retains_readParameter (spec : Ref) : (readParameter spec).Retains := by
  refine (retains_asList spec).bind fun parts => ?_
  split
  · exact (ConvM.Retains.lift (retains_text _)).bind fun _ => .pure _
  · exact (ConvM.Retains.lift (retains_text _)).bind fun _ => .pure _
  · exact (ConvM.Retains.lift (retains_text _)).bind fun _ => .throw _

/-- Nor does defining a procedure. -/
lemma retains_define (spec body : Ref) : (define spec body).Retains :=
  (retains_asList spec).bind fun specs =>
    (ConvM.Retains.mapM retains_readParameter specs).bind fun _ => .pure _

end Procedure

end CommandScript
