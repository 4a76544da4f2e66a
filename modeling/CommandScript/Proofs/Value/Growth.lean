import Mathlib.Tactic.Lemma
import CommandScript.Exception
import CommandScript.Interp.Procedure
import CommandScript.Proofs.Script.FilledCommands
import CommandScript.Value.Conversion
import CommandScript.Value.Copy

/-!
# The store only grows

Values are made, their texts are found and their forms are replaced, but no cell and no object is
ever taken away. And a value that is held as a script comes from reading a text, so that all its
commands have words. This is said here of every computation on the store that the interpreter uses.

## Main definitions

* `Store.Filled` — the scripts that values are held as have no commands without words.
* `Store.Grown` — one store has all cells and objects of another, and perhaps more.
* `StoreM.Grows`, `ConvM.Grows` — the computation leaves a grown store, whatever its outcome.
* `StoreM.YieldsIn` — what holds of the result of a computation in some store.

## Main results

* `StoreM.Grows.bind`, `StoreM.Grows.mapM`, `ConvM.Grows.bind`, `ConvM.Grows.mapM` — computations
  made of others.
* `Store.grows_text`, `Store.grows_copy`, `Store.grows_asInt` and others — the computations of the
  interpreter.
* `Store.filled_asScript` — all commands of the script that a value is converted to have words.
-/

set_option autoImplicit false

namespace CommandScript

universe u

/-- The state in which a computation ends. -/
def finalState {ε σ α : Type u} : EStateM.Result ε σ α → σ
  | .ok _ s => s
  | .error _ s => s

/-- The form is not a script with a command without words. -/
def Rep.Filled : Rep → Prop
  | .script commands => Script.Filled commands
  | _ => True

namespace Store

/-- The scripts that values are held as have no commands without words. -/
def Filled (s : Store) : Prop :=
  ∀ r, (s.cell r).rep.Filled

/-- The store `t` has the cells and objects of `s`, and perhaps more. If the commands of all scripts
in `s` have words, so they have in `t`. -/
structure Grown (s t : Store) : Prop where
  /-- No cell is lost. -/
  cells : s.cells.size ≤ t.cells.size
  /-- No object is lost. -/
  objects : s.objects.size ≤ t.objects.size
  /-- No command without words comes about. -/
  filled : s.Filled → t.Filled

/-- A store has grown from itself. -/
lemma Grown.refl (s : Store) : Grown s s :=
  ⟨Nat.le_refl _, Nat.le_refl _, id⟩

/-- A store may grow twice. -/
lemma Grown.trans {s t u : Store} (h : Grown s t) (h' : Grown t u) : Grown s u :=
  ⟨Nat.le_trans h.cells h'.cells, Nat.le_trans h.objects h'.objects,
    fun hs => h'.filled (h.filled hs)⟩

/-! ## Cells -/

/-- The new cell comes last. -/
lemma cell_alloc (c : Cell) (s : Store) (r : Ref) :
    ((alloc c s).2.cell r) = if r.index = s.cells.size then c else s.cell r := by
  simp only [cell, alloc, Array.getElem?_push]
  split
  · rfl
  · rfl

/-- What holds of all cells and of a new one holds of all cells then. -/
lemma forall_cell_alloc {P : Cell → Prop} {s : Store} {c : Cell} (hs : ∀ r, P (s.cell r))
    (hc : P c) (r : Ref) : P ((alloc c s).2.cell r) := by
  rw [cell_alloc]
  split
  · exact hc
  · exact hs r

/-- What holds of all cells and of a changed one holds of all cells after the change. -/
lemma forall_cell_modify {P : Cell → Prop} {s : Store} {f : Cell → Cell} {r : Ref}
    (hs : ∀ q, P (s.cell q)) (hf : P (f (s.cell r))) (q : Ref) :
    P (cell { s with cells := s.cells.modify r.index f } q) := by
  have hq := hs q
  unfold cell at hq hf ⊢
  simp only [Array.getElem?_modify]
  split
  next heq =>
    rw [← heq] at hq ⊢
    cases hcell : s.cells[r.index]? with
    | none =>
      rw [hcell] at hq
      exact hq
    | some c =>
      rw [hcell] at hf
      exact hf
  next => exact hq

end Store

open Store

/-! ## Computations that cannot fail -/

namespace StoreM

variable {α β : Type}

/-- The computation leaves a grown store. -/
def Grows (m : StoreM α) : Prop :=
  ∀ s, Grown s (m s).2

/-- A result that is there already loses no cell. -/
lemma Grows.pure (a : α) : Grows (Pure.pure a) :=
  fun s => .refl s

/-- Nor does a look at the store. -/
lemma Grows.get : Grows (MonadState.get : StoreM Store) :=
  fun s => .refl s

/-- Nor does one thing after another, if neither does. -/
lemma Grows.bind {m : StoreM α} {f : α → StoreM β} (hm : Grows m) (hf : ∀ a, Grows (f a)) :
    Grows (m >>= f) :=
  fun s => (hm s).trans (hf (m s).1 (m s).2)

/-- What comes second may depend on where the result of the first comes from. -/
lemma Grows.bindOf {m : StoreM α} {f : α → StoreM β} (hm : Grows m)
    (hf : ∀ s, Grows (f (m s).1)) : Grows (m >>= f) :=
  fun s => (hm s).trans (hf s (m s).2)

/-- The result in this store is of this kind. -/
def YieldsIn (s : Store) (P : α → Prop) (m : StoreM α) : Prop :=
  P (m s).1

/-- What the second thing yields is what both yield. -/
lemma YieldsIn.bind {s : Store} {P : β → Prop} {m : StoreM α} {f : α → StoreM β}
    (hf : YieldsIn (m s).2 P (f (m s).1)) : YieldsIn s P (m >>= f) :=
  hf

/-- Nor does what is done for each of many things. -/
lemma Grows.mapM {f : α → StoreM β} (hf : ∀ a, Grows (f a)) (as : List α) : Grows (as.mapM f) := by
  induction as with
  | nil => exact .pure []
  | cons a as ih =>
    rw [List.mapM_cons]
    exact (hf a).bind fun b => ih.bind fun bs => .pure (b :: bs)

/-- The first one is run in this store, and the others in the one that it leaves. -/
lemma mapM_cons_apply (f : α → StoreM β) (a : α) (as : List α) (s : Store) :
    (a :: as).mapM f s = ((f a s).1 :: (as.mapM f (f a s).2).1, (as.mapM f (f a s).2).2) := by
  rw [List.mapM_cons]
  rfl

end StoreM

/-! ## Computations that may fail -/

namespace ConvM

variable {α β : Type}

/-- The computation leaves a grown store, whether it fails or not. -/
def Grows (m : ConvM α) : Prop :=
  ∀ s, Grown s (finalState (m s))

/-- A result that is there already loses no cell. -/
lemma Grows.pure (a : α) : Grows (Pure.pure a) :=
  fun s => .refl s

/-- Nor does a look at the store. -/
lemma Grows.get : Grows (MonadState.get : ConvM Store) :=
  fun s => .refl s

/-- Nor does a failure. -/
lemma Grows.throw (f : Failure) : Grows (MonadExcept.throw f : ConvM α) :=
  fun s => .refl s

/-- Nor does work on values, within a conversion. -/
lemma Grows.lift {m : StoreM α} (hm : m.Grows) : Grows (liftM m) :=
  hm

/-- Nor does one conversion after another, if neither does. -/
lemma Grows.bind {m : ConvM α} {f : α → ConvM β} (hm : Grows m) (hf : ∀ a, Grows (f a)) :
    Grows (m >>= f) := by
  intro s
  have hs := hm s
  change Grown s (finalState (EStateM.bind m f s))
  unfold EStateM.bind
  cases h : m s with
  | ok a t =>
    rw [h] at hs
    exact hs.trans (hf a t)
  | error e t =>
    rw [h] at hs
    exact hs

/-- Nor does what is done for each of many things. -/
lemma Grows.mapM {f : α → ConvM β} (hf : ∀ a, Grows (f a)) (as : List α) : Grows (as.mapM f) := by
  induction as with
  | nil => exact .pure []
  | cons a as ih =>
    rw [List.mapM_cons]
    exact (hf a).bind fun b => ih.bind fun bs => .pure (b :: bs)

end ConvM

namespace Store

/-! ## Making and changing cells -/

/-- A new cell is one more. -/
lemma grows_alloc {c : Cell} (hc : c.rep.Filled) : (alloc c).Grows :=
  fun s => ⟨by simp [alloc], Nat.le_refl _,
    fun hs => forall_cell_alloc (P := fun c => c.rep.Filled) hs hc⟩

/-- A new object is no cell. -/
lemma grows_allocObject (o : Object) : (allocObject o).Grows :=
  fun s => ⟨Nat.le_refl _, by simp [allocObject], id⟩

/-- To fix a text keeps the cells. -/
lemma grows_fixText (r : Ref) (text : String) : (fixText r text).Grows :=
  fun s => ⟨by simp [fixText], Nat.le_refl _,
    fun hs => forall_cell_modify (P := fun c => c.rep.Filled) hs (hs r)⟩

/-- So does setting a form, if the scripts in it have no empty commands. -/
lemma grows_setRep (r : Ref) {rep : Rep} (hrep : rep.Filled) : (setRep r rep).Grows :=
  fun s => ⟨by simp [setRep], Nat.le_refl _,
    fun hs => forall_cell_modify (P := fun c => c.rep.Filled) hs hrep⟩

/-- New texts are new cells. -/
lemma grows_ofTexts (texts : List String) : (ofTexts texts).Grows :=
  .mapM (f := ofText) (fun _ => grows_alloc trivial) texts

/-- The first text gets the first of the new cells. -/
lemma ofTexts_cons (text : String) (texts : List String) (s : Store) :
    ofTexts (text :: texts) s =
      ((ofText text s).1 :: (ofTexts texts (ofText text s).2).1,
        (ofTexts texts (ofText text s).2).2) :=
  StoreM.mapM_cons_apply ofText text texts s

/-- An object gets a cell of its own. -/
lemma grows_ofObject (o : Object) : (ofObject o).Grows :=
  (grows_allocObject o).bind fun _ => grows_alloc trivial

/-! ## Texts -/

/-- To show an object loses no cell. -/
lemma grows_displayWith {text : Ref → StoreM String} (h : ∀ r, (text r).Grows) (o : ObjectRef) :
    (displayWith text o).Grows := by
  intro s
  unfold displayWith
  split
  · exact .refl s
  · exact .refl s
  · exact (StoreM.Grows.mapM h _).bind (fun _ => .pure _) s

/-- Nor does writing a form. -/
lemma grows_writeRep {text : Ref → StoreM String} (h : ∀ r, (text r).Grows) (rep : Rep) :
    (writeRep text rep).Grows := by
  cases rep with
  | none => exact .pure _
  | int n => exact .pure _
  | long n => exact .pure _
  | float x => exact .pure _
  | list items => exact (StoreM.Grows.mapM h _).bind fun _ => .pure _
  | hash entries => exact (StoreM.Grows.mapM h _).bind fun _ => .pure _
  | script commands => exact .pure _
  | object o => exact grows_displayWith h o

/-- Nor does the text of a value, whatever fuel there is. -/
lemma grows_textWithin (fuel : Nat) (r : Ref) : (textWithin fuel r).Grows := by
  induction fuel generalizing r with
  | zero => exact .pure _
  | succ fuel ih =>
    refine StoreM.Grows.get.bind fun s => ?_
    dsimp only
    split
    · exact .pure _
    · exact (grows_writeRep ih _).bind fun text => (grows_fixText r text).bind fun _ => .pure _

/-- Nor does its text with fuel enough. -/
lemma grows_text (r : Ref) : (text r).Grows :=
  grows_textWithin _ r

/-- Nor do the texts of many values. -/
lemma grows_texts (rs : List Ref) : (texts rs).Grows :=
  .mapM grows_text rs

/-- The text of the first value is asked for first. -/
lemma texts_cons (r : Ref) (rs : List Ref) (s : Store) :
    texts (r :: rs) s = ((text r s).1 :: (texts rs (text r s).2).1, (texts rs (text r s).2).2) :=
  StoreM.mapM_cons_apply text r rs s

/-- Nor does the text of a list. -/
lemma grows_listText (rs : List Ref) : (listText rs).Grows :=
  (grows_texts rs).bind fun _ => .pure _

/-! ## Copies -/

/-- A copy of an object is a new one, or the object itself. -/
lemma grows_copyObject (o : ObjectRef) : (copyObject o).Grows := by
  intro s
  unfold copyObject
  split
  · split
    · exact grows_allocObject _ s
    · exact .refl s
  · exact .refl s

/-- A copy of a form is made of copies of its parts. -/
lemma grows_copyRep {copy : Ref → StoreM Ref} (h : ∀ r, (copy r).Grows) (rep : Rep) :
    (copyRep copy rep).Grows := by
  unfold copyRep
  split
  · exact (StoreM.Grows.mapM h _).bind fun _ => .pure _
  · exact (StoreM.Grows.mapM h _).bind fun _ => .pure _
  · exact (grows_copyObject _).bind fun _ => .pure _
  · exact .pure _

/-- The scripts in a copy of a form have no empty commands. -/
lemma filled_copyRep {copy : Ref → StoreM Ref} {rep : Rep} (hrep : rep.Filled) (s : Store) :
    (copyRep copy rep s).1.Filled := by
  cases rep with
  | script commands => exact hrep
  | _ => trivial

/-- A copy of a script is the script, which was there before. -/
lemma grows_copyWithin (fuel : Nat) (r : Ref) : (copyWithin fuel r).Grows := by
  induction fuel generalizing r with
  | zero => exact .pure _
  | succ fuel ih =>
    intro s
    have hparts := grows_copyRep ih (s.cell r).rep s
    refine ⟨?_, hparts.objects, fun hs => ?_⟩
    · refine Nat.le_trans hparts.cells ?_
      change _ ≤ ((copyRep (copyWithin fuel) (s.cell r).rep s).2.cells.push _).size
      rw [Array.size_push]
      exact Nat.le_succ _
    · exact forall_cell_alloc (P := fun c => c.rep.Filled) (hparts.filled hs)
        (filled_copyRep (hs r) s)

/-- A copy loses no cell. -/
lemma grows_copy (r : Ref) : (copy r).Grows :=
  StoreM.Grows.get.bind fun _ => grows_copyWithin _ r

/-- A value of one's own is the value itself or a copy. -/
lemma grows_own (r : Ref) : (own r).Grows := by
  refine StoreM.Grows.get.bind fun s => ?_
  split
  · exact grows_copy r
  · exact .pure _

/-! ## Conversions -/

/-- Keeping a form loses no cell. -/
lemma grows_cache (r : Ref) {rep : Rep} (hrep : rep.Filled) : (cache r rep).Grows := by
  refine (grows_text r).bind fun _ => StoreM.Grows.get.bind fun s => ?_
  split
  · exact .pure _
  · exact grows_setRep r hrep

/-- Nor does reading a text. -/
lemma grows_readAs {α : Type} (r : Ref) (read? : String → Option α) {rep : α → Rep}
    (failure : String → Failure) (hrep : ∀ a, (rep a).Filled) :
    (readAs r read? rep failure).Grows := by
  refine (ConvM.Grows.lift (grows_text r)).bind fun t => ?_
  split
  · exact (ConvM.Grows.lift (grows_cache r (hrep _))).bind fun _ => .pure _
  · exact .throw _

/-- Nor does taking a value as an integer. -/
lemma grows_asInt (r : Ref) : (asInt r).Grows := by
  refine ConvM.Grows.get.bind fun s => ?_
  split
  · exact .pure _
  · split
    · exact .pure _
    · exact grows_readAs r _ _ fun _ => trivial
  · exact grows_readAs r _ _ fun _ => trivial

/-- Nor does taking it as an integer of 64 bits. -/
lemma grows_asLong (r : Ref) : (asLong r).Grows := by
  refine ConvM.Grows.get.bind fun s => ?_
  split
  · exact .pure _
  · exact .pure _
  · exact grows_readAs r _ _ fun _ => trivial

/-- Nor does looking for a truth value. -/
lemma grows_bool? (r : Ref) : (bool? r).Grows := by
  refine StoreM.Grows.get.bind fun s => ?_
  split
  · exact .pure _
  · exact .pure _
  · exact .pure _
  · exact (grows_text r).bind fun _ => .pure _

/-- Nor does taking a value as a truth value. -/
lemma grows_asBool (r : Ref) : (asBool r).Grows := by
  refine (ConvM.Grows.lift (grows_bool? r)).bind fun b => ?_
  split
  · exact .pure _
  · exact (ConvM.Grows.lift (grows_text r)).bind fun _ => .throw _

/-- Nor does making values of the items that were read. -/
lemma grows_readItems (t : String) : (readItems t).Grows := by
  unfold readItems
  split
  · exact .lift (grows_ofTexts _)
  · exact .throw _

/-- Nor does taking a value as a stack of elements. -/
lemma grows_asStack (r : Ref) : (asStack r).Grows := by
  refine ConvM.Grows.get.bind fun s => ?_
  split
  · exact .pure _
  · refine (ConvM.Grows.lift (grows_text r)).bind fun t => (grows_readItems t).bind fun items => ?_
    exact (ConvM.Grows.lift (grows_cache r (by trivial))).bind fun _ => .pure _

/-- Nor does taking it as a list. -/
lemma grows_asList (r : Ref) : (asList r).Grows :=
  (grows_asStack r).bind fun _ => .pure _

/-- Nor does taking it as a hash. -/
lemma grows_asHash (r : Ref) : (asHash r).Grows := by
  refine ConvM.Grows.get.bind fun s => ?_
  split
  · exact .pure _
  · refine (ConvM.Grows.lift (grows_text r)).bind fun t => ?_
    split
    · exact .throw _
    · refine (ConvM.Grows.lift (grows_ofTexts _)).bind fun values => ?_
      exact (ConvM.Grows.lift (grows_cache r (by trivial))).bind fun _ => .pure _

end Store

namespace Script

mutual

/-- The literals of a word are new cells. -/
lemma grows_loadWord : ∀ w : Word String, (loadWord w).Grows
  | .literal _ => (grows_alloc (by trivial)).bind fun _ => .pure _
  | .var _ => .pure _
  | .substitution script => (grows_load script).bind fun _ => .pure _
  | .joined parts => (grows_loadWords parts).bind fun _ => .pure _

/-- So are those of the words of a command. -/
lemma grows_loadWords : ∀ ws : List (Word String), (loadWords ws).Grows
  | [] => .pure _
  | w :: rest => (grows_loadWord w).bind fun _ => (grows_loadWords rest).bind fun _ => .pure _

/-- Loading a script makes new cells only. -/
lemma grows_load : ∀ script : List (List (Word String)), (load script).Grows
  | [] => .pure _
  | c :: rest => (grows_loadWords c).bind fun _ => (grows_load rest).bind fun _ => .pure _

end

mutual

/-- A loaded word has no empty commands in it, if the word has none. -/
lemma filled_loadWord (s : Store) :
    ∀ {w : Word String}, FilledWord w → FilledWord (loadWord w s).1
  | _, .literal _ => .literal _
  | _, .var _ => .var _
  | _, .substitution h => .substitution (filled_load s h)
  | _, .joined h => .joined (filled_loadWords s h)

/-- So it is with the words of a command. -/
lemma filled_loadWords (s : Store) :
    ∀ {ws : List (Word String)}, FilledWords ws → FilledWords (loadWords ws s).1
  | _, .nil => .nil
  | _, .cons h hs => .cons (filled_loadWord s h) (filled_loadWords _ hs)

/-- A script that is loaded has the words that it had. -/
lemma filled_load (s : Store) :
    ∀ {script : List (List (Word String))}, Filled script → Filled (load script s).1
  | _, .nil => .nil
  | _, .cons h hs => .cons (filled_loadWords s h) (filled_load _ hs)

end

/-- All commands have words, if there is a script. -/
def Outcome.Filled : Outcome (Script Ref) → Prop
  | .done commands => Script.Filled commands
  | _ => True

end Script

namespace Store

/-- Taking a value as a script loses no cell. -/
lemma grows_asScript (r : Ref) : (asScript r).Grows := by
  refine StoreM.Grows.get.bind fun s => ?_
  split
  · exact .pure _
  · refine (grows_text r).bind fun t => ?_
    split
    · exact .pure _
    · exact .pure _
    next script hread =>
      have hscript := Script.filled_of_read hread
      refine (Script.grows_load script).bindOf fun s => ?_
      have hcommands : (Rep.script (Script.load script s).1).Filled := Script.filled_load s hscript
      exact (grows_cache r hcommands).bind fun _ => .pure _

/-- A script that was kept before, or is read now, has words in all of its commands. -/
lemma filled_asScript (r : Ref) {s : Store} (hs : s.Filled) :
    StoreM.YieldsIn s Script.Outcome.Filled (asScript r) := by
  have hkept := hs r
  refine StoreM.YieldsIn.bind ?_
  split
  next commands hcommands =>
    rw [show (s.cell r).rep = _ from hcommands] at hkept
    exact hkept
  next =>
    refine .bind ?_
    split
    · trivial
    · trivial
    next script hread => exact Script.filled_load _ (Script.filled_of_read hread)

end Store

/-! ## Procedures and exceptions -/

namespace Procedure

/-- Reading a parameter loses no cell. -/
lemma grows_readParameter (spec : Ref) : (readParameter spec).Grows := by
  refine (grows_asList spec).bind fun parts => ?_
  split
  · exact (ConvM.Grows.lift (grows_text _)).bind fun _ => .pure _
  · exact (ConvM.Grows.lift (grows_text _)).bind fun _ => .pure _
  · exact (ConvM.Grows.lift (grows_text _)).bind fun _ => .throw _

/-- Nor does defining a procedure. -/
lemma grows_define (spec body : Ref) : (define spec body).Grows :=
  (grows_asList spec).bind fun specs =>
    (ConvM.Grows.mapM grows_readParameter specs).bind fun _ => .pure _

end Procedure

namespace Exception

/-- A thrown exception loses no cell. -/
lemma grows_thrown (value : Ref) (label : Option String) : (thrown value label).Grows :=
  (grows_text value).bind fun _ => .pure _

/-- Nor does the error for a failure. -/
lemma grows_ofFailure (f : Failure) : (ofFailure f).Grows :=
  (grows_alloc (by trivial)).bind fun _ => .pure _

/-- Nor does a signal. -/
lemma grows_signal (code : Code) : (signal code).Grows :=
  (grows_alloc (by trivial)).bind fun _ => .pure _

/-- Nor does a diagnosis. -/
lemma grows_diagnosis (e : Exception) : e.diagnosis.Grows :=
  (grows_alloc (by trivial)).bind fun _ => (grows_alloc (by trivial)).bind fun _ => .pure _

end Exception

end CommandScript
