import CommandScript.Proofs.Table.Members
import CommandScript.Proofs.Value.ConversionHistory

/-!
# Forms that conversions give

Asking for the text of a value replaces no form. A conversion replaces the form of the value that is
converted, if it is held in another form and is no object, and if its text can be read. Its new
parts, if it is a list or a hash now, are new values, held in no form yet. So there are only two
things that a conversion may do to the forms of values.

## Main definitions

* `Store.Reworded`, `StoreM.Rewords` — the values are the same, but for which texts are known.
* `StoreM.KeepsForms` — all values are held in the form in which they were.
* `Conversion.gives` — a conversion that succeeds and gives the value a form.
* `Store.Formed` — what a conversion may do to the forms of values.
* `Store.Holds` — what a value holds, through lists and hashes.

## Main results

* `Store.rewords_text` — asking for a text changes nothing but which texts are known.
* `Store.fetched_asList`, `Store.fetched_asHash`, `Store.fetchedScript_asScript` — how a value is
  taken as a list, a hash or a script.
* `Store.formed_apply` — what a conversion does to the forms of values.
-/

set_option autoImplicit false

namespace CommandScript

namespace Store

/-! ## Texts and forms -/

/-- The store `t` has the cells and objects of `s`; but more texts may be known. -/
structure Reworded (s t : Store) : Prop where
  /-- The objects are the same. -/
  objects : t.objects = s.objects
  /-- There are as many cells. -/
  size : t.cells.size = s.cells.size
  /-- A cell is the same but for its text. -/
  cell : ∀ r, ∃ text, t.cell r = { s.cell r with text }

/-- No text need be known. -/
lemma Reworded.refl (s : Store) : Reworded s s :=
  ⟨rfl, rfl, fun r => ⟨(s.cell r).text, rfl⟩⟩

/-- Texts may become known one after the other. -/
lemma Reworded.trans {s t u : Store} (h : Reworded s t) (h' : Reworded t u) : Reworded s u := by
  refine ⟨h'.objects.trans h.objects, h'.size.trans h.size, fun r => ?_⟩
  obtain ⟨text, htext⟩ := h.cell r
  obtain ⟨text', htext'⟩ := h'.cell r
  exact ⟨text', by rw [htext', htext]⟩

/-- Every value is held in the form in which it was. -/
lemma Reworded.rep_eq {s t : Store} (h : Reworded s t) (r : Ref) :
    (t.cell r).rep = (s.cell r).rep := by
  obtain ⟨text, htext⟩ := h.cell r
  rw [htext]

end Store

open Store

/-- A stack is made of its elements. -/
lemma Stack.ofList_toList {α : Type} (xs : Stack α) : Stack.ofList xs.toList = xs := by
  obtain ⟨items, height, hheight⟩ := xs
  subst hheight
  simp only [Stack.ofList, Stack.toList, List.reverse_reverse, List.length_reverse]

namespace StoreM

variable {α β : Type}

/-- The computation asks for texts at most. -/
def Rewords (m : StoreM α) : Prop :=
  ∀ s, Reworded s (m s).2

/-- A result that is there already asks for no text. -/
lemma Rewords.pure (a : α) : Rewords (Pure.pure a) :=
  fun s => .refl s

/-- One thing after another asks for texts only, if each does. -/
lemma Rewords.bind {m : StoreM α} {f : α → StoreM β} (hm : Rewords m) (hf : ∀ a, Rewords (f a)) :
    Rewords (m >>= f) :=
  fun s => (hm s).trans (hf (m s).1 (m s).2)

/-- So does what is done for each of many things. -/
lemma Rewords.mapM {f : α → StoreM β} (hf : ∀ a, Rewords (f a)) (as : List α) :
    Rewords (as.mapM f) := by
  induction as with
  | nil => exact .pure []
  | cons a as ih =>
    rw [List.mapM_cons]
    exact (hf a).bind fun b => ih.bind fun bs => .pure (b :: bs)

/-- All values are held in the form in which they were. -/
def KeepsForms (m : StoreM α) : Prop :=
  ∀ s r, ((m s).2.cell r).rep = (s.cell r).rep

/-- A result that is there already keeps all forms. -/
lemma KeepsForms.pure (a : α) : KeepsForms (Pure.pure a) :=
  fun _ _ => rfl

/-- One thing after another keeps them, if each does. -/
lemma KeepsForms.bind {m : StoreM α} {f : α → StoreM β} (hm : KeepsForms m)
    (hf : ∀ a, KeepsForms (f a)) : KeepsForms (m >>= f) :=
  fun s r => (hf (m s).1 (m s).2 r).trans (hm s r)

/-- So does what is done for each of many things. -/
lemma KeepsForms.mapM {f : α → StoreM β} (hf : ∀ a, KeepsForms (f a)) (as : List α) :
    KeepsForms (as.mapM f) := by
  induction as with
  | nil => exact .pure []
  | cons a as ih =>
    rw [List.mapM_cons]
    exact (hf a).bind fun b => ih.bind fun bs => .pure (b :: bs)

/-- Asking for texts keeps all forms. -/
lemma Rewords.keepsForms {m : StoreM α} (hm : Rewords m) : KeepsForms m :=
  fun s => (hm s).rep_eq

end StoreM

namespace Store

/-- A value that is not there is held in no form. -/
lemma cell_of_size_le {s : Store} {r : Ref} (hr : s.cells.size ≤ r.index) : s.cell r = blank := by
  rw [cell, Array.getElem?_eq_none hr]
  rfl

/-- To fix a text is to make it known. -/
lemma rewords_fixText (r : Ref) (text : String) : (fixText r text).Rewords := by
  refine fun s => ⟨rfl, Array.size_modify, fun q => ?_⟩
  change ∃ text', Store.cell { s with cells := s.cells.modify r.index _ } q = _
  unfold cell
  rw [Array.getElem?_modify]
  split
  next =>
    cases s.cells[q.index]? with
    | none => exact ⟨blank.text, rfl⟩
    | some c => exact ⟨some text, rfl⟩
  next => exact ⟨_, rfl⟩

/-- To show an object asks for texts only. -/
lemma rewords_displayWith {text : Ref → StoreM String} (h : ∀ r, (text r).Rewords)
    (o : ObjectRef) : (displayWith text o).Rewords := by
  intro s
  unfold displayWith
  split
  · exact .refl s
  · exact .refl s
  · exact (StoreM.Rewords.mapM h _).bind (fun _ => .pure _) s

/-- So does writing a form. -/
lemma rewords_writeRep {text : Ref → StoreM String} (h : ∀ r, (text r).Rewords) (rep : Rep) :
    (writeRep text rep).Rewords := by
  cases rep with
  | list items => exact (StoreM.Rewords.mapM h _).bind fun _ => .pure _
  | hash entries => exact (StoreM.Rewords.mapM h _).bind fun _ => .pure _
  | object o => exact rewords_displayWith h o
  | _ => exact .pure _

/-- So does the text of a value. -/
lemma rewords_textWithin (fuel : Nat) (r : Ref) : (textWithin fuel r).Rewords := by
  induction fuel generalizing r with
  | zero => exact .pure _
  | succ fuel ih =>
    intro s
    unfold textWithin
    rw [StoreM.getBind_apply]
    cases (s.cell r).text with
    | some text => exact .refl s
    | none =>
      exact ((rewords_writeRep ih _).bind fun text =>
        (rewords_fixText r text).bind fun _ => .pure text) s

/-- **Asking for a text changes nothing but which texts are known.** -/
lemma rewords_text (r : Ref) : (text r).Rewords :=
  rewords_textWithin _ r

/-- A new value that is held in no form is held as a value that is not there. -/
lemma keepsForms_alloc {c : Cell} (hc : c.rep = .none) : (alloc c).KeepsForms := by
  intro s r
  rw [cell_alloc]
  split
  next hr =>
    rw [cell_of_size_le (Nat.le_of_eq hr.symm), hc]
    rfl
  next => rfl

/-- New values are held in no form. -/
lemma keepsForms_ofTexts (texts : List String) : (ofTexts texts).KeepsForms :=
  .mapM (f := ofText) (fun _ => keepsForms_alloc rfl) texts

end Store

namespace Script

mutual

/-- The literals of a word are new values. -/
lemma keepsForms_loadWord : ∀ w : Word String, (loadWord w).KeepsForms
  | .literal _ => (keepsForms_alloc rfl).bind fun _ => .pure _
  | .var _ => .pure _
  | .substitution script => (keepsForms_load script).bind fun _ => .pure _
  | .joined parts => (keepsForms_loadWords parts).bind fun _ => .pure _

/-- So are those of the words of a command. -/
lemma keepsForms_loadWords : ∀ ws : List (Word String), (loadWords ws).KeepsForms
  | [] => .pure _
  | w :: rest => (keepsForms_loadWord w).bind fun _ =>
    (keepsForms_loadWords rest).bind fun _ => .pure _

/-- The values that a script is loaded with are held in no form. -/
lemma keepsForms_load : ∀ script : List (List (Word String)), (load script).KeepsForms
  | [] => .pure _
  | c :: rest => (keepsForms_loadWords c).bind fun _ => (keepsForms_load rest).bind fun _ => .pure _

end

end Script

namespace Store

/-- New values made from texts are held in no form. -/
lemma rep_ofTexts (texts : List String) (s : Store) :
    ∀ e ∈ (ofTexts texts s).1, ((ofTexts texts s).2.cell e).rep = .none := by
  induction texts generalizing s with
  | nil =>
    intro e he
    cases he
  | cons text texts ih =>
    have hrest := keepsForms_ofTexts texts (ofText text s).2
    rw [ofTexts_cons]
    intro e he
    obtain rfl | he := List.mem_cons.1 he
    · rw [hrest]
      exact congrArg Cell.rep ((cell_alloc _ s _).trans (if_pos rfl))
    · exact ih _ e he

end Store

/-! ## Forms that conversions give -/

/-- The conversion that gives lists or hashes, for a form that is one. -/
def Rep.container? : Rep → Option Conversion
  | .list _ => some .list
  | .hash _ => some .hash
  | _ => Option.none

/-- The values that a form is made of, if it is a list or a hash. -/
def Rep.parts : Rep → List Ref
  | .list items => items.toList
  | .hash entries => entries.values
  | _ => []

/-- What a value holds: itself, and the elements of the lists and hashes that it holds. -/
inductive Store.Holds (s : Store) (r : Ref) : Ref → Prop
  /-- The value itself. -/
  | itself : Holds s r r
  /-- An element of a list or a hash. -/
  | element {e q : Ref} (he : Holds s r e) (hq : q ∈ (s.cell e).rep.parts) : Holds s r q

/-- Whether there is a script. -/
def Script.Outcome.isDone {α : Type} : Outcome α → Bool
  | .done _ => true
  | _ => false

/-- Whether a conversion succeeds, and what it gives is kept as a form of the value: texts and truth
values are not. -/
def Conversion.gives (c : Conversion) (r : Ref) (s : Store) : Bool :=
  match c with
  | .text => false
  | .bool => false
  | .int => (ConvM.outcome (Store.asInt r s)).isOk
  | .long => (ConvM.outcome (Store.asLong r s)).isOk
  | .float => (ConvM.outcome (Store.asFloat r s)).isOk
  | .list => (ConvM.outcome (Store.asList r s)).isOk
  | .hash => (ConvM.outcome (Store.asHash r s)).isOk
  | .script => (Store.asScript r s).1.isDone

namespace Store

/-- What a conversion of the value `r` may do to the forms of values, from `s` to `t`. -/
inductive Formed (c : Conversion) (r : Ref) (s t : Store) : Prop
  /-- All forms are kept. A list or hash is then not converted, or to what it is. -/
  | kept (hforms : ∀ q, (t.cell q).rep = (s.cell q).rep)
    (hsame : c.gives r s = true → ∀ f, (s.cell r).rep.container? = some f → f = c)
  /-- The value was held in another form; its new parts, if it has some, are held in none. -/
  | replaced (hgives : c.gives r s = true) (hother : (s.cell r).rep.container? ≠ some c)
    (hobject : s.objectOf? r = none) (hobject' : t.objectOf? r = none)
    (hrest : ∀ q, q ≠ r → (t.cell q).rep = (s.cell q).rep)
    (hparts : ∀ e ∈ (t.cell r).rep.parts, e = r ∨ (t.cell e).rep = .none)

/-- A value is the object that its form is. -/
lemma objectOf?_congr {s t : Store} {r : Ref} (h : (t.cell r).rep = (s.cell r).rep) :
    t.objectOf? r = s.objectOf? r := by
  unfold objectOf?
  rw [h]

/-- An object is no container. -/
lemma container?_of_objectOf? {s : Store} {r : Ref} {o : ObjectRef} (h : s.objectOf? r = some o) :
    (s.cell r).rep.container? = none := by
  unfold objectOf? at h
  cases hrep : (s.cell r).rep with
  | object o => rfl
  | _ =>
    rw [hrep] at h
    cases h

/-- Only the form of the value at hand is set. -/
lemma rep_setRep (r : Ref) (rep : Rep) (s : Store) (q : Ref) :
    ((setRep r rep s).2.cell q).rep =
      if q = r ∧ r.index < s.cells.size then rep else (s.cell q).rep := by
  by_cases hr : r.index < s.cells.size
  · change (Store.cell { s with cells := s.cells.modify r.index _ } q).rep = _
    rw [cell_modify _ hr]
    by_cases hq : q = r
    · rw [if_pos hq, if_pos ⟨hq, hr⟩]
    · rw [if_neg hq, if_neg fun h => hq h.1]
  · rw [if_neg fun h => hr h.2]
    change (Store.cell { s with cells := s.cells.modify r.index _ } q).rep = _
    unfold cell
    rw [Array.getElem?_modify]
    split
    next hq =>
      rw [← hq, Array.getElem?_eq_none (Nat.le_of_not_lt hr)]
      rfl
    next => rfl

/-- An object stays what it is. -/
lemma cache_of_object {r : Ref} {rep : Rep} {s : Store} {o : ObjectRef}
    (h : (text r s).2.objectOf? r = some o) : cache r rep s = ((), (text r s).2) := by
  unfold cache
  simp only [bind, StateT.bind, get, getThe, MonadStateOf.get, StateT.get, pure]
  generalize text r s = known at h ⊢
  obtain ⟨t, v⟩ := known
  simp only [h]
  rfl

/-- **Keeping a form.** An object stays; any other form is replaced. -/
lemma formed_cache {c : Conversion} {r : Ref} {rep : Rep} {s u : Store}
    (hforms : ∀ q, (u.cell q).rep = (s.cell q).rep) (hgives : c.gives r s = true)
    (hother : (s.cell r).rep.container? ≠ some c) (hrep : ∀ o, rep ≠ .object o)
    (hparts : ∀ e ∈ rep.parts, (u.cell e).rep = .none) :
    Formed c r s (cache r rep u).2 := by
  have htext : ∀ q, ((text r u).2.cell q).rep = (s.cell q).rep := fun q =>
    ((rewords_text r).keepsForms u q).trans (hforms q)
  cases hobject : (text r u).2.objectOf? r with
  | some o =>
    rw [cache_of_object hobject]
    refine .kept htext fun _ f hf => ?_
    rw [objectOf?_congr (htext r)] at hobject
    rw [container?_of_objectOf? hobject] at hf
    cases hf
  | none =>
    rw [cache_apply hobject]
    by_cases hr : r.index < (text r u).2.cells.size
    · have hnew : ((setRep r rep (text r u).2).2.cell r).rep = rep := by
        rw [rep_setRep, if_pos ⟨rfl, hr⟩]
      have hrest : ∀ q, q ≠ r → ((setRep r rep (text r u).2).2.cell q).rep = (s.cell q).rep := by
        intro q hq
        rw [rep_setRep, if_neg fun h => hq h.1, htext]
      refine .replaced hgives hother ((objectOf?_congr (htext r)).symm.trans hobject) ?_ hrest ?_
      · unfold objectOf?
        rw [hnew]
        split
        next o => exact absurd rfl (hrep o)
        next => rfl
      · intro e he
        rw [hnew] at he
        by_cases her : e = r
        · exact .inl her
        · rw [hrest e her, ← hforms e]
          exact .inr (hparts e he)
    -- a value that is not there is given no form
    · refine .kept (fun q => ?_) fun _ f hf => ?_
      · rw [rep_setRep, if_neg fun h => hr h.2, htext]
      · rw [← htext r, cell_of_size_le (Nat.le_of_not_lt hr)] at hf
        cases hf

/-! ## What conversions do to the forms of values -/

/-- A text is read if the reading succeeds. -/
lemma isOk_readAs {α : Type} (r : Ref) (read? : String → Option α) (rep : α → Rep)
    (failure : String → Failure) (s : Store) :
    (ConvM.outcome (readAs r read? rep failure s)).isOk = (read? (text r s).1).isSome := by
  unfold readAs
  rw [ConvM.liftBind_apply]
  cases read? (text r s).1 with
  | some a => rfl
  | none => rfl

/-- A number is taken as it is, or its text is read. -/
lemma formed_number {α : Type} {c : Conversion} {r : Ref} {s : Store} {m : ConvM α}
    {read? : String → Option α} {rep : α → Rep} {failure : String → Failure}
    (h : finalState (m s) = s ∧ (s.cell r).rep.container? = none ∨
      m s = readAs r read? rep failure s)
    (hgives : c.gives r s = (ConvM.outcome (m s)).isOk)
    (hother : (s.cell r).rep.container? ≠ some c) (hrep : ∀ a o, rep a ≠ .object o)
    (hparts : ∀ a, (rep a).parts = []) :
    Formed c r s (finalState (m s)) := by
  obtain ⟨hsame, hnumber⟩ | hread := h
  · rw [hsame]
    refine .kept (fun _ => rfl) fun _ f hf => ?_
    rw [hnumber] at hf
    cases hf
  · have htext := (rewords_text r).keepsForms s
    rw [hread, isOk_readAs] at hgives
    rw [hread, finalState_readAs]
    cases ha : read? (text r s).1 with
    | none =>
      refine .kept htext fun hok => ?_
      rw [hgives, ha] at hok
      cases hok
    | some a =>
      rw [ha] at hgives
      refine formed_cache htext hgives hother (hrep a) fun e he => ?_
      rw [hparts a] at he
      cases he

/-- Taking a value as an integer is to take what it is held as, or to read its text. -/
lemma asInt_taken (r : Ref) (s : Store) :
    finalState (asInt r s) = s ∧ (s.cell r).rep.container? = none ∨
      asInt r s = readAs r readInt? .int .notInteger s := by
  unfold asInt
  rw [ConvM.getBind_apply]
  cases (s.cell r).rep with
  | int n => exact .inl ⟨rfl, rfl⟩
  | long n =>
    dsimp only
    cases Number.toInt32? n.toInt with
    | some n => exact .inl ⟨rfl, rfl⟩
    | none => exact .inr rfl
  | _ => exact .inr rfl

/-- So it is with an integer of 64 bits. -/
lemma asLong_taken (r : Ref) (s : Store) :
    finalState (asLong r s) = s ∧ (s.cell r).rep.container? = none ∨
      asLong r s = readAs r readLong? .long .notLong s := by
  unfold asLong
  rw [ConvM.getBind_apply]
  cases (s.cell r).rep with
  | int n => exact .inl ⟨rfl, rfl⟩
  | long n => exact .inl ⟨rfl, rfl⟩
  | _ => exact .inr rfl

/-- So it is with a floating-point number. -/
lemma asFloat_taken (r : Ref) (s : Store) :
    finalState (asFloat r s) = s ∧ (s.cell r).rep.container? = none ∨
      asFloat r s = readAs r Number.readFloat? .float .notFloat s := by
  unfold asFloat
  rw [ConvM.getBind_apply]
  cases (s.cell r).rep with
  | int n => exact .inl ⟨rfl, rfl⟩
  | long n => exact .inl ⟨rfl, rfl⟩
  | float x => exact .inl ⟨rfl, rfl⟩
  | _ => exact .inr rfl

/-- How a value is taken as a list or as a hash: `form` is the form, `c` the conversion to it. -/
inductive Fetched {α : Type} (c : Conversion) (form : α → Rep) (r : Ref) (s : Store) :
    EStateM.Result Failure Store α → Prop
  /-- It is held in this form. -/
  | held {a : α} (h : (s.cell r).rep = form a) : Fetched c form r s (.ok a s)
  /-- Its text cannot be read. -/
  | failed (e : Failure) (hother : (s.cell r).rep.container? ≠ some c) :
    Fetched c form r s (.error e (text r s).2)
  /-- Its text is read, and its parts are new. -/
  | read {a : α} (texts : List String) (hother : (s.cell r).rep.container? ≠ some c)
    (hparts : ∀ e ∈ (form a).parts, e ∈ (ofTexts texts (text r s).2).1) :
    Fetched c form r s (.ok a (cache r (form a) (ofTexts texts (text r s).2).2).2)

/-- A value is fetched as a list. -/
lemma fetched_asList (r : Ref) (s : Store) :
    Fetched .list (fun items => .list (.ofList items)) r s (asList r s) := by
  have hread (h : (s.cell r).rep.container? ≠ some .list) :
      Fetched .list (fun items => .list (.ofList items)) r s (((do
        let t ← text r
        let items ← readItems t
        let items := Stack.ofList items
        cache r (.list items)
        return items : ConvM (Stack Ref)) >>= fun items => pure items.toList) s) := by
    rw [bind_assoc, ConvM.liftBind_apply]
    unfold readItems
    cases ListText.read (text r s).1 with
    | error e => exact .failed _ h
    | ok texts =>
      change Fetched _ _ r s (.ok (Stack.ofList (ofTexts texts (text r s).2).1).toList _)
      rw [Stack.toList_ofList]
      refine .read texts h fun e he => ?_
      change e ∈ (Stack.ofList _).toList at he
      rwa [Stack.toList_ofList] at he
  unfold asList asStack
  rw [bind_assoc, ConvM.getBind_apply]
  cases hrep : (s.cell r).rep with
  | list items =>
    refine .held ?_
    rw [hrep, Stack.ofList_toList]
  | _ => exact hread (by simp [hrep, Rep.container?])

/-- A value is fetched as a hash. -/
lemma fetched_asHash (r : Ref) (s : Store) : Fetched .hash .hash r s (asHash r s) := by
  unfold asHash
  rw [ConvM.getBind_apply]
  cases hrep : (s.cell r).rep with
  | hash entries => exact .held hrep
  | _ =>
    have hother : (s.cell r).rep.container? ≠ some .hash := by simp [hrep, Rep.container?]
    dsimp only
    rw [ConvM.liftBind_apply]
    cases HashText.read (text r s).1 with
    | error e => exact .failed _ hother
    | ok table => exact .read table.values hother fun e he => Table.mem_values_withValues he

/-- New parts are held in no form. -/
lemma keepsForms_read (texts : List String) (r : Ref) (s : Store) (q : Ref) :
    ((ofTexts texts (text r s).2).2.cell q).rep = (s.cell q).rep :=
  (keepsForms_ofTexts texts _ q).trans ((rewords_text r).keepsForms s q)

/-- A form that is fetched has been given to the value, if it was not there. -/
lemma Fetched.formed {α : Type} {c : Conversion} {form : α → Rep} {r : Ref} {s : Store}
    {result : EStateM.Result Failure Store α} (h : Fetched c form r s result)
    (hgives : c.gives r s = (ConvM.outcome result).isOk)
    (hform : ∀ a, (form a).container? = some c) : Formed c r s (finalState result) := by
  cases h with
  | held h =>
    refine .kept (fun _ => rfl) fun _ f hf => ?_
    rw [h, hform] at hf
    exact (Option.some.inj hf).symm
  | failed e _ =>
    refine .kept ((rewords_text r).keepsForms s) fun hok => ?_
    rw [hgives] at hok
    cases hok
  | @read a texts hother hparts =>
    refine formed_cache (keepsForms_read texts r s) hgives hother (fun o ho => ?_) fun e he => ?_
    · have hcontainer := hform a
      rw [ho] at hcontainer
      cases hcontainer
    · exact rep_ofTexts texts _ e (hparts e he)

/-- How a value is taken as a script. -/
inductive FetchedScript (r : Ref) (s : Store) : Script.Outcome (Script Ref) × Store → Prop
  /-- It is held as one. -/
  | held {commands : Script Ref} (h : (s.cell r).rep = .script commands) :
    FetchedScript r s (.done commands, s)
  /-- Its text cannot be read. -/
  | failed {outcome : Script.Outcome (Script Ref)} (h : outcome.isDone = false) :
    FetchedScript r s (outcome, (text r s).2)
  /-- Its text is read. -/
  | read {commands : Script Ref} {u : Store} (script : Script String)
    (h : Script.load script (text r s).2 = (commands, u)) :
    FetchedScript r s (.done commands, (cache r (.script commands) u).2)

/-- A value is fetched as a script. -/
lemma fetchedScript_asScript (r : Ref) (s : Store) : FetchedScript r s (asScript r s) := by
  unfold asScript
  rw [StoreM.getBind_apply]
  cases hrep : (s.cell r).rep with
  | script commands => exact .held hrep
  | _ =>
    dsimp only
    rw [StoreM.bind_apply]
    cases Script.read (text r s).1 with
    | failed e => exact .failed rfl
    | stuck => exact .failed rfl
    | done script => exact .read script rfl

/-- Where it was no script, it has been given that form. -/
lemma FetchedScript.formed {r : Ref} {s : Store} {result : Script.Outcome (Script Ref) × Store}
    (h : FetchedScript r s result) (hgives : Conversion.script.gives r s = result.1.isDone)
    (hother : (s.cell r).rep.container? ≠ some .script) : Formed .script r s result.2 := by
  have htext := (rewords_text r).keepsForms s
  cases h with
  | held h =>
    refine .kept (fun _ => rfl) fun _ f hf => ?_
    rw [h] at hf
    cases hf
  | failed h =>
    refine .kept htext fun hdone => ?_
    rw [hgives.trans h] at hdone
    cases hdone
  | read script h =>
    have hload := Script.keepsForms_load script (text r s).2
    rw [h] at hload
    refine formed_cache (fun q => (hload q).trans (htext q)) hgives hother
      (fun _ ho => nomatch ho) fun e he => ?_
    cases he

/-- Looking for a truth value replaces no form. -/
lemma rep_asBool (r : Ref) (s : Store) (q : Ref) :
    ((finalState (asBool r s)).cell q).rep = (s.cell q).rep := by
  have hbool : ((bool? r s).2.cell q).rep = (s.cell q).rep := by
    obtain hsame | htext := bool?_cases r s
    · rw [hsame]
    · rw [htext, (rewords_text r s).rep_eq]
  unfold asBool
  rw [ConvM.liftBind_apply]
  cases (bool? r s).1 with
  | some b => exact hbool
  | none => exact ((rewords_text r _).rep_eq q).trans hbool

/-- **What a conversion does to the forms of values.** -/
lemma formed_apply (c : Conversion) (r : Ref) (s : Store) : Formed c r s (c.apply r s) := by
  have hnumber {c : Conversion} (h : c ≠ .list) (h' : c ≠ .hash) :
      (s.cell r).rep.container? ≠ some c := by
    intro hc
    unfold Rep.container? at hc
    split at hc
    · exact h (Option.some.inj hc).symm
    · exact h' (Option.some.inj hc).symm
    · cases hc
  cases c with
  | text => exact .kept ((rewords_text r).keepsForms s) fun h => nomatch h
  | int =>
    exact formed_number (asInt_taken r s) rfl (hnumber nofun nofun) (fun _ _ h => nomatch h)
      fun _ => rfl
  | long =>
    exact formed_number (asLong_taken r s) rfl (hnumber nofun nofun) (fun _ _ h => nomatch h)
      fun _ => rfl
  | float =>
    exact formed_number (asFloat_taken r s) rfl (hnumber nofun nofun) (fun _ _ h => nomatch h)
      fun _ => rfl
  | bool => exact .kept (rep_asBool r s) fun h => nomatch h
  | list => exact (fetched_asList r s).formed rfl fun _ => rfl
  | hash => exact (fetched_asHash r s).formed rfl fun _ => rfl
  | script => exact (fetchedScript_asScript r s).formed rfl (hnumber nofun nofun)

end Store

end CommandScript
