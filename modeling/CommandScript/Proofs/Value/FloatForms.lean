import CommandScript.Proofs.Value.Meaning

/-!
# Floating-point forms are set aside

A value that was used as a floating-point number is held in that form from then on. No other
conversion but that to a truth value ever looks at the form again: all others read the text. So
what they do can be told on the store in which floating-point forms are forgotten, provided that
every value in such a form knows its text.

## Main definitions

* `Store.unfloated` — the store in which floating-point forms are forgotten.
* `Store.FloatsWritten` — every value in a floating-point form knows its text.
* `StoreM.Blind`, `ConvM.Blind` — the computation does the same where floating-point forms are
  forgotten.

## Main results

* `StoreM.Blind.bind`, `StoreM.Blind.getBind`, `ConvM.Blind.bind` — computations made of others.
* `Store.blind_text`, `Store.blind_asInt`, `Store.blind_asStack` and others — texts and conversions.
-/

set_option autoImplicit false

namespace CommandScript

/-! ## Forgetting forms -/

/-- The form, unless it is a floating-point number. -/
def Rep.unfloated : Rep → Rep
  | .float _ => .none
  | rep => rep

/-- A form that is no floating-point number is not forgotten. -/
lemma Rep.unfloated_of_ne {rep : Rep} (h : ∀ x, rep ≠ .float x) : rep.unfloated = rep := by
  cases rep with
  | float x => exact absurd rfl (h x)
  | _ => rfl

namespace Cell

/-- The value without its form, if that is a floating-point number. -/
def unfloated (c : Cell) : Cell :=
  { c with rep := c.rep.unfloated }

/-- A value in a floating-point form knows its text. -/
def FloatWritten (c : Cell) : Prop :=
  ∀ x, c.rep = .float x → c.text ≠ none

/-- Nor is that of a cell. -/
lemma unfloated_of_ne {c : Cell} (h : ∀ x, c.rep ≠ .float x) : c.unfloated = c := by
  unfold unfloated
  rw [Rep.unfloated_of_ne h]

/-- A value without a text is in no floating-point form. -/
lemma FloatWritten.unfloated_eq {c : Cell} (h : c.FloatWritten) (htext : c.text = none) :
    c.unfloated = c :=
  unfloated_of_ne fun x hx => h x hx htext

end Cell

namespace Store

/-- The store in which floating-point forms are forgotten. -/
def unfloated (s : Store) : Store :=
  { s with cells := s.cells.map Cell.unfloated }

/-- Every value in a floating-point form knows its text. -/
def FloatsWritten (s : Store) : Prop :=
  ∀ r, (s.cell r).FloatWritten

/-- Every single form is forgotten. -/
@[simp] lemma cell_unfloated (s : Store) (r : Ref) : s.unfloated.cell r = (s.cell r).unfloated := by
  unfold cell unfloated
  rw [Array.getElem?_map]
  cases s.cells[r.index]? with
  | none => rfl
  | some c => rfl

/-- No cell is lost. -/
@[simp] lemma size_unfloated (s : Store) : s.unfloated.cells.size = s.cells.size :=
  Array.size_map

/-- Objects stay. -/
lemma objectOf?_unfloated (s : Store) (r : Ref) : s.unfloated.objectOf? r = s.objectOf? r := by
  unfold objectOf?
  rw [cell_unfloated, Cell.unfloated]
  cases (s.cell r).rep with
  | _ => rfl

end Store

/-! ## Computations that cannot fail -/

namespace StoreM

variable {α β : Type}

/-- One computation after another. -/
lemma bind_apply (m : StoreM α) (f : α → StoreM β) (s : Store) : (m >>= f) s = f (m s).1 (m s).2 :=
  rfl

/-- A look at the store. -/
lemma getBind_apply (f : Store → StoreM α) (s : Store) : (get >>= f) s = f s s :=
  rfl

/-- The computation does the same where floating-point forms are forgotten, and all values in such a
form know their texts afterwards, if they did before. -/
def Blind (m : StoreM α) : Prop :=
  ∀ s : Store, s.FloatsWritten → m s.unfloated = ((m s).1, (m s).2.unfloated) ∧
    (m s).2.FloatsWritten

/-- A result that is there already depends on no form. -/
lemma Blind.pure (a : α) : Blind (Pure.pure a) :=
  fun _ hs => ⟨rfl, hs⟩

/-- One thing after another is blind, if both are. -/
lemma Blind.bind {m : StoreM α} {f : α → StoreM β} (hm : Blind m) (hf : ∀ a, Blind (f a)) :
    Blind (m >>= f) := by
  intro s hs
  obtain ⟨hm₁, hm₂⟩ := hm s hs
  obtain ⟨hf₁, hf₂⟩ := hf (m s).1 (m s).2 hm₂
  refine ⟨?_, hf₂⟩
  change f (m s.unfloated).1 (m s.unfloated).2 = _
  rw [hm₁]
  exact hf₁

/-- A look at the store that does not see floating-point forms. -/
lemma Blind.getBind {f : Store → StoreM β}
    (hf : ∀ s : Store, s.FloatsWritten → f s.unfloated = f s ∧ Blind (f s)) :
    Blind (get >>= f) := by
  intro s hs
  obtain ⟨hsame, hblind⟩ := hf s hs
  obtain ⟨hf₁, hf₂⟩ := hblind s hs
  refine ⟨?_, hf₂⟩
  change f s.unfloated s.unfloated = _
  rw [hsame]
  exact hf₁

/-- So is what is done for each of many things. -/
lemma Blind.mapM {f : α → StoreM β} (hf : ∀ a, Blind (f a)) (as : List α) : Blind (as.mapM f) := by
  induction as with
  | nil => exact .pure []
  | cons a as ih =>
    rw [List.mapM_cons]
    exact (hf a).bind fun b => ih.bind fun bs => .pure (b :: bs)

end StoreM

/-! ## Computations that may fail -/

namespace ConvM

variable {α β : Type}

/-- A look at the store. -/
lemma getBind_apply (f : Store → ConvM α) (s : Store) : (get >>= f) s = f s s :=
  rfl

/-- What cannot fail comes first. -/
lemma liftBind_apply (m : StoreM α) (f : α → ConvM β) (s : Store) :
    ((liftM m : ConvM α) >>= f) s = f (m s).1 (m s).2 :=
  rfl

/-- The two outcomes are the same, but for floating-point forms in the one store that are forgotten
in the other. -/
inductive Veiled : EStateM.Result Failure Store α → EStateM.Result Failure Store α → Prop
  | ok {a : α} {s : Store} (hs : s.FloatsWritten) : Veiled (.ok a s) (.ok a s.unfloated)
  | error {f : Failure} {s : Store} (hs : s.FloatsWritten) :
    Veiled (.error f s) (.error f s.unfloated)

/-- The computation does the same where floating-point forms are forgotten, whether it fails or
not. -/
def Blind (m : ConvM α) : Prop :=
  ∀ s : Store, s.FloatsWritten → Veiled (m s) (m s.unfloated)

/-- A result that is there already depends on no form. -/
lemma Blind.pure (a : α) : Blind (Pure.pure a) :=
  fun _ hs => .ok hs

/-- Nor does a failure. -/
lemma Blind.throw (f : Failure) : Blind (MonadExcept.throw f : ConvM α) :=
  fun _ hs => .error hs

/-- Work on values stays blind. -/
lemma Blind.lift {m : StoreM α} (hm : m.Blind) : Blind (liftM m) := by
  intro s hs
  obtain ⟨hm₁, hm₂⟩ := hm s hs
  change Veiled (.ok (m s).1 (m s).2) (.ok (m s.unfloated).1 (m s.unfloated).2)
  rw [hm₁]
  exact .ok hm₂

/-- One conversion after another is blind, if both are. -/
lemma Blind.bind {m : ConvM α} {f : α → ConvM β} (hm : Blind m) (hf : ∀ a, Blind (f a)) :
    Blind (m >>= f) := by
  intro s hs
  have hout := hm s hs
  change Veiled (EStateM.bind m f s) (EStateM.bind m f s.unfloated)
  unfold EStateM.bind
  generalize m s = o at hout ⊢
  generalize m s.unfloated = o' at hout ⊢
  cases hout with
  | ok ht => exact hf _ _ ht
  | error ht => exact .error ht

/-- A look at the store that does not see floating-point forms. -/
lemma Blind.getBind {f : Store → ConvM β}
    (hf : ∀ s : Store, s.FloatsWritten → f s.unfloated = f s ∧ Blind (f s)) :
    Blind (get >>= f) := by
  intro s hs
  obtain ⟨hsame, hblind⟩ := hf s hs
  change Veiled (f s s) (f s.unfloated s.unfloated)
  rw [hsame]
  exact hblind s hs

end ConvM

namespace Store

open StoreM (Blind)

/-! ## Making and changing cells -/

/-- A new cell that is no floating-point number depends on no form. -/
lemma blind_alloc {c : Cell} (hc : ∀ x, c.rep ≠ .float x) : Blind (alloc c) := by
  intro s hs
  refine ⟨?_, forall_cell_alloc hs fun x hx => absurd hx (hc x)⟩
  unfold alloc
  simp only [unfloated, Array.size_map, Array.map_push, Cell.unfloated_of_ne hc]

/-- Forgetting floating-point forms after a change of a cell is a change of the cell after
forgetting them. -/
lemma unfloated_modify {f g : Cell → Cell} (hfg : ∀ c, (f c).unfloated = g c.unfloated) (s : Store)
    (r : Ref) : ({ s with cells := s.cells.modify r.index f } : Store).unfloated =
      { s.unfloated with cells := s.unfloated.cells.modify r.index g } := by
  have hcells : (s.cells.modify r.index f).map Cell.unfloated =
      (s.cells.map Cell.unfloated).modify r.index g := by
    apply Array.ext_getElem?
    intro i
    simp only [Array.getElem?_modify, Array.getElem?_map]
    split
    · cases s.cells[i]? with
      | none => rfl
      | some c => exact congrArg some (hfg c)
    · rfl
  unfold unfloated
  rw [hcells]

/-- Values in floating-point forms know their texts after a change that knows the text. -/
lemma FloatsWritten.modify {f : Cell → Cell} {s : Store} {r : Ref} (hs : s.FloatsWritten)
    (hf : (f (s.cell r)).FloatWritten) :
    FloatsWritten { s with cells := s.cells.modify r.index f } :=
  forall_cell_modify hs hf

/-- A change of a cell that does not look at floating-point forms. -/
lemma blind_modify {f : Cell → Cell} (r : Ref) (hf : ∀ c, (f c).unfloated = f c.unfloated)
    (hwritten : ∀ c, (f c).FloatWritten) :
    Blind (fun s => ((), { s with cells := s.cells.modify r.index f })) := by
  intro s hs
  refine ⟨?_, hs.modify (hwritten _)⟩
  rw [unfloated_modify hf]

/-- To fix a text depends on no form. -/
lemma blind_fixText (r : Ref) (t : String) : Blind (fixText r t) := by
  refine blind_modify r (fun _ => rfl) fun c x _ htext => ?_
  cases htext

/-- Nor does it to set a form that is no floating-point number. -/
lemma blind_setRep (r : Ref) {rep : Rep} (hrep : ∀ x, rep ≠ .float x) : Blind (setRep r rep) := by
  refine blind_modify r (fun c => ?_) fun c x hx => absurd hx (hrep x)
  exact Cell.unfloated_of_ne (c := { c with rep }) hrep

/-! ## Texts -/

/-- To show an object depends on no more than the texts do. -/
lemma blind_displayWith {f : Ref → StoreM String} (hf : ∀ r, Blind (f r)) (o : ObjectRef) :
    Blind (displayWith f o) := by
  intro s hs
  unfold displayWith
  rw [show s.unfloated.object? o = s.object? o from rfl]
  split
  · exact ⟨rfl, hs⟩
  · exact ⟨rfl, hs⟩
  next p _ =>
    have hparts : Blind (do
        let texts ← [p.spec, p.body].mapM f
        return ListText.write texts : StoreM String) :=
      (Blind.mapM hf _).bind fun _ => .pure _
    exact hparts s hs

/-- Nor does it to write a form, where floating-point numbers know their texts. -/
lemma blind_writeRep {f : Ref → StoreM String} (hf : ∀ r, Blind (f r)) (rep : Rep) :
    Blind (writeRep f rep) := by
  cases rep with
  | none => exact .pure _
  | int n => exact .pure _
  | long n => exact .pure _
  | float x => exact .pure _
  | list items => exact (Blind.mapM hf _).bind fun _ => .pure _
  | hash entries => exact (Blind.mapM hf _).bind fun _ => .pure _
  | script commands => exact .pure _
  | object o => exact blind_displayWith hf o

/-- A floating-point form is not written: the text is known. -/
lemma blind_textWithin (fuel : Nat) (r : Ref) : Blind (textWithin fuel r) := by
  induction fuel generalizing r with
  | zero => exact .pure _
  | succ fuel ih =>
    unfold textWithin
    refine .getBind fun s hs => ?_
    simp only [cell_unfloated]
    cases htext : (s.cell r).text with
    | some t =>
      have hknown : (s.cell r).unfloated.text = some t := htext
      rw [hknown]
      exact ⟨rfl, .pure t⟩
    | none =>
      -- a floating-point form would have its text, so it is another form that is written
      rw [(hs r).unfloated_eq htext, htext]
      refine ⟨rfl, (blind_writeRep ih _).bind fun t => ?_⟩
      exact (blind_fixText r t).bind fun _ => .pure t

/-- **Asking for a text** does not look at floating-point forms. -/
lemma blind_text (r : Ref) : Blind (text r) :=
  blind_textWithin _ r

/-- The texts of many values depend on no floating-point form. -/
lemma blind_texts (rs : List Ref) : Blind (texts rs) :=
  .mapM blind_text rs

/-- Nor does it to keep a form that is no floating-point number. -/
lemma blind_cache (r : Ref) {rep : Rep} (hrep : ∀ x, rep ≠ .float x) : Blind (cache r rep) := by
  refine (blind_text r).bind fun _ => .getBind fun s _ => ?_
  rw [objectOf?_unfloated]
  refine ⟨rfl, ?_⟩
  cases s.objectOf? r with
  | some o => exact .pure ()
  | none => exact blind_setRep r hrep

/-- New texts depend on no form. -/
lemma blind_ofTexts (texts : List String) : Blind (ofTexts texts) :=
  .mapM (fun _ => blind_alloc (by simp)) texts

end Store

/-! ## Scripts with values in them -/

namespace Script

open StoreM (Blind)

mutual

/-- Loading a word depends on no form. -/
theorem blind_loadWord : ∀ w : Word String, Blind (loadWord w)
  | .literal t => (Store.blind_alloc (by simp)).bind fun _ => .pure _
  | .var _ => .pure _
  | .substitution script => (blind_load script).bind fun _ => .pure _
  | .joined parts => (blind_loadWords parts).bind fun _ => .pure _

/-- Nor does loading the words of a command. -/
theorem blind_loadWords : ∀ ws : List (Word String), Blind (loadWords ws)
  | [] => .pure _
  | w :: ws => (blind_loadWord w).bind fun _ => (blind_loadWords ws).bind fun _ => .pure _

/-- Nor does loading a script. -/
theorem blind_load : ∀ script : List (List (Word String)), Blind (load script)
  | [] => .pure _
  | c :: cs => (blind_loadWords c).bind fun _ => (blind_load cs).bind fun _ => .pure _

end

end Script

/-! ## Conversions -/

namespace Store

open ConvM (Blind)

/-- What is read from a text depends on no form. -/
lemma blind_readAs {α : Type} (r : Ref) (read? : String → Option α) {rep : α → Rep}
    (failure : String → Failure) (hrep : ∀ a x, rep a ≠ .float x) :
    Blind (readAs r read? rep failure) := by
  refine (Blind.lift (blind_text r)).bind fun t => ?_
  cases read? t with
  | some a => exact (Blind.lift (blind_cache r (hrep a))).bind fun _ => .pure a
  | none => exact .throw _

/-- A value in a floating-point form is converted like one that has only a text. -/
lemma blind_asInt (r : Ref) : Blind (asInt r) := by
  have hread : Blind (readAs r readInt? .int .notInteger) := blind_readAs r _ _ (by simp)
  refine .getBind fun s _ => ?_
  rw [cell_unfloated, Cell.unfloated]
  cases (s.cell r).rep with
  | int n => exact ⟨rfl, .pure n⟩
  | long n =>
    refine ⟨rfl, ?_⟩
    dsimp only
    split
    next m _ => exact .pure m
    next => exact hread
  | _ => exact ⟨rfl, hread⟩

/-- An integer of 64 bits depends on no floating-point form. -/
lemma blind_asLong (r : Ref) : Blind (asLong r) := by
  have hread : Blind (readAs r readLong? .long .notLong) := blind_readAs r _ _ (by simp)
  refine .getBind fun s _ => ?_
  rw [cell_unfloated, Cell.unfloated]
  cases (s.cell r).rep with
  | int n => exact ⟨rfl, .pure _⟩
  | long n => exact ⟨rfl, .pure n⟩
  | _ => exact ⟨rfl, hread⟩

/-- Nor do the items that are read from a text. -/
lemma blind_readItems (t : String) : Blind (readItems t) := by
  unfold readItems
  split
  · exact .lift (blind_ofTexts _)
  · exact .throw _

/-- Nor do the elements of a list as they are stacked. -/
lemma blind_asStack (r : Ref) : Blind (asStack r) := by
  have hread : Blind (do
      let t ← text r
      let items ← readItems t
      let items := Stack.ofList items
      cache r (.list items)
      return items : ConvM (Stack Ref)) := by
    refine (Blind.lift (blind_text r)).bind fun t => (blind_readItems t).bind fun items => ?_
    exact (Blind.lift (blind_cache r (by simp))).bind fun _ => .pure _
  refine .getBind fun s _ => ?_
  rw [cell_unfloated, Cell.unfloated]
  cases (s.cell r).rep with
  | list items => exact ⟨rfl, .pure items⟩
  | _ => exact ⟨rfl, hread⟩

/-- Nor do they as a list. -/
lemma blind_asList (r : Ref) : Blind (asList r) :=
  (blind_asStack r).bind fun _ => .pure _

/-- Nor do the entries of a hash. -/
lemma blind_asHash (r : Ref) : Blind (asHash r) := by
  refine .getBind fun s _ => ?_
  rw [cell_unfloated, Cell.unfloated]
  cases (s.cell r).rep with
  | hash entries => exact ⟨rfl, .pure entries⟩
  | _ =>
    refine ⟨rfl, (Blind.lift (blind_text r)).bind fun t => ?_⟩
    split
    · exact .throw _
    · refine (Blind.lift (blind_ofTexts _)).bind fun values => ?_
      exact (Blind.lift (blind_cache r (by simp))).bind fun _ => .pure _

/-- Nor does a script. -/
lemma blind_asScript (r : Ref) : StoreM.Blind (asScript r) := by
  refine .getBind fun s _ => ?_
  rw [cell_unfloated, Cell.unfloated]
  cases (s.cell r).rep with
  | script commands => exact ⟨rfl, .pure _⟩
  | _ =>
    refine ⟨rfl, (blind_text r).bind fun t => ?_⟩
    split
    · exact .pure _
    · exact .pure _
    · refine (Script.blind_load _).bind fun commands => ?_
      exact (blind_cache r (by simp)).bind fun _ => .pure _

end Store

end CommandScript
