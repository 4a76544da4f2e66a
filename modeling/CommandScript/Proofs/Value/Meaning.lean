import CommandScript.Builtin.Data
import CommandScript.Proofs.Value.Coherence

/-!
# What the computations on values mean

Each computation on values that the interpreter uses stands for one on texts: a new integer for its
numeral, a conversion to a list for reading the text of the list, a copy for the text of what is
copied. So whether a conversion finds the form it looks for, or has to read the text, makes no
difference.

## Main definitions

* `ConvM.Denotes` — what a conversion, which may fail, stands for on texts.
* `Store.intOf`, `Store.boolOf`, `Store.listOf` — what a text stands for, or why it does not.
* `Procedure.Spelled`, `Procedure.spelledOf` — a procedure on texts.
* `Exception.Spelled` — an exception on texts.

## Main results

* `Store.denotes_ofInt`, `Store.denotes_ofList` and others — new values.
* `Store.denotes_copy`, `Store.denotes_own` — copies.
* `Store.denotes_asInt`, `Store.denotes_asBool`, `Store.denotes_asStack`, `Store.denotes_asHash`,
  `Store.denotes_asScript` — conversions.
* `Procedure.denotes_define`, `Builtin.denotes_sorted`, `Exception.denotes_diagnosis` — what is made
  of them.
-/

set_option autoImplicit false

namespace CommandScript

open Store (TextOf Coherent ReadsAs WrittenAs)
open StoreM (Exactly Each Lasting lasting_textOf lasting_exactly each_exactly_iff)

/-! ## Conversions may fail -/

namespace ConvM

variable {α β γ δ : Type} {τ : List String}

/-- An outcome of a conversion that started with the texts `τ`: it fails as `x` does, or has a
result that stands for that of `x`. -/
inductive Stands (τ : List String) (K : List String → α → β → Prop) :
    EStateM.Result Failure Store α → Except Failure β → Prop
  | ok {a : α} {b : β} {s : Store} {τ' : List String} (hτ : τ <+: τ') (hs : Coherent s τ')
    (h : K τ' a b) : Stands τ K (.ok a s) (.ok b)
  | error {f : Failure} {s : Store} {τ' : List String} (hτ : τ <+: τ') (hs : Coherent s τ') :
    Stands τ K (.error f s) (.error f)

/-- From any store with the texts `τ`, the conversion comes to a store that has these texts and
perhaps more. It fails as `x` does, or has a result that stands for that of `x`. -/
def Denotes (τ : List String) (K : List String → α → β → Prop) (m : ConvM α)
    (x : Except Failure β) : Prop :=
  ∀ s, Coherent s τ → Stands τ K (m s) x

variable {K : List String → α → β → Prop} {L : List String → γ → δ → Prop}

/-- What stands for something from later texts on does so from earlier ones on. -/
lemma Stands.of_le {τ' : List String} {o : EStateM.Result Failure Store α}
    {x : Except Failure β} (hτ : τ <+: τ') (h : Stands τ' K o x) : Stands τ K o x := by
  cases h with
  | ok hτ' hs h => exact .ok (hτ.trans hτ') hs h
  | error hτ' hs => exact .error (hτ.trans hτ') hs

/-- What is said of the results may be weakened. -/
lemma Denotes.imp {K' : List String → α → β → Prop} {m : ConvM α} {x : Except Failure β}
    (hm : Denotes τ K m x) (h : ∀ τ' a b, K τ' a b → K' τ' a b) : Denotes τ K' m x := by
  intro s hs
  have hout := hm s hs
  generalize m s = o at hout ⊢
  cases hout with
  | ok hτ hs' hab => exact .ok hτ hs' (h _ _ _ hab)
  | error hτ hs' => exact .error hτ hs'

/-- A result that is there already stands for what it stands for. -/
lemma Denotes.pure {a : α} {b : β} (h : K τ a b) : Denotes τ K (Pure.pure a) (.ok b) :=
  fun _ hs => .ok List.prefix_rfl hs h

/-- A failure stands for itself. -/
lemma Denotes.throw (f : Failure) : Denotes τ K (MonadExcept.throw f) (.error f) :=
  fun _ hs => .error List.prefix_rfl hs

/-- Work on values does not fail. -/
lemma Denotes.lift {m : StoreM α} {b : β} (h : m.Denotes τ K b) :
    Denotes τ K (liftM m) (.ok b) := by
  intro s hs
  obtain ⟨τ', hτ', hs', hab⟩ := h s hs
  exact .ok hτ' hs' hab

/-- One conversion after another stands for what comes of both, and fails as the first failure
does. -/
lemma Denotes.bind {m : ConvM α} {f : α → ConvM γ} {x : Except Failure β}
    {g : β → Except Failure δ} (hm : Denotes τ K m x)
    (hf : ∀ τ' a b, x = .ok b → τ <+: τ' → K τ' a b → Denotes τ' L (f a) (g b)) :
    Denotes τ L (m >>= f) (x >>= g) := by
  intro s hs
  have hout := hm s hs
  change Stands τ L (EStateM.bind m f s) (x >>= g)
  unfold EStateM.bind
  generalize m s = o at hout ⊢
  cases hout with
  | ok h₁ hs₁ hab => exact (hf _ _ _ rfl h₁ hab _ hs₁).of_le h₁
  | error h₁ hs₁ => exact .error h₁ hs₁

/-- What comes after a conversion changes nothing of what it stands for. -/
lemma Denotes.bindKeep {m : ConvM α} {f : α → ConvM γ} {L : List String → γ → β → Prop}
    {x : Except Failure β} (hm : Denotes τ K m x)
    (hf : ∀ τ' a b, x = .ok b → τ <+: τ' → K τ' a b → Denotes τ' L (f a) (.ok b)) :
    Denotes τ L (m >>= f) x := by
  have hbind := hm.bind hf
  rwa [show (x >>= fun b => .ok b) = x from bind_pure x] at hbind

/-- A computation that cannot fail, and then a conversion. -/
lemma Denotes.liftBind {m : StoreM α} {f : α → ConvM γ} {b : β} {y : Except Failure δ}
    (hm : m.Denotes τ K b) (hf : ∀ τ' a, τ <+: τ' → K τ' a b → Denotes τ' L (f a) y) :
    Denotes τ L (liftM m >>= f) y := by
  intro s hs
  obtain ⟨τ', hτ', hs', hab⟩ := hm s hs
  exact (hf τ' _ hτ' hab _ hs').of_le hτ'

/-- A look at the store. -/
lemma Denotes.getBind {f : Store → ConvM γ} {y : Except Failure δ}
    (hf : ∀ s, Coherent s τ → Denotes τ L (f s) y) : Denotes τ L (get >>= f) y :=
  fun s hs => hf s hs s hs

/-- What is done for each of many things stands for what comes of each, up to the first failure. -/
lemma Denotes.mapM {f : α → ConvM γ} {g : β → Except Failure δ} (hK : Lasting K) (hL : Lasting L)
    {as : List α} {bs : List β} (h : Each K τ as bs)
    (hf : ∀ τ' a b, τ <+: τ' → K τ' a b → Denotes τ' L (f a) (g b)) :
    Denotes τ (Each L) (as.mapM f) (bs.mapM g) := by
  induction as generalizing τ bs with
  | nil =>
    cases h
    exact .pure .nil
  | cons a as ih =>
    cases h with
    | @cons _ b _ bs hab hrest =>
      rw [List.mapM_cons, List.mapM_cons]
      refine (hf τ a b List.prefix_rfl hab).bind fun τ₁ c d _ h₁ hcd => ?_
      have hrest₁ : Each K τ₁ as bs := hK.each h₁ hrest
      have hf₁ := fun τ' a b h' hab => hf τ' a b (h₁.trans h') hab
      exact (ih hrest₁ hf₁).bind fun τ₂ cs ds _ h₂ hcs => .pure (.cons (hL h₂ hcd) hcs)

end ConvM

namespace Store

variable {τ : List String} {r : Ref} {t : String}

/-! ## New values -/

/-- A new text has that text. -/
lemma denotes_ofText (t : String) : (ofText t).Denotes τ TextOf t :=
  denotes_alloc trivial (.inl rfl)

/-- So does a new literal. -/
lemma denotes_ofLiteral (t : String) : (ofLiteral t).Denotes τ TextOf t :=
  denotes_alloc trivial (.inl rfl)

/-- A new integer has its numeral as its text. -/
lemma denotes_ofInt (n : Int32) : (ofInt n).Denotes τ TextOf (Number.writeInteger n.toInt) :=
  denotes_alloc (readInt?_writeInteger n) (.inr ⟨rfl, rfl⟩)

/-- New list values, as they are stacked, are written as a list. -/
lemma denotes_ofStack {items : Stack Ref} {texts : List String}
    (h : Each TextOf τ items.toList texts) :
    (ofStack items).Denotes τ TextOf (ListText.write texts) := by
  have hread : ListText.read (ListText.write texts) = .ok texts := by
    simpa [ListText.read, ListText.Reader.start] using ListText.Reader.finish_run_write [] texts
  exact denotes_alloc ⟨texts, hread, h⟩ (.inr ⟨rfl, texts, h, rfl⟩)

/-- So is a new list. -/
lemma denotes_ofList {items : List Ref} {texts : List String} (h : Each TextOf τ items texts) :
    (ofList items).Denotes τ TextOf (ListText.write texts) :=
  denotes_ofStack (by rwa [Stack.toList_ofList])

/-- A new hash is written as its entries are. -/
lemma denotes_ofHash {entries : Table Ref} {table : Table String}
    (h : entries.Related (TextOf τ) table) :
    (ofHash entries).Denotes τ TextOf (HashText.write table) :=
  denotes_alloc ⟨table, HashText.read_flatten table, h⟩ (.inr ⟨rfl, table, h, rfl⟩)

/-- New texts have these texts. -/
lemma denotes_ofTexts (texts : List String) : (ofTexts texts).Denotes τ (Each TextOf) texts := by
  refine .mapM lasting_exactly lasting_textOf (each_exactly_iff.2 rfl) fun τ' t u _ htu => ?_
  obtain rfl : t = u := htu
  exact denotes_ofText t

/-! ## Copies -/

/-- A copy of a form is read from and written as the same text, if copies of its parts have the same
texts. -/
lemma denotes_copyRep {rep : Rep} {f : Ref → StoreM Ref}
    (hf : ∀ τ' r t, τ <+: τ' → TextOf τ' r t → (f r).Denotes τ' TextOf t)
    (hform : ReadsAs τ t rep) :
    (copyRep f rep).Denotes τ (fun τ' rep' (_ : Unit) =>
      ReadsAs τ' t rep' ∧ (WrittenAs τ t rep → WrittenAs τ' t rep')) () := by
  cases rep with
  | none => exact .pure ⟨trivial, id⟩
  | int n => exact .pure ⟨hform, id⟩
  | long n => exact .pure ⟨hform, id⟩
  | float x => exact hform.elim
  | list items =>
    obtain ⟨texts, hread, htexts⟩ := hform
    refine (StoreM.Denotes.mapM lasting_textOf lasting_textOf htexts hf).bind
      fun τ₁ copies h₁ hc => ?_
    have hcopies : Each TextOf τ₁ (Stack.ofList copies).toList texts := by
      rwa [Stack.toList_ofList]
    refine .pure ⟨⟨texts, hread, hcopies⟩, ?_⟩
    rintro ⟨texts', htexts', rfl⟩
    rw [(textOf_rightUnique τ).forall₂ htexts' htexts]
    exact ⟨texts, hcopies, rfl⟩
  | hash entries =>
    obtain ⟨table, hread, htable⟩ := hform
    refine (StoreM.Denotes.mapM lasting_textOf lasting_textOf htable.values hf).bind
      fun τ₁ copies h₁ hc => ?_
    have hcopies := Table.related_withValues htable.keys_eq hc
    refine .pure ⟨⟨table, hread, hcopies⟩, ?_⟩
    rintro ⟨table', htable', rfl⟩
    rw [htable'.right_unique (textOf_rightUnique τ) htable]
    exact ⟨table, hcopies, rfl⟩
  | script commands => exact .pure ⟨hform, id⟩
  | object o => exact hform.elim

/-- A copy has the text of what is copied, whatever fuel there is. -/
lemma denotes_copyWithin (fuel : Nat) (hr : TextOf τ r t) :
    (copyWithin fuel r).Denotes τ TextOf t := by
  induction fuel generalizing τ r t with
  | zero => exact .pure hr
  | succ fuel ih =>
    unfold copyWithin
    refine .getBind fun s hs => ?_
    have hparts := fun τ' q u (_ : τ <+: τ') hq => ih (τ := τ') (r := q) (t := u) hq
    refine (denotes_copyRep hparts (hs.form r t hr)).bind fun τ₁ rep h₁ hrep => ?_
    refine denotes_alloc hrep.1 ?_
    obtain hknown | ⟨hunknown, hwritten⟩ := hs.text r t hr
    · exact .inl hknown
    · exact .inr ⟨hunknown, hrep.2 (hwritten.mono (List.take_prefix _ _))⟩

/-- **A copy has the same text.** -/
lemma denotes_copy (hr : TextOf τ r t) : (copy r).Denotes τ TextOf t :=
  .getBind fun s _ => denotes_copyWithin s.cells.size hr

/-- A value of one's own has the text that the value has. -/
lemma denotes_own (hr : TextOf τ r t) : (own r).Denotes τ TextOf t := by
  refine .getBind fun s _ => ?_
  split
  · exact denotes_copy hr
  · exact .pure hr

end Store

/-! ## Scripts with values in them -/

namespace Script

open StoreM (Denotes)

mutual

/-- A loaded word stands for the word. -/
theorem denotes_loadWord (τ : List String) (w : Word String) :
    (loadWord w).Denotes τ LoadedWord w := by
  cases w with
  | literal t => exact (Store.denotes_ofLiteral t).bind fun _ _ _ hr => .pure (.literal hr)
  | var name => exact .pure (.var name)
  | substitution script =>
    exact (denotes_load τ script).bind fun _ _ _ h => .pure (.substitution h)
  | joined parts => exact (denotes_loadWords τ parts).bind fun _ _ _ h => .pure (.joined h)

/-- The loaded words of a command stand for the words. -/
theorem denotes_loadWords (τ : List String) (ws : List (Word String)) :
    (loadWords ws).Denotes τ LoadedWords ws := by
  cases ws with
  | nil => exact .pure .nil
  | cons w ws =>
    refine (denotes_loadWord τ w).bind fun τ₁ _ _ hw => ?_
    exact (denotes_loadWords τ₁ ws).bind fun _ _ h₂ hws => .pure (.cons (hw.mono h₂) hws)

/-- A loaded script stands for the script. -/
theorem denotes_load (τ : List String) (script : List (List (Word String))) :
    (load script).Denotes τ Loaded script := by
  cases script with
  | nil => exact .pure .nil
  | cons c cs =>
    refine (denotes_loadWords τ c).bind fun τ₁ _ _ hc => ?_
    exact (denotes_load τ₁ cs).bind fun _ _ h₂ hcs => .pure (.cons (hc.mono h₂) hcs)

end

/-- The outcome of reading a script, with values in the place of its fixed texts. -/
inductive LoadedOutcome (τ : List String) : Outcome (Script Ref) → Outcome (Script String) → Prop
  | done {commands : Script Ref} {script : Script String} (h : Loaded τ commands script) :
    LoadedOutcome τ (.done commands) (.done script)
  | failed (e : Error) : LoadedOutcome τ (.failed e) (.failed e)
  | stuck : LoadedOutcome τ .stuck .stuck

end Script

namespace Store

variable {τ : List String} {r : Ref} {t : String}

/-! ## Conversions -/

/-- What a text that may be read stands for, or the failure. -/
def readOr {α : Type} (read? : String → Option α) (failure : String → Failure) (t : String) :
    Except Failure α :=
  match read? t with
  | some a => .ok a
  | none => .error (failure t)

/-- The integer that a text stands for. -/
def intOf : String → Except Failure Int32 :=
  readOr readInt? .notInteger

/-- The truth value that a text stands for. -/
def boolOf : String → Except Failure Bool :=
  readOr readBool? .notBoolean

/-- The list that a text stands for. -/
def listOf (t : String) : Except Failure (List String) :=
  match ListText.read t with
  | .ok texts => .ok texts
  | .error e => .error (.list e)

/-- What is read depends on the text alone. -/
lemma denotes_readAs {α : Type} {read? : String → Option α} {rep : α → Rep}
    {failure : String → Failure} (hr : TextOf τ r t)
    (hrep : ∀ τ' a, read? t = some a → ReadsAs τ' t (rep a)) :
    (readAs r read? rep failure).Denotes τ Exactly (readOr read? failure t) := by
  refine .liftBind (denotes_text hr) fun τ₁ text h₁ htext => ?_
  obtain rfl : text = t := htext
  unfold readOr
  cases hread : read? text with
  | some a =>
    exact .liftBind (denotes_cache (hr.mono h₁) (hrep τ₁ a hread)) fun _ _ _ _ => .pure rfl
  | none => exact .throw _

/-- **A value as an integer** is what its text stands for, in whatever form it is held. -/
lemma denotes_asInt (hr : TextOf τ r t) : (asInt r).Denotes τ Exactly (intOf t) := by
  have hread : (readAs r readInt? .int .notInteger).Denotes τ Exactly (intOf t) :=
    denotes_readAs hr fun _ _ h => h
  refine .getBind fun s hs => ?_
  have hform := hs.form r t hr
  split
  next n hn =>
    rw [hn] at hform
    have hint : intOf t = .ok n := by
      simp only [intOf, readOr, show readInt? t = some n from hform]
    rw [hint]
    exact .pure rfl
  next n hn =>
    rw [hn] at hform
    split
    next m hm =>
      have hint : intOf t = .ok m := by
        simp only [intOf, readOr, readInt?_of_readLong? hform, hm]
      rw [hint]
      exact .pure rfl
    next => exact hread
  next => exact hread

/-- **The truth value of a value**, if any, is what its text stands for. -/
lemma denotes_bool? (hr : TextOf τ r t) : (bool? r).Denotes τ Exactly (readBool? t) := by
  refine .getBind fun s hs => ?_
  have hform := hs.form r t hr
  split
  next n hn =>
    rw [hn] at hform
    exact .pure (readBool?_of_readInt? hform).symm
  next n hn =>
    rw [hn] at hform
    exact .pure (readBool?_of_readLong? hform).symm
  next x hx =>
    rw [hx] at hform
    exact hform.elim
  next => exact (denotes_text hr).bind fun _ _ _ htext => .pure (congrArg readBool? htext)

/-- A truth value depends on the text alone. -/
lemma denotes_asBool (hr : TextOf τ r t) : (asBool r).Denotes τ Exactly (boolOf t) := by
  refine .liftBind (denotes_bool? hr) fun τ₁ known h₁ hknown => ?_
  obtain rfl : known = readBool? t := hknown
  unfold boolOf readOr
  cases readBool? t with
  | some b => exact .pure rfl
  | none =>
    refine .liftBind (denotes_text (hr.mono h₁)) fun τ₂ text _ htext => ?_
    obtain rfl : text = t := htext
    exact .throw _

/-- The items that are read from a text are those of the text. -/
lemma denotes_readItems (t : String) : (readItems t).Denotes τ (Each TextOf) (listOf t) := by
  unfold readItems listOf
  cases ListText.read t with
  | ok texts => exact .lift (denotes_ofTexts texts)
  | error e => exact .throw _

/-- The elements of a text are those that the reader of lists finds. -/
lemma listOf_eq_ok_iff {texts : List String} :
    listOf t = .ok texts ↔ ListText.read t = .ok texts := by
  unfold listOf
  cases ListText.read t with
  | ok texts => simp
  | error e => simp

/-- **A value as a list** has the elements that its text stands for. -/
lemma denotes_asStack (hr : TextOf τ r t) :
    (asStack r).Denotes τ (fun τ' items => Each TextOf τ' items.toList) (listOf t) := by
  refine .getBind fun s hs => ?_
  have hform := hs.form r t hr
  split
  next items hitems =>
    rw [hitems] at hform
    obtain ⟨texts, hread, htexts⟩ := hform
    rw [listOf_eq_ok_iff.2 hread]
    exact .pure htexts
  next =>
    refine .liftBind (denotes_text hr) fun τ₁ text h₁ htext => ?_
    obtain rfl : text = t := htext
    refine (denotes_readItems text).bindKeep fun τ₂ items texts hread h₂ hitems => ?_
    have hstack : Each TextOf τ₂ (Stack.ofList items).toList texts := by
      rwa [Stack.toList_ofList]
    have hlist : ReadsAs τ₂ text (.list (Stack.ofList items)) :=
      ⟨texts, listOf_eq_ok_iff.1 hread, hstack⟩
    refine .liftBind (denotes_cache ((hr.mono h₁).mono h₂) hlist) fun τ₃ _ h₃ _ => ?_
    exact .pure (lasting_textOf.each h₃ hstack)

/-- The elements of a value are those of its text. -/
lemma denotes_asList (hr : TextOf τ r t) : (asList r).Denotes τ (Each TextOf) (listOf t) :=
  (denotes_asStack hr).bindKeep fun _ _ _ _ _ hitems => .pure hitems

/-- **A value as a hash** has the entries that its text stands for. -/
lemma denotes_asHash (hr : TextOf τ r t) :
    (asHash r).Denotes τ (fun τ' => Table.Related (TextOf τ')) (HashText.read t) := by
  refine .getBind fun s hs => ?_
  have hform := hs.form r t hr
  split
  next entries hentries =>
    rw [hentries] at hform
    obtain ⟨table, hread, htable⟩ := hform
    rw [hread]
    exact .pure htable
  next =>
    refine .liftBind (denotes_text hr) fun τ₁ text h₁ htext => ?_
    obtain rfl : text = t := htext
    cases hread : HashText.read text with
    | error e => exact .throw e
    | ok table =>
      refine .liftBind (denotes_ofTexts table.values) fun τ₂ values h₂ hvalues => ?_
      have htable : (table.withValues values).Related (TextOf τ₂) table :=
        Table.related_withValues rfl hvalues
      have hhash : ReadsAs τ₂ text (.hash (table.withValues values)) := ⟨table, hread, htable⟩
      refine .liftBind (denotes_cache ((hr.mono h₁).mono h₂) hhash) fun τ₃ _ h₃ _ => ?_
      exact .pure (htable.mono fun _ _ h => h.mono h₃)

/-- **A value as a script** is what its text is read as. -/
lemma denotes_asScript (hr : TextOf τ r t) :
    (asScript r).Denotes τ Script.LoadedOutcome (Script.read t) := by
  refine .getBind fun s hs => ?_
  have hform := hs.form r t hr
  split
  next commands hcommands =>
    rw [hcommands] at hform
    obtain ⟨script, hread, hscript⟩ := hform
    rw [hread]
    exact .pure (.done hscript)
  next =>
    refine (denotes_text hr).bind fun τ₁ text h₁ htext => ?_
    obtain rfl : text = t := htext
    cases hread : Script.read text with
    | failed e => exact .pure (.failed e)
    | stuck => exact .pure .stuck
    | done script =>
      refine (Script.denotes_load τ₁ script).bind fun τ₂ commands h₂ hcommands => ?_
      have hscript : ReadsAs τ₂ text (.script commands) := ⟨script, hread, hcommands⟩
      refine (denotes_cache ((hr.mono h₁).mono h₂) hscript).bind fun τ₃ _ h₃ _ => ?_
      exact .pure (.done (hcommands.mono h₃))

end Store

/-! ## Procedures -/

namespace Procedure

variable {τ : List String} {r : Ref} {t : String}

/-- A procedure on texts: parameters are names with a default. -/
structure Spelled where
  /-- The parameters as they were written. -/
  spec : String
  /-- The names of the parameters and their defaults. -/
  params : List (String × Option String)
  /-- The script. -/
  body : String

/-- The parameter has the name and default. -/
structure HasParameter (τ : List String) (p : Parameter) (q : String × Option String) : Prop where
  /-- The name. -/
  name : p.name = q.1
  /-- The default, or that there is none. -/
  fallback : Option.Rel (TextOf τ) p.fallback q.2

/-- The procedure has the texts. -/
structure HasTexts (τ : List String) (p : Procedure) (q : Spelled) : Prop where
  /-- The parameters as they were written. -/
  spec : TextOf τ p.spec q.spec
  /-- The parameters. -/
  params : Each HasParameter τ p.params q.params
  /-- The script. -/
  body : TextOf τ p.body q.body

/-- The parameter that a text describes. -/
def parameterOf (t : String) : Except Failure (String × Option String) := do
  match ← Store.listOf t with
  | [name] => return (name, none)
  | [name, fallback] => return (name, some fallback)
  | _ => throw (.badParameter t)

/-- The procedure that the texts of its parameters and script define. -/
def spelledOf (spec body : String) : Except Failure Spelled := do
  let specs ← Store.listOf spec
  let params ← specs.mapM parameterOf
  return { spec, params, body }

/-- Parameters last. -/
lemma HasParameter.mono : Lasting HasParameter := by
  intro τ τ' hτ p q h
  refine ⟨h.name, ?_⟩
  cases p with
  | mk name fallback =>
    obtain ⟨name', fallback'⟩ := q
    cases h.fallback with
    | none => exact .none
    | some ht => exact .some (ht.mono hτ)

/-- The texts of procedures last. -/
lemma HasTexts.mono : Lasting HasTexts :=
  fun _ _ hτ _ _ h => ⟨h.spec.mono hτ, HasParameter.mono.each hτ h.params, h.body.mono hτ⟩

/-- A parameter is read from the text of its specification. -/
lemma denotes_readParameter (hr : TextOf τ r t) :
    (readParameter r).Denotes τ HasParameter (parameterOf t) := by
  refine (Store.denotes_asList hr).bind fun τ₁ items texts _ h₁ hitems => ?_
  match items, texts, hitems with
  | [_], [_], .cons hname .nil =>
    refine .liftBind (Store.denotes_text hname) fun _ _ _ htext => ?_
    exact .pure ⟨htext, .none⟩
  | [_, _], [_, _], .cons hname (.cons hfallback .nil) =>
    refine .liftBind (Store.denotes_text hname) fun _ _ h₂ htext => ?_
    exact .pure ⟨htext, .some (hfallback.mono h₂)⟩
  | [], [], .nil =>
    refine .liftBind (Store.denotes_text (hr.mono h₁)) fun _ text _ htext => ?_
    obtain rfl : text = t := htext
    exact .throw _
  | _ :: _ :: _ :: _, _ :: _ :: _ :: _, .cons _ (.cons _ (.cons _ _)) =>
    refine .liftBind (Store.denotes_text (hr.mono h₁)) fun _ text _ htext => ?_
    obtain rfl : text = t := htext
    exact .throw _

/-- **A procedure is what the texts of its parameters and script define.** -/
lemma denotes_define {spec body : Ref} {specText bodyText : String}
    (hspec : TextOf τ spec specText) (hbody : TextOf τ body bodyText) :
    (define spec body).Denotes τ HasTexts (spelledOf specText bodyText) := by
  refine (Store.denotes_asList hspec).bind fun τ₁ specs texts _ h₁ hspecs => ?_
  refine (ConvM.Denotes.mapM lasting_textOf HasParameter.mono hspecs
    fun _ _ _ _ hr => denotes_readParameter hr).bind fun τ₂ params qs _ h₂ hparams => ?_
  exact .pure ⟨(hspec.mono h₁).mono h₂, hparams, (hbody.mono h₁).mono h₂⟩

end Procedure

/-! ## Exceptions -/

namespace Exception

variable {τ : List String} {r : Ref} {t : String}

/-- An exception on texts. -/
structure Spelled where
  /-- Its kind. -/
  code : Code
  /-- What went wrong. -/
  message : String
  /-- The text of its value. -/
  value : String
  /-- The commands that it has unwound through, the outermost first. -/
  frames : List String

/-- The exception has the texts. -/
structure HasTexts (τ : List String) (e : Exception) (x : Spelled) : Prop where
  /-- The kinds are the same. -/
  code : e.code = x.code
  /-- The messages are the same. -/
  message : e.message = x.message
  /-- The text of the value. -/
  value : TextOf τ e.value x.value
  /-- The texts of the commands. -/
  frames : Each TextOf τ e.frames x.frames

/-- The texts of exceptions last. -/
lemma HasTexts.mono : Lasting HasTexts :=
  fun _ _ hτ _ _ h => ⟨h.code, h.message, h.value.mono hτ, lasting_textOf.each hτ h.frames⟩

/-- What is thrown has the text of the value thrown. -/
lemma denotes_thrown (hr : TextOf τ r t) (label : Option String) :
    (thrown r label).Denotes τ HasTexts ⟨label.elim .error .custom, t, t, []⟩ :=
  (Store.denotes_text hr).bind fun _ _ h₁ htext => .pure ⟨rfl, htext, hr.mono h₁, .nil⟩

/-- The error for a failure has its message. -/
lemma denotes_ofFailure (f : Failure) :
    (ofFailure f).Denotes τ HasTexts ⟨.error, f.message, f.message, []⟩ :=
  (Store.denotes_ofText f.message).bind fun _ _ _ hr => .pure ⟨rfl, rfl, hr, .nil⟩

/-- A signal has empty texts. -/
lemma denotes_signal (code : Code) : (signal code).Denotes τ HasTexts ⟨code, "", "", []⟩ :=
  (Store.denotes_ofText "").bind fun _ _ _ hr => .pure ⟨rfl, rfl, hr, .nil⟩

/-- A diagnosis has the texts of the exception and of its frames, the innermost first. -/
lemma denotes_diagnosis {e : Exception} {x : Spelled} (he : HasTexts τ e x) :
    e.diagnosis.Denotes τ (fun τ' s => Each TextOf τ' s.toList)
      (ListText.write [x.code.write, x.value] :: x.frames.reverse) := by
  refine (Store.denotes_ofText e.code.write).bind fun τ₁ code h₁ hcode => ?_
  have he₁ := HasTexts.mono h₁ he
  rw [he.code] at hcode
  have hhead : Each TextOf τ₁ [code, e.value] [x.code.write, x.value] :=
    .cons hcode (.cons he₁.value .nil)
  refine (Store.denotes_ofList hhead).bind fun τ₂ head h₂ hlist => .pure ?_
  exact .cons hlist (List.rel_reverse (lasting_textOf.each h₂ he₁.frames))

end Exception

/-! ## Sorting -/

namespace Builtin

variable {τ : List String}

/-- Texts in their order. -/
def sortedTexts (texts : List String) : List String :=
  texts.mergeSort fun a b => !decide (b < a)

/-- Sorting moves values along with their texts. -/
lemma each_mergeSort_zip {items : List Ref} {texts : List String} (h : Each TextOf τ items texts) :
    Each TextOf τ (((texts.zip items).mergeSort fun a b => !decide (b.1 < a.1)).map Prod.snd)
      (sortedTexts texts) := by
  have hlength : texts.length = items.length := (List.Forall₂.length_eq h).symm
  have hfst : (texts.zip items).map Prod.fst = texts := List.map_fst_zip (by omega)
  have hsorted : sortedTexts texts =
      ((texts.zip items).mergeSort fun a b => !decide (b.1 < a.1)).map Prod.fst := by
    rw [List.map_mergeSort (s := fun a b => !decide (b < a)) (fun _ _ _ _ => rfl), hfst]
    rfl
  have hpair : ∀ p ∈ texts.zip items, TextOf τ p.2 p.1 := fun p hp =>
    List.forall₂_zip (R := flip (TextOf τ)) (List.Forall₂.flip h) hp
  rw [hsorted]
  refine List.forall₂_map_left_iff.2 (List.forall₂_map_right_iff.2 (List.forall₂_same.2 ?_))
  intro p hp
  exact hpair p (List.mem_mergeSort.1 hp)

/-- **Values in the order of their texts** have these texts in their order. -/
lemma denotes_sorted {items : List Ref} {texts : List String} (h : Each TextOf τ items texts) :
    (sorted items).Denotes τ (Each TextOf) (sortedTexts texts) := by
  unfold sorted
  split
  next =>
    cases h
    rw [show sortedTexts [] = [] by simp [sortedTexts]]
    exact .pure .nil
  next r =>
    obtain ⟨⟩ | ⟨hr, hrest⟩ := h
    cases hrest
    rw [show ∀ t, sortedTexts [t] = [t] by simp [sortedTexts]]
    exact .pure (.cons hr .nil)
  next =>
    refine (Store.denotes_texts h).bind fun τ₁ texts' h₁ htexts => .pure ?_
    obtain rfl : texts' = texts := htexts
    exact each_mergeSort_zip (lasting_textOf.each h₁ h)

/-- Values are counted as their texts are. -/
lemma denotes_ints {rs : List Ref} {texts : List String} (h : Each TextOf τ rs texts) :
    (ints rs).Denotes τ Exactly (texts.mapM Store.intOf) :=
  (ConvM.Denotes.mapM lasting_textOf lasting_exactly h fun _ _ _ _ hr =>
    Store.denotes_asInt hr).imp fun _ _ _ hns => each_exactly_iff.1 hns

end Builtin

end CommandScript
