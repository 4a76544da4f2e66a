import CommandScript.Interp.Evaluate
import CommandScript.Proofs.Scope.Frames
import CommandScript.Proofs.Value.Meaning
import Mathlib.Order.Basic

/-!
# Interpreters that agree on texts

Two interpreters agree on texts if they are the same except for how values are stored: which cells
they are in, which cells are shared, whether their texts are known yet, and the forms in which they
are held. Of everything that holds values, that is, of variables, commands, exceptions and what is
known of the last error, the texts of the values are compared. As in either interpreter there will
be more values, what agrees is to agree still when there are more texts.

## Main definitions

* `World` — the texts of the values of two interpreters.
* `Same`, `Both` — values with the same text, results that stand for the same.
* `SameScopes`, `SameCommand`, `SameException` — what holds values.
* `Builtin.telling` — the commands that tell more than texts.
* `SameContext`, `SameInterp` — the interpreters.

## Main results

* `SameScopes.get`, `SameScopes.set`, `SameScopes.unset`, `SameScopes.linkGlobal` — variables.
* `SameScopes.push`, `SameScopes.pop`, `SameScopes.popMany`, `SameScopes.pushMany` — frames.
* `SameContext.mono` — more texts.
-/

set_option autoImplicit false

namespace CommandScript

open Store (TextOf Coherent)
open StoreM (Exactly Each Lasting lasting_textOf)

/-- The texts of the values of two interpreters, in the order of their cells. -/
structure World where
  /-- The texts of the values of the one. -/
  left : List String
  /-- The texts of the values of the other. -/
  right : List String

/-- There may be more texts. -/
instance : Preorder World where
  le W W' := W.left <+: W'.left ∧ W.right <+: W'.right
  le_refl _ := ⟨List.prefix_rfl, List.prefix_rfl⟩
  le_trans _ _ _ h h' := ⟨h.1.trans h'.1, h.2.trans h'.2⟩

section

variable {α β : Type}

/-- What agrees still does when there are more texts. -/
def Stable (R : World → α → β → Prop) : Prop :=
  ∀ ⦃W W' : World⦄, W ≤ W' → ∀ ⦃a b⦄, R W a b → R W' a b

/-- The results stand for the same. -/
def Both (K : List String → α → β → Prop) (W : World) (a a' : α) : Prop :=
  ∃ b, K W.left a b ∧ K W.right a' b

/-- The results are equal. -/
def Equal (_ : World) (a b : α) : Prop :=
  a = b

/-- What stands for the same thing does so when there are more texts. -/
lemma stable_both {K : List String → α → β → Prop} (hK : Lasting K) : Stable (Both K) := by
  rintro W W' hW a a' ⟨b, h, h'⟩
  exact ⟨b, hK hW.1 h, hK hW.2 h'⟩

/-- Two things that are a third one are the same. -/
lemma Both.eq_of_exactly {W : World} {a a' : α} (h : Both Exactly W a a') : a = a' := by
  obtain ⟨b, hb, hb'⟩ := h
  exact Eq.trans hb (Eq.symm hb')

end

/-- The values have the same text. -/
abbrev Same : World → Ref → Ref → Prop :=
  Both TextOf

/-- The values have the same texts, one by one. -/
abbrev SameAll (W : World) : List Ref → List Ref → Prop :=
  List.Forall₂ (Same W)

/-- Values that agree do so when there are more values. -/
lemma stable_same : Stable Same :=
  stable_both lasting_textOf

/-- Values agree in every later world. -/
lemma Same.mono {W W' : World} (hW : W ≤ W') {r q : Ref} (h : Same W r q) : Same W' r q :=
  stable_same hW h

/-- So do lists of values. -/
lemma SameAll.mono {W W' : World} (hW : W ≤ W') {rs qs : List Ref} (h : SameAll W rs qs) :
    SameAll W' rs qs :=
  h.imp fun _ _ hr => hr.mono hW

/-- The texts that several values share. -/
lemma sameAll_iff_both {W : World} {rs qs : List Ref} :
    SameAll W rs qs ↔ Both (Each TextOf) W rs qs := by
  constructor
  · intro h
    induction h with
    | nil => exact ⟨[], .nil, .nil⟩
    | cons hr _ ih =>
      obtain ⟨t, ht, ht'⟩ := hr
      obtain ⟨ts, hts, hts'⟩ := ih
      exact ⟨t :: ts, .cons ht hts, .cons ht' hts'⟩
  · rintro ⟨ts, hts, hts'⟩
    induction ts generalizing rs qs with
    | nil =>
      cases hts
      cases hts'
      exact .nil
    | cons t ts ih =>
      cases hts with
      | cons ht hts =>
        cases hts' with
        | cons ht' hts' => exact .cons ⟨t, ht, ht'⟩ (ih hts hts')

/-- The outcomes are results that agree, or the same failure. -/
inductive SameExcept {α β : Type} (R : α → β → Prop) : Except Failure α → Except Failure β → Prop
  | ok {a : α} {b : β} (h : R a b) : SameExcept R (.ok a) (.ok b)
  | error (f : Failure) : SameExcept R (.error f) (.error f)

section

variable {α β : Type} {R : α → β → Prop}

/-- An element may be replaced on both sides. -/
lemma forall₂_set {as : List α} {bs : List β} (h : List.Forall₂ R as bs) (place : Nat) {a : α}
    {b : β} (hab : R a b) : List.Forall₂ R (as.set place a) (bs.set place b) := by
  induction h generalizing place with
  | nil => exact .nil
  | cons hhead hrest ih =>
    cases place with
    | zero => exact .cons hab hrest
    | succ place => exact .cons hhead (ih place)

/-- Of stacks with elements that agree one by one, either both have a top, or neither has. -/
lemma forall₂_pop {s : Stack α} {t : Stack β} (h : List.Forall₂ R s.toList t.toList) :
    (s.pop = none ∧ t.pop = none) ∨ ∃ a b s' t', s.pop = some (a, s') ∧ t.pop = some (b, t') ∧
      R a b ∧ List.Forall₂ R s'.toList t'.toList := by
  obtain ⟨items, height, hheight⟩ := s
  obtain ⟨items', height', hheight'⟩ := t
  have hitems : List.Forall₂ R items items' := List.forall₂_reverse_iff.1 h
  cases hitems with
  | nil => exact .inl ⟨rfl, rfl⟩
  | cons hab hrest =>
    exact .inr ⟨_, _, _, _, rfl, rfl, hab, List.forall₂_reverse_iff.2 hrest⟩

end

/-! ## Variables -/

/-- The names stand for values with the same text, or both for the global variable. -/
inductive SameBinding (W : World) : Binding → Binding → Prop
  | value {r q : Ref} (h : Same W r q) : SameBinding W (.value r) (.value q)
  | link : SameBinding W .link .link

/-- The frames have the same names in the same order, which stand for the same. -/
abbrev SameFrame (W : World) : Frame → Frame → Prop :=
  Table.Related (SameBinding W)

/-- There are as many frames, which are the same in their order. -/
structure SameScopes (W : World) (s t : ScopeStack) : Prop where
  /-- The frames at the bottom. -/
  globals : SameFrame W s.globals t.globals
  /-- The frames above them. -/
  locals : List.Forall₂ (SameFrame W) s.locals.toList t.locals.toList

/-- Frames agree in every later world. -/
lemma SameFrame.mono {W W' : World} (hW : W ≤ W') {f g : Frame} (h : SameFrame W f g) :
    SameFrame W' f g := by
  refine Table.Related.mono h fun a b hab => ?_
  cases hab with
  | value hr => exact .value (hr.mono hW)
  | link => exact .link

namespace SameScopes

variable {W : World} {s t : ScopeStack}

/-- So do stacks of frames. -/
lemma mono {W' : World} (hW : W ≤ W') (h : SameScopes W s t) : SameScopes W' s t :=
  ⟨h.globals.mono hW, h.locals.imp fun _ _ hf => hf.mono hW⟩

/-- They are equally deep. -/
lemma depth_eq (h : SameScopes W s t) : s.depth = t.depth := by
  rw [s.depth_eq, t.depth_eq, h.locals.length_eq]

/-- A level is the same place. -/
lemma place?_eq (h : SameScopes W s t) (level : Int) : s.place? level = t.place? level := by
  unfold ScopeStack.place?
  rw [h.depth_eq]

/-- So is a level to evaluate at. -/
lemma evalPlace?_eq (h : SameScopes W s t) (level : Int) :
    s.evalPlace? level = t.evalPlace? level := by
  unfold ScopeStack.evalPlace?
  rw [h.depth_eq]

/-- The frames at a place agree. -/
lemma frame (h : SameScopes W s t) (place : Nat) : SameFrame W (s.frame place) (t.frame place) := by
  cases place with
  | zero => exact h.globals
  | succ place =>
    rw [ScopeStack.frame_succ, ScopeStack.frame_succ]
    have hlocals := h.locals
    generalize s.locals.toList = fs at hlocals ⊢
    generalize t.locals.toList = gs at hlocals ⊢
    induction hlocals generalizing place with
    | nil => exact .empty
    | cons hf _ ih =>
      cases place with
      | zero => exact hf
      | succ place => exact ih place

/-- Frames that agree may be put at a place. -/
lemma setFrame (h : SameScopes W s t) (place : Nat) {f g : Frame} (hfg : SameFrame W f g) :
    SameScopes W (s.setFrame place f) (t.setFrame place g) := by
  cases place with
  | zero => exact ⟨hfg, h.locals⟩
  | succ place =>
    refine ⟨h.globals, ?_⟩
    change List.Forall₂ _ (s.locals.set place f).toList (t.locals.set place g).toList
    rw [Stack.toList_set, Stack.toList_set]
    exact forall₂_set h.locals place hfg

/-- What a name stands for at a place agrees, if it stands for anything. -/
lemma valueAt? (h : SameScopes W s t) (name : String) (place : Nat) :
    Option.Rel (Same W) (s.valueAt? name place) (t.valueAt? name place) := by
  have hlocal := (h.frame place).find? name
  have hglobal := h.globals.find? name
  unfold ScopeStack.valueAt? ScopeStack.globalValue?
  generalize (s.frame place).find? name = b at hlocal ⊢
  generalize (t.frame place).find? name = b' at hlocal ⊢
  generalize s.globals.find? name = g at hglobal ⊢
  generalize t.globals.find? name = g' at hglobal ⊢
  cases hlocal with
  | none => exact .none
  | some hb =>
    cases hb with
    | value hr => exact .some hr
    | link =>
      cases hglobal with
      | none => exact .none
      | some hg =>
        cases hg with
        | value hr => exact .some hr
        | link => exact .none

/-- A variable has the same slot. -/
lemma slot_eq (h : SameScopes W s t) (name : String) (place : Nat) :
    s.slot name place = t.slot name place := by
  have hlocal := (h.frame place).find? name
  unfold ScopeStack.slot
  generalize (s.frame place).find? name = b at hlocal ⊢
  generalize (t.frame place).find? name = b' at hlocal ⊢
  cases hlocal with
  | none => rfl
  | some hb =>
    cases hb with
    | value hr => rfl
    | link => rfl

/-! ### Access to variables -/

/-- A variable has values that agree, or cannot be looked up for the same reason. -/
lemma get (h : SameScopes W s t) (name : String) (level : Int) :
    SameExcept (Same W) (s.get name level) (t.get name level) := by
  unfold ScopeStack.get
  rw [h.place?_eq]
  cases t.place? level with
  | error e => exact .error e
  | ok place =>
    have hvalue := h.valueAt? name place
    dsimp only
    generalize s.valueAt? name place = v at hvalue ⊢
    generalize t.valueAt? name place = v' at hvalue ⊢
    cases hvalue with
    | none => exact .error _
    | some hr => exact .ok hr

/-- It is there on both sides or on neither. -/
lemma has_eq (h : SameScopes W s t) (name : String) (level : Int) :
    s.has name level = t.has name level := by
  unfold ScopeStack.has
  rw [h.place?_eq]
  cases t.place? level with
  | error e => rfl
  | ok place =>
    have hvalue := h.valueAt? name place
    dsimp only
    generalize s.valueAt? name place = v at hvalue ⊢
    generalize t.valueAt? name place = v' at hvalue ⊢
    cases hvalue with
    | none => rfl
    | some hr => rfl

/-- The same names are there. -/
lemma names_eq (h : SameScopes W s t) (level : Int) : s.names level = t.names level := by
  unfold ScopeStack.names
  rw [h.place?_eq]
  cases t.place? level with
  | error e => rfl
  | ok place => exact congrArg Except.ok (h.frame place).keys_eq

/-- Values that agree may be given to a variable, or neither can for the same reason. -/
lemma set (h : SameScopes W s t) (name : String) {r q : Ref} (hrq : Same W r q) (level : Int) :
    SameExcept (SameScopes W) (s.set name r level) (t.set name q level) := by
  unfold ScopeStack.set
  rw [h.place?_eq]
  cases t.place? level with
  | error e => exact .error e
  | ok place =>
    dsimp only
    rw [h.slot_eq]
    have hset := h.setFrame (t.slot name place)
      ((h.frame (t.slot name place)).insert name (.value hrq))
    exact .ok ⟨hset.globals, hset.locals⟩

/-- A variable is removed on both sides, or on neither for the same reason. -/
lemma unset (h : SameScopes W s t) (name : String) (level : Int) :
    SameExcept (SameScopes W) (s.unset name level) (t.unset name level) := by
  unfold ScopeStack.unset
  rw [h.place?_eq]
  cases t.place? level with
  | error e => exact .error e
  | ok place =>
    have hlocal := (h.frame place).find? name
    have herased := h.setFrame place ((h.frame place).erase name)
    dsimp only
    generalize (s.frame place).find? name = b at hlocal ⊢
    generalize (t.frame place).find? name = b' at hlocal ⊢
    cases hlocal with
    | none => exact .error _
    | some hb =>
      cases hb with
      | value hr => exact .ok ⟨herased.globals, herased.locals⟩
      | link => exact .ok ⟨herased.globals.erase name, herased.locals⟩

/-! ### Frames that come and go -/

/-- A frame may be put on top on both sides. -/
lemma pushFrame (h : SameScopes W s t) {f g : Frame} (hfg : SameFrame W f g) :
    SameScopes W (s.pushFrame f) (t.pushFrame g) := by
  refine ⟨h.globals, ?_⟩
  change List.Forall₂ _ (s.locals.push f).toList (t.locals.push g).toList
  rw [Stack.toList_push, Stack.toList_push]
  exact List.rel_append h.locals (.cons hfg .nil)

/-- So may an empty one. -/
lemma push (h : SameScopes W s t) : SameScopes W s.push t.push :=
  h.pushFrame .empty

/-- A link to a global variable may be made on both sides. -/
lemma linkGlobal (h : SameScopes W s t) (name : String) :
    SameScopes W (s.linkGlobal name) (t.linkGlobal name) := by
  unfold ScopeStack.linkGlobal
  obtain ⟨hs, ht⟩ | ⟨f, g, fs, gs, hs, ht, hfg, hrest⟩ := forall₂_pop h.locals
  · rw [hs, ht]
    exact h
  · rw [hs, ht]
    refine ⟨h.globals, ?_⟩
    change List.Forall₂ _ (fs.push _).toList (gs.push _).toList
    rw [Stack.toList_push, Stack.toList_push]
    exact List.rel_append hrest (.cons (Table.Related.insert hfg name .link) .nil)

/-- A frame comes off both stacks, or off neither. -/
lemma pop (h : SameScopes W s t) :
    Option.Rel (SameFrame W) s.pop.1 t.pop.1 ∧ SameScopes W s.pop.2 t.pop.2 := by
  unfold ScopeStack.pop
  obtain ⟨hs, ht⟩ | ⟨f, g, fs, gs, hs, ht, hfg, hrest⟩ := forall₂_pop h.locals
  · rw [hs, ht]
    exact ⟨.none, h⟩
  · rw [hs, ht]
    exact ⟨.some hfg, h.globals, hrest⟩

/-- The same number of frames may be taken away. -/
lemma popMany (h : SameScopes W s t) {taken taken' : List Frame}
    (htaken : List.Forall₂ (SameFrame W) taken taken') (count : Nat) :
    List.Forall₂ (SameFrame W) (s.popMany taken count).1 (t.popMany taken' count).1 ∧
      SameScopes W (s.popMany taken count).2 (t.popMany taken' count).2 := by
  induction count generalizing s t taken taken' with
  | zero => exact ⟨htaken, h⟩
  | succ count ih =>
    obtain ⟨hframe, hrest⟩ := h.pop
    unfold ScopeStack.popMany
    generalize s.pop = p at hframe hrest ⊢
    generalize t.pop = p' at hframe hrest ⊢
    obtain ⟨f, s'⟩ := p
    obtain ⟨g, t'⟩ := p'
    cases hframe with
    | none => exact ⟨htaken, hrest⟩
    | some hfg => exact ih hrest (.cons hfg htaken)

/-- They may be put back. -/
lemma pushMany (h : SameScopes W s t) {frames frames' : List Frame}
    (hframes : List.Forall₂ (SameFrame W) frames frames') :
    SameScopes W (s.pushMany frames) (t.pushMany frames') := by
  induction hframes generalizing s t with
  | nil => exact h
  | cons hfg _ ih => exact ih (h.pushFrame hfg)

end SameScopes

/-! ## Commands and exceptions -/

/-- The procedures have the same texts: of their parameters, defaults and scripts. -/
abbrev SameProcedure : World → Procedure → Procedure → Prop :=
  Both Procedure.HasTexts

/-- The exceptions have the same kind, message, and texts. -/
abbrev SameException : World → Exception → Exception → Prop :=
  Both Exception.HasTexts

/-- The commands that tell more than texts: about the form of a value, or about the machine as it is
now; and the one that ends the program. -/
def Builtin.telling : List Builtin :=
  [.plain .classof, .plain .exit, .plain .clock, .control .time, .plain .freeMemory,
   .plain .totalMemory]

/-- The commands are the same built-in command, and not one that tells more than texts, or
procedures with the same texts. -/
inductive SameCommand (W : World) : Command Empty → Command Empty → Prop
  | builtin {b : Builtin} (h : b ∉ Builtin.telling) : SameCommand W (.builtin b) (.builtin b)
  | procedure {p q : Procedure} (h : SameProcedure W p q) :
    SameCommand W (.procedure p) (.procedure q)

/-- Exceptions that agree do so when there are more values. -/
lemma stable_sameException : Stable SameException :=
  stable_both Exception.HasTexts.mono

/-- They have the same code. -/
lemma code_eq_of_sameException {W : World} {e f : Exception} (h : SameException W e f) :
    e.code = f.code := by
  obtain ⟨x, he, hf⟩ := h
  exact he.code.trans hf.code.symm

/-- Their values agree. -/
lemma same_value_of_sameException {W : World} {e f : Exception} (h : SameException W e f) :
    Same W e.value f.value := by
  obtain ⟨x, he, hf⟩ := h
  exact ⟨x.value, he.value, hf.value⟩

/-- Commands agree in every later world. -/
lemma SameCommand.mono {W W' : World} (hW : W ≤ W') {c d : Command Empty} (h : SameCommand W c d) :
    SameCommand W' c d := by
  cases h with
  | builtin hb => exact .builtin hb
  | procedure hp => exact .procedure (stable_both Procedure.HasTexts.mono hW hp)

/-- Both are procedures, or neither is. -/
lemma SameCommand.isProcedure_eq {W : World} {c d : Command Empty} (h : SameCommand W c d) :
    c.isProcedure = d.isProcedure := by
  cases h with
  | builtin hb => rfl
  | procedure hp => rfl

/-! ## Interpreters -/

/-- All but the values is the same, values being compared by their texts. How often the scopes have
changed does not count. -/
structure SameContext (W : World) (c d : Context Empty) : Prop where
  /-- The same names, for the same commands. -/
  commands : Table.Related (SameCommand W) c.commands d.commands
  /-- No commands for types but those of the language. -/
  typeCommands : c.typeCommands = (Interp.standard : Interp Empty).context.typeCommands
  /-- No commands for types but those of the language. -/
  typeCommands' : d.typeCommands = (Interp.standard : Interp Empty).context.typeCommands
  /-- The same variables. -/
  scopes : SameScopes W c.scopes d.scopes
  /-- The same data of the application. -/
  aux : c.aux = d.aux
  /-- The same is known of the last error. -/
  errorStack : SameAll W c.errorStack.toList d.errorStack.toList
  /-- Evaluations may be nested as deeply. -/
  limit : c.limit = d.limit
  /-- They are nested as deeply. -/
  level : c.level = d.level
  /-- The same was written to the attached output. -/
  output : c.output = d.output
  /-- The same was written without an attached output. -/
  console : c.console = d.console
  /-- The same environment. -/
  environment : c.platform.environment = d.platform.environment

/-- **Two interpreters agree on texts.** They have no objects, their texts are those of the world,
all forms of values agree with these texts, and all else is the same. -/
structure SameInterp (W : World) (s t : Interp Empty) : Prop where
  /-- The values of the one. -/
  left : Coherent s.values W.left
  /-- The values of the other. -/
  right : Coherent t.values W.right
  /-- All else. -/
  context : SameContext W s.context t.context

/-- Contexts agree in every later world. -/
lemma SameContext.mono {W W' : World} (hW : W ≤ W') {c d : Context Empty}
    (h : SameContext W c d) : SameContext W' c d :=
  { h with
    commands := h.commands.mono fun _ _ hc => hc.mono hW
    scopes := h.scopes.mono hW
    errorStack := h.errorStack.mono hW }

end CommandScript
