import CommandScript.Proofs.Evaluation.AlikeControl

/-!
# The forms of values cannot be observed

Two interpreters that agree on texts evaluate scripts with the same text to results with the same
text, or to exceptions with the same texts, and agree on texts afterwards; or neither evaluation
comes to an end. In which form the values were held, and whether their texts had been read before,
makes no difference.

This is a simulation of one evaluation by the other. What the commands do was shown before; here are
the evaluation of words and scripts, by recursion on the script that both have read, and the
evaluation of nested scripts, by induction on the bound.

## Main definitions

* `Interp.reticent` — the interpreter whose commands tell of texts only.

## Main results

* `Command.alike_execute`, `Interp.alike_dispatch` — finding and running commands.
* `Interp.alike_runScript` — running scripts.
* `Interp.alike_evaluate` — evaluation does alike.
* `Interp.forms_unobservable` — evaluation of texts and of values.
-/

set_option autoImplicit false

namespace CommandScript

open EvalM
open Store (TextOf Coherent)
open StoreM (Each lasting_textOf)

variable {E : Engine Empty} {W : World}

/-! ## Commands -/

namespace Command

/-- Results that agree are passed on alike. -/
lemma alike_resultOf {r q : Option Ref} (h : SameResult W r q) :
    Alike W Same (resultOf r) (resultOf q) := by
  cases h with
  | some h => exact .pure h
  | none => exact .lift (Store.denotes_ofText "") (Store.denotes_ofText "")

/-- Commands that agree are executed alike, with arguments that agree. -/
lemma alike_execute (hE : E.Alike) {argv argv' : List Ref} (h : SameAll W argv argv')
    {c d : Command Empty} (hcd : SameCommand W c d) :
    AlikeObjectFree W Same (c.execute E argv) (d.execute E argv') := by
  cases hcd with
  | procedure hpq => exact Procedure.alike_call hE hpq h
  | @builtin b hb =>
    have hlength : argv.length = argv'.length := List.Forall₂.length_eq h
    unfold execute
    rw [← hlength]
    refine (alike_attempt_self _).bindObjectFree fun W₁ _ _ h₁ _ => ?_
    have hargv := SameAll.mono h₁ h
    cases b with
    | plain b =>
      exact (Builtin.alike_plain b hb hargv).bind (fun r => (scriptless_resultOf r).traced.grows)
        fun _ _ _ _ hr => (alike_resultOf hr).objectFree
    | control b =>
      exact (Builtin.alike_control hE b hb hargv).bind
        (fun r => (scriptless_resultOf r).traced.grows)
        fun _ _ _ _ hr => (alike_resultOf hr).objectFree

end Command

namespace Interp

/-- There is no command for the type of a value that is no object, in whatever form it is. -/
lemma resolve_typeOf {v : Store} {τ : List String} (hv : Coherent v τ) {r : Ref} {t : String}
    (hr : TextOf τ r t) :
    (Interp.standard : Interp Empty).context.typeCommands.resolve (v.typeOf r) =
      (none, (Interp.standard : Interp Empty).context.typeCommands) := by
  have hform := hv.form r t hr
  unfold Store.typeOf
  cases hrep : (v.cell r).rep with
  | object o =>
    rw [hrep] at hform
    exact hform.elim
  | none => rfl
  | int n => rfl
  | long n => rfl
  | float x => rfl
  | list items => rfl
  | hash entries => rfl
  | script commands => rfl

/-- What is done with a word that names no command. -/
def dispatchByType (E : Engine Empty) (argv : List Ref) (head : Ref) (name : String) :
    EvalM Empty Ref := do
  let tag ← typeOf head
  match ← typeCommand tag with
  | some command => command.execute E argv
  | none =>
    match ← objectOf? head with
    | some _ => fail (.noTypeCommand tag.name)
    | none => fail (.unknownCommand name)

/-- The command is looked for by name, then by the type of the first word. -/
lemma dispatch_eq (argv : List Ref) :
    dispatch E argv = (do
      let head ← arg argv 0
      let name ← text head
      match (← getContext).commands.find? name with
      | some command => command.execute E argv
      | none => dispatchByType E argv head name) := by
  refine bind_congr fun head => bind_congr fun name => bind_congr fun c => ?_
  cases c.commands.find? name with
  | some command => rfl
  | none =>
    refine bind_congr fun tag => bind_congr fun command => ?_
    cases command with
    | some command => rfl
    | none => rfl

/-- If the word is no object, its type does not matter: the command is unknown. -/
lemma dispatchByType_apply (argv : List Ref) (name : String) {v : Store} {c : Context Empty}
    {τ : List String} (hv : Coherent v τ)
    (hc : c.typeCommands = (Interp.standard : Interp Empty).context.typeCommands) {head : Ref}
    {t : String} (hhead : TextOf τ head t) :
    dispatchByType E argv head name ⟨v, c⟩ = fail (.unknownCommand name) ⟨v, c⟩ := by
  have htype : typeCommand (v.typeOf head) ⟨v, c⟩ = .ok none ⟨v, c⟩ := by
    change EStateM.Result.ok (c.typeCommands.resolve (v.typeOf head)).1
      (⟨v, { c with typeCommands := (c.typeCommands.resolve (v.typeOf head)).2 }⟩ :
        Interp Empty) = _
    rw [hc, resolve_typeOf hv hhead, ← hc]
  have hobject : objectOf? head ⟨v, c⟩ = .ok none ⟨v, c⟩ := by
    change EStateM.Result.ok (v.objectOf? head) (⟨v, c⟩ : Interp Empty) = _
    rw [hv.objectOf?_eq_none hhead]
  have htag : typeOf head ⟨v, c⟩ = .ok (v.typeOf head) ⟨v, c⟩ := rfl
  simp only [dispatchByType, bind, EStateM.bind, htag, htype, hobject]

/-- Both find a command that is the same, or none. -/
lemma alike_dispatch (hE : E.Alike) {argv argv' : List Ref} (h : SameAll W argv argv') :
    AlikeObjectFree W Same (dispatch E argv) (dispatch E argv') := by
  rw [dispatch_eq, dispatch_eq]
  refine (alike_arg h 0).bindObjectFree fun W₁ head head' h₁ hhead => ?_
  refine (alike_text hhead).bindEqualObjectFree fun W₂ name h₂ => ?_
  refine alike_getContext.bindObjectFree fun W₃ c d h₃ hc => ?_
  have hfound := hc.commands.find? name
  generalize c.commands.find? name = x at hfound ⊢
  generalize d.commands.find? name = y at hfound ⊢
  cases hfound with
  | some hcd => exact Command.alike_execute hE (SameAll.mono ((h₁.trans h₂).trans h₃) h) hcd
  | none =>
    -- no command has this name, and without objects none is found by its type, either
    refine Alike.objectFree ?_
    rintro ⟨v, c⟩ ⟨w, d⟩ hst
    obtain ⟨t, hleft, hright⟩ := hhead.mono (h₂.trans h₃)
    change AlikeOutcome W₃ Same (dispatchByType E argv head name ⟨v, c⟩)
      (dispatchByType E argv' head' name ⟨w, d⟩)
    rw [dispatchByType_apply argv name hst.left hst.context.typeCommands hleft,
      dispatchByType_apply argv' name hst.right hst.context.typeCommands' hright]
    exact alike_fail _ _ _ hst

/-- A frame with texts that agree may be added to exceptions that agree. -/
lemma sameException_addFrame {e f : Exception} (h : SameException W e f) {r q : Ref}
    (hrq : Same W r q) : SameException W (e.addFrame r) (f.addFrame q) := by
  obtain ⟨x, he, hf⟩ := h
  obtain ⟨t, hr, hq⟩ := hrq
  exact ⟨{ x with frames := t :: x.frames }, { he with frames := .cons hr he.frames },
    { hf with frames := .cons hq hf.frames }⟩

/-- The text of a command, as errors note it. -/
lemma alike_commandText {argv argv' : List Ref} (h : SameAll W argv argv') :
    Alike W Same (liftM (Store.listText argv >>= Store.ofText))
      (liftM (Store.listText argv' >>= Store.ofText)) := by
  have hdenotes : ∀ {τ : List String} {rs : List Ref} {texts : List String},
      Each TextOf τ rs texts →
      (Store.listText rs >>= Store.ofText).Denotes τ TextOf (ListText.write texts) := by
    intro τ rs texts hrs
    refine (Store.denotes_listText hrs).bind fun τ' t _ ht => ?_
    obtain rfl : t = ListText.write texts := ht
    exact Store.denotes_ofText _
  obtain ⟨texts, hleft, hright⟩ := sameAll_iff_both.1 h
  exact .lift (hdenotes hleft) (hdenotes hright)

/-- Commands are run alike, and the trace of an error is added to alike. -/
lemma alike_runCommand (hE : E.Alike) {argv argv' : List Ref} (h : SameAll W argv argv') :
    AlikeObjectFree W Same (runCommand E argv) (runCommand E argv') := by
  refine (alike_dispatch hE h).observe.bind (fun outcome => Traced.grows ?_)
    fun W₁ outcome outcome' h₁ houtcome => Alike.objectFree ?_
  · cases outcome with
    | ok r => exact .pure r
    | error e =>
      dsimp only
      split
      · refine (Traced.lift ?_).bind fun frame => traced_raise _
        exact (Store.grows_listText argv).bind fun _ => Store.grows_alloc trivial
      · exact traced_raise e
  · cases houtcome with
    | ok hr => exact .pure hr
    | @error e f he =>
      have hcode : e.isError = f.isError := congrArg Code.isError (code_eq_of_sameException he)
      dsimp only
      rw [← hcode]
      split
      · refine (alike_commandText (SameAll.mono h₁ h)).bind fun W₂ frame frame' h₂ hframe => ?_
        exact alike_raise (sameException_addFrame (stable_sameException h₂ he) hframe)
      · exact alike_raise he

/-! ## Words and scripts -/

/-- Values put together to a new text. -/
lemma alike_concat {rs qs : List Ref} (h : SameAll W rs qs) : Alike W Same
    (do
      let texts ← (Store.texts rs : StoreM (List String))
      (Store.ofText (texts.foldr (· ++ ·) "") : StoreM Ref))
    (do
      let texts ← (Store.texts qs : StoreM (List String))
      (Store.ofText (texts.foldr (· ++ ·) "") : StoreM Ref)) := by
  obtain ⟨texts, hrs, hqs⟩ := sameAll_iff_both.1 h
  refine (Alike.liftExactly (Store.denotes_texts hrs) (Store.denotes_texts hqs)).bindEqual
    fun W₁ texts _ => ?_
  exact .lift (Store.denotes_ofText _) (Store.denotes_ofText _)

mutual

/-- **Scripts do alike** that were read from the same text: wherever their values stand, these have
the same texts. -/
theorem alike_runScript (hE : E.Alike) : ∀ (script : List (List (Word String))) {W : World}
    {last last' : Option Ref} {commands commands' : List (List (Word Ref))},
    SameResult W last last' → Script.Loaded W.left commands script →
    Script.Loaded W.right commands' script →
    AlikeObjectFree W Same (runScript E last commands) (runScript E last' commands')
  | [], _, _, _, _, _, hlast, .nil, .nil => (Command.alike_resultOf hlast).objectFree
  | words :: rest, _, _, _, _, _, hlast, .cons hwords hrest, .cons hwords' hrest' => by
    refine (alike_evalWords hE words hwords hwords').bind (fun argv => ?_)
      fun W₁ argv argv' h₁ hargv => ?_
    · exact ((traced_runCommand hE.traced argv).bind fun r =>
        traced_runScript hE.traced (some r) _).grows
    refine (alike_runCommand hE hargv).bind (fun r => ?_) fun W₂ r q h₂ hrq => ?_
    · exact (traced_runScript hE.traced (some r) _).grows
    · exact alike_runScript hE rest (.some hrq) (hrest.mono (h₁.trans h₂).1)
        (hrest'.mono (h₁.trans h₂).2)

/-- Words that were loaded from the same script are evaluated alike. -/
theorem alike_evalWords (hE : E.Alike) : ∀ (words : List (Word String)) {W : World}
    {parts parts' : List (Word Ref)}, Script.LoadedWords W.left parts words →
    Script.LoadedWords W.right parts' words →
    AlikeObjectFree W SameAll (evalWords E parts) (evalWords E parts')
  | [], _, _, _, .nil, .nil => (Alike.pure .nil).objectFree
  | word :: words, _, _, _, .cons hword hwords, .cons hword' hwords' => by
    refine (alike_evalWord hE word hword hword').bind (fun r => ?_) fun W₁ r q h₁ hrq => ?_
    · exact ((traced_evalWords hE.traced _).bind fun rs => .pure (r :: rs)).grows
    refine (alike_evalWords hE words (hwords.mono h₁.1) (hwords'.mono h₁.2)).bind (fun rs => ?_)
      fun W₂ rs qs h₂ hrest => ?_
    · exact (Traced.pure (r :: rs)).grows
    · exact (Alike.pure (.cons (hrq.mono h₂) hrest)).objectFree

/-- So is each single word. -/
theorem alike_evalWord (hE : E.Alike) : ∀ (word : Word String) {W : World} {w w' : Word Ref},
    Script.LoadedWord W.left w word → Script.LoadedWord W.right w' word →
    AlikeObjectFree W Same (evalWord E w) (evalWord E w')
  | .literal t, _, _, _, .literal hr, .literal hq => (Alike.pure ⟨t, hr, hq⟩).objectFree
  | .var name, _, _, _, .var _, .var _ => (alike_getVar name (-1)).objectFree
  | .substitution script, _, _, _, .substitution h, .substitution h' =>
    alike_runScript hE script .none h h'
  | .joined words, _, _, _, .joined h, .joined h' => by
    refine (alike_evalWords hE words h h').bind (fun rs => ?_) fun W₁ rs qs _ hrs => ?_
    · refine Traced.grows ?_
      split
      · exact .pure _
      · exact (Traced.lift (Store.grows_texts rs)).bind fun _ => .lift (Store.grows_alloc trivial)
    · have hconcat := alike_concat hrs
      refine Alike.objectFree ?_
      obtain _ | ⟨hr, _ | ⟨-, -⟩⟩ := hrs
      · exact hconcat
      · exact .pure hr
      · exact hconcat

end

/-! ## Nested scripts -/

/-- The values have texts that are read as the same script. -/
def SameScript (W : World) (r q : Ref) : Prop :=
  ∃ t u, TextOf W.left r t ∧ TextOf W.right q u ∧ Script.read t = Script.read u

/-- Values with the same text are read as the same script. -/
lemma SameScript.of_same {r q : Ref} (h : Same W r q) : SameScript W r q := by
  obtain ⟨t, hr, hq⟩ := h
  exact ⟨t, t, hr, hq, rfl⟩

/-- They still are when there are more values. -/
lemma SameScript.mono {W' : World} (hW : W ≤ W') {r q : Ref} (h : SameScript W r q) :
    SameScript W' r q := by
  obtain ⟨t, u, hr, hq, hread⟩ := h
  exact ⟨t, u, lasting_textOf hW.1 hr, lasting_textOf hW.2 hq, hread⟩

/-- Values with texts that are read alike are the same script, or no script for the same reason. -/
lemma alike_scriptOf {r q : Ref} (h : SameScript W r q) :
    Alike W (Both Script.Loaded) (scriptOf r) (scriptOf q) := by
  obtain ⟨t, u, hr, hq, hread⟩ := h
  refine (Alike.lift (Store.denotes_asScript hr) (hread ▸ Store.denotes_asScript hq)).bind
    fun W₁ outcome outcome' _ houtcome => ?_
  obtain ⟨read, hleft, hright⟩ := houtcome
  cases hleft with
  | @done _ script hleft =>
    cases hright with
    | done hright => exact .pure ⟨script, hleft, hright⟩
  | failed e =>
    cases hright
    exact alike_fail _
  | stuck =>
    cases hright
    exact alike_diverged

/-- Errors that agree are noted alike. -/
lemma alike_noteError {e f : Exception} (h : SameException W e f) :
    Alike W Equal (noteError e) (noteError f) := by
  have hcode : e.isError = f.isError := congrArg Code.isError (code_eq_of_sameException h)
  unfold noteError
  rw [← hcode]
  split
  · obtain ⟨x, he, hf⟩ := h
    refine (Alike.lift (Exception.denotes_diagnosis he) (Exception.denotes_diagnosis hf)).bind
      fun W₁ stack stack' _ hstack => ?_
    exact alike_modifyContext fun c d hc => { hc with errorStack := sameAll_iff_both.2 hstack }
  · exact .pure rfl

/-- What is observed is passed on alike, and noted alike. -/
lemma alike_noted {x y : Except Exception Ref} (h : SameObserved Same W x y) :
    Alike W Same (noted x) (noted y) := by
  cases h with
  | ok hr => exact .pure hr
  | error he =>
    exact (alike_noteError he).bind fun _ _ _ h₁ _ => alike_raise (stable_sameException h₁ he)

/-- The outcomes of nested evaluations that agree still do when they come out. -/
lemma alike_release {x y : Except Exception Ref} (h : SameObserved Same W x y) :
    Alike W Same (release x) (release y) := by
  refine alike_getContext.bind fun W₁ c d h₁ hc => ?_
  have hx := h.mono stable_same h₁
  rw [← hc.level]
  split
  · exact (alike_settle hx).observe.bind fun _ _ _ _ hout => alike_noted hout
  · exact alike_noted hx

/-- **Evaluation one level deeper does alike**: both have reached the limit, or neither has, and
what comes out agrees. -/
lemma alike_evalNested (hE : E.Alike) {r q : Ref} (h : SameScript W r q) :
    AlikeObjectFree W Same (evalNested E r) (evalNested E q) := by
  rintro ⟨v, c⟩ ⟨w, d⟩ hst hfree
  rw [evalNested_apply] at hfree ⊢
  rw [evalNested_apply, ← hst.context.limit, ← hst.context.level]
  split at hfree
  next hlimit =>
    rw [if_pos hlimit, if_pos hlimit]
    exact alike_fail _ _ _ hst
  next hlimit =>
    rw [if_neg hlimit, if_neg hlimit]
    refine Alike.bindObjectFree (alike_modifyContext fun c' d' hc => ?_)
      (fun W₁ _ _ h₁ _ => ?_) ⟨v, c⟩ ⟨w, d⟩ hst hfree
    · exact { hc with level := congrArg (· + 1) hc.level }
    have hscript : AlikeObjectFree W₁ Same (scriptOf r >>= runScript E none)
        (scriptOf q >>= runScript E none) := by
      refine (alike_scriptOf (h.mono h₁)).bindObjectFree fun W₂ commands commands' _ hscript => ?_
      obtain ⟨script, hleft, hright⟩ := hscript
      exact alike_runScript hE script .none hleft hright
    refine hscript.observe.bind (fun outcome => ?_) fun W₂ outcome outcome' _ houtcome => ?_
    · exact (grows_modifyContext _).bind fun _ =>
        ((scripted_release outcome).traced hE.traced).grows
    · refine Alike.objectFree (Alike.bind (alike_modifyContext fun c' d' hc => ?_)
        fun W₃ _ _ h₃ _ => alike_release (houtcome.mono stable_same h₃))
      exact { hc with level := congrArg (· - 1) hc.level }

/-- **Evaluation does alike**, whatever the bound, of values that are the same script.

**Proof sketch.** Induction on the bound: what is nested is evaluated with a smaller one, and with
no bound left, neither evaluation comes to an end. -/
theorem alike_evaluate (bound : Nat) {W : World} {r q : Ref} (h : SameScript W r q) :
    AlikeObjectFree W Same (evaluate bound r) (evaluate bound q) := by
  induction bound generalizing W r q with
  | zero => exact alike_diverged.objectFree
  | succ bound ih =>
    exact alike_evalNested ⟨fun hsame => ih (.of_same hsame), traced_evaluate bound⟩ h

/-! ## Scripts tell of texts only -/

/-- The interpreter with the commands of the language, but for those that tell more than texts. -/
def reticent : Interp Empty :=
  let start : Interp Empty := standard
  { start with
    context := { start.context with
      commands := Table.ofPairs ((Builtin.standard.filter fun e => e.2 ∉ Builtin.telling).map
        fun e => (e.1, .builtin e.2)) } }

/-- The commands that tell of texts only agree with themselves. -/
lemma related_reticent :
    Table.Related (SameCommand W) reticent.context.commands reticent.context.commands := by
  refine Table.Related.empty.insertAll (List.forall₂_same.2 fun e he => ⟨rfl, ?_⟩)
  obtain ⟨b, hb, rfl⟩ := List.mem_map.1 he
  exact .builtin (of_decide_eq_true (List.mem_filter.1 hb).2)

/-- The interpreter with one variable `x`, whose value has the text and is held in the form. -/
def holding (t : String) (rep : Rep) : Interp Empty :=
  { values := { cells := #[{ text := some t, rep }] }
    context := { reticent.context with
      scopes := { globals := (Table.empty : Frame).insert "x" (.value ⟨0⟩) } } }

/-- A form that the text is read as may be held along with it. -/
lemma coherent_holding {t : String} {rep : Rep} (h : Store.ReadsAs [t] t rep) :
    Coherent (holding t rep).values [t] := by
  have hfirst : ∀ {r : Ref} {u : String}, TextOf [t] r u → r = ⟨0⟩ ∧ u = t := by
    rintro ⟨index⟩ u hu
    cases index with
    | zero => exact ⟨rfl, (Option.some.inj hu).symm⟩
    | succ index => cases hu
  refine ⟨rfl, rfl, fun r u hu => ?_, fun r u hu => ?_⟩
  · obtain ⟨rfl, rfl⟩ := hfirst hu
    exact h
  · obtain ⟨rfl, rfl⟩ := hfirst hu
    exact .inl rfl

/-- Interpreters agree on texts if they hold the same text, in whatever forms. -/
lemma sameInterp_holding {t : String} {rep rep' : Rep} (h : Store.ReadsAs [t] t rep)
    (h' : Store.ReadsAs [t] t rep') :
    SameInterp ⟨[t], [t]⟩ (holding t rep) (holding t rep') where
  left := coherent_holding h
  right := coherent_holding h'
  context :=
    { commands := related_reticent
      typeCommands := rfl
      typeCommands' := rfl
      scopes := ⟨Table.Related.empty.insert "x" (.value ⟨t, rfl, rfl⟩), .nil⟩
      aux := rfl
      errorStack := .nil
      limit := rfl
      level := rfl
      output := rfl
      console := rfl
      environment := rfl }

/-- Evaluates a text as a script, with a bound. -/
def evaluateText (bound : Nat) (script : String) : EvalM Empty Ref := do
  let r ← (Store.ofText script : StoreM Ref)
  evaluate bound r

/-- **The forms of values cannot be observed.** Take two interpreters that agree on texts, but
perhaps hold their values in different forms, and let no object be made. A script, given as a text
or as values with the same text, then evaluates to results with the same text in both, or to
exceptions with the same texts, and the interpreters agree on texts afterwards; or it does not come
to an end in either. -/
theorem forms_unobservable {W : World} {s t : Interp Empty} (hst : SameInterp W s t) (bound : Nat) :
    (∀ script : String, (finalState (evaluateText bound script s)).values.objects = #[] →
      AlikeOutcome W Same (evaluateText bound script s) (evaluateText bound script t)) ∧
    ∀ r q : Ref, Same W r q → (finalState (evaluate bound r s)).values.objects = #[] →
      AlikeOutcome W Same (evaluate bound r s) (evaluate bound q t) := by
  constructor
  · intro script
    refine Alike.bindObjectFree (R := Same) ?_
      (fun _ _ _ _ hrq => alike_evaluate bound (.of_same hrq)) s t hst
    exact .lift (Store.denotes_ofText script) (Store.denotes_ofText script)
  · exact fun r q hrq => alike_evaluate bound (.of_same hrq) s t hst

/-- A number is added to, whether it was a number before or is still a text. -/
theorem forms_unobservable_sum :
    AlikeOutcome ⟨["7"], ["7"]⟩ Same (evaluateText 1 "+ $x 1" (holding "7" (.int 7)))
      (evaluateText 1 "+ $x 1" (holding "7" .none)) := by
  have hread : Store.readInt? "7" = some 7 := by decide +kernel
  have hst : SameInterp ⟨["7"], ["7"]⟩ (holding "7" (.int 7)) (holding "7" .none) :=
    sameInterp_holding hread trivial
  exact (forms_unobservable hst 1).1 "+ $x 1" (by decide +kernel)

end Interp

end CommandScript
