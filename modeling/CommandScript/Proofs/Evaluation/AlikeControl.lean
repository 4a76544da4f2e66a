import CommandScript.Proofs.Evaluation.AlikePlain

/-!
# Commands that run scripts do alike

Conditions, loops, catching, evaluation at another level and calls of procedures do alike in
interpreters that agree on texts, if the evaluation of scripts does and no object is made.

## Main definitions

* `Engine.Alike` — the evaluation of scripts does alike.

## Main results

* `Procedure.alike_call` — calls of procedures.
* `Builtin.alike_evalAt` — evaluation at another level.
* `Builtin.alike_control` — all commands that run scripts.
-/

set_option autoImplicit false

namespace CommandScript

open EvalM

/-- The evaluation of scripts does alike, and keeps to its ways. -/
structure Engine.Alike (E : Engine Empty) : Prop where
  /-- Scripts with the same text do alike. -/
  eval : ∀ {W : World} {r q : Ref}, Same W r q → AlikeObjectFree W Same (E.eval r) (E.eval q)
  /-- Evaluation keeps to its ways. -/
  traced : ∀ r, Traced (fun _ => True) (E.eval r)

variable {E : Engine Empty} {W : World}

/-- **A call does alike**: procedures with the same texts, called with the same words. -/
lemma Procedure.alike_call (hE : E.Alike) {p q : Procedure} (hpq : SameProcedure W p q)
    {argv argv' : List Ref} (hargv : SameAll W argv argv') :
    AlikeObjectFree W Same (p.call E argv) (q.call E argv') := by
  refine Alike.bindObjectFree (alike_modifyContext fun c d hc => ?_) fun W₁ _ _ h₁ _ => ?_
  · exact { hc with scopes := hc.scopes.push }
  have hpq₁ := stable_both Procedure.HasTexts.mono h₁ hpq
  have hbody : AlikeObjectFree W₁ Same (p.bind argv >>= fun _ => E.eval p.body)
      (q.bind argv' >>= fun _ => E.eval q.body) := by
    refine (Procedure.alike_bind hpq₁ (SameAll.mono h₁ hargv)).bindObjectFree
      fun W₂ _ _ h₂ _ => hE.eval ?_
    obtain ⟨x, hp, hq⟩ := hpq₁
    exact Same.mono h₂ ⟨x.body, hp.body, hq.body⟩
  refine hbody.observe.bind (fun outcome => ?_) fun W₂ outcome outcome' _ houtcome => ?_
  · exact (grows_modifyContext _).bind fun _ => ((scripted_settle outcome).traced hE.traced).grows
  · refine Alike.objectFree (Alike.bind (alike_modifyContext fun c d hc => ?_)
      fun W₃ _ _ h₃ _ => alike_settle (houtcome.mono stable_same h₃))
    exact { hc with scopes := hc.scopes.pop.2 }

namespace Builtin

/-! ## Conditions and loops -/

/-- Truth values depend on texts. -/
lemma alike_bool? {r q : Ref} (h : Same W r q) :
    Alike W Equal (liftM (Store.bool? r)) (liftM (Store.bool? q)) := by
  obtain ⟨t, hr, hq⟩ := h
  exact .liftExactly (Store.denotes_bool? hr) (Store.denotes_bool? hq)

/-- So they do where there has to be one. -/
lemma alike_asBool {r q : Ref} (h : Same W r q) :
    Alike W Equal (liftM (Store.asBool r)) (liftM (Store.asBool q)) := by
  obtain ⟨t, hr, hq⟩ := h
  exact .liftConvExactly (Store.denotes_asBool hr) (Store.denotes_asBool hq)

/-- Conditions that agree are decided alike. -/
lemma alike_condition (hE : E.Alike) {cond cond' : Ref} (h : Same W cond cond') :
    AlikeObjectFree W Equal (condition E cond) (condition E cond') := by
  refine (alike_bool? h).bindEqualObjectFree fun W₁ known h₁ => ?_
  cases known with
  | some b => exact (Alike.pure rfl).objectFree
  | none =>
    refine (hE.eval (h.mono h₁)).bind (fun r => ?_) fun W₂ _ _ _ hr => (alike_asBool hr).objectFree
    exact (Traced.liftConv (Store.grows_asBool r)).grows

/-- One round of a loop does alike. -/
lemma alike_round (hE : E.Alike) {body body' : Ref} (h : Same W body body') :
    AlikeObjectFree W Equal (round E body) (round E body') := by
  refine (hE.eval h).observe.bind (fun outcome => ?_) fun W₁ outcome outcome' _ houtcome => ?_
  · cases outcome with
    | ok r => exact (Traced.pure true).grows
    | error e =>
      dsimp only
      split
      · exact (Traced.pure false).grows
      · exact (Traced.pure true).grows
      · exact (traced_raise e).grows
  · cases houtcome with
    | ok _ => exact (Alike.pure rfl).objectFree
    | @error e f he =>
      dsimp only
      rw [← code_eq_of_sameException he]
      split
      · exact (Alike.pure rfl).objectFree
      · exact (Alike.pure rfl).objectFree
      · exact (alike_raise he).objectFree

/-- Scripts that agree have results that agree. -/
lemma alike_evalResult (hE : E.Alike) {script script' : Ref} (h : Same W script script') :
    AlikeObjectFree W SameResult (evalResult E script) (evalResult E script') :=
  (hE.eval h).bind (fun r => (Traced.pure (some r)).grows)
    fun _ _ _ _ hr => (Alike.pure (.some hr)).objectFree

/-- The end of a chain: a last branch, or an error. -/
lemma alike_ifEnd (hE : E.Alike) (keyword : String) {rest rest' : List Ref} :
    SameAll W rest rest' → AlikeObjectFree W SameResult
      (match keyword, rest with
        | "else", [body] => evalResult E body
        | _, _ => fail (.usage ifForm))
      (match keyword, rest' with
        | "else", [body] => evalResult E body
        | _, _ => fail (.usage ifForm)) := by
  intro h
  by_cases hkeyword : keyword = "else"
  · subst hkeyword
    obtain _ | ⟨hbody, _ | ⟨-, -⟩⟩ := h
    · exact (alike_fail _).objectFree
    · exact alike_evalResult hE hbody
    · exact (alike_fail _).objectFree
  · have hfail : ∀ ws : List Ref, (match keyword, ws with
        | "else", [body] => evalResult E body
        | _, _ => fail (.usage ifForm)) = fail (.usage ifForm) := by
      intro ws
      split
      · contradiction
      · rfl
    rw [hfail, hfail]
    exact (alike_fail _).objectFree

/-- **Proof sketch.** Induction on the number of words: after a condition that does not hold, the
chain goes on with fewer of them. -/
lemma alike_ifChain (hE : E.Alike) {words words' : List Ref} (h : SameAll W words words') :
    AlikeObjectFree W SameResult (ifChain E words) (ifChain E words') := by
  induction hn : words.length using Nat.strongRecOn generalizing W words words' with
  | ind n ih =>
    obtain _ | ⟨hcond, _ | ⟨hbody, hrest⟩⟩ := h
    · exact (alike_fail _).objectFree
    · exact (alike_fail _).objectFree
    · unfold ifChain
      refine (alike_condition hE hcond).bindEqual (fun holds => ?_) fun W₁ holds h₁ => ?_
      · refine (Scripted.traced ?_ hE.traced).grows
        split
        · exact scripted_evalResult _
        · split
          · exact .pure none
          · refine (scriptless_text _).bindScripted fun keyword => ?_
            split
            · exact scripted_ifChain _
            · split
              · exact scripted_evalResult _
              · exact .scriptless (.fail _)
      · split
        · exact alike_evalResult hE (hbody.mono h₁)
        · cases hrest with
          | nil => exact alike_done.objectFree
          | @cons _ _ rest rest' hkeyword hrest =>
            refine (alike_text (hkeyword.mono h₁)).bindEqualObjectFree
              fun W₂ keyword h₂ => ?_
            have hrest₂ := SameAll.mono (h₁.trans h₂) hrest
            split
            · simp only [List.length_cons] at hn
              exact ih rest.length (by omega) hrest₂ rfl
            · exact alike_ifEnd hE keyword hrest₂

/-- Loops with conditions and bodies that agree go round alike. -/
lemma alike_whileLoop (hE : E.Alike) {cond cond' body body' : Ref} (hcond : Same W cond cond')
    (hbody : Same W body body') (rounds : Nat) :
    AlikeObjectFree W Equal (whileLoop E cond body rounds) (whileLoop E cond' body' rounds) := by
  induction rounds generalizing W with
  | zero => exact alike_diverged.objectFree
  | succ rounds ih =>
    have hrest := fun goes : Bool =>
      show Traced (fun _ => True) (if goes then whileLoop E cond body rounds else pure ()) by
        split
        · exact (scripted_whileLoop trivial cond body rounds).traced hE.traced
        · exact .pure _
    refine (alike_condition hE hcond).bindEqual (fun holds => ?_) fun W₁ holds h₁ => ?_
    · split
      · exact (((scripted_round body).traced hE.traced).bind hrest).grows
      · exact (Traced.pure _).grows
    · split
      · refine (alike_round hE (hbody.mono h₁)).bindEqual (fun goes => (hrest goes).grows)
          fun W₂ goes h₂ => ?_
        split
        · exact ih (hcond.mono (h₁.trans h₂)) (hbody.mono (h₁.trans h₂))
        · exact (Alike.pure rfl).objectFree
      · exact (Alike.pure rfl).objectFree

/-- What is left of items that agree agrees. -/
lemma sameAll_tail {items items' : List Ref} (h : SameAll W items items') :
    SameAll W items.tail items'.tail := by
  cases h with
  | nil => exact .nil
  | cons _ h => exact h

/-- The next items agree, or there are none on either side. -/
lemma alike_loopValue {items items' : List Ref} (h : SameAll W items items') :
    Alike W Same (loopValue items) (loopValue items') := by
  cases h with
  | nil => exact .lift (Store.denotes_ofText "") (Store.denotes_ofText "")
  | cons hr _ => exact .pure hr

/-- Variables are bound alike to items that agree. -/
lemma alike_bindLoopVars {vars vars' : List Ref} (hvars : SameAll W vars vars')
    {items items' : List Ref} (hitems : SameAll W items items') :
    Alike W Equal (bindLoopVars vars items) (bindLoopVars vars' items') := by
  induction vars generalizing W vars' items items' with
  | nil =>
    cases hvars
    exact .pure rfl
  | cons var vars ih =>
    cases hvars with
    | @cons _ var' _ vars' hvar hvars =>
      rw [bindLoopVars_cons, bindLoopVars_cons]
      refine (alike_loopValue hitems).bind fun W' r q hW hr => ?_
      refine (alike_text (hvar.mono hW)).bindEqual fun W₁ name h₁ => ?_
      refine (alike_setVar name (hr.mono h₁) _).bind fun W₂ _ _ h₂ _ => ?_
      have hW₂ := (hW.trans h₁).trans h₂
      exact ih (SameAll.mono hW₂ hvars) (SameAll.mono hW₂ (sameAll_tail hitems))

/-- Bodies that agree are evaluated alike for all pieces. -/
lemma alike_foreachLoop (hE : E.Alike) {vars vars' : List Ref} (hvars : SameAll W vars vars')
    {body body' : Ref} (hbody : Same W body body') {pieces pieces' : List (List Ref)}
    (hpieces : List.Forall₂ (SameAll W) pieces pieces') :
    AlikeObjectFree W Equal (foreachLoop E vars body pieces)
      (foreachLoop E vars' body' pieces') := by
  induction pieces generalizing W pieces' with
  | nil =>
    cases hpieces
    exact (Alike.pure rfl).objectFree
  | cons items pieces ih =>
    cases hpieces with
    | cons hitems hpieces =>
      refine (alike_bindLoopVars hvars hitems).bindObjectFree fun W₁ _ _ h₁ _ => ?_
      refine (alike_round hE (hbody.mono h₁)).bindEqual (fun goes => ?_) fun W₂ goes h₂ => ?_
      · split
        · exact ((scripted_foreachLoop vars body pieces).traced hE.traced).grows
        · exact (Traced.pure _).grows
      · have hW := h₁.trans h₂
        split
        · refine ih (SameAll.mono hW hvars) (hbody.mono hW) ?_
          exact hpieces.imp fun _ _ h => SameAll.mono hW h
        · exact (Alike.pure rfl).objectFree

/-- Pieces of lists that agree do. -/
lemma forall₂_chunks (size : Nat) {items items' : List Ref} (h : SameAll W items items') :
    List.Forall₂ (SameAll W) (chunks size items) (chunks size items') := by
  induction hn : items.length using Nat.strongRecOn generalizing items items' with
  | ind n ih =>
    cases h with
    | nil =>
      unfold chunks
      exact .nil
    | @cons _ _ rest rest' hr hrest =>
      unfold chunks
      refine .cons (.cons hr (List.forall₂_take size hrest)) ?_
      refine ih _ ?_ (List.forall₂_drop size hrest) rfl
      simp only [List.length_cons, List.length_drop] at hn ⊢
      omega

/-! ## Evaluation at another level -/

/-- **Evaluation at another level does alike.** The same number of frames is set aside, and what is
put back agrees as before: texts are only added. -/
lemma alike_evalAt (hE : E.Alike) {script script' : Ref} (h : Same W script script')
    (level : Int) : AlikeObjectFree W Same (evalAt E script level) (evalAt E script' level) := by
  rintro ⟨v, c⟩ ⟨w, d⟩ hst hfree
  rw [evalAt_apply] at hfree ⊢
  rw [evalAt_apply, ← hst.context.scopes.evalPlace?_eq, ← hst.context.scopes.depth_eq]
  cases hplace : c.scopes.evalPlace? level with
  | error e => exact alike_fail e _ _ hst
  | ok place =>
    simp only [hplace] at hfree
    obtain ⟨hframes, hscopes⟩ := hst.context.scopes.popMany .nil (c.scopes.depth - 1 - place)
    refine Alike.bindObjectFree (alike_modifyContext fun c' d' hc => ?_)
      (fun W₁ _ _ h₁ _ => ?_) ⟨v, c⟩ ⟨w, d⟩ hst hfree
    · exact { hc with scopes := hscopes }
    refine (hE.eval (h.mono h₁)).observe.bind (fun outcome => ?_)
      fun W₂ outcome outcome' h₂ houtcome => ?_
    · exact (grows_modifyContext _).bind fun _ =>
        ((scripted_conclude outcome).traced hE.traced).grows
    · have hframes₂ := hframes.imp fun _ _ hf => SameFrame.mono (h₁.trans h₂) hf
      refine Alike.objectFree (Alike.bind (alike_modifyContext fun c' d' hc => ?_)
        fun W₃ _ _ h₃ _ => alike_conclude (houtcome.mono stable_same h₃))
      exact { hc with scopes := hc.scopes.pushMany hframes₂ }

/-- Evaluation at another level is alike. -/
lemma alike_upeval (hE : E.Alike) {argv argv' : List Ref} (h : SameAll W argv argv') :
    AlikeObjectFree W SameResult (Builtin.upeval E argv) (Builtin.upeval E argv') := by
  have hresult : ∀ {W : World} {script script' : Ref}, Same W script script' → ∀ level : Int,
      AlikeObjectFree W SameResult (evalAt E script level >>= fun r => pure (some r))
        (evalAt E script' level >>= fun r => pure (some r)) := fun h level =>
    (alike_evalAt hE h level).bind (fun r => (Traced.pure (some r)).grows)
      fun _ _ _ _ hr => (Alike.pure (.some hr)).objectFree
  obtain _ | ⟨-, _ | ⟨hfirst, _ | ⟨hsecond, _ | ⟨-, -⟩⟩⟩⟩ := h
  · exact alike_fault.objectFree
  · exact alike_fault.objectFree
  · exact hresult hfirst (-1)
  · refine (alike_asInt hfirst).bindEqualObjectFree fun W₁ level h₁ => ?_
    exact hresult (hsecond.mono h₁) level.toInt
  · exact alike_fault.objectFree

/-! ## The other commands -/

/-- So is evaluation of arguments as a script. -/
lemma alike_eval (hE : E.Alike) {argv argv' : List Ref} (h : SameAll W argv argv') :
    AlikeObjectFree W SameResult (Builtin.eval E argv) (Builtin.eval E argv') := by
  obtain _ | ⟨-, _ | ⟨hscript, _ | ⟨-, -⟩⟩⟩ := h
  · exact alike_fault.objectFree
  · exact alike_fault.objectFree
  · exact alike_evalResult hE hscript
  · exact alike_fault.objectFree

/-- So is catching a signal. -/
lemma alike_catchSignal (hE : E.Alike) {argv argv' : List Ref} (h : SameAll W argv argv') :
    AlikeObjectFree W SameResult (catchSignal E argv) (catchSignal E argv') := by
  rw [catchSignal_eq, catchSignal_eq]
  refine (alike_arg h 1).bindObjectFree fun W₁ script script' h₁ hscript => ?_
  refine (hE.eval hscript).observe.bind (fun outcome => ?_)
    fun W₂ outcome outcome' h₂ houtcome => ?_
  · exact (scriptless_answer argv _).traced.grows
  · have hstatus : (caught outcome).1 = (caught outcome').1 := by
      cases houtcome with
      | ok _ => rfl
      | error he => exact congrArg Code.status (code_eq_of_sameException he)
    have hvalue : Same W₂ (caught outcome).2 (caught outcome').2 := by
      cases houtcome with
      | ok hr => exact hr
      | error he => exact same_value_of_sameException he
    unfold answer
    rw [← hstatus]
    refine Alike.objectFree ?_
    obtain _ | ⟨-, _ | ⟨-, _ | ⟨hname, _ | ⟨-, -⟩⟩⟩⟩ := SameAll.mono (h₁.trans h₂) h
    · exact alike_intResult _
    · exact alike_intResult _
    · exact alike_intResult _
    · refine (alike_text hname).bindEqual fun W₃ name h₃ => ?_
      exact (alike_setVar name (hvalue.mono h₃) _).bind fun _ _ _ _ _ => alike_intResult _
    · exact alike_intResult _

/-- So is the loop with a condition. -/
lemma alike_loopWhile (hE : E.Alike) {argv argv' : List Ref} (h : SameAll W argv argv') :
    AlikeObjectFree W SameResult (loopWhile E argv) (loopWhile E argv') := by
  obtain _ | ⟨-, _ | ⟨hcond, _ | ⟨hbody, _ | ⟨-, -⟩⟩⟩⟩ := h
  · exact alike_fault.objectFree
  · exact alike_fault.objectFree
  · exact alike_fault.objectFree
  · exact (alike_whileLoop hE hcond hbody _).bind (fun _ => (Traced.pure none).grows)
      fun _ _ _ _ _ => alike_done.objectFree
  · exact alike_fault.objectFree

/-- So is the loop over items. -/
lemma alike_foreach (hE : E.Alike) {argv argv' : List Ref} (h : SameAll W argv argv') :
    AlikeObjectFree W SameResult (Builtin.foreach E argv) (Builtin.foreach E argv') := by
  obtain _ | ⟨-, _ | ⟨hnames, _ | ⟨hlist, _ | ⟨hbody, _ | ⟨-, -⟩⟩⟩⟩⟩ := h
  · exact alike_fault.objectFree
  · exact alike_fault.objectFree
  · exact alike_fault.objectFree
  · exact alike_fault.objectFree
  · refine (alike_asList hnames).bindObjectFree fun W₁ vars vars' h₁ hvars => ?_
    refine (alike_asList (hlist.mono h₁)).bindObjectFree fun W₂ items items' h₂ hitems => ?_
    have hvars₂ := SameAll.mono h₂ hvars
    cases hvars with
    | nil => exact (alike_fail _).objectFree
    | @cons _ _ others others' _ hothers =>
      have hlength : others.length = others'.length := List.Forall₂.length_eq hothers
      have hpieces := forall₂_chunks others.length hitems
      dsimp only
      rw [← hlength]
      exact (alike_foreachLoop hE hvars₂ (hbody.mono (h₁.trans h₂)) hpieces).bind
        (fun _ => (Traced.pure none).grows) fun _ _ _ _ _ => alike_done.objectFree
  · exact alike_fault.objectFree

/-- **Every command that runs scripts does alike** if the evaluation of scripts does, unless it
tells more than texts. -/
lemma alike_control (hE : E.Alike) (b : Control) (hb : .control b ∉ telling)
    {argv argv' : List Ref} (h : SameAll W argv argv') :
    AlikeObjectFree W SameResult (b.run E argv) (b.run E argv') :=
  match b with
  | .eval => alike_eval hE h
  | .catch => alike_catchSignal hE h
  | .upeval => alike_upeval hE h
  | .time => absurd (by decide) hb
  | .if => alike_ifChain hE (sameAll_tail h)
  | .while => alike_loopWhile hE h
  | .foreach => alike_foreach hE h

end Builtin

end CommandScript
