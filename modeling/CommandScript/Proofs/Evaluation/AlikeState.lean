import CommandScript.Proofs.Evaluation.Alike

/-!
# Access to variables and commands does alike

Variables, the table of commands, the arguments of a call and the parameters of a procedure are used
by the texts of values only. So access to them does alike in interpreters that agree on texts.

## Main definitions

* `SameResult` — results of commands that agree.
* `Procedure.SameParameter` — parameters that agree.

## Main results

* `EvalM.alike_arg`, `EvalM.alike_checkArgs`, `EvalM.alike_subcommand` — arguments.
* `EvalM.alike_getVar`, `EvalM.alike_setVar` and others — variables.
* `EvalM.alike_renameCommand`, `EvalM.alike_procedureNamed` and others — commands.
* `Procedure.alike_bind` — the parameters of a procedure.
-/

set_option autoImplicit false

namespace CommandScript

/-- The results have the same text, or there is none. -/
abbrev SameResult (W : World) : Option Ref → Option Ref → Prop :=
  Option.Rel (Same W)

/-- What stands at a place agrees, if it is there. -/
lemma SameAll.getElem? {W : World} {rs qs : List Ref} (h : SameAll W rs qs) (place : Nat) :
    SameResult W rs[place]? qs[place]? := by
  induction h generalizing place with
  | nil => exact .none
  | cons hr _ ih =>
    cases place with
    | zero => exact .some hr
    | succ place => exact ih place

namespace EvalM

variable {α : Type} {W : World}

/-! ## Arguments -/

/-- Arguments that agree are looked up alike. -/
lemma alike_arg {argv argv' : List Ref} (h : SameAll W argv argv') (place : Nat) :
    Alike W Same (arg argv place) (arg argv' place) := by
  have hplace := h.getElem? place
  unfold arg
  generalize argv[place]? = r at hplace ⊢
  generalize argv'[place]? = q at hplace ⊢
  cases hplace with
  | none => exact alike_fault
  | some hr => exact .pure hr

/-- The texts of lists that agree are the same. -/
lemma alike_listText {rs qs : List Ref} (h : SameAll W rs qs) :
    Alike W Equal (liftM (Store.listText rs)) (liftM (Store.listText qs)) := by
  obtain ⟨ts, hrs, hqs⟩ := sameAll_iff_both.1 h
  exact .liftExactly (Store.denotes_listText hrs) (Store.denotes_listText hqs)

/-- The numbers of arguments are checked alike. -/
lemma alike_checkArgs {argv argv' : List Ref} (h : SameAll W argv argv')
    (names least most : Nat) (form : String) :
    Alike W Equal (checkArgs names argv least most form)
      (checkArgs names argv' least most form) := by
  have hlength : argv.length = argv'.length := List.Forall₂.length_eq h
  have husage : Alike W (Equal (α := Unit))
      (do
        let name ← (Store.listText (argv.take names) : StoreM String)
        fail (.usage (name ++ " " ++ form)))
      (do
        let name ← (Store.listText (argv'.take names) : StoreM String)
        fail (.usage (name ++ " " ++ form))) := by
    refine (alike_listText (List.forall₂_take names h)).bindEqual fun _ name _ => ?_
    exact alike_fail _
  unfold checkArgs
  rw [hlength]
  split
  · split
    · exact fun _ _ _ => .fault
    · exact husage
  · exact .pure rfl

/-- The same subcommand is found for texts that agree. -/
lemma alike_subcommand {argv argv' : List Ref} (h : SameAll W argv argv') (place : Nat)
    (ensemble : List (String × α)) :
    Alike W Equal (subcommand argv place ensemble) (subcommand argv' place ensemble) := by
  refine (alike_checkArgs h _ _ _ _).bind fun W₁ _ _ h₁ _ => ?_
  refine (alike_arg (h.mono h₁) place).bind fun W₂ _ _ _ hr => ?_
  refine (alike_text hr).bindEqual fun W₃ name _ => ?_
  exact alike_attempt_self _

/-! ## Variables -/

/-- Frames that agree are changed alike, or the change fails for the same reason. -/
lemma alike_updateScopes {f g : ScopeStack → Except Failure ScopeStack}
    (h : ∀ s t, SameScopes W s t → SameExcept (SameScopes W) (f s) (g t)) :
    Alike W Equal (updateScopes f) (updateScopes g) := by
  rintro ⟨v, c⟩ ⟨w, d⟩ hst
  have hscopes := h _ _ hst.context.scopes
  change AlikeOutcome W Equal
    ((attempt (f c.scopes) >>= fun scopes => modifyContext fun c => { c with scopes }) ⟨v, c⟩)
    ((attempt (g d.scopes) >>= fun scopes => modifyContext fun c => { c with scopes }) ⟨w, d⟩)
  generalize f c.scopes = x at hscopes ⊢
  generalize g d.scopes = y at hscopes ⊢
  cases hscopes with
  | ok hscopes =>
    exact .ok (le_refl W) ⟨hst.left, hst.right, { hst.context with scopes := hscopes }⟩ rfl
  | error e => exact alike_fail e _ _ hst

/-- Variables are looked up alike. -/
lemma alike_getVar (name : String) (level : Int) :
    Alike W Same (getVar name level) (getVar name level) :=
  alike_getContext.bind fun _ _ _ _ hc => alike_attempt (hc.scopes.get name level)

/-- Values that agree may be given to a variable. -/
lemma alike_setVar (name : String) {r q : Ref} (h : Same W r q) (level : Int) :
    Alike W Same (setVar name r level) (setVar name q level) := by
  refine alike_getContext.bind fun W₁ c d h₁ hc => ?_
  rw [hc.scopes.place?_eq]
  refine (alike_attempt_self _).bind fun W₂ _ _ h₂ _ => ?_
  obtain ⟨t, hr, hq⟩ := (h.mono h₁).mono h₂
  refine (Alike.lift (Store.denotes_own hr) (Store.denotes_own hq)).bind fun W₃ r q _ hrq => ?_
  refine (alike_updateScopes fun _ _ hs => hs.set name hrq level).bind fun W₄ _ _ h₄ _ => ?_
  exact .pure (Same.mono h₄ hrq)

/-- Variables are removed alike. -/
lemma alike_unsetVar (name : String) (level : Int) :
    Alike W Equal (unsetVar name level) (unsetVar name level) :=
  alike_updateScopes fun _ _ hs => hs.unset name level

/-- They are there alike. -/
lemma alike_hasVar (name : String) (level : Int) :
    Alike W Equal (hasVar name level) (hasVar name level) :=
  alike_getContext.bind fun _ _ _ _ hc => .pure (hc.scopes.has_eq name level)

/-- Links to global variables are made alike. -/
lemma alike_linkGlobal (name : String) : Alike W Equal (linkGlobal name) (linkGlobal name) :=
  alike_modifyContext fun _ _ hc => { hc with scopes := hc.scopes.linkGlobal name }

/-- The same variables have names. -/
lemma alike_varNames (level : Int) : Alike W Equal (varNames level) (varNames level) := by
  refine alike_getContext.bind fun W₁ c d _ hc => ?_
  rw [hc.scopes.names_eq]
  exact alike_attempt_self _

/-! ## Commands and output -/

/-- Procedures that agree may be defined. -/
lemma alike_addProcedure (name : String) {p q : Procedure} (h : SameProcedure W p q) :
    Alike W Equal (addCommand name (.procedure p)) (addCommand name (.procedure q)) :=
  alike_modifyContext fun _ _ hc => { hc with commands := hc.commands.insert name (.procedure h) }

/-- The tables of commands are changed alike, or the change fails for the same reason. -/
lemma alike_updateCommands
    {f : Registry (Command Empty) → Except Failure (Registry (Command Empty))}
    (h : ∀ r r', Table.Related (SameCommand W) r r' →
      SameExcept (Table.Related (SameCommand W)) (f r) (f r')) :
    Alike W Equal (updateCommands f) (updateCommands f) := by
  rintro ⟨v, c⟩ ⟨w, d⟩ hst
  have hcommands := h _ _ hst.context.commands
  change AlikeOutcome W Equal
    ((attempt (f c.commands) >>= fun commands => modifyContext fun c => { c with commands }) ⟨v, c⟩)
    ((attempt (f d.commands) >>= fun commands => modifyContext fun c => { c with commands }) ⟨w, d⟩)
  generalize f c.commands = x at hcommands ⊢
  generalize f d.commands = y at hcommands ⊢
  cases hcommands with
  | ok hcommands =>
    exact .ok (le_refl W) ⟨hst.left, hst.right, { hst.context with commands := hcommands }⟩ rfl
  | error e => exact alike_fail e _ _ hst

/-- A command gets another name on both sides, or on neither. -/
lemma alike_aliasCommand (old new : String) :
    Alike W Equal (aliasCommand old new) (aliasCommand old new) := by
  refine alike_updateCommands fun r r' h => ?_
  have hold := h.find? old
  unfold Registry.addAlias
  generalize r.find? old = c at hold ⊢
  generalize r'.find? old = c' at hold ⊢
  cases hold with
  | none => exact .error _
  | some hc => exact .ok (h.insert new hc)

/-- So it is when a command is renamed. -/
lemma alike_renameCommand (old new : String) :
    Alike W Equal (renameCommand old new) (renameCommand old new) := by
  refine alike_updateCommands fun r r' h => ?_
  have hold := h.find? old
  unfold Registry.rename
  generalize r.find? old = c at hold ⊢
  generalize r'.find? old = c' at hold ⊢
  cases hold with
  | none => exact .error _
  | some hc =>
    dsimp only
    split
    · exact .ok h
    · exact .ok ((h.insert new hc).erase old)

/-- Procedures are found alike. -/
lemma alike_procedureNamed (name : String) :
    Alike W SameProcedure (procedureNamed name) (procedureNamed name) := by
  refine alike_getContext.bind fun W₁ c d _ hc => ?_
  have hname := hc.commands.find? name
  generalize c.commands.find? name = x at hname ⊢
  generalize d.commands.find? name = y at hname ⊢
  cases hname with
  | none => exact alike_fail _
  | some hcommand =>
    cases hcommand with
    | builtin hb => exact alike_fail _
    | procedure hp => exact .pure hp

/-- The procedures have the same names. -/
lemma alike_procedureNames : Alike W Equal procedureNames procedureNames :=
  alike_getContext.bind fun _ _ _ _ hc =>
    .pure (hc.commands.keys_filter_eq fun _ _ h => h.isProcedure_eq)

/-- The same line is written. -/
lemma alike_writeLine (line : String) : Alike W Equal (writeLine line) (writeLine line) := by
  refine alike_modifyContext fun c d hc => ?_
  have hplace : c.aux.find? outputKey = d.aux.find? outputKey := by rw [hc.aux]
  rw [hplace]
  split
  · exact { hc with output := by rw [hc.output] }
  · exact { hc with console := by rw [hc.console] }

end EvalM

open EvalM

/-! ## Procedures -/

namespace Procedure

variable {W : World}

/-- The parameters have the same name and default. -/
structure SameParameter (W : World) (p q : Parameter) : Prop where
  /-- The names. -/
  name : p.name = q.name
  /-- The defaults. -/
  fallback : SameResult W p.fallback q.fallback

/-- Parameters that agree do so when there are more values. -/
lemma SameParameter.mono {W' : World} (hW : W ≤ W') {p q : Parameter} (h : SameParameter W p q) :
    SameParameter W' p q := by
  refine ⟨h.name, ?_⟩
  have hfallback := h.fallback
  generalize p.fallback = x at hfallback ⊢
  generalize q.fallback = y at hfallback ⊢
  cases hfallback with
  | none => exact .none
  | some hr => exact .some (hr.mono hW)

/-- Parameters that stand for the same texts agree. -/
lemma sameParameter_of_both {p q : Parameter} (h : Both HasParameter W p q) :
    SameParameter W p q := by
  obtain ⟨x, hp, hq⟩ := h
  refine ⟨hp.name.trans hq.name.symm, ?_⟩
  have hleft := hp.fallback
  have hright := hq.fallback
  generalize p.fallback = u at hleft ⊢
  generalize q.fallback = v at hright ⊢
  generalize x.2 = t at hleft hright
  cases hleft with
  | none =>
    cases hright
    exact .none
  | some hr =>
    cases hright with
    | some hq => exact .some ⟨_, hr, hq⟩

/-- Procedures with the same texts have the same parameters. -/
lemma params_of_sameProcedure {p q : Procedure} (h : SameProcedure W p q) :
    List.Forall₂ (SameParameter W) p.params q.params := by
  obtain ⟨x, hp, hq⟩ := h
  have hleft := hp.params
  have hright := hq.params
  generalize p.params = ps at hleft ⊢
  generalize q.params = qs at hright ⊢
  generalize x.params = xs at hleft hright
  induction xs generalizing ps qs with
  | nil =>
    cases hleft
    cases hright
    exact .nil
  | cons x xs ih =>
    cases hleft with
    | cons hp hps =>
      cases hright with
      | cons hq hqs => exact .cons (sameParameter_of_both ⟨x, hp, hq⟩) (ih _ _ hps hqs)

/-- Parameters that agree take the rest of the arguments, or neither does. -/
lemma isRest_eq {p q : Parameter} (h : SameParameter W p q) : isRest p = isRest q := by
  unfold isRest
  rw [h.name]

/-- Both have a default, or neither has. -/
lemma isSome_fallback_eq {p q : Parameter} (h : SameParameter W p q) :
    p.fallback.isSome = q.fallback.isSome := by
  have hfallback := h.fallback
  generalize p.fallback = x at hfallback ⊢
  generalize q.fallback = y at hfallback ⊢
  cases hfallback with
  | none => rfl
  | some hr => rfl

/-- The form of a call is the same. -/
lemma formOf_eq {ps qs : List Parameter} (h : List.Forall₂ (SameParameter W) ps qs) :
    formOf ps = formOf qs := by
  induction h with
  | nil => rfl
  | @cons p q ps qs hpq hrest ih =>
    have hname := hpq.name
    have hrest' := isRest_eq hpq
    have hsome := isSome_fallback_eq hpq
    cases hrest with
    | nil =>
      unfold formOf
      rw [hname, hrest', hsome]
    | cons hpq' hrest =>
      unfold formOf
      rw [hname, hsome, ih]

/-- Parameters that agree are bound alike to arguments that agree. -/
lemma alike_bindParams {ps qs : List Parameter} (h : List.Forall₂ (SameParameter W) ps qs)
    {args args' : List Ref} (hargs : SameAll W args args') :
    Alike W Equal (bindParams ps args) (bindParams qs args') := by
  induction ps generalizing W qs args args' with
  | nil =>
    cases h
    cases hargs with
    | nil => exact .pure rfl
    | cons _ _ => exact .pure rfl
  | cons p ps ih =>
    cases h with
    | @cons _ q _ qs hpq hrest =>
      have hempty : ps.isEmpty = qs.isEmpty := by
        cases hrest with
        | nil => rfl
        | cons _ _ => rfl
      unfold bindParams
      rw [hempty, isRest_eq hpq, hpq.name]
      split
      -- the last parameter takes what is left of the arguments, as a list
      · obtain ⟨texts, hleft, hright⟩ := sameAll_iff_both.1 hargs
        refine (Alike.lift (Store.denotes_ofList hleft) (Store.denotes_ofList hright)).bind
          fun W₁ r r' _ hr => ?_
        exact (alike_setVar _ hr _).bind fun _ _ _ _ _ => .pure rfl
      -- any other takes one argument, or its default if none is left
      · cases hargs with
        | cons ha hargs =>
          refine (alike_setVar _ ha _).bind fun W₁ _ _ h₁ _ => ?_
          exact ih (hrest.imp fun _ _ h => h.mono h₁) (SameAll.mono h₁ hargs)
        | nil =>
          have hfallback := hpq.fallback
          dsimp only
          generalize p.fallback = x at hfallback ⊢
          generalize q.fallback = y at hfallback ⊢
          cases hfallback with
          | none => exact .pure rfl
          | some hd =>
            refine (alike_setVar _ hd _).bind fun W₁ _ _ h₁ _ => ?_
            exact ih (hrest.imp fun _ _ h => h.mono h₁) .nil

/-- **The arguments of a call are bound alike**, or the reminder of its form is the same. -/
lemma alike_bind {p q : Procedure} (h : SameProcedure W p q) {argv argv' : List Ref}
    (hargv : SameAll W argv argv') : Alike W Equal (p.bind argv) (q.bind argv') := by
  have hparams := params_of_sameProcedure h
  unfold Procedure.bind
  cases hargv with
  | nil => exact alike_fault
  | cons hname hargs =>
    refine (alike_bindParams hparams hargs).bindEqual fun W₁ fits h₁ => ?_
    split
    · exact .pure rfl
    · refine (alike_text (hname.mono h₁)).bindEqual fun W₂ name _ => ?_
      rw [formOf_eq hparams]
      exact alike_fail _

end Procedure

end CommandScript
