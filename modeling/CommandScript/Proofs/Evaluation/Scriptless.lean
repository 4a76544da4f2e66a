import CommandScript.Proofs.Evaluation.Run
import CommandScript.Proofs.Value.KnownTexts

/-!
# What runs no script

Most of what an interpreter does involves no script: it looks up a variable, converts a value, adds
numbers, reads the clocks. All of this is put together from a few kinds of steps, and a step tells
what it may do: it may raise an exception, or it may change the context. One thing more counts for
what is put together: whether an exception may come after a change, so that a change is left half
done. To end the program takes a command of its own.

The predicate `EvalM.Scriptless` says that a computation is put together so, and what it may do.
There is no step that uses an argument that is not there: a command gets as many words as it asks
for. Here is the one walk through all commands that run no script, and through the parts of the
others in which they do not run any yet or any more. What holds of every step and of one thing after
another then holds of all of them by one induction; the modules that follow draw such conclusions.

## Main definitions

* `Effects` — what a computation may do, `Effects.andThen` — one thing after another.
* `EvalM.Scriptless` — the computation runs no script, and may do no more than that.
* `Builtin.Plain.effects` — what each command that runs no script may do.
* `Builtin.loopValue`, `Builtin.timeCount`, `Builtin.answer` — parts of the other commands.

## Main results

* `Arity.length_of_between` and others — what a check of the number of words says.
* `Procedure.scriptless_bind` — the binding of parameters.
* `Builtin.scriptless_plain` — **the walk through the commands that run no script**.
-/

set_option autoImplicit false

namespace CommandScript

open Interp (Run)

/-! ## Numbers of words

The first word of a command is its name, and not counted among its arguments. -/

namespace Arity

variable {α : Type} {min max : Nat} {words : List α}

/-- A number of words that passes the check lies between the bounds. -/
lemma length_of_between (hwords : words ≠ [])
    (h : (between min max).check (words.length - 1) = .ok ()) :
    min < words.length ∧ words.length ≤ max + 1 := by
  have hpos := List.length_pos_iff.2 hwords
  simp only [check, between] at h
  split at h
  · cases h
  · split at h
    · cases h
    · omega

/-- It is the number itself, if that is asked for. -/
lemma length_of_exactly {count : Nat} (hwords : words ≠ [])
    (h : (exactly count).check (words.length - 1) = .ok ()) : words.length = count + 1 := by
  have hbounds := length_of_between hwords h
  omega

/-- It is no less than the least. -/
lemma length_of_atLeast (hwords : words ≠ [])
    (h : (atLeast min).check (words.length - 1) = .ok ()) : min < words.length := by
  have hpos := List.length_pos_iff.2 hwords
  simp only [check, atLeast] at h
  split at h
  · cases h
  · omega

end Arity

/-! ## What a computation may do -/

/-- What a computation may do, besides working with values and yielding a result. -/
structure Effects where
  /-- It may raise an exception. -/
  raises : Bool := false
  /-- It may change the context. -/
  changes : Bool := false
  /-- It may change the context and raise an exception after that. -/
  raisesLate : Bool := false
deriving DecidableEq

namespace Effects

/-- Nothing at all. -/
def nothing : Effects := {}

/-- It may fail. -/
def failing : Effects := { raises := true }

/-- It may change the context, and does not fail. -/
def changing : Effects := { changes := true }

/-- It may fail, or it may change the context. -/
def atomic : Effects := { raises := true, changes := true }

/-- It may fail when it has made a part of its changes. -/
def piecemeal : Effects := { raises := true, changes := true, raisesLate := true }

/-- One thing after another. If the first has changed the context when the second raises an
exception, the exception comes late. -/
def andThen (d e : Effects) : Effects where
  raises := d.raises || e.raises
  changes := d.changes || e.changes
  raisesLate := d.raisesLate || e.raisesLate || (d.changes && e.raises)

/-- The first may do no more than the second. -/
instance : LE Effects where
  le d e := (d.raises → e.raises) ∧ (d.changes → e.changes) ∧ (d.raisesLate → e.raisesLate)

instance (d e : Effects) : Decidable (d ≤ e) :=
  inferInstanceAs (Decidable (_ ∧ _))

/-- To do nothing is to do no more than anything. -/
lemma nothing_le (e : Effects) : nothing ≤ e :=
  ⟨nofun, nofun, nofun⟩

end Effects

/-! ## Computations that run no script -/

namespace EvalM

variable {κ α β : Type}

/-- Replaces the context, or raises the error for a failure. -/
def update (f : Context κ → Except Failure (Context κ)) : EvalM κ Unit := fun ⟨v, c⟩ =>
  match f c with
  | .ok c => .ok () ⟨v, c⟩
  | .error e => fail e ⟨v, c⟩

/-- A change of the frames is a change of the context, or the failure. -/
lemma updateScopes_eq (f : ScopeStack → Except Failure ScopeStack) :
    (updateScopes f : EvalM κ Unit) =
      update fun c => (f c.scopes).map fun scopes => { c with scopes } := by
  funext ⟨v, c⟩
  change (attempt (f c.scopes) >>= _ : EvalM κ Unit) ⟨v, c⟩ = _
  unfold update
  dsimp only
  cases f c.scopes with
  | ok scopes => rfl
  | error e => rfl

/-- So is a change of the table of commands. -/
lemma updateCommands_eq (f : Registry (Command κ) → Except Failure (Registry (Command κ))) :
    (updateCommands f : EvalM κ Unit) =
      update fun c => (f c.commands).map fun commands => { c with commands } := by
  funext ⟨v, c⟩
  change (attempt (f c.commands) >>= _ : EvalM κ Unit) ⟨v, c⟩ = _
  unfold update
  dsimp only
  cases f c.commands with
  | ok commands => rfl
  | error e => rfl

/-- The computation runs no script and may do no more than is said. What it changes, it changes in
the ways of evaluation, where the built-in commands at hand are among `A`. -/
inductive Scriptless (A : Builtin → Prop) : {α : Type} → Effects → EvalM κ α → Prop
  /-- There is a result already. -/
  | pure {α : Type} (a : α) : Scriptless A .nothing (Pure.pure a)
  /-- Something is done with values. -/
  | values {α : Type} {m : StoreM α} (hgrows : m.Grows) (hretains : m.Retains) :
    Scriptless A .nothing (liftM m)
  /-- A value is converted, or is no such value. -/
  | convert {α : Type} {m : ConvM α} (hgrows : m.Grows) (hretains : m.Retains) :
    Scriptless A .failing (liftM m)
  /-- A look at the state. -/
  | look {α : Type} (f : Interp κ → α) : Scriptless A .nothing fun s => .ok (f s) s
  /-- The error for a failure is raised. -/
  | fail {α : Type} (f : Failure) : Scriptless A .failing (EvalM.fail f : EvalM κ α)
  /-- An exception is made and raised. It has unwound through no command yet. -/
  | raise {α : Type} {m : StoreM Exception} (hgrows : m.Grows) (hretains : m.Retains)
    (hnew : ∀ v, (m v).1.frames = []) :
    Scriptless A .failing ((liftM m : EvalM κ Exception) >>= EvalM.raise : EvalM κ α)
  /-- The program is to end. -/
  | exit {α : Type} (hA : A (.plain .exit)) (status : Int32) :
    Scriptless A .nothing (throw (.exited status) : EvalM κ α)
  /-- The context is changed. -/
  | change {α : Type} (f : Context κ → α × Context κ) (h : ∀ v c, Run A ⟨v, c⟩ ⟨v, (f c).2⟩) :
    Scriptless A .changing fun ⟨v, c⟩ => .ok (f c).1 ⟨v, (f c).2⟩
  /-- The context is replaced, unless that fails. -/
  | update (f : Context κ → Except Failure (Context κ))
    (h : ∀ v c c', f c = .ok c' → Run A ⟨v, c⟩ ⟨v, c'⟩) : Scriptless A .atomic (EvalM.update f)
  /-- One thing after another, where the first has had a result. -/
  | bindOf {α β : Type} {d e : Effects} {m : EvalM κ α} {f : α → EvalM κ β}
    (hm : Scriptless A d m) (hf : ∀ a s t, m s = .ok a t → Scriptless A e (f a)) :
    Scriptless A (d.andThen e) (m >>= f)
  /-- It may be said of a computation that it may do more. -/
  | weaken {α : Type} {d e : Effects} {m : EvalM κ α} (hm : Scriptless A d m) (h : d ≤ e) :
    Scriptless A e m

variable {A : Builtin → Prop} {d e : Effects}

/-- One thing after another, whatever comes of the first. -/
lemma Scriptless.bind {m : EvalM κ α} {f : α → EvalM κ β} (hm : Scriptless A d m)
    (hf : ∀ a, Scriptless A e (f a)) : Scriptless A (d.andThen e) (m >>= f) :=
  .bindOf hm fun a _ _ _ => hf a

/-- What has a result already may be said to do anything. -/
lemma Scriptless.idle (a : α) : Scriptless A e (Pure.pure a : EvalM κ α) :=
  (Scriptless.pure a).weaken e.nothing_le

/-- The same for all elements of a list. -/
lemma Scriptless.forM {f : α → EvalM κ PUnit} (hf : ∀ a, Scriptless A e (f a))
    (he : e.andThen e ≤ e) (as : List α) : Scriptless A e (as.forM f) := by
  induction as with
  | nil => exact .idle _
  | cons a as ih => exact ((hf a).bind fun _ => ih).weaken he

/-! ### Looking and failing -/

/-- A look at the context. -/
lemma scriptless_getContext : Scriptless A .nothing (getContext : EvalM κ (Context κ)) :=
  .look fun s => s.context

/-- The text of a value is no failure. -/
lemma scriptless_text (r : Ref) : Scriptless A .nothing (text r : EvalM κ String) :=
  .values (Store.grows_text r) (Store.retains_text r)

/-- A value is made. -/
lemma scriptless_alloc {c : Cell} (hc : c.rep.Filled) :
    Scriptless A .nothing (liftM (Store.alloc c) : EvalM κ Ref) :=
  .values (Store.grows_alloc hc) (Store.adds_alloc c).retains

/-- An attempt changes nothing. -/
lemma scriptless_attempt (x : Except Failure α) :
    Scriptless A .failing (attempt x : EvalM κ α) := by
  cases x with
  | ok a => exact .idle a
  | error f => exact .fail f

/-- An exception that is there already is raised as one that is made. -/
lemma scriptless_raise {x : Exception} (hnew : x.frames = []) :
    Scriptless A .failing (raise x : EvalM κ α) :=
  .raise (.pure x) (.pure x) fun _ => hnew

/-! ### Arguments -/

/-- The words that there are may be looked up. -/
lemma scriptless_arg {argv : List Ref} {place : Nat} (h : place < argv.length) :
    Scriptless A .nothing (arg argv place : EvalM κ Ref) := by
  unfold arg
  rw [List.getElem?_eq_getElem h]
  exact .pure _

/-- The number of words is checked before anything else. -/
lemma scriptless_checkArgs {names : Nat} {argv : List Ref} (h : names ≤ argv.length)
    (least most : Nat) (form : String) :
    Scriptless A .failing (checkArgs names argv least most form : EvalM κ Unit) := by
  have hname : Scriptless A .nothing (liftM (Store.listText (argv.take names)) : EvalM κ String) :=
    .values (Store.grows_listText _) (Store.adds_listText _).retains
  unfold checkArgs
  split
  · rw [if_neg (by omega)]
    exact hname.bind fun _ => .fail _
  · exact .idle _

/-- A check that is passed says that there are as many words as it asks for. -/
lemma least_le_of_checkArgs {names : Nat} {argv : List Ref} {least most : Nat} {form : String}
    {s t : Interp κ} (h : checkArgs names argv least most form s = .ok () t) :
    least ≤ argv.length := by
  unfold checkArgs at h
  split at h
  · split at h
    · cases h
    · cases h
  · omega

/-- A subcommand that there is not is a failure. -/
lemma scriptless_subcommand {argv : List Ref} {place : Nat} (h : place ≤ argv.length)
    (ensemble : List (String × α)) :
    Scriptless A .failing (subcommand argv place ensemble : EvalM κ α) := by
  refine Scriptless.bindOf (e := .failing) (scriptless_checkArgs h _ _ _) fun _ s t hcheck => ?_
  exact (scriptless_arg (least_le_of_checkArgs hcheck)).bind fun r =>
    (scriptless_text r).bind fun _ => scriptless_attempt _

/-! ### Variables -/

/-- A variable that there is not is a failure. -/
lemma scriptless_getVar (name : String) (level : Int) :
    Scriptless A .failing (getVar name level : EvalM κ Ref) :=
  scriptless_getContext.bind fun _ => scriptless_attempt _

/-- To ask whether a variable is there is a look at the context. -/
lemma scriptless_hasVar (name : String) (level : Int) :
    Scriptless A .nothing (hasVar name level : EvalM κ Bool) :=
  scriptless_getContext.bind fun _ => .pure _

/-- A level that there is not is a failure. -/
lemma scriptless_varNames (level : Int) :
    Scriptless A .failing (varNames level : EvalM κ (List String)) :=
  scriptless_getContext.bind fun _ => scriptless_attempt _

/-- A change of the scopes that an evaluation may make, or a failure. -/
lemma scriptless_updateScopes {f : ScopeStack → Except Failure ScopeStack}
    (h : ∀ (v : Store) (c : Context κ) scopes, f c.scopes = .ok scopes →
      Run A ⟨v, c⟩ ⟨v, { c with scopes }⟩) :
    Scriptless A .atomic (updateScopes f : EvalM κ Unit) := by
  rw [updateScopes_eq]
  refine .update _ fun v c c' hc => ?_
  cases hf : f c.scopes with
  | error e =>
    rw [hf] at hc
    cases hc
  | ok scopes =>
    rw [hf] at hc
    cases hc
    exact h v c scopes hf

/-- A change of the context that an evaluation may make. -/
lemma scriptless_modifyContext (f : Context κ → Context κ) (h : ∀ v c, Run A ⟨v, c⟩ ⟨v, f c⟩) :
    Scriptless A .changing (modifyContext f : EvalM κ Unit) :=
  .change (fun c => ((), f c)) h

/-- The level is looked up, and the value copied, before the variable is changed. -/
lemma scriptless_setVar (name : String) (r : Ref) :
    Scriptless A .atomic (setVar name r (-1) : EvalM κ Ref) := by
  have hown : Scriptless A .nothing (liftM (Store.own r) : EvalM κ Ref) :=
    .values (Store.grows_own r) (Store.enlarges_own r).adds.retains
  have hset : ∀ r, Scriptless A .atomic (updateScopes fun s => s.set name r (-1) : EvalM κ Unit) :=
    fun r => scriptless_updateScopes fun _ _ _ h => .set name r h
  exact scriptless_getContext.bind fun _ => (scriptless_attempt _).bind fun _ =>
    hown.bind fun r => (hset r).bind fun _ => .pure r

/-- The level and the variable are looked up before the variable is removed. -/
lemma scriptless_unsetVar (name : String) :
    Scriptless A .atomic (unsetVar name (-1) : EvalM κ Unit) :=
  scriptless_updateScopes fun _ _ _ h => .unset name h

/-- To make a link does not fail. -/
lemma scriptless_linkGlobal (hA : A (.plain .global)) (name : String) :
    Scriptless A .changing (linkGlobal name : EvalM κ Unit) :=
  scriptless_modifyContext _ fun _ _ => .link name hA

/-! ### Commands, the clocks and output -/

/-- A change of the table of commands that an evaluation may make, or a failure. -/
lemma scriptless_updateCommands
    {f : Registry (Command κ) → Except Failure (Registry (Command κ))}
    (h : ∀ (v : Store) (c : Context κ) commands, f c.commands = .ok commands →
      Run A ⟨v, c⟩ ⟨v, { c with commands }⟩) :
    Scriptless A .atomic (updateCommands f : EvalM κ Unit) := by
  rw [updateCommands_eq]
  refine .update _ fun v c c' hc => ?_
  cases hf : f c.commands with
  | error e =>
    rw [hf] at hc
    cases hc
  | ok commands =>
    rw [hf] at hc
    cases hc
    exact h v c commands hf

/-- To define a procedure does not fail. -/
lemma scriptless_addProcedure (name : String) (p : Procedure) :
    Scriptless A .changing (addCommand name (.procedure p) : EvalM κ Unit) :=
  scriptless_modifyContext _ fun _ _ => .define name p

/-- A procedure that there is not is a failure. -/
lemma scriptless_procedureNamed (name : String) :
    Scriptless A .failing (procedureNamed name : EvalM κ Procedure) := by
  refine Scriptless.bind (e := .failing) scriptless_getContext fun c => ?_
  split
  · exact .idle _
  · exact .fail _

/-- To ask for the names of procedures is a look at the context. -/
lemma scriptless_procedureNames :
    Scriptless A .nothing (procedureNames : EvalM κ (List String)) :=
  scriptless_getContext.bind fun _ => .pure _

/-- The command that is found for a type is kept for the next time. -/
lemma scriptless_typeCommand (tag : TypeTag) :
    Scriptless A .changing (typeCommand tag : EvalM κ (Option (Command κ))) :=
  .change (fun c => ((c.typeCommands.resolve tag).1,
    { c with typeCommands := (c.typeCommands.resolve tag).2 })) fun _ _ => .resolve tag

/-- A reading of the clocks takes it from those that are still to come. -/
lemma scriptless_readClock : Scriptless A .changing (readClock : EvalM κ Reading) :=
  .change (fun c => (c.platform.clock 0, { c with platform := c.platform.tick })) fun _ _ => .tick

/-- A line goes to the output that is attached, or to the console. -/
lemma scriptless_writeLine (line : String) :
    Scriptless A .changing (writeLine line : EvalM κ Unit) := by
  refine scriptless_modifyContext _ fun v c => ?_
  split
  · exact .write _ c.console
  · exact .write c.output _

end EvalM

open EvalM

/-! ## Procedures -/

namespace Procedure

variable {κ : Type} {A : Builtin → Prop}

/-- Parameters are bound one after another, until one has no argument. -/
lemma scriptless_bindParams (params : List Parameter) (args : List Ref) :
    Scriptless A .piecemeal (bindParams params args : EvalM κ Bool) := by
  induction params generalizing args with
  | nil => exact .idle _
  | cons p rest ih =>
    unfold bindParams
    split
    · refine Scriptless.weaken (d := .atomic) ?_ (by decide)
      exact (scriptless_alloc (by trivial)).bind fun r => (scriptless_setVar _ r).bind fun _ =>
        .pure _
    · split
      · exact ((scriptless_setVar _ _).bind fun _ => ih _).weaken (by decide)
      · split
        · exact ((scriptless_setVar _ _).bind fun _ => ih _).weaken (by decide)
        · exact .idle _

/-- Some parameters are bound already when there are not arguments enough. -/
lemma scriptless_bind (p : Procedure) {argv : List Ref} (hargv : argv ≠ []) :
    Scriptless A .piecemeal (p.bind argv : EvalM κ Unit) := by
  obtain ⟨name, args, rfl⟩ := List.exists_cons_of_ne_nil hargv
  refine Scriptless.bind (e := .failing) (scriptless_bindParams p.params args) fun fits => ?_
  split
  · exact .idle _
  · exact (scriptless_text name).bind fun _ => .fail _

end Procedure

/-! ## Commands that run no script -/

namespace Builtin

/-- What a command that runs no script may do. None of them may fail when it has changed
something. -/
def Plain.effects : Plain → Effects
  | .set | .unset | .proc | .rename | .addAlias | .lappend | .incr | .clock => .atomic
  | .global | .puts => .changing
  | .exit | .exists | .copy | .intro | .return | .throw | .break | .continue | .classof | .hasclass
  | .list | .llength | .lindex | .sort | .hash | .hget | .hkeys | .add | .subtract | .multiply
  | .less | .greater | .equal | .collect | .getProperty | .hasProperty | .freeMemory
  | .totalMemory => .failing

variable {κ : Type} {A : Builtin → Prop}

/-- There may be no result. -/
lemma scriptless_done : Scriptless A .nothing (done : EvalM κ (Option Ref)) :=
  .pure none

/-- A new value may be the result. -/
lemma scriptless_result {m : StoreM Ref} (hgrows : m.Grows) (hretains : m.Retains) :
    Scriptless A .nothing (result m : EvalM κ (Option Ref)) :=
  (Scriptless.values hgrows hretains).bind fun _ => .pure _

/-- A new text as a result. -/
lemma scriptless_newText (text : String) :
    Scriptless A .nothing (result (Store.ofText text) : EvalM κ (Option Ref)) :=
  scriptless_result (Store.grows_alloc trivial) (Store.adds_alloc _).retains

/-- A new integer as a result. -/
lemma scriptless_newInt (n : Int32) :
    Scriptless A .nothing (result (Store.ofInt n) : EvalM κ (Option Ref)) :=
  scriptless_result (Store.grows_alloc trivial) (Store.adds_alloc _).retains

/-- A new truth value as a result. -/
lemma scriptless_newBool (b : Bool) :
    Scriptless A .nothing (result (Store.ofBool b) : EvalM κ (Option Ref)) :=
  scriptless_newInt _

/-- A new long integer as a result. -/
lemma scriptless_newLong (n : Int64) :
    Scriptless A .nothing (result (Store.ofLong n) : EvalM κ (Option Ref)) :=
  scriptless_result (Store.grows_alloc trivial) (Store.adds_alloc _).retains

/-- A new list as a result. -/
lemma scriptless_newList (items : List Ref) :
    Scriptless A .nothing (result (Store.ofList items) : EvalM κ (Option Ref)) :=
  scriptless_result (Store.grows_alloc trivial) (Store.adds_alloc _).retains

/-- A new hash as a result. -/
lemma scriptless_newHash (entries : Table Ref) :
    Scriptless A .nothing (result (Store.ofHash entries) : EvalM κ (Option Ref)) :=
  scriptless_result (Store.grows_alloc trivial) (Store.adds_alloc _).retains

/-- So may a list of texts. -/
lemma scriptless_textsResult (texts : List String) :
    Scriptless A .nothing (textsResult texts : EvalM κ (Option Ref)) :=
  scriptless_result ((Store.grows_ofTexts texts).bind fun _ => Store.grows_alloc trivial)
    ((Store.adds_ofTexts texts).bind fun _ => Store.adds_alloc _).retains

/-- To give a variable a value is the last thing that many commands do. -/
lemma scriptless_setResult (name : String) (r : Ref) : Scriptless A .atomic (do
    let r ← setVar name r (-1)
    return some r : EvalM κ (Option Ref)) :=
  (scriptless_setVar name r).bind fun _ => .pure _

/-! ### Variables, commands and types -/

variable {argv : List Ref}

/-- `set` does one thing or the other: it looks up, or it changes. -/
lemma scriptless_set (h : argv.length = 2 ∨ argv.length = 3) :
    Scriptless A .atomic (Builtin.set argv : EvalM κ (Option Ref)) := by
  obtain h | h := h
  · obtain ⟨_, name, rfl⟩ := List.length_eq_two.1 h
    exact ((scriptless_text name).bind fun _ => (scriptless_getVar _ _).bind fun _ =>
      .pure _).weaken (by decide)
  · obtain ⟨_, name, value, rfl⟩ := List.length_eq_three.1 h
    exact (scriptless_text name).bind fun name => scriptless_setResult name value

/-- `unset` fails or changes. -/
lemma scriptless_unset (h : argv.length = 2) :
    Scriptless A .atomic (Builtin.unset argv : EvalM κ (Option Ref)) := by
  obtain ⟨_, name, rfl⟩ := List.length_eq_two.1 h
  exact (scriptless_text name).bind fun name => (scriptless_unsetVar name).bind fun _ =>
    scriptless_done

/-- `exists` tells what there is. -/
lemma scriptless_isSet (h : argv.length = 2) :
    Scriptless A .nothing (isSet argv : EvalM κ (Option Ref)) := by
  obtain ⟨_, name, rfl⟩ := List.length_eq_two.1 h
  exact (scriptless_text name).bind fun _ => (scriptless_hasVar _ _).bind fun _ =>
    scriptless_newBool _

/-- `copy` makes a value. -/
lemma scriptless_copy (h : argv.length = 2) :
    Scriptless A .nothing (Builtin.copy argv : EvalM κ (Option Ref)) := by
  obtain ⟨_, value, rfl⟩ := List.length_eq_two.1 h
  exact scriptless_result (Store.grows_copy value) (Store.enlarges_copy value).adds.retains

/-- Names are linked one after another, and no link can fail. -/
lemma scriptless_global (hA : A (.plain .global)) (h : argv ≠ []) :
    Scriptless A .changing (Builtin.global argv : EvalM κ (Option Ref)) := by
  obtain ⟨_, names, rfl⟩ := List.exists_cons_of_ne_nil h
  have hlink : Scriptless A .changing (names.forM fun name => do
      linkGlobal (← text name) : EvalM κ PUnit) :=
    .forM (fun name => (scriptless_text name).bind fun _ => scriptless_linkGlobal hA _)
      (by decide) names
  exact hlink.bind fun _ => scriptless_done

/-- What cannot be read as parameters is a failure. -/
lemma scriptless_define (spec body : Ref) : Scriptless A .failing
    (liftM (Procedure.define spec body) : EvalM κ Procedure) :=
  .convert (Procedure.grows_define spec body) (Procedure.retains_define spec body)

/-- `proc` defines a procedure when it has been read. -/
lemma scriptless_proc (h : argv.length = 3 ∨ argv.length = 4) :
    Scriptless A .atomic (Builtin.proc argv : EvalM κ (Option Ref)) := by
  match argv, h with
  | [_, spec, body], _ =>
    exact ((scriptless_define spec body).bind fun p => scriptless_result (Store.grows_ofObject _)
      (Store.adds_ofObject _).retains).weaken (by decide)
  | [_, name, spec, body], _ =>
    exact (scriptless_text name).bind fun name => (scriptless_define spec body).bind fun p =>
      (scriptless_addProcedure name p).bind fun _ => scriptless_done

/-- `rename` fails or changes. -/
lemma scriptless_rename (h : argv.length = 3) :
    Scriptless A .atomic (Builtin.rename argv : EvalM κ (Option Ref)) := by
  obtain ⟨_, old, new, rfl⟩ := List.length_eq_three.1 h
  exact (scriptless_text old).bind fun old => (scriptless_text new).bind fun new =>
    (scriptless_updateCommands fun _ _ _ h => .rename old new h).bind fun _ => scriptless_done

/-- `alias` fails or changes. -/
lemma scriptless_addAlias (h : argv.length = 3) :
    Scriptless A .atomic (Builtin.addAlias argv : EvalM κ (Option Ref)) := by
  obtain ⟨_, old, new, rfl⟩ := List.length_eq_three.1 h
  exact (scriptless_text old).bind fun old => (scriptless_text new).bind fun new =>
    (scriptless_updateCommands fun _ _ _ h => .addAlias old new h).bind fun _ => scriptless_done

/-- A value that is no integer is a failure. -/
lemma scriptless_asInt (r : Ref) :
    Scriptless A .failing (liftM (Store.asInt r) : EvalM κ Int32) :=
  .convert (Store.grows_asInt r) (Store.retains_asInt r)

/-- Each topic checks the number of words that it uses. -/
lemma scriptless_intro (h : 2 ≤ argv.length) :
    Scriptless A .failing (Builtin.intro argv : EvalM κ (Option Ref)) := by
  refine Scriptless.bind (e := .failing) (scriptless_subcommand (by omega) topics) fun topic => ?_
  cases topic with
  | commands =>
    exact (scriptless_checkArgs h _ _ _).bind fun _ => scriptless_getContext.bind fun _ =>
      scriptless_textsResult _
  | errorStack =>
    exact (scriptless_checkArgs h _ _ _).bind fun _ => scriptless_getContext.bind fun _ =>
      scriptless_newList _
  | procCode =>
    refine Scriptless.bindOf (e := .failing) (scriptless_checkArgs h _ _ _) fun _ s t hcheck => ?_
    exact (scriptless_arg (least_le_of_checkArgs hcheck)).bind fun r =>
      (scriptless_text r).bind fun name => (scriptless_procedureNamed name).bind fun _ => .pure _
  | procs =>
    exact (scriptless_checkArgs h _ _ _).bind fun _ => scriptless_procedureNames.bind fun _ =>
      scriptless_textsResult _
  | vars =>
    refine Scriptless.bind (e := .failing) (scriptless_checkArgs h _ _ _) fun _ => ?_
    split
    · exact (scriptless_asInt _).bind fun level => (scriptless_varNames _).bind fun _ =>
        scriptless_textsResult _
    · exact (scriptless_varNames _).bind fun _ => scriptless_textsResult _

/-- `classof` tells what there is. -/
lemma scriptless_classof (h : argv.length = 2) :
    Scriptless A .nothing (classof argv : EvalM κ (Option Ref)) := by
  obtain ⟨_, value, rfl⟩ := List.length_eq_two.1 h
  exact (Scriptless.look fun s => s.values.typeOf value).bind fun _ => scriptless_newText _

/-- `hasclass` tells what there is. -/
lemma scriptless_hasclass (h : argv.length = 2) :
    Scriptless A .nothing (hasclass argv : EvalM κ (Option Ref)) := by
  obtain ⟨_, name, rfl⟩ := List.length_eq_two.1 h
  exact (scriptless_text name).bind fun name => scriptless_getContext.bind fun _ =>
    scriptless_newBool _

/-! ### Signals and errors -/

/-- `return` raises its exception. -/
lemma scriptless_returnValue (h : argv.length = 1 ∨ argv.length = 2) :
    Scriptless A .failing (returnValue argv : EvalM κ (Option Ref)) := by
  obtain h | h := h
  · obtain ⟨_, rfl⟩ := List.length_eq_one_iff.1 h
    exact (scriptless_alloc (by trivial)).bind fun _ => scriptless_raise rfl
  · obtain ⟨_, value, rfl⟩ := List.length_eq_two.1 h
    exact scriptless_raise rfl

/-- What is thrown is new, even if its value has been thrown before. -/
lemma scriptless_thrown (message : Ref) (label : Option String) : Scriptless A .failing (do
    let e ← (Exception.thrown message label : StoreM Exception)
    raise e : EvalM κ (Option Ref)) :=
  .raise (Exception.grows_thrown message label) (Exception.adds_thrown message label).retains
    fun _ => rfl

/-- `throw` raises its exception. -/
lemma scriptless_throwMessage (h : argv.length = 2 ∨ argv.length = 3) :
    Scriptless A .failing (throwMessage argv : EvalM κ (Option Ref)) := by
  obtain h | h := h
  · obtain ⟨_, message, rfl⟩ := List.length_eq_two.1 h
    exact scriptless_thrown message none
  · obtain ⟨_, message, label, rfl⟩ := List.length_eq_three.1 h
    exact (scriptless_text label).bind fun label => scriptless_thrown message (some label)

/-- A signal is raised. -/
lemma scriptless_signal (code : Code) :
    Scriptless A .failing (signal code : EvalM κ (Option Ref)) :=
  .raise (Exception.grows_signal code) (Exception.adds_signal code).retains fun _ => rfl

/-! ### Lists and hashes -/

/-- A value that is no list is a failure. -/
lemma scriptless_asStack (r : Ref) :
    Scriptless A .failing (liftM (Store.asStack r) : EvalM κ (Stack Ref)) :=
  .convert (Store.grows_asStack r) (Store.retains_asStack r)

/-- So it is when its elements are wanted. -/
lemma scriptless_asList (r : Ref) :
    Scriptless A .failing (liftM (Store.asList r) : EvalM κ (List Ref)) :=
  .convert (Store.grows_asList r) (Store.retains_asList r)

/-- A value that is no hash is a failure. -/
lemma scriptless_asHash (r : Ref) :
    Scriptless A .failing (liftM (Store.asHash r) : EvalM κ (Table Ref)) :=
  .convert (Store.grows_asHash r) (Store.retains_asHash r)

/-- What is not there is the empty text. -/
lemma scriptless_orBlank (r : Option Ref) :
    Scriptless A .nothing (orBlank r : EvalM κ (Option Ref)) := by
  cases r with
  | some r => exact .pure _
  | none => exact scriptless_newText _

/-- `list` makes a value. -/
lemma scriptless_list (h : argv ≠ []) :
    Scriptless A .nothing (list argv : EvalM κ (Option Ref)) := by
  obtain ⟨_, items, rfl⟩ := List.exists_cons_of_ne_nil h
  exact scriptless_newList items

/-- `llength` fails or tells. -/
lemma scriptless_llength (h : argv.length = 2) :
    Scriptless A .failing (llength argv : EvalM κ (Option Ref)) := by
  obtain ⟨_, value, rfl⟩ := List.length_eq_two.1 h
  exact (scriptless_asStack value).bind fun _ => scriptless_newInt _

/-- `lindex` fails or finds. -/
lemma scriptless_lindex (h : argv.length = 3) :
    Scriptless A .failing (lindex argv : EvalM κ (Option Ref)) := by
  obtain ⟨_, value, place, rfl⟩ := List.length_eq_three.1 h
  exact (scriptless_asStack value).bind fun _ => (scriptless_asInt place).bind fun _ =>
    scriptless_orBlank _

/-- A value that is no list is found out before the variable is changed. -/
lemma scriptless_lappend (h : 2 ≤ argv.length) :
    Scriptless A .atomic (lappend argv : EvalM κ (Option Ref)) := by
  match argv, h with
  | _ :: name :: added, _ =>
    have hstore : ∀ (name : String) (items : Stack Ref), Scriptless A .atomic (do
        let r ← (Store.ofStack (items.pushAll added) : StoreM Ref)
        let r ← setVar name r (-1)
        return some r : EvalM κ (Option Ref)) := fun name _ =>
      (scriptless_alloc (by trivial)).bind fun r => scriptless_setResult name r
    refine Scriptless.bind (e := .atomic) (scriptless_text name) fun name => ?_
    refine Scriptless.bind (e := .atomic) (scriptless_hasVar name _) fun known => ?_
    dsimp only
    split
    · exact (scriptless_getVar _ _).bind fun r => (scriptless_asStack r).bind fun _ =>
        hstore name _
    · exact (Scriptless.pure _).bind fun _ => hstore name _

/-- Putting elements into their order fixes their texts and does not fail. -/
lemma scriptless_sorted (items : List Ref) :
    Scriptless A .nothing (liftM (sorted items) : EvalM κ (List Ref)) := by
  unfold sorted
  split
  · exact .values (.pure _) (.pure _)
  · exact .values (.pure _) (.pure _)
  · exact .values ((Store.grows_texts _).bind fun _ => .pure _)
      ((Store.adds_texts _).retains.bind fun _ => .pure _)

/-- `sort` fails, or makes a value. -/
lemma scriptless_sort (h : argv.length = 2) :
    Scriptless A .failing (sort argv : EvalM κ (Option Ref)) := by
  obtain ⟨_, value, rfl⟩ := List.length_eq_two.1 h
  exact (scriptless_asList value).bind fun items => (scriptless_sorted items).bind fun _ =>
    scriptless_newList _

/-- `hash` fails, or makes a value. -/
lemma scriptless_hash (h : argv.length = 2) :
    Scriptless A .failing (Builtin.hash argv : EvalM κ (Option Ref)) := by
  obtain ⟨_, value, rfl⟩ := List.length_eq_two.1 h
  exact (scriptless_asHash value).bind fun entries => scriptless_newHash entries

/-- `hget` fails or finds. -/
lemma scriptless_hget (h : argv.length = 3) :
    Scriptless A .failing (hget argv : EvalM κ (Option Ref)) := by
  obtain ⟨_, value, key, rfl⟩ := List.length_eq_three.1 h
  exact (scriptless_asHash value).bind fun _ => (scriptless_text key).bind fun _ =>
    scriptless_orBlank _

/-- `hkeys` fails, or makes a value. -/
lemma scriptless_hkeys (h : argv.length = 2) :
    Scriptless A .failing (hkeys argv : EvalM κ (Option Ref)) := by
  obtain ⟨_, value, rfl⟩ := List.length_eq_two.1 h
  exact (scriptless_asHash value).bind fun _ => scriptless_textsResult _

/-! ### Integers -/

/-- One of many values that is no integer is a failure. -/
lemma scriptless_ints (rs : List Ref) :
    Scriptless A .failing (liftM (ints rs) : EvalM κ (List Int32)) :=
  .convert (.mapM Store.grows_asInt rs) (.mapM Store.retains_asInt rs)

/-- What is no integer is found out before the variable is changed. -/
lemma scriptless_incr (h : 2 ≤ argv.length) :
    Scriptless A .atomic (incr argv : EvalM κ (Option Ref)) := by
  have hstore : ∀ (name : String) (n : Int32), Scriptless A .atomic (do
      let r ← (Store.ofInt n : StoreM Ref)
      let r ← setVar name r (-1)
      return some r : EvalM κ (Option Ref)) := fun name _ =>
    (scriptless_alloc (by trivial)).bind fun r => scriptless_setResult name r
  have hadd : ∀ step : Int32, Scriptless A .atomic (do
      let name ← text (← arg argv 1)
      let current ← (Store.asInt (← getVar name (-1)) : ConvM Int32)
      let r ← (Store.ofInt (current + step) : StoreM Ref)
      let r ← setVar name r (-1)
      return some r : EvalM κ (Option Ref)) := fun step =>
    (scriptless_arg h).bind fun r => (scriptless_text r).bind fun name =>
      (scriptless_getVar _ _).bind fun r => (scriptless_asInt r).bind fun n => hstore name _
  unfold incr
  dsimp only
  split
  · exact (scriptless_asInt _).bind hadd
  · exact (Scriptless.pure _).bind hadd

/-- `+` fails, or makes a value. -/
lemma scriptless_add (h : argv ≠ []) :
    Scriptless A .failing (Builtin.add argv : EvalM κ (Option Ref)) := by
  obtain ⟨_, args, rfl⟩ := List.exists_cons_of_ne_nil h
  exact (scriptless_ints args).bind fun _ => scriptless_newInt _

/-- `-` fails, or makes a value. -/
lemma scriptless_subtract (h : 2 ≤ argv.length) :
    Scriptless A .failing (subtract argv : EvalM κ (Option Ref)) := by
  match argv, h with
  | [_, r], _ => exact (scriptless_asInt r).bind fun _ => scriptless_newInt _
  | _ :: first :: second :: rest, _ =>
    exact (scriptless_asInt first).bind fun _ => (scriptless_ints _).bind fun _ =>
      scriptless_newInt _

/-- `*` fails, or makes a value. -/
lemma scriptless_multiply (h : argv ≠ []) :
    Scriptless A .failing (multiply argv : EvalM κ (Option Ref)) := by
  obtain ⟨_, args, rfl⟩ := List.exists_cons_of_ne_nil h
  exact (scriptless_ints args).bind fun _ => scriptless_newInt _

/-- A comparison fails or tells. -/
lemma scriptless_compare (holds : Int32 → Int32 → Bool) (h : argv.length = 3) :
    Scriptless A .failing (compare holds argv : EvalM κ (Option Ref)) := by
  obtain ⟨_, a, b, rfl⟩ := List.length_eq_three.1 h
  exact (scriptless_asInt a).bind fun _ => (scriptless_asInt b).bind fun _ =>
    scriptless_newBool _

/-! ### The machine -/

/-- `puts` writes its line and does not fail. -/
lemma scriptless_puts (h : argv.length = 2) :
    Scriptless A .changing (puts argv : EvalM κ (Option Ref)) := by
  obtain ⟨_, value, rfl⟩ := List.length_eq_two.1 h
  exact (scriptless_text value).bind fun _ => (scriptless_writeLine _).bind fun _ =>
    scriptless_done

/-- The program ends, unless what is to be its status is no integer. -/
lemma scriptless_exit (hA : A (.plain .exit)) (argv : List Ref) :
    Scriptless A .failing (Builtin.exit argv : EvalM κ (Option Ref)) := by
  unfold Builtin.exit
  split
  · exact (scriptless_asInt _).bind fun status => .exit hA status
  · exact (Scriptless.exit hA 0).weaken (Effects.nothing_le _)

/-- The clocks are read when nothing can fail any more. -/
lemma scriptless_clock (h : 2 ≤ argv.length) :
    Scriptless A .atomic (clock argv : EvalM κ (Option Ref)) := by
  have htold : ∀ tells : Reading → Int64, Scriptless A .atomic (do
      checkArgs 2 argv 2 2 ""
      result (Store.ofLong (tells (← readClock))) : EvalM κ (Option Ref)) := fun _ =>
    (scriptless_checkArgs h _ _ _).bind fun _ => scriptless_readClock.bind fun _ =>
      scriptless_newLong _
  refine Scriptless.bind (e := .atomic) (scriptless_arg h) fun r => ?_
  refine Scriptless.bind (e := .atomic) (scriptless_text r) fun topic => ?_
  split
  · exact htold Reading.seconds
  · exact htold Reading.millis
  · have hformat : ∀ millis : Int64, Scriptless A .nothing (do
        result (Store.ofText (Calendar.momentOf millis.toInt).write) : EvalM κ (Option Ref)) :=
      fun _ => scriptless_newText _
    dsimp only
    -- the moment is given, or the clock is read
    split
    next r _ =>
      have hlong : Scriptless A .failing (liftM (Store.asLong r) : EvalM κ Int64) :=
        .convert (Store.grows_asLong r) (Store.retains_asLong r)
      exact (hlong.bind hformat).weaken (by decide)
    next =>
      refine .weaken (d := .changing) ?_ (by decide)
      exact scriptless_readClock.bind fun t => (Scriptless.pure t.millis).bind hformat
  · exact (Scriptless.fail _).weaken (by decide)

/-- `system.getproperty` tells what there is. -/
lemma scriptless_getProperty (h : argv.length = 2) :
    Scriptless A .nothing (getProperty argv : EvalM κ (Option Ref)) := by
  obtain ⟨_, name, rfl⟩ := List.length_eq_two.1 h
  exact (scriptless_text name).bind fun name => scriptless_getContext.bind fun _ =>
    scriptless_newText _

/-- `system.hasproperty` tells what there is. -/
lemma scriptless_hasProperty (h : argv.length = 2) :
    Scriptless A .nothing (hasProperty argv : EvalM κ (Option Ref)) := by
  obtain ⟨_, name, rfl⟩ := List.length_eq_two.1 h
  exact (scriptless_text name).bind fun name => scriptless_getContext.bind fun _ =>
    scriptless_newBool _

/-- So does `runtime.freememory`. -/
lemma scriptless_freeMemory : Scriptless A .nothing (freeMemory : EvalM κ (Option Ref)) :=
  scriptless_getContext.bind fun _ => scriptless_newLong _

/-- So does `runtime.totalmemory`. -/
lemma scriptless_totalMemory : Scriptless A .nothing (totalMemory : EvalM κ (Option Ref)) :=
  scriptless_getContext.bind fun _ => scriptless_newLong _

/-- **Every command that runs no script is put together from steps that run none**, where it is at
hand and the number of its arguments is right, and may do no more than is said of it. -/
theorem scriptless_plain (b : Plain) (hb : A (.plain b)) (hargv : argv ≠ [])
    (h : b.arity.check (argv.length - 1) = .ok ()) :
    Scriptless A b.effects (b.run argv : EvalM κ (Option Ref)) := by
  cases b with
  | set =>
    have hlength := Arity.length_of_between hargv h
    exact scriptless_set (by omega)
  | unset => exact scriptless_unset (Arity.length_of_exactly hargv h)
  | «exists» =>
    exact (scriptless_isSet (Arity.length_of_exactly hargv h)).weaken (Effects.nothing_le _)
  | copy => exact (scriptless_copy (Arity.length_of_exactly hargv h)).weaken (Effects.nothing_le _)
  | proc =>
    have hlength := Arity.length_of_between hargv h
    exact scriptless_proc (by omega)
  | rename => exact scriptless_rename (Arity.length_of_exactly hargv h)
  | addAlias => exact scriptless_addAlias (Arity.length_of_exactly hargv h)
  | global => exact scriptless_global hb hargv
  | intro => exact scriptless_intro (Arity.length_of_atLeast hargv h)
  | «return» =>
    have hlength := Arity.length_of_between hargv h
    exact scriptless_returnValue (by omega)
  | throw =>
    have hlength := Arity.length_of_between hargv h
    exact scriptless_throwMessage (by omega)
  | «break» => exact scriptless_signal .broke
  | «continue» => exact scriptless_signal .continued
  | classof =>
    exact (scriptless_classof (Arity.length_of_exactly hargv h)).weaken (Effects.nothing_le _)
  | hasclass =>
    exact (scriptless_hasclass (Arity.length_of_exactly hargv h)).weaken (Effects.nothing_le _)
  | list => exact (scriptless_list hargv).weaken (Effects.nothing_le _)
  | llength => exact scriptless_llength (Arity.length_of_exactly hargv h)
  | lindex => exact scriptless_lindex (Arity.length_of_exactly hargv h)
  | lappend => exact scriptless_lappend (Arity.length_of_atLeast hargv h)
  | sort => exact scriptless_sort (Arity.length_of_exactly hargv h)
  | hash => exact scriptless_hash (Arity.length_of_exactly hargv h)
  | hget => exact scriptless_hget (Arity.length_of_exactly hargv h)
  | hkeys => exact scriptless_hkeys (Arity.length_of_exactly hargv h)
  | incr => exact scriptless_incr (Arity.length_of_between hargv h).1
  | add => exact scriptless_add hargv
  | subtract => exact scriptless_subtract (Arity.length_of_atLeast hargv h)
  | multiply => exact scriptless_multiply hargv
  | less => exact scriptless_compare _ (Arity.length_of_exactly hargv h)
  | greater => exact scriptless_compare _ (Arity.length_of_exactly hargv h)
  | equal => exact scriptless_compare _ (Arity.length_of_exactly hargv h)
  | puts => exact scriptless_puts (Arity.length_of_exactly hargv h)
  | exit => exact scriptless_exit hb argv
  | clock => exact scriptless_clock (Arity.length_of_between hargv h).1
  | collect => exact scriptless_done.weaken (Effects.nothing_le _)
  | getProperty =>
    exact (scriptless_getProperty (Arity.length_of_exactly hargv h)).weaken (Effects.nothing_le _)
  | hasProperty =>
    exact (scriptless_hasProperty (Arity.length_of_exactly hargv h)).weaken (Effects.nothing_le _)
  | freeMemory => exact scriptless_freeMemory.weaken (Effects.nothing_le _)
  | totalMemory => exact scriptless_totalMemory.weaken (Effects.nothing_le _)

/-! ### Parts of commands that run scripts -/

/-- The value that a variable of a loop gets: the next one, or the empty text if there is none. -/
def loopValue (items : List Ref) : EvalM κ Ref :=
  match items with
  | r :: _ => pure r
  | [] => (Store.ofText "" : StoreM Ref)

/-- The first variable is bound first. -/
lemma bindLoopVars_cons (var : Ref) (vars items : List Ref) :
    (bindLoopVars (var :: vars) items : EvalM κ Unit) = (do
      let r ← loopValue items
      let _ ← setVar (← text var) r (-1)
      bindLoopVars vars items.tail) := by
  cases items with
  | nil => rfl
  | cons r items => rfl

/-- The next item is there, or an empty value is made. -/
lemma scriptless_loopValue (items : List Ref) :
    Scriptless A .nothing (loopValue items : EvalM κ Ref) := by
  unfold loopValue
  split
  · exact .pure _
  · exact scriptless_alloc trivial

/-- The variables of a loop are set one after another. -/
lemma scriptless_bindLoopVars (vars items : List Ref) :
    Scriptless A .piecemeal (bindLoopVars vars items : EvalM κ Unit) := by
  induction vars generalizing items with
  | nil => exact .idle _
  | cons var vars ih =>
    rw [bindLoopVars_cons]
    exact (scriptless_loopValue items).bind fun r => (scriptless_text var).bind fun name =>
      (scriptless_setVar name r).bind fun _ => ih _

/-- How often `time` runs its script: once, unless a word says how often. -/
def timeCount (argv : List Ref) : EvalM κ Int32 :=
  match argv[2]? with
  | some r => (Store.asInt r : ConvM Int32)
  | none => pure 1

/-- How often a script is to be run is looked up before it is run. -/
lemma scriptless_timeCount (argv : List Ref) :
    Scriptless A .failing (timeCount argv : EvalM κ Int32) := by
  unfold timeCount
  split
  · exact scriptless_asInt _
  · exact .idle _

/-- The last thing that `catch` does: its variable, if there is one, gets the value, and the result
is the status. -/
def answer (argv : List Ref) (caught : Int32 × Ref) : EvalM κ (Option Ref) :=
  match argv with
  | [_, _, name] => do
    let _ ← setVar (← text name) caught.2 (-1)
    result (Store.ofInt caught.1)
  | _ => result (Store.ofInt caught.1)

/-- What has been caught may be given to a variable. -/
lemma scriptless_answer (argv : List Ref) (caught : Int32 × Ref) :
    Scriptless A .atomic (answer argv caught : EvalM κ (Option Ref)) := by
  unfold answer
  split
  · exact (scriptless_text _).bind fun name => (scriptless_setVar name _).bind fun _ =>
      scriptless_newInt _
  · exact (scriptless_newInt _).weaken (Effects.nothing_le _)

end Builtin

end CommandScript
