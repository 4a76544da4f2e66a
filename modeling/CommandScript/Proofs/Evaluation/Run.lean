import CommandScript.Interp.Evaluate
import CommandScript.Proofs.Value.Growth

/-!
# What evaluation may do to an interpreter

An evaluation changes an interpreter in a few ways only: it makes values, gives the variables of
the top frame values, defines and renames commands, keeps what is known of an error, writes output,
reads the clocks.
Three more are *nested*: a procedure call puts a frame on the stack and takes it off when it is
over; evaluating a value as a script goes one level deeper and comes back; and evaluation at another
level sets frames aside and puts them back. What happens in between is an evaluation again. Some of
this takes a built-in command of its own: links come from `global` alone, and only `upeval` goes to
another level.

The relation `Interp.Run` says so once, for the built-in commands that are at hand. A computation is
*traced* if it keeps to it wherever no other built-in commands are at hand, and the rules here
derive that of a computation from its parts. Where a computation does not return (the program is to
end, an argument is not there, or time has run out), a nested change may be left half done; then
nothing is said but that no value was lost.

## Main definitions

* `Interp.Within` — the built-in commands at hand are among some.
* `Interp.Run` — how an evaluation that returns may change an interpreter.
* `EvalM.TracedFrom`, `EvalM.Traced` — the outcome, or every outcome, keeps to it.

## Main results

* `Interp.Run.within` — evaluation brings no built-in command back that is not at hand.
* `EvalM.Traced.bind`, `EvalM.Traced.observe`, `EvalM.Traced.lift`, `EvalM.Traced.liftConv` —
  computations made of others.
* `EvalM.tracedFrom_nested` — a nested change.
-/

set_option autoImplicit false

namespace CommandScript

/-! ## Commands at hand -/

/-- If the command is a built-in one, it is among `A`. -/
def Command.Among {κ : Type} (A : Builtin → Prop) (command : Command κ) : Prop :=
  ∀ b, command = .builtin b → A b

/-- The built-in commands that an interpreter has at hand, by name or for values of a type, are
among `A`. -/
structure Interp.Within {κ : Type} (A : Builtin → Prop) (s : Interp κ) : Prop where
  /-- What a name stands for. -/
  byName : ∀ name command, s.context.commands.find? name = some command → command.Among A
  /-- What is found for a type. -/
  byType : ∀ tag command, (s.context.typeCommands.resolve tag).1 = some command →
    command.Among A

/-- All built-in commands are among all built-in commands. -/
lemma Interp.Within.all {κ : Type} (s : Interp κ) : s.Within fun _ => True :=
  ⟨fun _ _ _ _ _ => trivial, fun _ _ _ _ _ => trivial⟩

/-- What is found for a type after another one was found was found for one of the two before. -/
lemma TypeCommands.resolve_resolve {α : Type} (t : TypeCommands α) (tag tag' : TypeTag) :
    ((t.resolve tag').2.resolve tag).1 = (t.resolve tag).1 ∨
      ((t.resolve tag').2.resolve tag).1 = (t.resolve tag').1 := by
  cases hfound : t.found.find? tag'.name with
  | some command => simp [resolve, hfound]
  | none =>
    cases hbest : best tag' t.entries with
    | none => simp [resolve, hfound, hbest]
    | some e =>
      by_cases hname : tag.name = tag'.name
      · simp [resolve, hfound, hbest, Table.find?_insert, hname]
      · left
        simp only [resolve, hfound, hbest, Table.find?_insert, if_neg hname]
        split
        · rfl
        · split
          · rfl
          · rfl

/-! ## Runs -/

/-- How an evaluation that returns may change an interpreter, where the built-in commands at hand
are among `A`. -/
inductive Interp.Run {κ : Type} (A : Builtin → Prop) : Interp κ → Interp κ → Prop
  /-- Nothing happens. -/
  | refl (s : Interp κ) : Run A s s
  /-- One thing happens after another. -/
  | trans {s t u : Interp κ} (h : Run A s t) (h' : Run A t u) : Run A s u
  /-- Values are made, or used in another form. -/
  | values {v v' : Store} {c : Context κ} (h : v.Grown v') : Run A ⟨v, c⟩ ⟨v', c⟩
  /-- A variable gets a value. -/
  | set {v : Store} {c : Context κ} {scopes : ScopeStack} (name : String) (r : Ref)
    (h : c.scopes.set name r (-1) = .ok scopes) : Run A ⟨v, c⟩ ⟨v, { c with scopes }⟩
  /-- A variable is removed. -/
  | unset {v : Store} {c : Context κ} {scopes : ScopeStack} (name : String)
    (h : c.scopes.unset name (-1) = .ok scopes) : Run A ⟨v, c⟩ ⟨v, { c with scopes }⟩
  /-- A name is linked to the global variable. -/
  | link {v : Store} {c : Context κ} (name : String) (hA : A (.plain .global)) :
    Run A ⟨v, c⟩ ⟨v, { c with scopes := c.scopes.linkGlobal name }⟩
  /-- A procedure is defined. -/
  | define {v : Store} {c : Context κ} (name : String) (p : Procedure) :
    Run A ⟨v, c⟩ ⟨v, { c with commands := Registry.add c.commands name (.procedure p) }⟩
  /-- A command gets another name instead of its name. -/
  | rename {v : Store} {c : Context κ} {commands : Registry (Command κ)} (old new : String)
    (h : Registry.rename c.commands old new = .ok commands) : Run A ⟨v, c⟩ ⟨v, { c with commands }⟩
  /-- A command gets another name besides its name. -/
  | addAlias {v : Store} {c : Context κ} {commands : Registry (Command κ)} (old new : String)
    (h : Registry.addAlias c.commands old new = .ok commands) :
    Run A ⟨v, c⟩ ⟨v, { c with commands }⟩
  /-- The command for values of a type is found. -/
  | resolve {v : Store} {c : Context κ} (tag : TypeTag) :
    Run A ⟨v, c⟩ ⟨v, { c with typeCommands := (c.typeCommands.resolve tag).2 }⟩
  /-- An error is noted. -/
  | note {v : Store} {c : Context κ} (errorStack : ErrorStack) :
    Run A ⟨v, c⟩ ⟨v, { c with errorStack }⟩
  /-- Something is written. -/
  | write {v : Store} {c : Context κ} (output console : String) :
    Run A ⟨v, c⟩ ⟨v, { c with output, console }⟩
  /-- The clocks are read. -/
  | tick {v : Store} {c : Context κ} : Run A ⟨v, c⟩ ⟨v, { c with platform := c.platform.tick }⟩
  /-- A procedure is called: it has a frame of its own. -/
  | call {v : Store} {c : Context κ} {t : Interp κ}
    (h : Run A ⟨v, { c with scopes := c.scopes.push }⟩ t) :
    Run A ⟨v, c⟩ ⟨t.values, { t.context with scopes := t.context.scopes.pop.2 }⟩
  /-- A value is evaluated as a script: one level deeper. -/
  | nest {v : Store} {c : Context κ} {t : Interp κ}
    (h : Run A ⟨v, { c with level := c.level + 1 }⟩ t) :
    Run A ⟨v, c⟩ ⟨t.values, { t.context with level := t.context.level - 1 }⟩
  /-- A script is evaluated at another level: the frames above are not there meanwhile. -/
  | upeval {v : Store} {c : Context κ} {t : Interp κ} {level : Int} {place : Nat}
    (hA : A (.control .upeval)) (hplace : c.scopes.evalPlace? level = .ok place)
    (h : Run A ⟨v, { c with scopes := (c.scopes.popMany [] (c.scopes.depth - 1 - place)).2 }⟩ t) :
    Run A ⟨v, c⟩ ⟨t.values, { t.context with
      scopes := t.context.scopes.pushMany
        (c.scopes.popMany [] (c.scopes.depth - 1 - place)).1 }⟩

open Interp (Run)

/-- No value is lost. -/
lemma Interp.Run.grown {κ : Type} {A : Builtin → Prop} {s t : Interp κ} (h : Run A s t) :
    s.values.Grown t.values := by
  induction h with
  | trans _ _ ih ih' => exact ih.trans ih'
  | values h => exact h
  | call _ ih => exact ih
  | nest _ ih => exact ih
  | upeval _ _ _ ih => exact ih
  | _ => exact .refl _

namespace Registry

variable {α : Type} {P : α → Prop} {commands commands' : Registry α}

/-- A name that is bound anew stands for the command, all others for what they stood for. -/
lemma forall_of_add {command : α} (hc : P command)
    (h : ∀ name c, commands.find? name = some c → P c) (new : String) :
    ∀ name c, (Registry.add commands new command).find? name = some c → P c := by
  intro name c hfind
  rw [Registry.add, Table.find?_insert] at hfind
  split at hfind
  · cases hfind
    exact hc
  · exact h name c hfind

/-- Another name for a command is a name for a command that had one. -/
lemma forall_of_addAlias {old new : String}
    (halias : Registry.addAlias commands old new = .ok commands')
    (h : ∀ name c, commands.find? name = some c → P c) :
    ∀ name c, commands'.find? name = some c → P c := by
  unfold Registry.addAlias at halias
  split at halias
  · cases halias
  next command hold =>
    cases halias
    exact forall_of_add (h old command hold) h new

/-- A command that is moved to another name had a name. -/
lemma forall_of_rename {old new : String}
    (hrename : Registry.rename commands old new = .ok commands')
    (h : ∀ name c, commands.find? name = some c → P c) :
    ∀ name c, commands'.find? name = some c → P c := by
  unfold Registry.rename at hrename
  split at hrename
  · cases hrename
  next command hold =>
    cases hrename
    have hadd := forall_of_add (h old command hold) h new
    split
    · exact h
    · intro name c hfind
      rw [Registry.remove, Table.find?_erase] at hfind
      split at hfind
      · cases hfind
      · exact hadd name c hfind

end Registry

/-- **Evaluation brings no built-in command back that is not at hand**: what is defined is a
procedure, and other names for commands, as well as answers for types, are for commands that were at
hand before. -/
lemma Interp.Run.within {κ : Type} {A : Builtin → Prop} {s t : Interp κ} (h : Run A s t)
    (hs : s.Within A) : t.Within A := by
  induction h with
  | refl s => exact hs
  | trans _ _ ih ih' => exact ih' (ih hs)
  | define name p =>
    have hp : (Command.procedure p : Command κ).Among A := fun _ h => nomatch h
    exact ⟨Registry.forall_of_add hp hs.byName name, hs.byType⟩
  | rename old new h => exact ⟨Registry.forall_of_rename h hs.byName, hs.byType⟩
  | addAlias old new h => exact ⟨Registry.forall_of_addAlias h hs.byName, hs.byType⟩
  | @resolve v c tag' =>
    refine ⟨hs.byName, fun tag command hfound => ?_⟩
    obtain hsame | hsame := c.typeCommands.resolve_resolve tag tag'
    · exact hs.byType tag command (hsame ▸ hfound)
    · exact hs.byType tag' command (hsame ▸ hfound)
  | call _ ih =>
    have ht := ih ⟨hs.byName, hs.byType⟩
    exact ⟨ht.byName, ht.byType⟩
  | nest _ ih =>
    have ht := ih ⟨hs.byName, hs.byType⟩
    exact ⟨ht.byName, ht.byType⟩
  | upeval _ _ _ ih =>
    have ht := ih ⟨hs.byName, hs.byType⟩
    exact ⟨ht.byName, ht.byType⟩
  | _ => exact ⟨hs.byName, hs.byType⟩

namespace EvalM

variable {κ α β : Type} {A : Builtin → Prop}

/-- What comes second goes on with the result of the first. -/
lemma bind_of_ok {m : EvalM κ α} {f : α → EvalM κ β} {s t : Interp κ} {a : α}
    (h : m s = .ok a t) : (m >>= f) s = f a t := by
  change EStateM.bind m f s = _
  unfold EStateM.bind
  rw [h]

/-- If the first stops without a result, there is no second. -/
lemma bind_of_error {m : EvalM κ α} {f : α → EvalM κ β} {s t : Interp κ} {e : Stop}
    (h : m s = .error e t) : (m >>= f) s = .error e t := by
  change EStateM.bind m f s = _
  unfold EStateM.bind
  rw [h]

/-- An outcome of a computation that started with `s`, where the built-in commands at hand are among
`A`: if the computation returned, with a result or with an exception, it kept to `Interp.Run`. -/
def TracedFrom (A : Builtin → Prop) (s : Interp κ) (o : EStateM.Result Stop (Interp κ) α) : Prop :=
  s.Within A → match o with
    | .ok _ t => Run A s t
    | .error (.raised _) t => Run A s t
    | .error _ t => s.values.Grown t.values

/-- The computation keeps to `Interp.Run` wherever it starts. -/
def Traced (A : Builtin → Prop) (m : EvalM κ α) : Prop :=
  ∀ s, TracedFrom A s (m s)

/-! ## Outcomes -/

/-- A run may go before what a computation does. -/
lemma TracedFrom.trans {s t : Interp κ} {o : EStateM.Result Stop (Interp κ) α}
    (h : s.Within A → Run A s t) (h' : TracedFrom A t o) : TracedFrom A s o := by
  intro hs
  have ht := h' ((h hs).within hs)
  split at ht
  · exact (h hs).trans ht
  · exact (h hs).trans ht
  · exact (h hs).grown.trans ht

/-- Whatever the outcome, no value is lost. -/
lemma TracedFrom.grown {s : Interp κ} {o : EStateM.Result Stop (Interp κ) α}
    (h : TracedFrom A s o) (hs : s.Within A) : s.values.Grown (finalState o).values := by
  have ho := h hs
  split at ho
  · exact ho.grown
  · exact ho.grown
  · exact ho

/-! ## Computations made of others -/

/-- A result that is there already takes no step. -/
lemma Traced.pure (a : α) : Traced A (Pure.pure a : EvalM κ α) :=
  fun s _ => Run.refl s

/-- One thing after another, where the first has had a result. -/
lemma Traced.bindOf {m : EvalM κ α} {f : α → EvalM κ β} (hm : Traced A m)
    (hf : ∀ a s t, m s = .ok a t → Traced A (f a)) : Traced A (m >>= f) := by
  intro s
  have hs := hm s
  cases h : m s with
  | ok a t =>
    rw [h] at hs
    rw [bind_of_ok h]
    exact (hf a s t h t).trans hs
  | error e t =>
    rw [h] at hs
    rw [bind_of_error h]
    cases e with
    | raised e => exact hs
    | exited status => exact hs
    | fault => exact hs
    | diverged => exact hs

/-- One thing after another, whatever comes of the first. -/
lemma Traced.bind {m : EvalM κ α} {f : α → EvalM κ β} (hm : Traced A m)
    (hf : ∀ a, Traced A (f a)) : Traced A (m >>= f) :=
  hm.bindOf fun a _ _ _ => hf a

/-- Making an exception a result changes nothing. -/
lemma Traced.observe {m : EvalM κ α} (hm : Traced A m) : Traced A (observe m) := by
  intro s
  have hs := hm s
  unfold EvalM.observe
  cases h : m s with
  | ok a t =>
    rw [h] at hs
    exact hs
  | error e t =>
    rw [h] at hs
    cases e with
    | raised e => exact hs
    | exited status => exact hs
    | fault => exact hs
    | diverged => exact hs

/-- Work on values leads from store to store. -/
lemma Traced.lift {m : StoreM α} (hm : m.Grows) : Traced A (liftM m : EvalM κ α) :=
  fun s _ => Run.values (hm s.values)

/-- Raising the error for a failure makes a value. -/
lemma traced_fail (f : Failure) : Traced A (fail f : EvalM κ α) :=
  fun s _ => Run.values (Exception.grows_ofFailure f s.values)

/-- A conversion leaves the context alone, and the failure of one is raised. -/
lemma liftConv_apply (m : ConvM α) (v : Store) (c : Context κ) :
    (liftM m : EvalM κ α) ⟨v, c⟩ =
      match m v with
      | .ok a values => .ok a ⟨values, c⟩
      | .error f values => fail f ⟨values, c⟩ :=
  rfl

/-- So does a conversion, whether it comes out or not. -/
lemma Traced.liftConv {m : ConvM α} (hm : m.Grows) : Traced A (liftM m : EvalM κ α) := by
  intro s
  obtain ⟨v, c⟩ := s
  have hv := hm v
  rw [liftConv_apply]
  cases h : m v with
  | ok a values =>
    rw [h] at hv
    exact fun _ => Run.values hv
  | error f values =>
    rw [h] at hv
    exact (traced_fail f _).trans fun _ => Run.values hv

/-! ## Looking and failing -/

/-- A look at the context, which shows what commands are at hand by name. -/
lemma Traced.getContextBind {f : Context κ → EvalM κ β}
    (hf : ∀ c, (∀ name command, c.commands.find? name = some command → command.Among A) →
      Traced A (f c)) : Traced A (getContext >>= f) :=
  fun s hs => hf s.context hs.byName s hs

/-- A look for the command for a type, which finds one of those at hand. -/
lemma Traced.typeCommandBind {f : Option (Command κ) → EvalM κ β} (tag : TypeTag)
    (hf : ∀ found, (∀ command, found = some command → command.Among A) → Traced A (f found)) :
    Traced A (typeCommand tag >>= f) :=
  fun ⟨_, c⟩ hs => (hf (c.typeCommands.resolve tag).1 (hs.byType tag) _).trans
    (fun _ => Run.resolve tag) hs

/-- To raise an exception takes no step. -/
lemma traced_raise (e : Exception) : Traced A (raise e : EvalM κ α) :=
  fun s _ => Run.refl s

/-- Stopping without returning changes nothing. -/
lemma traced_throw (e : Stop) : Traced A (throw e : EvalM κ α) := by
  intro s _
  cases e with
  | raised e => exact Run.refl s
  | exited status => exact Store.Grown.refl _
  | fault => exact Store.Grown.refl _
  | diverged => exact Store.Grown.refl _

/-! ## Changes -/

/-- **A nested change**: the context is changed by `enter` before a computation and by `leave` after
it, whether it raises an exception or not. -/
lemma tracedFrom_nested {v : Store} {c : Context κ} {m : EvalM κ α}
    {k : Except Exception α → EvalM κ β} (enter leave : Context κ → Context κ)
    (hin : Interp.Within A ⟨v, c⟩ → Interp.Within A ⟨v, enter c⟩) (hm : Traced A m)
    (hk : ∀ x, Traced A (k x))
    (h : ∀ t : Interp κ, Run A ⟨v, enter c⟩ t → Run A ⟨v, c⟩ ⟨t.values, leave t.context⟩) :
    TracedFrom A ⟨v, c⟩ ((do
      modifyContext enter
      let result ← EvalM.observe m
      modifyContext leave
      k result) ⟨v, c⟩) := by
  intro hc
  have hs := hm ⟨v, enter c⟩ (hin hc)
  revert hc
  change TracedFrom A _ (EStateM.bind (EvalM.observe m)
    (fun result => modifyContext leave >>= fun _ => k result) ⟨v, enter c⟩)
  unfold EStateM.bind EvalM.observe
  cases ho : m ⟨v, enter c⟩ with
  | ok a t =>
    rw [ho] at hs
    exact (hk (.ok a) ⟨t.values, leave t.context⟩).trans fun _ => h t hs
  | error e t =>
    rw [ho] at hs
    cases e with
    | raised e => exact (hk (.error e) ⟨t.values, leave t.context⟩).trans fun _ => h t hs
    | exited status => exact fun _ => hs
    | fault => exact fun _ => hs
    | diverged => exact fun _ => hs

end EvalM

end CommandScript
