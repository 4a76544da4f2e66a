import CommandScript.Proofs.Evaluation.Scriptless

/-!
# What runs scripts

A command that runs scripts has an engine to evaluate them with, and so has everything around it:
the call of a procedure, a script and its words, the evaluation of a value. All of this is put
together from what runs no script, the evaluations that the engine makes, and what is done about
their outcome. Three things change the state for a while, and only for as long as something nested
lasts: a call, a level of nesting, and evaluation at another level. They are one kind of step here,
a *bracket*.

The predicate `EvalM.Scripted` says that a computation is put together so, and here is the one walk
through all that it holds of. What holds of each step, if it holds of the evaluations of the engine,
then holds of everything up to the evaluation of a value by one induction. The predicate also tells
for what reasons a computation may stop, other than by an exception or because the program ends:
that there is no time left comes of `while` and of reading a script only, and that an argument is
not there only of a command without words.

## Main definitions

* `EvalM.bracket` — a change of the context for as long as a computation lasts.
* `EvalM.Scripted` — the computation runs scripts by way of the engine.
* `Builtin.timed`, `Builtin.caught`, `Command.callObject`, `Interp.release` — parts of evaluation.

## Main results

* `Builtin.scripted_control` — the commands that run scripts.
* `Interp.scripted_runScript`, `Interp.scripted_evalNested` — **the walk through evaluation**.
-/

set_option autoImplicit false

namespace CommandScript

open Interp (Run)

/-! ## Computations that run scripts -/

/-- A context in which something nested starts: the same commands are at hand, the limit of nesting
is the same, and it is no less deep. -/
structure Context.Nested {κ : Type} (c c' : Context κ) : Prop where
  /-- What the names of commands stand for. -/
  commands : c'.commands = c.commands
  /-- The commands for types. -/
  typeCommands : c'.typeCommands = c.typeCommands
  /-- How deep evaluation may be nested. -/
  limit : c'.limit = c.limit
  /-- How deep it is nested. -/
  level : c.level ≤ c'.level

namespace EvalM

variable {κ α β : Type}

/-- What has a result after another has one. -/
lemma ok_of_bind {m : EvalM κ α} {f : α → EvalM κ β} {s u : Interp κ} {b : β}
    (h : (m >>= f) s = .ok b u) : ∃ a t, m s = .ok a t ∧ f a t = .ok b u := by
  cases hm : m s with
  | ok a t =>
    rw [bind_of_ok hm] at h
    exact ⟨a, t, rfl, h⟩
  | error e t =>
    rw [bind_of_error hm] at h
    cases h

/-- A check that does not raise an error has been passed. -/
lemma eq_ok_of_attempt {x : Except Failure α} {s t : Interp κ} {a : α}
    (h : (attempt x : EvalM κ α) s = .ok a t) : x = .ok a := by
  cases x with
  | ok b =>
    cases h
    rfl
  | error f => cases h

/-- A change of the context for as long as a computation lasts. From the context `enter` tells in
which context the computation runs, and what happens to the context when it is over, with a result
or with an exception; or it tells why this is not possible. What comes last is `k`. -/
def bracket (enter : Context κ → Except Failure (Context κ × (Context κ → Context κ)))
    (m : EvalM κ α) (k : Except Exception α → EvalM κ β) : EvalM κ β := fun ⟨v, c⟩ =>
  match enter c with
  | .error f => fail f ⟨v, c⟩
  | .ok (c', leave) => (do
    modifyContext fun _ => c'
    let outcome ← observe m
    modifyContext leave
    k outcome : EvalM κ β) ⟨v, c⟩

/-- The computation runs scripts by way of the engine, and otherwise does what runs none. The
built-in commands at hand are among `A`, and it stops for a reason of `S` only. -/
inductive Scripted [HostCommands κ] (A : Builtin → Prop) (S : Stop → Prop) (E : Engine κ) :
    {α : Type} → EvalM κ α → Prop
  /-- No script is run. -/
  | scriptless {α : Type} {e : Effects} {m : EvalM κ α} (h : Scriptless A e m) : Scripted A S E m
  /-- A value is evaluated as a script. -/
  | eval (r : Ref) : Scripted A S E (E.eval r)
  /-- A command of the application is run. -/
  | host (action : κ) (argv : List Ref) : Scripted A S E (HostCommands.run E action argv)
  /-- An exception of something else is raised again. -/
  | raise {α : Type} (e : Exception) : Scripted A S E (EvalM.raise e : EvalM κ α)
  /-- The computation stops. -/
  | stop {α : Type} {e : Stop} (h : S e) : Scripted A S E (throw e : EvalM κ α)
  /-- A look at the context, which shows what commands are at hand by name. -/
  | context {β : Type} {f : Context κ → EvalM κ β}
    (hf : ∀ c, (∀ name command, c.commands.find? name = some command → command.Among A) →
      Scripted A S E (f c)) : Scripted A S E (getContext >>= f)
  /-- The command for a type is looked up. -/
  | resolve {β : Type} (tag : TypeTag) {f : Option (Command κ) → EvalM κ β}
    (hf : ∀ found, (∀ command, found = some command → command.Among A) → Scripted A S E (f found)) :
    Scripted A S E (typeCommand tag >>= f)
  /-- An exception is made a result. -/
  | observe {α : Type} {m : EvalM κ α} (hm : Scripted A S E m) : Scripted A S E (EvalM.observe m)
  /-- The context is changed for as long as a computation lasts. -/
  | bracket {α β : Type} {enter : Context κ → Except Failure (Context κ × (Context κ → Context κ))}
    {m : EvalM κ α} {k : Except Exception α → EvalM κ β}
    (hin : ∀ c c' leave, enter c = .ok (c', leave) → c.Nested c')
    (hrun : ∀ v c c' leave t, enter c = .ok (c', leave) →
      Run A ⟨v, c'⟩ t → Run A ⟨v, c⟩ ⟨t.values, leave t.context⟩)
    (hm : Scripted A S E m) (hk : ∀ outcome, Scripted A S E (k outcome)) :
    Scripted A S E (EvalM.bracket enter m k)
  /-- One thing after another, where the first has had a result. -/
  | bindOf {α β : Type} {m : EvalM κ α} {f : α → EvalM κ β} (hm : Scripted A S E m)
    (hf : ∀ a s t, m s = .ok a t → Scripted A S E (f a)) : Scripted A S E (m >>= f)

variable [HostCommands κ] {A : Builtin → Prop} {S : Stop → Prop} {E : Engine κ} {e : Effects}

/-- There may be a result already. -/
lemma Scripted.pure (a : α) : Scripted A S E (Pure.pure a : EvalM κ α) :=
  .scriptless (.pure a)

/-- One thing after another, whatever comes of the first. -/
lemma Scripted.bind {m : EvalM κ α} {f : α → EvalM κ β} (hm : Scripted A S E m)
    (hf : ∀ a, Scripted A S E (f a)) : Scripted A S E (m >>= f) :=
  .bindOf hm fun a _ _ _ => hf a

/-- It may be said that a computation stops for more reasons. -/
lemma Scripted.mono {S' : Stop → Prop} {m : EvalM κ α} (h : Scripted A S E m)
    (hS : ∀ e, S e → S' e) : Scripted A S' E m := by
  induction h with
  | scriptless h => exact .scriptless h
  | eval r => exact .eval r
  | host action argv => exact .host action argv
  | raise e => exact .raise e
  | stop h => exact .stop (hS _ h)
  | context _ ih => exact .context ih
  | resolve tag _ ih => exact .resolve tag ih
  | observe _ ih => exact ih.observe
  | bracket hin hrun _ _ ihm ihk => exact .bracket hin hrun ihm ihk
  | bindOf _ _ ihm ihf => exact .bindOf ihm ihf

/-- What runs no script at first may run one then. -/
lemma Scriptless.bindScripted {m : EvalM κ α} {f : α → EvalM κ β} (hm : Scriptless A e m)
    (hf : ∀ a, Scripted A S E (f a)) : Scripted A S E (m >>= f) :=
  .bind (.scriptless hm) hf

/-- The end of a call passes on a result or raises an exception. -/
lemma scripted_settle (outcome : Except Exception Ref) :
    Scripted A S E (settle outcome : EvalM κ Ref) := by
  cases outcome with
  | ok r => exact .pure r
  | error e =>
    unfold settle
    dsimp only
    split
    · exact .pure _
    · exact .scriptless (.fail _)
    · exact .scriptless (.fail _)
    · exact .raise e
    · exact .raise e

/-- So does the end of an evaluation at another level. -/
lemma scripted_conclude (outcome : Except Exception α) :
    Scripted A S E (conclude outcome : EvalM κ α) := by
  cases outcome with
  | ok a => exact .pure a
  | error e => exact .raise e

end EvalM

open EvalM

/-! ## Commands that run scripts -/

namespace Builtin

variable {κ : Type}

/-- What an outcome is caught as: its status, and its value. -/
def caught : Except Exception Ref → Int32 × Ref
  | .ok r => (0, r)
  | .error e => (e.code.status, e.value)

/-- To catch is to observe a script and then to answer. -/
lemma catchSignal_eq (E : Engine κ) (argv : List Ref) :
    catchSignal E argv = (do
      let script ← arg argv 1
      let outcome ← observe (E.eval script)
      answer argv (caught outcome)) := by
  refine bind_congr fun script => bind_congr fun outcome => ?_
  cases outcome with
  | ok r => rfl
  | error e => rfl

/-- What `time` does when it is known how often it runs its script. -/
def timed (E : Engine κ) (argv : List Ref) (count : Int32) : EvalM κ (Option Ref) := do
  let script ← arg argv 1
  let start ← readClock
  repeatEval E script count.toInt.toNat
  let stop ← readClock
  result (Store.ofLong (start.elapsed stop))

/-- To take the time is first to say how often the script is run, and then to run it. -/
lemma time_eq (E : Engine κ) (argv : List Ref) :
    Builtin.time E argv = timeCount argv >>= timed E argv := by
  unfold Builtin.time timeCount
  cases argv[2]? with
  | none => rfl
  | some r => rfl

/-- Evaluation at another level is a nested change, unless there is no such level. -/
lemma evalAt_apply (E : Engine κ) (script : Ref) (level : Int) (v : Store) (c : Context κ) :
    evalAt E script level ⟨v, c⟩ =
      match c.scopes.evalPlace? level with
      | .error e => fail e ⟨v, c⟩
      | .ok place => (do
        modifyContext fun c' =>
          { c' with scopes := (c.scopes.popMany [] (c.scopes.depth - 1 - place)).2 }
        let outcome ← observe (E.eval script)
        modifyContext fun c' => { c' with
          scopes := c'.scopes.pushMany (c.scopes.popMany [] (c.scopes.depth - 1 - place)).1 }
        conclude outcome : EvalM κ Ref) ⟨v, c⟩ := by
  change (attempt (c.scopes.evalPlace? level) >>= _ : EvalM κ Ref) ⟨v, c⟩ = _
  cases c.scopes.evalPlace? level with
  | ok place => rfl
  | error e => rfl

/-- The context for an evaluation at another level, and how the frames are put back: those above the
level are not there meanwhile. -/
def enterLevel (level : Int) (c : Context κ) :
    Except Failure (Context κ × (Context κ → Context κ)) :=
  match c.scopes.evalPlace? level with
  | .error f => .error f
  | .ok place =>
    let (frames, scopes) := c.scopes.popMany [] (c.scopes.depth - 1 - place)
    .ok ({ c with scopes }, fun c' => { c' with scopes := c'.scopes.pushMany frames })

/-- Evaluation at another level is nested between taking frames away and putting them back. -/
lemma evalAt_eq (E : Engine κ) (script : Ref) (level : Int) :
    evalAt E script level = bracket (enterLevel level) (E.eval script) conclude := by
  funext ⟨v, c⟩
  rw [evalAt_apply]
  unfold bracket enterLevel
  dsimp only
  cases c.scopes.evalPlace? level with
  | ok place => rfl
  | error e => rfl

variable [HostCommands κ] {A : Builtin → Prop} {S : Stop → Prop} {E : Engine κ}

/-- A condition runs no more than its script. -/
lemma scripted_condition (cond : Ref) : Scripted A S E (condition E cond) := by
  refine Scriptless.bindScripted (.values (Store.grows_bool? cond) (Store.retains_bool? cond))
    fun known => ?_
  cases known with
  | some b => exact .pure b
  | none => exact (Scripted.eval cond).bind fun r =>
      .scriptless (.convert (Store.grows_asBool r) (Store.retains_asBool r))

/-- So does a round of a loop with its body. -/
lemma scripted_round (body : Ref) : Scripted A S E (round E body) := by
  refine (Scripted.eval body).observe.bind fun outcome => ?_
  cases outcome with
  | ok r => exact .pure true
  | error e =>
    dsimp only
    split
    · exact .pure false
    · exact .pure true
    · exact .raise e

/-- So does a script whose result is wanted. -/
lemma scripted_evalResult (script : Ref) : Scripted A S E (evalResult E script) :=
  (Scripted.eval script).bind fun _ => .pure _

/-- A chain of conditions runs the conditions and one of the scripts. -/
lemma scripted_ifChain (words : List Ref) : Scripted A S E (ifChain E words) := by
  fun_induction ifChain E words with
  | case1 cond body rest ih =>
    refine (scripted_condition cond).bind fun holds => ?_
    split
    · exact scripted_evalResult body
    · split
      · exact .pure none
      · refine (scriptless_text _).bindScripted fun keyword => ?_
        split
        · exact ih
        · split
          · exact scripted_evalResult _
          · exact .scriptless (.fail _)
  | case2 => exact .scriptless (.fail _)

/-- The rounds end when the condition does not hold, when the loop is left, or when there is no time
left. -/
lemma scripted_whileLoop (hS : S .diverged) (cond body : Ref) (rounds : Nat) :
    Scripted A S E (whileLoop E cond body rounds) := by
  induction rounds with
  | zero => exact .stop hS
  | succ rounds ih =>
    refine (scripted_condition cond).bind fun holds => ?_
    split
    · refine (scripted_round body).bind fun goes => ?_
      split
      · exact ih
      · exact .pure _
    · exact .pure _

/-- A loop over pieces binds variables and runs its body. -/
lemma scripted_foreachLoop (vars : List Ref) (body : Ref) (pieces : List (List Ref)) :
    Scripted A S E (foreachLoop E vars body pieces) := by
  induction pieces with
  | nil => exact .pure _
  | cons items pieces ih =>
    refine (scriptless_bindLoopVars vars items).bindScripted fun _ => ?_
    refine (scripted_round body).bind fun goes => ?_
    split
    · exact ih
    · exact .pure _

/-- A script may be run a number of times. -/
lemma scripted_repeatEval (script : Ref) (count : Nat) :
    Scripted A S E (repeatEval E script count) := by
  induction count with
  | zero => exact .pure _
  | succ count ih => exact (Scripted.eval script).bind fun _ => ih

/-- Evaluation at another level puts the frames back on every way out. -/
lemma scripted_evalAt (hA : A (.control .upeval)) (script : Ref) (level : Int) :
    Scripted A S E (evalAt E script level) := by
  rw [evalAt_eq]
  refine .bracket ?_ ?_ (.eval script) scripted_conclude
  · intro c c' leave henter
    unfold enterLevel at henter
    split at henter
    · cases henter
    · cases henter
      exact ⟨rfl, rfl, rfl, Nat.le_refl _⟩
  · intro v c c' leave t henter h
    unfold enterLevel at henter
    split at henter
    next => cases henter
    next place hplace =>
      cases henter
      exact .upeval hA hplace h

variable {argv : List Ref}

/-- `eval` runs its argument. -/
lemma scripted_eval (h : argv.length = 2) : Scripted A S E (Builtin.eval E argv) := by
  obtain ⟨_, script, rfl⟩ := List.length_eq_two.1 h
  exact scripted_evalResult script

/-- `catch` runs its argument and answers. -/
lemma scripted_catchSignal (h : 1 < argv.length) : Scripted A S E (catchSignal E argv) := by
  rw [catchSignal_eq]
  refine (scriptless_arg h).bindScripted fun script => ?_
  exact (Scripted.eval script).observe.bind fun outcome => .scriptless (scriptless_answer argv _)

/-- `upeval` runs its argument at another level. -/
lemma scripted_upeval (hA : A (.control .upeval)) (h : argv.length = 2 ∨ argv.length = 3) :
    Scripted A S E (Builtin.upeval E argv) := by
  obtain h | h := h
  · obtain ⟨_, script, rfl⟩ := List.length_eq_two.1 h
    exact (scripted_evalAt hA script _).bind fun _ => .pure _
  · obtain ⟨_, level, script, rfl⟩ := List.length_eq_three.1 h
    exact (scriptless_asInt level).bindScripted fun level =>
      (scripted_evalAt hA script _).bind fun _ => .pure _

/-- How often the script is run is known before it is run for the first time. -/
lemma scripted_time (h : 1 < argv.length) : Scripted A S E (Builtin.time E argv) := by
  rw [time_eq]
  refine (scriptless_timeCount argv).bindScripted fun count => ?_
  refine (scriptless_arg h).bindScripted fun script => ?_
  refine scriptless_readClock.bindScripted fun start => ?_
  refine (scripted_repeatEval script _).bind fun _ => ?_
  exact scriptless_readClock.bindScripted fun stop => .scriptless (scriptless_newLong _)

/-- `while` runs its condition and its body, and may do so for ever. -/
lemma scripted_loopWhile (hS : S .diverged) (h : argv.length = 3) :
    Scripted A S E (loopWhile E argv) := by
  obtain ⟨_, cond, body, rfl⟩ := List.length_eq_three.1 h
  exact (scripted_whileLoop hS cond body _).bind fun _ => .pure none

/-- The list is cut into pieces before the first round. -/
lemma scripted_foreach (h : argv.length = 4) : Scripted A S E (Builtin.foreach E argv) := by
  match argv, h with
  | [_, names, list, body], _ =>
    refine (scriptless_asList names).bindScripted fun vars => ?_
    refine (scriptless_asList list).bindScripted fun items => ?_
    cases vars with
    | nil => exact .scriptless (.fail _)
    | cons var others => exact (scripted_foreachLoop _ body _).bind fun _ => .pure none

/-- Every command that runs scripts does so by way of the engine, where it is at hand and the number
of its arguments is right. -/
theorem scripted_control (hwhile : A (.control .while) → S .diverged) (b : Control)
    (hb : A (.control b)) (hargv : argv ≠ [])
    (h : b.arity.check (argv.length - 1) = .ok ()) : Scripted A S E (b.run E argv) := by
  cases b with
  | eval => exact scripted_eval (Arity.length_of_exactly hargv h)
  | «catch» => exact scripted_catchSignal (Arity.length_of_between hargv h).1
  | upeval =>
    have hlength := Arity.length_of_between hargv h
    exact scripted_upeval hb (by omega)
  | time => exact scripted_time (Arity.length_of_between hargv h).1
  | «if» => exact scripted_ifChain argv.tail
  | «while» => exact scripted_loopWhile (hwhile hb) (Arity.length_of_exactly hargv h)
  | foreach => exact scripted_foreach (Arity.length_of_exactly hargv h)

end Builtin

/-! ## Commands and scripts -/

variable {κ : Type}

namespace Command

/-- An object is called if it is a procedure. -/
def callObject (E : Engine κ) (argv : List Ref) (value : Ref) : Option Object → EvalM κ Ref
  | some (.procedure p) => p.call E argv
  | _ => do fail (.notProcedure (← text value))

/-- The first argument is called as the object that it is, if it is one. -/
lemma invokeValue_eq {E : Engine κ} (argv : List Ref) :
    invokeValue E argv = (do
      let value ← arg argv 0
      match ← objectOf? value with
      | some o => object? o >>= callObject E argv value
      | none => callObject E argv value none) := by
  refine bind_congr fun value => bind_congr fun o => ?_
  cases o with
  | none => rfl
  | some o =>
    refine bind_congr fun object => ?_
    obtain _ | _ | _ := object <;> rfl

/-- A command without a result has the empty one. -/
lemma scriptless_resultOf {A : Builtin → Prop} (r : Option Ref) :
    Scriptless A .nothing (resultOf r : EvalM κ Ref) := by
  cases r with
  | some r => exact .pure r
  | none => exact scriptless_alloc trivial

end Command

/-- The context for the call of a procedure, and how it is over: a frame is put on the stack and
taken off again. -/
def Procedure.enter (c : Context κ) : Except Failure (Context κ × (Context κ → Context κ)) :=
  .ok ({ c with scopes := c.scopes.push }, fun c => { c with scopes := c.scopes.pop.2 })

/-- The call of a procedure is nested between entering its frame and leaving it. -/
lemma Procedure.call_eq (E : Engine κ) (p : Procedure) (argv : List Ref) :
    p.call E argv = bracket Procedure.enter (p.bind argv >>= fun _ => E.eval p.body) settle :=
  rfl

namespace Interp

/-- To note an error changes the note only. -/
lemma scriptless_noteError {A : Builtin → Prop} (e : Exception) :
    Scriptless A .changing (noteError e : EvalM κ Unit) := by
  unfold noteError
  split
  · have hnote : ∀ errorStack, Scriptless A .changing
        (modifyContext fun c => { c with errorStack } : EvalM κ Unit) := fun errorStack =>
      .change (fun c => ((), { c with errorStack })) fun _ _ => .note errorStack
    exact (Scriptless.values (Exception.grows_diagnosis e)
      (Exception.adds_diagnosis e).retains).bind
      hnote
  · exact .idle _

/-- Makes an outcome a result or an exception again; an error is noted. -/
def noted : Except Exception Ref → EvalM κ Ref
  | .ok r => pure r
  | .error e => do
    noteError e
    raise e

/-- What becomes of the outcome of a nested evaluation: at the outermost level only errors come out,
and an error is noted. -/
def release (outcome : Except Exception Ref) : EvalM κ Ref := do
  if (← getContext).level = 0 then observe (settle outcome) >>= noted else noted outcome

/-- The context for an evaluation one level deeper, if the limit has not been reached, and the way
back. -/
def enterNested (c : Context κ) : Except Failure (Context κ × (Context κ → Context κ)) :=
  if c.limit < c.level + 1 then .error .nestingTooDeep
  else .ok ({ c with level := c.level + 1 }, fun c => { c with level := c.level - 1 })

/-- Evaluation one level deeper is a nested change. -/
lemma nested_of_enterNested {c c' : Context κ} {leave : Context κ → Context κ}
    (h : enterNested c = .ok (c', leave)) : c.Nested c' := by
  unfold enterNested at h
  split at h
  · cases h
  · cases h
    exact ⟨rfl, rfl, rfl, Nat.le_succ _⟩

/-- It is one level deeper, and there is such a level. -/
lemma level_of_enterNested {c c' : Context κ} {leave : Context κ → Context κ}
    (h : enterNested c = .ok (c', leave)) : c.level < c.limit ∧ c'.level = c.level + 1 := by
  unfold enterNested at h
  split at h
  · cases h
  next hlimit =>
    cases h
    exact ⟨Nat.not_lt.1 hlimit, rfl⟩

/-- The way back is a step of evaluation. -/
lemma run_of_enterNested {A : Builtin → Prop} {v : Store} {c c' : Context κ}
    {leave : Context κ → Context κ}
    {t : Interp κ} (h : enterNested c = .ok (c', leave)) (hrun : Run A ⟨v, c'⟩ t) :
    Run A ⟨v, c⟩ ⟨t.values, leave t.context⟩ := by
  unfold enterNested at h
  split at h
  · cases h
  · cases h
    exact .nest hrun

variable [HostCommands κ]

/-- Evaluation one level deeper is a nested change, unless the limit has been reached. -/
lemma evalNested_apply (E : Engine κ) (r : Ref) (v : Store) (c : Context κ) :
    evalNested E r ⟨v, c⟩ =
      if c.limit < c.level + 1 then fail .nestingTooDeep ⟨v, c⟩
      else (do
        modifyContext fun c => { c with level := c.level + 1 }
        let outcome ← observe (scriptOf r >>= runScript E none)
        modifyContext fun c => { c with level := c.level - 1 }
        release outcome : EvalM κ Ref) ⟨v, c⟩ := by
  change (if c.limit < c.level + 1 then (fail .nestingTooDeep >>= _) else _ : EvalM κ Ref)
    ⟨v, c⟩ = _
  split
  · rfl
  · rfl

/-- A nested evaluation stands between going one level down and coming back. -/
lemma evalNested_eq (E : Engine κ) (r : Ref) :
    evalNested E r = bracket enterNested (scriptOf r >>= runScript E none) release := by
  funext ⟨v, c⟩
  rw [evalNested_apply]
  unfold bracket enterNested
  dsimp only
  split
  · rfl
  · rfl

end Interp

variable [HostCommands κ] {A : Builtin → Prop} {S : Stop → Prop} {E : Engine κ}

/-- A call takes its frame off again on every way out. -/
lemma Procedure.scripted_call (p : Procedure) {argv : List Ref} (hargv : argv ≠ []) :
    Scripted A S E (p.call E argv) := by
  rw [Procedure.call_eq]
  refine .bracket ?_ ?_ ?_ scripted_settle
  · intro c c' leave henter
    cases henter
    exact ⟨rfl, rfl, rfl, Nat.le_refl _⟩
  · intro v c c' leave t henter h
    cases henter
    exact .call h
  · exact (scriptless_bind p hargv).bindScripted fun _ => .eval p.body

namespace Command

/-- What is no object that can be called is an error. -/
lemma scripted_callObject {argv : List Ref} (hargv : argv ≠ []) (value : Ref)
    (object : Option Object) : Scripted A S E (callObject E argv value object) := by
  unfold callObject
  split
  · exact Procedure.scripted_call _ hargv
  · exact (scriptless_text value).bindScripted fun _ => .scriptless (.fail _)

/-- A value is called as the object that it is. -/
lemma scripted_invokeValue {argv : List Ref} (hargv : argv ≠ []) :
    Scripted A S E (invokeValue E argv) := by
  rw [invokeValue_eq]
  refine (scriptless_arg (List.length_pos_iff.2 hargv)).bindScripted fun value => ?_
  refine (Scriptless.look fun s => s.values.objectOf? value).bindScripted fun o => ?_
  cases o with
  | some o =>
    exact (Scriptless.look fun s => s.values.object? o).bindScripted fun object =>
      scripted_callObject hargv value object
  | none => exact scripted_callObject hargv value none

/-- A command that runs no script is run if the number of its arguments is right. -/
lemma scriptless_execute (E : Engine κ) {b : Builtin.Plain} (hb : A (.plain b)) {argv : List Ref}
    (hargv : argv ≠ []) :
    Scriptless A (Effects.failing.andThen (b.effects.andThen .nothing))
      (execute E argv (.builtin (.plain b))) := by
  refine (scriptless_attempt _).bindOf fun _ s t hcheck => ?_
  have harity := eq_ok_of_attempt hcheck
  exact (Builtin.scriptless_plain b hb hargv harity).bind scriptless_resultOf

/-- A command that is at hand is run. -/
lemma scripted_execute (hwhile : A (.control .while) → S .diverged) {argv : List Ref}
    (hargv : argv ≠ []) {c : Command κ} (hc : c.Among A) : Scripted A S E (c.execute E argv) := by
  have hresult : ∀ r, Scripted A S E (resultOf r : EvalM κ Ref) := fun r =>
    .scriptless (scriptless_resultOf r)
  cases c with
  | builtin b =>
    cases b with
    | plain b => exact .scriptless (scriptless_execute E (hc _ rfl) hargv)
    | control b =>
      refine .bindOf (.scriptless (scriptless_attempt _)) fun _ s t hcheck => ?_
      have harity := eq_ok_of_attempt hcheck
      exact (Builtin.scripted_control hwhile b (hc _ rfl) hargv harity).bind hresult
  | host _ _ action =>
    exact (scriptless_attempt _).bindScripted fun _ => (Scripted.host action argv).bind hresult
  | procedure p => exact Procedure.scripted_call p hargv
  | invoke => exact scripted_invokeValue hargv

end Command

namespace Interp

/-- A command is looked up, and then executed. -/
lemma scripted_dispatch (hwhile : A (.control .while) → S .diverged) {argv : List Ref}
    (hargv : argv ≠ [] ∨ S .fault) : Scripted A S E (dispatch E argv) := by
  by_cases hne : argv ≠ []
  · refine (scriptless_arg (List.length_pos_iff.2 hne)).bindScripted fun head => ?_
    refine (scriptless_text head).bindScripted fun name => ?_
    -- what the context is like is known where the name is looked up in it
    refine .context fun c hnames => ?_
    split
    next command hcommand =>
      exact Command.scripted_execute hwhile hne (hnames name command hcommand)
    next =>
      refine (Scriptless.look fun s => s.values.typeOf head).bindScripted fun tag => ?_
      refine .resolve tag fun found hfound => ?_
      cases found with
      | some command => exact Command.scripted_execute hwhile hne (hfound command rfl)
      | none =>
        refine (Scriptless.look fun s => s.values.objectOf? head).bindScripted fun o => ?_
        cases o with
        | some o => exact .scriptless (.fail _)
        | none => exact .scriptless (.fail _)
  -- without words there is no first one to look up
  · have hstop : dispatch E argv = throw .fault := by
      rw [not_not.1 hne]
      rfl
    rw [hstop]
    exact .stop (hargv.resolve_left hne)

/-- So it is when the error is traced. -/
lemma scripted_runCommand (hwhile : A (.control .while) → S .diverged) {argv : List Ref}
    (hargv : argv ≠ [] ∨ S .fault) : Scripted A S E (runCommand E argv) := by
  refine (scripted_dispatch hwhile hargv).observe.bind fun outcome => ?_
  cases outcome with
  | ok r => exact .pure r
  | error e =>
    dsimp only
    split
    · refine (Scriptless.values ?_ ?_).bindScripted fun frame => .raise _
      · exact (Store.grows_listText argv).bind fun _ => Store.grows_alloc trivial
      · exact ((Store.adds_listText argv).bind fun _ => Store.adds_alloc _).retains
    · exact .raise e

/-- There are as many values as words. -/
lemma length_of_evalWords {words : List (Word Ref)} {argv : List Ref} {s t : Interp κ}
    (h : evalWords E words s = .ok argv t) : argv.length = words.length := by
  induction words generalizing argv s t with
  | nil =>
    cases h
    rfl
  | cons w rest ih =>
    obtain ⟨r, t₁, -, h⟩ := ok_of_bind h
    obtain ⟨rs, t₂, hrest, h⟩ := ok_of_bind h
    cases h
    exact congrArg (· + 1) (ih hrest)

mutual

/-- The commands of a script are run one after another. If all of them have words, what is run is
never nothing. -/
theorem scripted_runScript (hwhile : A (.control .while) → S .diverged) (last : Option Ref) :
    ∀ script, Script.Filled script ∨ S .fault → Scripted A S E (runScript E last script)
  | [], _ => .scriptless (Command.scriptless_resultOf last)
  | words :: rest, h => by
    refine .bindOf (scripted_evalWords hwhile words (h.imp_left fun h => h.of_cons.2.1))
      fun argv s t hwords => ?_
    have hargv : argv ≠ [] ∨ S .fault := by
      refine h.imp_left fun h hargv => h.of_cons.1 ?_
      rw [← List.length_eq_zero_iff, ← length_of_evalWords hwords, hargv]
      rfl
    exact (scripted_runCommand hwhile hargv).bind fun r =>
      scripted_runScript hwhile (some r) rest (h.imp_left fun h => h.of_cons.2.2)

/-- Words are evaluated one after another. -/
theorem scripted_evalWords (hwhile : A (.control .while) → S .diverged) :
    ∀ words, Script.FilledWords words ∨ S .fault → Scripted A S E (evalWords E words)
  | [], _ => .pure []
  | w :: rest, h =>
    (scripted_evalWord hwhile w (h.imp_left fun h => h.of_cons.1)).bind fun _ =>
      (scripted_evalWords hwhile rest (h.imp_left fun h => h.of_cons.2)).bind fun _ => .pure _

/-- A word is evaluated as its parts say. -/
theorem scripted_evalWord (hwhile : A (.control .while) → S .diverged) :
    ∀ w, Script.FilledWord w ∨ S .fault → Scripted A S E (evalWord E w)
  | .literal r, _ => .pure r
  | .var name, _ => .scriptless (scriptless_getVar name (-1))
  | .substitution script, h =>
    scripted_runScript hwhile none script (h.imp_left fun h => h.of_substitution)
  | .joined parts, h => by
    refine (scripted_evalWords hwhile parts (h.imp_left fun h => h.of_joined)).bind fun rs => ?_
    split
    · exact .pure _
    · refine (Scriptless.values (Store.grows_texts rs) (Store.adds_texts rs).retains).bindScripted
        fun _ => ?_
      exact .scriptless (scriptless_alloc trivial)

end

/-- A value is read as a script, or is an error, or reading never ends. -/
lemma scripted_scriptOf (hS : S .diverged) (r : Ref) :
    Scripted A S E (scriptOf r : EvalM κ (Script Ref)) := by
  refine Scriptless.bindScripted (.values (Store.grows_asScript r) (Store.retains_asScript r))
    fun outcome => ?_
  cases outcome with
  | done script => exact .pure script
  | failed e => exact .scriptless (.fail _)
  | stuck => exact .stop hS

/-- The outcome is noted and passed on. -/
lemma scripted_noted (outcome : Except Exception Ref) :
    Scripted A S E (noted outcome : EvalM κ Ref) := by
  cases outcome with
  | ok r => exact .pure r
  | error e => exact (scriptless_noteError e).bindScripted fun _ => .raise e

/-- So it is on the way out of an evaluation. -/
lemma scripted_release (outcome : Except Exception Ref) :
    Scripted A S E (release outcome : EvalM κ Ref) := by
  refine scriptless_getContext.bindScripted fun c => ?_
  split
  · exact (scripted_settle outcome).observe.bind scripted_noted
  · exact scripted_noted outcome

/-- **Evaluation one level deeper runs scripts by way of the engine**, and comes back on every
way out. Whether the commands of the script have words, and whether it can be read, is not
asked here. -/
theorem scripted_evalNested (hfault : S .fault) (hdiverged : S .diverged) (r : Ref) :
    Scripted A S E (evalNested E r) := by
  rw [evalNested_eq]
  refine .bracket (fun _ _ _ => nested_of_enterNested) (fun _ _ _ _ _ => run_of_enterNested) ?_
    scripted_release
  exact (scripted_scriptOf hdiverged r).bind fun script =>
    scripted_runScript (fun _ => hdiverged) none script (.inr hfault)

end Interp

end CommandScript
