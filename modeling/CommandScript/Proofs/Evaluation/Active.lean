import CommandScript.Proofs.Evaluation.Signals

/-!
# Evaluation that knows which commands are active

A command is *active* from when it is dispatched until it comes back. Evaluation does not know which
commands are active: an error is told only on its way out what it came out of. Here is an evaluation
that does know. It carries a stack of the words of the active commands, and whatever stops it tells
which commands were active when it came about. Words are evaluated before their command is
dispatched, so a command is not active meanwhile. An exception that is caught and raised again came
about where it was raised first; but a signal that becomes an error is a new exception.

That it knows more does not make a difference otherwise: what is left when the stack is forgotten is
evaluation as it is.

## Main definitions

* `Active` — the words of the active commands.
* `TrackedM` — evaluation that knows which commands are active, and where what stops it came about.
* `TrackedM.step`, `TrackedM.during`, `TrackedM.observe`, `TrackedM.raise` — what it is made of.
* `Tracked.runCommand`, `Tracked.runScript`, `Tracked.evaluate` and others — the parts of
  evaluation.
* `TrackedM.Erases` — what is left when the active commands are forgotten.

## Main results

* `Interp.dispatch_eq_findCommand` — a command is found, and then it is run.
* `Tracked.erases_control`, `Tracked.erases_runScript`, `Tracked.erases_evaluate` — evaluation is
  what is left.
-/

set_option autoImplicit false

namespace CommandScript

open EvalM

/-- The words of each command that has been dispatched and has not come back, the innermost
first. -/
abbrev Active : Type :=
  List (List Ref)

/-- An evaluation that knows which commands are active. What stops it tells which ones were active
when it came about. -/
abbrev TrackedM (κ : Type) : Type → Type :=
  ReaderT Active (EStateM (Stop × Active) (Interp κ))

namespace TrackedM

variable {κ α β : Type}

/-- A step that runs no script. What stops it comes about here. -/
def step (m : EvalM κ α) : TrackedM κ α := fun act s =>
  match m s with
  | .ok a t => .ok a t
  | .error e t => .error (e, act) t

/-- While this is done, the command with these words is active. -/
def during (argv : List Ref) (m : TrackedM κ α) : TrackedM κ α := fun act =>
  m (argv :: act)

/-- Makes an exception a result, together with where it came about. Nothing else is caught. -/
def observe (m : TrackedM κ α) : TrackedM κ (Except (Exception × Active) α) := fun act s =>
  match m act s with
  | .ok a t => .ok (.ok a) t
  | .error (.raised e, origin) t => .ok (.error (e, origin)) t
  | .error (.fault, origin) t => .error (.fault, origin) t
  | .error (.exited status, origin) t => .error (.exited status, origin) t
  | .error (.diverged, origin) t => .error (.diverged, origin) t

/-- Raises an exception that came about elsewhere. -/
def raise (e : Exception) (origin : Active) : TrackedM κ α := fun _ s =>
  .error (.raised e, origin) s

/-- Makes a result an exception again. -/
def conclude : Except (Exception × Active) α → TrackedM κ α
  | .ok a => pure a
  | .error (e, origin) => raise e origin

end TrackedM

/-- How to evaluate what is nested in a command, if it is known which commands are active. -/
structure TrackedEngine (κ : Type) where
  /-- Evaluates a value as a script. -/
  eval : Ref → TrackedM κ Ref
  /-- How many rounds a loop may make. -/
  rounds : Nat

namespace Tracked

open TrackedM (step during raise conclude)

variable {κ : Type}

/-! ## Commands that run scripts -/

section Control

variable (E : TrackedEngine κ)

/-- Whether a condition holds. -/
def condition (cond : Ref) : TrackedM κ Bool := do
  match ← step (Store.bool? cond : StoreM (Option Bool)) with
  | some b => return b
  | none =>
    let r ← E.eval cond
    step (Store.asBool r : ConvM Bool)

/-- Runs the body of a loop. Yields whether the loop goes on. -/
def round (body : Ref) : TrackedM κ Bool := do
  match ← TrackedM.observe (E.eval body) with
  | .ok _ => return true
  | .error (e, origin) =>
    match e.code with
    | .broke => return false
    | .continued => return true
    | _ => raise e origin

/-- Evaluates a script for its result. -/
def evalResult (script : Ref) : TrackedM κ (Option Ref) := do
  let r ← E.eval script
  return some r

/-- Runs the first branch whose condition holds. -/
def ifChain : List Ref → TrackedM κ (Option Ref)
  | cond :: body :: rest => do
    if ← condition E cond then evalResult E body
    else
      match rest with
      | [] => return none
      | keyword :: rest =>
        let keyword ← step (text keyword)
        if keyword = "elseif" then ifChain rest
        else
          match keyword, rest with
          | "else", [body] => evalResult E body
          | _, _ => step (fail (.usage Builtin.ifForm))
  | _ => step (fail (.usage Builtin.ifForm))

/-- Runs the body as long as the condition holds, for a number of rounds at most. -/
def whileLoop (cond body : Ref) : Nat → TrackedM κ Unit
  | 0 => step (throw .diverged)
  | rounds + 1 => do
    if ← condition E cond then
      if ← round E body then whileLoop cond body rounds

/-- Runs the body once for each piece of the list. -/
def foreachLoop (vars : List Ref) (body : Ref) : List (List Ref) → TrackedM κ Unit
  | [] => return
  | items :: rest => do
    step (Builtin.bindLoopVars vars items)
    if ← round E body then foreachLoop vars body rest

/-- Runs a script a number of times. -/
def repeatEval (script : Ref) : Nat → TrackedM κ Unit
  | 0 => return
  | count + 1 => do
    let _ ← E.eval script
    repeatEval script count

/-- Evaluates a script at another level. -/
def evalAt (script : Ref) (level : Int) : TrackedM κ Ref := do
  let scopes := (← step getContext).scopes
  let place ← step (attempt (scopes.evalPlace? level))
  let (frames, scopes) := scopes.popMany [] (scopes.depth - 1 - place)
  step (modifyContext fun c => { c with scopes })
  let outcome ← TrackedM.observe (E.eval script)
  step (modifyContext fun c => { c with scopes := c.scopes.pushMany frames })
  conclude outcome

/-- `eval script` -/
def eval : List Ref → TrackedM κ (Option Ref)
  | [_, script] => evalResult E script
  | _ => step fault

/-- `catch script ?name?` -/
def catchSignal (argv : List Ref) : TrackedM κ (Option Ref) := do
  let script ← step (arg argv 1)
  match ← TrackedM.observe (E.eval script) with
  | .ok r => step (Builtin.answer argv (0, r))
  | .error (e, _) => step (Builtin.answer argv (e.code.status, e.value))

/-- `upeval ?level? script` -/
def upeval : List Ref → TrackedM κ (Option Ref)
  | [_, script] => do
    let r ← evalAt E script (-1)
    return some r
  | [_, level, script] => do
    let level ← step (Store.asInt level : ConvM Int32)
    let r ← evalAt E script level.toInt
    return some r
  | _ => step fault

/-- `time script ?count?` -/
def time (argv : List Ref) : TrackedM κ (Option Ref) := do
  let count ← step (Builtin.timeCount argv)
  let script ← step (arg argv 1)
  let start ← step readClock
  repeatEval E script count.toInt.toNat
  let stop ← step readClock
  step (Builtin.result (Store.ofLong (start.elapsed stop)))

/-- `while cond body` -/
def loopWhile : List Ref → TrackedM κ (Option Ref)
  | [_, cond, body] => do
    whileLoop E cond body E.rounds
    return none
  | _ => step fault

/-- `foreach names list body` -/
def foreach : List Ref → TrackedM κ (Option Ref)
  | [_, names, list, body] => do
    let vars ← step (Store.asList names : ConvM (List Ref))
    let items ← step (Store.asList list : ConvM (List Ref))
    match vars with
    | [] => step (fail .noLoopVariables)
    | _ :: others =>
      foreachLoop E vars body (Builtin.chunks others.length items)
      return none
  | _ => step fault

/-- Runs a command that runs scripts. -/
def control : Builtin.Control → List Ref → TrackedM κ (Option Ref)
  | .eval => eval E
  | .catch => catchSignal E
  | .upeval => upeval E
  | .time => time E
  | .if => fun argv => ifChain E argv.tail
  | .while => loopWhile E
  | .foreach => foreach E

end Control

/-! ## Procedures -/

/-- What becomes of the outcome of a procedure or of a whole script. The error that a signal to a
loop becomes comes about here. -/
def settle : Except (Exception × Active) Ref → TrackedM κ Ref
  | .ok r => pure r
  | .error (e, origin) =>
    match e.code with
    | .returned => pure e.value
    | .broke => step (fail .strayBreak)
    | .continued => step (fail .strayContinue)
    | .error | .custom _ => raise e origin

/-- Calls a procedure. -/
def call (E : TrackedEngine κ) (p : Procedure) (argv : List Ref) : TrackedM κ Ref := do
  step (modifyContext fun c => { c with scopes := c.scopes.push })
  let outcome ← TrackedM.observe do
    step (p.bind argv)
    E.eval p.body
  step (modifyContext fun c => { c with scopes := c.scopes.pop.2 })
  settle outcome

end Tracked

/-! ## Finding commands -/

namespace Interp

variable {κ : Type}

/-- The command that the first word names, or that its type is registered for. -/
def findCommand (argv : List Ref) : EvalM κ (Command κ) := do
  let head ← arg argv 0
  let name ← text head
  match (← getContext).commands.find? name with
  | some command => return command
  | none =>
    let tag ← typeOf head
    match ← typeCommand tag with
    | some command => return command
    | none =>
      match ← objectOf? head with
      | some _ => fail (.noTypeCommand tag.name)
      | none => fail (.unknownCommand name)

/-- **A command is found, and then it is run.** -/
lemma dispatch_eq_findCommand [HostCommands κ] (E : Engine κ) (argv : List Ref) :
    dispatch E argv = findCommand argv >>= fun command => command.execute E argv := by
  unfold dispatch findCommand
  simp only [bind_assoc]
  refine bind_congr fun head => bind_congr fun name => bind_congr fun c => ?_
  cases c.commands.find? name with
  | some command => rfl
  | none =>
    simp only [bind_assoc]
    refine bind_congr fun tag => bind_congr fun found => ?_
    cases found with
    | some command => rfl
    | none =>
      simp only [bind_assoc]
      refine bind_congr fun o => ?_
      cases o with
      | some o => rfl
      | none => rfl

end Interp

/-- An object is a procedure, or it cannot be called. -/
def Command.procedureIn {κ : Type} (value : Ref) : Option Object → EvalM κ Procedure
  | some (.procedure p) => return p
  | _ => do fail (.notProcedure (← text value))

/-- The procedure that the first word is. -/
def Command.procedureOf {κ : Type} (argv : List Ref) : EvalM κ Procedure := do
  let value ← arg argv 0
  match ← objectOf? value with
  | some o => object? o >>= procedureIn value
  | none => procedureIn value none

/-- The procedure is found, and then it is called. -/
lemma Command.invokeValue_eq_bind {κ : Type} (E : Engine κ) (argv : List Ref) :
    invokeValue E argv = procedureOf argv >>= fun p => p.call E argv := by
  unfold invokeValue procedureOf
  simp only [bind_assoc]
  refine bind_congr fun value => bind_congr fun o => ?_
  cases o with
  | none => rfl
  | some o =>
    simp only [bind_assoc]
    refine bind_congr fun object => ?_
    obtain _ | _ | _ := object <;> rfl

namespace Tracked

open TrackedM (step during raise conclude)

/-! ## Commands and scripts -/

section Scripts

variable (E : TrackedEngine Empty)

/-- Runs a command with the words it is called with. -/
def execute (argv : List Ref) : Command Empty → TrackedM Empty Ref
  | .builtin b => do
    step (attempt (b.arity.check (argv.length - 1)))
    match b with
    | .plain b => step (b.run argv >>= Command.resultOf)
    | .control b =>
      let r ← control E b argv
      step (Command.resultOf r)
  | .host _ _ action => action.elim
  | .procedure p => call E p argv
  | .invoke => do
    let p ← step (Command.procedureOf argv)
    call E p argv

/-- Finds the command for the words, and runs it. -/
def dispatch (argv : List Ref) : TrackedM Empty Ref := do
  let command ← step (Interp.findCommand argv)
  execute E argv command

/-- Runs a command whose words have been evaluated. It is active while it is dispatched to. An error
that comes out notes the command. -/
def runCommand (argv : List Ref) : TrackedM Empty Ref := do
  match ← TrackedM.observe (during argv (dispatch E argv)) with
  | .ok r => return r
  | .error (e, origin) =>
    if e.isError then
      let frame ← step (do Store.ofText (← Store.listText argv) : StoreM Ref)
      raise (e.addFrame frame) origin
    else raise e origin

mutual

/-- Runs the commands of a script. `last` is the result of the commands before. -/
def runScript (last : Option Ref) : List (List (Word Ref)) → TrackedM Empty Ref
  | [] => step (Command.resultOf last)
  | words :: rest => do
    let argv ← evalWords words
    let r ← runCommand E argv
    runScript (some r) rest

/-- Evaluates words from left to right. -/
def evalWords : List (Word Ref) → TrackedM Empty (List Ref)
  | [] => return []
  | w :: rest => do
    let r ← evalWord w
    let rs ← evalWords rest
    return r :: rs

/-- Evaluates a word. -/
def evalWord : Word Ref → TrackedM Empty Ref
  | .literal r => return r
  | .var name => step (getVar name (-1))
  | .substitution script => runScript none script
  | .joined parts => do
    match ← evalWords parts with
    | [r] => return r
    | rs =>
      step do
        let texts ← (Store.texts rs : StoreM (List String))
        (Store.ofText (texts.foldr (· ++ ·) "") : StoreM Ref)

end

/-- Makes an outcome a result or an exception again; an error is noted. -/
def noted : Except (Exception × Active) Ref → TrackedM Empty Ref
  | .ok r => pure r
  | .error (e, origin) => do
    step (Interp.noteError e)
    raise e origin

/-- What becomes of the outcome of a nested evaluation. -/
def release (outcome : Except (Exception × Active) Ref) : TrackedM Empty Ref := do
  if (← step getContext).level = 0 then TrackedM.observe (settle outcome) >>= noted
  else noted outcome

/-- Evaluates a value as a script, one level deeper. -/
def evalNested (r : Ref) : TrackedM Empty Ref := do
  let c ← step getContext
  if c.limit < c.level + 1 then step (fail .nestingTooDeep)
  else
    step (modifyContext fun c => { c with level := c.level + 1 })
    let outcome ← TrackedM.observe do
      let script ← step (Interp.scriptOf r)
      runScript E none script
    step (modifyContext fun c => { c with level := c.level - 1 })
    release outcome

end Scripts

/-- Evaluates a value as a script, with a bound. -/
def evaluate : Nat → Ref → TrackedM Empty Ref
  | 0, _ => step (throw .diverged)
  | bound + 1, r => evalNested ⟨fun r => evaluate bound r, bound⟩ r

/-- Evaluation as it is used by commands, with a bound. -/
def engine (bound : Nat) : TrackedEngine Empty :=
  ⟨evaluate bound, bound⟩

end Tracked

/-! ## Forgetting the active commands -/

namespace TrackedM

variable {κ α β : Type}

/-- An outcome without where it came about. -/
def forget {σ : Type} : EStateM.Result (Stop × Active) σ α → EStateM.Result Stop σ α
  | .ok a t => .ok a t
  | .error (e, _) t => .error e t

/-- What is observed, without where it came about. -/
def plain : Except (Exception × Active) α → Except Exception α
  | .ok a => .ok a
  | .error (e, _) => .error e

/-- Whatever commands are active, the one does what the other does, if that is forgotten. -/
def Erases (m : TrackedM κ α) (m' : EvalM κ α) : Prop :=
  ∀ act s, forget (m act s) = m' s

/-- A result is a result. -/
lemma Erases.pure (a : α) : Erases (Pure.pure a : TrackedM κ α) (Pure.pure a) :=
  fun _ _ => rfl

/-- What involves no active commands does what it does. -/
lemma erases_step (m : EvalM κ α) : Erases (step m) m := by
  intro act s
  unfold step
  cases m s with
  | ok a t => rfl
  | error e t => rfl

/-- An exception is raised, wherever it came about. -/
lemma erases_raise (e : Exception) (origin : Active) :
    Erases (raise e origin : TrackedM κ α) (EvalM.raise e) :=
  fun _ _ => rfl

/-- That a command is active makes no difference. -/
lemma Erases.during {m : TrackedM κ α} {m' : EvalM κ α} (h : Erases m m') (argv : List Ref) :
    Erases (during argv m) m' :=
  fun act s => h (argv :: act) s

/-- One thing after another, from given active commands and a given state. -/
lemma bind_apply (m : TrackedM κ α) (f : α → TrackedM κ β) (act : Active) (s : Interp κ) :
    (m >>= f) act s =
      match m act s with
      | .ok a t => f a act t
      | .error e t => .error e t := by
  change EStateM.bind (m act) (fun a => f a act) s = _
  unfold EStateM.bind
  cases m act s with
  | ok a t => rfl
  | error e t => rfl

/-- What comes after another is forgotten part by part. -/
lemma Erases.bind {m : TrackedM κ α} {m' : EvalM κ α} {f : α → TrackedM κ β} {f' : α → EvalM κ β}
    (hm : Erases m m') (hf : ∀ a, Erases (f a) (f' a)) : Erases (m >>= f) (m' >>= f') := by
  intro act s
  have h := hm act s
  rw [bind_apply]
  cases hms : m act s with
  | ok a t =>
    rw [hms] at h
    rw [bind_of_ok h.symm]
    exact hf a act t
  | error e t =>
    rw [hms] at h
    rw [bind_of_error h.symm]
    rfl

/-- Two steps, one after another, are one step. -/
lemma step_bind (m : EvalM κ α) (f : α → EvalM κ β) :
    step (m >>= f) = step m >>= fun a => step (f a) := by
  funext act s
  rw [bind_apply]
  unfold step
  cases h : m s with
  | ok a t => rw [bind_of_ok h]
  | error e t => rw [bind_of_error h]

/-- A step, and what comes after it. -/
lemma Erases.stepBind {m : EvalM κ α} {f : α → TrackedM κ β} {f' : α → EvalM κ β}
    (hf : ∀ a, Erases (f a) (f' a)) : Erases (step m >>= f) (m >>= f') :=
  (erases_step m).bind hf

/-- What is observed is the same, but for where it came about. -/
lemma observe_apply (m : TrackedM κ α) (m' : EvalM κ α) (h : Erases m m') (act : Active)
    (s : Interp κ) :
    (∃ x t, observe m act s = .ok x t ∧ EvalM.observe m' s = .ok (plain x) t) ∨
      ∃ e origin t, observe m act s = .error (e, origin) t ∧ EvalM.observe m' s = .error e t := by
  have heq := h act s
  unfold observe EvalM.observe
  cases hms : m act s with
  | ok a t =>
    rw [hms] at heq
    rw [← heq]
    exact .inl ⟨.ok a, t, rfl, rfl⟩
  | error e t =>
    rw [hms] at heq
    rw [← heq]
    obtain ⟨e, origin⟩ := e
    cases e with
    | raised e => exact .inl ⟨.error (e, origin), t, rfl, rfl⟩
    | exited status => exact .inr ⟨_, origin, t, rfl, rfl⟩
    | fault => exact .inr ⟨_, origin, t, rfl, rfl⟩
    | diverged => exact .inr ⟨_, origin, t, rfl, rfl⟩

/-- What comes after something observed does not depend on where an exception came about. -/
lemma Erases.observeBind {m : TrackedM κ α} {m' : EvalM κ α}
    {f : Except (Exception × Active) α → TrackedM κ β} {f' : Except Exception α → EvalM κ β}
    (hm : Erases m m') (hf : ∀ x, Erases (f x) (f' (plain x))) :
    Erases (observe m >>= f) (EvalM.observe m' >>= f') := by
  intro act s
  rw [bind_apply]
  obtain ⟨x, t, hx, hx'⟩ | ⟨e, origin, t, he, he'⟩ := observe_apply m m' hm act s
  · rw [hx, bind_of_ok hx']
    exact hf x act t
  · rw [he, bind_of_error he']
    rfl

/-- The end of an evaluation at another level is the same. -/
lemma erases_conclude (x : Except (Exception × Active) α) :
    Erases (conclude x : TrackedM κ α) (EvalM.conclude (plain x)) := by
  cases x with
  | ok a => exact .pure a
  | error x => exact erases_raise x.1 x.2

end TrackedM

namespace Tracked

open TrackedM

variable {κ : Type}

/-! ### Commands that run scripts -/

section Control

variable {E : TrackedEngine κ} {E' : Engine κ}

/-- Conditions are the same. -/
lemma erases_condition (hE : ∀ r, Erases (E.eval r) (E'.eval r)) (cond : Ref) :
    Erases (condition E cond) (Builtin.condition E' cond) := by
  refine .stepBind fun known => ?_
  cases known with
  | some b => exact .pure b
  | none => exact (hE cond).bind fun r => erases_step _

/-- Rounds of a loop are the same. -/
lemma erases_round (hE : ∀ r, Erases (E.eval r) (E'.eval r)) (body : Ref) :
    Erases (round E body) (Builtin.round E' body) := by
  refine (hE body).observeBind fun x => ?_
  cases x with
  | ok r => exact .pure true
  | error x =>
    obtain ⟨e, origin⟩ := x
    dsimp only [plain]
    cases e.code with
    | broke => exact .pure false
    | continued => exact .pure true
    | _ => exact erases_raise e origin

/-- So are scripts whose results are wanted. -/
lemma erases_evalResult (hE : ∀ r, Erases (E.eval r) (E'.eval r)) (script : Ref) :
    Erases (evalResult E script) (Builtin.evalResult E' script) :=
  (hE script).bind fun r => .pure (some r)

/-- The end of a chain: a last branch, or an error. -/
lemma erases_ifEnd (hE : ∀ r, Erases (E.eval r) (E'.eval r)) (keyword : String)
    (rest : List Ref) : Erases
      (match keyword, rest with
        | "else", [body] => evalResult E body
        | _, _ => step (fail (.usage Builtin.ifForm)))
      (match keyword, rest with
        | "else", [body] => Builtin.evalResult E' body
        | _, _ => fail (.usage Builtin.ifForm)) := by
  by_cases hkeyword : keyword = "else"
  · subst hkeyword
    obtain _ | ⟨body, _ | ⟨_, _⟩⟩ := rest
    · exact erases_step _
    · exact erases_evalResult hE body
    · exact erases_step _
  · have htracked : (match keyword, rest with
        | "else", [body] => evalResult E body
        | _, _ => step (fail (.usage Builtin.ifForm))) = step (fail (.usage Builtin.ifForm)) := by
      split
      · contradiction
      · rfl
    have herased : (match keyword, rest with
        | "else", [body] => Builtin.evalResult E' body
        | _, _ => fail (.usage Builtin.ifForm)) = fail (.usage Builtin.ifForm) := by
      split
      · contradiction
      · rfl
    rw [htracked, herased]
    exact erases_step _

/-- The chain is followed in the same way: a branch, the next condition, or its end. -/
theorem erases_ifChain (hE : ∀ r, Erases (E.eval r) (E'.eval r)) :
    ∀ words, Erases (ifChain E words) (Builtin.ifChain E' words)
  | [] | [_] => erases_step (fail (.usage Builtin.ifForm))
  | cond :: body :: rest => by
    unfold ifChain Builtin.ifChain
    refine (erases_condition hE cond).bind fun holds => ?_
    split
    · exact erases_evalResult hE body
    · obtain _ | ⟨keyword, rest⟩ := rest
      · exact .pure none
      · refine .stepBind fun keyword => ?_
        split
        · exact erases_ifChain hE rest
        · exact erases_ifEnd hE keyword rest

/-- So is a loop with a condition. -/
lemma erases_whileLoop (hE : ∀ r, Erases (E.eval r) (E'.eval r)) (cond body : Ref)
    (rounds : Nat) :
    Erases (whileLoop E cond body rounds) (Builtin.whileLoop E' cond body rounds) := by
  induction rounds with
  | zero => exact erases_step _
  | succ rounds ih =>
    refine (erases_condition hE cond).bind fun holds => ?_
    split
    · refine (erases_round hE body).bind fun goes => ?_
      split
      · exact ih
      · exact .pure _
    · exact .pure _

/-- So is a loop over pieces. -/
lemma erases_foreachLoop (hE : ∀ r, Erases (E.eval r) (E'.eval r)) (vars : List Ref) (body : Ref)
    (pieces : List (List Ref)) :
    Erases (foreachLoop E vars body pieces) (Builtin.foreachLoop E' vars body pieces) := by
  induction pieces with
  | nil => exact .pure _
  | cons items pieces ih =>
    refine .stepBind fun _ => (erases_round hE body).bind fun goes => ?_
    split
    · exact ih
    · exact .pure _

/-- So is a script that is evaluated a number of times. -/
lemma erases_repeatEval (hE : ∀ r, Erases (E.eval r) (E'.eval r)) (script : Ref) (count : Nat) :
    Erases (repeatEval E script count) (Builtin.repeatEval E' script count) := by
  induction count with
  | zero => exact .pure _
  | succ count ih => exact (hE script).bind fun _ => ih

/-- So is evaluation at another level. -/
lemma erases_evalAt (hE : ∀ r, Erases (E.eval r) (E'.eval r)) (script : Ref) (level : Int) :
    Erases (evalAt E script level) (Builtin.evalAt E' script level) := by
  refine .stepBind fun c => .stepBind fun place => .stepBind fun _ => ?_
  exact (hE script).observeBind fun x => .stepBind fun _ => erases_conclude x

/-- So is `eval`. -/
lemma erases_eval (hE : ∀ r, Erases (E.eval r) (E'.eval r)) :
    ∀ argv, Erases (eval E argv) (Builtin.eval E' argv)
  | [_, script] => erases_evalResult hE script
  | [] | [_] | _ :: _ :: _ :: _ => erases_step fault

/-- So is `catch`. -/
lemma erases_catchSignal (hE : ∀ r, Erases (E.eval r) (E'.eval r)) (argv : List Ref) :
    Erases (catchSignal E argv) (Builtin.catchSignal E' argv) := by
  rw [Builtin.catchSignal_eq]
  refine .stepBind fun script => (hE script).observeBind fun x => ?_
  cases x with
  | ok r => exact erases_step _
  | error x => exact erases_step _

/-- So is `upeval`. -/
lemma erases_upeval (hE : ∀ r, Erases (E.eval r) (E'.eval r)) :
    ∀ argv, Erases (upeval E argv) (Builtin.upeval E' argv)
  | [_, script] => (erases_evalAt hE script _).bind fun r => .pure (some r)
  | [_, _, script] => .stepBind fun _ => (erases_evalAt hE script _).bind fun r => .pure (some r)
  | [] | [_] | _ :: _ :: _ :: _ :: _ => erases_step fault

/-- So is `time`. -/
lemma erases_time (hE : ∀ r, Erases (E.eval r) (E'.eval r)) (argv : List Ref) :
    Erases (time E argv) (Builtin.time E' argv) := by
  rw [Builtin.time_eq]
  refine .stepBind fun count => .stepBind fun script => .stepBind fun start => ?_
  exact (erases_repeatEval hE script _).bind fun _ => .stepBind fun stop => erases_step _

/-- So is `while`. -/
lemma erases_loopWhile (hE : ∀ r, Erases (E.eval r) (E'.eval r))
    (hrounds : E.rounds = E'.rounds) :
    ∀ argv, Erases (loopWhile E argv) (Builtin.loopWhile E' argv)
  | [_, cond, body] => by
    refine Erases.bind ?_ fun _ => .pure none
    rw [hrounds]
    exact erases_whileLoop hE cond body E'.rounds
  | [] | [_] | [_, _] | _ :: _ :: _ :: _ :: _ => erases_step fault

/-- So is `foreach`. -/
lemma erases_foreach (hE : ∀ r, Erases (E.eval r) (E'.eval r)) :
    ∀ argv, Erases (foreach E argv) (Builtin.foreach E' argv)
  | [_, names, list, body] => by
    refine .stepBind fun vars => .stepBind fun items => ?_
    cases vars with
    | nil => exact erases_step _
    | cons var others => exact (erases_foreachLoop hE _ _ _).bind fun _ => .pure none
  | [] | [_] | [_, _] | [_, _, _] | _ :: _ :: _ :: _ :: _ :: _ => erases_step fault

/-- **Commands that run scripts** do what they do. -/
lemma erases_control (hE : ∀ r, Erases (E.eval r) (E'.eval r)) (hrounds : E.rounds = E'.rounds)
    (b : Builtin.Control) (argv : List Ref) : Erases (control E b argv) (b.run E' argv) :=
  match b with
  | .eval => erases_eval hE argv
  | .catch => erases_catchSignal hE argv
  | .upeval => erases_upeval hE argv
  | .time => erases_time hE argv
  | .if => erases_ifChain hE argv.tail
  | .while => erases_loopWhile hE hrounds argv
  | .foreach => erases_foreach hE argv

/-! ### Procedures -/

/-- So is the end of a call. -/
lemma erases_settle (x : Except (Exception × Active) Ref) :
    Erases (settle x : TrackedM κ Ref) (EvalM.settle (plain x)) := by
  cases x with
  | ok r => exact .pure r
  | error x =>
    obtain ⟨e, origin⟩ := x
    unfold settle EvalM.settle
    dsimp only [plain]
    cases e.code with
    | returned => exact .pure e.value
    | broke => exact erases_step _
    | continued => exact erases_step _
    | _ => exact erases_raise e origin

/-- So is the call of a procedure. -/
lemma erases_call (hE : ∀ r, Erases (E.eval r) (E'.eval r)) (p : Procedure) (argv : List Ref) :
    Erases (call E p argv) (p.call E' argv) := by
  refine .stepBind fun _ => Erases.observeBind (.stepBind fun _ => hE p.body) fun x => ?_
  exact .stepBind fun _ => erases_settle x

end Control

/-! ### Commands and scripts -/

section Scripts

variable {E : TrackedEngine Empty} {E' : Engine Empty}

/-- So is every command. -/
lemma erases_execute (hE : ∀ r, Erases (E.eval r) (E'.eval r)) (hrounds : E.rounds = E'.rounds)
    (argv : List Ref) (c : Command Empty) : Erases (execute E argv c) (c.execute E' argv) := by
  cases c with
  | builtin b =>
    refine .stepBind fun _ => ?_
    cases b with
    | plain b => exact erases_step _
    | control b => exact (erases_control hE hrounds b argv).bind fun r => erases_step _
  | host _ _ action => exact action.elim
  | procedure p => exact erases_call hE p argv
  | invoke =>
    change Erases _ (Command.invokeValue E' argv)
    rw [Command.invokeValue_eq_bind]
    exact .stepBind fun p => erases_call hE p argv

/-- So is a command that is looked up. -/
lemma erases_dispatch (hE : ∀ r, Erases (E.eval r) (E'.eval r)) (hrounds : E.rounds = E'.rounds)
    (argv : List Ref) : Erases (dispatch E argv) (Interp.dispatch E' argv) := by
  rw [Interp.dispatch_eq_findCommand]
  exact .stepBind fun command => erases_execute hE hrounds argv command

/-- So is one whose errors are traced. -/
lemma erases_runCommand (hE : ∀ r, Erases (E.eval r) (E'.eval r)) (hrounds : E.rounds = E'.rounds)
    (argv : List Ref) : Erases (runCommand E argv) (Interp.runCommand E' argv) := by
  refine ((erases_dispatch hE hrounds argv).during argv).observeBind fun x => ?_
  cases x with
  | ok r => exact .pure r
  | error x =>
    obtain ⟨e, origin⟩ := x
    dsimp only [plain]
    split
    · exact .stepBind fun frame => erases_raise _ origin
    · exact erases_raise e origin

mutual

/-- The commands of a script do what they do. -/
theorem erases_runScript (hE : ∀ r, Erases (E.eval r) (E'.eval r))
    (hrounds : E.rounds = E'.rounds) (last : Option Ref) :
    ∀ script, Erases (runScript E last script) (Interp.runScript E' last script)
  | [] => erases_step (Command.resultOf last)
  | words :: rest =>
    (erases_evalWords hE hrounds words).bind fun argv =>
      (erases_runCommand hE hrounds argv).bind fun r => erases_runScript hE hrounds (some r) rest

/-- So are the words of a command. -/
theorem erases_evalWords (hE : ∀ r, Erases (E.eval r) (E'.eval r))
    (hrounds : E.rounds = E'.rounds) :
    ∀ words, Erases (evalWords E words) (Interp.evalWords E' words)
  | [] => .pure []
  | w :: rest =>
    (erases_evalWord hE hrounds w).bind fun r => (erases_evalWords hE hrounds rest).bind fun rs =>
      .pure (r :: rs)

/-- So is a single word. -/
theorem erases_evalWord (hE : ∀ r, Erases (E.eval r) (E'.eval r))
    (hrounds : E.rounds = E'.rounds) : ∀ w, Erases (evalWord E w) (Interp.evalWord E' w)
  | .literal r => .pure r
  | .var name => erases_step _
  | .substitution script => erases_runScript hE hrounds none script
  | .joined parts => by
    refine (erases_evalWords hE hrounds parts).bind fun rs => ?_
    obtain _ | ⟨r, _ | ⟨q, rs⟩⟩ := rs
    · exact erases_step _
    · exact .pure r
    · exact erases_step _

end

/-- So is the note of an error. -/
lemma erases_noted (x : Except (Exception × Active) Ref) :
    Erases (noted x) (Interp.noted (plain x)) := by
  cases x with
  | ok r => exact .pure r
  | error x => exact .stepBind fun _ => erases_raise x.1 x.2

/-- So is the way out of an evaluation. -/
lemma erases_release (x : Except (Exception × Active) Ref) :
    Erases (release x) (Interp.release (plain x)) := by
  refine .stepBind fun c => ?_
  split
  · exact (erases_settle x).observeBind erases_noted
  · exact erases_noted x

/-- So is a nested evaluation. -/
lemma erases_evalNested (hE : ∀ r, Erases (E.eval r) (E'.eval r))
    (hrounds : E.rounds = E'.rounds) (r : Ref) :
    Erases (evalNested E r) (Interp.evalNested E' r) := by
  intro act ⟨v, c⟩
  rw [Interp.evalNested_apply]
  change TrackedM.forget ((if c.limit < c.level + 1 then _ else _ : TrackedM Empty Ref) act
    ⟨v, c⟩) = _
  split
  · exact erases_step _ act ⟨v, c⟩
  · have hscript : Erases (do
        let script ← step (Interp.scriptOf r)
        runScript E none script) (Interp.scriptOf r >>= Interp.runScript E' none) :=
      .stepBind fun script => erases_runScript hE hrounds none script
    refine (?_ : Erases _ _) act ⟨v, c⟩
    exact .stepBind fun _ => hscript.observeBind fun x => .stepBind fun _ => erases_release x

/-- **Evaluation is what is left** when the active commands are forgotten, whatever the bound.

**Proof sketch.** Induction on the bound: what is nested is evaluated with a smaller one. -/
theorem erases_evaluate (bound : Nat) (r : Ref) :
    Erases (evaluate bound r) (Interp.evaluate bound r) := by
  induction bound generalizing r with
  | zero => exact erases_step _
  | succ bound ih => exact erases_evalNested ih rfl r

end Scripts

end Tracked

end CommandScript
