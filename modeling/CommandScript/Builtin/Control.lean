import CommandScript.Builtin.State

/-!
# The commands that run scripts

Conditions, loops, catching, and evaluation at another level. Each is written over an engine,
which says how the scripts in its arguments are evaluated.

## Main definitions

* `Builtin.condition` — whether a condition holds, `Builtin.round` — one round of a loop.
* `Builtin.ifChain`, `Builtin.whileLoop`, `Builtin.foreachLoop` — the control structures.
* `Builtin.evalAt` — evaluation at another level.
* `Builtin.Control.run` — what each command does with the words it is called with.
-/

set_option autoImplicit false

namespace CommandScript.Builtin

open EvalM

variable {κ : Type}

/-- Whether a condition holds: it is a truth value itself, or a script that yields one. -/
def condition (E : Engine κ) (cond : Ref) : EvalM κ Bool := do
  match ← (Store.bool? cond : StoreM (Option Bool)) with
  | some b => return b
  | none =>
    let r ← E.eval cond
    (Store.asBool r : ConvM Bool)

/-- Runs the body of a loop. Yields whether the loop goes on. -/
def round (E : Engine κ) (body : Ref) : EvalM κ Bool := do
  match ← observe (E.eval body) with
  | .ok _ => return true
  | .error e =>
    match e.code with
    | .broke => return false
    | .continued => return true
    | _ => raise e

/-- Evaluates a script for its result. -/
def evalResult (E : Engine κ) (script : Ref) : EvalM κ (Option Ref) := do
  let r ← E.eval script
  return some r

/-- How `if` is written. -/
def ifForm : String := "if cond body ?elseif cond body ...? ?else body?"

/-- Runs the first branch whose condition holds. -/
def ifChain (E : Engine κ) : List Ref → EvalM κ (Option Ref)
  | cond :: body :: rest => do
    if ← condition E cond then evalResult E body
    else
      match rest with
      | [] => done
      | keyword :: rest =>
        let keyword ← text keyword
        if keyword = "elseif" then ifChain E rest
        else
          match keyword, rest with
          | "else", [body] => evalResult E body
          | _, _ => fail (.usage ifForm)
  | _ => fail (.usage ifForm)

/-- Runs the body as long as the condition holds, for a number of rounds at most. -/
def whileLoop (E : Engine κ) (cond body : Ref) : Nat → EvalM κ Unit
  | 0 => throw .diverged
  | rounds + 1 => do
    if ← condition E cond then
      if ← round E body then whileLoop E cond body rounds

/-- Cuts a list into pieces of `size + 1` elements; the last one may be shorter. -/
def chunks {α : Type} (size : Nat) (items : List α) : List (List α) :=
  match items with
  | [] => []
  | a :: rest => (a :: rest.take size) :: chunks size (rest.drop size)
termination_by items.length
decreasing_by
  simp only [List.length_drop, List.length_cons]
  omega

/-- Gives the variables the values, and the empty text where there are too few. -/
def bindLoopVars : List Ref → List Ref → EvalM κ Unit
  | [], _ => return
  | var :: vars, items => do
    let r ←
      match items with
      | r :: _ => pure r
      | [] => (Store.ofText "" : StoreM Ref)
    let _ ← setVar (← text var) r (-1)
    bindLoopVars vars items.tail

/-- Runs the body once for each piece of the list. -/
def foreachLoop (E : Engine κ) (vars : List Ref) (body : Ref) : List (List Ref) → EvalM κ Unit
  | [] => return
  | items :: rest => do
    bindLoopVars vars items
    if ← round E body then foreachLoop E vars body rest

/-- Runs a script a number of times. -/
def repeatEval (E : Engine κ) (script : Ref) : Nat → EvalM κ Unit
  | 0 => return
  | count + 1 => do
    let _ ← E.eval script
    repeatEval E script count

/-- Evaluates a script at another level: the frames above it are set aside and put back
afterwards, whatever happens. -/
def evalAt (E : Engine κ) (script : Ref) (level : Int) : EvalM κ Ref := do
  let scopes := (← getContext).scopes
  let place ← attempt (scopes.evalPlace? level)
  let (frames, scopes) := scopes.popMany [] (scopes.depth - 1 - place)
  modifyContext fun c => { c with scopes }
  let outcome ← observe (E.eval script)
  modifyContext fun c => { c with scopes := c.scopes.pushMany frames }
  conclude outcome

/-- `eval script` -/
def eval (E : Engine κ) : List Ref → EvalM κ (Option Ref)
  | [_, script] => evalResult E script
  | _ => fault

/-- `catch script ?name?` -/
def catchSignal (E : Engine κ) (argv : List Ref) : EvalM κ (Option Ref) := do
  let (status, value) ←
    match ← observe (E.eval (← arg argv 1)) with
    | .ok r => pure (0, r)
    | .error e => pure (e.code.status, e.value)
  match argv with
  | [_, _, name] =>
    let _ ← setVar (← text name) value (-1)
    result (Store.ofInt status)
  | _ => result (Store.ofInt status)

/-- `upeval ?level? script` -/
def upeval (E : Engine κ) : List Ref → EvalM κ (Option Ref)
  | [_, script] => do
    let r ← evalAt E script (-1)
    return some r
  | [_, level, script] => do
    let level ← (Store.asInt level : ConvM Int32)
    let r ← evalAt E script level.toInt
    return some r
  | _ => fault

/-- `time script ?count?` -/
def time (E : Engine κ) (argv : List Ref) : EvalM κ (Option Ref) := do
  let count ←
    match argv[2]? with
    | some r => (Store.asInt r : ConvM Int32)
    | none => pure 1
  let script ← arg argv 1
  let start ← readClock
  repeatEval E script count.toInt.toNat
  let stop ← readClock
  result (Store.ofLong (start.elapsed stop))

/-- `while cond body` -/
def loopWhile (E : Engine κ) : List Ref → EvalM κ (Option Ref)
  | [_, cond, body] => do
    whileLoop E cond body E.rounds
    done
  | _ => fault

/-- `foreach names list body` -/
def foreach (E : Engine κ) : List Ref → EvalM κ (Option Ref)
  | [_, names, list, body] => do
    let vars ← (Store.asList names : ConvM (List Ref))
    let items ← (Store.asList list : ConvM (List Ref))
    match vars with
    | [] => fail .noLoopVariables
    | _ :: others =>
      foreachLoop E vars body (chunks others.length items)
      done
  | _ => fault

/-- Runs a command that runs scripts. -/
def Control.run (E : Engine κ) : Control → List Ref → EvalM κ (Option Ref)
  | .eval => Builtin.eval E
  | .catch => catchSignal E
  | .upeval => Builtin.upeval E
  | .time => Builtin.time E
  | .if => fun argv => ifChain E argv.tail
  | .while => loopWhile E
  | .foreach => Builtin.foreach E

end CommandScript.Builtin
