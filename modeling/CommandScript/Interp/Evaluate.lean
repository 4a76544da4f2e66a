import CommandScript.Builtin.Control
import CommandScript.Builtin.Plain

/-!
# Evaluation

To run a command, its words are evaluated from left to right; the first word then names the
command, or its type decides. The value of a script is that of its last command. Scripts in
brackets are part of the script that holds them. Evaluating a value as a script is one level of
nesting, and there is a limit to nesting; at the outermost level, only errors come out.

Evaluation is given a number that bounds both how deep it may be nested and how often a loop may
go round, so that it always comes to an end: if the number was too small, it says so.

## Main definitions

* `Command.execute` — runs a command, `Interp.dispatch` — finds and runs it.
* `Interp.runScript`, `Interp.evalWords`, `Interp.evalWord` — scripts and words.
* `Interp.evalNested` — evaluates a value as a script, one level deeper.
* `Interp.evaluate` — the same, with a bound.
* `Interp.engine` — evaluation as built-in commands use it.
-/

set_option autoImplicit false

namespace CommandScript

open EvalM

variable {κ : Type} [HostCommands κ]

/-- The result of a command, the empty text if it has none. -/
def Command.resultOf (r : Option Ref) : EvalM κ Ref :=
  match r with
  | some r => pure r
  | none => (Store.ofText "" : StoreM Ref)

/-- Calls the procedure that the first word is. -/
def Command.invokeValue (E : Engine κ) (argv : List Ref) : EvalM κ Ref := do
  let value ← arg argv 0
  let object ←
    match ← objectOf? value with
    | some o => object? o
    | none => pure none
  match object with
  | some (.procedure p) => p.call E argv
  | _ => fail (.notProcedure (← text value))

/-- Runs a command with the words it is called with. -/
def Command.execute (E : Engine κ) (argv : List Ref) : Command κ → EvalM κ Ref
  | .builtin b => do
    attempt (b.arity.check (argv.length - 1))
    match b with
    | .plain b => Command.resultOf (← b.run argv)
    | .control b => Command.resultOf (← b.run E argv)
  | .host _ arity action => do
    attempt (arity.check (argv.length - 1))
    Command.resultOf (← HostCommands.run E action argv)
  | .procedure p => p.call E argv
  | .invoke => Command.invokeValue E argv

namespace Interp

/-- Finds the command that the first word names, or that its type is registered for, and runs
it. -/
def dispatch (E : Engine κ) (argv : List Ref) : EvalM κ Ref := do
  let head ← arg argv 0
  let name ← text head
  match (← getContext).commands.find? name with
  | some command => command.execute E argv
  | none =>
    let tag ← typeOf head
    match ← typeCommand tag with
    | some command => command.execute E argv
    | none =>
      match ← objectOf? head with
      | some _ => fail (.noTypeCommand tag.name)
      | none => fail (.unknownCommand name)

/-- Runs a command whose words have been evaluated. An error that comes out notes the command. -/
def runCommand (E : Engine κ) (argv : List Ref) : EvalM κ Ref := do
  match ← observe (dispatch E argv) with
  | .ok r => return r
  | .error e =>
    if e.isError then
      let frame ← (do Store.ofText (← Store.listText argv) : StoreM Ref)
      raise (e.addFrame frame)
    else raise e

mutual

/-- Runs the commands of a script. `last` is the result of the commands before. -/
def runScript (E : Engine κ) (last : Option Ref) : List (List (Word Ref)) → EvalM κ Ref
  | [] => Command.resultOf last
  | words :: rest => do
    let argv ← evalWords E words
    let r ← runCommand E argv
    runScript E (some r) rest

/-- Evaluates words from left to right. -/
def evalWords (E : Engine κ) : List (Word Ref) → EvalM κ (List Ref)
  | [] => return []
  | w :: rest => do
    let r ← evalWord E w
    let rs ← evalWords E rest
    return r :: rs

/-- Evaluates a word. Several parts are put together to a new text; a single one is the value
itself. -/
def evalWord (E : Engine κ) : Word Ref → EvalM κ Ref
  | .literal r => return r
  | .var name => getVar name (-1)
  | .substitution script => runScript E none script
  | .joined parts => do
    match ← evalWords E parts with
    | [r] => return r
    | rs =>
      let texts ← (Store.texts rs : StoreM (List String))
      (Store.ofText (texts.foldr (· ++ ·) "") : StoreM Ref)

end

/-- The script that a value is. -/
def scriptOf (r : Ref) : EvalM κ (Script Ref) := do
  match ← (Store.asScript r : StoreM (Script.Outcome (Script Ref))) with
  | .done script => return script
  | .failed e => fail (.script e)
  | .stuck => throw .diverged

/-- Keeps what is known of an error. -/
def noteError (e : Exception) : EvalM κ Unit := do
  if e.isError then
    let errorStack ← (e.diagnosis : StoreM ErrorStack)
    modifyContext fun c => { c with errorStack }

/-- Evaluates a value as a script, one level deeper. -/
def evalNested (E : Engine κ) (r : Ref) : EvalM κ Ref := do
  let c ← getContext
  if c.limit < c.level + 1 then fail .nestingTooDeep
  modifyContext fun c => { c with level := c.level + 1 }
  let outcome ← observe do
    let script ← scriptOf r
    runScript E none script
  modifyContext fun c => { c with level := c.level - 1 }
  let outcome ← if (← getContext).level = 0 then observe (settle outcome) else pure outcome
  match outcome with
  | .ok r => return r
  | .error e =>
    noteError e
    raise e

/-- Evaluates a value as a script; `bound` limits how deep it may be nested and how often its
loops may go round. -/
def evaluate : Nat → Ref → EvalM κ Ref
  | 0, _ => throw .diverged
  | bound + 1, r => evalNested ⟨fun r => evaluate bound r, bound⟩ r

/-- Evaluation as it is used by commands, with a bound. -/
def engine (bound : Nat) : Engine κ :=
  ⟨evaluate bound, bound⟩

end Interp

end CommandScript
