import CommandScript.Builtin.Name
import CommandScript.Command.ByType
import CommandScript.Command.Registry
import CommandScript.Exception
import CommandScript.Platform
import CommandScript.Scope
import CommandScript.Value.Conversion
import CommandScript.Value.Copy

/-!
# The interpreter

An interpreter holds values and, besides them, a *context*: its commands, its variables, the data
that the application has attached, and where it is in the evaluation. Evaluation is a computation
on it that either yields a result or stops early: mostly with an exception, but a script can also
end the program, and it can run forever.

The commands that an application adds are values of a type `κ` of its own choosing. With the empty
type for `κ`, an interpreter has no commands but those of the language.

## Main definitions

* `Command` — what a name may stand for.
* `Context`, `Interp` — an interpreter.
* `Stop`, `EvalM` — evaluation.
* `Engine` — how to evaluate what is nested, `HostCommands` — the commands of an application.
* `Interp.bare`, `Interp.standard` — the interpreters to start with.
-/

set_option autoImplicit false

namespace CommandScript

/-- How an application has defined a command. -/
inductive HostKind where
  /-- As a function. -/
  | native
  /-- As a function with data of its own. -/
  | closure
deriving DecidableEq, Repr

/-- What a name may stand for. -/
inductive Command (κ : Type) where
  /-- A command of the language. -/
  | builtin (b : Builtin)
  /-- A command of the application. -/
  | host (kind : HostKind) (arity : Arity) (action : κ)
  /-- A procedure. -/
  | procedure (p : Procedure)
  /-- The command for values that are procedures: calls the value in the first place. -/
  | invoke

namespace Command

variable {κ : Type}

/-- The kind of a command, as it is shown. -/
def kind : Command κ → String
  | .builtin _ | .invoke | .host .native _ _ => "native"
  | .host .closure _ _ => "closure"
  | .procedure _ => "proc"

/-- Whether the command is a procedure. -/
def isProcedure : Command κ → Bool
  | .procedure _ => true
  | _ => false

end Command

/-- Data that an application has attached. -/
inductive AuxData where
  /-- A text. -/
  | text (s : String)
  /-- A number. -/
  | number (n : Int64)
  /-- The place that output goes to. -/
  | output
deriving DecidableEq, Repr

/-- What an interpreter holds besides its values. -/
structure Context (κ : Type) where
  /-- Commands by name. -/
  commands : Registry (Command κ) := .empty
  /-- Commands by type. -/
  typeCommands : TypeCommands (Command κ) := {}
  /-- Variables. -/
  scopes : ScopeStack := {}
  /-- Data of the application. -/
  aux : Table AuxData := .empty
  /-- What is known of the last error. -/
  errorStack : ErrorStack := .empty
  /-- How deep evaluations may be nested. -/
  limit : Nat := 1000
  /-- How deep they are nested. -/
  level : Nat := 0
  /-- What was written to the attached output. -/
  output : String := ""
  /-- What was written without an attached output. -/
  console : String := ""
  /-- The machine. -/
  platform : Platform := {}

/-- An interpreter. -/
structure Interp (κ : Type) where
  /-- Its values. -/
  values : Store := {}
  /-- All else. -/
  context : Context κ := {}

/-- Why an evaluation stops without a result. -/
inductive Stop where
  /-- An exception was raised. -/
  | raised (e : Exception)
  /-- The program is to end. -/
  | exited (status : Int32)
  /-- An argument was used that is not there. -/
  | fault
  /-- The evaluation does not come to an end in the time that it was given. -/
  | diverged

/-- An evaluation. -/
abbrev EvalM (κ : Type) : Type → Type :=
  EStateM Stop (Interp κ)

/-- How to evaluate what is nested in a command. -/
structure Engine (κ : Type) where
  /-- Evaluates a value as a script. -/
  eval : Ref → EvalM κ Ref
  /-- How many rounds a loop may make. -/
  rounds : Nat

/-- The commands of an application: what each does with the words it is called with. A command
may evaluate scripts. -/
class HostCommands (κ : Type) where
  /-- Runs a command. It need not have a result. -/
  run : Engine κ → κ → List Ref → EvalM κ (Option Ref)

instance : HostCommands Empty where
  run _ action _ := nomatch action

namespace EvalM

variable {κ : Type} {α : Type}

/-! ## Parts of the interpreter -/

/-- Raises the error for a failure. -/
def fail (f : Failure) : EvalM κ α := fun ⟨values, context⟩ =>
  match Exception.ofFailure f values with
  | (e, values) => .error (.raised e) ⟨values, context⟩

instance : MonadLift ConvM (EvalM κ) where
  monadLift m := fun ⟨values, context⟩ =>
    match m values with
    | .ok a values => .ok a ⟨values, context⟩
    | .error f values => fail f ⟨values, context⟩

instance : MonadLift StoreM (EvalM κ) where
  monadLift m := fun ⟨values, context⟩ =>
    match m values with
    | (a, values) => .ok a ⟨values, context⟩

/-- The context as it is now. -/
def getContext : EvalM κ (Context κ) := fun s =>
  .ok s.context s

/-- Changes the context. -/
def modifyContext (f : Context κ → Context κ) : EvalM κ Unit := fun ⟨values, context⟩ =>
  .ok () ⟨values, f context⟩

/-- The type of a value as it is now. -/
def typeOf (r : Ref) : EvalM κ TypeTag := fun s =>
  .ok (s.values.typeOf r) s

/-- The object that a value wraps, if any. -/
def objectOf? (r : Ref) : EvalM κ (Option ObjectRef) := fun s =>
  .ok (s.values.objectOf? r) s

/-- The object of a reference. -/
def object? (o : ObjectRef) : EvalM κ (Option Object) := fun s =>
  .ok (s.values.object? o) s

/-- The text of a value. -/
def text (r : Ref) : EvalM κ String :=
  Store.text r

/-! ## Failing and catching -/

/-- Raises an exception. -/
def raise (e : Exception) : EvalM κ α :=
  throw (.raised e)

/-- Stops because an argument is not there. -/
def fault : EvalM κ α :=
  throw .fault

/-- Continues with a result, or raises the error for a failure. -/
def attempt : Except Failure α → EvalM κ α
  | .ok a => pure a
  | .error f => fail f

/-- Makes an exception a result. Nothing else is caught. -/
def observe (m : EvalM κ α) : EvalM κ (Except Exception α) := fun s =>
  match m s with
  | .ok a s => .ok (.ok a) s
  | .error (.raised e) s => .ok (.error e) s
  | .error .fault s => .error .fault s
  | .error (.exited status) s => .error (.exited status) s
  | .error .diverged s => .error .diverged s

/-- Makes a result an exception again. -/
def conclude : Except Exception α → EvalM κ α
  | .ok a => pure a
  | .error e => raise e

/-! ## Arguments -/

/-- The word at a place of a command. -/
def arg (argv : List Ref) (place : Nat) : EvalM κ Ref :=
  match argv[place]? with
  | some r => pure r
  | none => fault

/-- Checks the number of words of a command that checks it itself. The first `names` words are its
name; `most` being zero, there is no upper bound. -/
def checkArgs (names : Nat) (argv : List Ref) (least most : Nat) (form : String) :
    EvalM κ Unit := do
  if argv.length < least ∨ (0 < most ∧ most < argv.length) then
    if argv.length < names then fault
    let name ← (Store.listText (argv.take names) : StoreM String)
    fail (.usage (name ++ " " ++ form))

/-- The subcommand that the word at the place names. -/
def subcommand (argv : List Ref) (place : Nat) (ensemble : List (String × α)) : EvalM κ α := do
  checkArgs place argv (place + 1) 0 "subcommand ?arg ...?"
  let name ← text (← arg argv place)
  attempt (findSubcommand ensemble name)

/-! ## Variables -/

/-- Replaces the scopes, or raises the error. -/
def updateScopes (f : ScopeStack → Except Failure ScopeStack) : EvalM κ Unit := do
  let scopes ← attempt (f (← getContext).scopes)
  modifyContext fun c => { c with scopes }

/-- The value of a variable. -/
def getVar (name : String) (level : Int) : EvalM κ Ref := do
  attempt ((← getContext).scopes.get name level)

/-- Gives a variable a value, and yields what is stored: the value, or a copy of it if it belongs
to a script. -/
def setVar (name : String) (r : Ref) (level : Int) : EvalM κ Ref := do
  let _ ← attempt ((← getContext).scopes.place? level)
  let r ← (Store.own r : StoreM Ref)
  updateScopes fun s => s.set name r level
  return r

/-- Removes a variable. -/
def unsetVar (name : String) (level : Int) : EvalM κ Unit :=
  updateScopes fun s => s.unset name level

/-- Whether there is such a variable. -/
def hasVar (name : String) (level : Int) : EvalM κ Bool := do
  return (← getContext).scopes.has name level

/-- Links a name in the top frame to the global variable. -/
def linkGlobal (name : String) : EvalM κ Unit :=
  modifyContext fun c => { c with scopes := c.scopes.linkGlobal name }

/-- The names in a frame. -/
def varNames (level : Int) : EvalM κ (List String) := do
  attempt ((← getContext).scopes.names level)

/-! ## Commands -/

/-- Binds a name to a command. -/
def addCommand (name : String) (command : Command κ) : EvalM κ Unit :=
  modifyContext fun c => { c with commands := Registry.add c.commands name command }

/-- Removes a command. -/
def removeCommand (name : String) : EvalM κ Unit :=
  modifyContext fun c => { c with commands := Registry.remove c.commands name }

/-- Replaces the table of commands, or raises the error. -/
def updateCommands
    (f : Registry (Command κ) → Except Failure (Registry (Command κ))) : EvalM κ Unit := do
  let commands ← attempt (f (← getContext).commands)
  modifyContext fun c => { c with commands }

/-- Moves a command to another name. -/
def renameCommand (old new : String) : EvalM κ Unit :=
  updateCommands fun r => Registry.rename r old new

/-- Gives a command another name, too. -/
def aliasCommand (old new : String) : EvalM κ Unit :=
  updateCommands fun r => Registry.addAlias r old new

/-- The procedure of a name. -/
def procedureNamed (name : String) : EvalM κ Procedure := do
  match (← getContext).commands.find? name with
  | some (.procedure p) => return p
  | _ => fail (.notProcedure name)

/-- The names of the commands that are procedures. -/
def procedureNames : EvalM κ (List String) := do
  return ((← getContext).commands.entries.filter fun e => e.2.isProcedure).map Prod.fst

/-- The command for values of a type. -/
def typeCommand (tag : TypeTag) : EvalM κ (Option (Command κ)) := do
  let (command, typeCommands) := (← getContext).typeCommands.resolve tag
  modifyContext fun c => { c with typeCommands }
  return command

/-! ## The machine -/

/-- Takes the next reading of the clocks. -/
def readClock : EvalM κ Reading := fun ⟨values, context⟩ =>
  .ok (context.platform.clock 0) ⟨values, { context with platform := context.platform.tick }⟩

/-! ## Output -/

/-- Where the application attaches the place for output. -/
def outputKey : String := "hecl:output"

/-- Writes a line to the attached output, or to the console. -/
def writeLine (line : String) : EvalM κ Unit :=
  modifyContext fun c =>
    match c.aux.find? outputKey with
    | some .output => { c with output := c.output ++ line ++ "\n" }
    | _ => { c with console := c.console ++ line ++ "\n" }

end EvalM

namespace Interp

variable {κ : Type}

/-- Declares types one after another. -/
def declareAll {α : Type} (t : TypeCommands α) (tags : List TypeTag) : TypeCommands α :=
  tags.foldl TypeCommands.declare t

/-- An interpreter without commands. -/
def bare : Interp κ :=
  { context := { typeCommands := declareAll {} TypeTag.builtins } }

/-- An interpreter with the commands of the language. -/
def standard : Interp κ :=
  let start : Interp κ := bare
  { start with
    context := { start.context with
      commands := Table.ofPairs (Builtin.standard.map fun e => (e.1, .builtin e.2))
      typeCommands := start.context.typeCommands.register .proc .invoke } }

end Interp

end CommandScript
