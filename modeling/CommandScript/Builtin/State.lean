import CommandScript.Interp.Procedure

/-!
# Commands on variables, commands and types

The built-in commands that look at or change the interpreter itself, or raise exceptions.

## Main definitions

* `Builtin.set`, `Builtin.proc`, `Builtin.intro` and others — one function per command, from the
  words of the command to its result.
-/

set_option autoImplicit false

namespace CommandScript.Builtin

open EvalM

variable {κ : Type}

/-- A command without a result. -/
def done : EvalM κ (Option Ref) :=
  return none

/-- A new value as a result. -/
def result (r : StoreM Ref) : EvalM κ (Option Ref) := do
  let r ← r
  return some r

/-! ## Variables -/

/-- `set name ?value?` -/
def set : List Ref → EvalM κ (Option Ref)
  | [_, name] => do
    let r ← getVar (← text name) (-1)
    return some r
  | [_, name, value] => do
    let r ← setVar (← text name) value (-1)
    return some r
  | _ => fault

/-- `unset name` -/
def unset : List Ref → EvalM κ (Option Ref)
  | [_, name] => do
    unsetVar (← text name) (-1)
    done
  | _ => fault

/-- `exists name` -/
def isSet : List Ref → EvalM κ (Option Ref)
  | [_, name] => do
    let b ← hasVar (← text name) (-1)
    result (Store.ofBool b)
  | _ => fault

/-- `copy value` -/
def copy : List Ref → EvalM κ (Option Ref)
  | [_, value] => result (Store.copy value)
  | _ => fault

/-- `global ?name ...?` -/
def global : List Ref → EvalM κ (Option Ref)
  | _ :: names => do
    names.forM fun name => do
      linkGlobal (← text name)
    done
  | [] => fault

/-! ## Commands -/

/-- `proc ?name? params body` -/
def proc : List Ref → EvalM κ (Option Ref)
  | [_, spec, body] => do
    let p ← (Procedure.define spec body : ConvM Procedure)
    result (Store.ofObject (.procedure p))
  | [_, name, spec, body] => do
    let name ← text name
    let p ← (Procedure.define spec body : ConvM Procedure)
    addCommand name (.procedure p)
    done
  | _ => fault

/-- `rename old new` -/
def rename : List Ref → EvalM κ (Option Ref)
  | [_, old, new] => do
    let old ← text old
    let new ← text new
    renameCommand old new
    done
  | _ => fault

/-- `alias old new` -/
def addAlias : List Ref → EvalM κ (Option Ref)
  | [_, old, new] => do
    let old ← text old
    let new ← text new
    aliasCommand old new
    done
  | _ => fault

/-! ## Introspection -/

/-- What an interpreter tells about itself. -/
inductive Topic where
  | commands | errorStack | procCode | procs | vars
deriving DecidableEq, Repr

/-- The topics by name. -/
def topics : List (String × Topic) :=
  [("commands", .commands), ("errorstack", .errorStack), ("proccode", .procCode),
   ("procs", .procs), ("vars", .vars)]

/-- A list of texts as a result. -/
def textsResult (texts : List String) : EvalM κ (Option Ref) :=
  result do
    let items ← Store.ofTexts texts
    Store.ofList items

/-- `intro topic ?arg ...?` -/
def intro (argv : List Ref) : EvalM κ (Option Ref) := do
  match ← subcommand argv 1 topics with
  | .commands =>
    checkArgs 2 argv 2 2 ""
    textsResult (← getContext).commands.keys
  | .errorStack =>
    checkArgs 2 argv 2 2 ""
    result (Store.ofList (← getContext).errorStack.toList)
  | .procCode =>
    checkArgs 2 argv 3 3 "procname"
    let p ← procedureNamed (← text (← arg argv 2))
    return some p.body
  | .procs =>
    checkArgs 2 argv 2 2 ""
    textsResult (← procedureNames)
  | .vars =>
    checkArgs 2 argv 2 3 "?level?"
    match argv[2]? with
    | some level =>
      let level ← (Store.asInt level : ConvM Int32)
      textsResult (← varNames level.toInt)
    | none => textsResult (← varNames (-1))

/-! ## Signals -/

/-- `return ?value?` -/
def returnValue : List Ref → EvalM κ (Option Ref)
  | [_] => do
    let r ← (Store.ofText "" : StoreM Ref)
    raise (.ofReturn r)
  | [_, value] => raise (.ofReturn value)
  | _ => fault

/-- `throw message ?label?` -/
def throwMessage : List Ref → EvalM κ (Option Ref)
  | [_, message] => do
    let e ← (Exception.thrown message none : StoreM Exception)
    raise e
  | [_, message, label] => do
    let label ← text label
    let e ← (Exception.thrown message (some label) : StoreM Exception)
    raise e
  | _ => fault

/-- `break` or `continue` -/
def signal (code : Code) : EvalM κ (Option Ref) := do
  let e ← (Exception.signal code : StoreM Exception)
  raise e

/-! ## Types -/

/-- `classof value` -/
def classof : List Ref → EvalM κ (Option Ref)
  | [_, value] => do
    let tag ← typeOf value
    result (Store.ofText ("<" ++ tag.name ++ ">"))
  | _ => fault

/-- `hasclass name` -/
def hasclass : List Ref → EvalM κ (Option Ref)
  | [_, name] => do
    let name ← text name
    let known := ((← getContext).typeCommands.findType? name).isSome
    result (Store.ofBool known)
  | _ => fault

end CommandScript.Builtin
