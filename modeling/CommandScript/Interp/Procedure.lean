import CommandScript.Interp.Basic

/-!
# Procedures

A procedure is defined by a list of parameters and a script. When it is called, it gets a frame of
its own, in which its parameters are bound to the arguments of the call. A parameter may have a
default, and a last parameter called `args` takes all arguments that are left.

## Main definitions

* `Procedure.define` — the procedure with the parameters and body.
* `Procedure.bind` — binds the parameters in the top frame.
* `Procedure.call` — a call.
-/

set_option autoImplicit false

namespace CommandScript

namespace Procedure

/-- The parameter that an element of the list of parameters describes. -/
def readParameter (spec : Ref) : ConvM Parameter := do
  match ← Store.asList spec with
  | [name] =>
    let name ← Store.text name
    return ⟨name, none⟩
  | [name, fallback] =>
    let name ← Store.text name
    return ⟨name, some fallback⟩
  | _ => throw (.badParameter (← Store.text spec))

/-- The procedure with the parameters and body. -/
def define (spec body : Ref) : ConvM Procedure := do
  let specs ← Store.asList spec
  let params ← specs.mapM readParameter
  return { spec, params, body }

/-- Whether the parameter, which is the last one, takes all arguments that are left. -/
def isRest (p : Parameter) : Bool :=
  p.name == "args"

/-- How the parameters are written in the reminder of a call's form. -/
def formOf : List Parameter → String
  | [] => ""
  | [p] =>
    if isRest p then " ?arg ...?"
    else if p.fallback.isSome then " ?" ++ p.name ++ "?" else " " ++ p.name
  | p :: rest => (if p.fallback.isSome then " ?" ++ p.name ++ "?" else " " ++ p.name) ++ formOf rest

variable {κ : Type}

/-- Binds parameters to arguments in the top frame. Yields whether the numbers fit. -/
def bindParams : List Parameter → List Ref → EvalM κ Bool
  | [], args => return args.isEmpty
  | p :: rest, args => do
    if rest.isEmpty && isRest p then
      let r ← (Store.ofList args : StoreM Ref)
      let _ ← EvalM.setVar p.name r (-1)
      return true
    else
      match args with
      | a :: args =>
        let _ ← EvalM.setVar p.name a (-1)
        bindParams rest args
      | [] =>
        match p.fallback with
        | some d =>
          let _ ← EvalM.setVar p.name d (-1)
          bindParams rest []
        | none => return false

/-- Binds the parameters to the arguments of a call, or reminds of its form. -/
def bind (p : Procedure) (argv : List Ref) : EvalM κ Unit := do
  match argv with
  | [] => EvalM.fault
  | name :: args =>
    unless ← bindParams p.params args do
      let name ← EvalM.text name
      EvalM.fail (.usage (name ++ formOf p.params))

end Procedure

namespace EvalM

variable {κ : Type}

/-- What becomes of the outcome of a procedure or of a whole script: returning is a result, and
there is no loop for a signal to go to. -/
def settle : Except Exception Ref → EvalM κ Ref
  | .ok r => pure r
  | .error e =>
    match e.code with
    | .returned => pure e.value
    | .broke => fail .strayBreak
    | .continued => fail .strayContinue
    | .error | .custom _ => raise e

end EvalM

/-- Calls a procedure: in a frame of its own, which goes when the call is over. -/
def Procedure.call {κ : Type} (E : Engine κ) (p : Procedure) (argv : List Ref) : EvalM κ Ref := do
  EvalM.modifyContext fun c => { c with scopes := c.scopes.push }
  let result ← EvalM.observe do
    p.bind argv
    E.eval p.body
  EvalM.modifyContext fun c => { c with scopes := c.scopes.pop.2 }
  EvalM.settle result

end CommandScript
