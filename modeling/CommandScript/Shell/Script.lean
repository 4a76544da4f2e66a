import CommandScript.Interp.Api
import CommandScript.Shell.Folder

/-!
# Running script files

The name of a script file and its arguments are given on the command line. The script finds them
in the variables `arg0` and `argv`. If it fails, the error is reported with the commands it came
from.

## Main definitions

* `Shell.Report` — what a run leaves behind.
* `Shell.statusOf` — the status that a program ends with.
* `Shell.runFile` — runs a script file.
-/

set_option autoImplicit false

namespace CommandScript.Shell

/-- What a run leaves behind. -/
structure Report where
  /-- The status that the program ends with. -/
  status : Nat
  /-- What it has written. -/
  out : String
  /-- What it has written about errors. -/
  err : String := ""
deriving DecidableEq, Repr

/-- The status that a program ends with: only the lowest eight bits count. -/
def statusOf (code : Int32) : Nat :=
  (code.toInt % 256).toNat

/-- The status of a program that breaks down. -/
def brokenStatus : Nat := 101

/-- Binds the arguments and evaluates a script. -/
def evalScript (script name : String) (args : List String) : EvalM Empty Unit := do
  let items ← (Store.ofTexts args : StoreM (List Ref))
  let name ← (Store.ofText name : StoreM Ref)
  let _ ← EvalM.setVar "arg0" name (-1)
  let items ← (Store.ofList items : StoreM Ref)
  let _ ← EvalM.setVar "argv" items (-1)
  let _ ← Interp.evalText script

/-- The report on an error: how it is shown, and the commands it came from. -/
def complaint (e : Exception) (errorStack : List Ref) : StoreM String := do
  let head ← e.display
  let frames ← Store.texts (errorStack.drop 1)
  return String.join ((head :: frames.map fun f => "    while executing \"" ++ f ++ "\"").map
    (· ++ "\n"))

/-- Runs a script file, given its name, what reading it gave, and the arguments. -/
def runFile (i : Interp Empty) (name : String) (contents : Except ReadError (List UInt8))
    (args : List String) : Report :=
  match contents.bind decodeText with
  | .error e => { status := 0, out := name ++ ": " ++ e.message ++ "\n" }
  | .ok script =>
    match evalScript script name args i with
    | .ok _ i => { status := 0, out := i.context.console }
    | .error (.raised e) i =>
      { status := 1, out := i.context.console
        err := (complaint e i.context.errorStack.toList i.values).1 }
    | .error (.exited code) i => { status := statusOf code, out := i.context.console }
    | .error _ i => { status := brokenStatus, out := i.context.console }

end CommandScript.Shell
