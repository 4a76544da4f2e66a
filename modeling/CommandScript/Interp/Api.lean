import CommandScript.Interp.Evaluate

/-!
# Using an interpreter

What an application does with an interpreter: evaluate a text, here or at another level, and look
at what comes out.

## Main definitions

* `Interp.patience` — the bound that an application gives an evaluation.
* `Interp.evalText`, `Interp.evalValue`, `Interp.evalValueAt` — evaluation.
* `Interp.isComplete` — whether a text can be evaluated as it is.
* `Interp.setAux`, `Interp.attachOutput`, `Interp.takeOutput`, `Interp.takeConsole` — data and
  output.
-/

set_option autoImplicit false

namespace CommandScript.Interp

variable {κ : Type}

/-- Changes the context of an interpreter. -/
def withContext (i : Interp κ) (f : Context κ → Context κ) : Interp κ :=
  { i with context := f i.context }

/-- Attaches data, in the place of what was attached by the same name. -/
def setAux (i : Interp κ) (key : String) (data : AuxData) : Interp κ :=
  i.withContext fun c => { c with aux := c.aux.insert key data }

/-- Attaches a place for output. -/
def attachOutput (i : Interp κ) : Interp κ :=
  i.setAux EvalM.outputKey .output

/-- What was written to the attached output, which is then empty. -/
def takeOutput (i : Interp κ) : String × Interp κ :=
  (i.context.output, i.withContext fun c => { c with output := "" })

/-- What was written without an attached output, which is then empty. -/
def takeConsole (i : Interp κ) : String × Interp κ :=
  (i.context.console, i.withContext fun c => { c with console := "" })

variable [HostCommands κ]

/-- The bound that an application gives an evaluation. No evaluation that ends in a lifetime needs
more. -/
def patience : Nat :=
  1000000000000000000

/-- Evaluates a value as a script. -/
def evalValue (r : Ref) : EvalM κ Ref :=
  evaluate patience r

/-- Evaluates a text as a script. -/
def evalText (script : String) : EvalM κ Ref := do
  let r ← (Store.ofText script : StoreM Ref)
  evalValue r

/-- Evaluates a value as a script at another level. -/
def evalValueAt (r : Ref) (level : Int) : EvalM κ Ref :=
  Builtin.evalAt (engine patience) r level

end CommandScript.Interp
