import CommandScript.Interp.Api

/-!
# Workers

An interpreter that serves requests from a queue, one at a time and in order. Only texts go in and
come out. A script that fails does not stop the worker.

## Main definitions

* `Worker.EvalError` — why a request has no result.
* `Worker.Request`, `Worker.Reply` — what goes in and comes out.
* `Worker`, `Worker.answer`, `Worker.serve`, `Worker.serveAll` — serving.
-/

set_option autoImplicit false

namespace CommandScript

namespace Worker

/-- Why a request has no result. -/
inductive EvalError where
  /-- The script raised an exception. -/
  | signal (code message : String)
  /-- There is nobody to answer. -/
  | disconnected
deriving DecidableEq, Repr

/-- The wording of an error. -/
def EvalError.display : EvalError → String
  | .signal code message => code ++ ": " ++ message
  | .disconnected => "interpreter thread is no longer running"

/-- What a request yields. -/
abbrev Answer : Type :=
  Except EvalError String

/-- A script that a client wants evaluated. -/
structure Request where
  /-- The client. -/
  client : Nat
  /-- The script. -/
  script : String
deriving DecidableEq, Repr

/-- What a client gets for its request. -/
structure Reply where
  /-- The client. -/
  client : Nat
  /-- The text of the result, or why there is none. -/
  answer : Answer

end Worker

/-- A worker: its interpreter, as long as it runs. -/
structure Worker (κ : Type) where
  /-- The interpreter. -/
  interp : Option (Interp κ)

namespace Worker

variable {κ : Type} [HostCommands κ]

/-- Evaluates a script with an interpreter. There is no interpreter afterwards if the script ended
it. -/
def evalWith (i : Interp κ) (script : String) : Answer × Option (Interp κ) :=
  let job : EvalM κ String := do
    let r ← Interp.evalText script
    EvalM.text r
  match job i with
  | .ok text i => (.ok text, some i)
  | .error (.raised e) i => (.error (.signal e.code.write e.message), some i)
  | .error _ _ => (.error .disconnected, none)

/-- Evaluates a script. -/
def answer (w : Worker κ) (script : String) : Answer × Worker κ :=
  match w.interp with
  | none => (.error .disconnected, w)
  | some i =>
    let (a, i) := evalWith i script
    (a, ⟨i⟩)

/-- Serves a request. -/
def serve (w : Worker κ) (r : Request) : Reply × Worker κ :=
  let (a, w) := w.answer r.script
  (⟨r.client, a⟩, w)

/-- Serves requests in order. -/
def serveAll (w : Worker κ) : List Request → List Reply × Worker κ
  | [] => ([], w)
  | r :: rest =>
    let (reply, w) := w.serve r
    let (replies, w) := w.serveAll rest
    (reply :: replies, w)

/-- What the scripts have written to the output attached to the interpreter, which is then
empty. -/
def takeOutput (w : Worker κ) : String × Worker κ :=
  match w.interp with
  | none => ("", w)
  | some i =>
    let (out, i) := i.takeOutput
    (out, ⟨some i⟩)

end Worker

end CommandScript
