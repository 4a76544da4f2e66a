import CommandScript.Value.Text

/-!
# Exceptions

Errors and the signals `return`, `break` and `continue` travel the same way: as an exception that
unwinds evaluation until something handles it. On its way through the commands that were running,
an error collects their texts.

## Main definitions

* `Code` — the kind of an exception, with its status number and its wording.
* `ErrorStack` — what an interpreter keeps of an error.
* `Exception` — kind, message, value and trace.
* `Exception.display`, `Exception.diagnosis` — how an exception is shown.
-/

set_option autoImplicit false

namespace CommandScript

/-- The kind of an exception. -/
inductive Code where
  /-- An error. -/
  | error
  /-- A procedure returns. -/
  | returned
  /-- A loop ends. -/
  | broke
  /-- A loop goes on with the next round. -/
  | continued
  /-- An error with a label of its own. -/
  | custom (label : String)
deriving DecidableEq, Repr

namespace Code

/-- The status number of a kind. Zero is for what raises no exception. -/
def status : Code → Int32
  | .error => 1
  | .returned => 2
  | .broke => 3
  | .continued => 4
  | .custom _ => 1

/-- Whether the kind is an error rather than a signal. -/
def isError : Code → Bool
  | .error | .custom _ => true
  | .returned | .broke | .continued => false

/-- The wording of a kind. -/
def write : Code → String
  | .error => "ERROR"
  | .returned => "RETURN"
  | .broke => "BREAK"
  | .continued => "CONTINUE"
  | .custom label => label

end Code

/-- What is known of an error: what it was, and then where it came from. -/
structure ErrorStack where
  /-- What the error was. -/
  head : Option Ref := none
  /-- What was added since, the latest first. -/
  later : List Ref := []
deriving DecidableEq, Repr

namespace ErrorStack

/-- Nothing is known. -/
def empty : ErrorStack :=
  {}

/-- What is known, in order. -/
def toList (s : ErrorStack) : List Ref :=
  s.head.toList ++ s.later.reverse

/-- Adds an entry at the end. -/
def push (s : ErrorStack) (entry : Ref) : ErrorStack :=
  { s with later := entry :: s.later }

/-- The newest entry comes last. -/
@[simp] theorem toList_push (s : ErrorStack) (entry : Ref) :
    (s.push entry).toList = s.toList ++ [entry] := by
  simp [toList, push]

end ErrorStack

/-- An error or a signal. -/
structure Exception where
  /-- Its kind. -/
  code : Code
  /-- What went wrong; empty for signals. -/
  message : String
  /-- The returned value, or the message as a value. -/
  value : Ref
  /-- The commands that an error has unwound through, the outermost first. -/
  frames : List Ref := []

namespace Exception

/-- An error or labelled error with a value for its message. -/
def thrown (value : Ref) (label : Option String) : StoreM Exception := do
  let message ← Store.text value
  return { code := label.elim .error .custom, message, value }

/-- The error for a failure. -/
def ofFailure (f : Failure) : StoreM Exception := do
  let value ← Store.ofText f.message
  return { code := .error, message := f.message, value }

/-- The signal that a procedure returns. -/
def ofReturn (value : Ref) : Exception :=
  { code := .returned, message := "", value }

/-- A signal to a loop. -/
def signal (code : Code) : StoreM Exception := do
  let value ← Store.ofText ""
  return { code, message := "", value }

/-- Whether the exception is an error rather than a signal. -/
def isError (e : Exception) : Bool :=
  e.code.isError

/-- The commands that an error has unwound through, the innermost first. -/
def trace (e : Exception) : List Ref :=
  e.frames.reverse

/-- Whether the exception has unwound through no command yet. -/
def isNew (e : Exception) : Bool :=
  e.frames.isEmpty

/-- Adds a command that the exception unwinds through. -/
def addFrame (e : Exception) (frame : Ref) : Exception :=
  { e with frames := frame :: e.frames }

/-- A frame that is added comes last in the trace. -/
@[simp] theorem trace_addFrame (e : Exception) (frame : Ref) :
    (e.addFrame frame).trace = e.trace ++ [frame] := by
  simp [trace, addFrame]

/-- What an interpreter keeps of an error: its kind and value as a pair, then its trace. -/
def diagnosis (e : Exception) : StoreM ErrorStack := do
  let code ← Store.ofText e.code.write
  let head ← Store.ofList [code, e.value]
  return { head := some head, later := e.frames }

/-- How an exception is shown to a user: kind and message, and the value where it says something
else. -/
def display (e : Exception) : StoreM String := do
  let value ← Store.text e.value
  let start := e.code.write ++ ": " ++ e.message
  return if value = e.message then start else start ++ " (" ++ value ++ ")"

end Exception

end CommandScript
