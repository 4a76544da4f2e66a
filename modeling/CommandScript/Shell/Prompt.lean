import CommandScript.Shell.Backspace
import CommandScript.Shell.Script

/-!
# The interactive prompt

Lines are read one at a time and put together until they make a complete script, which is then
evaluated; its result is printed, unless it is empty. Before each new command the script in the
variable `hecl_prompt`, if there is one, is evaluated for the prompt. The prompt itself is shown
only on a terminal.

## Main definitions

* `Shell.cutLines` — bytes cut into lines.
* `Shell.prepare` — what happens before a line is read.
* `Shell.accept` — what happens with a line, `Shell.refuse` — with one that is no text.
* `Shell.converse` — a whole conversation.
-/

set_option autoImplicit false

namespace CommandScript.Shell

/-- What the program says when it starts. -/
def greeting : String :=
  "Hecl " ++ version

/-- Cuts bytes into lines, each with its newline; what is left has none. `taken` holds the bytes of
the current line, the latest first. -/
def cutFrom (taken : List UInt8) : List UInt8 → List (List UInt8) × List UInt8
  | [] => ([], taken.reverse)
  | b :: rest =>
    if b = 10 then
      let (lines, left) := cutFrom [] rest
      ((b :: taken).reverse :: lines, left)
    else cutFrom (b :: taken) rest

/-- Cuts bytes into lines, each with its newline, and what is left. -/
def cutLines (bytes : List UInt8) : List (List UInt8) × List UInt8 :=
  cutFrom [] bytes

/-- A line without the characters that end it. -/
def withoutEnd (line : String) : String :=
  let cs := line.toList.reverse
  match cs with
  | '\n' :: '\r' :: rest => String.ofList rest.reverse
  | '\n' :: rest => String.ofList rest.reverse
  | _ => line

/-- The text of a line, without its end. -/
def lineText (bytes : List UInt8) : Except ReadError String :=
  (decodeText bytes).map withoutEnd

/-- A line as it is meant: with its backspaces carried out. -/
def meantLine (line : String) : EvalM Empty String :=
  match applyBackspaces line with
  | some line => pure line
  | none => EvalM.fault

/-- Prints a line. -/
def print (line : String) : EvalM Empty Unit :=
  EvalM.modifyContext fun c => { c with console := c.console ++ line ++ "\n" }

/-- Prints how an exception is shown. -/
def printException (e : Exception) : EvalM Empty Unit := do
  let text ← (e.display : StoreM String)
  print text

/-- The prompt where there is no other. -/
def defaultPrompt : String := "hecl> "

/-- The prompt for the further lines of a command. -/
def continuationPrompt : String := "....> "

/-- The prompt for the next line. If no command is pending, the script that is to yield it is
evaluated. -/
def prepare (pending : String) : EvalM Empty String := do
  if pending.isEmpty then
    match (← EvalM.getContext).scopes.get "hecl_prompt" (-1) with
    | .error _ => return defaultPrompt
    | .ok script =>
      match ← EvalM.observe (Interp.evalValue script) with
      | .ok r => EvalM.text r
      | .error e =>
        printException e
        return defaultPrompt
  else return continuationPrompt

/-- Evaluates a command and prints its result, unless that is empty. -/
def evalAndPrint (command : String) : EvalM Empty Unit := do
  match ← EvalM.observe (Interp.evalText command) with
  | .ok r =>
    let text ← EvalM.text r
    unless text.isEmpty do print text
  | .error e => printException e

/-- Adds a line to the pending command and evaluates the command if it is complete. Yields what is
pending then. -/
def accept (pending line : String) : EvalM Empty String := do
  let text := if pending.isEmpty then line else pending ++ "\n" ++ line
  if Script.isComplete text then
    let command := Text.trim text
    unless command.isEmpty do evalAndPrint command
    return ""
  else return text

/-- Says that a line is no text. -/
def refuse : EvalM Empty Unit :=
  print ("I/O Error: Io(Error \x7b kind: InvalidData, message: \"" ++
    ReadError.invalidText.message ++ "\" \x7d)")

/-- Reads lines until there are none left, or one is no text. -/
def converse (pending : String) : List (List UInt8) → EvalM Empty Unit
  | [] => do
    let _ ← prepare pending
  | line :: rest => do
    let _ ← prepare pending
    match lineText line with
    | .error _ => refuse
    | .ok line =>
      let pending ← accept pending (← meantLine line)
      converse pending rest

/-- The lines of an input; bytes after the last newline are a line too. -/
def inputLines (input : List UInt8) : List (List UInt8) :=
  let (lines, left) := cutLines input
  if left.isEmpty then lines else lines ++ [left]

/-- Runs the program without arguments on an input. -/
def runPrompt (i : Interp Empty) (input : List UInt8) : Report :=
  let job : EvalM Empty Unit := do
    print greeting
    converse "" (inputLines input)
  match job i with
  | .ok _ i => { status := 0, out := i.context.console }
  | .error (.exited code) i => { status := statusOf code, out := i.context.console }
  | .error _ i => { status := brokenStatus, out := i.context.console }

/-- Runs the program with the arguments in its surroundings. -/
def run (i : Interp Empty) (w : Surroundings) (args : List String) : Report :=
  match args with
  | [] => runPrompt i w.input
  | name :: rest => runFile i name (w.read name) rest

end CommandScript.Shell
