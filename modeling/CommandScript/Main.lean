import CommandScript.Shell.Prompt
import Std.Time.DateTime.Timestamp

/-!
# The command line

With arguments, runs the script file that the first one names; without, reads commands from
standard input.

## Main definitions

* `main` — the program.
-/

set_option autoImplicit false

namespace CommandScript.Shell

/-- The contents of a file, or nothing if it cannot be read. -/
def readOrNothing (path : String) : IO (List UInt8) :=
  try
    let bytes ← IO.FS.readBinFile path
    return bytes.toList
  catch _ => return []

/-- The machine as it is now. An evaluation is a single computation here, in which no clock can be
looked at, so all readings that are to come are taken to be this one. -/
def observePlatform : IO Platform := do
  let now ← Std.Time.Timestamp.now
  let uptime ← IO.monoNanosNow
  let environment ← readOrNothing "/proc/self/environ"
  let memory ← readOrNothing "/proc/meminfo"
  let report := (String.fromUTF8? ⟨memory.toArray⟩).getD ""
  return {
    clock := fun _ => { sinceEpoch := now.toNanosecondsSinceUnixEpoch.val.toNat, uptime }
    freeMemory := Platform.memoryFigure "MemAvailable" report
    totalMemory := Platform.memoryFigure "MemTotal" report
    environment := Platform.readEnvironment environment }

/-- Why a file could not be read. -/
def readErrorOf (e : IO.Error) : ReadError :=
  match e with
  | .noFileOrDirectory .. => .notFound
  | .inappropriateType _ code _ => if code = 21 then .isDirectory else .notDirectory
  | .permissionDenied .. => .other "Permission denied (os error 13)"
  | e@(.invalidArgument _ code _) =>
    if code = 36 ∨ code = -36 then .nameTooLong else .other (toString e)
  | e => .other (toString e)

/-- The contents of a file. -/
def readFile (path : String) : IO (Except ReadError (List UInt8)) :=
  try
    let bytes ← IO.FS.readBinFile path
    return .ok bytes.toList
  catch e => return .error (readErrorOf e)

/-- Reads a line with its newline; `left` are the bytes that were read before. Yields nothing at
the end of the input. -/
partial def readLine (input : IO.FS.Stream) (left : List UInt8) :
    IO (Option (List UInt8) × List UInt8) := do
  match cutLines left with
  | (line :: _, _) => return (some line, left.drop line.length)
  | ([], _) =>
    let more ← input.read 4096
    if more.isEmpty then return (if left.isEmpty then none else some left, [])
    else readLine input (left ++ more.toList)

/-- Takes a part in the conversation and prints what it wrote. Yields the interpreter, or the
status that the program ends with. -/
def takePart {α : Type} (output : IO.FS.Stream) (job : EvalM Empty α) (i : Interp Empty) :
    IO (Except Nat (α × Interp Empty)) := do
  let platform ← observePlatform
  let (result, i) :=
    match job (i.withContext fun c => { c with platform }) with
    | .ok a i => (Except.ok a, i)
    | .error (.exited code) i => (.error (statusOf code), i)
    | .error _ i => (.error brokenStatus, i)
  let (console, i) := i.takeConsole
  output.putStr console
  output.flush
  return result.map fun a => (a, i)

/-- The conversation at the prompt. Yields the status that the program ends with. -/
partial def talk (input output : IO.FS.Stream) (i : Interp Empty) (pending : String)
    (left : List UInt8) : IO Nat := do
  match ← takePart output (prepare pending) i with
  | .error status => return status
  | .ok (prompt, i) =>
    if ← input.isTty then
      output.putStr prompt
      output.flush
    match ← readLine input left with
    | (none, _) => return 0
    | (some line, left) =>
      match lineText line with
      | .error _ =>
        let _ ← takePart output refuse i
        return 0
      | .ok line =>
        match ← takePart output (do accept pending (← meantLine line)) i with
        | .error status => return status
        | .ok (pending, i) => talk input output i pending left

end CommandScript.Shell

open CommandScript CommandScript.Shell in
/-- The program. -/
def main (args : List String) : IO UInt32 := do
  let output ← IO.getStdout
  match args with
  | [] =>
    output.putStrLn greeting
    let status ← talk (← IO.getStdin) output Interp.standard "" []
    return status.toUInt32
  | name :: rest =>
    let platform ← observePlatform
    let i : Interp Empty := Interp.standard.withContext fun c => { c with platform }
    let report := runFile i name (← readFile name) rest
    output.putStr report.out
    (← IO.getStderr).putStr report.err
    return report.status.toUInt32
