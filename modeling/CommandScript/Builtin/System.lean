import CommandScript.Builtin.State
import CommandScript.Calendar

/-!
# Commands on the machine

The built-in commands that write output, end the program, or tell about the time and the machine.

## Main definitions

* `Builtin.puts`, `Builtin.exit`, `Builtin.clock` and others — one function per command, from the
  words of the command to its result.
-/

set_option autoImplicit false

namespace CommandScript.Builtin

open EvalM

variable {κ : Type}

/-- `puts text` -/
def puts : List Ref → EvalM κ (Option Ref)
  | [_, value] => do
    writeLine (← text value)
    done
  | _ => fault

/-- `exit ?status?` -/
def exit (argv : List Ref) : EvalM κ (Option Ref) := do
  match argv[1]? with
  | some status =>
    let status ← (Store.asInt status : ConvM Int32)
    throw (.exited status)
  | none => throw (.exited 0)

/-- What the clock tells. -/
inductive ClockTopic where
  | seconds | millis | format
deriving DecidableEq, Repr

/-- What the clock tells, by name. -/
def clockTopics : List (String × ClockTopic) :=
  [("seconds", .seconds), ("milli", .millis), ("time", .millis), ("format", .format)]

/-- `clock seconds`, `clock milli`, `clock time` or `clock format ?millis?`. The clock is read last,
once nothing can fail any more. -/
def clock (argv : List Ref) : EvalM κ (Option Ref) := do
  let topic ← text (← arg argv 1)
  match clockTopics.lookup topic with
  | some .seconds =>
    checkArgs 2 argv 2 2 ""
    result (Store.ofLong (← readClock).seconds)
  | some .millis =>
    checkArgs 2 argv 2 2 ""
    result (Store.ofLong (← readClock).millis)
  | some .format =>
    let millis ←
      match argv[2]? with
      | some r => (Store.asLong r : ConvM Int64)
      | none => pure (← readClock).millis
    result (Store.ofText (Calendar.momentOf millis.toInt).write)
  | none => fail (.usage "clock seconds|milli|time|format ?millis?")

/-- `system.getproperty name` -/
def getProperty : List Ref → EvalM κ (Option Ref)
  | [_, name] => do
    let name ← text name
    result (Store.ofText (((← getContext).platform.property? name).getD ""))
  | _ => fault

/-- `system.hasproperty name` -/
def hasProperty : List Ref → EvalM κ (Option Ref)
  | [_, name] => do
    let name ← text name
    result (Store.ofBool ((← getContext).platform.property? name).isSome)
  | _ => fault

/-- `runtime.freememory` -/
def freeMemory : EvalM κ (Option Ref) := do
  result (Store.ofLong (← getContext).platform.freeMemory)

/-- `runtime.totalmemory` -/
def totalMemory : EvalM κ (Option Ref) := do
  result (Store.ofLong (← getContext).platform.totalMemory)

end CommandScript.Builtin
