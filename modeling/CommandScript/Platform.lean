import CommandScript.Number.Integer

/-!
# The platform

What an interpreter knows of the machine it runs on: the time, the memory, and named properties. The
time goes on while a script is evaluated. So there is not one reading of the clocks but a sequence
of them, from which an evaluation takes the next one whenever it needs one; whoever drives the
interpreter supplies the sequence. The machine has two clocks, as is usual: one tells the date and
may be set to another time, the other one only goes on and is good for measuring.

## Main definitions

* `Reading` — what the clocks tell at a moment.
* `Reading.seconds`, `Reading.millis`, `Reading.elapsed` — what commands make of it.
* `Platform` — the facts, with the readings that are still to come.
* `Platform.tick` — the facts after a reading was taken.
* `Platform.property?` — a named property: a well-known one or an environment variable.
* `Platform.readEnvironment`, `Platform.memoryFigure` — what the reports of the system say.
-/

set_option autoImplicit false

namespace CommandScript

/-- The version of the language. -/
def version : String := "0.3.2"

/-- A reading of the clocks, in nanoseconds. -/
structure Reading where
  /-- The time since the start of 1970, or nothing before that. -/
  sinceEpoch : Nat := 0
  /-- The time that the other clock tells, which runs from some moment on. -/
  uptime : Nat := 0

namespace Reading

/-- The whole seconds since the start of 1970. -/
def seconds (r : Reading) : Int64 :=
  .ofNat (r.sinceEpoch / 1000000000)

/-- The whole milliseconds since the start of 1970. -/
def millis (r : Reading) : Int64 :=
  .ofNat (r.sinceEpoch / 1000000)

/-- The whole milliseconds from one reading to a later one, as far as an integer of 64 bits goes. If
the clock has gone back, there are none. -/
def elapsed (start stop : Reading) : Int64 :=
  .ofNat (min ((stop.uptime - start.uptime) / 1000000) 9223372036854775807)

end Reading

/-- What is known of the machine. -/
structure Platform where
  /-- The readings of the clocks that are still to come, the next one first. -/
  clock : Nat → Reading := fun _ => {}
  /-- The memory that could be used, in bytes. -/
  freeMemory : Int64 := 0
  /-- The memory of the machine, in bytes. -/
  totalMemory : Int64 := 0
  /-- The environment variables. -/
  environment : List (String × String) := []

namespace Platform

/-- The next reading has been taken. -/
def tick (p : Platform) : Platform :=
  { p with clock := fun i => p.clock (i + 1) }

/-- The well-known properties. -/
def wellKnown : List (String × String) :=
  [("os.name", "linux"), ("os.arch", "x86_64"), ("os.family", "unix"),
   ("hecl.version", version), ("file.separator", "/"), ("path.separator", ":"),
   ("line.separator", "\n")]

/-- A named property. -/
def property? (p : Platform) (name : String) : Option String :=
  (wellKnown.lookup name).or (p.environment.lookup name)

/-- Cuts bytes at each zero. `taken` holds the bytes since the last one, the latest first. -/
def cutAtZeros (taken : List UInt8) : List UInt8 → List (List UInt8)
  | [] => [taken.reverse]
  | b :: rest => if b = 0 then taken.reverse :: cutAtZeros [] rest else cutAtZeros (b :: taken) rest

/-- The environment variable in an entry `name=value`. -/
def variableIn? (entry : List UInt8) : Option (String × String) :=
  match String.fromUTF8? ⟨entry.toArray⟩ with
  | none => none
  | some text =>
    match text.splitOn "=" with
    | name :: value :: rest => some (name, "=".intercalate (value :: rest))
    | _ => none

/-- The environment variables in a report of the system: entries that each end with a zero. -/
def readEnvironment (report : List UInt8) : List (String × String) :=
  (cutAtZeros [] report).filterMap variableIn?

/-- The figure in a line of the memory report, in bytes. -/
def figureInLine? (key line : String) : Option Int64 :=
  match line.splitOn ":" with
  | [name, rest] =>
    if name = key then
      match Number.readInteger? (String.ofList
          ((Text.trimmed rest.toList).takeWhile fun c => !Text.isBlank c)) with
      | some kilobytes => some (Int64.ofInt (kilobytes * 1024))
      | none => none
    else none
  | _ => none

/-- A figure from the memory report of the system, or zero if there is none. -/
def memoryFigure (key report : String) : Int64 :=
  ((report.splitOn "\n").findSome? (figureInLine? key)).getD 0

end Platform

end CommandScript
