import CommandScript.ListText.Reader
import CommandScript.Number.Integer
import CommandScript.Script.Reader

/-!
# Failures

The causes for which a conversion, a command or an evaluation raises an error, and the wording of
each.

## Main definitions

* `Failure` — the causes.
* `Failure.message` — their wording.
* `Arity`, `Arity.check` — how many arguments a command takes.
-/

set_option autoImplicit false

namespace CommandScript

/-- Why something fails. -/
inductive Failure where
  /-- The text is no integer of 32 bits. -/
  | notInteger (text : String)
  /-- The text is no integer of 64 bits. -/
  | notLong (text : String)
  /-- The text is no floating-point number. -/
  | notFloat (text : String)
  /-- The text is no truth value. -/
  | notBoolean (text : String)
  /-- The text is no list. -/
  | list (error : ListText.Error)
  /-- The list has a key without a value. -/
  | oddHash
  /-- The text is no script. -/
  | script (error : Script.Error)
  /-- There is no frame at the level. -/
  | badLevel (level : Int)
  /-- There is no such variable. -/
  | noVariable (name : String)
  /-- There is no such command to rename or to alias. -/
  | noCommand (name : String)
  /-- There is no such command to ask about. -/
  | notCommand (name : String)
  /-- The name or value is not that of a procedure. -/
  | notProcedure (name : String)
  /-- The command takes more arguments. -/
  | tooFewArguments (least : Nat)
  /-- The command takes fewer arguments. -/
  | tooManyArguments (most : Nat)
  /-- The command should be written differently. -/
  | usage (form : String)
  /-- The first argument names none of the choices. -/
  | unknownSubcommand (name : String) (choices : List String)
  /-- The parameter is neither a name nor a name with a default. -/
  | badParameter (spec : String)
  /-- A loop over a list has no variable. -/
  | noLoopVariables
  /-- Evaluations are nested too deeply. -/
  | nestingTooDeep
  /-- There is no loop to break out of. -/
  | strayBreak
  /-- There is no loop to continue. -/
  | strayContinue
  /-- The first word names no command. -/
  | unknownCommand (name : String)
  /-- The first word is an object for whose type there is no command. -/
  | noTypeCommand (type : String)
  /-- A host's own reason. -/
  | host (message : String)
deriving DecidableEq, Repr

namespace Failure

/-- The text in double quotes. -/
def quoted (text : String) : String :=
  "\"" ++ text ++ "\""

/-- The choices as they are read out. -/
def readOut : List String → String
  | [] => ""
  | [a] => a
  | choices => ", ".intercalate choices.dropLast ++ ", or " ++ choices.getLastD ""

/-- The wording of a failure. -/
def message : Failure → String
  | .notInteger text => "expected integer but got " ++ quoted text
  | .notLong text => "expected long integer but got " ++ quoted text
  | .notFloat text => "expected floating-point number but got " ++ quoted text
  | .notBoolean text => "expected boolean but got " ++ quoted text
  | .list e => e.message
  | .oddHash => "missing value to go with key"
  | .script e => e.message
  | .badLevel level => "bad level " ++ quoted (Number.writeInteger level)
  | .noVariable name => "variable " ++ quoted name ++ " does not exist"
  | .noCommand name => "command " ++ quoted name ++ " does not exist"
  | .notCommand name => quoted name ++ " isn't a command"
  | .notProcedure name => quoted name ++ " isn't a procedure"
  | .tooFewArguments least =>
    "too few arguments, at least " ++ Number.writeNat least ++ " required"
  | .tooManyArguments most =>
    "too many arguments, at most " ++ Number.writeNat most ++ " allowed"
  | .usage form => "wrong # args: should be " ++ quoted form
  | .unknownSubcommand name choices =>
    "unknown or ambiguous subcommand " ++ quoted name ++ ": must be " ++ readOut choices
  | .badParameter spec =>
    "argument specifier " ++ quoted spec ++ " should be \"name\" or \"name default\""
  | .noLoopVariables => "foreach varlist is empty"
  | .nestingTooDeep => "too many nested calls to Interp::eval (infinite loop?)"
  | .strayBreak => "invoked \"break\" outside of a loop"
  | .strayContinue => "invoked \"continue\" outside of a loop"
  | .unknownCommand name => "invalid command name " ++ quoted name
  | .noTypeCommand type => "no command registered for type " ++ quoted type
  | .host message => message

end Failure

/-- The number of arguments that a command takes, the command's name not counted. Either bound may
be left open. -/
structure Arity where
  /-- The least number of arguments. -/
  min : Option Nat := none
  /-- The greatest number of arguments. -/
  max : Option Nat := none
deriving DecidableEq, Repr, Inhabited

namespace Arity

/-- From `min` to `max` arguments. -/
def between (min max : Nat) : Arity := ⟨some min, some max⟩

/-- Exactly `n` arguments. -/
def exactly (n : Nat) : Arity := between n n

/-- `min` arguments or more. -/
def atLeast (min : Nat) : Arity := ⟨some min, none⟩

/-- Any number of arguments. -/
def any : Arity := ⟨none, none⟩

/-- Checks a number of arguments. Where both bounds are violated, the lower one is reported. -/
def check (a : Arity) (count : Nat) : Except Failure Unit :=
  match a with
  | ⟨some min, max⟩ =>
    if count < min then .error (.tooFewArguments min)
    else
      match max with
      | some max => if max < count then .error (.tooManyArguments max) else .ok ()
      | none => .ok ()
  | ⟨none, some max⟩ => if max < count then .error (.tooManyArguments max) else .ok ()
  | ⟨none, none⟩ => .ok ()

end Arity

/-- Finds the entry of an ensemble of subcommands by its name. -/
def findSubcommand {α : Type} (ensemble : List (String × α)) (name : String) : Except Failure α :=
  match ensemble.lookup name with
  | some a => .ok a
  | none => .error (.unknownSubcommand name (ensemble.map Prod.fst))

end CommandScript
