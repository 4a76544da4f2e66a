import CommandScript.Exception
import CommandScript.Value.Conversion

/-!
# Answers

What the workbench tells about values and exceptions.

## Main definitions

* `Workbench.Answer` — what there is to tell.
* `Workbench.Conversion`, `Workbench.convert` — the uses of a value.
* `Workbench.describeException` — everything about an exception.
-/

set_option autoImplicit false

namespace CommandScript.Workbench

/-- What the workbench tells. -/
inductive Answer where
  /-- It is done. -/
  | done
  /-- A text. -/
  | text (s : String)
  /-- A text that may not be there. -/
  | maybe (s : Option String)
  /-- A truth value. -/
  | bool (b : Bool)
  /-- A number. -/
  | number (n : Int)
  /-- A float: its bits and its text. -/
  | float (bits : UInt64) (isNumber : Bool) (text : String)
  /-- Several texts. -/
  | texts (items : List String)
  /-- Several pairs of texts. -/
  | pairs (items : List (String × String))
  /-- A value, by its text and type. -/
  | value (text type : String)
  /-- An exception. -/
  | exception (code message : String) (trace : List String)
  /-- How two values compare: whether they are the same, equal, and around the same object. -/
  | comparison (same equal : Bool) (objects : Option Bool)
  /-- The number of names in a frame. -/
  | frame (names : Nat)
  /-- What is attached by a name. -/
  | attached (present : Bool) (text : Option String) (number : Option Int)
  /-- The request makes no sense. -/
  | refused
  /-- The interpreter has stopped for good. -/
  | stopped
deriving DecidableEq, Repr

/-- A value, by its text and type. -/
def tellValue (r : Ref) : StoreM Answer := do
  let text ← Store.text r
  let s ← get
  return .value text (s.typeOf r).name

/-- An exception, with the texts of its trace. -/
def tellException (e : Exception) : StoreM Answer := do
  let trace ← Store.texts e.trace
  return .exception e.code.write e.message trace

/-- A failure, as the exception it raises. -/
def tellFailure (f : Failure) : Answer :=
  .exception Code.error.write f.message []

/-! ## Conversions -/

/-- A use of a value. -/
inductive Conversion where
  | text | debug | type | literal | int | long | float | bool | list | hash | object
deriving DecidableEq, Repr

/-- The float in an answer. -/
def tellFloat (x : Float) : Answer :=
  .float x.toBits (!x.isNaN) (Number.writeFloat x)

/-- Uses a value. -/
def use (r : Ref) : Conversion → ConvM Answer
  | .text => return .text (← Store.text r)
  | .debug => return .text ("Value[" ++ (← Store.text r) ++ "]")
  | .type => return .text ((← get).typeOf r).name
  | .literal => return .bool ((← get).isLiteral r)
  | .int => return .number (← Store.asInt r).toInt
  | .long => return .text (Number.writeInteger (← Store.asLong r).toInt)
  | .float => return tellFloat (← Store.asFloat r)
  | .bool => return .bool (← Store.asBool r)
  | .list => do
    let items ← Store.asList r
    return .texts (← Store.texts items)
  | .hash => do
    let entries ← Store.asHash r
    let values ← Store.texts entries.values
    return .pairs (entries.keys.zip values)
  | .object => do
    match (← get).objectOf? r with
    | some o => return .maybe (some (← Store.display o))
    | none => return .maybe none

/-- Uses a value, and tells what comes of it. -/
def convert (r : Ref) (c : Conversion) : StoreM Answer := fun s =>
  match use r c s with
  | .ok a s => (a, s)
  | .error f s => (tellFailure f, s)

/-! ## Exceptions -/

/-- What there is to tell about an exception, before and after frames are added to it. -/
structure ExceptionReport where
  /-- The wording of its kind. -/
  code : String
  /-- Its status number. -/
  status : Int
  /-- Its message. -/
  message : String
  /-- The text of its value. -/
  value : String
  /-- Whether it is an error. -/
  isError : Bool
  /-- Whether it was new before the frames were added. -/
  newBefore : Bool
  /-- Whether it is new afterwards. -/
  newAfter : Bool
  /-- The texts of its trace. -/
  trace : List String
  /-- What an interpreter keeps of it, as a text. -/
  diagnosis : String
  /-- How it is shown. -/
  display : String
deriving DecidableEq, Repr

/-- Adds frames to an exception and tells everything about it. -/
def describeException (e : Exception) (frames : List String) : StoreM ExceptionReport := do
  let newBefore := e.isNew
  let refs ← Store.ofTexts frames
  let e := refs.foldl Exception.addFrame e
  let value ← Store.text e.value
  let trace ← Store.texts e.trace
  let kept ← e.diagnosis
  let diagnosis ← Store.text (← Store.ofList kept.toList)
  let display ← e.display
  return { code := e.code.write, status := e.code.status.toInt, message := e.message, value,
           isError := e.isError, newBefore, newAfter := e.isNew, trace, diagnosis, display }

end CommandScript.Workbench
