import CommandScript.Value.Text

/-!
# Conversions

A value can be used as an integer, a long integer, a float, a truth value, a list, a hash or a
script. If it is not held in the form asked for, its text is read, and the result is kept as the
new form of the value, in place of the old one. The text of a value does not change by this, and an
object remains what it is.

## Main definitions

* `ConvM` — computations on the store that may fail.
* `Store.asInt`, `Store.asLong`, `Store.asFloat`, `Store.asBool`, `Store.asList`, `Store.asHash`,
  `Store.asScript` — the conversions.
* `Script.load` — puts values in the place of the fixed texts of a script.
-/

set_option autoImplicit false

namespace CommandScript

/-- A computation on the store that may fail. -/
abbrev ConvM : Type → Type :=
  EStateM Failure Store

instance : MonadLift StoreM ConvM where
  monadLift m := fun s =>
    match m s with
    | (a, s) => .ok a s

/-! ## Scripts with values in them -/

namespace Script

mutual

/-- Puts a new value in the place of each fixed text of a word. -/
def loadWord : Word String → StoreM (Word Ref)
  | .literal text => do
    let r ← Store.ofLiteral text
    return .literal r
  | .var name => return .var name
  | .substitution script => do
    let script ← load script
    return .substitution script
  | .joined parts => do
    let parts ← loadWords parts
    return .joined parts

/-- Puts a new value in the place of each fixed text of some words. -/
def loadWords : List (Word String) → StoreM (List (Word Ref))
  | [] => return []
  | w :: rest => do
    let w ← loadWord w
    let rest ← loadWords rest
    return w :: rest

/-- Puts a new value in the place of each fixed text of a script. -/
def load : List (List (Word String)) → StoreM (List (List (Word Ref)))
  | [] => return []
  | c :: rest => do
    let c ← loadWords c
    let rest ← load rest
    return c :: rest

end

end Script

namespace Store

/-- Keeps a form of a value. Its text is fixed first, and an object stays. -/
def cache (r : Ref) (rep : Rep) : StoreM Unit := do
  let _ ← text r
  match (← get).objectOf? r with
  | some _ => pure ()
  | none => setRep r rep

/-! ## Numbers and truth values -/

/-- Reads the text of a value, and keeps and yields what it stands for. -/
def readAs {α : Type} (r : Ref) (read? : String → Option α) (rep : α → Rep)
    (failure : String → Failure) : ConvM α := do
  let t ← text r
  match read? t with
  | some a =>
    cache r (rep a)
    return a
  | none => throw (failure t)

/-- The integer of 32 bits that a text stands for. -/
def readInt? (t : String) : Option Int32 :=
  (Number.readInteger? t).bind Number.toInt32?

/-- The integer of 64 bits that a text stands for. -/
def readLong? (t : String) : Option Int64 :=
  (Number.readInteger? t).map Int64.ofInt

/-- The value as an integer. A long integer that fits is taken as it is. -/
def asInt (r : Ref) : ConvM Int32 := do
  match ((← get).cell r).rep with
  | .int n => return n
  | .long n =>
    match Number.toInt32? n.toInt with
    | some n => return n
    | none => readAs r readInt? .int .notInteger
  | _ => readAs r readInt? .int .notInteger

/-- The value as a long integer. -/
def asLong (r : Ref) : ConvM Int64 := do
  match ((← get).cell r).rep with
  | .int n => return n.toInt64
  | .long n => return n
  | _ => readAs r readLong? .long .notLong

/-- The value as a float. -/
def asFloat (r : Ref) : ConvM Float := do
  match ((← get).cell r).rep with
  | .int n => return n.toFloat
  | .long n => return n.toFloat
  | .float x => return x
  | _ => readAs r Number.readFloat? .float .notFloat

/-- The words for truth values. -/
def boolWords : List (String × Bool) :=
  [("true", true), ("yes", true), ("on", true), ("false", false), ("no", false), ("off", false)]

/-- The truth value that a text stands for: an integer, zero being false, or a word. -/
def readBool? (t : String) : Option Bool :=
  match Number.readInteger? t with
  | some n => some (n != 0)
  | none => boolWords.lookup (String.ofList (Number.lower (Text.trimmed t.toList)))

/-- The truth value that a value stands for, if any. Nothing is kept. -/
def bool? (r : Ref) : StoreM (Option Bool) := do
  match ((← get).cell r).rep with
  | .int n => return some (n != 0)
  | .long n => return some (n != 0)
  | .float x => return some (x != 0)
  | _ => return readBool? (← text r)

/-- The value as a truth value. -/
def asBool (r : Ref) : ConvM Bool := do
  match ← bool? r with
  | some b => return b
  | none => throw (.notBoolean (← text r))

/-! ## Lists, hashes and scripts -/

/-- New values for the elements of a list text. -/
def readItems (t : String) : ConvM (List Ref) :=
  match ListText.read t with
  | .ok texts => ofTexts texts
  | .error e => throw (.list e)

/-- The value as a list, in the form in which it is kept. -/
def asStack (r : Ref) : ConvM (Stack Ref) := do
  match ((← get).cell r).rep with
  | .list items => return items
  | _ =>
    let t ← text r
    let items ← readItems t
    let items := Stack.ofList items
    cache r (.list items)
    return items

/-- The value as a list. -/
def asList (r : Ref) : ConvM (List Ref) := do
  let items ← asStack r
  return items.toList

/-- The value as a hash: a list of keys, each followed by its value. The last value of a key
counts, its first place does. -/
def asHash (r : Ref) : ConvM (Table Ref) := do
  match ((← get).cell r).rep with
  | .hash entries => return entries
  | _ =>
    let t ← text r
    match HashText.read t with
    | .error e => throw e
    | .ok table =>
      let values ← ofTexts table.values
      let entries := table.withValues values
      cache r (.hash entries)
      return entries

/-- The value as a script, if its text can be read as one. -/
def asScript (r : Ref) : StoreM (Script.Outcome (Script Ref)) := do
  match ((← get).cell r).rep with
  | .script commands => return .done commands
  | _ =>
    let t ← text r
    match Script.read t with
    | .failed e => return .failed e
    | .stuck => return .stuck
    | .done script =>
      let commands ← Script.load script
      cache r (.script commands)
      return .done commands

end Store

end CommandScript
