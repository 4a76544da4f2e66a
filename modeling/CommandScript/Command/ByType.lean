import CommandScript.Table
import CommandScript.TypeTag

/-!
# Commands by type

If the first word of a command is not the name of one, the type of the value decides: the command
registered for the most specific type that the value belongs to is run. What was found for a type
is remembered until a registration changes.

## Main definitions

* `TypeCommands` — commands by type, with the answers found so far and the types known by name.
* `TypeCommands.register`, `TypeCommands.remove`, `TypeCommands.declare` — its changes.
* `TypeCommands.resolve` — the command for a type.
-/

set_option autoImplicit false

namespace CommandScript

universe u

/-- Commands by type. -/
structure TypeCommands (α : Type u) where
  /-- The registrations, in the order in which they were made. -/
  entries : List (TypeTag × α) := []
  /-- What was found, by the name of the type. -/
  found : Table α := .empty
  /-- The types that are known by name. -/
  known : Table TypeTag := .empty

namespace TypeCommands

variable {α : Type u}

/-- Makes a type and its ancestors known by name. -/
def declare (t : TypeCommands α) (tag : TypeTag) : TypeCommands α :=
  { t with known := tag.lineage.foldl (fun known u => known.insertIfNew u.name u) t.known }

/-- Replaces the command registered for exactly the type, or adds it at the end. -/
def replace (tag : TypeTag) (command : α) : List (TypeTag × α) → List (TypeTag × α)
  | [] => [(tag, command)]
  | e :: rest => if e.1.same tag then (e.1, command) :: rest else e :: replace tag command rest

/-- Registers a command for a type and its descendants. -/
def register (t : TypeCommands α) (tag : TypeTag) (command : α) : TypeCommands α :=
  { t.declare tag with entries := replace tag command t.entries, found := .empty }

/-- Removes the command registered for exactly the type. -/
def remove (t : TypeCommands α) (tag : TypeTag) : TypeCommands α :=
  { t.declare tag with entries := t.entries.eraseP (fun e => e.1.same tag), found := .empty }

/-- Whether a command is registered for exactly the type. -/
def has (t : TypeCommands α) (tag : TypeTag) : Bool :=
  t.entries.any (fun e => e.1.same tag)

/-- Looks up a type by name. -/
def findType? (t : TypeCommands α) (name : String) : Option TypeTag :=
  t.known.find? name

/-- The better of the best entry so far and another one, for values of the type. -/
def better (concrete : TypeTag) (best : Option (TypeTag × α)) (e : TypeTag × α) :
    Option (TypeTag × α) :=
  if concrete.isA e.1 then
    match best with
    | some b => if e.1.isA b.1 then some e else some b
    | none => some e
  else best

/-- The entry with the most specific type that values of the type belong to. -/
def best (concrete : TypeTag) (entries : List (TypeTag × α)) : Option (TypeTag × α) :=
  entries.foldl (better concrete) none

/-- The command for values of the type. What is found is remembered. -/
def resolve (t : TypeCommands α) (concrete : TypeTag) : Option α × TypeCommands α :=
  match t.found.find? concrete.name with
  | some command => (some command, t)
  | none =>
    match best concrete t.entries with
    | none => (none, t)
    | some (_, command) =>
      (some command, { t with found := t.found.insert concrete.name command })

end TypeCommands

end CommandScript
