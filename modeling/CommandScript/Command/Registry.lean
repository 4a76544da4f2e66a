import CommandScript.Failure
import CommandScript.Table

/-!
# The table of commands

Commands by name, in the order in which the names were bound.

## Main definitions

* `Registry` — commands by name.
* `Registry.add`, `Registry.remove`, `Registry.addAlias`, `Registry.rename` — its changes.
-/

set_option autoImplicit false

namespace CommandScript

universe u

/-- Commands by name. -/
abbrev Registry (α : Type u) : Type u :=
  Table α

namespace Registry

variable {α : Type u}

/-- Binds a name to a command. -/
def add (r : Registry α) (name : String) (command : α) : Registry α :=
  r.insert name command

/-- Removes a name. -/
def remove (r : Registry α) (name : String) : Registry α :=
  r.erase name

/-- Binds the new name to the command of the old one, too. -/
def addAlias (r : Registry α) (old new : String) : Except Failure (Registry α) :=
  match r.find? old with
  | none => .error (.noCommand old)
  | some command => .ok (r.add new command)

/-- Moves the command of the old name to the new one. -/
def rename (r : Registry α) (old new : String) : Except Failure (Registry α) :=
  match r.find? old with
  | none => .error (.noCommand old)
  | some command => .ok (if old = new then r else (r.add new command).remove old)

end Registry

end CommandScript
