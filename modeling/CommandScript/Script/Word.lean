/-!
# Scripts

A script is a sequence of commands, a command a sequence of words. A word is fixed text, a
variable, the result of another script, or several of these joined. The fixed texts are of any
type: the reader leaves strings, an interpreter puts values in their place.

## Main definitions

* `Word`, `Command`, `Script` — the parts of a script.
-/

set_option autoImplicit false

namespace CommandScript

/-- A word of a command, with fixed texts of type `α`. -/
inductive Word (α : Type) where
  /-- Fixed text. -/
  | literal (text : α)
  /-- The value of a variable. -/
  | var (name : String)
  /-- The result of a script in brackets. -/
  | substitution (script : List (List (Word α)))
  /-- Several words put together to one text. -/
  | joined (parts : List (Word α))

namespace Script

/-- The words of a command, its name first. -/
abbrev Command (α : Type) : Type :=
  List (Word α)

end Script

/-- Commands, to be run one after another. -/
abbrev Script (α : Type) : Type :=
  List (Script.Command α)

end CommandScript
