import CommandScript.Value.Conversion

/-!
# Specimens

A workbench is an application around an interpreter: it has types, objects and commands of its
own, keeps values in named registers, and drives the interpreter step by step. This module has its
types, and descriptions of values to build.

## Main definitions

* `Workbench.hostTypes`, `Workbench.typeNamed?` — the types of the workbench.
* `Workbench.Specimen`, `Workbench.build` — values to build.
-/

set_option autoImplicit false

namespace CommandScript.Workbench

/-! ## Types -/

/-- The type of shapes. -/
def shape : TypeTag := TypeTag.object.child "shape"

/-- The type of circles, which are shapes. -/
def circle : TypeTag := shape.child "circle"

/-- The types of the workbench. -/
def hostTypes : List TypeTag :=
  [shape, circle, circle.child "disc", shape.child "square", ⟨"orphan", []⟩]

/-- The type of a name: one that every interpreter knows, or one of the workbench. -/
def typeNamed? (name : String) : Option TypeTag :=
  (TypeTag.builtins ++ hostTypes).find? fun t => t.name == name

/-! ## Values -/

/-- A description of a value. -/
inductive Specimen where
  /-- The empty text. -/
  | empty
  /-- A text. -/
  | text (s : String)
  /-- A text that belongs to a script. -/
  | literal (s : String)
  /-- An integer. -/
  | int (n : Int32)
  /-- A long integer. -/
  | long (n : Int64)
  /-- A float, by its bits. -/
  | float (bits : UInt64)
  /-- A truth value. -/
  | bool (b : Bool)
  /-- A list. -/
  | list (items : List Specimen)
  /-- A hash, filled in order. -/
  | hash (entries : List (String × Specimen))
  /-- A new object of the workbench. -/
  | object (tag : TypeTag) (label : String) (copyable : Bool)
  /-- A new value around the object of a register. -/
  | shared (register : String)
  /-- The value of a register. -/
  | register (name : String)

/-- Values by name. -/
abbrev Registers : Type :=
  Table Ref

mutual

/-- Builds a value. Fails if it refers to a register that is not there. -/
def build (registers : Registers) : Specimen → OptionT StoreM Ref
  | .empty => OptionT.lift (Store.ofText "")
  | .text s => OptionT.lift (Store.ofText s)
  | .literal s => OptionT.lift (Store.ofLiteral s)
  | .int n => OptionT.lift (Store.ofInt n)
  | .long n => OptionT.lift (Store.ofLong n)
  | .float bits => OptionT.lift (Store.ofRep (.float (Float.ofBits bits)))
  | .bool b => OptionT.lift (Store.ofBool b)
  | .list items => do
    let refs ← buildAll registers items
    OptionT.lift (Store.ofList refs)
  | .hash entries => do
    let refs ← buildEntries registers entries
    OptionT.lift (Store.ofHash (Table.ofPairs refs))
  | .object tag label copyable =>
    OptionT.lift (Store.ofObject (.native { tag, label, copyable }))
  | .shared name =>
    match registers.find? name with
    | none => failure
    | some r => do
      match (← OptionT.lift get).objectOf? r with
      | none => failure
      | some o => OptionT.lift (Store.ofShared o)
  | .register name =>
    match registers.find? name with
    | none => failure
    | some r => pure r

/-- Builds values in order. -/
def buildAll (registers : Registers) : List Specimen → OptionT StoreM (List Ref)
  | [] => pure []
  | s :: rest => do
    let r ← build registers s
    let rs ← buildAll registers rest
    return r :: rs

/-- Builds the values of the entries of a hash in order. -/
def buildEntries (registers : Registers) :
    List (String × Specimen) → OptionT StoreM (List (String × Ref))
  | [] => pure []
  | (key, s) :: rest => do
    let r ← build registers s
    let rs ← buildEntries registers rest
    return (key, r) :: rs

end

end CommandScript.Workbench
