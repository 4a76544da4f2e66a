import CommandScript.Script.Word
import CommandScript.Stack
import CommandScript.Table
import CommandScript.TypeTag

/-!
# Values

Every value is, in the end, a text. A value is kept in a *cell*: its text, which once known never
changes, and the form in which it was last used, so that a list need not be read again each time.
Values are shared, and it shows that they are: two variables may hold the very same cell, and what
one use of it caches, the other sees. So cells live in a *store*, and a value is a reference into
it.

A cell may wrap an *object*: a procedure, or a thing that belongs to a host. Objects are shared
between cells in their turn.

## Main definitions

* `Ref`, `ObjectRef` — references to cells and objects.
* `Rep` — the form of a value, `Cell` — text and form, `Object` — what a cell may wrap.
* `Store` — all cells and objects, with `Store.cell`, `Store.alloc`, `Store.typeOf`.
* `StoreM` — computations that use and extend the store and cannot fail.
-/

set_option autoImplicit false

namespace CommandScript

/-- A reference to a cell. -/
structure Ref where
  /-- The place of the cell in the store. -/
  index : Nat
deriving DecidableEq, Repr, Inhabited

/-- A reference to an object. -/
structure ObjectRef where
  /-- The place of the object in the store. -/
  index : Nat
deriving DecidableEq, Repr, Inhabited

/-- The form in which a value is held. -/
inductive Rep where
  /-- Only its text is known. -/
  | none
  /-- An integer of 32 bits. -/
  | int (n : Int32)
  /-- An integer of 64 bits. -/
  | long (n : Int64)
  /-- A floating-point number. -/
  | float (x : Float)
  /-- A list of values, its end being the top. -/
  | list (items : Stack Ref)
  /-- A hash. -/
  | hash (entries : Table Ref)
  /-- A script; its fixed texts are values too. -/
  | script (commands : Script Ref)
  /-- An object. The object is the value: no other form takes its place. -/
  | object (object : ObjectRef)

/-- A value: its text, if it is known yet, and its form. -/
structure Cell where
  /-- The text, if it is known yet. -/
  text : Option String
  /-- The form. -/
  rep : Rep := .none
  /-- Whether the value belongs to a script that was read from text. -/
  literal : Bool := false

/-- A parameter of a procedure. -/
structure Parameter where
  /-- The variable that gets the argument. -/
  name : String
  /-- What it gets if there is no argument. -/
  fallback : Option Ref

/-- A procedure. It does not know its name: only the table of commands does. -/
structure Procedure where
  /-- The parameters as they were written. -/
  spec : Ref
  /-- The parameters. -/
  params : List Parameter
  /-- The script to run. -/
  body : Ref

/-- A thing that belongs to a host: a label with a counter. -/
structure Native where
  /-- Its type. -/
  tag : TypeTag
  /-- Its label. -/
  label : String
  /-- Its counter. -/
  count : Nat := 0
  /-- Whether a copy of a value gets a thing of its own. -/
  copyable : Bool := false

/-- What a cell may wrap. -/
inductive Object where
  /-- A procedure without a name. -/
  | procedure (p : Procedure)
  /-- A thing that belongs to a host. -/
  | native (n : Native)

namespace Object

/-- The type of an object. -/
def tag : Object → TypeTag
  | .procedure _ => .proc
  | .native n => n.tag

end Object

/-- All cells and objects. -/
structure Store where
  /-- The cells. -/
  cells : Array Cell := #[]
  /-- The objects. -/
  objects : Array Object := #[]

instance : Inhabited Store :=
  ⟨{}⟩

/-- A computation that uses and extends the store and cannot fail. -/
abbrev StoreM : Type → Type :=
  StateM Store

namespace Store

/-- The empty text. -/
def blank : Cell :=
  { text := some "" }

/-- The cell of a reference. References come from the store, so there always is one. -/
def cell (s : Store) (r : Ref) : Cell :=
  s.cells[r.index]?.getD blank

/-- The object of a reference. -/
def object? (s : Store) (o : ObjectRef) : Option Object :=
  s.objects[o.index]?

/-- Adds a cell. -/
def alloc (c : Cell) : StoreM Ref := fun s =>
  (⟨s.cells.size⟩, { s with cells := s.cells.push c })

/-- Adds an object. -/
def allocObject (o : Object) : StoreM ObjectRef := fun s =>
  (⟨s.objects.size⟩, { s with objects := s.objects.push o })

/-- A new value with the text. -/
def ofText (text : String) : StoreM Ref :=
  alloc { text := some text }

/-- A new value with the text that belongs to a script. -/
def ofLiteral (text : String) : StoreM Ref :=
  alloc { text := some text, literal := true }

/-- A new value of the form; its text is not needed yet. -/
def ofRep (rep : Rep) : StoreM Ref :=
  alloc { text := none, rep }

/-- A new integer. -/
def ofInt (n : Int32) : StoreM Ref :=
  ofRep (.int n)

/-- A new truth value: an integer, zero or one. -/
def ofBool (b : Bool) : StoreM Ref :=
  ofInt (if b then 1 else 0)

/-- A new long integer. -/
def ofLong (n : Int64) : StoreM Ref :=
  ofRep (.long n)

/-- A new list. -/
def ofStack (items : Stack Ref) : StoreM Ref :=
  ofRep (.list items)

/-- A new list. -/
def ofList (items : List Ref) : StoreM Ref :=
  ofStack (.ofList items)

/-- A new hash. -/
def ofHash (entries : Table Ref) : StoreM Ref :=
  ofRep (.hash entries)

/-- A new value around an object that may be shared. -/
def ofShared (o : ObjectRef) : StoreM Ref :=
  ofRep (.object o)

/-- A new value around a new object. -/
def ofObject (o : Object) : StoreM Ref := do
  ofShared (← allocObject o)

/-- New values with the texts. -/
def ofTexts (texts : List String) : StoreM (List Ref) :=
  texts.mapM ofText

/-- Sets the text of a cell. -/
def fixText (r : Ref) (text : String) : StoreM Unit := fun s =>
  ((), { s with cells := s.cells.modify r.index fun c => { c with text := some text } })

/-- Sets the form of a cell. -/
def setRep (r : Ref) (rep : Rep) : StoreM Unit := fun s =>
  ((), { s with cells := s.cells.modify r.index fun c => { c with rep } })

/-- Changes an object. -/
def setObject (o : ObjectRef) (object : Object) : StoreM Unit := fun s =>
  ((), { s with objects := s.objects.setIfInBounds o.index object })

/-- The object that a value wraps. -/
def objectOf? (s : Store) (r : Ref) : Option ObjectRef :=
  match (s.cell r).rep with
  | .object o => some o
  | _ => none

/-- The type of a value: that of its object, or of the form in which it was last used. A script
counts as text. -/
def typeOf (s : Store) (r : Ref) : TypeTag :=
  match (s.cell r).rep with
  | .none | .script _ => .string
  | .int _ => .int
  | .long _ => .long
  | .float _ => .float
  | .list _ => .list
  | .hash _ => .hash
  | .object o => ((s.object? o).map Object.tag).getD .object

/-- Whether a value belongs to a script. -/
def isLiteral (s : Store) (r : Ref) : Bool :=
  (s.cell r).literal

end Store

end CommandScript
