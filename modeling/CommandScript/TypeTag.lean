/-!
# Type tags

A type has a name and at most one parent. A tag holds the name and the names of all ancestors,
the parent first, so that the line of descent of a type is part of it.

## Main definitions

* `TypeTag` — a type, compared by its name.
* `TypeTag.lineage` — the type and its ancestors.
* `TypeTag.isA` — whether a value of one type can stand where another is expected.
* `TypeTag.builtins` — the types that every interpreter knows.
-/

set_option autoImplicit false

namespace CommandScript

/-- A type with the names of its ancestors, the parent first. -/
structure TypeTag where
  /-- The name of the type. -/
  name : String
  /-- The names of its ancestors, the parent first. -/
  ancestors : List String := []
deriving DecidableEq, Repr, Inhabited

namespace TypeTag

/-- The type with the name and parent. -/
def child (parent : TypeTag) (name : String) : TypeTag :=
  ⟨name, parent.name :: parent.ancestors⟩

/-- The parent of a type. -/
def parent? (t : TypeTag) : Option TypeTag :=
  match t.ancestors with
  | [] => none
  | name :: ancestors => some ⟨name, ancestors⟩

/-- The types on the way up from a type with the name and ancestors. -/
def lineageOf (name : String) : List String → List TypeTag
  | [] => [⟨name, []⟩]
  | parent :: ancestors => ⟨name, parent :: ancestors⟩ :: lineageOf parent ancestors

/-- The type and its ancestors, the type first. -/
def lineage (t : TypeTag) : List TypeTag :=
  lineageOf t.name t.ancestors

/-- Whether the two are the same type: types are told apart by their names. -/
def same (t u : TypeTag) : Bool :=
  t.name == u.name

/-- Whether a value of type `t` may be used where `u` is expected: `u` is `t` or an ancestor of
it. -/
def isA (t u : TypeTag) : Bool :=
  t.lineage.any (·.same u)

/-! ## The types that every interpreter knows -/

/-- The type of all values. -/
def value : TypeTag := ⟨"value", []⟩

/-- Plain text. -/
def string : TypeTag := value.child "string"

/-- Any number. -/
def number : TypeTag := value.child "number"

/-- Integers of 32 bits. -/
def int : TypeTag := number.child "int"

/-- Integers of 64 bits. -/
def long : TypeTag := number.child "long"

/-- Floating-point numbers. -/
def float : TypeTag := number.child "float"

/-- Lists. -/
def list : TypeTag := value.child "list"

/-- Hashes. -/
def hash : TypeTag := value.child "hash"

/-- Objects of a host. -/
def object : TypeTag := value.child "object"

/-- Procedures that are values. -/
def proc : TypeTag := object.child "proc"

/-- The types that every interpreter knows, in the order in which it learns them. -/
def builtins : List TypeTag :=
  [value, string, number, int, long, float, list, hash, object, proc]

/-- The names along a lineage. -/
theorem map_name_lineage (t : TypeTag) : t.lineage.map TypeTag.name = t.name :: t.ancestors := by
  obtain ⟨name, ancestors⟩ := t
  induction ancestors generalizing name with
  | nil => rfl
  | cons parent rest ih => simpa [lineage, lineageOf] using ih parent

/-- A type is another one if the other's name is its own or an ancestor's. -/
theorem isA_iff (t u : TypeTag) : t.isA u = true ↔ u.name ∈ t.name :: t.ancestors := by
  rw [← map_name_lineage]
  simp only [isA, same, List.any_eq_true, beq_iff_eq, List.mem_map]

end TypeTag

end CommandScript
