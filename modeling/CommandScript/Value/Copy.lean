import CommandScript.Value.Store

/-!
# Copies of values

A copy has the content of a value and shares no cell with it: the elements of lists and hashes are
copied in their turn. Objects are shared with the copy, unless they can be copied.

## Main definitions

* `Store.copy` — a copy of a value.
* `Store.own` — the value itself, or a copy if it belongs to a script.
-/

set_option autoImplicit false

namespace CommandScript.Store

/-- The object for a copy of a value: one of its own if it can be copied. -/
def copyObject (o : ObjectRef) : StoreM ObjectRef := fun s =>
  match s.object? o with
  | some (.native n) => if n.copyable then allocObject (.native n) s else (o, s)
  | _ => (o, s)

/-- Copies a form, given how values are copied. A script is shared. -/
def copyRep (copy : Ref → StoreM Ref) : Rep → StoreM Rep
  | .list items => do
    let items ← items.toList.mapM copy
    return .list (.ofList items)
  | .hash entries => do
    let values ← entries.values.mapM copy
    return .hash (entries.withValues values)
  | .object o => do
    let o ← copyObject o
    return .object o
  | rep => pure rep

/-- Copies a value, going down at most `fuel` cells. -/
def copyWithin : Nat → Ref → StoreM Ref
  | 0, r => pure r
  | fuel + 1, r => do
    let c := (← get).cell r
    let rep ← copyRep (copyWithin fuel) c.rep
    alloc { text := c.text, rep }

/-- A copy of a value. No value is part of itself, so a way down through elements meets each cell
at most once. -/
def copy (r : Ref) : StoreM Ref := do
  copyWithin (← get).cells.size r

/-- A value that a variable may hold: the value itself, or a copy if it belongs to a script. -/
def own (r : Ref) : StoreM Ref := do
  if (← get).isLiteral r then copy r else return r

end CommandScript.Store
