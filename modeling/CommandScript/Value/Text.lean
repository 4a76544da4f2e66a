import CommandScript.HashText
import CommandScript.Number.FloatText
import CommandScript.Value.Store

/-!
# The text of a value

The text of a value is computed when it is first asked for and then kept. Asking for the text of a
list fixes the texts of its elements too. An element of a list whose text is not yet known is older
than the list, so the computation goes down to ever older cells.

## Main definitions

* `Store.text` — the text of a value, `Store.texts` — of several.
* `Store.display` — how an object is written now.
* `Store.listText` — values written as a list.
-/

set_option autoImplicit false

namespace CommandScript

/-- How a thing of a host is written: its label, and its counter once that has moved. -/
def Native.write (n : Native) : String :=
  if n.count = 0 then n.label else n.label ++ "#" ++ Number.writeNat n.count

namespace Store

/-- Writes an object, given how values are written. -/
def displayWith (text : Ref → StoreM String) (o : ObjectRef) : StoreM String := fun s =>
  match s.object? o with
  | none => ("", s)
  | some (.native n) => (n.write, s)
  | some (.procedure p) => (do
      let texts ← [p.spec, p.body].mapM text
      return ListText.write texts : StoreM String) s

/-- Writes a form, given how values are written. -/
def writeRep (text : Ref → StoreM String) : Rep → StoreM String
  | .none | .script _ => pure ""
  | .int n => pure (Number.writeInteger n.toInt)
  | .long n => pure (Number.writeInteger n.toInt)
  | .float x => pure (Number.writeFloat x)
  | .list items => do
    let texts ← items.toList.mapM text
    return ListText.write texts
  | .hash entries => do
    let texts ← entries.values.mapM text
    return HashText.write (entries.withValues texts)
  | .object o => displayWith text o

/-- The text of a value, going down at most `fuel` cells. -/
def textWithin : Nat → Ref → StoreM String
  | 0, _ => pure ""
  | fuel + 1, r => do
    let c := (← get).cell r
    match c.text with
    | some text => return text
    | none =>
      let text ← writeRep (textWithin fuel) c.rep
      fixText r text
      return text

/-- The text of a value. It is kept from now on. -/
def text (r : Ref) : StoreM String :=
  textWithin (r.index + 1) r

/-- The texts of several values. -/
def texts (rs : List Ref) : StoreM (List String) :=
  rs.mapM text

/-- How an object is written now. -/
def display (o : ObjectRef) : StoreM String :=
  displayWith text o

/-- The values written as a list. -/
def listText (rs : List Ref) : StoreM String := do
  return ListText.write (← texts rs)

end Store

end CommandScript
