import CommandScript.Builtin.State

/-!
# Commands on lists, hashes and integers

The built-in commands that compute with values. Integers are words of 32 bits: sums, differences
and products wrap around.

## Main definitions

* `Builtin.lindex`, `Builtin.sort`, `Builtin.hget`, `Builtin.add` and others — one function per
  command, from the words of the command to its result.
-/

set_option autoImplicit false

namespace CommandScript.Builtin

open EvalM

variable {κ : Type}

/-! ## Lists -/

/-- `list ?value ...?` -/
def list : List Ref → EvalM κ (Option Ref)
  | _ :: items => result (Store.ofList items)
  | [] => fault

/-- The length of a list, or the largest integer. -/
def lengthOf (items : Stack Ref) : Int32 :=
  Int32.ofNat (min items.height 2147483647)

/-- `llength list` -/
def llength : List Ref → EvalM κ (Option Ref)
  | [_, value] => do
    let items ← (Store.asStack value : ConvM (Stack Ref))
    result (Store.ofInt (lengthOf items))
  | _ => fault

/-- The element at a place, which may be out of range. -/
def elementAt? (items : Stack Ref) (place : Int32) : Option Ref :=
  if place < 0 then none else items.get? place.toInt.toNat

/-- The value, or the empty text. -/
def orBlank : Option Ref → EvalM κ (Option Ref)
  | some r => return some r
  | none => result (Store.ofText "")

/-- `lindex list index` -/
def lindex : List Ref → EvalM κ (Option Ref)
  | [_, value, place] => do
    let items ← (Store.asStack value : ConvM (Stack Ref))
    let place ← (Store.asInt place : ConvM Int32)
    orBlank (elementAt? items place)
  | _ => fault

/-- `lappend name ?value ...?` -/
def lappend : List Ref → EvalM κ (Option Ref)
  | _ :: name :: added => do
    let name ← text name
    let items ←
      if ← hasVar name (-1) then do
        let r ← getVar name (-1)
        (Store.asStack r : ConvM (Stack Ref))
      else pure .empty
    let r ← (Store.ofStack (items.pushAll added) : StoreM Ref)
    let r ← setVar name r (-1)
    return some r
  | _ => fault

/-- The values in the order of their texts. -/
def sorted (items : List Ref) : StoreM (List Ref) := do
  match items with
  | [] | [_] => return items
  | _ =>
    let texts ← Store.texts items
    return ((texts.zip items).mergeSort fun a b => !decide (b.1 < a.1)).map Prod.snd

/-- `sort list` -/
def sort : List Ref → EvalM κ (Option Ref)
  | [_, value] => do
    let items ← (Store.asList value : ConvM (List Ref))
    let items ← (sorted items : StoreM (List Ref))
    result (Store.ofList items)
  | _ => fault

/-! ## Hashes -/

/-- `hash list` -/
def hash : List Ref → EvalM κ (Option Ref)
  | [_, value] => do
    let entries ← (Store.asHash value : ConvM (Table Ref))
    result (Store.ofHash entries)
  | _ => fault

/-- `hget hash key` -/
def hget : List Ref → EvalM κ (Option Ref)
  | [_, value, key] => do
    let entries ← (Store.asHash value : ConvM (Table Ref))
    let key ← text key
    orBlank (entries.find? key)
  | _ => fault

/-- `hkeys hash` -/
def hkeys : List Ref → EvalM κ (Option Ref)
  | [_, value] => do
    let entries ← (Store.asHash value : ConvM (Table Ref))
    textsResult entries.keys
  | _ => fault

/-! ## Integers -/

/-- The values as integers, the first one that is none failing. -/
def ints : List Ref → ConvM (List Int32) :=
  List.mapM Store.asInt

/-- `incr name ?increment?` -/
def incr (argv : List Ref) : EvalM κ (Option Ref) := do
  let step ←
    match argv[2]? with
    | some r => (Store.asInt r : ConvM Int32)
    | none => pure 1
  let name ← text (← arg argv 1)
  let current ← (Store.asInt (← getVar name (-1)) : ConvM Int32)
  let r ← (Store.ofInt (current + step) : StoreM Ref)
  let r ← setVar name r (-1)
  return some r

/-- `+ integer ?integer ...?` -/
def add : List Ref → EvalM κ (Option Ref)
  | _ :: args => do
    let ns ← (ints args : ConvM (List Int32))
    result (Store.ofInt (ns.foldl (· + ·) 0))
  | [] => fault

/-- `- integer ?integer ...?` -/
def subtract : List Ref → EvalM κ (Option Ref)
  | [_, r] => do
    let n ← (Store.asInt r : ConvM Int32)
    result (Store.ofInt (-n))
  | _ :: first :: rest => do
    let n ← (Store.asInt first : ConvM Int32)
    let ns ← (ints rest : ConvM (List Int32))
    result (Store.ofInt (ns.foldl (· - ·) n))
  | _ => fault

/-- `* integer ?integer ...?` -/
def multiply : List Ref → EvalM κ (Option Ref)
  | _ :: args => do
    let ns ← (ints args : ConvM (List Int32))
    result (Store.ofInt (ns.foldl (· * ·) 1))
  | [] => fault

/-- A comparison of two integers. -/
def compare (holds : Int32 → Int32 → Bool) : List Ref → EvalM κ (Option Ref)
  | [_, a, b] => do
    let m ← (Store.asInt a : ConvM Int32)
    let n ← (Store.asInt b : ConvM Int32)
    result (Store.ofBool (holds m n))
  | _ => fault

end CommandScript.Builtin
