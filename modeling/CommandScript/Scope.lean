import CommandScript.Failure
import CommandScript.Stack
import CommandScript.Value.Store

/-!
# Scopes

Variables live in frames. The global frame is always there; each procedure call puts a frame of
its own on top. A name in a frame may be a *link*: the variable it stands for is the global one of
the same name. Frames are addressed by level: zero is the global frame, positive levels count
upward from it, and negative ones downward from the top.

Each change moves a version number, so that whoever remembers something about variables can tell
when it is out of date.

## Main definitions

* `Binding`, `Frame`, `ScopeStack` — variables.
* `ScopeStack.place?`, `ScopeStack.evalPlace?` — which frame a level means, for variables and for
  evaluation.
* `ScopeStack.get`, `ScopeStack.set`, `ScopeStack.unset`, `ScopeStack.has`,
  `ScopeStack.linkGlobal`, `ScopeStack.names` — variables.
* `ScopeStack.push`, `ScopeStack.pushFrame`, `ScopeStack.pop` — frames.
-/

set_option autoImplicit false

namespace CommandScript

/-- What a name in a frame stands for. -/
inductive Binding where
  /-- A variable with a value. -/
  | value (r : Ref)
  /-- The global variable of the same name. -/
  | link
deriving DecidableEq, Repr

/-- The variables of a procedure call, or the global ones. -/
abbrev Frame : Type :=
  Table Binding

/-- The frames, and how often they have changed. -/
structure ScopeStack where
  /-- The frame at the bottom. -/
  globals : Frame := .empty
  /-- The frames above it. -/
  locals : Stack Frame := .empty
  /-- The number of changes so far. -/
  version : UInt64 := 0

namespace ScopeStack

/-- The number of frames. -/
def depth (s : ScopeStack) : Nat :=
  s.locals.height + 1

/-- Counts a change. -/
def touch (s : ScopeStack) : ScopeStack :=
  { s with version := s.version + 1 }

/-! ## Frames -/

/-- Puts a frame on top. -/
def pushFrame (s : ScopeStack) (f : Frame) : ScopeStack :=
  { s with locals := s.locals.push f }.touch

/-- Puts a new frame on top. -/
def push (s : ScopeStack) : ScopeStack :=
  s.pushFrame .empty

/-- Takes the top frame off, unless it is the global one. -/
def pop (s : ScopeStack) : Option Frame × ScopeStack :=
  match s.locals.pop with
  | none => (none, s)
  | some (f, locals) => (some f, { s with locals }.touch)

/-- Takes frames off until `count` more have been taken or only the global one is left. `taken` are
those taken before; the last one taken comes first. -/
def popMany (taken : List Frame) : Nat → ScopeStack → List Frame × ScopeStack
  | 0, s => (taken, s)
  | count + 1, s =>
    match s.pop with
    | (none, s) => (taken, s)
    | (some f, s) => popMany (f :: taken) count s

/-- Puts frames on top, the first of them first. -/
def pushMany (s : ScopeStack) (frames : List Frame) : ScopeStack :=
  frames.foldl pushFrame s

/-- The place of the frame that a level means for variables. -/
def place? (s : ScopeStack) (level : Int) : Except Failure Nat :=
  let place := if level < 0 then s.depth + level else level
  if place < 0 ∨ s.depth ≤ place then .error (.badLevel level) else .ok place.toNat

/-- The place of the frame that a level means for evaluation: below zero it counts from the frame
under the top one. -/
def evalPlace? (s : ScopeStack) (level : Int) : Except Failure Nat :=
  let top : Int := s.depth - 1
  let place := if level < 0 then top + level else level
  if place < 0 ∨ top < place then .error (.badLevel level) else .ok place.toNat

/-- The frame at a place, the global one being at zero. -/
def frame (s : ScopeStack) : Nat → Frame
  | 0 => s.globals
  | place + 1 => (s.locals.get? place).getD .empty

/-- Replaces the frame at a place. -/
def setFrame (s : ScopeStack) (place : Nat) (f : Frame) : ScopeStack :=
  match place with
  | 0 => { s with globals := f }
  | place + 1 => { s with locals := s.locals.set place f }

/-! ## Variables -/

/-- The value of a global variable. -/
def globalValue? (s : ScopeStack) (name : String) : Option Ref :=
  match s.globals.find? name with
  | some (.value r) => some r
  | _ => none

/-- The value of the variable that a name stands for in the frame at a place. -/
def valueAt? (s : ScopeStack) (name : String) (place : Nat) : Option Ref :=
  match (s.frame place).find? name with
  | some (.value r) => some r
  | some .link => s.globalValue? name
  | none => none

/-- The value of a variable. -/
def get (s : ScopeStack) (name : String) (level : Int) : Except Failure Ref :=
  match s.place? level with
  | .error e => .error e
  | .ok place =>
    match s.valueAt? name place with
    | some r => .ok r
    | none => .error (.noVariable name)

/-- Whether there is such a variable. -/
def has (s : ScopeStack) (name : String) (level : Int) : Bool :=
  match s.place? level with
  | .error _ => false
  | .ok place => (s.valueAt? name place).isSome

/-- The place of the frame that holds what a name stands for in the frame at a place. -/
def slot (s : ScopeStack) (name : String) (place : Nat) : Nat :=
  match (s.frame place).find? name with
  | some .link => 0
  | _ => place

/-- Gives a variable a value. -/
def set (s : ScopeStack) (name : String) (r : Ref) (level : Int) : Except Failure ScopeStack :=
  match s.place? level with
  | .error e => .error e
  | .ok place =>
    let slot := s.slot name place
    .ok (s.setFrame slot ((s.frame slot).insert name (.value r))).touch

/-- Removes a variable; if the name is a link, the global variable and the link. -/
def unset (s : ScopeStack) (name : String) (level : Int) : Except Failure ScopeStack :=
  match s.place? level with
  | .error e => .error e
  | .ok place =>
    match (s.frame place).find? name with
    | none => .error (.noVariable name)
    | some b =>
      let s := s.setFrame place ((s.frame place).erase name)
      let s :=
        match b with
        | .link => { s with globals := s.globals.erase name }
        | .value _ => s
      .ok s.touch

/-- Makes a name in the top frame a link to the global variable. At the bottom there is nothing to
link. -/
def linkGlobal (s : ScopeStack) (name : String) : ScopeStack :=
  match s.locals.pop with
  | none => s
  | some (f, locals) => { s with locals := locals.push (f.insert name .link) }.touch

/-- The names in a frame, in order. -/
def names (s : ScopeStack) (level : Int) : Except Failure (List String) :=
  match s.place? level with
  | .error e => .error e
  | .ok place => .ok (s.frame place).keys

end ScopeStack

end CommandScript
