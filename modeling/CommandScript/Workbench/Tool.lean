import CommandScript.Interp.Api

/-!
# Tools

The commands of the workbench, each as a member of one type.

## Main definitions

* `Workbench.Tool` — the commands.
* `Workbench.Tool.run` — what each does with the words it is called with.
-/

set_option autoImplicit false

namespace CommandScript.Workbench

/-- A command of the workbench. -/
inductive Tool where
  /-- Yields the list of all words. -/
  | echo
  /-- Yields nothing. -/
  | nothing
  /-- Raises an error with a label. -/
  | fail
  /-- Yields the types of all words. -/
  | types
  /-- Yields which words belong to a script. -/
  | literals
  /-- Yields whether two values are the very same. -/
  | same
  /-- Adds long integers. -/
  | sumLongs
  /-- Adds floats. -/
  | sumFloats
  /-- Yields truth values. -/
  | bools
  /-- Moves an integer into a range. -/
  | clamp
  /-- Has subcommands. -/
  | ensemble
  /-- Evaluates scripts one after another. -/
  | evalAll
  /-- Yields the number of frames. -/
  | depth
  /-- Moves the counter of an object. -/
  | bump
  /-- Tells what it was called with. -/
  | letter (name : String)
  /-- Yields a text and the number of words. -/
  | note (text : String)
deriving DecidableEq, Repr

namespace Tool

open EvalM

/-- A number as a text. -/
def count (argv : List Ref) : String :=
  Number.writeNat argv.length

/-- A list of new values as a result. -/
def listResult (items : StoreM (List Ref)) : EvalM Tool (Option Ref) :=
  Builtin.result do
    let items ← items
    Store.ofList items

/-- Raises an error with the label `HOSTERR`. -/
def failWith (argv : List Ref) : EvalM Tool (Option Ref) := do
  let e ← (do
    let message ← Store.ofText
      ("host failed with " ++ Number.writeNat (argv.length - 1) ++ " args")
    Exception.thrown message (some "HOSTERR") : StoreM Exception)
  raise e

/-- Evaluates scripts one after another and yields the last result. -/
def evalEach (E : Engine Tool) : Option Ref → List Ref → EvalM Tool (Option Ref)
  | last, [] => return last
  | _, r :: rest => do
    let script ← text r
    let script ← (Store.ofText script : StoreM Ref)
    let r ← E.eval script
    evalEach E (some r) rest

/-- The subcommands of the ensemble. -/
inductive Part where
  | alpha | beta
deriving DecidableEq, Repr

/-- The subcommands of the ensemble by name. -/
def parts : List (String × Part) :=
  [("alpha", .alpha), ("beta", .beta)]

/-- Runs a subcommand. -/
def runPart (argv : List Ref) : EvalM Tool (Option Ref) := do
  match ← subcommand argv 1 parts with
  | .alpha =>
    checkArgs 2 argv 3 0 "x ?y ...?"
    Builtin.result (Store.ofList (argv.drop 2))
  | .beta => Builtin.result (Store.ofText "beta")

/-- Moves an integer into a range. -/
def clampInt (argv : List Ref) : EvalM Tool (Option Ref) := do
  checkArgs 1 argv 4 4 "value min max"
  let x ← (Store.asInt (← arg argv 1) : ConvM Int32)
  let low ← (Store.asInt (← arg argv 2) : ConvM Int32)
  let high ← (Store.asInt (← arg argv 3) : ConvM Int32)
  let raised := if x < low then low else x
  Builtin.result (Store.ofInt (if high < raised then high else raised))

/-- Moves the counter of the object in the first place. -/
def bumpCounter (argv : List Ref) : EvalM Tool (Option Ref) := do
  let value ← arg argv 0
  match ← objectOf? value with
  | none => EvalM.fail (.host (Failure.quoted (← text value) ++ " isn't a host object"))
  | some o =>
    match ← object? o with
    | some (.native n) =>
      let n := { n with count := n.count + 1 }
      (Store.setObject o (.native n) : StoreM Unit)
      Builtin.result (Store.ofInt (Int32.ofNat n.count))
    | _ => EvalM.fail (.host (Failure.quoted (← text value) ++ " isn't a host object"))

/-- Tells what a command was called with. -/
def describe (name : String) (argv : List Ref) : EvalM Tool (Option Ref) := do
  let head ← arg argv 0
  let tag ← typeOf head
  let text ← text head
  Builtin.result (Store.ofText (" ".intercalate [name, "<" ++ tag.name ++ ">", text, count argv]))

/-- Runs a command of the workbench. -/
def run (E : Engine Tool) (tool : Tool) (argv : List Ref) : EvalM Tool (Option Ref) := do
  match tool with
  | .echo => Builtin.result (Store.ofList argv)
  | .nothing => Builtin.done
  | .fail => failWith argv
  | .types => listResult do
    let s ← get
    Store.ofTexts (argv.map fun r => (s.typeOf r).name)
  | .literals => listResult do
    let s ← get
    (argv.map fun r => s.isLiteral r).mapM Store.ofBool
  | .same =>
    checkArgs 1 argv 3 3 "a b"
    let a ← arg argv 1
    let b ← arg argv 2
    Builtin.result (Store.ofBool (a == b))
  | .sumLongs =>
    let ns ← (argv.tail.mapM Store.asLong : ConvM (List Int64))
    Builtin.result (Store.ofLong (ns.foldl (· + ·) 0))
  | .sumFloats =>
    let xs ← (argv.tail.mapM Store.asFloat : ConvM (List Float))
    Builtin.result (Store.ofRep (.float (xs.foldl (· + ·) 0.0)))
  | .bools =>
    let bs ← (argv.tail.mapM Store.asBool : ConvM (List Bool))
    listResult (bs.mapM Store.ofBool)
  | .clamp => clampInt argv
  | .ensemble => runPart argv
  | .evalAll => evalEach E none argv.tail
  | .depth =>
    let depth := (← getContext).scopes.depth
    Builtin.result (Store.ofInt (Int32.ofNat depth))
  | .bump => bumpCounter argv
  | .letter name => describe name argv
  | .note text => Builtin.result (Store.ofText (text ++ "/" ++ count argv))

/-- The commands of the workbench by name. -/
def named : List (String × Tool) :=
  [("echo", .echo), ("none", .nothing), ("fail", .fail), ("types", .types), ("islit", .literals),
   ("same", .same), ("lsum", .sumLongs), ("fsum", .sumFloats), ("bools", .bools),
   ("clamp", .clamp), ("ens", .ensemble), ("evalall", .evalAll), ("depth", .depth),
   ("bump", .bump), ("a", .letter "a"), ("b", .letter "b"), ("c", .letter "c"),
   ("d", .letter "d")]

end Tool

instance : HostCommands Tool :=
  ⟨Tool.run⟩

end CommandScript.Workbench
