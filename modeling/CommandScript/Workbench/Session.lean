import CommandScript.Workbench.Answer
import CommandScript.Workbench.Specimen
import CommandScript.Workbench.Tool

/-!
# Sessions

A session drives an interpreter step by step. It keeps values in registers, and the frames it has
taken off the scopes on a stack of their own.

## Main definitions

* `Workbench.Step` — what a session can do.
* `Workbench.Bench` — registers and frames, `Workbench.Session` — a session.
* `Workbench.perform` — does one step.
* `Workbench.Session.step`, `Workbench.Session.run` — a session, step by step.
-/

set_option autoImplicit false

namespace CommandScript.Workbench

/-- What a session can do. Where a register is optional, the resulting value is put there. -/
inductive Step where
  | eval (script : String) (into : Option String)
  | evalValue (source : String)
  | evalAt (script : String) (level : Int)
  | evalValueAt (source : String) (level : Int)
  | complete (script : String)
  | limit
  | setLimit (limit : Nat)
  | errorStack
  | addError (source : String)
  | clearError
  | make (specimen : Specimen) (into : Option String)
  | convert (source : String) (conversion : Conversion)
  | copy (source : String) (into : Option String)
  | element (source : String) (place : Int) (into : Option String)
  | entry (source key : String) (into : Option String)
  | same (a b : String)
  | getVar (name : String) (level : Int) (into : Option String)
  | setVar (name source : String) (level : Int) (into : Option String)
  | unsetVar (name : String) (level : Int)
  | hasVar (name : String) (level : Int)
  | linkGlobal (name : String)
  | varNames (level : Int)
  | pushScope
  | popScope
  | pushFrame
  | addCommand (name : String) (kind : HostKind) (arity : Arity) (tool : Tool)
  | addProcedure (name : String) (params body : Specimen)
  | removeCommand (name : String)
  | rename (old new : String)
  | addAlias (old new : String)
  | hasCommand (name : String)
  | commandKind (name : String)
  | commandNames
  | procedureNames
  | procedureBody (name : String) (into : Option String)
  | procedureParams (name : String) (into : Option String)
  | addTypeCommand (tag : TypeTag) (arity : Arity) (tool : Tool)
  | removeTypeCommand (tag : TypeTag)
  | hasTypeCommand (tag : TypeTag)
  | declareType (tag : TypeTag)
  | findType (name : String)
  | attach (key : String) (data : AuxData)
  | attached (key : String)
  | detach (key : String)
  | writeOutput (line : String) (clear : Bool)

/-- What a session keeps outside the interpreter. -/
structure Bench where
  /-- Values by name. -/
  registers : Registers := .empty
  /-- Frames that were taken off, the latest first. -/
  frames : List Frame := []

/-- A step: a computation on the bench and the interpreter. -/
abbrev StepM : Type → Type :=
  StateT Bench (EvalM Tool)

/-- The value of a register, if it is there. -/
def register? (name : String) : StepM (Option Ref) := do
  return (← get).registers.find? name

/-- Puts a value in a register, if one is named. -/
def keep (r : Ref) : Option String → StepM Unit
  | none => return
  | some name => modify fun b => { b with registers := b.registers.insert name r }

/-- Tells a value and puts it in a register. -/
def tell (into : Option String) (r : Ref) : StepM Answer := do
  keep r into
  (tellValue r : StoreM Answer)

/-- Continues with the value of a register. -/
def withRegister (name : String) (f : Ref → StepM Answer) : StepM Answer := do
  match ← register? name with
  | none => return .refused
  | some r => f r

/-- Builds a value. -/
def buildValue (s : Specimen) : StepM (Option Ref) := do
  let registers := (← get).registers
  ((build registers s).run : StoreM (Option Ref))

/-- Changes the commands by type. -/
def updateTypes (f : TypeCommands (Command Tool) → TypeCommands (Command Tool)) : StepM Unit :=
  (EvalM.modifyContext fun c => { c with typeCommands := f c.typeCommands } : EvalM Tool Unit)

/-- Changes the scopes. -/
def changeScopes (f : ScopeStack → ScopeStack) : StepM Unit :=
  (EvalM.modifyContext fun c => { c with scopes := f c.scopes } : EvalM Tool Unit)

/-- The context of the interpreter. -/
def look : StepM (Context Tool) :=
  (EvalM.getContext : EvalM Tool (Context Tool))

/-- The element at a place, counted from zero. -/
def elementAt? (items : List Ref) (place : Int) : Option Ref :=
  if place < 0 then none else items[place.toNat]?

/-- Steps that evaluate scripts or tell about evaluation. -/
def performEval : Step → StepM Answer
  | .eval script into => do
    let r ← (Interp.evalText script : EvalM Tool Ref)
    tell into r
  | .evalValue source => withRegister source fun r => do
    let r ← (Interp.evalValue r : EvalM Tool Ref)
    tell none r
  | .evalAt script level => do
    let r ← (do Interp.evalValueAt (← (Store.ofText script : StoreM Ref)) level : EvalM Tool Ref)
    tell none r
  | .evalValueAt source level => withRegister source fun r => do
    let r ← (Interp.evalValueAt r level : EvalM Tool Ref)
    tell none r
  | .complete script => return .bool (Script.isComplete script)
  | .limit => return .number (← look).limit
  | .setLimit limit => do
    (EvalM.modifyContext fun c => { c with limit } : EvalM Tool Unit)
    return .number limit
  | .errorStack => do
    return .texts (← (Store.texts (← look).errorStack.toList : StoreM (List String)))
  | .addError source => withRegister source fun r => do
    (EvalM.modifyContext fun c => { c with errorStack := c.errorStack.push r } : EvalM Tool Unit)
    return .done
  | .clearError => do
    (EvalM.modifyContext fun c => { c with errorStack := .empty } : EvalM Tool Unit)
    return .done
  | _ => return .refused

/-- Steps on values. -/
def performValue : Step → StepM Answer
  | .make specimen into => do
    match ← buildValue specimen with
    | none => return .refused
    | some r => tell into r
  | .convert source conversion => withRegister source fun r =>
    (convert r conversion : StoreM Answer)
  | .copy source into => withRegister source fun r => do
    let r ← (Store.copy r : StoreM Ref)
    tell into r
  | .element source place into => withRegister source fun r => do
    let items ← (Store.asList r : ConvM (List Ref))
    match elementAt? items place with
    | some r => tell into r
    | none => return tellFailure (.host "no element")
  | .entry source key into => withRegister source fun r => do
    let entries ← (Store.asHash r : ConvM (Table Ref))
    match entries.find? key with
    | some r => tell into r
    | none => return tellFailure (.host "no entry")
  | .same a b => withRegister a fun a => withRegister b fun b => do
    let ta ← (Store.text a : StoreM String)
    let tb ← (Store.text b : StoreM String)
    let oa ← (EvalM.objectOf? a : EvalM Tool (Option ObjectRef))
    let ob ← (EvalM.objectOf? b : EvalM Tool (Option ObjectRef))
    let objects :=
      match oa, ob with
      | some oa, some ob => some (oa == ob)
      | _, _ => none
    return .comparison (a == b) (ta == tb) objects
  | _ => return .refused

/-- Steps on variables and frames. -/
def performScope : Step → StepM Answer
  | .getVar name level into => do
    let r ← (EvalM.getVar name level : EvalM Tool Ref)
    tell into r
  | .setVar name source level into => withRegister source fun r => do
    let r ← (EvalM.setVar name r level : EvalM Tool Ref)
    tell into r
  | .unsetVar name level => do
    (EvalM.unsetVar name level : EvalM Tool Unit)
    return .done
  | .hasVar name level => do
    return .bool (← (EvalM.hasVar name level : EvalM Tool Bool))
  | .linkGlobal name => do
    (EvalM.linkGlobal name : EvalM Tool Unit)
    return .done
  | .varNames level => do
    return .texts (← (EvalM.varNames level : EvalM Tool (List String)))
  | .pushScope => do
    changeScopes ScopeStack.push
    return .done
  | .popScope => do
    match (← look).scopes.pop with
    | (none, _) => return .done
    | (some f, scopes) =>
      changeScopes fun _ => scopes
      modify fun b => { b with frames := f :: b.frames }
      return .frame f.size
  | .pushFrame => do
    match (← get).frames with
    | [] => changeScopes ScopeStack.push
    | f :: frames =>
      changeScopes fun s => s.pushFrame f
      modify fun b => { b with frames }
    return .done
  | _ => return .refused

/-- Steps on commands. -/
def performCommand : Step → StepM Answer
  | .addCommand name kind arity tool => do
    (EvalM.addCommand name (.host kind arity tool) : EvalM Tool Unit)
    return .text name
  | .addProcedure name params body => do
    match ← buildValue params, ← buildValue body with
    | some params, some body =>
      let p ← (Procedure.define params body : ConvM Procedure)
      (EvalM.addCommand name (.procedure p) : EvalM Tool Unit)
      return .done
    | _, _ => return .refused
  | .removeCommand name => do
    (EvalM.removeCommand name : EvalM Tool Unit)
    return .done
  | .rename old new => do
    (EvalM.renameCommand old new : EvalM Tool Unit)
    return .done
  | .addAlias old new => do
    (EvalM.aliasCommand old new : EvalM Tool Unit)
    return .done
  | .hasCommand name => return .bool ((← look).commands.contains name)
  | .commandKind name => do
    match (← look).commands.find? name with
    | some c => return .value c.kind TypeTag.string.name
    | none => return tellFailure (.notCommand name)
  | .commandNames => return .texts (← look).commands.keys
  | .procedureNames => do
    return .texts (← (EvalM.procedureNames : EvalM Tool (List String)))
  | .procedureBody name into => do
    let p ← (EvalM.procedureNamed name : EvalM Tool Procedure)
    tell into p.body
  | .procedureParams name into => do
    let p ← (EvalM.procedureNamed name : EvalM Tool Procedure)
    tell into p.spec
  | .addTypeCommand tag arity tool => do
    updateTypes fun t => t.register tag (.host .native arity tool)
    return .done
  | .removeTypeCommand tag => do
    updateTypes fun t => t.remove tag
    return .done
  | .hasTypeCommand tag => return .bool ((← look).typeCommands.has tag)
  | .declareType tag => do
    updateTypes fun t => t.declare tag
    return .done
  | .findType name => do
    return .maybe (((← look).typeCommands.findType? name).map TypeTag.name)
  | _ => return .refused

/-- Steps on attached data and output. -/
def performData : Step → StepM Answer
  | .attach key data => do
    (EvalM.modifyContext fun c => { c with aux := c.aux.insert key data } : EvalM Tool Unit)
    return .done
  | .attached key => do
    match (← look).aux.find? key with
    | none => return .attached false none none
    | some (.text s) => return .attached true (some s) none
    | some (.number n) => return .attached true none (some n.toInt)
    | some .output => return .attached true none none
  | .detach key => do
    let present := (← look).aux.contains key
    (EvalM.modifyContext fun c => { c with aux := c.aux.erase key } : EvalM Tool Unit)
    return .bool present
  | .writeOutput line clear => do
    (EvalM.modifyContext fun c => { c with output := c.output ++ line ++ "\n" } : EvalM Tool Unit)
    let contents := (← look).output
    if clear then
      (EvalM.modifyContext fun c => { c with output := "" } : EvalM Tool Unit)
    return .text contents
  | _ => return .refused

/-- Does one step. -/
def perform (s : Step) : StepM Answer :=
  match s with
  | .eval .. | .evalValue .. | .evalAt .. | .evalValueAt .. | .complete .. | .limit
  | .setLimit .. | .errorStack | .addError .. | .clearError => performEval s
  | .make .. | .convert .. | .copy .. | .element .. | .entry .. | .same .. => performValue s
  | .getVar .. | .setVar .. | .unsetVar .. | .hasVar .. | .linkGlobal .. | .varNames ..
  | .pushScope | .popScope | .pushFrame => performScope s
  | .addCommand .. | .addProcedure .. | .removeCommand .. | .rename .. | .addAlias ..
  | .hasCommand .. | .commandKind .. | .commandNames | .procedureNames | .procedureBody ..
  | .procedureParams .. | .addTypeCommand .. | .removeTypeCommand .. | .hasTypeCommand ..
  | .declareType .. | .findType .. => performCommand s
  | .attach .. | .attached .. | .detach .. | .writeOutput .. => performData s

/-- A session. -/
structure Session where
  /-- Its interpreter. -/
  interp : Interp Tool
  /-- What it keeps besides. -/
  bench : Bench := {}

/-- What a session tells after a step. -/
structure StepReport where
  /-- The answer. -/
  answer : Answer
  /-- The number of frames. -/
  depth : Nat
  /-- The version of the scopes. -/
  version : UInt64
  /-- What was written to the output. -/
  output : String

namespace Session

/-- A new session with an attached output; the interpreter has the commands of the language unless
it is to be bare. -/
def start (bare : Bool) (platform : Platform) : Session :=
  let i : Interp Tool := if bare then Interp.bare else Interp.standard
  { interp := (i.withContext fun c => { c with platform }).attachOutput }

/-- Does one step. -/
def step (s : Session) (job : Step) : StepReport × Session :=
  let (answer, interp, bench) :=
    match (perform job).run s.bench s.interp with
    | .ok (answer, bench) interp => (answer, interp, bench)
    | .error (.raised e) interp =>
      let (answer, values) := tellException e interp.values
      (answer, { interp with values }, s.bench)
    | .error _ interp => (.stopped, interp, s.bench)
  let (output, interp) := interp.takeOutput
  ({ answer, depth := interp.context.scopes.depth, version := interp.context.scopes.version,
     output }, { interp, bench })

/-- Does steps one after another. -/
def run (s : Session) : List Step → List StepReport
  | [] => []
  | job :: rest =>
    let (report, s) := s.step job
    report :: s.run rest

end Session

end CommandScript.Workbench
