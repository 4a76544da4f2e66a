import CommandScript.Builtin.Data
import CommandScript.Builtin.System

/-!
# The commands that run no script

## Main definitions

* `Builtin.Plain.run` — what each of them does with the words it is called with.
-/

set_option autoImplicit false

namespace CommandScript.Builtin

variable {κ : Type}

/-- Runs a command that runs no script. -/
def Plain.run : Plain → List Ref → EvalM κ (Option Ref)
  | .set => Builtin.set
  | .unset => Builtin.unset
  | .exists => isSet
  | .copy => Builtin.copy
  | .proc => Builtin.proc
  | .rename => Builtin.rename
  | .addAlias => Builtin.addAlias
  | .global => Builtin.global
  | .intro => Builtin.intro
  | .return => returnValue
  | .throw => throwMessage
  | .break => fun _ => signal .broke
  | .continue => fun _ => signal .continued
  | .classof => Builtin.classof
  | .hasclass => Builtin.hasclass
  | .list => Builtin.list
  | .llength => Builtin.llength
  | .lindex => Builtin.lindex
  | .lappend => Builtin.lappend
  | .sort => Builtin.sort
  | .hash => Builtin.hash
  | .hget => Builtin.hget
  | .hkeys => Builtin.hkeys
  | .incr => Builtin.incr
  | .add => Builtin.add
  | .subtract => Builtin.subtract
  | .multiply => Builtin.multiply
  | .less => compare fun m n => m < n
  | .greater => compare fun m n => n < m
  | .equal => compare fun m n => m == n
  | .puts => Builtin.puts
  | .exit => Builtin.exit
  | .clock => Builtin.clock
  | .collect => fun _ => done
  | .getProperty => Builtin.getProperty
  | .hasProperty => Builtin.hasProperty
  | .freeMemory => fun _ => Builtin.freeMemory
  | .totalMemory => fun _ => Builtin.totalMemory

end CommandScript.Builtin
