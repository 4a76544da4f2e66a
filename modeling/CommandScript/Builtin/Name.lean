import CommandScript.Failure

/-!
# The built-in commands

The commands that a standard interpreter starts with: what they are called and how many arguments
they take. The commands that run no script are told apart from those that do.

## Main definitions

* `Builtin.Plain` — the commands that run no script.
* `Builtin.Control` — the commands that run scripts.
* `Builtin` — the two together, with `Builtin.standard`: names and arities in the order in which
  an interpreter gets them.
-/

set_option autoImplicit false

namespace CommandScript

namespace Builtin

/-- The commands that run no script. -/
inductive Plain where
  | set | unset | exists | copy | proc | rename | addAlias | global | intro | return | throw
  | break | continue | classof | hasclass
  | list | llength | lindex | lappend | sort | hash | hget | hkeys
  | incr | add | subtract | multiply | less | greater | equal
  | puts
  | exit | clock | collect | getProperty | hasProperty | freeMemory | totalMemory
deriving DecidableEq, Repr

/-- The commands that run scripts. -/
inductive Control where
  | eval | catch | upeval | time | if | while | foreach
deriving DecidableEq, Repr

end Builtin

/-- A built-in command. -/
inductive Builtin where
  /-- It runs no script. -/
  | plain (b : Builtin.Plain)
  /-- It runs scripts. -/
  | control (b : Builtin.Control)
deriving DecidableEq, Repr

namespace Builtin

/-- How many arguments a command takes. -/
def Plain.arity : Plain → Arity
  | .set => .between 1 2
  | .unset => .exactly 1
  | .exists => .exactly 1
  | .copy => .exactly 1
  | .proc => .between 2 3
  | .rename => .exactly 2
  | .addAlias => .exactly 2
  | .global => .atLeast 0
  | .intro => .atLeast 1
  | .return => .between 0 1
  | .throw => .between 1 2
  | .break => .exactly 0
  | .continue => .exactly 0
  | .classof => .exactly 1
  | .hasclass => .exactly 1
  | .list => .atLeast 0
  | .llength => .exactly 1
  | .lindex => .exactly 2
  | .lappend => .atLeast 1
  | .sort => .exactly 1
  | .hash => .exactly 1
  | .hget => .exactly 2
  | .hkeys => .exactly 1
  | .incr => .between 1 2
  | .add => .atLeast 1
  | .subtract => .atLeast 1
  | .multiply => .atLeast 1
  | .less => .exactly 2
  | .greater => .exactly 2
  | .equal => .exactly 2
  | .puts => .exactly 1
  | .exit => .between 0 1
  | .clock => .between 1 2
  | .collect => .exactly 0
  | .getProperty => .exactly 1
  | .hasProperty => .exactly 1
  | .freeMemory => .exactly 0
  | .totalMemory => .exactly 0

/-- How many arguments a command takes. -/
def Control.arity : Control → Arity
  | .eval => .exactly 1
  | .catch => .between 1 2
  | .upeval => .between 1 2
  | .time => .between 1 2
  | .if => .atLeast 2
  | .while => .exactly 2
  | .foreach => .exactly 3

/-- How many arguments a command takes. -/
def arity : Builtin → Arity
  | .plain b => b.arity
  | .control b => b.arity

/-- The commands of a standard interpreter by name, in the order in which it gets them. -/
def standard : List (String × Builtin) :=
  [("set", .plain .set), ("unset", .plain .unset), ("exists", .plain .exists),
   ("copy", .plain .copy), ("proc", .plain .proc), ("rename", .plain .rename),
   ("alias", .plain .addAlias), ("eval", .control .eval), ("global", .plain .global),
   ("intro", .plain .intro), ("return", .plain .return), ("catch", .control .catch),
   ("throw", .plain .throw), ("break", .plain .break), ("continue", .plain .continue),
   ("upeval", .control .upeval), ("time", .control .time), ("classof", .plain .classof),
   ("hasclass", .plain .hasclass), ("if", .control .if), ("while", .control .while),
   ("foreach", .control .foreach), ("list", .plain .list), ("llength", .plain .llength),
   ("lindex", .plain .lindex), ("lappend", .plain .lappend), ("sort", .plain .sort),
   ("hash", .plain .hash), ("hget", .plain .hget), ("hkeys", .plain .hkeys),
   ("incr", .plain .incr), ("+", .plain .add), ("-", .plain .subtract),
   ("*", .plain .multiply), ("<", .plain .less), (">", .plain .greater), ("=", .plain .equal),
   ("puts", .plain .puts), ("exit", .plain .exit), ("clock", .plain .clock),
   ("system.gc", .plain .collect), ("system.getproperty", .plain .getProperty),
   ("system.hasproperty", .plain .hasProperty), ("runtime.freememory", .plain .freeMemory),
   ("runtime.totalmemory", .plain .totalMemory)]

end Builtin

end CommandScript
