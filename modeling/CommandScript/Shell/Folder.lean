import CommandScript.Table

/-!
# Files

What comes of reading a file, and the small part of a file system that can be relied on: a working
folder with files of its own, the folders above it, and the places that every system has.

A path is walked step by step. An empty step and a dot stay where they are, two dots go up, and
above the root there is only the root. Of a folder above the working folder nothing is known but
that it is one.

## Main definitions

* `Shell.ReadError` — why a file cannot be read, with the wording of the system.
* `Shell.decodeText` — the text that bytes stand for.
* `Shell.Folder`, `Shell.Place`, `Shell.walk` — files, folders, and the way through them.
* `Shell.Surroundings`, `Shell.Surroundings.read` — what a path leads to.
-/

set_option autoImplicit false

namespace CommandScript.Shell

/-- Why a file cannot be read. -/
inductive ReadError where
  /-- There is no such file. -/
  | notFound
  /-- The path goes through a file. -/
  | notDirectory
  /-- The path is that of a folder. -/
  | isDirectory
  /-- The path, or a step of it, is too long. -/
  | nameTooLong
  /-- The bytes are no text. -/
  | invalidText
  /-- Another reason, in the words of the system. -/
  | other (message : String)
deriving DecidableEq, Repr

/-- The wording of an error. -/
def ReadError.message : ReadError → String
  | .notFound => "No such file or directory (os error 2)"
  | .notDirectory => "Not a directory (os error 20)"
  | .isDirectory => "Is a directory (os error 21)"
  | .nameTooLong => "File name too long (os error 36)"
  | .invalidText => "stream did not contain valid UTF-8"
  | .other message => message

/-- The text that bytes stand for, if they are a text. -/
def decodeText (bytes : List UInt8) : Except ReadError String :=
  match String.fromUTF8? ⟨bytes.toArray⟩ with
  | some text => .ok text
  | none => .error .invalidText

/-- Files by name. -/
abbrev Folder : Type :=
  Table (List UInt8)

/-- A folder that a path can lead through. -/
inductive Place where
  /-- The working folder. -/
  | here
  /-- A folder above the working folder. -/
  | above
  /-- The root. -/
  | root
  /-- The folder of devices. -/
  | devices
  /-- Another folder in the root. -/
  | system
deriving DecidableEq, Repr

/-- The folder that holds a folder. -/
def Place.up : Place → Place
  | .here | .above => .above
  | .root | .devices | .system => .root

/-- The folders that the root has on every system. -/
def rootFolders : List String :=
  ["bin", "boot", "etc", "home", "lib", "media", "mnt", "opt", "proc", "root", "run", "sbin", "srv",
   "sys", "tmp", "usr", "var"]

/-- What a name in a folder stands for. -/
inductive Entry where
  /-- A file. -/
  | file (bytes : List UInt8)
  /-- A folder. -/
  | folder (place : Place)
deriving DecidableEq, Repr

/-- What can be reached: the files of the working folder and the input of the program. -/
structure Surroundings where
  /-- The files of the working folder. -/
  files : Folder := .empty
  /-- What can be read from the input. -/
  input : List UInt8 := []

/-- What a name in a folder stands for, if anything. -/
def Surroundings.entry? (w : Surroundings) (place : Place) (name : String) : Option Entry :=
  match place with
  | .here => (w.files.find? name).map .file
  | .root =>
    if name = "dev" then some (.folder .devices)
    else if rootFolders.contains name then some (.folder .system)
    else none
  | .devices =>
    if name = "null" then some (.file [])
    else if name = "stdin" then some (.file w.input)
    else none
  | .above | .system => none

/-- The most bytes that a step of a path may have. -/
def longestName : Nat := 255

/-- The most bytes that a path may have. -/
def longestPath : Nat := 4095

/-- Walks the steps of a path from a folder. -/
def walk (w : Surroundings) (place : Place) : List String → Except ReadError (List UInt8)
  | [] => .error .isDirectory
  | name :: rest =>
    if name = "" ∨ name = "." then walk w place rest
    else if name = ".." then walk w place.up rest
    else if longestName < name.utf8ByteSize then .error .nameTooLong
    else
      match w.entry? place name with
      | none => .error .notFound
      | some (.folder place) => walk w place rest
      | some (.file bytes) => if rest.isEmpty then .ok bytes else .error .notDirectory

/-- What a path leads to. A path that begins with a slash starts at the root. -/
def Surroundings.read (w : Surroundings) (path : String) : Except ReadError (List UInt8) :=
  if path.isEmpty then .error .notFound
  else if longestPath < path.utf8ByteSize then .error .nameTooLong
  else
    match path.splitOn "/" with
    | "" :: steps => walk w .root steps
    | steps => walk w .here steps

end CommandScript.Shell
