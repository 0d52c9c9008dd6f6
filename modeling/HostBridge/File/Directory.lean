import HostBridge.File
import HostBridge.Record

/-!
# Paths in a working directory

A working directory is a record of files by their paths. A path is followed one name at a time:
`.` and empty names stay where they are, `..` goes up, and any other name has to be a file or a
directory on the way to one. What fails first decides: nothing lies below a file, a name may have
255 bytes at most, and a whole path 4095.

What lies above the working directory is not known. It has no files there that can be named.
-/

namespace HostBridge

/-- Files by their paths in a working directory. -/
abbrev Directory (α : Type) := Record α

namespace Directory

/-- The most bytes of a name. -/
def maxName : Nat := 255

/-- The most bytes of a path. -/
def maxPath : Nat := 4095

/-- The names in a path. -/
def names (path : String) : List String := path.splitOn "/"

/-- A place on the way along a path. -/
inductive Place (α : Type) where
  /-- The directory with these names, innermost last. -/
  | inside (names : List String)
  /-- This many levels above the working directory. -/
  | above (levels : Nat)
  | file (content : α)

variable {α : Type}

/-- The place with these names, if there is one. -/
def place? (d : Directory α) (here : List String) : Option (Place α) :=
  match d.find? fun f => names f.1 == here with
  | some f => some (.file f.2)
  | none => if d.any fun f => here.isPrefixOf (names f.1) then some (.inside here) else none

/-- Take one name of a path. -/
def advance (d : Directory α) (p : Place α) (name : String) : Except FileError (Place α) :=
  match p with
  | .file _ => .error .notDirectory
  | .inside here =>
    if name = "" ∨ name = "." then .ok p
    else if name = ".." then .ok (if here = [] then .above 1 else .inside here.dropLast)
    else if maxName < name.utf8ByteSize then .error .nameTooLong
    else
      match d.place? (here ++ [name]) with
      | some p => .ok p
      | none => .error .missing
  | .above levels =>
    if name = "" ∨ name = "." then .ok p
    else if name = ".." then .ok (.above (levels + 1))
    else if maxName < name.utf8ByteSize then .error .nameTooLong
    else .error .missing

/-- The file that a path leads to. -/
def read (d : Directory α) (path : String) : Except FileError α :=
  if maxPath < path.utf8ByteSize then .error .nameTooLong
  else
    let start : Place α := if path.toList.head? = some '/' then .above 0 else .inside []
    match (names path).foldlM d.advance start with
    | .error e => .error e
    | .ok (.file content) => .ok content
    | .ok _ => .error .directory

end Directory

end HostBridge
