/-
Reading files: what a disk holds at each path, and the errors of looking.
-/
import SemFront.Files.Tree

namespace SemFront

/-- What was tried on a path. -/
inductive FileAction where
  | opening
  | reading
  | stating
deriving DecidableEq, Repr

def FileAction.name : FileAction → String
  | .opening => "open"
  | .reading => "read"
  | .stating => "stat"

/-- Something that did not work on a path. -/
structure FileError where
  action : FileAction
  path : String
  fault : FileFault
deriving DecidableEq, Repr

def FileError.message (e : FileError) : String :=
  e.action.name ++ " " ++ e.path ++ ": " ++ e.fault.message

/-- What there is at each path. -/
structure Disk where
  find : String → Except FileFault FileTree

namespace Disk

/-- The text of a file. -/
def read (d : Disk) (path : String) : Except FileError String :=
  match d.find path with
  | .error fault => .error { action := .opening, path, fault }
  | .ok (.file content) => .ok content
  | .ok (.directory _) => .error { action := .reading, path, fault := .isDirectory }

/-- The file or directory at a path. -/
def stat (d : Disk) (path : String) : Except FileError FileTree :=
  match d.find path with
  | .error fault => .error { action := .stating, path, fault }
  | .ok t => .ok t

/-- What remains of some names behind others. -/
def namesBelow : List String → List String → Option (List String)
  | [], ns => some ns
  | a :: as, b :: bs => if a = b then namesBelow as bs else none
  | _ :: _, [] => none

/-- The disk that is known from what was found at some paths: these, and all below them. -/
def ofFound (found : List (String × Except FileFault FileTree)) : Disk where
  find path :=
    match found.lookup path with
    | some r => r
    | none =>
      let below := found.findSome? fun (top, r) =>
        if Path.isRooted top ≠ Path.isRooted path then none
        else
          match namesBelow (Path.shortest top) (Path.shortest path), r with
          | some ns, .ok t =>
            some ((ns.foldlM Location.step { tree := t }).map (·.tree))
          | _, _ => none
      below.getD (.error .missing)

end Disk

/-- The disk that holds one tree. -/
def FileTree.disk (t : FileTree) : Disk := { find := t.find }

end SemFront
