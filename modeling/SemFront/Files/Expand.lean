/-
The source files that some paths stand for: a file stands for itself, a directory for all files
below it whose names are asked for.
-/
import SemFront.Files.Disk
import SemFront.Files.Pattern

namespace SemFront

/-- Which names are asked for: those that match an included pattern and no excluded one. -/
structure NameFilter where
  included : List String
  excluded : List String
deriving DecidableEq, Repr

/-- Why the files could not be listed. -/
inductive ExpandError where
  | file (e : FileError)
  | malformedPattern
deriving DecidableEq, Repr

def ExpandError.message : ExpandError → String
  | .file e => e.message
  | .malformedPattern => "syntax error in pattern"

namespace NameFilter

/-- Whether some pattern matches; the patterns behind the first that does are not looked at. -/
def anyMatch (name : String) : List String → Except ExpandError Bool
  | [] => .ok false
  | p :: ps =>
    match Pattern.ofString? p with
    | none => .error .malformedPattern
    | some pattern => if pattern.accepts name then .ok true else anyMatch name ps

/-- Whether a name is asked for. -/
def accepts (f : NameFilter) (name : String) : Except ExpandError Bool := do
  if ← anyMatch name f.excluded then .ok false else anyMatch name f.included

/-- The paths of those files whose names are asked for. -/
def select (f : NameFilter) : List (String × String) → Except ExpandError (List String)
  | [] => .ok []
  | (path, name) :: files => do
    let accepted ← f.accepts name
    let paths ← f.select files
    .ok (if accepted then path :: paths else paths)

end NameFilter

/-- The files that one path stands for. -/
def Disk.sourcesAt (d : Disk) (f : NameFilter) (path : String) :
    Except ExpandError (List String) :=
  match d.stat path with
  | .error e => .error (.file e)
  | .ok (.file _) => .ok [Path.clean path]
  | .ok (.directory es) => f.select (FileTree.filesOfEntries path es)

/-- The files that some paths stand for, each once, where it comes first. -/
def Disk.expand (d : Disk) (f : NameFilter) (paths : List String) :
    Except ExpandError (List String) := do
  let found ← paths.mapM (d.sourcesAt f)
  .ok found.flatten.eraseDups

end SemFront
