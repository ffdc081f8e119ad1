/-
Changes of a file tree.
-/
import SemFront.Files.Tree

namespace SemFront

/-- A change at a path: a new file that takes the place of what was there, a new directory, or
nothing any more. -/
inductive FileChange where
  | replace (path content : String)
  | makeDirectory (path : String)
  | remove (path : String)
deriving DecidableEq, Repr

namespace FileChange

def path : FileChange → String
  | .replace p _ => p
  | .makeDirectory p => p
  | .remove p => p

/-- Whether something new appears. A file does not replace a directory, and a directory is not made
where something is. -/
def appears (t : FileTree) : FileChange → Bool
  | .replace p _ =>
    match t.find p with
    | .ok (.directory _) => false
    | _ => true
  | .makeDirectory p =>
    match t.find p with
    | .ok _ => false
    | .error _ => true
  | .remove _ => false

/-- The tree after a change. -/
def apply (t : FileTree) (c : FileChange) : FileTree :=
  match c with
  | .replace p content => if c.appears t then t.write p content else t
  | .makeDirectory p => t.makeDirectory p
  | .remove p => t.remove p

end FileChange
end SemFront
