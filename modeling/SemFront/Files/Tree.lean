/-
File trees: files with their texts below directories, and where a path leads in one.
-/
import SemFront.Files.Path

namespace SemFront

/-- A file or a directory. The entries of a directory are in the order of their names. -/
inductive FileTree where
  | file (content : String)
  | directory (entries : List (String × FileTree))

/-- Why a path leads nowhere, or not to what was asked for. -/
inductive FileFault where
  | missing
  | notDirectory
  | isDirectory
  | invalidName
  | other (message : String)
deriving DecidableEq, Repr

def FileFault.message : FileFault → String
  | .missing => "no such file or directory"
  | .notDirectory => "not a directory"
  | .isDirectory => "is a directory"
  | .invalidName => "invalid argument"
  | .other m => m

/-- A place in a tree: what is there, and the directories above it, the closest first. -/
structure Location where
  tree : FileTree
  above : List FileTree := []

/-- The place one name further on. A step up from the top leads nowhere. -/
def Location.step (l : Location) (name : String) : Except FileFault Location :=
  match l.tree with
  | .file _ => .error .notDirectory
  | .directory entries =>
    if name = "" || name = "." then .ok l
    else if name = ".." then
      match l.above with
      | [] => .error .missing
      | t :: ts => .ok { tree := t, above := ts }
    else
      match entries.lookup name with
      | some t => .ok { tree := t, above := l.tree :: l.above }
      | none => .error .missing

namespace FileTree

/-- A directory without entries. -/
def empty : FileTree := .directory []

def entries : FileTree → List (String × FileTree)
  | .file _ => []
  | .directory es => es

def isDirectory : FileTree → Bool
  | .file _ => false
  | .directory _ => true

/-- What is at a path below the top of the tree. -/
def find (t : FileTree) (path : String) : Except FileFault FileTree :=
  if path.toList.contains '\x00' then .error .invalidName
  else if path = "" || Path.isRooted path then .error .missing
  else ((Path.names path).foldlM Location.step { tree := t }).map (·.tree)

/-! ## Changes -/

/-- An entry among others; it takes the place of one with the same name. -/
def putEntry (name : String) (t : FileTree) : List (String × FileTree) → List (String × FileTree)
  | [] => [(name, t)]
  | (other, s) :: es =>
    if name = other then (name, t) :: es
    else if name < other then (name, t) :: (other, s) :: es
    else (other, s) :: putEntry name t es

/-- A tree below some names; directories on the way are made. -/
def putAt (leaf : FileTree) : List String → FileTree → FileTree
  | [], _ => leaf
  | n :: ns, t =>
    .directory (putEntry n (putAt leaf ns ((t.entries.lookup n).getD empty)) t.entries)

/-- The tree with a file. -/
def write (t : FileTree) (path content : String) : FileTree :=
  putAt (.file content) (Path.shortest path) t

/-- The tree with a file whose directory is there already; a directory does not become a file. -/
def writeFile (t : FileTree) (path content : String) : Except FileFault FileTree :=
  if path.toList.contains '\x00' then .error .invalidName
  else if path = "" || Path.isRooted path then .error .missing
  else do
    let place ← (Path.names path).dropLast.foldlM Location.step { tree := t }
    let name := (Path.names path).getLastD ""
    match place.tree with
    | .file _ => .error .notDirectory
    | .directory entries =>
      if name = "" || name = "." || name = ".." then .error .isDirectory
      else
        match entries.lookup name with
        | some (.directory _) => .error .isDirectory
        | _ => .ok (t.write path content)

/-- The tree with a directory; what is already there stays. -/
def makeDirectory (t : FileTree) (path : String) : FileTree :=
  match t.find path with
  | .ok _ => t
  | .error _ => putAt empty (Path.shortest path) t

/-- The tree without what is below some names. -/
def removeAt : List String → FileTree → FileTree
  | [], t => t
  | [n], t => .directory (t.entries.filter (·.1 ≠ n))
  | n :: ns, t =>
    match t.entries.lookup n with
    | some s => .directory (putEntry n (removeAt ns s) t.entries)
    | none => t

/-- The tree without what is at a path. -/
def remove (t : FileTree) (path : String) : FileTree :=
  if t.isDirectory then removeAt (Path.shortest path) t else t

/-! ## Files -/

mutual

/-- The files of a tree at a path, each with its path and its own name; a directory's files stand
where its name stands. -/
def files (path name : String) : FileTree → List (String × String)
  | .file _ => [(path, name)]
  | .directory es => filesOfEntries path es

def filesOfEntries (path : String) : List (String × FileTree) → List (String × String)
  | [] => []
  | (name, t) :: es => files (Path.join path name) name t ++ filesOfEntries path es

end
end FileTree
end SemFront
