/-
Paths: names between slashes, and the shortest path that means the same without looking at any
file.
-/
namespace SemFront.Path

/-- The names of a path, the empty ones included. -/
def names (p : String) : List String := (p.toList.splitOn '/').map String.ofList

/-- Whether a path starts at the root. -/
def isRooted (p : String) : Bool := p.toList.head? = some '/'

/-- One more name behind names that are kept last first. A name is taken back by a step up; steps
up at the start stay, or are lost at the root. -/
def push (rooted : Bool) (done : List String) (name : String) : List String :=
  if name = "" || name = "." then done
  else if name = ".." then
    match done with
    | [] => if rooted then [] else [".."]
    | last :: before => if last = ".." then ".." :: done else before
  else name :: done

/-- The names that are left in the shortest path. -/
def shortest (p : String) : List String := ((names p).foldl (push (isRooted p)) []).reverse

/-- The path with the given names. -/
def ofNames (rooted : Bool) (ns : List String) : String :=
  if rooted then "/" ++ String.intercalate "/" ns else if ns = [] then "." else String.intercalate "/" ns

/-- The shortest path that means the same. -/
def clean (p : String) : String := ofNames (isRooted p) (shortest p)

/-- A name below a path. -/
def join (p name : String) : String := clean (p ++ "/" ++ name)

/-- The directory of a path. -/
def parent (p : String) : String := ofNames (isRooted p) (shortest p).dropLast

end SemFront.Path
