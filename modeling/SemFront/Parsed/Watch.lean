/-
Watching sources: each time a watched file is replaced it is parsed again.
-/
import SemFront.Files.Change
import SemFront.Parsed.Basic

namespace SemFront

/-- The watched files, by their shortest paths. -/
structure Watcher where
  options : ParseOptions
  files : List String

namespace Watcher

/-- Starts to watch files; the directory of each has to be there. -/
def start (o : ParseOptions) (d : Disk) (paths : List String) : Except FileFault Watcher := do
  for path in paths do
    let _ ← d.find (Path.parent path)
  .ok { options := o, files := paths.map Path.clean }

/-- What comes of a new file or directory at a path: nothing unless the path is watched. -/
def react (w : Watcher) (d : Disk) (path : String) : Option (Except FileError Parsed) :=
  let path := Path.clean path
  if w.files.contains path then some (Parsed.ofFile w.options d path) else none

/-- What comes of a change of a file tree. -/
def reactTo (w : Watcher) (t : FileTree) (c : FileChange) : Option (Except FileError Parsed) :=
  if c.appears t then w.react (c.apply t).disk c.path else none

/-- What the log tells about a reaction. -/
def events (path : String) : Option (Except FileError Parsed) → List Event
  | none => []
  | some (.ok p) => .changed (Path.clean path) :: p.events
  | some (.error e) => [.changed (Path.clean path), .watchFailed (Parsed.failure e)]

end Watcher
end SemFront
