/-
The sources from which diagnostics are shown. A source is given as a text, or read from its file
when it is first needed and kept.
-/
import SemFront.Diagnostic.Show
import SemFront.Files.Disk

namespace SemFront

/-- The sources at hand, by file name. -/
structure Sources where
  known : List (String × String) := []

/-- Why a source is not at hand. -/
inductive SourceError where
  | anonymous
  | file (e : FileError)
deriving DecidableEq, Repr

def SourceError.message : SourceError → String
  | .anonymous => "no source registered for anonymous input"
  | .file e => e.message

namespace Sources

/-- A source under a file name; it takes the place of one that was there. -/
def add (s : Sources) (file text : String) : Sources := { known := (file, text) :: s.known }

/-- The source of a file. -/
def load (s : Sources) (d : Disk) (file : String) : Except SourceError String :=
  match s.known.lookup file with
  | some text => .ok text
  | none =>
    if file = "" then .error .anonymous
    else
      match d.read file with
      | .ok text => .ok text
      | .error e => .error (.file e)

/-- The sources with that of a file, if it can be had. -/
def keep (s : Sources) (d : Disk) (file : String) : Sources :=
  match s.known.lookup file, s.load d file with
  | none, .ok text => s.add file text
  | _, _ => s

/-- A diagnostic as text. -/
def display (s : Sources) (d : Disk) (x : Diagnostic) : String :=
  x.display (s.load d x.span.file).toOption

/-- The sources after a diagnostic was shown; only one with something to mark needs its source. -/
def afterDisplay (s : Sources) (d : Disk) (x : Diagnostic) : Sources :=
  if x.marked = [] then s else s.keep d x.span.file

/-- The diagnostic after it was shown: its labels are in order if its source was at hand. -/
def ordered (s : Sources) (d : Disk) (x : Diagnostic) : Diagnostic :=
  match s.load d x.span.file with
  | .ok _ => { x with labels := Diagnostic.sortLabels x.labels }
  | .error _ => x

/-- Diagnostics as text, one after the other. -/
def displayAll (s : Sources) (d : Disk) : List Diagnostic → String
  | [] => ""
  | x :: xs => s.display d x ++ (s.afterDisplay d x).displayAll d xs

end Sources
end SemFront
