/-
A parsed source: its text, the program read from it, and all that is to be said about it.
-/
import SemFront.Files.Disk
import SemFront.Grammar.Reading
import SemFront.Log.Event
import SemFront.Parsed.Crew

namespace SemFront

/-- How sources are parsed: the most errors told of one source, where 0 is no limit, whether texts
are put into a canonical form first, and which form that is. -/
structure ParseOptions where
  limit : Nat := 0
  normalize : Bool := false
  canonical : String → String := id

/-- A source and what was read from it. -/
structure Parsed where
  path : String
  text : String
  program : Program
  diagnostics : List Diagnostic
  isFatal : Bool
  recoveries : List Recovery

namespace Parsed

/-- The text that is read for a source. -/
def textRead (o : ParseOptions) (text : String) : String :=
  if o.normalize then o.canonical text else text

/-- Parses a text that belongs to a path. -/
def ofText (o : ParseOptions) (path text : String) : Parsed :=
  let text := textRead o text
  let reading := readProgram path text o.limit
  { path, text, program := reading.value, diagnostics := reading.diagnostics,
    isFatal := reading.isFatal, recoveries := reading.recoveries }

/-- Parses a file. -/
def ofFile (o : ParseOptions) (d : Disk) (path : String) : Except FileError Parsed :=
  (d.read path).map (ofText o path)

/-- Parses some files, in order; the first that cannot be read ends it. -/
def ofFiles (o : ParseOptions) (d : Disk) (paths : List String) : Except FileError (List Parsed) :=
  paths.mapM (ofFile o d)

/-- Parses some files with a crew of so many workers. -/
def ofFilesBy (workers : Nat) (o : ParseOptions) (d : Disk) (paths : List String) :
    Except (TaskError FileError) (List Parsed) :=
  Crew.workInOrder workers (ofFile o d) paths

/-- Why a file could not be parsed. -/
def failure (e : FileError) : String := "read " ++ e.path ++ ": " ++ e.message

/-- Why a crew could not parse some files. -/
def crewFailure : TaskError FileError → String
  | .calledOff => "context canceled"
  | .own e => failure e

def hasErrors (p : Parsed) : Bool := Diagnostic.anyError p.diagnostics

def anyErrors (ps : List Parsed) : Bool := ps.any hasErrors

/-- The number of all diagnostics. -/
def countDiagnostics (ps : List Parsed) : Nat :=
  ps.foldl (fun n p => n + p.diagnostics.length) 0

/-- What the log tells about parsing. -/
def events (p : Parsed) : List Event :=
  p.recoveries.map .recovered ++ [.parsed p.path p.diagnostics.length p.isFatal]

end Parsed
end SemFront
