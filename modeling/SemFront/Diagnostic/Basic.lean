/-
Diagnostics: what is shown to a user about a source, with labelled parts of it, notes and help.
-/
import SemFront.Data.StableSort
import SemFront.Source.Span

namespace SemFront

/-- The phase that found something. -/
inductive Stage where
  | lexer
  | parser
  | other (name : String)
deriving DecidableEq, Repr

namespace Stage

def name : Stage → String
  | .lexer => "lexer"
  | .parser => "parser"
  | .other s => s

def ofName (s : String) : Stage :=
  if s = "lexer" then .lexer else if s = "parser" then .parser else .other s

end Stage

/-- How grave a diagnostic is. -/
inductive Severity where
  | error
  | warning
  | note
  | other (name : String)
deriving DecidableEq, Repr

namespace Severity

def name : Severity → String
  | .error => "error"
  | .warning => "warning"
  | .note => "note"
  | .other s => s

def ofName (s : String) : Severity :=
  if s = "error" then .error
  else if s = "warning" then .warning
  else if s = "note" then .note
  else .other s

end Severity

/-- How a labelled part is underlined. -/
inductive Style where
  | primary
  | secondary
  | other (name : String)
deriving DecidableEq, Repr

namespace Style

def name : Style → String
  | .primary => "primary"
  | .secondary => "secondary"
  | .other s => s

def ofName (s : String) : Style :=
  if s = "primary" then .primary else if s = "secondary" then .secondary else .other s

/-- The style with the given name, or the primary one without a name. -/
def ofNameOrPrimary (s : String) : Style := if s = "" then .primary else ofName s

end Style

/-- A part of the source with a text of its own. -/
structure Label where
  span : Span
  text : String := ""
  style : Style := .primary
deriving DecidableEq, Repr

/-- A message about a source. Empty texts and lists are parts that it does not have. -/
structure Diagnostic where
  stage : Stage
  severity : Severity
  code : String := ""
  message : String
  span : Span
  expected : String := ""
  found : String := ""
  labels : List Label := []
  notes : List String := []
  help : String := ""
deriving DecidableEq, Repr

namespace Diagnostic

/-- The diagnostic in one line: place, severity, message. -/
def summary (d : Diagnostic) : String :=
  d.span.place ++ ": " ++ d.severity.name ++ ": " ++ d.message

def withLabel (d : Diagnostic) (l : Label) : Diagnostic := { d with labels := d.labels ++ [l] }

def withNote (d : Diagnostic) (note : String) : Diagnostic := { d with notes := d.notes ++ [note] }

def withHelp (d : Diagnostic) (help : String) : Diagnostic := { d with help }

/-- Whether one diagnostic comes before another: by file name, then by offset. -/
def precedes (a b : Diagnostic) : Bool :=
  if a.span.file = b.span.file then a.span.start < b.span.start else a.span.file < b.span.file

/-- The diagnostics in the order of their places. -/
def sortByPlace (ds : List Diagnostic) : List Diagnostic := stableSort precedes ds

/-- Whether some diagnostic is an error. -/
def anyError (ds : List Diagnostic) : Bool := ds.any (·.severity = .error)

end Diagnostic
end SemFront
