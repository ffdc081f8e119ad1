/-
Showing the diagnostics of sources, as text with the sources or as one JSON list.
-/
import SemFront.Diagnostic.Json
import SemFront.Diagnostic.Sources
import SemFront.Parsed.Basic

namespace SemFront

namespace Sources

/-- Sources by their paths. -/
def ofList (texts : List (String × String)) : Sources :=
  texts.foldl (fun s (path, text) => s.add path text) {}

end Sources

namespace Parsed

/-- All diagnostics as text. -/
def displayAll (d : Disk) (ps : List Parsed) : String :=
  (Sources.ofList (ps.map fun p => (p.path, p.text))).displayAll d (ps.flatMap (·.diagnostics))

/-- All diagnostics as one JSON list. -/
def jsonText (ps : List Parsed) : String := Diagnostic.jsonText (ps.flatMap (·.diagnostics))

end Parsed
end SemFront
