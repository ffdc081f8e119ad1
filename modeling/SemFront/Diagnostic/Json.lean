/-
Diagnostics as JSON. Texts and lists that are empty are left out, a label's style and the numbers
of a span are not.
-/
import SemFront.Diagnostic.Basic
import SemFront.Json.Basic

namespace SemFront

/-- A member that is left out when it is empty. -/
def JsonValue.textUnlessEmpty (key s : String) : List (String × JsonValue) :=
  if s = "" then [] else [(key, .text s)]

def Span.toJson (s : Span) : JsonValue :=
  .record (JsonValue.textUnlessEmpty "filename" s.file ++
    [("line", .number s.line), ("column", .number s.column), ("start", .number s.start),
     ("end", .number s.stop)])

def Label.toJson (l : Label) : JsonValue :=
  .record ([("span", l.span.toJson)] ++ JsonValue.textUnlessEmpty "label" l.text ++
    [("style", .text l.style.name)])

namespace Diagnostic

def toJson (d : Diagnostic) : JsonValue :=
  .record ([("stage", .text d.stage.name), ("severity", .text d.severity.name)] ++
    JsonValue.textUnlessEmpty "code" d.code ++
    [("message", .text d.message), ("span", d.span.toJson)] ++
    JsonValue.textUnlessEmpty "expected" d.expected ++
    JsonValue.textUnlessEmpty "found" d.found ++
    (if d.labels = [] then [] else [("labels", .list (d.labels.map Label.toJson))]) ++
    (if d.notes = [] then [] else [("notes", .list (d.notes.map .text))]) ++
    JsonValue.textUnlessEmpty "help" d.help)

/-- A list of diagnostics as JSON text with a line feed at the end. -/
def jsonText (ds : List Diagnostic) : String :=
  (JsonValue.list (ds.map toJson)).render 0 ++ "\n"

end Diagnostic
end SemFront
