/-
The log: what is worth telling about a run, how important it is, and its fields.
-/
import SemFront.Grammar.Reader
import SemFront.Json.Basic

namespace SemFront

/-- Something that happened. -/
inductive Event where
  | recovered (r : Recovery)
  | parsed (path : String) (diagnostics : Nat) (fatal : Bool)
  | checked (files diagnostics : Nat)
  | watching (files : Nat)
  | changed (path : String)
  | faultless (path : String)
  | watchFailed (message : String)

namespace Event

/-- How important an event is; larger is more important. -/
def level : Event → Int
  | .recovered _ | .parsed .. => 0
  | .checked .. | .watching _ | .changed _ | .faultless _ => 1
  | .watchFailed _ => 2

def levelName (e : Event) : String :=
  if e.level ≤ 0 then "debug" else if e.level = 1 then "info" else "warn"

def message : Event → String
  | .recovered _ => "parser recovered"
  | .parsed .. => "parsed"
  | .checked .. => "check complete"
  | .watching _ => "watching for changes"
  | .changed _ => "source changed"
  | .faultless _ => "no errors"
  | .watchFailed _ => "watch error"

def fields : Event → List (String × JsonValue)
  | .recovered r =>
    [("unit", .text r.unit.name), ("skipped", .number r.skipped),
     ("sync", .text r.resumed.kind.name), ("at", .text r.resumed.span.place)]
  | .parsed path diagnostics fatal =>
    [("path", .text path), ("diagnostics", .number diagnostics), ("fatal", .bool fatal)]
  | .checked files diagnostics =>
    [("files", .number files), ("diagnostics", .number diagnostics)]
  | .watching files => [("files", .number files)]
  | .changed path => [("path", .text path), ("op", .text "CREATE")]
  | .faultless path => [("path", .text path)]
  | .watchFailed message => [("error", .text message)]

def toJson (e : Event) : JsonValue :=
  .record ([("level", .text e.levelName)] ++ e.fields ++ [("message", .text e.message)])

/-- The event in a line to read. -/
def line (e : Event) : String :=
  e.levelName ++ " " ++ e.message ++
    String.join (e.fields.map fun (key, v) => " " ++ key ++ "=" ++ v.compact)

/-- The events that are important enough. -/
def atLeast (threshold : Int) (es : List Event) : List Event :=
  es.filter fun e => threshold ≤ e.level

end Event
end SemFront
