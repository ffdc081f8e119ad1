/-
Grammar errors as they are shown: kind, code, message and what goes with them.
-/
import SemFront.Diagnostic.Basic

namespace SemFront

/-- Whether the order of tokens is wrong, or the shape of a construct whose tokens are in order. -/
inductive ErrorKind where
  | syntactic
  | structural
  | unknown
deriving DecidableEq, Repr

def ErrorKind.name : ErrorKind → String
  | .syntactic => "syntax"
  | .structural => "structural"
  | .unknown => "unknown"

/-- A grammar error. Empty texts and lists are parts that it does not have; without a severity it
is an error. `related` are other places that it is about. -/
structure GrammarError where
  kind : ErrorKind := .syntactic
  code : String
  message : String
  expected : String := ""
  found : String := ""
  span : Span
  severity : Severity := .error
  help : String := ""
  related : List (Span × String) := []
  notes : List String := []
deriving DecidableEq, Repr

namespace GrammarError

/-- The error in one line. -/
def summary (e : GrammarError) : String :=
  e.span.place ++ ": " ++ e.kind.name ++ " error: " ++ e.message

/-- The labels of an error: what was expected at its own place, then the related places. -/
def labels (e : GrammarError) : List Label :=
  let own := if e.expected ≠ "" then [{ span := e.span, text := "expected " ++ e.expected }]
    else if e.related ≠ [] then [{ span := e.span }]
    else []
  own ++ e.related.map fun r => { span := r.1, text := r.2, style := .secondary }

def toDiagnostic (e : GrammarError) : Diagnostic :=
  { stage := .parser
    severity := if e.severity = .other "" then .error else e.severity
    code := e.code, message := e.message, span := e.span, expected := e.expected, found := e.found
    labels := e.labels, notes := e.notes, help := e.help }

end GrammarError
end SemFront
