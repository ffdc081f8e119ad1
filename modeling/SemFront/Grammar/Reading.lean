/-
Reading a whole source: as a program, as one expression, or as one IRI.
-/
import SemFront.Grammar.Decl

namespace SemFront

/-- What was read from a source: the value, and the reader at the end. -/
structure Reading (α : Type) where
  value : α
  reader : Reader

namespace Reading

/-- The lexical errors among the tokens that were looked at. -/
def lexical (r : Reading α) : List LexicalError := (lexicalErrors r.reader.tokens).take r.reader.faults

/-- The problems kept, in the order of their discovery. -/
def problems (r : Reading α) : List Problem := r.reader.log.kept.reverse

def errors (r : Reading α) : List GrammarError := r.problems.map Problem.error

/-- All errors in the order of their places; of those at one place lexical errors come first. -/
def diagnostics (r : Reading α) : List Diagnostic :=
  Diagnostic.sortByPlace
    (r.lexical.map LexicalError.toDiagnostic ++ r.errors.map GrammarError.toDiagnostic)

/-- Whether an unterminated string has swallowed the rest of the source. -/
def isFatal (r : Reading α) : Bool := r.lexical.any (·.fault = .unterminatedString)

def recoveries (r : Reading α) : List Recovery := r.reader.recoveries.toList

end Reading

namespace Rule

/-- Reports a token that follows where the input should end. -/
def expectEnd : Rule Unit := do
  let t ← peek
  if t.kind ≠ .eof then report (.unexpected .endOfInput t)

/-- An expression that is all the input, or a placeholder. -/
def wholeExpr : Rule Expr := do
  let start ← current
  match ← attempt expr with
  | some e =>
    expectEnd
    return e
  | none =>
    let t ← current
    return .bad (start.span.through t.span)

/-- An IRI that is all the input, or nothing. -/
def wholeIri : Rule (Option Iri) := do
  match ← attempt iri with
  | some i =>
    expectEnd
    return some i
  | none => return none

/-- Reads a source by a rule, with a value for a rule that fails and a limit on errors. -/
def readSource (rule : Rule α) (default : α) (file source : String) (limit : Nat := 0) : Reading α :=
  match rule (.ofTokens (tokenize file source) limit) with
  | .ok value reader => { value, reader }
  | .fail reader => { value := default, reader }

end Rule

/-- Reads a source as a program, with a limit on errors; 0 is no limit. -/
def readProgram (file source : String) (limit : Nat := 0) : Reading Program :=
  Rule.program.readSource {} file source limit

/-- Reads a source as one expression. -/
def readExpr (file source : String) (limit : Nat := 0) : Reading Expr :=
  Rule.wholeExpr.readSource .absent file source limit

/-- Reads a source as one IRI. -/
def readIri (file source : String) (limit : Nat := 0) : Reading (Option Iri) :=
  Rule.wholeIri.readSource none file source limit

end SemFront
