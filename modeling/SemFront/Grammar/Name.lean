/-
Rules for names and IRIs.
-/
import SemFront.Grammar.Rule
import SemFront.Tree.Name

namespace SemFront

/-- The identifier that a token is. -/
def Token.ident (t : Token) : Ident := { name := t.literal, span := t.span }

namespace Rule

/-- The current token as an identifier. -/
def currentIdent : Rule Ident := do
  let t ← current
  return t.ident

/-- One more segment behind a dot; `segment` moves on to it. -/
def segmentRound (segment : Rule Unit) (segments : Array Ident) : Rule (Round (Array Ident)) := do
  let t ← peek
  if t.kind = .punct .dot then
    advance
    segment
    let i ← currentIdent
    return .again (segments.push i)
  else return .stop segments

/-- A dotted name, `a.b.c`. -/
def dottedName : Rule Name := do
  let first ← current
  if first.kind ≠ .ident then refuse (.token .ident) first else
  let parts ← loop (segmentRound (expect .ident)) #[first.ident]
  let last ← current
  return { parts := parts.toList, span := first.span.through last.span }

/-! ## IRIs -/

/-- The segments of a host, `a.b.c`. -/
def iriDomain : Rule (List Ident) := do
  expectWord .domainSegment
  let first ← currentIdent
  let domain ← loop (segmentRound (expectWord .domainSegment)) #[first]
  return domain.toList

/-- One more segment of a path behind a slash, or a last slash. -/
def pathRound (path : Array Ident × Bool) : Rule (Round (Array Ident × Bool)) := do
  let t ← peek
  if t.kind = .punct .slash then
    advance
    let t ← peek
    if t.kind.isWord then
      advance
      let segment ← currentIdent
      return .again (path.1.push segment, path.2)
    else return .stop (path.1, true)
  else return .stop path

/-- The segments of a path, `/p/q/`, and whether it ends in a slash. -/
def iriPath : Rule (List Ident × Bool) := do
  let path ← loop pathRound (#[], false)
  return (path.1.toList, path.2)

/-- The fragment of an IRI, if it has one; it may be empty. -/
def iriFragment : Rule (Option Ident) := do
  let t ← peek
  if t.kind = .punct .hash then
    advance
    let t ← peek
    if t.kind.isWord then
      advance
      let fragment ← currentIdent
      return some fragment
    else
      let hash ← current
      let span := { hash.span with start := hash.span.stop, column := hash.span.column + 1 }
      return some { name := "", span }
  else return none

/-- What follows `scheme:` in an IRI with a host. -/
def absoluteIri (first : Token) : Rule AbsoluteIri := do
  advance
  advance
  let domain ← iriDomain
  let (path, trailingSlash) ← iriPath
  let fragment ← iriFragment
  let last ← current
  return { scheme := some first.ident, domain, path, trailingSlash, fragment,
           span := first.span.through last.span }

/-- The fragment of a qualified name, which ends it. -/
def qName (first : Token) (scope : Option Ident) : Rule QName := do
  expectWord .iriFragment
  let last ← current
  return { scope, fragment := some last.ident, span := first.span.through last.span }

/-- Whether `//` follows the colon of a scheme. -/
def opensHost : Rule Bool := do
  let slash ← peek
  if slash.kind ≠ .punct .slash then return false else
  let second ← ahead 1
  return second.kind = .punct .slash

/-- A qualified name or an absolute IRI. -/
def iri : Rule Iri := do
  let first ← current
  if first.kind = .punct .colon then
    let q ← qName first none
    return .qualified q
  else if first.kind.isWord then
    expect (.punct .colon)
    let host ← opensHost
    if host then
      let a ← absoluteIri first
      return .absolute a
    else
      let q ← qName first (some first.ident)
      return .qualified q
  else refuse .iri first

end Rule
end SemFront
