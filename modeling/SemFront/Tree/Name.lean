/-
Names: identifiers, dotted names, and IRIs, of which only the written form is kept.
-/
import SemFront.Source.Span

namespace SemFront

/-- An identifier. -/
structure Ident where
  name : String := ""
  span : Span := {}
deriving DecidableEq, Repr, Inhabited

/-- What stands in the text for a part that is missing or could not be read. -/
def hole : String := "<bad>"

/-- The text of an identifier that may be missing. -/
def Ident.text? : Option Ident → String
  | some i => i.name
  | none => hole

/-- A chain of identifiers such as `p.x`. -/
structure Name where
  parts : List Ident := []
  span : Span := {}
deriving DecidableEq, Repr, Inhabited

namespace Name

/-- The parts with dots between them. -/
def text (n : Name) : String := String.intercalate "." (n.parts.map (·.name))

/-- The text of a name that may be missing. -/
def text? : Option Name → String
  | some n => n.text
  | none => hole

end Name

/-- A qualified name `scope:fragment` or `:fragment`. -/
structure QName where
  scope : Option Ident := none
  fragment : Option Ident := none
  span : Span := {}
deriving DecidableEq, Repr, Inhabited

/-- A qualified name with its colon. -/
def QName.text (q : QName) : String :=
  (match q.scope with | some i => i.name | none => "") ++ ":" ++ Ident.text? q.fragment

/-- An IRI with a scheme and a host, `scheme://a.b/p/q/#fragment`. A `#` with nothing after it
is an empty fragment. -/
structure AbsoluteIri where
  scheme : Option Ident := none
  domain : List Ident := []
  path : List Ident := []
  trailingSlash : Bool := false
  fragment : Option Ident := none
  span : Span := {}
deriving DecidableEq, Repr, Inhabited

namespace AbsoluteIri

def hasFragment (a : AbsoluteIri) : Bool := a.fragment.isSome

def text (a : AbsoluteIri) : String :=
  Ident.text? a.scheme ++ "://" ++ String.intercalate "." (a.domain.map (·.name)) ++
    String.join (a.path.map fun i => "/" ++ i.name) ++
    (if a.trailingSlash then "/" else "") ++
    (match a.fragment with | some i => "#" ++ i.name | none => "")

end AbsoluteIri

/-- A qualified name or an IRI with a scheme. -/
inductive Iri where
  | qualified (q : QName)
  | absolute (a : AbsoluteIri)
deriving DecidableEq, Repr

namespace Iri

def span : Iri → Span
  | .qualified q => q.span
  | .absolute a => a.span

def text : Iri → String
  | .qualified q => q.text
  | .absolute a => a.text

end Iri
end SemFront
