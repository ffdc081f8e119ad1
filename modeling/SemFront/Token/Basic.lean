/-
Tokens: a kind, the exact text, and where it stands.
-/
import SemFront.Source.Span
import SemFront.Token.Kind

namespace SemFront

structure Token where
  kind : Kind
  raw : String
  span : Span
deriving DecidableEq, Repr, Inhabited

namespace Token

/-- The text of a token without the quotes of a string. -/
def literal (t : Token) : String :=
  if t.kind = .string then String.ofList t.raw.toList.tail.dropLast else t.raw

/-- A text between backticks. -/
def ticked (text : String) : String := "`" ++ text ++ "`"

/-- How messages speak of a token with the given kind name and text. -/
def describeAs (kindName raw : String) : String :=
  if kindName = Kind.eof.name then "end of input"
  else if kindName = Kind.string.name then "string " ++ raw
  else if raw = "" && kindName ∉ [Kind.ident.name, Kind.int.name, Kind.float.name] then ticked kindName
  else ticked raw

/-- How messages speak of a token. -/
def describe (t : Token) : String := describeAs t.kind.name t.raw

end Token
end SemFront
