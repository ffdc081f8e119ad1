/-
Lexical errors: text that is no token.
-/
import SemFront.Diagnostic.Basic

namespace SemFront

/-- What can be wrong with a text that is no token. -/
inductive LexicalFault where
  | unterminatedString
  | illegalCharacter
  | unknown
deriving DecidableEq, Repr

/-- The stable name of a fault. -/
def LexicalFault.code : LexicalFault → String
  | .unterminatedString => "LEXER_UNTERMINATED_STRING"
  | .illegalCharacter => "LEXER_ILLEGAL_RUNE"
  | .unknown => "LEXER_UNKNOWN_ERROR"

structure LexicalError where
  fault : LexicalFault
  message : String
  span : Span
deriving DecidableEq, Repr

namespace LexicalError

/-- The error in one line. -/
def summary (e : LexicalError) : String := e.span.place ++ ": " ++ e.message

def toDiagnostic (e : LexicalError) : Diagnostic :=
  { stage := .lexer, severity := .error, code := e.fault.code, message := e.message, span := e.span }

end LexicalError
end SemFront
