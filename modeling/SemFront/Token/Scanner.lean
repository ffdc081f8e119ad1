/-
Scanning: a text is cut into tokens from left to right, white space is skipped, and every text
that is no token is recorded as an error. The last token is the end of the input.
-/
import SemFront.Lexical.Error
import SemFront.Text.Blank
import SemFront.Text.Quoted
import SemFront.Token.Basic
import SemFront.Token.Munch

namespace SemFront

/-- The error that a token stands for, if it is no token of the language. -/
def Token.error? (t : Token) : Option LexicalError :=
  if t.kind ≠ .illegal then none
  else match t.raw.toList.head? with
    | some '"' | some '\'' =>
      some { fault := .unterminatedString, message := "unterminated string literal", span := t.span }
    | _ =>
      some { fault := .illegalCharacter, message := "illegal character " ++ Text.quoted t.raw,
             span := t.span }

/-- A text on its way to tokens: what is left of it, where that starts, and the errors so far. -/
structure Scanner where
  rest : List Char
  position : Position := {}
  file : String := ""
  errors : List LexicalError := []

namespace Scanner

def ofText (source : String) : Scanner := { rest := source.toList }

/-- Passes over the given number of characters. -/
def pass (s : Scanner) (n : Nat) : Scanner :=
  { s with rest := s.rest.drop n, position := s.position.after (s.rest.take n) }

/-- Passes over white space. -/
def skipBlanks (s : Scanner) : Scanner := s.pass (s.rest.takeWhile Text.isBlank).length

/-- The next `n` characters as a token. -/
def tokenOf (s : Scanner) (kind : Kind) (n : Nat) : Token :=
  { kind, raw := String.ofList (s.rest.take n),
    span := .between s.file s.position (s.position.after (s.rest.take n)) }

/-- The next token. At the end of the input it is the end, however often it is asked for. -/
def next (s : Scanner) : Token × Scanner :=
  let s := s.skipBlanks
  match s.rest with
  | [] => (s.tokenOf .eof 0, s)
  | c :: cs =>
    let m := Munch.first c cs
    let t := s.tokenOf m.kind m.length
    (t, { s.pass m.length with errors := s.errors ++ t.error?.toList })

/-- Whether an error has swallowed the rest of the input. -/
def isFatal (s : Scanner) : Bool := s.errors.any (·.fault = .unterminatedString)

/-- All tokens up to the end of the input; there is at most one for each character and the end. -/
def tokens : (budget : Nat) → Scanner → List Token
  | 0, _ => []
  | budget + 1, s =>
    let (t, s) := s.next
    if t.kind = .eof then [t] else t :: tokens budget s

end Scanner

/-- The tokens of a source, the end of the input last. -/
def tokenize (file source : String) : List Token :=
  let s := { Scanner.ofText source with file }
  s.tokens (s.rest.length + 1)

/-- The errors among some tokens. -/
def lexicalErrors (ts : List Token) : List LexicalError := ts.filterMap Token.error?

end SemFront
