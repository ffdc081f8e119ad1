/-
What can be wrong with a sequence of tokens, and how each problem is worded.
-/
import SemFront.Grammar.Error
import SemFront.Token.Basic

namespace SemFront

/-- What a rule asks for at a place. -/
inductive Wanted where
  | token (k : Kind)
  | commaOr (closing : Punct)
  | moduleName
  | parameter
  | parameterName
  | binding
  | bindingName
  | argument
  | listElement
  | comprehensionPart
  | initializer
  | propertyName
  | typeName
  | iri
  | iriFragment
  | domainSegment
deriving DecidableEq, Repr

namespace Wanted

/-- How messages speak of a kind of token. -/
def kindText : Kind → String
  | .ident => "identifier"
  | .eof => "end of input"
  | .keyword k => Token.ticked k.text
  | k => Token.ticked k.name

def text : Wanted → String
  | .token k => kindText k
  | .commaOr closing => kindText (.punct .comma) ++ " or " ++ kindText (.punct closing)
  | .moduleName => "module name"
  | .parameter => "parameter"
  | .parameterName => "parameter name"
  | .binding => "property binding"
  | .bindingName => "binding name"
  | .argument => "argument"
  | .listElement => "list element"
  | .comprehensionPart => "generator or constraint"
  | .initializer => "property initializer"
  | .propertyName => "property name"
  | .typeName => "type"
  | .iri => "IRI"
  | .iriFragment => "IRI fragment"
  | .domainSegment => "domain segment"

end Wanted

/-- A place at which no rule accepts the token that is there. -/
inductive Context where
  | expression
  | declaration
  | member
  | endOfInput
deriving DecidableEq, Repr

def Context.text : Context → String
  | .expression => "expected expression"
  | .declaration => "expected `use`, `alias`, `class` or a function declaration"
  | .member => "expected property or method"
  | .endOfInput => "expected end of input"

/-- What a brace was opened for. -/
inductive Enclosure where
  | block
  | classBody (name : String)
deriving DecidableEq, Repr

def Enclosure.text : Enclosure → String
  | .block => "block"
  | .classBody name => "class " ++ Token.ticked name

/-- What can be wrong with the parts of a list comprehension. -/
inductive ComprehensionFlaw where
  | noGenerator
  | manyGenerators
  | noConstraint
  | manyConstraints
  | constraintFirst
deriving DecidableEq, Repr

def ComprehensionFlaw.message : ComprehensionFlaw → String
  | .noGenerator => "list comprehension requires a generator `var <- source`"
  | .manyGenerators => "list comprehension allows exactly one generator"
  | .noConstraint => "list comprehension requires a constraint after the generator"
  | .manyConstraints => "list comprehension allows exactly one constraint"
  | .constraintFirst => "the generator must come before the constraint"

/-- A problem with the tokens of a source. -/
inductive Problem where
  | expected (what : Wanted) (found : Token)
  | unexpected (context : Context) (found : Token)
  | unclosed (what : Enclosure) (opened found : Token)
  | missingSemicolon (found : Token)
  | missingType (name : String) (found : Token)
  | lateImport (span : Span)
  | lateAlias (span : Span)
  | aliasTarget (span : Span)
  | comprehension (flaw : ComprehensionFlaw) (span : Span)
  | tooMany (limit : Nat) (span : Span)
deriving DecidableEq, Repr

namespace Problem

def orderNote : String :=
  "a file lists `use` imports first, then aliases, then classes and functions"

/-- The problem as an error. -/
def error : Problem → GrammarError
  | .expected what found =>
    { code := "SYNTAX_EXPECTED_TOKEN"
      message := "expected " ++ what.text ++ ", found " ++ found.describe
      expected := what.text, found := found.describe, span := found.span
      help := if found.kind = .eof then "the input ended early; check for a missing `\x7d` or `;`"
        else "" }
  | .unexpected context found =>
    { code := "SYNTAX_UNEXPECTED_TOKEN"
      message := context.text ++ ", found " ++ found.describe
      found := found.describe, span := found.span }
  | .unclosed what opened found =>
    let brace := Wanted.kindText (.punct .rbrace)
    { code := "SYNTAX_EXPECTED_TOKEN"
      message := "expected " ++ brace ++ " to close " ++ what.text ++ ", found " ++ found.describe
      expected := brace, found := found.describe, span := found.span
      related := [(opened.span, "unclosed `\x7b` opened here")] }
  | .missingSemicolon found =>
    { code := "SYNTAX_MISSING_SEMICOLON"
      message := "expected `;` after statement, found " ++ found.describe
      expected := Wanted.kindText (.punct .semicolon), found := found.describe, span := found.span
      help := "every statement in a block ends with `;`" }
  | .missingType name found =>
    { code := "SYNTAX_EXPECTED_TOKEN"
      message := "expected " ++ Wanted.typeName.text ++ ", found " ++ found.describe
      expected := Wanted.typeName.text, found := found.describe, span := found.span
      help := "declare the variable as " ++ Token.ticked (name ++ ": Type = value") }
  | .lateImport span =>
    { code := "SYNTAX_OUT_OF_ORDER", message := "`use` must come before aliases and declarations"
      span, notes := [orderNote] }
  | .lateAlias span =>
    { code := "SYNTAX_OUT_OF_ORDER"
      message := "`alias` must come before class and function declarations"
      span, notes := [orderNote] }
  | .aliasTarget span =>
    { kind := .structural, code := "STRUCTURAL_IRI"
      message := "alias target must be an absolute IRI"
      span, help := "write the full form, e.g. `http://example.org/path#`" }
  | .comprehension flaw span =>
    { kind := .structural, code := "STRUCTURAL_COMPREHENSION", message := flaw.message
      span, help := "write the comprehension as `[v | v <- source, condition]`" }
  | .tooMany limit span =>
    { code := "TOO_MANY_ERRORS"
      message := "too many errors (limit " ++ toString limit ++ "), further errors suppressed"
      span }

/-- Whether two problems say the same of the same place, so that one of them is enough. -/
def repeats (p q : Problem) : Bool :=
  p.error.code = q.error.code && p.error.expected = q.error.expected &&
    p.error.span.start = q.error.span.start

end Problem
end SemFront
