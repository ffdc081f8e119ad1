/-
Rules for parameters. A parameter that cannot be read is given up, and the list goes on behind the
next comma.
-/
import SemFront.Grammar.Expr
import SemFront.Grammar.Recovery
import SemFront.Tree.Program

namespace SemFront

/-- The number of tokens up to the comma or the parenthesis that ends a parameter, inside `depth`
parentheses. An opening brace or a semicolon outside of parentheses ends it too. -/
def paramLength : (depth : Nat) → List Token → Nat
  | _, [] => 0
  | depth, t :: ts =>
    match t.kind with
    | .punct .lparen => paramLength (depth + 1) ts + 1
    | .punct .rparen =>
      match depth with
      | 0 => 0
      | depth + 1 => paramLength depth ts + 1
    | .punct .lbrace | .punct .semicolon | .punct .comma =>
      if depth = 0 then 0 else paramLength depth ts + 1
    | _ => paramLength depth ts + 1

namespace Rule

/-- Skips to the end of a parameter. The result is the last token skipped, or the current one if
none was. -/
def skipParam : Rule Token := fun r =>
  let n := paramLength 0 r.rest
  .ok ((r.rest.take n).getLastD r.current) (r.advanceBy n)

/-- Gives up a parameter that began at `start`; the result covers it. -/
def skipParamFrom (start : Token) : Rule Span := do
  let t ← current
  if t.isSame start && t.kind ≠ .punct .rparen && t.kind ≠ .punct .comma then advance
  let last ← skipParam
  return start.span.through last.span

/-! ## Bindings -/

/-- A binding, `name: property` with a constraint or with bindings of its own. -/
def binding (bindings : Rule (List Binding)) : Rule Binding := do
  let name ← current
  if name.kind ≠ .ident then refuse .bindingName name else
  expect (.punct .colon)
  expect .ident
  let property ← currentIdent
  let t ← peek
  if t.kind = .punct .pipe then
    advance
    advance
    let constraint ← expr
    let last ← current
    return .leaf (some name.ident) (some property) constraint (name.span.through last.span)
  else if t.kind = .punct .lbrace then
    advance
    let inner ← bindings
    let last ← current
    return .nested (some name.ident) (some property) .absent inner (name.span.through last.span)
  else
    let last ← current
    return .leaf (some name.ident) (some property) .absent (name.span.through last.span)

/-- Bindings in braces, with at most `depth` such lists inside each other. -/
def bindingsAt : (depth : Nat) → Rule (List Binding)
  | 0 => do
    let t ← current
    refuse .binding t
  | depth + 1 => do
    advance
    someItems .rbrace .binding (binding (bindingsAt depth))

/-- Bindings in braces. -/
def bindings : Rule (List Binding) := fun r => bindingsAt (r.budget + 1) r

/-! ## Parameters -/

/-- A parameter, `name: Type` with a constraint or with bindings. -/
def param : Rule Param := do
  let name ← current
  if name.kind ≠ .ident then refuse .parameterName name else
  expect (.punct .colon)
  advance
  let type ← dottedName
  let t ← peek
  if t.kind = .punct .lbrace then
    advance
    let inner ← bindings
    let last ← current
    return .destructuring (some name.ident) (some type) inner (name.span.through last.span)
  else if t.kind = .punct .pipe then
    advance
    advance
    let constraint ← expr
    return .simple (some name.ident) (some type) constraint (name.span.through constraint.span)
  else return .simple (some name.ident) (some type) .absent (name.span.through type.span)

/-- A parameter, or a placeholder for one that could not be read. The current token is then the
one that ends it. -/
def paramOrBad : Rule Param := do
  let start ← current
  match ← attempt param with
  | some p =>
    let t ← peek
    if t.kind = .punct .comma || t.kind = .punct .rparen then
      advance
      return p
    else
      report (.expected (.commaOr .rparen) t)
      advance
      let _ ← skipParam
      return p
  | none =>
    let span ← skipParamFrom start
    return .bad span

/-- What ends a parameter: the closing parenthesis, or a comma in front of another one. -/
def paramEnd (params : Array Param) : Rule (Round (Array Param)) := do
  let t ← current
  if t.kind = .punct .rparen then return .stop params
  else if t.kind = .punct .comma then
    advance
    let t ← current
    if t.kind = .punct .rparen then
      report (.expected .parameter t)
      return .stop params
    else return .again params
  else fail

/-- One more parameter. -/
def paramRound (params : Array Param) : Rule (Round (Array Param)) := do
  let p ← paramOrBad
  paramEnd (params.push p)

/-- The parameters of a function behind the opening parenthesis, up to the closing one. -/
def params : Rule (List Param) := do
  let t ← current
  if t.kind = .punct .rparen then return [] else
  let ps ← loop paramRound #[]
  return ps.toList

end Rule
end SemFront
