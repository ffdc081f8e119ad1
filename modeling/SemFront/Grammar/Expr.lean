/-
Rules for expressions. Binary operators associate to the left and bind by level; a sign, a
negation and a cast take an operand without operators.
-/
import SemFront.Grammar.Name
import SemFront.Tree.Expr

namespace SemFront

/-- The binary operator that a token is. -/
def BinaryOp.ofKind? : Kind → Option BinaryOp
  | .punct .less => some .lt
  | .punct .greater => some .gt
  | .punct .lessEqual => some .leq
  | .punct .greaterEqual => some .geq
  | .punct .andAnd => some .and
  | .punct .plus => some .add
  | .punct .minus => some .sub
  | .punct .asterisk => some .mul
  | .punct .slash => some .div
  | _ => none

/-- The level of an operand without operators: above that of every operator. -/
def operandLevel : Nat := 10

/-- Whether an expression may start with a token of this kind. -/
def Kind.startsExpr : Kind → Bool
  | .ident | .int | .float | .string => true
  | .keyword .true | .keyword .false | .keyword .new => true
  | .punct .bang | .punct .minus | .punct .lparen | .punct .lbracket => true
  | _ => false

namespace Rule

/-! The rules below take as `sub` the rule for the expressions inside them: `sub level` reads one
whose operators bind tighter than `level`. -/

/-- A sign or a negation, and its operand. -/
def unary (sub : Nat → Rule Expr) : Rule Expr := do
  let sign ← current
  advance
  let operand ← sub operandLevel
  let span := sign.span.through operand.span
  return if sign.kind = .punct .bang then .not operand span else .neg operand span

/-- Whether a parenthesis opens a cast: it holds one identifier, and an expression follows it. -/
def opensCast : Rule Bool := do
  let type ← peek
  if type.kind ≠ .ident then return false else
  let close ← ahead 1
  if close.kind ≠ .punct .rparen then return false else
  let next ← ahead 2
  return next.kind.startsExpr

/-- A cast, `(Type) operand`. -/
def cast (sub : Nat → Rule Expr) (opened : Token) : Rule Expr := do
  advance
  let type ← currentIdent
  advance
  advance
  let operand ← sub operandLevel
  return .cast (some type) operand (opened.span.through operand.span)

/-- A cast or an expression in parentheses. -/
def parenOrCast (sub : Nat → Rule Expr) : Rule Expr := do
  let opened ← current
  let isCast ← opensCast
  if isCast then cast sub opened else
  advance
  let inner ← sub 0
  expect (.punct .rparen)
  let last ← current
  return .paren inner (opened.span.through last.span)

/-- A variable or a call, `a.b` or `a.b(args)`. -/
def nameOrCall (sub : Nat → Rule Expr) : Rule Expr := do
  let name ← dottedName
  let t ← peek
  if t.kind ≠ .punct .lparen then return .varRef (some name) name.span else
  advance
  advance
  let args ← manyItems .rparen .argument (sub 0)
  let last ← current
  return .call (some name) args (name.span.through last.span)

/-! ## Lists and comprehensions -/

/-- A part of a comprehension behind the bar. -/
inductive ComprehensionPart where
  | generator (g : Generator)
  | constraint (e : Expr)

def ComprehensionPart.span : ComprehensionPart → Span
  | .generator g => g.span
  | .constraint e => e.span

/-- A generator, `element <- source`. -/
def generator : Rule Generator := do
  let first ← current
  advance
  expect .ident
  let source ← current
  return { element := some first.ident, source := some source.ident,
           span := first.span.through source.span }

/-- A generator or any expression. -/
def comprehensionPart (sub : Nat → Rule Expr) : Rule ComprehensionPart := do
  let t ← current
  let next ← peek
  if t.kind = .ident && next.kind = .punct .leftArrow then
    let g ← generator
    return .generator g
  else
    let e ← sub 0
    return .constraint e

/-- The generators of some parts. -/
def generatorsOf (parts : List ComprehensionPart) : List Generator :=
  parts.filterMap fun | .generator g => some g | .constraint _ => none

/-- The constraints of some parts. -/
def constraintsOf (parts : List ComprehensionPart) : List Expr :=
  parts.filterMap fun | .constraint e => some e | .generator _ => none

/-- The generator and the constraint of a comprehension: one of each, in this order. Otherwise what
is wrong, and where if it is not the comprehension as a whole. -/
def comprehensionShape (parts : List ComprehensionPart) :
    Except (ComprehensionFlaw × Option Span) (Generator × Expr) :=
  match generatorsOf parts, constraintsOf parts with
  | [], _ => .error (.noGenerator, none)
  | _ :: g :: _, _ => .error (.manyGenerators, some g.span)
  | [_], [] => .error (.noConstraint, none)
  | [_], _ :: e :: _ => .error (.manyConstraints, some e.span)
  | [g], [e] =>
    match parts with
    | .constraint _ :: _ => .error (.constraintFirst, some g.span)
    | _ => .ok (g, e)

/-- The comprehension that some parts make, or a placeholder with one report of what is wrong. -/
def comprehensionOf (element : Ident) (parts : List ComprehensionPart) (span : Span) : Rule Expr :=
  match comprehensionShape parts with
  | .ok (g, e) => return .comprehension (some element) (some g) e span
  | .error (flaw, place) => do
    report (.comprehension flaw (place.getD span))
    return .bad span

/-- A comprehension, `[element | generator, constraint]`. Any mix of parts is read, so that a wrong
number of them is one problem. -/
def comprehension (sub : Nat → Rule Expr) (opened : Token) : Rule Expr := do
  advance
  let element ← currentIdent
  advance
  advance
  let parts ← someItems .rbracket .comprehensionPart (comprehensionPart sub)
  let last ← current
  comprehensionOf element parts (opened.span.through last.span)

/-- Whether a bracket opens a comprehension: a bar follows one identifier. -/
def opensComprehension : Rule Bool := do
  let element ← peek
  if element.kind ≠ .ident then return false else
  let bar ← ahead 1
  return bar.kind = .punct .pipe

/-- A list or a comprehension. -/
def listOrComprehension (sub : Nat → Rule Expr) : Rule Expr := do
  let opened ← current
  let isComprehension ← opensComprehension
  if isComprehension then comprehension sub opened else
  advance
  let elems ← manyItems .rbracket .listElement (sub 0)
  let last ← current
  return .list elems (opened.span.through last.span)

/-! ## New instances -/

/-- A property with its value, `name = value`. -/
def propertyInit (sub : Nat → Rule Expr) : Rule Initializer := do
  let name ← current
  if name.kind ≠ .ident then refuse .propertyName name else
  expect (.punct .assign)
  advance
  let value ← sub 0
  return .mk (some name.ident) value (name.span.through value.span)

/-- A new instance, `new Type(name = value, …)`. -/
def construct (sub : Nat → Rule Expr) : Rule Expr := do
  let new ← current
  expect .ident
  let type ← currentIdent
  expect (.punct .lparen)
  advance
  let inits ← manyItems .rparen .initializer (propertyInit sub)
  let last ← current
  return .construct (some type) inits (new.span.through last.span)

/-! ## Expressions -/

/-- Refuses the current token where an expression should start. -/
def noExpr : Rule Expr := do
  let t ← current
  report (.unexpected .expression t)
  fail

/-- An expression without operators around it. -/
def primary (sub : Nat → Rule Expr) : Rule Expr := do
  let t ← current
  match t.kind with
  | .ident => nameOrCall sub
  | .int => return .int t.literal t.span
  | .float => return .float t.literal t.span
  | .string => return .string t.literal t.raw.toList.head? t.span
  | .keyword .true => return .bool true t.span
  | .keyword .false => return .bool false t.span
  | .keyword .new => construct sub
  | .punct .bang => unary sub
  | .punct .minus => unary sub
  | .punct .lparen => parenOrCast sub
  | .punct .lbracket => listOrComprehension sub
  | _ => noExpr

/-- One more operator that binds tighter than `level`, with its right operand. -/
def operatorRound (sub : Nat → Rule Expr) (level : Nat) (left : Expr) : Rule (Round Expr) := do
  let t ← peek
  match BinaryOp.ofKind? t.kind with
  | none => return .stop left
  | some op =>
    if level < op.level then
      advance
      advance
      let right ← sub op.level
      return .again (.binary op left right (left.span.through right.span))
    else return .stop left

/-- Operators that bind tighter than `level`, with their right operands, behind a left operand. -/
def operators (sub : Nat → Rule Expr) (level : Nat) : Expr → Rule Expr := loop (operatorRound sub level)

/-- An expression whose operators bind tighter than `level`, with at most `depth` expressions
inside each other. -/
def exprAt : (depth level : Nat) → Rule Expr
  | 0, _ => noExpr
  | depth + 1, level => do
    let left ← primary (exprAt depth)
    operators (exprAt depth) level left

/-- An expression. Each one inside another starts at least one token later, so the tokens left
bound the depth. -/
def expr : Rule Expr := fun r => exprAt (r.budget + 1) 0 r

end Rule
end SemFront
