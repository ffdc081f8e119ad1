/-
Rules for statements and blocks. A statement that cannot be read is given up, and the block goes
on with the next one.
-/
import SemFront.Grammar.Expr
import SemFront.Grammar.Recovery
import SemFront.Tree.Stmt

namespace SemFront.Rule

/-! ## Variables and assignments -/

/-- The type of a variable behind its colon, and whether `>=` has closed it and begun the
initializer at once. A missing type before `=` is reported and left as a placeholder. -/
def typeRef (name : Token) : Rule (TypeRef × Bool) := do
  let t ← peek
  match t.kind with
  | .punct .assign =>
    report (.missingType name.literal t)
    return (.bad { t.span with stop := t.span.start }, false)
  | .keyword .list =>
    advance
    let list ← current
    expect (.punct .less)
    expect .ident
    let element ← currentIdent
    let close ← peek
    if close.kind = .punct .greater || close.kind = .punct .greaterEqual then
      advance
      let span := list.span.through { close.span with stop := close.span.start + 1 }
      return (.named (some element) true span, close.kind = .punct .greaterEqual)
    else refuse (.token (.punct .greater)) close
  | _ =>
    expect .ident
    let type ← current
    return (.named (some type.ident) false type.span, false)

/-- Whether an initializer follows a type; `begun` if that is known. The current token is then the
one before it. -/
def initFollows (begun : Bool) : Rule Bool := do
  let t ← peek
  if !begun && t.kind = .punct .assign then
    advance
    return true
  else return begun

/-- A variable, `name: Type = value` or without a value. -/
def varDecl : Rule Stmt := do
  let name ← current
  advance
  let (type, begun) ← typeRef name
  let begun ← initFollows begun
  if begun then
    advance
    let init ← expr
    return .varDecl (some name.ident) (some type) init (name.span.through init.span)
  else
    let last ← current
    return .varDecl (some name.ident) (some type) .absent (name.span.through last.span)

/-- An assignment, `a.b = value`. -/
def assignment : Rule Stmt := do
  let target ← dottedName
  advance
  advance
  let value ← expr
  return .assign (some target) value (target.span.through value.span)

/-! ## Statements -/

/-- An expression as a statement. -/
def exprStmt : Rule Stmt := do
  let value ← expr
  return .expr value value.span

def returnStmt : Rule Stmt := do
  let first ← current
  advance
  let value ← expr
  return .ret value (first.span.through value.span)

/-- An expression and a block behind a keyword. -/
def condBlock (block : Rule Block) : Rule (Expr × Block) := do
  advance
  let condition ← expr
  expect (.punct .lbrace)
  let body ← block
  return (condition, body)

/-- The block behind `else`, if there is one. -/
def elseBlock (block : Rule Block) : Rule Block := do
  let t ← peek
  if t.kind = .keyword .else then
    advance
    expect (.punct .lbrace)
    block
  else return .absent

def ifStmt (block : Rule Block) : Rule Stmt := do
  let first ← current
  let (condition, yes) ← condBlock block
  let no ← elseBlock block
  let last ← current
  return .ifElse condition yes no (first.span.through last.span)

def whileStmt (block : Rule Block) : Rule Stmt := do
  let first ← current
  let (condition, body) ← condBlock block
  let last ← current
  return .whileLoop condition body (first.span.through last.span)

def withStmt (block : Rule Block) : Rule Stmt := do
  let first ← current
  let (resource, body) ← condBlock block
  let last ← current
  return .withBlock resource body (first.span.through last.span)

/-- A statement that starts with an identifier. -/
def nameStmt : Rule Stmt := do
  let next ← peek
  if next.kind = .punct .colon then varDecl else
  let t ← afterChain
  if t.kind = .punct .assign then assignment else exprStmt

/-- A statement; `block` reads the blocks inside it. -/
def stmt (block : Rule Block) : Rule Stmt := do
  let t ← current
  match t.kind with
  | .keyword .if => ifStmt block
  | .keyword .while => whileStmt block
  | .keyword .with => withStmt block
  | .keyword .return => returnStmt
  | .ident => nameStmt
  | _ => exprStmt

/-- Passes the semicolon behind a statement. If it is missing, that is reported and the statement
stays. -/
def finishStmt : Rule Unit := do
  let t ← peek
  if t.kind = .punct .semicolon then
    advance
    advance
  else
    report (.missingSemicolon t)
    advance

/-! ## Blocks -/

/-- One more statement of a block. -/
def stmtRound (block : Rule Block) (stmts : Array Stmt) : Rule (Round (Array Stmt)) := do
  let start ← current
  if start.kind = .punct .rbrace || start.kind = .eof then return .stop stmts else
  match ← attempt (stmt block) with
  | some s =>
    finishStmt
    return .again (stmts.push s)
  | none =>
    let span ← recover .statement start
    return .again (stmts.push (.bad span))

/-- A block from its opening brace on, `block` reading those inside it. If the input ends first,
that is reported and the block stays. -/
def blockWith (block : Rule Block) : Rule Block := do
  let opened ← current
  advance
  let stmts ← loop (stmtRound block) #[]
  let last ← current
  if last.kind = .eof then report (.unclosed .block opened last)
  return .mk stmts.toList (opened.span.through last.span)

/-- A block with at most `depth` blocks inside each other. -/
def blockAt : (depth : Nat) → Rule Block
  | 0 => do
    let t ← current
    refuse (.token (.punct .lbrace)) t
  | depth + 1 => blockWith (blockAt depth)

/-- A block. -/
def block : Rule Block := fun r => blockAt (r.budget + 1) r

end SemFront.Rule
