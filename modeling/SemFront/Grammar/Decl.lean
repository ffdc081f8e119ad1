/-
Rules for declarations and programs. Members of a class and declarations of a program are given up
one by one, so that a broken one leaves the others as they are.
-/
import SemFront.Grammar.Param
import SemFront.Grammar.Stmt

namespace SemFront.Rule

/-! ## Functions, imports and aliases -/

/-- Passes a semicolon, if there is one. -/
def optionalSemicolon : Rule Unit := do
  let t ← peek
  if t.kind = .punct .semicolon then advance

/-- A function or a method, `name(params): Type { … }`, with an optional semicolon. -/
def functionDecl : Rule FunctionDecl := do
  let name ← dottedName
  expect (.punct .lparen)
  advance
  let params ← params
  expect (.punct .colon)
  expect .ident
  let returnType ← currentIdent
  expect (.punct .lbrace)
  let body ← block
  optionalSemicolon
  let last ← current
  return { name := some name, params, returnType := some returnType, body,
           span := name.span.through last.span }

/-- A module to import. -/
def moduleName : Rule Ident := do
  let t ← current
  if t.kind ≠ .ident then refuse .moduleName t else return t.ident

/-- An import, `use a, b;`. -/
def moduleImport : Rule ModuleImport := do
  let first ← current
  advance
  let names ← someItems .semicolon .moduleName moduleName
  let last ← current
  return { names, span := first.span.through last.span }

/-- The target of an alias. A qualified name is reported and left out. -/
def aliasTarget : Rule (Option AbsoluteIri) := do
  match ← iri with
  | .absolute a => return some a
  | .qualified q =>
    report (.aliasTarget q.span)
    return none

/-- An alias, `alias name as scheme://host/path#fragment;`. -/
def aliasDecl : Rule Alias := do
  let first ← current
  expect .ident
  let name ← currentIdent
  expect (.keyword .as)
  advance
  let target ← aliasTarget
  expect (.punct .semicolon)
  let last ← current
  return { name := some name, target, span := first.span.through last.span }

/-! ## Classes -/

/-- A property, `name: Type;`. -/
def propertyDecl : Rule PropertyDecl := do
  let name ← current
  advance
  expect .ident
  let type ← currentIdent
  expect (.punct .semicolon)
  let last ← current
  return { name := some name.ident, type := some type, span := name.span.through last.span }

/-- A member of a class: a property if a colon follows its name, otherwise a method. -/
def member : Rule (PropertyDecl ⊕ FunctionDecl) := do
  let t ← current
  let next ← peek
  if t.kind = .ident && next.kind = .punct .colon then
    let p ← propertyDecl
    return .inl p
  else if t.kind = .ident then
    let m ← functionDecl
    return .inr m
  else
    report (.unexpected .member t)
    fail

/-- The members read so far and where the last of them stands. -/
structure ClassBody where
  properties : Array PropertyDecl := #[]
  methods : Array FunctionDecl := #[]
  bad : Array Span := #[]
  last : Span

/-- One more member of a class. -/
def memberRound (body : ClassBody) : Rule (Round ClassBody) := do
  let start ← current
  if start.kind = .punct .rbrace || start.kind = .eof || start.kind.startsDecl then
    return .stop body
  else
  match ← attempt member with
  | some m =>
    let last ← current
    advance
    match m with
    | .inl p => return .again { body with properties := body.properties.push p, last := last.span }
    | .inr m => return .again { body with methods := body.methods.push m, last := last.span }
  | none =>
    let span ← recover .member start
    return .again { body with bad := body.bad.push span, last := span }

/-- A class, `class Name { … }`, and whether its body was closed. A body that ends with a keyword
of a declaration or with the input is reported, and the current token is then that token. -/
def classDef : Rule (ClassDef × Bool) := do
  let first ← current
  expect .ident
  let name ← currentIdent
  expect (.punct .lbrace)
  let opened ← current
  advance
  let body ← loop memberRound { last := opened.span }
  let t ← current
  let closed : Bool := t.kind = .punct .rbrace
  if !closed then report (.unclosed (.classBody name.name) opened t)
  let c : ClassDef :=
    { name := some name, properties := body.properties.toList, methods := body.methods.toList
      bad := body.bad.toList, span := first.span.through (if closed then t.span else body.last) }
  return (c, closed)

/-! ## Programs -/

/-- The sections of a program, in the order in which they must come. -/
inductive Section where
  | imports
  | aliases
  | decls
deriving DecidableEq, Repr

/-- What has been read of a program. -/
structure Progress where
  imports : Array ModuleImport := #[]
  aliases : Array Alias := #[]
  classes : Array ClassDef := #[]
  functions : Array FunctionDecl := #[]
  bad : Array Span := #[]
  part : Section := .imports

/-- Keeps a declaration that was read, moving on behind it, or gives it up. -/
def keepOrRecover (start : Token) (before : Progress) (decl : Rule α) (keep : α → Progress) :
    Rule (Round Progress) := do
  match ← attempt decl with
  | some d =>
    advance
    return .again (keep d)
  | none =>
    let span ← recover .declaration start
    return .again { before with bad := before.bad.push span }

/-- An import; it is out of order behind an alias or a declaration. -/
def importRound (start : Token) (p : Progress) : Rule (Round Progress) := do
  if p.part ≠ .imports then report (.lateImport start.span)
  keepOrRecover start p moduleImport fun i => { p with imports := p.imports.push i }

/-- An alias; it is out of order behind a class or a function. -/
def aliasRound (start : Token) (p : Progress) : Rule (Round Progress) := do
  if p.part = .decls then report (.lateAlias start.span)
  let p := if p.part = .decls then p else { p with part := .aliases }
  keepOrRecover start p aliasDecl fun a => { p with aliases := p.aliases.push a }

/-- A class; behind an unclosed one the current token is already that of the next declaration. -/
def classRound (start : Token) (p : Progress) : Rule (Round Progress) := do
  let p := { p with part := .decls }
  match ← attempt classDef with
  | some (c, closed) =>
    if closed then advance
    return .again { p with classes := p.classes.push c }
  | none =>
    let span ← recover .declaration start
    return .again { p with bad := p.bad.push span }

def functionRound (start : Token) (p : Progress) : Rule (Round Progress) := do
  let p := { p with part := .decls }
  keepOrRecover start p functionDecl fun f => { p with functions := p.functions.push f }

/-- One more declaration of a program. -/
def declRound (p : Progress) : Rule (Round Progress) := do
  let start ← current
  match start.kind with
  | .eof => return .stop p
  | .keyword .use => importRound start p
  | .keyword .alias => aliasRound start p
  | .keyword .classWord => classRound start p
  | .ident => functionRound start p
  | _ =>
    report (.unexpected .declaration start)
    let span ← recover .declaration start
    return .again { p with bad := p.bad.push span }

/-- A program: all the input. -/
def program : Rule Program := do
  let first ← current
  let p ← loop declRound {}
  let last ← current
  return { imports := p.imports.toList, aliases := p.aliases.toList, classes := p.classes.toList
           functions := p.functions.toList, bad := p.bad.toList
           span := first.span.through last.span }

end SemFront.Rule
