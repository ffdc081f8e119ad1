/-
Nodes of any kind, the tree that they form, and the order in which a visit meets them.
-/
import SemFront.Tree.Print

namespace SemFront

/-- A node of any kind. -/
inductive Node where
  | program (p : Program)
  | moduleImport (i : ModuleImport)
  | alias (a : Alias)
  | classDef (c : ClassDef)
  | propertyDecl (p : PropertyDecl)
  | functionDecl (f : FunctionDecl)
  | badDecl (span : Span)
  | ident (i : Ident)
  | name (n : Name)
  | param (p : Param)
  | binding (b : Binding)
  | iri (i : Iri)
  | block (b : Block)
  | stmt (s : Stmt)
  | typeRef (t : TypeRef)
  | expr (e : Expr)
  | generator (g : Generator)
  | initializer (i : Initializer)

namespace Node

/-- The name of a node's kind. -/
def kind : Node → String
  | .program _ => "Program"
  | .moduleImport _ => "ModuleImport"
  | .alias _ => "Alias"
  | .classDef _ => "ClassDef"
  | .propertyDecl _ => "PropertyDecl"
  | .functionDecl _ => "FunctionDecl"
  | .badDecl _ => "BadDecl"
  | .ident _ => "Ident"
  | .name _ => "Name"
  | .param (.simple ..) => "SimpleParam"
  | .param (.destructuring ..) => "DestructuringParam"
  | .param (.bad _) => "BadParam"
  | .binding _ => "PropertyBinding"
  | .iri (.qualified _) => "QName"
  | .iri (.absolute _) => "AbsoluteIri"
  | .block _ => "Block"
  | .stmt (.ifElse ..) => "IfElse"
  | .stmt (.whileLoop ..) => "While"
  | .stmt (.withBlock ..) => "With"
  | .stmt (.varDecl ..) => "VarDecl"
  | .stmt (.assign ..) => "Assignment"
  | .stmt (.ret ..) => "Return"
  | .stmt (.expr ..) => "ExprStmt"
  | .stmt (.bad _) => "BadStmt"
  | .typeRef _ => "TypeRef"
  | .expr .absent => "BadExpr"
  | .expr (.bad _) => "BadExpr"
  | .expr (.bool ..) => "BoolLit"
  | .expr (.int ..) => "IntLit"
  | .expr (.float ..) => "FloatLit"
  | .expr (.string ..) => "StringLit"
  | .expr (.list ..) => "ListLiteral"
  | .expr (.comprehension ..) => "ListComprehension"
  | .expr (.varRef ..) => "VarRef"
  | .expr (.not ..) => "UnaryNot"
  | .expr (.neg ..) => "UnaryNeg"
  | .expr (.binary ..) => "BinaryOp"
  | .expr (.call ..) => "FuncCall"
  | .expr (.paren ..) => "Paren"
  | .expr (.cast ..) => "TypeCast"
  | .expr (.construct ..) => "NewInstance"
  | .generator _ => "Generator"
  | .initializer _ => "PropertyInit"

def span : Node → Span
  | .program p => p.span
  | .moduleImport i => i.span
  | .alias a => a.span
  | .classDef c => c.span
  | .propertyDecl p => p.span
  | .functionDecl f => f.span
  | .badDecl s => s
  | .ident i => i.span
  | .name n => n.span
  | .param p => p.span
  | .binding b => b.span
  | .iri i => i.span
  | .block b => b.span
  | .stmt s => s.span
  | .typeRef t => t.span
  | .expr e => e.span
  | .generator g => g.span
  | .initializer i => i.span

/-- The canonical text of a node. -/
def text : Node → String
  | .program p => p.text
  | .moduleImport i => i.text
  | .alias a => a.text
  | .classDef c => c.text 0
  | .propertyDecl p => p.text
  | .functionDecl f => f.text 0
  | .badDecl _ => hole
  | .ident i => i.name
  | .name n => n.text
  | .param p => p.text
  | .binding b => b.text
  | .iri i => i.text
  | .block b => b.text 0
  | .stmt s => s.text 0
  | .typeRef t => t.text
  | .expr e => e.text
  | .generator g => g.text
  | .initializer i => i.text

/-- Whether a node is a placeholder for something that could not be read. -/
def isPlaceholder : Node → Bool
  | .badDecl _ => true
  | .param (.bad _) => true
  | .stmt (.bad _) => true
  | .expr (.bad _) => true
  | .typeRef (.bad _) => true
  | _ => false

end Node

/-- A node with the nodes below it, in the order in which a visit meets them. -/
inductive Outline where
  | mk (node : Node) (children : List Outline)

namespace Outline

def leaf (n : Node) : Outline := .mk n []

mutual

/-- The nodes that a visit meets, a node before its children; it goes on below a node only if
`enter` allows it. -/
def visit (enter : Node → Bool) : Outline → List Node
  | .mk n children => n :: (if enter n then visitAll enter children else [])

def visitAll (enter : Node → Bool) : List Outline → List Node
  | [] => []
  | o :: os => o.visit enter ++ visitAll enter os

end

/-- All nodes. -/
def nodes (o : Outline) : List Node := o.visit fun _ => true

/-- The number of placeholders. -/
def placeholders (o : Outline) : Nat := o.nodes.countP Node.isPlaceholder

end Outline

/-! ## The outline of each kind of node -/

def Ident.outline (i : Ident) : Outline := .leaf (.ident i)

def Ident.outline? (i : Option Ident) : List Outline := i.toList.map Ident.outline

def Name.outline (n : Name) : Outline := .mk (.name n) (n.parts.map Ident.outline)

def Name.outline? (n : Option Name) : List Outline := n.toList.map Name.outline

def Iri.outline : Iri → Outline
  | .qualified q => .mk (.iri (.qualified q)) (Ident.outline? q.scope ++ Ident.outline? q.fragment)
  | .absolute a => .mk (.iri (.absolute a))
      (Ident.outline? a.scheme ++ a.domain.map Ident.outline ++ a.path.map Ident.outline ++
        Ident.outline? a.fragment)

def Generator.outline (g : Generator) : Outline :=
  .mk (.generator g) (Ident.outline? g.element ++ Ident.outline? g.source)

mutual

/-- The outline of an expression; one that is absent has none. -/
def Expr.outline : Expr → List Outline
  | .absent => []
  | .bad s => [.leaf (.expr (.bad s))]
  | .bool v s => [.leaf (.expr (.bool v s))]
  | .int t s => [.leaf (.expr (.int t s))]
  | .float t s => [.leaf (.expr (.float t s))]
  | .string v q s => [.leaf (.expr (.string v q s))]
  | .list es s => [.mk (.expr (.list es s)) (Expr.outlines es)]
  | .comprehension x g c s =>
    [.mk (.expr (.comprehension x g c s))
      (Ident.outline? x ++ g.toList.map Generator.outline ++ c.outline)]
  | .varRef n s => [.mk (.expr (.varRef n s)) (Name.outline? n)]
  | .not e s => [.mk (.expr (.not e s)) e.outline]
  | .neg e s => [.mk (.expr (.neg e s)) e.outline]
  | .binary op l r s => [.mk (.expr (.binary op l r s)) (l.outline ++ r.outline)]
  | .call n es s => [.mk (.expr (.call n es s)) (Name.outline? n ++ Expr.outlines es)]
  | .paren e s => [.mk (.expr (.paren e s)) e.outline]
  | .cast t e s => [.mk (.expr (.cast t e s)) (Ident.outline? t ++ e.outline)]
  | .construct t is s =>
    [.mk (.expr (.construct t is s)) (Ident.outline? t ++ Initializer.outlines is)]

def Expr.outlines : List Expr → List Outline
  | [] => []
  | e :: es => e.outline ++ Expr.outlines es

def Initializer.outline : Initializer → Outline
  | .mk n v s => .mk (.initializer (.mk n v s)) (Ident.outline? n ++ v.outline)

def Initializer.outlines : List Initializer → List Outline
  | [] => []
  | i :: is => i.outline :: Initializer.outlines is

end

def TypeRef.outline : TypeRef → Outline
  | .named n l s => .mk (.typeRef (.named n l s)) (Ident.outline? n)
  | .bad s => .leaf (.typeRef (.bad s))

mutual

def Stmt.outline : Stmt → Outline
  | .ifElse c yes no s =>
    .mk (.stmt (.ifElse c yes no s)) (c.outline ++ yes.outline ++ no.outline)
  | .whileLoop c b s => .mk (.stmt (.whileLoop c b s)) (c.outline ++ b.outline)
  | .withBlock r b s => .mk (.stmt (.withBlock r b s)) (r.outline ++ b.outline)
  | .varDecl n t i s =>
    .mk (.stmt (.varDecl n t i s)) (Ident.outline? n ++ t.toList.map TypeRef.outline ++ i.outline)
  | .assign t v s => .mk (.stmt (.assign t v s)) (Name.outline? t ++ v.outline)
  | .ret v s => .mk (.stmt (.ret v s)) v.outline
  | .expr v s => .mk (.stmt (.expr v s)) v.outline
  | .bad s => .leaf (.stmt (.bad s))

/-- The outline of a block; one that is absent has none. -/
def Block.outline : Block → List Outline
  | .absent => []
  | .mk ss s => [.mk (.block (.mk ss s)) (Stmt.outlines ss)]

def Stmt.outlines : List Stmt → List Outline
  | [] => []
  | s :: ss => s.outline :: Stmt.outlines ss

end

mutual

def Binding.outline : Binding → Outline
  | .leaf n p c s =>
    .mk (.binding (.leaf n p c s)) (Ident.outline? n ++ Ident.outline? p ++ c.outline)
  | .nested n p c bs s =>
    .mk (.binding (.nested n p c bs s))
      (Ident.outline? n ++ Ident.outline? p ++ c.outline ++ Binding.outlines bs)

def Binding.outlines : List Binding → List Outline
  | [] => []
  | b :: bs => b.outline :: Binding.outlines bs

end

def Param.outline : Param → Outline
  | .simple n t c s =>
    .mk (.param (.simple n t c s)) (Ident.outline? n ++ Name.outline? t ++ c.outline)
  | .destructuring n t bs s =>
    .mk (.param (.destructuring n t bs s))
      (Ident.outline? n ++ Name.outline? t ++ Binding.outlines bs)
  | .bad s => .leaf (.param (.bad s))

def FunctionDecl.outline (f : FunctionDecl) : Outline :=
  .mk (.functionDecl f)
    (Name.outline? f.name ++ f.params.map Param.outline ++ Ident.outline? f.returnType ++
      f.body.outline)

def PropertyDecl.outline (p : PropertyDecl) : Outline :=
  .mk (.propertyDecl p) (Ident.outline? p.name ++ Ident.outline? p.type)

def ClassDef.outline (c : ClassDef) : Outline :=
  .mk (.classDef c)
    (Ident.outline? c.name ++ c.properties.map PropertyDecl.outline ++
      c.methods.map FunctionDecl.outline ++ c.bad.map fun s => .leaf (.badDecl s))

def ModuleImport.outline (i : ModuleImport) : Outline :=
  .mk (.moduleImport i) (i.names.map Ident.outline)

def Alias.outline (a : Alias) : Outline :=
  .mk (.alias a)
    (Ident.outline? a.name ++ a.target.toList.map fun t => (Iri.absolute t).outline)

def Program.outline (p : Program) : Outline :=
  .mk (.program p)
    (p.imports.map ModuleImport.outline ++ p.aliases.map Alias.outline ++
      p.classes.map ClassDef.outline ++ p.functions.map FunctionDecl.outline ++
      p.bad.map fun s => .leaf (.badDecl s))

/-- The outline of a node; a missing expression or block has none. -/
def Node.outline? : Node → Option Outline
  | .program p => some p.outline
  | .moduleImport i => some i.outline
  | .alias a => some a.outline
  | .classDef c => some c.outline
  | .propertyDecl p => some p.outline
  | .functionDecl f => some f.outline
  | .badDecl s => some (.leaf (.badDecl s))
  | .ident i => some i.outline
  | .name n => some n.outline
  | .param p => some p.outline
  | .binding b => some b.outline
  | .iri i => some i.outline
  | .block b => b.outline.head?
  | .stmt s => some s.outline
  | .typeRef t => some t.outline
  | .expr e => e.outline.head?
  | .generator g => some g.outline
  | .initializer i => some i.outline

/-- The number of placeholders in a node. -/
def Node.placeholders (n : Node) : Nat := (n.outline?.map Outline.placeholders).getD 0

end SemFront
