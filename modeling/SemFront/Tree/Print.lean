/-
The canonical text of a tree. Missing parts and parts that could not be read are written as a
hole; reading the text of a tree without holes gives the tree back.
-/
import SemFront.Data.StableSort
import SemFront.Tree.Program

namespace SemFront

/-! ## Expressions -/

/-- The operand of a minus sign; a blank keeps a number from becoming part of the sign's token. -/
def negated (operand : String) : String :=
  match operand.toList.head? with
  | some c => if '0' ≤ c && c ≤ '9' then "- " ++ operand else "-" ++ operand
  | none => "-"

def Generator.text (g : Generator) : String :=
  Ident.text? g.element ++ " <- " ++ Ident.text? g.source

mutual

def Expr.text : Expr → String
  | .absent => hole
  | .bad _ => hole
  | .bool value _ => if value then "true" else "false"
  | .int text _ => text
  | .float text _ => text
  | .string value quote _ =>
    let q := (quote.getD '"').toString
    q ++ value ++ q
  | .list elems _ => "[" ++ String.intercalate ", " (Expr.texts elems) ++ "]"
  | .comprehension element generator constraint _ =>
    "[" ++ Ident.text? element ++ " | " ++ (generator.map Generator.text).getD "" ++ ", " ++
      constraint.text ++ "]"
  | .varRef name _ => Name.text? name
  | .not operand _ => "!" ++ operand.text
  | .neg operand _ => negated (match operand with | .absent => "" | e => e.text)
  | .binary op left right _ => left.text ++ " " ++ op.symbol ++ " " ++ right.text
  | .call name args _ => Name.text? name ++ "(" ++ String.intercalate ", " (Expr.texts args) ++ ")"
  | .paren inner _ => "(" ++ inner.text ++ ")"
  | .cast type operand _ => "(" ++ Ident.text? type ++ ") " ++ operand.text
  | .construct type inits _ =>
    "new " ++ Ident.text? type ++ "(" ++ String.intercalate ", " (Initializer.texts inits) ++ ")"

def Expr.texts : List Expr → List String
  | [] => []
  | e :: es => e.text :: Expr.texts es

def Initializer.text : Initializer → String
  | .mk name value _ =>
    Ident.text? name ++ " = " ++ (match value with | .absent => "" | e => e.text)

def Initializer.texts : List Initializer → List String
  | [] => []
  | i :: is => i.text :: Initializer.texts is

end

/-- A constraint behind what it constrains, if there is one. -/
def constraintText : Expr → String
  | .absent => ""
  | e => " | " ++ e.text

/-! ## Statements -/

/-- A new line, two blanks further in for each level. -/
def newline (indent : Nat) : String := "\n" ++ String.ofList (List.replicate (2 * indent) ' ')

def TypeRef.text : TypeRef → String
  | .bad _ => hole
  | .named name isList _ =>
    if isList then "list<" ++ Ident.text? name ++ ">" else Ident.text? name

mutual

def Stmt.text (indent : Nat) : Stmt → String
  | .ifElse condition yes no _ =>
    "if " ++ condition.text ++ " " ++ yes.text indent ++
      (match no with | .absent => "" | b => " else " ++ b.text indent)
  | .whileLoop condition body _ => "while " ++ condition.text ++ " " ++ body.text indent
  | .withBlock resource body _ => "with " ++ resource.text ++ " " ++ body.text indent
  | .varDecl name type init _ =>
    Ident.text? name ++ ": " ++ (type.map TypeRef.text).getD hole ++
      (match init with | .absent => "" | e => " = " ++ e.text)
  | .assign target value _ => Name.text? target ++ " = " ++ value.text
  | .ret value _ => "return " ++ value.text
  | .expr value _ => value.text
  | .bad _ => hole

def Block.text (indent : Nat) : Block → String
  | .absent => hole
  | .mk stmts _ => "\x7b" ++ Stmt.lines (indent + 1) stmts ++ newline indent ++ "\x7d"

/-- Statements one below the other. -/
def Stmt.lines (indent : Nat) : List Stmt → String
  | [] => ""
  | s :: ss => newline indent ++ s.text indent ++ ";" ++ Stmt.lines indent ss

end

/-! ## Declarations -/

mutual

def Binding.text : Binding → String
  | .leaf name property constraint _ =>
    Ident.text? name ++ ": " ++ Ident.text? property ++ constraintText constraint
  | .nested name property constraint bindings _ =>
    Ident.text? name ++ ": " ++ Ident.text? property ++ constraintText constraint ++
      " \x7b " ++ String.intercalate ", " (Binding.texts bindings) ++ " \x7d"

def Binding.texts : List Binding → List String
  | [] => []
  | b :: bs => b.text :: Binding.texts bs

end

def Param.text : Param → String
  | .simple name type constraint _ =>
    Ident.text? name ++ ": " ++ Name.text? type ++ constraintText constraint
  | .destructuring name type bindings _ =>
    Ident.text? name ++ ": " ++ Name.text? type ++
      " \x7b " ++ String.intercalate ", " (Binding.texts bindings) ++ " \x7d"
  | .bad _ => hole

def FunctionDecl.text (indent : Nat) (f : FunctionDecl) : String :=
  Name.text? f.name ++ "(" ++ String.intercalate ", " (f.params.map Param.text) ++ "): " ++
    Ident.text? f.returnType ++ " " ++ f.body.text indent ++ ";"

def PropertyDecl.text (p : PropertyDecl) : String :=
  Ident.text? p.name ++ ": " ++ Ident.text? p.type ++ ";"

/-- A member of a class. -/
inductive Member where
  | property (p : PropertyDecl)
  | method (m : FunctionDecl)

namespace Member

def span : Member → Span
  | .property p => p.span
  | .method m => m.span

def text (indent : Nat) : Member → String
  | .property p => p.text
  | .method m => m.text indent

end Member

namespace ClassDef

/-- The members in the order of the source. -/
def members (c : ClassDef) : List Member :=
  stableSort (fun a b => a.span.start < b.span.start)
    (c.properties.map .property ++ c.methods.map .method)

def text (indent : Nat) (c : ClassDef) : String :=
  "class " ++ Ident.text? c.name ++ " \x7b" ++
    String.join (c.members.map fun m => newline (indent + 1) ++ m.text (indent + 1)) ++
    newline indent ++ "\x7d"

end ClassDef

def ModuleImport.text (i : ModuleImport) : String :=
  "use " ++ String.intercalate ", " (i.names.map (·.name)) ++ ";"

def Alias.text (a : Alias) : String :=
  "alias " ++ Ident.text? a.name ++ " as " ++ (a.target.map AbsoluteIri.text).getD hole ++ ";"

/-- A class or a function of a program. -/
inductive Decl where
  | classDef (c : ClassDef)
  | function (f : FunctionDecl)

namespace Decl

def span : Decl → Span
  | .classDef c => c.span
  | .function f => f.span

def text : Decl → String
  | .classDef c => c.text 0
  | .function f => f.text 0

end Decl

namespace Program

/-- Classes and functions in the order of the source. -/
def decls (p : Program) : List Decl :=
  stableSort (fun a b => a.span.start < b.span.start)
    (p.classes.map .classDef ++ p.functions.map .function)

/-- A program: imports, aliases, then classes and functions, each on a new line. -/
def text (p : Program) : String :=
  String.intercalate "\n"
    (p.imports.map ModuleImport.text ++ p.aliases.map Alias.text ++ p.decls.map Decl.text)

end Program
end SemFront
