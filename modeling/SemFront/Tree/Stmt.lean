/-
Statements and blocks.
-/
import SemFront.Tree.Expr

namespace SemFront

/-- The type of a variable: a name, a list of a name, or a type that could not be read. -/
inductive TypeRef where
  | named (name : Option Ident) (isList : Bool) (span : Span)
  | bad (span : Span)
deriving DecidableEq, Repr

def TypeRef.span : TypeRef → Span
  | .named _ _ s => s
  | .bad s => s

mutual

/-- A statement; `bad` stands for one that could not be read. -/
inductive Stmt where
  | ifElse (condition : Expr) (yes no : Block) (span : Span)
  | whileLoop (condition : Expr) (body : Block) (span : Span)
  | withBlock (resource : Expr) (body : Block) (span : Span)
  | varDecl (name : Option Ident) (type : Option TypeRef) (init : Expr) (span : Span)
  | assign (target : Option Name) (value : Expr) (span : Span)
  | ret (value : Expr) (span : Span)
  | expr (value : Expr) (span : Span)
  | bad (span : Span)

/-- Statements between braces, or none where a block is left out. -/
inductive Block where
  | absent
  | mk (stmts : List Stmt) (span : Span)

end

instance : Inhabited Stmt := ⟨.bad {}⟩
instance : Inhabited Block := ⟨.absent⟩

/-- Where a statement stands. -/
def Stmt.span : Stmt → Span
  | .ifElse _ _ _ s | .whileLoop _ _ s | .withBlock _ _ s | .varDecl _ _ _ s | .assign _ _ s | .ret _ s
  | .expr _ s | .bad s => s

def Block.span : Block → Span
  | .absent => {}
  | .mk _ s => s

end SemFront
