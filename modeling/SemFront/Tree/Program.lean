/-
Declarations and programs.
-/
import SemFront.Tree.Stmt

namespace SemFront

/-- A part of a destructured value, `name: property`, on its own or destructured further. Each may
carry a constraint. -/
inductive Binding where
  | leaf (name property : Option Ident) (constraint : Expr) (span : Span)
  | nested (name property : Option Ident) (constraint : Expr) (bindings : List Binding) (span : Span)

def Binding.span : Binding → Span
  | .leaf _ _ _ s => s
  | .nested _ _ _ _ s => s

/-- How many blocks deep a binding goes; one that is not destructured further has depth 1. -/
def Binding.depth : Binding → Nat
  | .leaf .. => 1
  | .nested _ _ _ bs _ => depths bs + 1
where
  depths : List Binding → Nat
    | [] => 0
    | b :: bs => max b.depth (depths bs)

/-- A parameter; `bad` stands for one that could not be read. -/
inductive Param where
  | simple (name : Option Ident) (type : Option Name) (constraint : Expr) (span : Span)
  | destructuring (name : Option Ident) (type : Option Name) (bindings : List Binding) (span : Span)
  | bad (span : Span)

def Param.span : Param → Span
  | .simple _ _ _ s => s
  | .destructuring _ _ _ s => s
  | .bad s => s

/-- A function or a method, `name(params): Type { … }`. -/
structure FunctionDecl where
  name : Option Name := none
  params : List Param := []
  returnType : Option Ident := none
  body : Block := .absent
  span : Span := {}

/-- A property of a class, `name: Type;`. -/
structure PropertyDecl where
  name : Option Ident := none
  type : Option Ident := none
  span : Span := {}
deriving DecidableEq, Repr

/-- A class. Properties and methods each keep their order; `bad` are the parts of the body that
could not be read. -/
structure ClassDef where
  name : Option Ident := none
  properties : List PropertyDecl := []
  methods : List FunctionDecl := []
  bad : List Span := []
  span : Span := {}

/-- The import of some modules, `use a, b;`. -/
structure ModuleImport where
  names : List Ident := []
  span : Span := {}
deriving DecidableEq, Repr

/-- A name for an IRI, `alias name as scheme://host#;`. The target is missing if the IRI was not
absolute. -/
structure Alias where
  name : Option Ident := none
  target : Option AbsoluteIri := none
  span : Span := {}
deriving DecidableEq, Repr

/-- A whole source. Classes and functions each keep their order; `bad` are the declarations that
could not be read. -/
structure Program where
  imports : List ModuleImport := []
  aliases : List Alias := []
  classes : List ClassDef := []
  functions : List FunctionDecl := []
  bad : List Span := []
  span : Span := {}

instance : Inhabited Program := ⟨{}⟩

end SemFront
