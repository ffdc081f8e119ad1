/-
Expressions.
-/
import SemFront.Tree.Name

namespace SemFront

/-- Binary operators; `unknown` has no written form. -/
inductive BinaryOp where
  | lt | gt | leq | geq | and | add | sub | mul | div | unknown
deriving DecidableEq, Repr, Inhabited

namespace BinaryOp

def tag : BinaryOp → String
  | .lt => "LT"
  | .gt => "GT"
  | .leq => "LEQ"
  | .geq => "GEQ"
  | .and => "AND"
  | .add => "ADD"
  | .sub => "SUB"
  | .mul => "MUL"
  | .div => "DIV"
  | .unknown => "BinaryOperator(?)"

def symbol : BinaryOp → String
  | .lt => "<"
  | .gt => ">"
  | .leq => "<="
  | .geq => ">="
  | .and => "&&"
  | .add => "+"
  | .sub => "-"
  | .mul => "*"
  | .div => "/"
  | .unknown => ""

/-- How tightly an operator binds; a higher level binds tighter. -/
def level : BinaryOp → Nat
  | .div => 1
  | .mul => 2
  | .sub => 3
  | .add => 4
  | .and => 5
  | .geq => 6
  | .leq => 7
  | .gt => 8
  | .lt => 9
  | .unknown => 0

def all : List BinaryOp := [.lt, .gt, .leq, .geq, .and, .add, .sub, .mul, .div]

/-- The operator with a tag; any other tag is the unknown operator. -/
def ofTag (tag : String) : BinaryOp := (all.find? (·.tag = tag)).getD .unknown

end BinaryOp

/-- Where the elements of a comprehension come from, `element <- source`. -/
structure Generator where
  element : Option Ident := none
  source : Option Ident := none
  span : Span := {}
deriving DecidableEq, Repr, Inhabited

mutual

/-- An expression. `absent` stands where an optional part is left out or a tree is incomplete;
`bad` where an expression could not be read. A string keeps its quote, if it has one. -/
inductive Expr where
  | absent
  | bad (span : Span)
  | bool (value : Bool) (span : Span)
  | int (text : String) (span : Span)
  | float (text : String) (span : Span)
  | string (value : String) (quote : Option Char) (span : Span)
  | list (elems : List Expr) (span : Span)
  | comprehension (element : Option Ident) (generator : Option Generator) (constraint : Expr)
      (span : Span)
  | varRef (name : Option Name) (span : Span)
  | not (operand : Expr) (span : Span)
  | neg (operand : Expr) (span : Span)
  | binary (op : BinaryOp) (left right : Expr) (span : Span)
  | call (name : Option Name) (args : List Expr) (span : Span)
  | paren (inner : Expr) (span : Span)
  | cast (type : Option Ident) (operand : Expr) (span : Span)
  | construct (type : Option Ident) (inits : List Initializer) (span : Span)

/-- A property of a new instance with its value, `name = value`. -/
inductive Initializer where
  | mk (name : Option Ident) (value : Expr) (span : Span)

end

instance : Inhabited Expr := ⟨.absent⟩

namespace Expr

/-- Where an expression stands. -/
def span : Expr → Span
  | .absent => {}
  | .bad s | .bool _ s | .int _ s | .float _ s | .string _ _ s | .list _ s | .comprehension _ _ _ s
  | .varRef _ s | .not _ s | .neg _ s | .binary _ _ _ s | .call _ _ s | .paren _ s | .cast _ _ s
  | .construct _ _ s => s

end Expr

def Initializer.span : Initializer → Span
  | .mk _ _ s => s

end SemFront
