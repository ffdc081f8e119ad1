/-
Canonical trees: those whose text can be read back. Nothing required is missing or a placeholder,
names and literals are written as tokens of their kinds, lists that cannot be empty are not, the
operators of an expression nest as they bind, and what is kept in several lists but written in the
order of the source is in ascending order in each of them.
-/
import SemFront.Grammar.Expr
import SemFront.Proofs.Token.Lexeme
import SemFront.Tree.Program

namespace SemFront

/-! ## Names -/

def Ident.Canonical (i : Ident) : Prop := IsIdent i.name

instance (i : Ident) : Decidable i.Canonical := inferInstanceAs (Decidable (IsIdent i.name))

structure Name.Canonical (n : Name) : Prop where
  nonempty : n.parts ≠ []
  parts : ∀ i ∈ n.parts, i.Canonical

/-- The fragment of an IRI is missing, empty or a word. -/
def fragmentCanonical : Option Ident → Prop
  | none => True
  | some i => i.name = "" ∨ IsWord i.name

/-- The segments of a canonical IRI are words, reserved ones included. -/
structure AbsoluteIri.Canonical (a : AbsoluteIri) : Prop where
  scheme : ∃ i, a.scheme = some i ∧ IsWord i.name
  nonempty : a.domain ≠ []
  domain : ∀ i ∈ a.domain, IsWord i.name
  path : ∀ i ∈ a.path, IsWord i.name
  fragment : fragmentCanonical a.fragment

/-! ## Expressions -/

def Initializer.name : Initializer → Option Ident
  | .mk n _ _ => n

def Initializer.value : Initializer → Expr
  | .mk _ v _ => v

namespace Expr

def isBinary : Expr → Bool
  | .binary .. => true
  | _ => false

/-- How tightly the outermost operator of an expression binds. -/
def level : Expr → Nat
  | .binary op .. => op.level
  | _ => operandLevel

/-- Whether the text of an expression ends in a single identifier in parentheses. An expression
behind it would make a cast of the two. -/
def endsInParenName : Expr → Bool
  | .paren (.varRef (some n) _) _ => n.parts.length = 1
  | .binary _ _ r _ => r.endsInParenName
  | .not e _ => e.endsInParenName
  | .neg e _ => e.endsInParenName
  | .cast _ e _ => e.endsInParenName
  | _ => false

/-- An expression that can be written and read back. Left operands bind at least as tightly as the
operator, right ones more tightly; an operand of a sign, a negation or a cast has no operator. -/
inductive Canonical : Expr → Prop
  | bool {v : Bool} {s : Span} : Canonical (.bool v s)
  | int {t : String} {s : Span} : IsInt t → Canonical (.int t s)
  | float {t : String} {s : Span} : IsFloat t → Canonical (.float t s)
  | string {v : String} {q : Char} {s : Span} : IsQuote q → q ∉ v.toList → Canonical (.string v (some q) s)
  | list {es : List Expr} {s : Span} : (∀ e ∈ es, Canonical e) → Canonical (.list es s)
  | comprehension {x y z : Ident} {g s : Span} {c : Expr} : x.Canonical → y.Canonical → z.Canonical →
      Canonical c → Canonical (.comprehension (some x) (some ⟨some y, some z, g⟩) c s)
  | varRef {n : Name} {s : Span} : n.Canonical → Canonical (.varRef (some n) s)
  | not {e : Expr} {s : Span} : Canonical e → e.isBinary = false → Canonical (.not e s)
  | neg {e : Expr} {s : Span} : Canonical e → e.isBinary = false → Canonical (.neg e s)
  | binary {op : BinaryOp} {l r : Expr} {s : Span} : op ≠ .unknown → Canonical l → Canonical r →
      op.level ≤ l.level → op.level < r.level → (op = .sub → l.endsInParenName = false) →
      Canonical (.binary op l r s)
  | call {n : Name} {es : List Expr} {s : Span} : n.Canonical → (∀ e ∈ es, Canonical e) →
      Canonical (.call (some n) es s)
  | paren {e : Expr} {s : Span} : Canonical e → Canonical (.paren e s)
  | cast {t : Ident} {e : Expr} {s : Span} : t.Canonical → Canonical e → e.isBinary = false →
      Canonical (.cast (some t) e s)
  | construct {t : Ident} {is : List Initializer} {s : Span} : t.Canonical →
      (∀ i ∈ is, ∃ x, i.name = some x ∧ x.Canonical) → (∀ i ∈ is, Canonical i.value) →
      Canonical (.construct (some t) is s)

/-- An expression that is left out or canonical. -/
def Optional (e : Expr) : Prop := e = .absent ∨ e.Canonical

end Expr

/-! ## Statements -/

def TypeRef.Canonical : TypeRef → Prop
  | .named (some i) _ _ => i.Canonical
  | _ => False

inductive Stmt.Canonical : Stmt → Prop
  | ifThen {c : Expr} {ys : List Stmt} {t s : Span} : c.Canonical → (∀ y ∈ ys, Stmt.Canonical y) →
      Stmt.Canonical (.ifElse c (.mk ys t) .absent s)
  | ifElse {c : Expr} {ys ns : List Stmt} {t u s : Span} : c.Canonical → (∀ y ∈ ys, Stmt.Canonical y) →
      (∀ n ∈ ns, Stmt.Canonical n) → Stmt.Canonical (.ifElse c (.mk ys t) (.mk ns u) s)
  | whileLoop {c : Expr} {bs : List Stmt} {t s : Span} : c.Canonical → (∀ b ∈ bs, Stmt.Canonical b) →
      Stmt.Canonical (.whileLoop c (.mk bs t) s)
  | withBlock {c : Expr} {bs : List Stmt} {t s : Span} : c.Canonical → (∀ b ∈ bs, Stmt.Canonical b) →
      Stmt.Canonical (.withBlock c (.mk bs t) s)
  | varDecl {x : Ident} {t : TypeRef} {e : Expr} {s : Span} : x.Canonical → t.Canonical → e.Optional →
      Stmt.Canonical (.varDecl (some x) (some t) e s)
  | assign {n : Name} {e : Expr} {s : Span} : n.Canonical → e.Canonical → Stmt.Canonical (.assign (some n) e s)
  | ret {e : Expr} {s : Span} : e.Canonical → Stmt.Canonical (.ret e s)
  | expr {e : Expr} {s : Span} : e.Canonical → Stmt.Canonical (.expr e s)

/-- A block that is there and whose statements are canonical. -/
def Block.Canonical : Block → Prop
  | .absent => False
  | .mk ss _ => ∀ s ∈ ss, s.Canonical

/-! ## Declarations -/

/-- A canonical binding has a constraint or bindings of its own, never both. -/
inductive Binding.Canonical : Binding → Prop
  | leaf {x p : Ident} {c : Expr} {s : Span} : x.Canonical → p.Canonical → c.Optional →
      Binding.Canonical (.leaf (some x) (some p) c s)
  | nested {x p : Ident} {bs : List Binding} {s : Span} : x.Canonical → p.Canonical → bs ≠ [] →
      (∀ b ∈ bs, Binding.Canonical b) → Binding.Canonical (.nested (some x) (some p) .absent bs s)

inductive Param.Canonical : Param → Prop
  | simple {x : Ident} {n : Name} {c : Expr} {s : Span} : x.Canonical → n.Canonical → c.Optional →
      Param.Canonical (.simple (some x) (some n) c s)
  | destructuring {x : Ident} {n : Name} {bs : List Binding} {s : Span} : x.Canonical → n.Canonical → bs ≠ [] →
      (∀ b ∈ bs, b.Canonical) → Param.Canonical (.destructuring (some x) (some n) bs s)

structure FunctionDecl.Canonical (f : FunctionDecl) : Prop where
  name : ∃ n, f.name = some n ∧ n.Canonical
  params : ∀ p ∈ f.params, p.Canonical
  returnType : ∃ i, f.returnType = some i ∧ i.Canonical
  body : f.body.Canonical

structure PropertyDecl.Canonical (p : PropertyDecl) : Prop where
  name : ∃ i, p.name = some i ∧ i.Canonical
  type : ∃ i, p.type = some i ∧ i.Canonical

/-- Spans in the order of their starts. -/
def Ascending (ss : List Span) : Prop := ss.Pairwise fun s t => s.start ≤ t.start

structure ClassDef.Canonical (c : ClassDef) : Prop where
  name : ∃ i, c.name = some i ∧ i.Canonical
  properties : ∀ p ∈ c.properties, p.Canonical
  methods : ∀ m ∈ c.methods, m.Canonical
  bad : c.bad = []
  propertiesAscend : Ascending (c.properties.map (·.span))
  methodsAscend : Ascending (c.methods.map (·.span))

structure ModuleImport.Canonical (i : ModuleImport) : Prop where
  nonempty : i.names ≠ []
  names : ∀ n ∈ i.names, n.Canonical

structure Alias.Canonical (a : Alias) : Prop where
  name : ∃ i, a.name = some i ∧ i.Canonical
  target : ∃ t, a.target = some t ∧ t.Canonical

structure Program.Canonical (p : Program) : Prop where
  imports : ∀ i ∈ p.imports, i.Canonical
  aliases : ∀ a ∈ p.aliases, a.Canonical
  classes : ∀ c ∈ p.classes, c.Canonical
  functions : ∀ f ∈ p.functions, f.Canonical
  bad : p.bad = []
  classesAscend : Ascending (p.classes.map (·.span))
  functionsAscend : Ascending (p.functions.map (·.span))

/-! ## Small facts -/

theorem Expr.level_of_not_binary {e : Expr} (h : e.isBinary = false) : e.level = operandLevel := by
  cases e <;> first | rfl | cases h

theorem BinaryOp.level_lt (op : BinaryOp) : op.level < operandLevel := by
  cases op <;> decide

/-- Above the level of every operator stands what has none. -/
theorem Expr.isBinary_of_level {e : Expr} (h : operandLevel ≤ e.level) : e.isBinary = false := by
  cases e with
  | binary op l r s =>
    have := op.level_lt
    exact absurd h (by simpa [Expr.level] using this)
  | _ => rfl

end SemFront
