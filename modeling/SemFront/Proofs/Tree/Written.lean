/-
Trees as reading leaves them, whether all of the source could be read or not. Every name, number and
text in such a tree is one that can be written; what could not be read is a placeholder. A canonical
tree is a written one without placeholders.
-/
import SemFront.Proofs.Tree.Canonical

namespace SemFront

/-- What is known of the places that were given up, for each kind of unit. -/
structure Losses where
  stmt : Span → Prop
  param : Span → Prop
  member : Span → Prop
  decl : Span → Prop

/-! ## Expressions -/

/-- An expression as it is read. The operand of a cast has no operator of its own. -/
inductive Expr.Written : Expr → Prop
  | bad {s : Span} : Written (.bad s)
  | bool {v : Bool} {s : Span} : Written (.bool v s)
  | int {t : String} {s : Span} : IsInt t → Written (.int t s)
  | float {t : String} {s : Span} : IsFloat t → Written (.float t s)
  | string {v : String} {q : Char} {s : Span} : IsQuote q → q ∉ v.toList → Written (.string v (some q) s)
  | list {es : List Expr} {s : Span} : (∀ e ∈ es, Written e) → Written (.list es s)
  | comprehension {x y z : Ident} {g s : Span} {c : Expr} : x.Canonical → y.Canonical → z.Canonical →
      Written c → Written (.comprehension (some x) (some ⟨some y, some z, g⟩) c s)
  | varRef {n : Name} {s : Span} : n.Canonical → Written (.varRef (some n) s)
  | not {e : Expr} {s : Span} : Written e → Written (.not e s)
  | neg {e : Expr} {s : Span} : Written e → Written (.neg e s)
  | binary {op : BinaryOp} {l r : Expr} {s : Span} : op ≠ .unknown → Written l → Written r →
      Written (.binary op l r s)
  | call {n : Name} {es : List Expr} {s : Span} : n.Canonical → (∀ e ∈ es, Written e) →
      Written (.call (some n) es s)
  | paren {e : Expr} {s : Span} : Written e → Written (.paren e s)
  | cast {t : Ident} {e : Expr} {s : Span} : t.Canonical → Written e → e.isBinary = false →
      Written (.cast (some t) e s)
  | construct {t : Ident} {is : List Initializer} {s : Span} : t.Canonical →
      (∀ i ∈ is, ∃ x, i.name = some x ∧ x.Canonical) → (∀ i ∈ is, Written i.value) →
      Written (.construct (some t) is s)

/-- An expression that is left out or written. -/
def Expr.OptionalWritten (e : Expr) : Prop := e = .absent ∨ e.Written

theorem Expr.Canonical.written {e : Expr} (he : e.Canonical) : e.Written := by
  induction he with
  | bool => exact .bool
  | int ht => exact .int ht
  | float ht => exact .float ht
  | string hq hv => exact .string hq hv
  | list _ ih => exact .list ih
  | comprehension hx hy hz _ ih => exact .comprehension hx hy hz ih
  | varRef hn => exact .varRef hn
  | not _ _ ih => exact .not ih
  | neg _ _ ih => exact .neg ih
  | binary hop _ _ _ _ _ ihl ihr => exact .binary hop ihl ihr
  | call hn _ ih => exact .call hn ih
  | paren _ ih => exact .paren ih
  | cast ht _ hb ih => exact .cast ht ih hb
  | construct ht hn _ ih => exact .construct ht hn ih

theorem Expr.Optional.written {e : Expr} (he : e.Optional) : e.OptionalWritten := he.imp id Expr.Canonical.written

/-! ## Statements -/

def TypeRef.Written : TypeRef → Prop
  | .named (some i) _ _ => i.Canonical
  | .named none _ _ => False
  | .bad _ => True

theorem TypeRef.Canonical.written {t : TypeRef} (ht : t.Canonical) : t.Written := by
  rcases t with ⟨_ | i, l, s⟩ | s
  · exact ht
  · exact ht
  · trivial

variable {L : Losses}

inductive Stmt.Written (L : Losses) : Stmt → Prop
  | ifThen {c : Expr} {ys : List Stmt} {t s : Span} : c.Written → (∀ y ∈ ys, Stmt.Written L y) →
      Stmt.Written L (.ifElse c (.mk ys t) .absent s)
  | ifElse {c : Expr} {ys ns : List Stmt} {t u s : Span} : c.Written → (∀ y ∈ ys, Stmt.Written L y) →
      (∀ n ∈ ns, Stmt.Written L n) → Stmt.Written L (.ifElse c (.mk ys t) (.mk ns u) s)
  | whileLoop {c : Expr} {bs : List Stmt} {t s : Span} : c.Written → (∀ b ∈ bs, Stmt.Written L b) →
      Stmt.Written L (.whileLoop c (.mk bs t) s)
  | withBlock {c : Expr} {bs : List Stmt} {t s : Span} : c.Written → (∀ b ∈ bs, Stmt.Written L b) →
      Stmt.Written L (.withBlock c (.mk bs t) s)
  | varDecl {x : Ident} {t : TypeRef} {e : Expr} {s : Span} : x.Canonical → t.Written → e.OptionalWritten →
      Stmt.Written L (.varDecl (some x) (some t) e s)
  | assign {n : Name} {e : Expr} {s : Span} : n.Canonical → e.Written → Stmt.Written L (.assign (some n) e s)
  | ret {e : Expr} {s : Span} : e.Written → Stmt.Written L (.ret e s)
  | expr {e : Expr} {s : Span} : e.Written → Stmt.Written L (.expr e s)
  | bad {s : Span} : L.stmt s → Stmt.Written L (.bad s)

/-- A block that is there and whose statements are written. -/
def Block.Written (L : Losses) : Block → Prop
  | .absent => False
  | .mk ss _ => ∀ s ∈ ss, s.Written L

theorem Stmt.Canonical.written {s : Stmt} (hs : s.Canonical) : s.Written L := by
  induction hs with
  | ifThen hc _ ih => exact .ifThen hc.written ih
  | ifElse hc _ _ ihy ihn => exact .ifElse hc.written ihy ihn
  | whileLoop hc _ ih => exact .whileLoop hc.written ih
  | withBlock hc _ ih => exact .withBlock hc.written ih
  | varDecl hx ht he => exact .varDecl hx ht.written he.written
  | assign hn he => exact .assign hn he.written
  | ret he => exact .ret he.written
  | expr he => exact .expr he.written

theorem Block.Canonical.written {b : Block} (hb : b.Canonical) : b.Written L := by
  cases b with
  | absent => exact hb
  | mk ss s => exact fun st hst => (hb st hst).written

/-! ## Declarations -/

inductive Binding.Written : Binding → Prop
  | leaf {x p : Ident} {c : Expr} {s : Span} : x.Canonical → p.Canonical → c.OptionalWritten →
      Binding.Written (.leaf (some x) (some p) c s)
  | nested {x p : Ident} {bs : List Binding} {s : Span} : x.Canonical → p.Canonical →
      (∀ b ∈ bs, Binding.Written b) → Binding.Written (.nested (some x) (some p) .absent bs s)

inductive Param.Written (L : Losses) : Param → Prop
  | simple {x : Ident} {n : Name} {c : Expr} {s : Span} : x.Canonical → n.Canonical → c.OptionalWritten →
      Param.Written L (.simple (some x) (some n) c s)
  | destructuring {x : Ident} {n : Name} {bs : List Binding} {s : Span} : x.Canonical → n.Canonical →
      (∀ b ∈ bs, b.Written) → Param.Written L (.destructuring (some x) (some n) bs s)
  | bad {s : Span} : L.param s → Param.Written L (.bad s)

structure FunctionDecl.Written (L : Losses) (f : FunctionDecl) : Prop where
  name : ∃ n, f.name = some n ∧ n.Canonical
  params : ∀ p ∈ f.params, p.Written L
  returnType : ∃ i, f.returnType = some i ∧ i.Canonical
  body : f.body.Written L

structure ClassDef.Written (L : Losses) (c : ClassDef) : Prop where
  name : ∃ i, c.name = some i ∧ i.Canonical
  properties : ∀ p ∈ c.properties, p.Canonical
  methods : ∀ m ∈ c.methods, m.Written L
  bad : ∀ s ∈ c.bad, L.member s

/-- An alias as it is read; a target that is no absolute IRI is left out. -/
structure Alias.Written (a : Alias) : Prop where
  name : ∃ i, a.name = some i ∧ i.Canonical
  target : ∀ t ∈ a.target, t.Canonical

structure Program.Written (L : Losses) (p : Program) : Prop where
  imports : ∀ i ∈ p.imports, ∀ n ∈ i.names, n.Canonical
  aliases : ∀ a ∈ p.aliases, a.Written
  classes : ∀ c ∈ p.classes, c.Written L
  functions : ∀ f ∈ p.functions, f.Written L
  bad : ∀ s ∈ p.bad, L.decl s

theorem Binding.Canonical.written {b : Binding} (hb : b.Canonical) : b.Written := by
  induction hb with
  | leaf hx hp hc => exact .leaf hx hp hc.written
  | nested hx hp _ _ ih => exact .nested hx hp ih

theorem Param.Canonical.written {p : Param} (hp : p.Canonical) : p.Written L := by
  cases hp with
  | simple hx hn hc => exact .simple hx hn hc.written
  | destructuring hx hn _ hbs => exact .destructuring hx hn fun b hb => (hbs b hb).written

theorem FunctionDecl.Canonical.written {f : FunctionDecl} (hf : f.Canonical) : f.Written L where
  name := hf.name
  params p hp := (hf.params p hp).written
  returnType := hf.returnType
  body := hf.body.written

theorem ClassDef.Canonical.written {c : ClassDef} (hc : c.Canonical) : c.Written L where
  name := hc.name
  properties := hc.properties
  methods m hm := (hc.methods m hm).written
  bad s hs := by simp [hc.bad] at hs

theorem Alias.Canonical.written {a : Alias} (ha : a.Canonical) : a.Written where
  name := ha.name
  target t ht := by
    obtain ⟨u, hu, huc⟩ := ha.target
    rw [hu, Option.mem_some_iff] at ht
    exact ht ▸ huc

theorem Program.Canonical.written {p : Program} (hp : p.Canonical) : p.Written L where
  imports i hi := (hp.imports i hi).names
  aliases a ha := (hp.aliases a ha).written
  classes c hc := (hp.classes c hc).written
  functions f hf := (hp.functions f hf).written
  bad s hs := by simp [hp.bad] at hs

end SemFront
