/-
What the nodes of outlines have in common and what they add up to, by a property and by a weight of the
single node. Canonical trees are whole: every node of their outlines stands for something that was read,
so a visit meets no placeholder.
-/
import Mathlib.Algebra.BigOperators.Group.List.Basic
import SemFront.Proofs.Tree.Canonical
import SemFront.Tree.Node

namespace SemFront

/-- The outline of a property or a method. -/
def Member.outline : Member → Outline
  | .property p => p.outline
  | .method f => f.outline

/-- The outline of a class or a function. -/
def Decl.outline : Decl → Outline
  | .classDef c => c.outline
  | .function f => f.outline

/-! ## Nodes of outlines -/

theorem Outline.visitAll_eq (enter : Node → Bool) (os : List Outline) :
    visitAll enter os = os.flatMap (·.visit enter) := by
  induction os with
  | nil => rfl
  | cons o os ih => rw [visitAll, ih, List.flatMap_cons]

theorem Outline.nodes_mk (n : Node) (os : List Outline) : (mk n os).nodes = n :: os.flatMap nodes := by
  unfold nodes
  rw [visit, if_pos rfl, visitAll_eq]

section Every

variable {P : Node → Prop} {n : Node} {o : Outline} {os ps : List Outline}

/-- All nodes of an outline have a property. -/
def Outline.Every (P : Node → Prop) (o : Outline) : Prop := ∀ n ∈ o.nodes, P n

/-- All nodes of some outlines have a property. -/
def EveryOf (P : Node → Prop) (os : List Outline) : Prop := ∀ o ∈ os, o.Every P

@[simp] theorem everyOf_nil : EveryOf P [] := nofun

@[simp] theorem everyOf_cons : EveryOf P (o :: os) ↔ o.Every P ∧ EveryOf P os := List.forall_mem_cons

@[simp] theorem everyOf_append : EveryOf P (os ++ ps) ↔ EveryOf P os ∧ EveryOf P ps := List.forall_mem_append

@[simp] theorem everyOf_map {f : α → Outline} {xs : List α} : EveryOf P (xs.map f) ↔ ∀ x ∈ xs, (f x).Every P :=
  List.forall_mem_map

@[simp] theorem everyOf_flatMap {f : α → List Outline} {xs : List α} :
    EveryOf P (xs.flatMap f) ↔ ∀ x ∈ xs, EveryOf P (f x) := List.forall_mem_flatMap

@[simp] theorem Outline.every_mk : (mk n os).Every P ↔ P n ∧ EveryOf P os := by
  rw [Every, nodes_mk, List.forall_mem_cons, List.forall_mem_flatMap]
  rfl

end Every

section Total

variable {M : Type} [AddMonoid M] {w : Node → M} {n : Node} {o : Outline} {os ps : List Outline}

/-- What the nodes of some outlines add up to, by the weight of each. -/
def total (w : Node → M) (os : List Outline) : M := ((os.flatMap Outline.nodes).map w).sum

@[simp] theorem total_nil : total w [] = 0 := rfl

@[simp] theorem total_append : total w (os ++ ps) = total w os + total w ps := by
  rw [total, List.flatMap_append, List.map_append, List.sum_append, total, total]

theorem total_cons (o : Outline) (os : List Outline) : total w (o :: os) = total w [o] + total w os := by
  rw [← total_append, List.singleton_append]

@[simp] theorem total_mk : total w (.mk n os :: ps) = w n + total w os + total w ps := by
  rw [total_cons, total, List.flatMap_singleton, Outline.nodes_mk, List.map_cons, List.sum_cons]
  rfl

/-- A list whose elements a function leaves as heavy as they are. -/
theorem total_map_map {f : α → Outline} {g : α → α} {xs : List α}
    (h : ∀ x ∈ xs, total w [f (g x)] = total w [f x]) : total w ((xs.map g).map f) = total w (xs.map f) := by
  induction xs with
  | nil => rfl
  | cons x xs ih =>
    obtain ⟨hx, hxs⟩ := List.forall_mem_cons.1 h
    simp only [List.map_cons]
    rw [total_cons, hx, ih hxs, ← total_cons]

/-- Outlines that each weigh nothing. -/
theorem total_eq_zero (h : ∀ o ∈ os, total w [o] = 0) : total w os = 0 := by
  induction os with
  | nil => rfl
  | cons o os ih =>
    obtain ⟨ho, hos⟩ := List.forall_mem_cons.1 h
    rw [total_cons, ho, ih hos, add_zero]

end Total

/-! ## Outlines without placeholders -/

/-- The node stands for something that was read. -/
def Node.Read (n : Node) : Prop := n.isPlaceholder = false

/-- An outline has no placeholders. -/
abbrev Outline.Whole (o : Outline) : Prop := o.Every Node.Read

/-- No outline of a list has placeholders. -/
abbrev Whole (os : List Outline) : Prop := EveryOf Node.Read os

theorem Outline.placeholders_eq_zero {o : Outline} : o.placeholders = 0 ↔ o.Whole := by
  unfold placeholders
  simp only [List.countP_eq_zero, Bool.not_eq_true]
  rfl

/-! ## Names -/

@[simp] theorem Ident.whole_outline (i : Ident) : i.outline.Whole :=
  Outline.every_mk.2 ⟨rfl, everyOf_nil⟩

@[simp] theorem Ident.whole_outline? (i : Option Ident) : Whole (Ident.outline? i) := by simp [Ident.outline?]

@[simp] theorem Name.whole_outline (n : Name) : n.outline.Whole := by
  simp [Name.outline, Node.Read, Node.isPlaceholder]

@[simp] theorem Name.whole_outline? (n : Option Name) : Whole (Name.outline? n) := by simp [Name.outline?]

@[simp] theorem Iri.whole_outline (i : Iri) : i.outline.Whole := by
  cases i <;> simp [Iri.outline, Node.Read, Node.isPlaceholder]

@[simp] theorem Generator.whole_outline (g : Generator) : g.outline.Whole := by
  simp [Generator.outline, Node.Read, Node.isPlaceholder]

@[simp] theorem PropertyDecl.whole_outline (p : PropertyDecl) : p.outline.Whole := by
  simp [PropertyDecl.outline, Node.Read, Node.isPlaceholder]

@[simp] theorem ModuleImport.whole_outline (i : ModuleImport) : i.outline.Whole := by
  simp [ModuleImport.outline, Node.Read, Node.isPlaceholder]

@[simp] theorem Alias.whole_outline (a : Alias) : a.outline.Whole := by
  simp [Alias.outline, Node.Read, Node.isPlaceholder]

/-! ## Expressions and statements -/

theorem Expr.outlines_eq (es : List Expr) : Expr.outlines es = es.flatMap Expr.outline := by
  induction es with
  | nil => simp [Expr.outlines]
  | cons e es ih => simp [Expr.outlines, ih]

theorem Initializer.outlines_eq (is : List Initializer) : Initializer.outlines is = is.map Initializer.outline := by
  induction is with
  | nil => simp [Initializer.outlines]
  | cons i is ih => simp [Initializer.outlines, ih]

theorem Initializer.whole_outline {i : Initializer} (h : Whole i.value.outline) :
    i.outline.Whole := by
  cases i with
  | mk n v s => simpa [Initializer.outline, Initializer.value, Node.Read, Node.isPlaceholder] using h

theorem Expr.Canonical.whole {e : Expr} (h : e.Canonical) : Whole e.outline := by
  induction h with
  | bool | int _ | float _ | string _ _ => simp [Expr.outline, Outline.leaf, Node.Read, Node.isPlaceholder]
  | varRef _ => simp [Expr.outline, Node.Read, Node.isPlaceholder]
  | list _ ih => simpa [Expr.outline, Expr.outlines_eq, Node.Read, Node.isPlaceholder] using ih
  | call _ _ ih => simpa [Expr.outline, Expr.outlines_eq, Node.Read, Node.isPlaceholder] using ih
  | comprehension _ _ _ _ ih | paren _ ih | not _ _ ih | neg _ _ ih | cast _ _ _ ih =>
    simpa [Expr.outline, Node.Read, Node.isPlaceholder] using ih
  | binary _ _ _ _ _ _ ihl ihr => simpa [Expr.outline, Node.Read, Node.isPlaceholder] using ⟨ihl, ihr⟩
  | construct _ _ _ ih =>
    simpa [Expr.outline, Initializer.outlines_eq, Node.Read, Node.isPlaceholder] using
      fun i hi => Initializer.whole_outline (ih i hi)

theorem Expr.Optional.whole {e : Expr} (h : e.Optional) : Whole e.outline := by
  rcases h with rfl | h
  · simp [Expr.outline]
  · exact h.whole

theorem TypeRef.Canonical.whole {t : TypeRef} (h : t.Canonical) : t.outline.Whole := by
  cases t with
  | named n l s => simp [TypeRef.outline, Node.Read, Node.isPlaceholder]
  | bad s => exact h.elim

theorem Stmt.outlines_eq (ss : List Stmt) : Stmt.outlines ss = ss.map Stmt.outline := by
  induction ss with
  | nil => simp [Stmt.outlines]
  | cons s ss ih => simp [Stmt.outlines, ih]

theorem Block.whole_outline {ss : List Stmt} {s : Span} (h : ∀ st ∈ ss, st.outline.Whole) :
    Whole (Block.mk ss s).outline := by
  simpa [Block.outline, Stmt.outlines_eq, Node.Read, Node.isPlaceholder] using h

theorem Stmt.Canonical.whole {st : Stmt} (h : st.Canonical) : st.outline.Whole := by
  induction h with
  | ifThen hc _ ih =>
    simpa [Stmt.outline, Node.Read, Node.isPlaceholder] using
      ⟨hc.whole, Block.whole_outline ih, by simp [Block.outline]⟩
  | ifElse hc _ _ ihy ihn =>
    simpa [Stmt.outline, Node.Read, Node.isPlaceholder] using
      ⟨hc.whole, Block.whole_outline ihy, Block.whole_outline ihn⟩
  | whileLoop hc _ ih | withBlock hc _ ih =>
    simpa [Stmt.outline, Node.Read, Node.isPlaceholder] using ⟨hc.whole, Block.whole_outline ih⟩
  | varDecl _ ht he => simpa [Stmt.outline, Node.Read, Node.isPlaceholder] using ⟨ht.whole, he.whole⟩
  | assign _ he | ret he | expr he => simpa [Stmt.outline, Node.Read, Node.isPlaceholder] using he.whole

theorem Block.Canonical.whole {b : Block} (h : b.Canonical) : Whole b.outline := by
  cases b with
  | absent => exact h.elim
  | mk ss s => exact Block.whole_outline fun st hst => (h st hst).whole

/-! ## Declarations -/

theorem Binding.outlines_eq (bs : List Binding) : Binding.outlines bs = bs.map Binding.outline := by
  induction bs with
  | nil => simp [Binding.outlines]
  | cons b bs ih => simp [Binding.outlines, ih]

theorem Binding.Canonical.whole {b : Binding} (h : b.Canonical) : b.outline.Whole := by
  induction h with
  | leaf _ _ hc => simpa [Binding.outline, Node.Read, Node.isPlaceholder] using hc.whole
  | nested _ _ _ _ ih =>
    simpa [Binding.outline, Binding.outlines_eq, Expr.outline, Node.Read, Node.isPlaceholder] using ih

theorem Param.Canonical.whole {p : Param} (h : p.Canonical) : p.outline.Whole := by
  cases h with
  | simple _ _ hc => simpa [Param.outline, Node.Read, Node.isPlaceholder] using hc.whole
  | destructuring _ _ _ hb =>
    simpa [Param.outline, Binding.outlines_eq, Node.Read, Node.isPlaceholder] using fun b h => (hb b h).whole

theorem FunctionDecl.Canonical.whole {f : FunctionDecl} (h : f.Canonical) : f.outline.Whole := by
  simpa [FunctionDecl.outline, Node.Read, Node.isPlaceholder] using ⟨fun p hp => (h.params p hp).whole, h.body.whole⟩

theorem ClassDef.Canonical.whole {c : ClassDef} (h : c.Canonical) : c.outline.Whole := by
  simpa [ClassDef.outline, h.bad, Node.Read, Node.isPlaceholder] using fun m hm => (h.methods m hm).whole

/-- A canonical program has no placeholders, and its aliases have targets. -/
theorem Program.Canonical.placeholders {p : Program} (h : p.Canonical) :
    p.outline.placeholders = 0 ∧ ∀ a ∈ p.aliases, a.target ≠ none := by
  constructor
  · rw [Outline.placeholders_eq_zero]
    simpa [Program.outline, h.bad, Node.Read, Node.isPlaceholder] using
      ⟨fun c hc => (h.classes c hc).whole, fun f hf => (h.functions f hf).whole⟩
  · intro a ha
    obtain ⟨t, ht, -⟩ := (h.aliases a ha).target
    rw [ht]
    exact Option.some_ne_none t

end SemFront
