/-
The number of placeholders of a tree does not depend on places: it is that of the tree with all spans
erased.
-/
import Mathlib.Algebra.GroupWithZero.Nat
import SemFront.Proofs.Tree.Erase
import SemFront.Proofs.Tree.Outline

namespace SemFront

/-- What a node adds to the placeholders. -/
def Node.holes (n : Node) : Nat := if n.isPlaceholder then 1 else 0

theorem Outline.placeholders_eq (o : Outline) : o.placeholders = total Node.holes [o] := by
  unfold placeholders total
  rw [List.flatMap_singleton]
  induction o.nodes with
  | nil => rfl
  | cons n ns ih => rw [List.countP_cons, ih, List.map_cons, List.sum_cons, Nat.add_comm, Node.holes]

theorem total_holes_eq_zero {os : List Outline} (h : Whole os) : total Node.holes os = 0 := by
  refine total_eq_zero fun o ho => ?_
  rw [← Outline.placeholders_eq]
  exact Outline.placeholders_eq_zero.2 (h o ho)

/-! ## Names -/

@[simp] theorem Ident.holes_outline? (i : Option Ident) : total Node.holes (Ident.outline? i) = 0 :=
  total_holes_eq_zero (Ident.whole_outline? i)

@[simp] theorem Name.holes_outline? (n : Option Name) : total Node.holes (Name.outline? n) = 0 :=
  total_holes_eq_zero (Name.whole_outline? n)

@[simp] theorem Generator.holes_outline (g : Option Generator) :
    total Node.holes (g.toList.map Generator.outline) = 0 := total_holes_eq_zero (by simp)

/-! ## Expressions -/

mutual

theorem Expr.placeholders_erase : ∀ e : Expr, total Node.holes e.erase.outline = total Node.holes e.outline
  | .absent => rfl
  | .bad _ => rfl
  | .bool _ _ => rfl
  | .int _ _ => rfl
  | .float _ _ => rfl
  | .string _ _ _ => rfl
  | .list es _ => by
    simp [Expr.erase, Expr.outline, Node.holes, Node.isPlaceholder, ← Expr.placeholders_eraseAll es]
  | .comprehension _ _ c _ => by
    simp [Expr.erase, Expr.outline, Node.holes, Node.isPlaceholder, Expr.placeholders_erase c]
  | .varRef _ _ => by simp [Expr.erase, Expr.outline, Node.holes, Node.isPlaceholder]
  | .not e _ => by
    simp [Expr.erase, Expr.outline, Node.holes, Node.isPlaceholder, Expr.placeholders_erase e]
  | .neg e _ => by
    simp [Expr.erase, Expr.outline, Node.holes, Node.isPlaceholder, Expr.placeholders_erase e]
  | .binary _ l r _ => by
    simp [Expr.erase, Expr.outline, Node.holes, Node.isPlaceholder, Expr.placeholders_erase l,
      Expr.placeholders_erase r]
  | .call _ es _ => by
    simp [Expr.erase, Expr.outline, Node.holes, Node.isPlaceholder, ← Expr.placeholders_eraseAll es]
  | .paren e _ => by
    simp [Expr.erase, Expr.outline, Node.holes, Node.isPlaceholder, Expr.placeholders_erase e]
  | .cast _ e _ => by
    simp [Expr.erase, Expr.outline, Node.holes, Node.isPlaceholder, Expr.placeholders_erase e]
  | .construct _ is _ => by
    simp [Expr.erase, Expr.outline, Node.holes, Node.isPlaceholder, ← Initializer.placeholders_eraseAll is]

theorem Expr.placeholders_eraseAll : ∀ es : List Expr,
    total Node.holes (Expr.outlines (Expr.eraseAll es)) = total Node.holes (Expr.outlines es)
  | [] => rfl
  | e :: es => by
    rw [Expr.eraseAll, Expr.outlines, Expr.outlines, total_append, total_append,
      Expr.placeholders_erase e, Expr.placeholders_eraseAll es]

theorem Initializer.placeholders_erase : ∀ i : Initializer,
    total Node.holes [i.erase.outline] = total Node.holes [i.outline]
  | .mk _ v _ => by
    simp [Initializer.erase, Initializer.outline, Node.holes, Node.isPlaceholder, Expr.placeholders_erase v]

theorem Initializer.placeholders_eraseAll : ∀ is : List Initializer,
    total Node.holes (Initializer.outlines (Initializer.eraseAll is)) = total Node.holes (Initializer.outlines is)
  | [] => rfl
  | i :: is => by
    rw [Initializer.eraseAll, Initializer.outlines, Initializer.outlines, total_cons i.erase.outline,
      total_cons i.outline, Initializer.placeholders_erase i, Initializer.placeholders_eraseAll is]

end

/-! ## Statements -/

theorem TypeRef.placeholders_erase (t : TypeRef) :
    total Node.holes [t.erase.outline] = total Node.holes [t.outline] := by
  cases t with
  | named n l s => simp [TypeRef.erase, TypeRef.outline, Node.holes, Node.isPlaceholder]
  | bad s => rfl

theorem TypeRef.placeholders_erase? (t : Option TypeRef) :
    total Node.holes ((t.map TypeRef.erase).toList.map TypeRef.outline) =
      total Node.holes (t.toList.map TypeRef.outline) := by
  cases t with
  | none => rfl
  | some t => simp [TypeRef.placeholders_erase t]

mutual

theorem Stmt.placeholders_erase : ∀ s : Stmt, total Node.holes [s.erase.outline] = total Node.holes [s.outline]
  | .ifElse c yes no _ => by
    simp [Stmt.erase, Stmt.outline, Node.holes, Node.isPlaceholder, Expr.placeholders_erase c,
      Block.placeholders_erase yes, Block.placeholders_erase no]
  | .whileLoop c b _ => by
    simp [Stmt.erase, Stmt.outline, Node.holes, Node.isPlaceholder, Expr.placeholders_erase c,
      Block.placeholders_erase b]
  | .withBlock c b _ => by
    simp [Stmt.erase, Stmt.outline, Node.holes, Node.isPlaceholder, Expr.placeholders_erase c,
      Block.placeholders_erase b]
  | .varDecl _ t e _ => by
    have ht := TypeRef.placeholders_erase? t
    simp [Stmt.erase, Stmt.outline, Node.holes, Node.isPlaceholder, Expr.placeholders_erase e] at ht ⊢
    exact ht
  | .assign _ e _ => by
    simp [Stmt.erase, Stmt.outline, Node.holes, Node.isPlaceholder, Expr.placeholders_erase e]
  | .ret e _ => by
    simp [Stmt.erase, Stmt.outline, Node.holes, Node.isPlaceholder, Expr.placeholders_erase e]
  | .expr e _ => by
    simp [Stmt.erase, Stmt.outline, Node.holes, Node.isPlaceholder, Expr.placeholders_erase e]
  | .bad _ => rfl

theorem Block.placeholders_erase : ∀ b : Block, total Node.holes b.erase.outline = total Node.holes b.outline
  | .absent => rfl
  | .mk ss _ => by
    simp [Block.erase, Block.outline, Node.holes, Node.isPlaceholder, ← Stmt.placeholders_eraseAll ss]

theorem Stmt.placeholders_eraseAll : ∀ ss : List Stmt,
    total Node.holes (Stmt.outlines (Stmt.eraseAll ss)) = total Node.holes (Stmt.outlines ss)
  | [] => rfl
  | s :: ss => by
    rw [Stmt.eraseAll, Stmt.outlines, Stmt.outlines, total_cons s.erase.outline,
      total_cons s.outline, Stmt.placeholders_erase s, Stmt.placeholders_eraseAll ss]

end

/-! ## Declarations -/

mutual

theorem Binding.placeholders_erase : ∀ b : Binding, total Node.holes [b.erase.outline] = total Node.holes [b.outline]
  | .leaf _ _ c _ => by
    simp [Binding.erase, Binding.outline, Node.holes, Node.isPlaceholder, Expr.placeholders_erase c]
  | .nested _ _ c bs _ => by
    simp [Binding.erase, Binding.outline, Node.holes, Node.isPlaceholder, Expr.placeholders_erase c,
      ← Binding.placeholders_eraseAll bs]

theorem Binding.placeholders_eraseAll : ∀ bs : List Binding,
    total Node.holes (Binding.outlines (Binding.eraseAll bs)) = total Node.holes (Binding.outlines bs)
  | [] => rfl
  | b :: bs => by
    rw [Binding.eraseAll, Binding.outlines, Binding.outlines, total_cons b.erase.outline, total_cons b.outline,
      Binding.placeholders_erase b, Binding.placeholders_eraseAll bs]

end

theorem Param.placeholders_erase (p : Param) : total Node.holes [p.erase.outline] = total Node.holes [p.outline] := by
  cases p with
  | simple x n c s =>
    simp [Param.erase, Param.outline, Node.holes, Node.isPlaceholder, Expr.placeholders_erase c]
  | destructuring x n bs s =>
    simp [Param.erase, Param.outline, Node.holes, Node.isPlaceholder, ← Binding.placeholders_eraseAll bs]
  | bad s => rfl

theorem FunctionDecl.placeholders_erase (f : FunctionDecl) :
    total Node.holes [f.erase.outline] = total Node.holes [f.outline] := by
  unfold FunctionDecl.outline
  simp only [total_mk, total_nil, total_append, Node.holes, Node.isPlaceholder, Bool.false_eq_true, ↓reduceIte,
    Ident.holes_outline?, Name.holes_outline?]
  unfold FunctionDecl.erase
  rw [total_map_map fun p _ => Param.placeholders_erase p, Block.placeholders_erase]

/-- Placeholders of declarations are one each, wherever they stand. -/
theorem holes_bad (bad : List Span) :
    total Node.holes (bad.map fun s => .leaf (.badDecl s)) = bad.length := by
  induction bad with
  | nil => rfl
  | cons s bad ih =>
    rw [List.map_cons, total_cons, ih, List.length_cons, Nat.add_comm]
    rfl

theorem ClassDef.placeholders_erase (c : ClassDef) :
    total Node.holes [c.erase.outline] = total Node.holes [c.outline] := by
  have hp : ∀ p : PropertyDecl, total Node.holes [p.outline] = 0 := fun p => total_holes_eq_zero (by simp)
  unfold ClassDef.outline
  simp only [total_mk, total_nil, total_append, Node.holes, Node.isPlaceholder, Bool.false_eq_true, ↓reduceIte,
    Ident.holes_outline?, holes_bad]
  unfold ClassDef.erase
  rw [total_map_map fun p _ => (hp p.erase).trans (hp p).symm,
    total_map_map fun m _ => FunctionDecl.placeholders_erase m, List.length_map]

/-- A program has as many placeholders as without its spans. -/
theorem Program.placeholders_erase (p : Program) : p.erase.outline.placeholders = p.outline.placeholders := by
  have hi : ∀ i : ModuleImport, total Node.holes [i.outline] = 0 := fun i => total_holes_eq_zero (by simp)
  have ha : ∀ a : Alias, total Node.holes [a.outline] = 0 := fun a => total_holes_eq_zero (by simp)
  rw [Outline.placeholders_eq, Outline.placeholders_eq]
  unfold Program.outline
  simp only [total_mk, total_nil, total_append, Node.holes, Node.isPlaceholder, Bool.false_eq_true, ↓reduceIte,
    holes_bad]
  unfold Program.erase
  rw [total_map_map fun i _ => (hi i.erase).trans (hi i).symm,
    total_map_map fun a _ => (ha a.erase).trans (ha a).symm,
    total_map_map fun c _ => ClassDef.placeholders_erase c,
    total_map_map fun f _ => FunctionDecl.placeholders_erase f, List.length_map]

end SemFront
