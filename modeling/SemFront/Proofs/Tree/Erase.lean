/-
Trees without their places. Two trees are equal up to spans if they are equal once all spans are
erased. The text of everything below a class does not depend on spans; that of classes and
programs does so only through the order of their parts.
-/
import SemFront.Tree.Print

namespace SemFront

/-! ## Erasing spans -/

def Ident.erase (i : Ident) : Ident := { i with span := {} }

theorem Ident.erase_eq {i j : Ident} (h : i.name = j.name) : i.erase = j.erase := by
  unfold Ident.erase
  rw [h]

def Name.erase (n : Name) : Name := { parts := n.parts.map Ident.erase }

def AbsoluteIri.erase (a : AbsoluteIri) : AbsoluteIri :=
  { scheme := a.scheme.map Ident.erase, domain := a.domain.map Ident.erase, path := a.path.map Ident.erase
    trailingSlash := a.trailingSlash, fragment := a.fragment.map Ident.erase }

def Generator.erase (g : Generator) : Generator :=
  { element := g.element.map Ident.erase, source := g.source.map Ident.erase }

mutual

def Expr.erase : Expr → Expr
  | .absent => .absent
  | .bad _ => .bad {}
  | .bool v _ => .bool v {}
  | .int t _ => .int t {}
  | .float t _ => .float t {}
  | .string v q _ => .string v q {}
  | .list es _ => .list (Expr.eraseAll es) {}
  | .comprehension x g c _ => .comprehension (x.map Ident.erase) (g.map Generator.erase) c.erase {}
  | .varRef n _ => .varRef (n.map Name.erase) {}
  | .not e _ => .not e.erase {}
  | .neg e _ => .neg e.erase {}
  | .binary op l r _ => .binary op l.erase r.erase {}
  | .call n es _ => .call (n.map Name.erase) (Expr.eraseAll es) {}
  | .paren e _ => .paren e.erase {}
  | .cast t e _ => .cast (t.map Ident.erase) e.erase {}
  | .construct t is _ => .construct (t.map Ident.erase) (Initializer.eraseAll is) {}

def Expr.eraseAll : List Expr → List Expr
  | [] => []
  | e :: es => e.erase :: Expr.eraseAll es

def Initializer.erase : Initializer → Initializer
  | .mk n v _ => .mk (n.map Ident.erase) v.erase {}

def Initializer.eraseAll : List Initializer → List Initializer
  | [] => []
  | i :: is => i.erase :: Initializer.eraseAll is

end

def TypeRef.erase : TypeRef → TypeRef
  | .named n isList _ => .named (n.map Ident.erase) isList {}
  | .bad _ => .bad {}

mutual

def Stmt.erase : Stmt → Stmt
  | .ifElse c yes no _ => .ifElse c.erase yes.erase no.erase {}
  | .whileLoop c b _ => .whileLoop c.erase b.erase {}
  | .withBlock c b _ => .withBlock c.erase b.erase {}
  | .varDecl n t e _ => .varDecl (n.map Ident.erase) (t.map TypeRef.erase) e.erase {}
  | .assign n e _ => .assign (n.map Name.erase) e.erase {}
  | .ret e _ => .ret e.erase {}
  | .expr e _ => .expr e.erase {}
  | .bad _ => .bad {}

def Block.erase : Block → Block
  | .absent => .absent
  | .mk ss _ => .mk (Stmt.eraseAll ss) {}

def Stmt.eraseAll : List Stmt → List Stmt
  | [] => []
  | s :: ss => s.erase :: Stmt.eraseAll ss

end

mutual

def Binding.erase : Binding → Binding
  | .leaf n p c _ => .leaf (n.map Ident.erase) (p.map Ident.erase) c.erase {}
  | .nested n p c bs _ => .nested (n.map Ident.erase) (p.map Ident.erase) c.erase (Binding.eraseAll bs) {}

def Binding.eraseAll : List Binding → List Binding
  | [] => []
  | b :: bs => b.erase :: Binding.eraseAll bs

end

def Param.erase : Param → Param
  | .simple n t c _ => .simple (n.map Ident.erase) (t.map Name.erase) c.erase {}
  | .destructuring n t bs _ => .destructuring (n.map Ident.erase) (t.map Name.erase) (Binding.eraseAll bs) {}
  | .bad _ => .bad {}

def FunctionDecl.erase (f : FunctionDecl) : FunctionDecl :=
  { name := f.name.map Name.erase, params := f.params.map Param.erase
    returnType := f.returnType.map Ident.erase, body := f.body.erase }

def PropertyDecl.erase (p : PropertyDecl) : PropertyDecl :=
  { name := p.name.map Ident.erase, type := p.type.map Ident.erase }

def ClassDef.erase (c : ClassDef) : ClassDef :=
  { name := c.name.map Ident.erase, properties := c.properties.map PropertyDecl.erase
    methods := c.methods.map FunctionDecl.erase, bad := c.bad.map fun _ => {} }

def ModuleImport.erase (i : ModuleImport) : ModuleImport := { names := i.names.map Ident.erase }

def Alias.erase (a : Alias) : Alias :=
  { name := a.name.map Ident.erase, target := a.target.map AbsoluteIri.erase }

def Program.erase (p : Program) : Program :=
  { imports := p.imports.map ModuleImport.erase, aliases := p.aliases.map Alias.erase
    classes := p.classes.map ClassDef.erase, functions := p.functions.map FunctionDecl.erase
    bad := p.bad.map fun _ => {} }

@[simp] theorem Expr.eraseAll_eq (es : List Expr) : Expr.eraseAll es = es.map Expr.erase := by
  induction es with
  | nil => simp [Expr.eraseAll]
  | cons e es ih => simp [Expr.eraseAll, ih]

@[simp] theorem Initializer.eraseAll_eq (is : List Initializer) :
    Initializer.eraseAll is = is.map Initializer.erase := by
  induction is with
  | nil => simp [Initializer.eraseAll]
  | cons i is ih => simp [Initializer.eraseAll, ih]

@[simp] theorem Stmt.eraseAll_eq (ss : List Stmt) : Stmt.eraseAll ss = ss.map Stmt.erase := by
  induction ss with
  | nil => simp [Stmt.eraseAll]
  | cons s ss ih => simp [Stmt.eraseAll, ih]

@[simp] theorem Binding.eraseAll_eq (bs : List Binding) : Binding.eraseAll bs = bs.map Binding.erase := by
  induction bs with
  | nil => simp [Binding.eraseAll]
  | cons b bs ih => simp [Binding.eraseAll, ih]

/-! ## Texts do not depend on spans -/

theorem Ident.text?_erase (i : Option Ident) : Ident.text? (i.map Ident.erase) = Ident.text? i := by
  cases i <;> rfl

theorem map_name_erase (is : List Ident) : (is.map Ident.erase).map (·.name) = is.map (·.name) := by
  induction is with
  | nil => rfl
  | cons i is ih => simp [Ident.erase] at ih ⊢

theorem Name.text?_erase (n : Option Name) : Name.text? (n.map Name.erase) = Name.text? n := by
  cases n with
  | none => rfl
  | some n => simp only [Option.map_some, Name.text?, Name.text, Name.erase, map_name_erase]

theorem AbsoluteIri.text_erase (a : AbsoluteIri) : a.erase.text = a.text := by
  unfold AbsoluteIri.text AbsoluteIri.erase
  rw [Ident.text?_erase, map_name_erase, List.map_map]
  cases a.fragment <;> rfl

theorem Generator.text_erase (g : Generator) : g.erase.text = g.text := by
  unfold Generator.text Generator.erase
  rw [Ident.text?_erase, Ident.text?_erase]

/-- The text of an optional expression; what is left out has none. -/
def Expr.optText : Expr → String
  | .absent => ""
  | e => e.text

theorem Expr.optText_erase {e : Expr} (h : e.erase.text = e.text) : e.erase.optText = e.optText := by
  cases e <;> first | rfl | exact h

mutual

theorem Expr.text_erase : ∀ e : Expr, e.erase.text = e.text
  | .absent => rfl
  | .bad _ => rfl
  | .bool _ _ => rfl
  | .int _ _ => rfl
  | .float _ _ => rfl
  | .string _ _ _ => rfl
  | .list es _ => by
    unfold Expr.erase Expr.text
    rw [Expr.texts_erase es]
  | .comprehension x g c _ => by
    unfold Expr.erase Expr.text
    rw [Ident.text?_erase, Expr.text_erase c]
    cases g with
    | none => rfl
    | some g => rw [Option.map_some, Option.map_some, Generator.text_erase]; rfl
  | .varRef n _ => by
    unfold Expr.erase Expr.text
    exact Name.text?_erase n
  | .not e _ => by
    unfold Expr.erase Expr.text
    rw [Expr.text_erase e]
  | .neg e _ => by
    unfold Expr.erase Expr.text
    exact congrArg negated (Expr.optText_erase (Expr.text_erase e))
  | .binary op l r _ => by
    unfold Expr.erase Expr.text
    rw [Expr.text_erase l, Expr.text_erase r]
  | .call n es _ => by
    unfold Expr.erase Expr.text
    rw [Name.text?_erase, Expr.texts_erase es]
  | .paren e _ => by
    unfold Expr.erase Expr.text
    rw [Expr.text_erase e]
  | .cast t e _ => by
    unfold Expr.erase Expr.text
    rw [Ident.text?_erase, Expr.text_erase e]
  | .construct t is _ => by
    unfold Expr.erase Expr.text
    rw [Ident.text?_erase, Initializer.texts_erase is]

theorem Expr.texts_erase : ∀ es : List Expr, Expr.texts (Expr.eraseAll es) = Expr.texts es
  | [] => rfl
  | e :: es => by
    unfold Expr.eraseAll Expr.texts
    rw [Expr.text_erase e, Expr.texts_erase es]

theorem Initializer.text_erase : ∀ i : Initializer, i.erase.text = i.text
  | .mk n v _ => by
    unfold Initializer.erase Initializer.text
    rw [Ident.text?_erase]
    exact congrArg _ (Expr.optText_erase (Expr.text_erase v))

theorem Initializer.texts_erase : ∀ is : List Initializer,
    Initializer.texts (Initializer.eraseAll is) = Initializer.texts is
  | [] => rfl
  | i :: is => by
    unfold Initializer.eraseAll Initializer.texts
    rw [Initializer.text_erase i, Initializer.texts_erase is]

end

theorem constraintText_erase (e : Expr) : constraintText e.erase = constraintText e := by
  have h := Expr.text_erase e
  cases e <;> first | rfl | exact congrArg (" | " ++ ·) h

theorem TypeRef.text_erase (t : TypeRef) : t.erase.text = t.text := by
  cases t with
  | bad s => rfl
  | named n isList s =>
    unfold TypeRef.erase TypeRef.text
    dsimp only
    rw [Ident.text?_erase]

mutual

theorem Stmt.text_erase (n : Nat) : ∀ s : Stmt, s.erase.text n = s.text n
  | .ifElse c yes no _ => by
    unfold Stmt.erase Stmt.text
    rw [Expr.text_erase c, Block.text_erase n yes]
    have h := Block.text_erase n no
    cases no <;> first | rfl | exact congrArg _ (congrArg (" else " ++ ·) h)
  | .whileLoop c b _ => by
    unfold Stmt.erase Stmt.text
    rw [Expr.text_erase c, Block.text_erase n b]
  | .withBlock c b _ => by
    unfold Stmt.erase Stmt.text
    rw [Expr.text_erase c, Block.text_erase n b]
  | .varDecl x t e _ => by
    unfold Stmt.erase Stmt.text
    have h := Expr.text_erase e
    rw [Ident.text?_erase]
    have ht : ((t.map TypeRef.erase).map TypeRef.text).getD hole = (t.map TypeRef.text).getD hole := by
      cases t with
      | none => rfl
      | some t => exact TypeRef.text_erase t
    rw [ht]
    cases e <;> first | rfl | exact congrArg _ (congrArg (" = " ++ ·) h)
  | .assign x e _ => by
    unfold Stmt.erase Stmt.text
    rw [Name.text?_erase, Expr.text_erase e]
  | .ret e _ => by
    unfold Stmt.erase Stmt.text
    rw [Expr.text_erase e]
  | .expr e _ => by
    unfold Stmt.erase Stmt.text
    rw [Expr.text_erase e]
  | .bad _ => rfl

theorem Block.text_erase (n : Nat) : ∀ b : Block, b.erase.text n = b.text n
  | .absent => rfl
  | .mk ss _ => by
    unfold Block.erase Block.text
    rw [Stmt.lines_erase (n + 1) ss]

theorem Stmt.lines_erase (n : Nat) : ∀ ss : List Stmt, Stmt.lines n (Stmt.eraseAll ss) = Stmt.lines n ss
  | [] => rfl
  | s :: ss => by
    unfold Stmt.eraseAll Stmt.lines
    rw [Stmt.text_erase n s, Stmt.lines_erase n ss]

end

mutual

theorem Binding.text_erase : ∀ b : Binding, b.erase.text = b.text
  | .leaf x p c _ => by
    unfold Binding.erase Binding.text
    rw [Ident.text?_erase, Ident.text?_erase, constraintText_erase]
  | .nested x p c bs _ => by
    unfold Binding.erase Binding.text
    rw [Ident.text?_erase, Ident.text?_erase, constraintText_erase, Binding.texts_erase bs]

theorem Binding.texts_erase : ∀ bs : List Binding, Binding.texts (Binding.eraseAll bs) = Binding.texts bs
  | [] => rfl
  | b :: bs => by
    unfold Binding.eraseAll Binding.texts
    rw [Binding.text_erase b, Binding.texts_erase bs]

end

theorem Param.text_erase (p : Param) : p.erase.text = p.text := by
  cases p with
  | simple x n c s =>
    unfold Param.erase Param.text
    dsimp only
    rw [Ident.text?_erase, Name.text?_erase, constraintText_erase]
  | destructuring x n bs s =>
    unfold Param.erase Param.text
    dsimp only
    rw [Ident.text?_erase, Name.text?_erase, Binding.texts_erase]
  | bad s => rfl

theorem FunctionDecl.text_erase (n : Nat) (f : FunctionDecl) : f.erase.text n = f.text n := by
  unfold FunctionDecl.erase FunctionDecl.text
  have h : (f.params.map Param.erase).map Param.text = f.params.map Param.text := by
    rw [List.map_map]
    exact List.map_congr_left fun p _ => Param.text_erase p
  rw [Name.text?_erase, h, Ident.text?_erase, Block.text_erase]

theorem PropertyDecl.text_erase (p : PropertyDecl) : p.erase.text = p.text := by
  unfold PropertyDecl.erase PropertyDecl.text
  rw [Ident.text?_erase, Ident.text?_erase]

theorem ModuleImport.text_erase (i : ModuleImport) : i.erase.text = i.text := by
  unfold ModuleImport.erase ModuleImport.text
  rw [map_name_erase]

theorem Alias.text_erase (a : Alias) : a.erase.text = a.text := by
  unfold Alias.erase Alias.text
  rw [Ident.text?_erase]
  cases a.target with
  | none => rfl
  | some t => rw [Option.map_some, Option.map_some, AbsoluteIri.text_erase]; rfl

end SemFront
