/-
Every placeholder for a statement, a parameter, a member or a declaration in what is read from a source
is accounted for: it stands where reading gave up, and its span covers what was given up as far as
`Rule.losses` says.
-/
import SemFront.Proofs.Tree.Outline
import SemFront.Proofs.Written.Program

namespace SemFront

variable {L : Losses}

/-- What is known of a node that stands for something given up. -/
def Node.Accounted (L : Losses) : Node → Prop
  | .stmt (.bad span) => L.stmt span
  | .param (.bad span) => L.param span
  | .badDecl span => L.member span ∨ L.decl span
  | _ => True

/-! ## Outlines whose nodes are accounted for -/

/-- All nodes of an outline are accounted for. -/
abbrev Outline.Accounted (L : Losses) (o : Outline) : Prop := o.Every (Node.Accounted L)

/-- All nodes of some outlines are accounted for. -/
abbrev AllAccounted (L : Losses) (os : List Outline) : Prop := EveryOf (Node.Accounted L) os

/-- Nothing is asked of a node that was read. -/
theorem Node.Read.accounted {n : Node} (h : n.Read) : n.Accounted L := by
  cases n with
  | badDecl s => cases h
  | stmt st =>
    cases st with
    | bad s => cases h
    | _ => trivial
  | param p =>
    cases p with
    | bad s => cases h
    | _ => trivial
  | _ => trivial

theorem Outline.Whole.accounted {o : Outline} (h : o.Whole) : o.Accounted L := fun n hn => (h n hn).accounted

/-! ## Names -/

@[simp] theorem Ident.allAccounted_outline? (i : Option Ident) : AllAccounted L (Ident.outline? i) :=
  fun o ho => Outline.Whole.accounted (Ident.whole_outline? i o ho)

@[simp] theorem Name.allAccounted_outline? (n : Option Name) : AllAccounted L (Name.outline? n) :=
  fun o ho => Outline.Whole.accounted (Name.whole_outline? n o ho)

@[simp] theorem Generator.accounted_outline (g : Generator) : g.outline.Accounted L := g.whole_outline.accounted

@[simp] theorem PropertyDecl.accounted_outline (p : PropertyDecl) : p.outline.Accounted L := p.whole_outline.accounted

@[simp] theorem ModuleImport.accounted_outline (i : ModuleImport) : i.outline.Accounted L := i.whole_outline.accounted

@[simp] theorem Alias.accounted_outline (a : Alias) : a.outline.Accounted L := a.whole_outline.accounted

/-! ## Expressions and statements -/

theorem Expr.Written.accounted {e : Expr} (he : e.Written) : AllAccounted L e.outline := by
  induction he with
  | bad | bool | int _ | float _ | string _ _ => simp [Expr.outline, Outline.leaf, Node.Accounted]
  | varRef _ => simp [Expr.outline, Node.Accounted]
  | list _ ih => simpa [Expr.outline, Expr.outlines_eq, Node.Accounted] using ih
  | call _ _ ih => simpa [Expr.outline, Expr.outlines_eq, Node.Accounted] using ih
  | comprehension _ _ _ _ ih | paren _ ih | not _ ih | neg _ ih | cast _ _ _ ih =>
    simpa [Expr.outline, Node.Accounted] using ih
  | binary _ _ _ ihl ihr => simpa [Expr.outline, Node.Accounted] using ⟨ihl, ihr⟩
  | @construct t is s _ _ _ ih =>
    have hi : ∀ i ∈ is, i.outline.Accounted L := by
      intro i hi
      have hv := ih i hi
      cases i with
      | mk n v s => simpa [Initializer.outline, Initializer.value, Node.Accounted] using hv
    simpa [Expr.outline, Initializer.outlines_eq, Node.Accounted] using hi

theorem Expr.OptionalWritten.accounted {e : Expr} (he : e.OptionalWritten) : AllAccounted L e.outline := by
  rcases he with rfl | he
  · simp [Expr.outline]
  · exact he.accounted

theorem Block.allAccounted_outline {ss : List Stmt} {s : Span} (h : ∀ st ∈ ss, st.outline.Accounted L) :
    AllAccounted L (Block.mk ss s).outline := by
  simpa [Block.outline, Stmt.outlines_eq, Node.Accounted] using h

theorem Stmt.Written.accounted {st : Stmt} (h : st.Written L) : st.outline.Accounted L := by
  induction h with
  | ifThen hc _ ih =>
    simpa [Stmt.outline, Node.Accounted] using ⟨hc.accounted, Block.allAccounted_outline ih, by simp [Block.outline]⟩
  | ifElse hc _ _ ihy ihn =>
    simpa [Stmt.outline, Node.Accounted] using
      ⟨hc.accounted, Block.allAccounted_outline ihy, Block.allAccounted_outline ihn⟩
  | whileLoop hc _ ih | withBlock hc _ ih =>
    simpa [Stmt.outline, Node.Accounted] using ⟨hc.accounted, Block.allAccounted_outline ih⟩
  | @varDecl x t e s _ _ he =>
    have ht : t.outline.Accounted L := by cases t <;> simp [TypeRef.outline, Outline.leaf, Node.Accounted]
    simpa [Stmt.outline, Node.Accounted] using ⟨ht, he.accounted⟩
  | assign _ he | ret he | expr he => simpa [Stmt.outline, Node.Accounted] using he.accounted
  | bad hs => simpa [Stmt.outline, Outline.leaf, Node.Accounted] using hs

/-! ## Declarations -/

theorem Binding.Written.accounted {b : Binding} (h : b.Written) : b.outline.Accounted L := by
  induction h with
  | leaf _ _ hc => simpa [Binding.outline, Node.Accounted] using hc.accounted
  | nested _ _ _ ih => simpa [Binding.outline, Binding.outlines_eq, Expr.outline, Node.Accounted] using ih

theorem Param.Written.accounted {p : Param} (h : p.Written L) : p.outline.Accounted L := by
  cases h with
  | simple _ _ hc => simpa [Param.outline, Node.Accounted] using hc.accounted
  | destructuring _ _ hb =>
    simpa [Param.outline, Binding.outlines_eq, Node.Accounted] using fun b h => (hb b h).accounted
  | bad hs => simpa [Param.outline, Outline.leaf, Node.Accounted] using hs

theorem FunctionDecl.Written.accounted {f : FunctionDecl} (h : f.Written L) : f.outline.Accounted L := by
  have hbody : AllAccounted L f.body.outline := by
    have hb := h.body
    cases hfb : f.body with
    | absent => simp [Block.outline]
    | mk ss s =>
      rw [hfb] at hb
      exact Block.allAccounted_outline fun st hst => (hb st hst).accounted
  simpa [FunctionDecl.outline, Node.Accounted] using ⟨fun p hp => (h.params p hp).accounted, hbody⟩

theorem ClassDef.Written.accounted {c : ClassDef} (h : c.Written L) : c.outline.Accounted L := by
  have hbad : ∀ s ∈ c.bad, (Outline.leaf (.badDecl s)).Accounted L := fun s hs => by
    simpa [Outline.leaf, Node.Accounted] using .inl (h.bad s hs)
  simpa [ClassDef.outline, Node.Accounted] using ⟨fun m hm => (h.methods m hm).accounted, hbad⟩

theorem Program.Written.accounted {p : Program} (h : p.Written L) : p.outline.Accounted L := by
  have hbad : ∀ s ∈ p.bad, (Outline.leaf (.badDecl s)).Accounted L := fun s hs => by
    simpa [Outline.leaf, Node.Accounted] using .inr (h.bad s hs)
  simpa [Program.outline, Node.Accounted] using
    ⟨fun c hc => (h.classes c hc).accounted, fun f hf => (h.functions f hf).accounted, hbad⟩

/-! ## Sources -/

/-- In what is read from any source, every placeholder for a statement, a parameter, a member or a declaration
stands for what reading gave up at some token of the source. Its span begins with that token. It stops with the
last token given up wherever skipping passed a token of its own, and otherwise with the first token, or for a
parameter with the token that reading resumes at. -/
theorem readProgram_accounts (file source : String) (limit : Nat) :
    ∀ node ∈ (readProgram file source limit).value.outline.nodes,
      node.Accounted (Rule.losses (.ofSource file source limit)) :=
  (readProgram_written file source limit).accounted

/-- The span of a statement that could not be read. -/
def Node.lostStmt? : Node → Option Span
  | .stmt (.bad span) => some span
  | _ => none

theorem Node.eq_of_lostStmt? {n : Node} {span : Span} (h : n.lostStmt? = some span) : n = .stmt (.bad span) := by
  cases n with
  | stmt s =>
    cases s with
    | bad t =>
      rw [Node.lostStmt?, Option.some.injEq] at h
      rw [h]
    | _ => cases h
  | _ => cases h

/-- A class in which a parameter, a statement and a member could not be read. -/
def threefold : { source : String // (readProgram "a.sem" source).value.outline.placeholders = 3 ∧
    (readProgram "a.sem" source).value.outline.nodes.filterMap Node.lostStmt? =
      [{ file := "a.sem", line := 1, column := 21, start := 20, stop := 21 }] } :=
  ⟨"class N \x7b m(5): R \x7b x = \x7d y z; \x7d", by decide +kernel⟩

theorem readProgram_accounts_threefold :
    ∃ span, Node.stmt (.bad span) ∈ (readProgram "a.sem" threefold.val).value.outline.nodes ∧
      span.start = 20 ∧ span.stop = 21 ∧ (Rule.losses (.ofSource "a.sem" threefold.val)).stmt span := by
  obtain ⟨-, hlost⟩ := threefold.property
  obtain ⟨n, hn, hspan⟩ := List.mem_filterMap.1 (hlost ▸ List.mem_singleton_self _)
  obtain rfl := Node.eq_of_lostStmt? hspan
  exact ⟨_, hn, rfl, rfl, readProgram_accounts "a.sem" threefold.val 0 _ hn⟩

/-- Where the placeholders in what is read from a source stand. -/
def placeholderPlaces (source : String) : List (Int × Int) :=
  ((readProgram "a.sem" source).value.outline.nodes.filter Node.isPlaceholder).map fun n => (n.span.start, n.span.stop)

/-- The tokens of a source and where they stand. -/
def tokenPlaces (source : String) : List (String × Int × Int) :=
  (tokenize "a.sem" source).map fun t => (t.raw, t.span.start, t.span.stop)

/-- A placeholder does not always cover exactly what was given up: of `x =` in front of a closing brace it covers
the `x` only, and for a lone `5` among the parameters also the parenthesis behind it. -/
theorem placeholders_misplaced :
    placeholderPlaces "f(): R \x7b x = \x7d" = [(9, 10)] ∧
    (tokenPlaces "f(): R \x7b x = \x7d").drop 6 = [("x", 9, 10), ("=", 11, 12), ("\x7d", 13, 14), ("", 14, 14)] ∧
    placeholderPlaces "f(5): R \x7b \x7d" = [(2, 4)] ∧
    (tokenPlaces "f(5): R \x7b \x7d").take 4 = [("f", 0, 1), ("(", 1, 2), ("5", 2, 3), (")", 3, 4)] := by
  decide +kernel

end SemFront
