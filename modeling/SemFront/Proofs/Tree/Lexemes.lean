/-
The lexemes of a tree, in the order in which its text has them, and the proof that this is what the
text of a tree as it is read scans to, placeholders included: at every place where two pieces of the
text meet, the second one does not go on with the last lexeme of the first.
-/
import SemFront.Proofs.Token.Scan
import SemFront.Proofs.Tree.Written
import SemFront.Tree.Print

namespace SemFront

open Munch

variable {L : Losses}

/-! ## Lexemes of trees -/

/-- Lexemes with a separator between neighbours. -/
def Lexeme.joined (separator : Lexeme) : List (List Lexeme) → List Lexeme
  | [] => []
  | [l] => l
  | l :: ls => l ++ separator :: joined separator ls

/-- The lexemes that stand for a part that is missing or could not be read. -/
def holeLexemes : List Lexeme := [.punct .less, .ident "bad", .punct .greater]

def Ident.lexemes? : Option Ident → List Lexeme
  | some i => [.ident i.name]
  | none => holeLexemes

def Name.lexemes (n : Name) : List Lexeme := Lexeme.joined (.punct .dot) (n.parts.map fun i => [.ident i.name])

def Name.lexemes? : Option Name → List Lexeme
  | some n => n.lexemes
  | none => holeLexemes

def fragmentLexemes : Option Ident → List Lexeme
  | some i => .punct .hash :: (if i.name = "" then [] else [.word i.name])
  | none => []

def AbsoluteIri.lexemes (a : AbsoluteIri) : List Lexeme :=
  (match a.scheme with | some i => [Lexeme.word i.name] | none => holeLexemes) ++
    [Lexeme.punct .colon, Lexeme.punct .slash, Lexeme.punct .slash] ++
    Lexeme.joined (.punct .dot) (a.domain.map fun i => [Lexeme.word i.name]) ++
    a.path.flatMap (fun i => [Lexeme.punct .slash, Lexeme.word i.name]) ++
    (if a.trailingSlash then [Lexeme.punct .slash] else []) ++
    fragmentLexemes a.fragment

/-- The punctuation that an operator is written as. -/
def BinaryOp.punct? : BinaryOp → Option Punct
  | .lt => some .less
  | .gt => some .greater
  | .leq => some .lessEqual
  | .geq => some .greaterEqual
  | .and => some .andAnd
  | .add => some .plus
  | .sub => some .minus
  | .mul => some .asterisk
  | .div => some .slash
  | .unknown => none

def BinaryOp.lexemes (op : BinaryOp) : List Lexeme := op.punct?.toList.map .punct

def Generator.lexemes (g : Generator) : List Lexeme :=
  Ident.lexemes? g.element ++ .punct .leftArrow :: Ident.lexemes? g.source

mutual

def Expr.lexemes : Expr → List Lexeme
  | .absent => holeLexemes
  | .bad _ => holeLexemes
  | .bool v _ => [.keyword (if v then .true else .false)]
  | .int t _ => [.int t]
  | .float t _ => [.float t]
  | .string v q _ => [.string (q.getD '"') v]
  | .list es _ =>
    .punct .lbracket :: Lexeme.joined (.punct .comma) (Expr.lexemesAll es) ++ [.punct .rbracket]
  | .comprehension x g c _ =>
    .punct .lbracket :: Ident.lexemes? x ++ .punct .pipe :: (g.map Generator.lexemes).getD [] ++
      .punct .comma :: c.lexemes ++ [.punct .rbracket]
  | .varRef n _ => Name.lexemes? n
  | .not e _ => .punct .bang :: e.lexemes
  | .neg e _ => .punct .minus :: e.lexemes
  | .binary op l r _ => l.lexemes ++ op.lexemes ++ r.lexemes
  | .call n es _ =>
    Name.lexemes? n ++ .punct .lparen :: Lexeme.joined (.punct .comma) (Expr.lexemesAll es) ++
      [.punct .rparen]
  | .paren e _ => .punct .lparen :: e.lexemes ++ [.punct .rparen]
  | .cast t e _ => .punct .lparen :: Ident.lexemes? t ++ .punct .rparen :: e.lexemes
  | .construct t is _ =>
    .keyword .new :: Ident.lexemes? t ++
      .punct .lparen :: Lexeme.joined (.punct .comma) (Initializer.lexemesAll is) ++ [.punct .rparen]

def Expr.lexemesAll : List Expr → List (List Lexeme)
  | [] => []
  | e :: es => e.lexemes :: Expr.lexemesAll es

def Initializer.lexemes : Initializer → List Lexeme
  | .mk n v _ => Ident.lexemes? n ++ .punct .assign :: v.lexemes

def Initializer.lexemesAll : List Initializer → List (List Lexeme)
  | [] => []
  | i :: is => i.lexemes :: Initializer.lexemesAll is

end

/-- The lexemes of a constraint with the bar in front, if there is one. -/
def constraintLexemes : Expr → List Lexeme
  | .absent => []
  | e => .punct .pipe :: e.lexemes

def TypeRef.lexemes : TypeRef → List Lexeme
  | .bad _ => holeLexemes
  | .named n isList _ =>
    if isList then .keyword .list :: .punct .less :: Ident.lexemes? n ++ [.punct .greater]
    else Ident.lexemes? n

mutual

def Stmt.lexemes : Stmt → List Lexeme
  | .ifElse c yes no _ =>
    .keyword .if :: c.lexemes ++ yes.lexemes ++
      (match no with | .absent => [] | b => .keyword .else :: b.lexemes)
  | .whileLoop c b _ => .keyword .while :: c.lexemes ++ b.lexemes
  | .withBlock c b _ => .keyword .with :: c.lexemes ++ b.lexemes
  | .varDecl n t e _ =>
    Ident.lexemes? n ++ .punct .colon :: (t.map TypeRef.lexemes).getD holeLexemes ++
      (match e with | .absent => [] | e => .punct .assign :: e.lexemes)
  | .assign n e _ => Name.lexemes? n ++ .punct .assign :: e.lexemes
  | .ret e _ => .keyword .return :: e.lexemes
  | .expr e _ => e.lexemes
  | .bad _ => holeLexemes

def Block.lexemes : Block → List Lexeme
  | .absent => holeLexemes
  | .mk ss _ => .punct .lbrace :: Stmt.lexemesAll ss ++ [.punct .rbrace]

/-- The lexemes of statements, each with its semicolon. -/
def Stmt.lexemesAll : List Stmt → List Lexeme
  | [] => []
  | s :: ss => s.lexemes ++ .punct .semicolon :: Stmt.lexemesAll ss

end

mutual

def Binding.lexemes : Binding → List Lexeme
  | .leaf n p c _ => Ident.lexemes? n ++ .punct .colon :: Ident.lexemes? p ++ constraintLexemes c
  | .nested n p c bs _ =>
    Ident.lexemes? n ++ .punct .colon :: Ident.lexemes? p ++ constraintLexemes c ++
      .punct .lbrace :: Lexeme.joined (.punct .comma) (Binding.lexemesAll bs) ++ [.punct .rbrace]

def Binding.lexemesAll : List Binding → List (List Lexeme)
  | [] => []
  | b :: bs => b.lexemes :: Binding.lexemesAll bs

end

def Param.lexemes : Param → List Lexeme
  | .simple n t c _ => Ident.lexemes? n ++ .punct .colon :: Name.lexemes? t ++ constraintLexemes c
  | .destructuring n t bs _ =>
    Ident.lexemes? n ++ .punct .colon :: Name.lexemes? t ++
      .punct .lbrace :: Lexeme.joined (.punct .comma) (Binding.lexemesAll bs) ++ [.punct .rbrace]
  | .bad _ => holeLexemes

def FunctionDecl.lexemes (f : FunctionDecl) : List Lexeme :=
  Name.lexemes? f.name ++ .punct .lparen :: Lexeme.joined (.punct .comma) (f.params.map Param.lexemes) ++
    .punct .rparen :: .punct .colon :: Ident.lexemes? f.returnType ++ f.body.lexemes ++ [.punct .semicolon]

def PropertyDecl.lexemes (p : PropertyDecl) : List Lexeme :=
  Ident.lexemes? p.name ++ .punct .colon :: Ident.lexemes? p.type ++ [.punct .semicolon]

def Member.lexemes : Member → List Lexeme
  | .property p => p.lexemes
  | .method m => m.lexemes

def ClassDef.lexemes (c : ClassDef) : List Lexeme :=
  .keyword .classWord :: Ident.lexemes? c.name ++ .punct .lbrace :: c.members.flatMap Member.lexemes ++
    [.punct .rbrace]

def ModuleImport.lexemes (i : ModuleImport) : List Lexeme :=
  .keyword .use :: Lexeme.joined (.punct .comma) (i.names.map fun n => [.ident n.name]) ++ [.punct .semicolon]

def Alias.lexemes (a : Alias) : List Lexeme :=
  .keyword .alias :: Ident.lexemes? a.name ++
    .keyword .as :: (a.target.map AbsoluteIri.lexemes).getD holeLexemes ++ [.punct .semicolon]

def Decl.lexemes : Decl → List Lexeme
  | .classDef c => c.lexemes
  | .function f => f.lexemes

/-- The lexemes of a program, in the order in which it is written. -/
def Program.lexemes (p : Program) : List Lexeme :=
  p.imports.flatMap ModuleImport.lexemes ++ p.aliases.flatMap Alias.lexemes ++ p.decls.flatMap Decl.lexemes

@[simp] theorem Expr.texts_eq (es : List Expr) : Expr.texts es = es.map Expr.text := by
  induction es with
  | nil => simp [Expr.texts]
  | cons e es ih => simp [Expr.texts, ih]

@[simp] theorem Expr.lexemesAll_eq (es : List Expr) : Expr.lexemesAll es = es.map Expr.lexemes := by
  induction es with
  | nil => simp [Expr.lexemesAll]
  | cons e es ih => simp [Expr.lexemesAll, ih]

@[simp] theorem Initializer.texts_eq (is : List Initializer) : Initializer.texts is = is.map Initializer.text := by
  induction is with
  | nil => simp [Initializer.texts]
  | cons i is ih => simp [Initializer.texts, ih]

@[simp] theorem Initializer.lexemesAll_eq (is : List Initializer) :
    Initializer.lexemesAll is = is.map Initializer.lexemes := by
  induction is with
  | nil => simp [Initializer.lexemesAll]
  | cons i is ih => simp [Initializer.lexemesAll, ih]

@[simp] theorem Binding.texts_eq (bs : List Binding) : Binding.texts bs = bs.map Binding.text := by
  induction bs with
  | nil => simp [Binding.texts]
  | cons b bs ih => simp [Binding.texts, ih]

@[simp] theorem Binding.lexemesAll_eq (bs : List Binding) : Binding.lexemesAll bs = bs.map Binding.lexemes := by
  induction bs with
  | nil => simp [Binding.lexemesAll]
  | cons b bs ih => simp [Binding.lexemesAll, ih]

@[simp] theorem Stmt.lexemesAll_eq (ss : List Stmt) :
    Stmt.lexemesAll ss = ss.flatMap fun s => s.lexemes ++ [Lexeme.punct .semicolon] := by
  induction ss with
  | nil => simp [Stmt.lexemesAll]
  | cons s ss ih => simp [Stmt.lexemesAll, ih]

theorem Expr.text_neg {e : Expr} {s : Span} (h : e ≠ .absent) : (Expr.neg e s).text = negated e.text := by
  cases e <;> first | exact absurd rfl h | rfl

theorem Initializer.text_of_ne_absent {n : Option Ident} {v : Expr} {s : Span} (h : v ≠ .absent) :
    (Initializer.mk n v s).text = Ident.text? n ++ " = " ++ v.text := by
  cases v <;> first | exact absurd rfl h | rfl

theorem constraintText_of_ne_absent {e : Expr} (h : e ≠ .absent) : constraintText e = " | " ++ e.text := by
  cases e <;> first | exact absurd rfl h | rfl

theorem constraintLexemes_of_ne_absent {e : Expr} (h : e ≠ .absent) :
    constraintLexemes e = .punct .pipe :: e.lexemes := by
  cases e <;> first | exact absurd rfl h | rfl

theorem Stmt.text_varDecl {n : Nat} {x : Option Ident} {t : Option TypeRef} {e : Expr} {s : Span}
    (h : e ≠ .absent) : (Stmt.varDecl x t e s).text n =
      Ident.text? x ++ ": " ++ (t.map TypeRef.text).getD hole ++ (" = " ++ e.text) := by
  cases e <;> first | exact absurd rfl h | rfl

theorem Stmt.lexemes_varDecl {x : Option Ident} {t : Option TypeRef} {e : Expr} {s : Span} (h : e ≠ .absent) :
    (Stmt.varDecl x t e s).lexemes =
      Ident.lexemes? x ++ Lexeme.punct .colon :: (t.map TypeRef.lexemes).getD holeLexemes ++
        .punct .assign :: e.lexemes := by
  cases e <;> first | exact absurd rfl h | rfl

/-! ## Texts that keep apart from what is before them -/

/-- A text goes on with no word, no number and no `>` before it. -/
structure Apart (cs : List Char) : Prop where
  number : Kind.int.Ends cs
  greater : (Kind.punct .greater).Ends cs

theorem apart_nil : Apart [] := ⟨Kind.ends_nil _, Kind.ends_nil _⟩

theorem Apart.word {cs : List Char} (h : Apart cs) : Kind.ident.Ends cs := by
  intro c hc
  have := h.number c hc
  simp only [Kind.meets, Bool.or_eq_false_iff] at this
  exact this.1

theorem Apart.of_head {c : Char} {cs : List Char} (h : (Kind.int.meets c || (Kind.punct .greater).meets c) = false) :
    Apart (c :: cs) := by
  rw [Bool.or_eq_false_iff] at h
  exact ⟨(Kind.ends_cons _ _ _).2 h.1, (Kind.ends_cons _ _ _).2 h.2⟩

/-- Punctuation of one character. -/
theorem Scans.single {c : Char} {p : Punct} {k : List Char} {ls : List Lexeme} (hp : p.text.toList = [c])
    (hk : (Kind.punct p).Ends k) (h : Scans k ls) : Scans (c :: k) (.punct p :: ls) := by
  have := Scans.punct p hk h
  rw [hp] at this
  exact this

/-- Punctuation of two characters. -/
theorem Scans.double {c d : Char} {p : Punct} {k : List Char} {ls : List Lexeme} (hp : p.text.toList = [c, d])
    (hk : (Kind.punct p).Ends k) (h : Scans k ls) : Scans (c :: d :: k) (.punct p :: ls) := by
  have := Scans.punct p hk h
  rw [hp] at this
  exact this

/-- The mark of a part that could not be read keeps apart from an equals sign behind it. -/
theorem scans_hole {k : List Char} {ls : List Lexeme} (hk : (Kind.punct .greater).Ends k) (h : Scans k ls) :
    Scans (hole.toList ++ k) (holeLexemes ++ ls) := by
  have hbad : Scans ('b' :: 'a' :: 'd' :: '>' :: k) (.ident "bad" :: .punct .greater :: ls) :=
    .ident (w := "bad") (by decide) (.of_head rfl) (.single rfl hk h)
  have htext : hole.toList = ['<', 'b', 'a', 'd', '>'] := by decide
  rw [htext]
  exact .single rfl (.of_head rfl) hbad

/-! ## Scanning names -/

theorem scans_joined_dot {is : List Ident} (f : String → Lexeme) (hf : ∀ i ∈ is, ∀ {k ls},
      Kind.ident.Ends k → Scans k ls → Scans (i.name.toList ++ k) (f i.name :: ls))
    {k : List Char} {ls : List Lexeme} (hk : Kind.ident.Ends k) (h : Scans k ls) :
    Scans ((String.intercalate "." (is.map (·.name))).toList ++ k)
      (Lexeme.joined (.punct .dot) (is.map fun i => [f i.name]) ++ ls) := by
  induction is with
  | nil => exact h
  | cons i is ih =>
    cases is with
    | nil => exact hf i (by simp) hk h
    | cons j is =>
      have ih := ih fun i hi => hf i (List.mem_cons_of_mem _ hi)
      simp only [List.map_cons, String.intercalate_cons_cons, Lexeme.joined, String.toList_append, List.append_assoc,
        List.cons_append, List.nil_append] at ih ⊢
      exact hf i (by simp) (.of_head rfl) (Scans.punct .dot (fun _ _ => rfl) ih)

theorem Name.Canonical.scans {n : Name} (hn : n.Canonical) {k : List Char} {ls : List Lexeme}
    (hk : Kind.ident.Ends k) (h : Scans k ls) :
    Scans (n.text.toList ++ k) (n.lexemes ++ ls) :=
  scans_joined_dot Lexeme.ident (fun i hi _ _ hk h => Scans.ident (hn.parts i hi) hk h) hk h

/-! ## Scanning expressions -/

/-- Texts of items that are scanned one by one are scanned with commas between them. -/
theorem scans_joined_comma {α : Type} {xs : List α} (text : α → String) (lexemes : α → List Lexeme)
    (hx : ∀ x ∈ xs, ∀ {k ls}, Apart k → Scans k ls → Scans ((text x).toList ++ k) (lexemes x ++ ls))
    {k : List Char} {ls : List Lexeme} (hk : Apart k) (h : Scans k ls) :
    Scans ((String.intercalate ", " (xs.map text)).toList ++ k)
      (Lexeme.joined (.punct .comma) (xs.map lexemes) ++ ls) := by
  induction xs with
  | nil => exact h
  | cons x xs ih =>
    cases xs with
    | nil => exact hx x (by simp) hk h
    | cons y xs =>
      have ih := ih fun x hx' => hx x (List.mem_cons_of_mem _ hx')
      simp only [List.map_cons, String.intercalate_cons_cons, Lexeme.joined, String.toList_append, List.append_assoc,
        List.cons_append] at ih ⊢
      exact hx x (by simp) (.of_head rfl) (.single rfl (fun _ _ => rfl) (.blank rfl ih))

theorem BinaryOp.scans {op : BinaryOp} (hop : op ≠ .unknown) {k : List Char} {ls : List Lexeme} (h : Scans k ls) :
    Scans (op.symbol.toList ++ ' ' :: k) (op.lexemes ++ ls) := by
  have hb : Scans (' ' :: k) ls := .blank rfl h
  cases op with
  | unknown => exact absurd rfl hop
  | leq => exact .double rfl (.of_head rfl) hb
  | geq => exact .double rfl (.of_head rfl) hb
  | and => exact .double rfl (.of_head rfl) hb
  | _ => exact .single rfl (.of_head rfl) hb

theorem Expr.Written.ne_absent {e : Expr} (h : e.Written) : e ≠ .absent := by
  rintro rfl
  cases h

theorem Expr.Canonical.ne_absent {e : Expr} (h : e.Canonical) : e ≠ .absent := h.written.ne_absent

/-- The text of a name starts with no digit and no punctuation. -/
theorem Name.Canonical.text_cons {n : Name} (hn : n.Canonical) :
    ∃ c cs, n.text.toList = c :: cs ∧ startsName c = true := by
  obtain ⟨parts, sp⟩ := n
  cases parts with
  | nil => exact absurd rfl hn.nonempty
  | cons i is =>
    obtain ⟨⟨c, cs, h, hc, -⟩, -⟩ := hn.parts i (by simp)
    cases is with
    | nil => exact ⟨c, cs, h, hc⟩
    | cons j is => exact ⟨c, _, by simp [Name.text, String.intercalate_cons_cons, h]; rfl, hc⟩

theorem number_cons {sign ds k : List Char} (hs : IsSign sign) (hd : IsDigits ds) :
    ∃ c cs, sign ++ (ds ++ k) = c :: cs ∧ c ≠ '=' := by
  rcases hs with rfl | rfl
  · obtain ⟨d, ds, rfl⟩ := List.exists_cons_of_ne_nil hd.1
    refine ⟨d, ds ++ k, rfl, ?_⟩
    rintro rfl
    exact absurd (hd.2 '=' (by simp)) (by decide)
  · exact ⟨'-', ds ++ k, rfl, by decide⟩

theorem negated_cons (s : String) : ∃ cs, (negated s).toList = '-' :: cs := by
  unfold negated
  split
  · split
    · exact ⟨' ' :: s.toList, by simp⟩
    · exact ⟨s.toList, by simp⟩
  · exact ⟨[], rfl⟩

/-- The text of an expression never turns a `!` in front of it into `!=`. -/
theorem Expr.Written.text_cons {e : Expr} (he : e.Written) : ∃ c cs, e.text.toList = c :: cs ∧ c ≠ '=' := by
  have hname : ∀ {n : Name} {k : List Char}, n.Canonical → ∃ c cs, n.text.toList ++ k = c :: cs ∧ c ≠ '=' := by
    intro n k hn
    obtain ⟨c, cs, h, hc⟩ := hn.text_cons
    refine ⟨c, cs ++ k, by rw [h]; rfl, ?_⟩
    rintro rfl
    exact absurd hc (by decide)
  induction he with
  | bad => exact ⟨'<', "bad>".toList, by simp [Expr.text, hole], by decide⟩
  | @bool v s =>
    cases v with
    | false => exact ⟨'f', "alse".toList, by simp [Expr.text], by decide⟩
    | true => exact ⟨'t', "rue".toList, by simp [Expr.text], by decide⟩
  | @int t s ht =>
    obtain ⟨sign, ds, h, hs, hd⟩ := ht
    have := number_cons (k := []) hs hd
    rwa [List.append_nil, ← h] at this
  | @float t s ht =>
    obtain ⟨sign, ds, fs, ex, h, hs, hd, -⟩ := ht
    have := number_cons (k := '.' :: fs ++ ex) hs hd
    rwa [← List.append_assoc, ← List.append_assoc, ← h] at this
  | @string v q s hq hv =>
    refine ⟨q, v.toList ++ [q], by simp [Expr.text], ?_⟩
    rcases hq with rfl | rfl <;> decide
  | list | comprehension | not | paren | cast | construct =>
    simp only [Expr.text, String.toList_append, String.reduceToList, List.cons_append, List.nil_append,
      List.append_assoc]
    exact ⟨_, _, rfl, by decide⟩
  | neg he _ =>
    obtain ⟨cs, h⟩ := negated_cons _
    exact ⟨'-', cs, by rw [Expr.text_neg he.ne_absent]; exact h, by decide⟩
  | varRef hn => simpa [Expr.text, Name.text?] using hname (k := []) hn
  | call hn _ _ =>
    simp only [Expr.text, Name.text?, String.toList_append, List.append_assoc]
    exact hname hn
  | @binary op l r s _ _ _ ihl _ =>
    obtain ⟨c, cs, h, hc⟩ := ihl
    simp only [Expr.text, String.toList_append, h, List.cons_append]
    exact ⟨c, _, rfl, hc⟩

/-- A minus sign is kept apart from a number behind it. -/
theorem scans_negated {e : String} {k : List Char} {ls : List Lexeme} (he : ∃ c cs, e.toList = c :: cs)
    (h : Scans (e.toList ++ k) ls) : Scans ((negated e).toList ++ k) (.punct .minus :: ls) := by
  obtain ⟨c, cs, hc⟩ := he
  unfold negated
  rw [hc]
  simp only [List.head?_cons]
  split
  · simp only [String.toList_append, String.reduceToList, List.cons_append, List.nil_append]
    exact .single rfl (.of_head rfl) (.blank rfl h)
  · rename_i hd
    simp only [String.toList_append, String.reduceToList, List.cons_append, List.nil_append]
    rw [hc] at h ⊢
    refine .single rfl (.of_head ?_) h
    exact Bool.not_eq_true _ ▸ hd

theorem Expr.Written.scans {e : Expr} (he : e.Written) : ∀ {k : List Char} {ls : List Lexeme}, Apart k →
    Scans k ls → Scans (e.text.toList ++ k) (e.lexemes ++ ls) := by
  induction he with
  | bad =>
    intro k ls hk h
    exact scans_hole hk.greater h
  | @bool v s =>
    intro k ls hk h
    cases v with
    | false => exact Scans.keyword .false hk.word h
    | true => exact Scans.keyword .true hk.word h
  | @int t s ht =>
    intro k ls hk h
    exact Scans.lexeme (l := .int t) ht nofun nofun hk.number h
  | @float t s ht =>
    intro k ls hk h
    exact Scans.lexeme (l := .float t) ht nofun nofun hk.number h
  | @string v q s hq hv =>
    intro k ls hk h
    exact Scans.lexeme (l := .string q v) (isString_string hq hv) nofun nofun (fun _ _ => rfl) h
  | @list es s _ ih =>
    intro k ls hk h
    simp only [Expr.text, Expr.texts_eq, Expr.lexemes, Expr.lexemesAll_eq, String.toList_append,
      String.reduceToList, List.cons_append, List.nil_append, List.append_assoc]
    exact .single rfl (fun _ _ => rfl) (scans_joined_comma _ _ (fun e he => ih e he) (.of_head rfl)
      (.single rfl (fun _ _ => rfl) h))
  | @comprehension x y z g s c hx hy hz hc ih =>
    intro k ls hk h
    simp only [Expr.text, Ident.text?, Option.map_some, Option.getD_some, Generator.text, Expr.lexemes,
      Ident.lexemes?, Generator.lexemes, String.toList_append, String.reduceToList, List.cons_append,
      List.nil_append, List.append_assoc]
    refine .single rfl (fun _ _ => rfl) (.ident hx (.of_head rfl) (.blank rfl ?_))
    refine .single rfl (.of_head rfl) (.blank rfl ?_)
    refine .ident hy (.of_head rfl) (.blank rfl (.double rfl (fun _ _ => rfl) (.blank rfl ?_)))
    refine .ident hz (.of_head rfl) (.single rfl (fun _ _ => rfl) (.blank rfl ?_))
    exact ih (.of_head rfl) (.single rfl (fun _ _ => rfl) h)
  | @varRef n s hn =>
    intro k ls hk h
    exact hn.scans hk.word h
  | @not e s he ih =>
    intro k ls hk h
    obtain ⟨c, cs, hc, hne⟩ := he.text_cons
    have h1 := ih hk h
    simp only [Expr.text, Expr.lexemes, String.toList_append, String.reduceToList, List.cons_append,
      List.nil_append]
    rw [hc] at h1 ⊢
    exact .single rfl (.of_head (by simpa [Kind.meets, Punct.meets] using hne)) h1
  | @neg e s he ih =>
    intro k ls hk h
    obtain ⟨c, cs, hc, -⟩ := he.text_cons
    rw [Expr.text_neg he.ne_absent]
    exact scans_negated ⟨c, cs, hc⟩ (ih hk h)
  | @binary op l r s hop _ _ ihl ihr =>
    intro k ls hk h
    simp only [Expr.text, Expr.lexemes, String.toList_append, String.reduceToList, List.cons_append,
      List.nil_append, List.append_assoc]
    exact ihl (.of_head rfl) (.blank rfl (BinaryOp.scans hop (ihr hk h)))
  | @call n es s hn _ ih =>
    intro k ls hk h
    simp only [Expr.text, Name.text?, Expr.texts_eq, Expr.lexemes, Name.lexemes?, Expr.lexemesAll_eq,
      String.toList_append, String.reduceToList, List.cons_append, List.nil_append, List.append_assoc]
    exact hn.scans (.of_head rfl) (.single rfl (fun _ _ => rfl)
      (scans_joined_comma _ _ (fun e he => ih e he) (.of_head rfl) (.single rfl (fun _ _ => rfl) h)))
  | @paren e s _ ih =>
    intro k ls hk h
    simp only [Expr.text, Expr.lexemes, String.toList_append, String.reduceToList, List.cons_append,
      List.nil_append, List.append_assoc]
    exact .single rfl (fun _ _ => rfl) (ih (.of_head rfl) (.single rfl (fun _ _ => rfl) h))
  | @cast t e s ht _ _ ih =>
    intro k ls hk h
    simp only [Expr.text, Ident.text?, Expr.lexemes, Ident.lexemes?, String.toList_append, String.reduceToList,
      List.cons_append, List.nil_append, List.append_assoc]
    refine .single rfl (fun _ _ => rfl) (.ident ht (.of_head rfl) ?_)
    exact .single rfl (fun _ _ => rfl) (.blank rfl (ih hk h))
  | @construct t is s ht hn hv ih =>
    intro k ls hk h
    have hi : ∀ i ∈ is, ∀ {k ls}, Apart k → Scans k ls → Scans (i.text.toList ++ k) (i.lexemes ++ ls) := by
      intro i hi k ls hk h
      obtain ⟨x, hx, hxc⟩ := hn i hi
      obtain ⟨n, v, sp⟩ := i
      cases hx
      have hv' : v ≠ .absent := (hv _ hi).ne_absent
      have h1 := ih _ hi hk h
      rw [Initializer.text_of_ne_absent hv']
      simp only [Ident.text?, Initializer.lexemes, Ident.lexemes?, String.toList_append,
        String.reduceToList, List.cons_append, List.nil_append, List.append_assoc]
      exact .ident hxc (.of_head rfl) (.blank rfl (.single rfl (.of_head rfl) (.blank rfl h1)))
    simp only [Expr.text, Ident.text?, Initializer.texts_eq, Expr.lexemes, Ident.lexemes?,
      Initializer.lexemesAll_eq, String.toList_append, String.reduceToList, List.cons_append,
      List.nil_append, List.append_assoc]
    refine Scans.keyword .new (.of_head rfl) (.blank rfl (.ident ht (.of_head rfl) ?_))
    exact .single rfl (fun _ _ => rfl) (scans_joined_comma _ _ hi (.of_head rfl) (.single rfl (fun _ _ => rfl) h))

theorem Expr.OptionalWritten.ends_constraint {e : Expr} (he : e.OptionalWritten) {k : List Char} (hk : Apart k) :
    Kind.ident.Ends ((constraintText e).toList ++ k) := by
  rcases he with rfl | he
  · exact hk.word
  · rw [constraintText_of_ne_absent he.ne_absent]
    simp only [String.toList_append, String.reduceToList, List.cons_append, List.nil_append]
    exact .of_head rfl

theorem Expr.OptionalWritten.scans_constraint {e : Expr} (he : e.OptionalWritten) {k : List Char} {ls : List Lexeme}
    (hk : Apart k) (h : Scans k ls) : Scans ((constraintText e).toList ++ k) (constraintLexemes e ++ ls) := by
  rcases he with rfl | he
  · exact h
  · rw [constraintText_of_ne_absent he.ne_absent, constraintLexemes_of_ne_absent he.ne_absent]
    simp only [String.toList_append, String.reduceToList, List.cons_append, List.nil_append]
    exact .blank rfl (.single rfl (.of_head rfl) (.blank rfl (he.scans hk h)))

/-! ## Scanning statements -/

theorem Scans.newline {n : Nat} {k : List Char} {ls : List Lexeme} (h : Scans k ls) :
    Scans ((newline n).toList ++ k) ls := by
  refine .blanks ?_ h
  intro c hc
  simp only [SemFront.newline, String.toList_append, String.reduceToList, String.toList_ofList, List.cons_append,
    List.nil_append, List.mem_cons, List.mem_replicate] at hc
  rcases hc with rfl | ⟨-, rfl⟩ <;> rfl

/-- A type keeps apart from an equals sign behind it, which would turn `>` into `>=`. -/
theorem TypeRef.Written.scans {t : TypeRef} (ht : t.Written) {k : List Char} {ls : List Lexeme}
    (hk : Kind.ident.Ends k) (hk' : (Kind.punct .greater).Ends k) (h : Scans k ls) :
    Scans (t.text.toList ++ k) (t.lexemes ++ ls) := by
  match t, ht with
  | .bad _, _ => exact scans_hole hk' h
  | .named (some i) false _, ht => exact Scans.ident ht hk h
  | .named (some i) true _, ht =>
    simp only [TypeRef.text, TypeRef.lexemes, if_true, Ident.text?, Ident.lexemes?, String.toList_append,
      String.reduceToList, List.cons_append, List.nil_append, List.append_assoc]
    refine Scans.keyword .list (.of_head rfl) (.single rfl ?_ (.ident ht (.of_head rfl) (.single rfl hk' h)))
    obtain ⟨⟨c, cs, hi, hc, -⟩, -⟩ : IsIdent i.name := ht
    rw [hi]
    refine .of_head ?_
    simp only [Kind.meets, Punct.meets, Bool.or_eq_false_iff, decide_eq_false_iff_not]
    exact ⟨by rintro rfl; exact absurd hc (by decide), by rintro rfl; exact absurd hc (by decide)⟩

/-- A statement with its semicolon is scanned as it is, whatever follows. -/
def Stmt.Scanned (s : Stmt) : Prop := ∀ {n : Nat} {k : List Char} {ls : List Lexeme}, Scans k ls →
  Scans ((s.text n).toList ++ ';' :: k) (s.lexemes ++ .punct .semicolon :: ls)

theorem Stmt.scans_lines {ss : List Stmt} (hs : ∀ s ∈ ss, s.Scanned) {n : Nat} {k : List Char} {ls : List Lexeme}
    (h : Scans k ls) : Scans ((Stmt.lines n ss).toList ++ k) (Stmt.lexemesAll ss ++ ls) := by
  induction ss with
  | nil => simpa [Stmt.lines, Stmt.lexemesAll] using h
  | cons s ss ih =>
    have ih := ih fun s hs' => hs s (List.mem_cons_of_mem _ hs')
    simp only [Stmt.lines, Stmt.lexemesAll, String.toList_append, String.reduceToList, List.cons_append,
      List.nil_append, List.append_assoc]
    exact .newline (hs s (by simp) ih)

theorem Block.scans {ss : List Stmt} (hs : ∀ s ∈ ss, s.Scanned) {t : Span} {n : Nat} {k : List Char}
    {ls : List Lexeme} (h : Scans k ls) :
    Scans (((Block.mk ss t).text n).toList ++ k) ((Block.mk ss t).lexemes ++ ls) := by
  simp only [Block.text, Block.lexemes, String.toList_append, String.reduceToList, List.cons_append,
    List.nil_append, List.append_assoc]
  exact .single rfl (fun _ _ => rfl) (Stmt.scans_lines hs (.newline (.single rfl (fun _ _ => rfl) h)))

/-- An expression and a block behind a keyword. -/
theorem scans_condBlock (kw : Keyword) {c : Expr} (hc : c.Written) {ss : List Stmt} (hs : ∀ s ∈ ss, s.Scanned)
    {t : Span} {n : Nat} {k : List Char} {ls : List Lexeme} (h : Scans k ls) :
    Scans (kw.text.toList ++ ' ' :: (c.text.toList ++ ' ' :: (((Block.mk ss t).text n).toList ++ k)))
      (.keyword kw :: (c.lexemes ++ ((Block.mk ss t).lexemes ++ ls))) :=
  .keyword kw (.of_head rfl) (.blank rfl (hc.scans (.of_head rfl) (.blank rfl (Block.scans hs h))))

theorem Stmt.Written.scanned {s : Stmt} (hs : s.Written L) : s.Scanned := by
  induction hs with
  | @ifThen c ys t s hc _ ih =>
    intro n k ls h
    simp only [Stmt.text, Stmt.lexemes, String.toList_append, String.reduceToList, List.cons_append,
      List.nil_append, List.append_assoc]
    exact scans_condBlock .if hc ih (.single rfl (fun _ _ => rfl) h)
  | @ifElse c ys ns t u s hc _ _ ihy ihn =>
    intro n k ls h
    simp only [Stmt.text, Stmt.lexemes, String.toList_append, String.reduceToList, List.cons_append,
      List.nil_append, List.append_assoc]
    refine scans_condBlock .if hc ihy (.blank rfl ?_)
    exact Scans.keyword .else (.of_head rfl) (.blank rfl (Block.scans ihn (.single rfl (fun _ _ => rfl) h)))
  | @whileLoop c bs t s hc _ ih =>
    intro n k ls h
    simp only [Stmt.text, Stmt.lexemes, String.toList_append, String.reduceToList, List.cons_append,
      List.nil_append, List.append_assoc]
    exact scans_condBlock .while hc ih (.single rfl (fun _ _ => rfl) h)
  | @withBlock c bs t s hc _ ih =>
    intro n k ls h
    simp only [Stmt.text, Stmt.lexemes, String.toList_append, String.reduceToList, List.cons_append,
      List.nil_append, List.append_assoc]
    exact scans_condBlock .with hc ih (.single rfl (fun _ _ => rfl) h)
  | @varDecl x t e s hx ht he =>
    intro n k ls h
    have h1 : Scans (';' :: k) (.punct .semicolon :: ls) := .single rfl (fun _ _ => rfl) h
    rcases he with rfl | he
    · simp only [Stmt.text, Stmt.lexemes, Ident.text?, Ident.lexemes?, Option.map_some, Option.getD_some,
        String.toList_append, String.reduceToList, List.cons_append, List.nil_append, List.append_assoc]
      exact .ident hx (.of_head rfl) (.single rfl (fun _ _ => rfl)
        (.blank rfl (ht.scans (.of_head rfl) (.of_head rfl) h1)))
    · rw [Stmt.text_varDecl he.ne_absent, Stmt.lexemes_varDecl he.ne_absent]
      simp only [Ident.text?, Ident.lexemes?, Option.map_some, Option.getD_some,
        String.toList_append, String.reduceToList, List.cons_append, List.nil_append, List.append_assoc]
      refine .ident hx (.of_head rfl) (.single rfl (fun _ _ => rfl) (.blank rfl ?_))
      exact ht.scans (.of_head rfl) (.of_head rfl) (.blank rfl (.single rfl (.of_head rfl)
        (.blank rfl (he.scans (.of_head rfl) h1))))
  | @assign x e s hx he =>
    intro n k ls h
    simp only [Stmt.text, Stmt.lexemes, Name.text?, Name.lexemes?, String.toList_append, String.reduceToList,
      List.cons_append, List.nil_append, List.append_assoc]
    exact hx.scans (.of_head rfl) (.blank rfl (.single rfl (.of_head rfl) (.blank rfl
      (he.scans (.of_head rfl) (.single rfl (fun _ _ => rfl) h)))))
  | @ret e s he =>
    intro n k ls h
    simp only [Stmt.text, Stmt.lexemes, String.toList_append, String.reduceToList, List.cons_append,
      List.nil_append]
    exact Scans.keyword .return (.of_head rfl) (.blank rfl
      (he.scans (.of_head rfl) (.single rfl (fun _ _ => rfl) h)))
  | @expr e s he =>
    intro n k ls h
    exact he.scans (.of_head rfl) (.single rfl (fun _ _ => rfl) h)
  | bad _ =>
    intro n k ls h
    exact scans_hole (.of_head rfl) (.single rfl (fun _ _ => rfl) h)

/-! ## Scanning declarations -/

theorem Binding.Written.scans {b : Binding} (hb : b.Written) : ∀ {k : List Char} {ls : List Lexeme}, Apart k →
    Scans k ls → Scans (b.text.toList ++ k) (b.lexemes ++ ls) := by
  induction hb with
  | @leaf x p c s hx hp hc =>
    intro k ls hk h
    simp only [Binding.text, Binding.lexemes, Ident.text?, Ident.lexemes?, String.toList_append,
      String.reduceToList, List.cons_append, List.nil_append, List.append_assoc]
    refine .ident hx (.of_head rfl) (.single rfl (fun _ _ => rfl) (.blank rfl (.ident hp ?_ ?_)))
    · exact hc.ends_constraint hk
    · exact hc.scans_constraint hk h
  | @nested x p bs s hx hp _ ih =>
    intro k ls hk h
    simp only [Binding.text, Binding.texts_eq, Binding.lexemes, Binding.lexemesAll_eq, Ident.text?, Ident.lexemes?,
      constraintText, constraintLexemes, String.toList_append, String.reduceToList, List.cons_append,
      List.nil_append, List.append_assoc]
    refine .ident hx (.of_head rfl) (.single rfl (fun _ _ => rfl) (.blank rfl (.ident hp (.of_head rfl) ?_)))
    exact .blank rfl (.single rfl (fun _ _ => rfl) (.blank rfl (scans_joined_comma _ _ ih (.of_head rfl)
      (.blank rfl (.single rfl (fun _ _ => rfl) h)))))

theorem Param.Written.scans {p : Param} (hp : p.Written L) {k : List Char} {ls : List Lexeme} (hk : Apart k)
    (h : Scans k ls) : Scans (p.text.toList ++ k) (p.lexemes ++ ls) := by
  cases hp with
  | @simple x n c s hx hn hc =>
    simp only [Param.text, Param.lexemes, Ident.text?, Ident.lexemes?, Name.text?, Name.lexemes?,
      String.toList_append, String.reduceToList, List.cons_append, List.nil_append, List.append_assoc]
    refine .ident hx (.of_head rfl) (.single rfl (fun _ _ => rfl) (.blank rfl (hn.scans ?_ ?_)))
    · exact hc.ends_constraint hk
    · exact hc.scans_constraint hk h
  | @destructuring x n bs s hx hn hbs =>
    simp only [Param.text, Binding.texts_eq, Param.lexemes, Binding.lexemesAll_eq, Ident.text?, Ident.lexemes?,
      Name.text?, Name.lexemes?, String.toList_append, String.reduceToList, List.cons_append,
      List.nil_append, List.append_assoc]
    refine .ident hx (.of_head rfl) (.single rfl (fun _ _ => rfl) (.blank rfl (hn.scans (.of_head rfl) ?_)))
    exact .blank rfl (.single rfl (fun _ _ => rfl) (.blank rfl (scans_joined_comma _ _
      (fun b hb => (hbs b hb).scans) (.of_head rfl) (.blank rfl (.single rfl (fun _ _ => rfl) h)))))
  | bad _ => exact scans_hole hk.greater h

theorem FunctionDecl.Written.scans {f : FunctionDecl} (hf : f.Written L) {n : Nat} {k : List Char}
    {ls : List Lexeme} (h : Scans k ls) : Scans ((f.text n).toList ++ k) (f.lexemes ++ ls) := by
  obtain ⟨⟨x, hx, hxc⟩, hp, ⟨t, ht, htc⟩, hb⟩ := hf
  obtain ⟨name, params, type, body, span⟩ := f
  subst hx ht
  obtain ⟨ss, sp, rfl⟩ : ∃ ss sp, body = .mk ss sp := by
    cases body with
    | absent => exact hb.elim
    | mk ss sp => exact ⟨ss, sp, rfl⟩
  simp only [FunctionDecl.text, FunctionDecl.lexemes, Ident.text?, Ident.lexemes?, Name.text?, Name.lexemes?,
    String.toList_append, String.reduceToList, List.cons_append, List.nil_append, List.append_assoc]
  refine hxc.scans (.of_head rfl) (.single rfl (fun _ _ => rfl) ?_)
  refine scans_joined_comma _ _ (fun p hp' => (hp p hp').scans) (.of_head rfl) (.single rfl (fun _ _ => rfl) ?_)
  refine .single rfl (fun _ _ => rfl) (.blank rfl (.ident htc (.of_head rfl) (.blank rfl ?_)))
  exact Block.scans (fun s hs => (hb s hs).scanned) (.single rfl (fun _ _ => rfl) h)

theorem PropertyDecl.Canonical.scans {p : PropertyDecl} (hp : p.Canonical) {k : List Char} {ls : List Lexeme}
    (h : Scans k ls) : Scans (p.text.toList ++ k) (p.lexemes ++ ls) := by
  obtain ⟨⟨x, hx, hxc⟩, ⟨t, ht, htc⟩⟩ := hp
  obtain ⟨name, type, span⟩ := p
  subst hx ht
  simp only [PropertyDecl.text, PropertyDecl.lexemes, Ident.text?, Ident.lexemes?, String.toList_append,
    String.reduceToList, List.cons_append, List.nil_append, List.append_assoc]
  exact .ident hxc (.of_head rfl) (.single rfl (fun _ _ => rfl) (.blank rfl
    (.ident htc (.of_head rfl) (.single rfl (fun _ _ => rfl) h))))

/-- Texts one below the other, each scanned whatever follows it. -/
theorem scans_lines {α : Type} {xs : List α} (text : α → String) (lexemes : α → List Lexeme) {n : Nat}
    (hx : ∀ x ∈ xs, ∀ {k ls}, Scans k ls → Scans ((text x).toList ++ k) (lexemes x ++ ls))
    {k : List Char} {ls : List Lexeme} (h : Scans k ls) :
    Scans ((String.join (xs.map fun x => newline n ++ text x)).toList ++ k) (xs.flatMap lexemes ++ ls) := by
  induction xs with
  | nil => simpa using h
  | cons x xs ih =>
    have ih := ih fun x hx' => hx x (List.mem_cons_of_mem _ hx')
    simp only [List.map_cons, String.join_cons, List.flatMap_cons, String.toList_append, List.append_assoc]
    exact .newline (hx x (by simp) ih)

theorem ModuleImport.scans {i : ModuleImport} (hi : ∀ n ∈ i.names, n.Canonical) {k : List Char} {ls : List Lexeme}
    (h : Scans k ls) : Scans (i.text.toList ++ k) (i.lexemes ++ ls) := by
  simp only [ModuleImport.text, ModuleImport.lexemes, String.toList_append, String.reduceToList, List.cons_append,
    List.nil_append, List.append_assoc]
  refine Scans.keyword .use (.of_head rfl) (.blank rfl ?_)
  exact scans_joined_comma (fun n : Ident => n.name) _ (fun n hn _ _ hk h => .ident (hi n hn) hk.word h)
    (.of_head rfl) (.single rfl (fun _ _ => rfl) h)

theorem scans_path {is : List Ident} (hi : ∀ i ∈ is, IsWord i.name) {k : List Char} {ls : List Lexeme}
    (hk : Kind.ident.Ends k) (h : Scans k ls) :
    Scans ((String.join (is.map fun i => "/" ++ i.name)).toList ++ k)
        (is.flatMap (fun i => [Lexeme.punct .slash, .word i.name]) ++ ls) ∧
      Kind.ident.Ends ((String.join (is.map fun i => "/" ++ i.name)).toList ++ k) := by
  induction is with
  | nil => exact ⟨by simpa using h, by simpa using hk⟩
  | cons i is ih =>
    obtain ⟨h1, h2⟩ := ih fun i hi' => hi i (List.mem_cons_of_mem _ hi')
    simp only [List.map_cons, String.join_cons, List.flatMap_cons, String.toList_append, String.reduceToList,
      List.cons_append, List.nil_append, List.append_assoc]
    exact ⟨.single rfl (fun _ _ => rfl) (.word (hi i (by simp)) h2 h1), .of_head rfl⟩

theorem scans_fragment {f : Option Ident} (hf : fragmentCanonical f) {k : List Char} {ls : List Lexeme}
    (hk : Kind.ident.Ends k) (h : Scans k ls) :
    Scans ((match f with | some i => "#" ++ i.name | none => "").toList ++ k)
        (fragmentLexemes f ++ ls) ∧
      Kind.ident.Ends ((match f with | some i => "#" ++ i.name | none => "").toList ++ k) := by
  cases f with
  | none => exact ⟨h, hk⟩
  | some i =>
    simp only [fragmentLexemes, String.toList_append, String.reduceToList, List.cons_append, List.nil_append]
    refine ⟨?_, .of_head rfl⟩
    by_cases he : i.name = ""
    · rw [if_pos he, he]
      exact .single rfl (fun _ _ => rfl) h
    · rw [if_neg he]
      exact .single rfl (fun _ _ => rfl) (.word (hf.resolve_left he) hk h)

theorem AbsoluteIri.Canonical.scans {a : AbsoluteIri} (ha : a.Canonical) {k : List Char} {ls : List Lexeme}
    (hk : Kind.ident.Ends k) (h : Scans k ls) : Scans (a.text.toList ++ k) (a.lexemes ++ ls) := by
  obtain ⟨⟨i, hi, hic⟩, -, hd, hp, hf⟩ := ha
  obtain ⟨scheme, domain, path, slash, fragment, span⟩ := a
  subst hi
  simp only [AbsoluteIri.text, AbsoluteIri.lexemes, Ident.text?, String.toList_append, String.reduceToList,
    List.cons_append, List.nil_append, List.append_assoc]
  refine .word hic (.of_head rfl) (.single rfl (fun _ _ => rfl) (.single rfl (fun _ _ => rfl)
    (.single rfl (fun _ _ => rfl) ?_)))
  obtain ⟨h1, e1⟩ := scans_fragment hf hk h
  have h2 : ∀ {k ls}, Kind.ident.Ends k → Scans k ls →
      Scans ((if slash then "/" else "").toList ++ k) ((if slash then [Lexeme.punct .slash] else []) ++ ls) ∧
      Kind.ident.Ends ((if slash then "/" else "").toList ++ k) := by
    intro k ls hk h
    cases slash with
    | false => exact ⟨h, hk⟩
    | true => exact ⟨.single rfl (fun _ _ => rfl) h, .of_head rfl⟩
  obtain ⟨h3, e3⟩ := h2 e1 h1
  obtain ⟨h4, e4⟩ := scans_path hp e3 h3
  exact scans_joined_dot Lexeme.word (fun i hi _ _ hk h => .word (hd i hi) hk h) e4 h4

theorem Alias.Written.scans {a : Alias} (ha : a.Written) {k : List Char} {ls : List Lexeme} (h : Scans k ls) :
    Scans (a.text.toList ++ k) (a.lexemes ++ ls) := by
  obtain ⟨⟨x, hx, hxc⟩, ht⟩ := ha
  obtain ⟨name, target, span⟩ := a
  subst hx
  simp only [Alias.text, Alias.lexemes, Ident.text?, Ident.lexemes?, String.toList_append, String.reduceToList,
    List.cons_append, List.nil_append, List.append_assoc]
  refine Scans.keyword .alias (.of_head rfl) (.blank rfl (.ident hxc (.of_head rfl) (.blank rfl ?_)))
  refine Scans.keyword .as (.of_head rfl) (.blank rfl ?_)
  have hend : Scans (';' :: k) (.punct .semicolon :: ls) := .single rfl (fun _ _ => rfl) h
  cases target with
  | none => exact scans_hole (.of_head rfl) hend
  | some t => exact (ht t rfl).scans (.of_head rfl) hend

end SemFront
