/-
The placeholders that the text of a program shows. A walk passes the text if, and only if, all of the
placeholders are hidden, so a text that shows one is not read without diagnostics.
-/
import SemFront.Proofs.Marks.Expr
import SemFront.Proofs.RoundTrip
import SemFront.Proofs.Written.Program

namespace SemFront

open Place

variable {L : Losses}

namespace Place

variable {as bs : List Lexeme} {m n : Int}

/-- A part with the punctuation that ends it. -/
theorem Shows.ended (ha : Shows as m) (o : Punct) (ho : isPlain (.punct o) = true ∧ behind (.punct o) = .free) :
    Closed (as ++ [Lexeme.punct o]) m := by
  refine ha.close ho.1 fun ms => ?_
  rw [List.nil_append]
  exact congrArg (Place.along · ms) ho.2

/-- A part with what stands in braces behind it. -/
theorem Shows.braced (ha : Shows as m) (hb : Shows bs n) :
    Closed (as ++ Lexeme.punct .lbrace :: bs ++ [Lexeme.punct .rbrace]) (m + n) := by
  have h := ((ha.ended .lbrace ⟨rfl, rfl⟩).append_shows hb).ended .rbrace ⟨rfl, rfl⟩
  simpa using h

/-- A part with a block behind it. -/
theorem Shows.block (ha : Shows as m) {ss : List Stmt} {s : Span}
    (h : ∀ st ∈ ss, Shows st.lexemes (total Node.visible [st.outline])) :
    Closed (as ++ (Block.mk ss s).lexemes) (m + total Node.visible (Block.mk ss s).outline) := by
  have hstmts : Closed (Stmt.lexemesAll ss) (total Node.visible (Stmt.outlines ss)) := by
    rw [Stmt.lexemesAll_eq, Stmt.outlines_eq, List.map_eq_flatMap]
    exact Closed.flatMap fun st hst => (h st hst).ended .semicolon ⟨rfl, rfl⟩
  have hb := ha.braced hstmts.shows
  simpa [Block.lexemes, Block.outline, Node.visible] using hb

/-- A part with a constraint behind it. -/
theorem Shows.constraint (ha : Shows as m) {e : Expr} (he : e.OptionalWritten) :
    Shows (as ++ constraintLexemes e) (m + total Node.visible e.outline) := by
  rcases he with rfl | he
  · simpa [constraintLexemes, Expr.outline] using ha
  · have h := (ha.ended .pipe ⟨rfl, rfl⟩).append_shows he.marked.shows
    rw [constraintLexemes_of_ne_absent he.ne_absent]
    simpa using h

/-- What a name and a colon come before. -/
theorem Shows.labelled (ha : Shows as m) (x : Ident) : Shows (.ident x.name :: .punct .colon :: as) m := by
  have hlabel : Closed [.ident x.name, .punct .colon] 0 := .of_walk fun _ => rfl
  simpa using hlabel.append_shows ha

end Place

/-! ## Statements -/

theorem TypeRef.Written.shows {t : TypeRef} (ht : t.Written) : Shows t.lexemes (total Node.visible [t.outline]) := by
  rcases t with ⟨_ | i, isList, s⟩ | s
  · exact absurd ht id
  · cases isList with
    | false => simpa [TypeRef.lexemes, Ident.lexemes?, TypeRef.outline, Node.visible] using shows_ident i.name
    | true =>
      have h : Closed [.keyword .list, .punct .less, .ident i.name, .punct .greater] 0 := .of_walk fun _ => rfl
      simpa [TypeRef.lexemes, Ident.lexemes?, TypeRef.outline, Node.visible] using h.shows
  · exact shows_hole

theorem Stmt.Written.shows {st : Stmt} (hst : st.Written L) : Shows st.lexemes (total Node.visible [st.outline]) := by
  have hword : ∀ k : Keyword, k = .if ∨ k = .while ∨ k = .with ∨ k = .return ∨ k = .else → Closed [.keyword k] 0 := by
    rintro k (rfl | rfl | rfl | rfl | rfl) <;> exact .of_walk fun _ => rfl
  induction hst with
  | @ifThen c ys t s hc _ ih =>
    have h := ((hword .if (by simp)).append_shows hc.marked.shows).block (s := t) ih
    simpa [Stmt.lexemes, Stmt.outline, Node.visible, Block.outline] using h.shows
  | @ifElse c ys ns t u s hc _ _ ihy ihn =>
    have hyes := ((hword .if (by simp)).append_shows hc.marked.shows).block (s := t) ihy
    have hno := (hword .else (by simp)).append (shows_nil.block (s := u) ihn)
    simpa [Stmt.lexemes, Stmt.outline, Node.visible, Int.add_assoc] using (hyes.append hno).shows
  | @whileLoop c bs t s hc _ ih =>
    have h := ((hword .while (by simp)).append_shows hc.marked.shows).block (s := t) ih
    simpa [Stmt.lexemes, Stmt.outline, Node.visible] using h.shows
  | @withBlock c bs t s hc _ ih =>
    have h := ((hword .with (by simp)).append_shows hc.marked.shows).block (s := t) ih
    simpa [Stmt.lexemes, Stmt.outline, Node.visible] using h.shows
  | @varDecl x t e s _ ht he =>
    rcases he with rfl | he
    · simpa [Stmt.lexemes, Ident.lexemes?, Stmt.outline, Node.visible, Expr.outline] using ht.shows.labelled x
    · have h := ((ht.shows.labelled x).ended .assign ⟨rfl, rfl⟩).append_shows he.marked.shows
      rw [Stmt.lexemes_varDecl he.ne_absent]
      simpa [Ident.lexemes?, Stmt.outline, Node.visible, total_cons t.outline e.outline] using h
  | @assign n e s hn he =>
    have h := ((shows_name hn).ended .assign ⟨rfl, rfl⟩).append_shows he.marked.shows
    simpa [Stmt.lexemes, Name.lexemes?, Stmt.outline, Node.visible] using h
  | @ret e s he =>
    have h := (hword .return (by simp)).append_shows he.marked.shows
    simpa [Stmt.lexemes, Stmt.outline, Node.visible] using h
  | @expr e s he => simpa [Stmt.lexemes, Stmt.outline, Node.visible] using he.marked.shows
  | bad => exact shows_hole

/-! ## Declarations -/

theorem Binding.Written.shows {b : Binding} (hb : b.Written) : Shows b.lexemes (total Node.visible [b.outline]) := by
  induction hb with
  | @leaf x p c s _ _ hc =>
    have h := ((shows_ident p.name).labelled x).constraint hc
    simpa [Binding.lexemes, Ident.lexemes?, Binding.outline, Node.visible] using h
  | @nested x p bs s _ _ _ ih =>
    have hbs : Shows (Lexeme.joined (.punct .comma) (bs.map Binding.lexemes)) _ := Shows.joined rfl rfl ih
    have h := ((shows_ident p.name).labelled x).braced hbs
    simpa [Binding.lexemes, Ident.lexemes?, Binding.outline, Node.visible, Expr.outline, constraintLexemes,
      Binding.outlines_eq, List.map_eq_flatMap] using h.shows

theorem Param.Written.shows {p : Param} (hp : p.Written L) : Shows p.lexemes (total Node.visible [p.outline]) := by
  cases hp with
  | @simple x n c s _ hn hc =>
    have h := ((shows_name hn).labelled x).constraint hc
    simpa [Param.lexemes, Ident.lexemes?, Name.lexemes?, Param.outline, Node.visible] using h
  | @destructuring x n bs s _ hn hbs =>
    have hbs : Shows (Lexeme.joined (.punct .comma) (bs.map Binding.lexemes)) _ :=
      Shows.joined rfl rfl fun b hb => (hbs b hb).shows
    have h := ((shows_name hn).labelled x).braced hbs
    simpa [Param.lexemes, Ident.lexemes?, Name.lexemes?, Param.outline, Node.visible, Binding.outlines_eq,
      List.map_eq_flatMap] using h.shows
  | bad => exact shows_hole

theorem FunctionDecl.Written.closed {f : FunctionDecl} (hf : f.Written L) :
    Closed f.lexemes (total Node.visible [f.outline]) := by
  obtain ⟨n, hname, hn⟩ := hf.name
  obtain ⟨i, htype, -⟩ := hf.returnType
  have hbody := hf.body
  cases hb : f.body with
  | absent =>
    rw [hb] at hbody
    exact absurd hbody id
  | mk ss s =>
    rw [hb] at hbody
    have hparams : Shows (Lexeme.joined (.punct .comma) (f.params.map Param.lexemes)) _ :=
      Shows.joined rfl rfl fun p hp => (hf.params p hp).shows
    have hopen : Closed (n.lexemes ++ [Lexeme.punct .lparen]) 0 := .of_walk fun ms => by
      rw [List.append_assoc, along_name (.inl rfl) hn]
      rfl
    have hhead : Closed (n.lexemes ++ [Lexeme.punct .lparen] ++ _ ++ Lexeme.punct .rparen :: [Lexeme.punct .colon]) _ :=
      (hopen.append_shows hparams).close rfl fun _ => rfl
    have h := ((hhead.append_shows (shows_ident i.name)).block (s := s) fun st hst => (hbody st hst).shows).append
      (shows_nil.ended .semicolon ⟨rfl, rfl⟩)
    simpa [FunctionDecl.lexemes, hname, htype, hb, Name.lexemes?, Ident.lexemes?, FunctionDecl.outline, Node.visible,
      List.map_eq_flatMap] using h

theorem PropertyDecl.Canonical.closed {p : PropertyDecl} (hp : p.Canonical) :
    Closed p.lexemes (total Node.visible [p.outline]) := by
  obtain ⟨i, hi, -⟩ := hp.name
  obtain ⟨t, ht, -⟩ := hp.type
  have h : Closed [.ident i.name, .punct .colon, .ident t.name, .punct .semicolon] 0 := .of_walk fun _ => rfl
  simpa [PropertyDecl.lexemes, hi, ht, Ident.lexemes?, PropertyDecl.outline, Node.visible] using h

/-- Parts written in another order than the one in which they are kept. -/
theorem Place.Closed.flatMap_perm {xs ys : List α} {f : α → List Lexeme} {g : α → List Outline} (hperm : xs.Perm ys)
    (h : ∀ x ∈ xs, Closed (f x) (total Node.visible (g x))) :
    Closed (xs.flatMap f) (total Node.visible (ys.flatMap g)) := by
  have hnodes := (hperm.flatMap_right g).flatMap_right Outline.nodes
  have hvisible : total Node.visible (xs.flatMap g) = total Node.visible (ys.flatMap g) :=
    (hnodes.map Node.visible).sum_eq
  rw [← hvisible]
  exact Closed.flatMap h

/-- Placeholders of members and declarations are all hidden. -/
@[simp] theorem visible_badDecls (ss : List Span) : total Node.visible (ss.map fun s => .leaf (.badDecl s)) = 0 := by
  refine total_eq_zero fun o ho => ?_
  obtain ⟨s, -, rfl⟩ := List.mem_map.1 ho
  rfl

theorem ClassDef.Written.closed {c : ClassDef} (hc : c.Written L) :
    Closed c.lexemes (total Node.visible [c.outline]) := by
  obtain ⟨i, hi, -⟩ := hc.name
  have hmember : ∀ m ∈ c.members, Closed m.lexemes (total Node.visible [m.outline]) := by
    intro m hm
    have hm := hc.members m hm
    cases m with
    | property p => exact PropertyDecl.Canonical.closed hm
    | method f => exact FunctionDecl.Written.closed hm
  have hperm : c.members.Perm (c.properties.map .property ++ c.methods.map .method) :=
    stableSort_perm (fun m : Member => m.span.start) _
  have hmembers := Closed.flatMap_perm hperm hmember
  have hclass : Closed [.keyword .classWord] 0 := .of_walk fun _ => rfl
  have h := (hclass.append_shows (shows_ident i.name)).braced hmembers.shows
  simpa [ClassDef.lexemes, hi, Ident.lexemes?, ClassDef.outline, Node.visible, Member.outline, List.flatMap_append,
    List.flatMap_map, ← List.map_eq_flatMap] using h

/-- Words with a separator between neighbours. -/
theorem shows_words {is : List Ident} {f : String → Lexeme} {sep : Lexeme} (hf : ∀ w, Shows [f w] 0)
    (hsep : isPlain sep.kind = true) (hfree : behind sep.kind = .free) :
    Shows (Lexeme.joined sep (is.map fun i => [f i.name])) 0 := by
  have h : Shows (Lexeme.joined sep (is.map fun i => [f i.name]))
      (total Node.visible (is.flatMap fun i => [i.outline])) :=
    Shows.joined hsep hfree fun i _ => hf i.name
  rwa [← List.map_eq_flatMap, visible_idents] at h

theorem ModuleImport.closed (i : ModuleImport) : Closed i.lexemes (total Node.visible [i.outline]) := by
  have hnames : Shows (Lexeme.joined (.punct .comma) (i.names.map fun n => [.ident n.name])) 0 :=
    shows_words shows_ident rfl rfl
  have huse : Closed [.keyword .use] 0 := .of_walk fun _ => rfl
  have h := (huse.append_shows hnames).ended .semicolon ⟨rfl, rfl⟩
  simpa [ModuleImport.lexemes, ModuleImport.outline, Node.visible] using h

theorem AbsoluteIri.Canonical.shows {a : AbsoluteIri} (ha : a.Canonical) : Shows a.lexemes 0 := by
  obtain ⟨i, hi, -⟩ := ha.scheme
  have hscheme : Closed ([Lexeme.word i.name] ++ Lexeme.punct .colon :: [Lexeme.punct .slash, Lexeme.punct .slash]) 0 :=
    (shows_word i.name).close rfl fun _ => rfl
  have hdomain : Shows (Lexeme.joined (.punct .dot) (a.domain.map fun i => [.word i.name])) 0 :=
    shows_words shows_word rfl rfl
  have hpath : ∀ (is : List Ident) {ls : List Lexeme}, Shows ls 0 →
      Shows (ls ++ is.flatMap fun i => [Lexeme.punct .slash, Lexeme.word i.name]) 0 := by
    intro is
    induction is with
    | nil => intro ls hls; simpa using hls
    | cons i is ih =>
      intro ls hls
      have h := ih ((hls.ended .slash ⟨rfl, rfl⟩).append_shows (shows_word i.name))
      simpa using h
  have hslash : ∀ {ls : List Lexeme}, Shows ls 0 →
      Shows (ls ++ if a.trailingSlash then [Lexeme.punct .slash] else []) 0 := by
    intro ls hls
    cases a.trailingSlash with
    | false => simpa using hls
    | true => exact (hls.ended .slash ⟨rfl, rfl⟩).shows
  have hfragment : ∀ {ls : List Lexeme}, Shows ls 0 → Shows (ls ++ fragmentLexemes a.fragment) 0 := by
    intro ls hls
    cases a.fragment with
    | none => simpa [fragmentLexemes] using hls
    | some i =>
      have hhash := hls.ended .hash ⟨rfl, rfl⟩
      by_cases hname : i.name = ""
      · simpa [fragmentLexemes, hname] using hhash.shows
      · simpa [fragmentLexemes, hname] using hhash.append_shows (shows_word i.name)
  have h := hfragment (hslash (hpath a.path (hscheme.append_shows hdomain)))
  simpa [AbsoluteIri.lexemes, hi] using h

/-- A missing target is marked like a placeholder. -/
theorem Alias.Written.closed {a : Alias} (ha : a.Written) : Closed a.lexemes (if a.target.isNone then 1 else 0) := by
  obtain ⟨i, hi, -⟩ := ha.name
  have hhead : Closed [.keyword .alias, .ident i.name, .keyword .as] 0 := .of_walk fun _ => rfl
  have htarget : Shows ((a.target.map AbsoluteIri.lexemes).getD holeLexemes) (if a.target.isNone then 1 else 0) := by
    cases ht : a.target with
    | none => exact shows_hole
    | some t => exact (ha.target t ht).shows
  have h := (hhead.append_shows htarget).ended .semicolon ⟨rfl, rfl⟩
  simpa [Alias.lexemes, hi, Ident.lexemes?] using h

theorem Alias.Written.closed_all {as : List Alias} (h : ∀ a ∈ as, a.Written) :
    Closed (as.flatMap Alias.lexemes) (as.countP (·.target.isNone)) := by
  induction as with
  | nil => exact .of_walk fun _ => rfl
  | cons a as ih =>
    have hall := (h a List.mem_cons_self).closed.append (ih fun b hb => h b (List.mem_cons_of_mem _ hb))
    cases ht : a.target <;> simpa [List.countP_cons, ht, Int.add_comm] using hall

theorem Alias.visible_outline (a : Alias) : total Node.visible [a.outline] = 0 := by
  have htarget : total Node.visible (a.target.toList.map fun t => (Iri.absolute t).outline) = 0 := by
    cases a.target with
    | none => rfl
    | some t => simp [Iri.outline, Node.visible]
  simp [Alias.outline, Node.visible, htarget]

theorem Program.Written.closed {p : Program} (hp : p.Written L) :
    Closed p.lexemes (total Node.visible [p.outline] + p.aliases.countP (·.target.isNone)) := by
  have himports : Closed (p.imports.flatMap ModuleImport.lexemes)
      (total Node.visible (p.imports.map ModuleImport.outline)) := by
    rw [List.map_eq_flatMap]
    exact Closed.flatMap fun i _ => i.closed
  have haliases : total Node.visible (p.aliases.map Alias.outline) = 0 := total_eq_zero fun o ho => by
    obtain ⟨a, -, rfl⟩ := List.mem_map.1 ho
    exact a.visible_outline
  have hdecl : ∀ d ∈ p.decls, Closed d.lexemes (total Node.visible [d.outline]) := by
    intro d hd
    have hd := hp.decls d hd
    cases d with
    | classDef c => exact ClassDef.Written.closed hd
    | function f => exact FunctionDecl.Written.closed hd
  have hperm : p.decls.Perm (p.classes.map .classDef ++ p.functions.map .function) :=
    stableSort_perm (fun d : Decl => d.span.start) _
  have h := (himports.append (Alias.Written.closed_all hp.aliases)).append (Closed.flatMap_perm hperm hdecl)
  have hvisible : total Node.visible [p.outline] + p.aliases.countP (·.target.isNone) =
      total Node.visible (p.imports.map ModuleImport.outline) + p.aliases.countP (·.target.isNone) +
        total Node.visible
          ((p.classes.map Decl.classDef ++ p.functions.map Decl.function).flatMap fun d => [d.outline]) := by
    simp only [Program.outline, total_mk, Node.visible, total_append, haliases, visible_badDecls,
      total_nil, List.flatMap_append, List.flatMap_map, Decl.outline, ← List.map_eq_flatMap]
    omega
  rw [hvisible]
  exact h

/-! ## Reading the text -/

theorem visible_singleton (o : Outline) :
    total Node.visible [o] = (o.placeholders : Int) - (o.nodes.countP Node.hides : Int) := by
  unfold total Outline.placeholders
  rw [List.flatMap_singleton]
  induction o.nodes with
  | nil => rfl
  | cons n ns ih =>
    rw [List.map_cons, List.sum_cons, ih, Node.visible_eq, List.countP_cons, List.countP_cons]
    split <;> split <;> omega

/-- A walk passes a canonical program: it has no placeholders, so it hides none. -/
theorem Program.Canonical.passed {p : Program} (hp : p.Canonical) : free.along p.lexemes = some .free := by
  have hclosed := (hp.written (L := ⟨fun _ => True, fun _ => True, fun _ => True, fun _ => True⟩)).closed
  obtain ⟨hplaceholders, htargets⟩ := hp.placeholders
  have hmissing : p.aliases.countP (·.target.isNone) = 0 :=
    List.countP_eq_zero.2 fun a ha hn => htargets a ha (Option.isNone_iff_eq_none.1 hn)
  have hnonneg := hclosed.nonneg
  rw [hmissing, visible_singleton, hplaceholders] at hnonneg
  have hwalk := hclosed.walk []
  rw [List.append_nil, hmissing, visible_singleton, hplaceholders, if_pos (by omega)] at hwalk
  exact hwalk

variable {file source : String} {limit : Nat}

/-- A walk passes whatever is read without diagnostics. -/
theorem passed_of_clean {ls : List Lexeme} (hs : Scans source.toList ls)
    (h : (readProgram file source limit).diagnostics = []) : free.along ls = some .free := by
  obtain ⟨r, s, e, htok, he, hr, hread⟩ := reads_program_of_clean h
  obtain ⟨hcanonical, -, hedit⟩ := Rule.sound_program hr hread
  have hlex : r.rest.map Token.lexeme ++ [Lexeme.eof] = ls ++ [Lexeme.eof] := by
    rw [← lexemes_tokenize hs, htok, List.map_append, List.map_singleton, he]
  rw [← List.append_cancel_right hlex]
  exact along_of_edit hedit rfl _ _ hcanonical.passed

/-- How many parts of a program could not be read: placeholders, and targets that aliases lack. -/
def Program.unread (p : Program) : Nat := p.outline.placeholders + p.aliases.countP (·.target.isNone)

/-- How many placeholders of a program cannot be seen in its text. -/
def Program.hidden (p : Program) : Nat := p.outline.nodes.countP Node.hides

/-- A text that is read without diagnostics hides all that could not be read of the program it was written from. -/
theorem Program.Written.hidden_of_clean {p : Program} (hp : p.Written L)
    (h : (readProgram file p.text limit).diagnostics = []) : p.unread = p.hidden := by
  have hwalk := hp.closed.walk []
  rw [List.append_nil, passed_of_clean hp.scans h, visible_singleton] at hwalk
  unfold Program.unread Program.hidden
  by_contra hne
  rw [if_neg (by omega)] at hwalk
  cases hwalk

/-- Of any source of which something could not be read, the text written from the program is not read without
diagnostics, unless it hides all of that: placeholders of declarations and members, which are not written, and
placeholders in casts that a minus sign follows. -/
theorem readProgram_text_marked
    (h : (readProgram file source limit).value.hidden < (readProgram file source limit).value.unread) (file' : String)
    (limit' : Nat) : (readProgram file' (readProgram file source limit).value.text limit').diagnostics ≠ [] := by
  intro hclean
  have hall := (readProgram_written file source limit).hidden_of_clean hclean
  omega

/-- A source with placeholders of four kinds, two of them hidden. -/
def halfHidden : { source : String // (readProgram "a.sem" source).value.hidden = 2 ∧
    (readProgram "a.sem" source).value.outline.placeholders = 4 ∧ (readProgram "a.sem" source).value.unread = 4 } :=
  ⟨"; f(5): R \x7b return (T) [x | a] - 1; x = \x7d", by decide +kernel⟩

theorem readProgram_text_marked_half : (readProgram "a.sem" halfHidden.val).value.outline.placeholders = 4 ∧
    (readProgram "a.sem" halfHidden.val).value.hidden < (readProgram "a.sem" halfHidden.val).value.unread ∧
    (readProgram "b.sem" (readProgram "a.sem" halfHidden.val).value.text).diagnostics ≠ [] := by
  obtain ⟨hhidden, hplaceholders, hunread⟩ := halfHidden.property
  have hlt : (readProgram "a.sem" halfHidden.val).value.hidden < (readProgram "a.sem" halfHidden.val).value.unread := by
    omega
  exact ⟨hplaceholders, hlt, readProgram_text_marked hlt "b.sem" 0⟩

/-- What comes of a source whose program is written and read again: the placeholders of the program, its text, and
whether the text is read without diagnostics. -/
def rewritten (source : String) : Nat × String × Bool :=
  let p := (readProgram "a.sem" source).value
  (p.outline.placeholders, p.text, ((readProgram "b.sem" p.text).diagnostics).isEmpty)

/-- Where all placeholders are hidden, the text may be read without diagnostics: it is empty for a declaration that
was given up, and a comparison stands where the operand of a cast could not be read. -/
theorem text_hides_placeholders : rewritten ";" = (1, "", true) ∧
    rewritten "f(): R \x7b return (T) [x | a] - 1; \x7d" = (1, "f(): R \x7b\n  return (T) <bad> - 1;\n\x7d;", true) := by
  decide +kernel

end SemFront
