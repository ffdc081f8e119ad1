/-
Canonical declarations and programs are read wherever they are spelled. What is read of a program is
written like it: members and declarations come in the order in which they are spelled.
-/
import SemFront.Proofs.Grammar.Program
import SemFront.Proofs.Grammar.StmtComplete

namespace SemFront.Rule

variable {r : Reader} {k : List Token}

/-! ## Functions, properties and members -/

theorem Param.Canonical.lexemes_cons {p : Param} (h : p.Canonical) :
    ∃ l ls, p.lexemes = l :: ls ∧ l.kind ≠ .punct .rparen := by
  cases h <;> exact ⟨_, _, rfl, nofun⟩

/-- The name of a function is not followed by a colon, as that of a property is. -/
theorem heads_of_spells {n : Name} {ls : List Lexeme} (hn : n.Canonical)
    (hs : Spells r.rest (n.lexemes ++ Lexeme.punct .lparen :: ls) k) :
    r.current.kind = .ident ∧ r.advance.current.kind ≠ .punct .colon := by
  obtain ⟨i, is, hp⟩ := List.exists_cons_of_ne_nil hn.nonempty
  simp only [Name.lexemes, hp, joined_dotted, List.cons_append] at hs
  obtain ⟨h1, hs⟩ := Reader.of_spells_cons hs
  refine ⟨congrArg Lexeme.kind h1, ?_⟩
  have h2 : ∃ l ms, dotted .ident is ++ Lexeme.punct .lparen :: ls = l :: ms ∧ l.kind ≠ .punct .colon := by
    cases is with
    | nil => exact ⟨_, _, rfl, fun h => by cases h⟩
    | cons j js => exact ⟨_, _, rfl, fun h => by cases h⟩
  obtain ⟨l, ms, hl, hk⟩ := h2
  rw [hl] at hs
  rw [← Token.lexeme_kind, (Reader.of_spells_cons hs).1]
  exact hk

theorem complete_functionDecl {f : FunctionDecl} (hr : r.WF) (hf : f.Canonical) (hs : Spells r.rest f.lexemes k) :
    r.current.kind = .ident ∧ r.advance.current.kind ≠ .punct .colon ∧
      ∃ g s, functionDecl.Reads r g s ∧ g.erase = f.erase ∧ s.advance.rest = k := by
  obtain ⟨⟨n, hn, hnc⟩, hp, ⟨i, hi, -⟩, hb⟩ := hf
  obtain ⟨name, ps, type, body, span⟩ := f
  subst hn hi
  simp only [FunctionDecl.lexemes, Name.lexemes?, Ident.lexemes?, List.append_assoc, List.cons_append,
    List.nil_append] at hs
  obtain ⟨hk1, hk2⟩ := heads_of_spells hnc hs
  obtain ⟨a, h1, hs⟩ := spells_append.1 hs
  obtain ⟨n', m, hn', hne, rfl⟩ := complete_dottedName hr hnc h1 (by simp [hs.headKind, Lexeme.punct])
  have hm := hn'.leads.wf hr
  obtain ⟨h2, hs⟩ := Reader.of_spells_cons hs
  rw [List.append_cons (Lexeme.joined _ _)] at hs
  obtain ⟨a, h3, hs⟩ := spells_append.1 hs
  obtain ⟨ps', q, hps, hpe, rfl⟩ := complete_param.manyItems .parameter (by decide) (fun _ _ => .inl rfl)
    (fun _ _ => .inr rfl) (fun _ h => Param.Canonical.lexemes_cons h) hp hm.advance.advance h3
  have hq := hps.leads.wf hm.advance.advance
  obtain ⟨h4, hs⟩ := Reader.of_spells_cons hs
  obtain ⟨h5, hs⟩ := Reader.of_spells_cons hs
  obtain ⟨k5, n5⟩ := Token.ident_of_lexeme h5
  obtain ⟨a, h6, hs⟩ := spells_append.1 hs
  have k6 : q.advance.advance.advance.current.kind = .punct .lbrace := by
    rw [Block.Canonical.lexemes hb] at h6
    exact congrArg Lexeme.kind (Reader.of_spells_cons h6).1
  obtain ⟨b, t, hb', hbe, rfl⟩ := complete_block hq.advance.advance.advance hb h6
  obtain ⟨h7, hs⟩ := Reader.of_spells_cons hs
  have k7 : t.advance.current.kind = .punct .semicolon := congrArg Lexeme.kind h7
  refine ⟨hk1, hk2, _, t.advance, reads_functionDecl.2 ⟨n', m, ps', q, b, t, hn', congrArg Lexeme.kind h2,
    reads_params.2 hps, congrArg Lexeme.kind h4, k5, k6, hb', (if_pos k7).symm, rfl⟩, ?_, spells_nil.1 hs⟩
  simp [FunctionDecl.erase, hne, hpe, Ident.erase_eq n5, hbe]

theorem complete_propertyDecl {p : PropertyDecl} (hp : p.Canonical) (hs : Spells r.rest p.lexemes k) :
    r.current.kind = .ident ∧ r.advance.current.kind = .punct .colon ∧
      ∃ q s, propertyDecl.Reads r q s ∧ q.erase = p.erase ∧ s.advance.rest = k := by
  obtain ⟨⟨x, hx, -⟩, i, hi, -⟩ := hp
  obtain ⟨name, type, span⟩ := p
  subst hx hi
  simp only [PropertyDecl.lexemes, Ident.lexemes?, List.cons_append, List.nil_append] at hs
  obtain ⟨h1, hs⟩ := Reader.of_spells_cons hs
  obtain ⟨h2, hs⟩ := Reader.of_spells_cons hs
  obtain ⟨h3, hs⟩ := Reader.of_spells_cons hs
  obtain ⟨h4, hs⟩ := Reader.of_spells_cons hs
  obtain ⟨k1, n1⟩ := Token.ident_of_lexeme h1
  obtain ⟨k3, n3⟩ := Token.ident_of_lexeme h3
  refine ⟨k1, congrArg Lexeme.kind h2, _, _, reads_propertyDecl.2 ⟨k3, congrArg Lexeme.kind h4, rfl, rfl⟩, ?_,
    spells_nil.1 hs⟩
  simp [PropertyDecl.erase, Ident.erase_eq n1, Ident.erase_eq n3]

theorem complete_member {m : Member} (hr : r.WF) (hm : m.Canonical) (hs : Spells r.rest m.lexemes k) :
    ∃ m' s, ReadsMember r m' s ∧ m'.erase = m.erase ∧ s.advance.rest = k := by
  cases m with
  | property p =>
    obtain ⟨hi, hc, q, s, hq, he, hk⟩ := complete_propertyDecl hm hs
    exact ⟨.property q, s, ⟨hi, hc, hq⟩, congrArg Member.property he, hk⟩
  | method f =>
    obtain ⟨hi, hc, g, s, hg, he, hk⟩ := complete_functionDecl hr hm hs
    exact ⟨.method g, s, ⟨hi, hc, hg⟩, congrArg Member.method he, hk⟩

/-! ## Imports and aliases -/

theorem complete_moduleName :
    moduleName.Complete (fun i => [.ident i.name]) Ident.Canonical (fun _ _ => True) Ident.erase := by
  intro r i k _ _ hs _
  obtain ⟨h1, hs⟩ := Reader.of_spells_cons hs
  obtain ⟨k1, n1⟩ := Token.ident_of_lexeme h1
  exact ⟨_, r, reads_moduleName.2 ⟨k1, rfl, rfl⟩, Ident.erase_eq n1, spells_nil.1 hs⟩

theorem complete_moduleImport {i : ModuleImport} (hr : r.WF) (hi : i.Canonical) (hs : Spells r.rest i.lexemes k) :
    ∃ j s, ReadsImport r j s ∧ j.erase = i.erase ∧ s.advance.rest = k := by
  simp only [ModuleImport.lexemes, List.cons_append] at hs
  obtain ⟨h1, hs⟩ := Reader.of_spells_cons hs
  obtain ⟨ns, s, hns, he, hk⟩ := complete_moduleName.someItems .moduleName (by decide) (fun _ _ => trivial)
    (fun _ _ => trivial) (fun _ _ => ⟨_, _, rfl, fun h => by cases h⟩) hi.nonempty hi.names hr.advance hs
  refine ⟨_, s, ⟨congrArg Lexeme.kind h1, reads_moduleImport.2 ⟨ns, hns, rfl⟩⟩, ?_, hk⟩
  simp [ModuleImport.erase, he]

theorem complete_aliasDecl {a : Alias} (hr : r.WF) (ha : a.Canonical) (hs : Spells r.rest a.lexemes k) :
    ∃ b s, ReadsAlias r b s ∧ b.erase = a.erase ∧ s.advance.rest = k := by
  obtain ⟨⟨x, hx, -⟩, t, ht, htc⟩ := ha
  obtain ⟨name, target, span⟩ := a
  subst hx ht
  simp only [Alias.lexemes, Ident.lexemes?, Option.map_some, Option.getD_some, List.cons_append,
    List.nil_append] at hs
  obtain ⟨h1, hs⟩ := Reader.of_spells_cons hs
  obtain ⟨h2, hs⟩ := Reader.of_spells_cons hs
  obtain ⟨h3, hs⟩ := Reader.of_spells_cons hs
  obtain ⟨k2, n2⟩ := Token.ident_of_lexeme h2
  obtain ⟨c, h4, hs⟩ := spells_append.1 hs
  obtain ⟨t', m, ht', hte, rfl⟩ := complete_iri hr.advance.advance.advance htc h4
    (hs.headKind ▸ endsIri_semicolon)
  obtain ⟨h5, hs⟩ := Reader.of_spells_cons hs
  refine ⟨_, m.advance, ⟨congrArg Lexeme.kind h1, reads_aliasDecl.2 ⟨k2, congrArg Lexeme.kind h3, t', m, ht',
    congrArg Lexeme.kind h5, rfl, rfl⟩⟩, ?_, spells_nil.1 hs⟩
  simp [Alias.erase, Ident.erase_eq n2, hte]

/-! ## Classes and programs -/

theorem complete_classDef {c : ClassDef} (hr : r.WF) (hc : c.Canonical) (hs : Spells r.rest c.lexemes k) :
    r.current.kind = .keyword .classWord ∧ ∃ d s, classDef.Reads r (d, true) s ∧
      (Decl.classDef d).shape = (Decl.classDef c).shape ∧ s.advance.rest = k := by
  obtain ⟨i, hi, -⟩ := hc.name
  simp only [ClassDef.lexemes, hi, Ident.lexemes?, List.cons_append, List.nil_append] at hs
  obtain ⟨h1, hs⟩ := Reader.of_spells_cons hs
  obtain ⟨h2, hs⟩ := Reader.of_spells_cons hs
  obtain ⟨h3, hs⟩ := Reader.of_spells_cons hs
  obtain ⟨k2, n2⟩ := Token.ident_of_lexeme h2
  obtain ⟨b, h4, hs⟩ := spells_append.1 hs
  have hr3 := hr.advance.advance.advance
  obtain ⟨ms, s, hms, he, rfl⟩ := InTurn.complete steps_readsMember (fun _ _ _ hr hm hs => complete_member hr hm hs)
    c.members hc.members _ hr3 h4
  obtain ⟨h5, hs⟩ := Reader.of_spells_cons hs
  have hord : ms.Pairwise fun a b => a.span.start < b.span.start :=
    (hms.ascending steps_readsMember (fun _ _ _ hr h => (sound_member hr h).start) hr3).1
  refine ⟨congrArg Lexeme.kind h1, _, s, (reads_classDef hr).2 ⟨k2, congrArg Lexeme.kind h3, congrArg Lexeme.kind h5, rfl,
    ms, hms, rfl⟩, ?_, spells_nil.1 hs⟩
  rw [Decl.shape, Decl.shape, ClassDef.members_eq hord rfl rfl, he, hi]
  simp [classOf, Ident.erase_eq n2]

theorem complete_decl {d : Decl} (hr : r.WF) (hd : d.Canonical) (hs : Spells r.rest d.lexemes k) :
    ∃ d' s, ReadsDecl r d' s ∧ d'.shape = d.shape ∧ s.advance.rest = k := by
  cases d with
  | classDef c =>
    obtain ⟨hk, c', s, hc', he, hrest⟩ := complete_classDef hr hd hs
    exact ⟨.classDef c', s, ⟨hk, hc'⟩, he, hrest⟩
  | function f =>
    obtain ⟨hk, -, g, s, hg, he, hrest⟩ := complete_functionDecl hr hd hs
    exact ⟨.function g, s, ⟨hk, hg⟩, congrArg Sum.inr he, hrest⟩

/-- A canonical program is read from tokens that spell it, as one that is written like it. -/
theorem complete_program {p : Program} (hr : r.WF) (hp : p.Canonical) (hs : Spells r.rest p.lexemes []) :
    ∃ q s, program.Reads r q s ∧ q.Alike p := by
  obtain ⟨b, h1, h3⟩ := spells_append.1 hs
  obtain ⟨a, h1, h2⟩ := spells_append.1 h1
  obtain ⟨is, m, his, ei, rfl⟩ := InTurn.complete steps_readsImport
    (fun _ _ _ hr hi hs => complete_moduleImport hr hi hs) p.imports hp.imports r hr h1
  have hm := (his.leads steps_readsImport).wf hr
  obtain ⟨as, n, has, ea, rfl⟩ := InTurn.complete steps_readsAlias
    (fun _ _ _ hr ha hs => complete_aliasDecl hr ha hs) p.aliases hp.aliases m hm h2
  have hn := (has.leads steps_readsAlias).wf hm
  obtain ⟨ds, s, hds, ed, hrest⟩ := InTurn.complete steps_readsDecl
    (fun _ _ _ hr hd hs => complete_decl hr hd hs) p.decls hp.decls n hn h3
  have hs := (hds.leads steps_readsDecl).wf hn
  have hord : ds.Pairwise fun a b => a.span.start < b.span.start :=
    (hds.ascending steps_readsDecl (fun _ _ _ hr h => (sound_decl hr h).start) hn).1
  have hk : s.current.kind = .eof := by rw [hs.current_kind, hrest]; rfl
  refine ⟨_, s, (reads_program hr).2 ⟨hk, is, as, ds, ⟨m, n, his, has, hds⟩, rfl⟩, ei, ea, ?_⟩
  rw [Program.decls_eq hord rfl rfl]
  exact ed

end SemFront.Rule
