/-
Reading declarations and programs: what is read without reports is canonical, in the order of the
source, and spells the tokens read, but for the semicolon that canonical text has behind every body.
-/
import SemFront.Grammar.Decl
import SemFront.Proofs.Grammar.Param
import SemFront.Proofs.Grammar.Stmt
import SemFront.Proofs.Tree.Order

namespace SemFront

/-- The body of a method. -/
def Member.bodies : Member → List Block
  | .property _ => []
  | .method m => [m.body]

/-- The bodies of the methods of a class, or of a function. -/
def Decl.bodies : Decl → List Block
  | .classDef c => c.methods.map FunctionDecl.body
  | .function f => [f.body]

theorem flatMap_bodies (ms : List Member) :
    ms.flatMap Member.bodies = (ms.filterMap Member.method?).map FunctionDecl.body := by
  induction ms with
  | nil => rfl
  | cons m ms ih => cases m <;> simp [ih, List.filterMap_cons, Member.bodies, Member.method?]

namespace Rule

/-! ## The rules one by one -/

section Specs

set_option synthInstance.maxSize 1000

variable {r s : Reader}

instance : Honest optionalSemicolon := by unfold optionalSemicolon; infer_instance

instance : Honest functionDecl := by unfold functionDecl; infer_instance

instance : Honest moduleName := by unfold moduleName; infer_instance

instance : Honest moduleImport := by unfold moduleImport; infer_instance

instance : Honest aliasTarget := by
  unfold aliasTarget
  refine @Honest.bind _ _ _ _ inferInstance fun i => ?_
  cases i <;> infer_instance

instance : Honest aliasDecl := by unfold aliasDecl; infer_instance

instance : Honest propertyDecl := by unfold propertyDecl; infer_instance

instance : Honest member := by unfold member; infer_instance

instance {b : ClassBody} : Honest (memberRound b) := by
  unfold memberRound
  refine @Honest.bind _ _ _ _ inferInstance fun t => @Honest.ite _ _ _ _ _ inferInstance ?_
  refine @Honest.bind _ _ _ _ inferInstance fun o => ?_
  cases o with
  | none => infer_instance
  | some m =>
    refine @Honest.bind _ _ _ _ inferInstance fun t => @Honest.bind _ _ _ _ inferInstance fun _ => ?_
    cases m <;> infer_instance

instance : Honest classDef := by unfold classDef; infer_instance

instance {α : Type} {t : Token} {p : Progress} {x : Rule α} [Honest x] {keep : α → Progress} :
    Honest (keepOrRecover t p x keep) := by
  unfold keepOrRecover
  refine @Honest.bind _ _ _ _ inferInstance fun o => ?_
  cases o <;> infer_instance

instance {t : Token} {p : Progress} : Honest (importRound t p) := by unfold importRound; infer_instance

instance {t : Token} {p : Progress} : Honest (aliasRound t p) := by unfold aliasRound; infer_instance

instance {t : Token} {p : Progress} : Honest (classRound t p) := by
  unfold classRound
  refine @Honest.bind _ _ _ _ inferInstance fun o => ?_
  match o with
  | none => infer_instance
  | some (c, closed) => infer_instance

instance {t : Token} {p : Progress} : Honest (functionRound t p) := by unfold functionRound; infer_instance

instance {p : Progress} : Honest (declRound p) := by
  unfold declRound
  refine @Honest.bind _ _ _ _ inferInstance fun t => ?_
  split <;> infer_instance

instance : Honest program := by unfold program; infer_instance

theorem reads_optionalSemicolon {u : Unit} : optionalSemicolon.Reads r u s ↔
    s = if r.advance.current.kind = .punct .semicolon then r.advance else r := by
  unfold optionalSemicolon
  simp only [reads_bind, reads_peek, exists_eq_and_eq, reads_ite, reads_advance, reads_pure, Reader.peek_eq, true_and]
  split <;> rfl

theorem reads_functionDecl {f : FunctionDecl} : functionDecl.Reads r f s ↔ ∃ n m ps q b t,
    dottedName.Reads r n m ∧ m.advance.current.kind = .punct .lparen ∧ params.Reads m.advance.advance ps q ∧
    q.advance.current.kind = .punct .colon ∧ q.advance.advance.current.kind = .ident ∧
    q.advance.advance.advance.current.kind = .punct .lbrace ∧ block.Reads q.advance.advance.advance b t ∧
    s = (if t.advance.current.kind = .punct .semicolon then t.advance else t) ∧
    f = { name := some n, params := ps, returnType := some q.advance.advance.current.ident, body := b,
          span := n.span.through s.current.span } := by
  unfold functionDecl
  simp only [reads_bind, reads_expect, exists_unit_and_eq, reads_advance, exists_unit_eq, reads_currentIdent,
    exists_eq_and_eq, reads_optionalSemicolon, reads_current, reads_pure, Reader.peek_eq]
  constructor
  · rintro ⟨n, m, hn, h1, ps, q, hp, h2, h3, h4, b, t, hb, rfl, rfl⟩
    exact ⟨n, m, ps, q, b, t, hn, h1, hp, h2, h3, h4, hb, rfl, rfl⟩
  · rintro ⟨n, m, ps, q, b, t, hn, h1, hp, h2, h3, h4, hb, rfl, rfl⟩
    exact ⟨n, m, hn, h1, ps, q, hp, h2, h3, h4, b, t, hb, rfl, rfl⟩

theorem reads_moduleName {i : Ident} : moduleName.Reads r i s ↔ r.current.kind = .ident ∧ i = r.current.ident ∧ s = r := by
  unfold moduleName
  simp only [reads_bind, reads_current, exists_eq_and_eq, reads_ite, not_reads_refuse, reads_pure]
  by_cases hk : r.current.kind = .ident <;> simp [hk]

theorem reads_moduleImport {i : ModuleImport} : moduleImport.Reads r i s ↔ ∃ ns,
    (someItems .semicolon .moduleName moduleName).Reads r.advance ns s ∧
    i = { names := ns, span := r.current.span.through s.current.span } := by
  unfold moduleImport
  simp only [reads_bind, reads_current, exists_eq_and_eq, reads_advance, exists_unit_eq, reads_pure, exists_last]

theorem reads_aliasTarget {t : Option AbsoluteIri} : aliasTarget.Reads r t s ↔ ∃ a,
    iri.Reads r (.absolute a) s ∧ t = some a := by
  unfold aliasTarget
  rw [@reads_bind _ _ _ _ _ _ _ _ (by rintro (_ | _) <;> infer_instance)]
  constructor
  · rintro ⟨q | a, m, hi, h⟩
    · simp at h
    · obtain ⟨rfl, rfl⟩ := reads_pure.1 h
      exact ⟨a, hi, rfl⟩
  · rintro ⟨a, hi, rfl⟩
    exact ⟨.absolute a, s, hi, reads_pure.2 ⟨rfl, rfl⟩⟩

theorem reads_aliasDecl {a : Alias} : aliasDecl.Reads r a s ↔ r.advance.current.kind = .ident ∧
    r.advance.advance.current.kind = .keyword .as ∧ ∃ t m, iri.Reads r.advance.advance.advance (.absolute t) m ∧
    m.advance.current.kind = .punct .semicolon ∧ s = m.advance ∧
    a = { name := some r.advance.current.ident, target := some t,
          span := r.current.span.through m.advance.current.span } := by
  unfold aliasDecl
  simp only [reads_bind, reads_current, exists_eq_and_eq, reads_expect, exists_unit_and_eq, reads_currentIdent,
    reads_advance, exists_unit_eq, reads_aliasTarget, reads_pure, Reader.peek_eq]
  refine and_congr_right fun _ => and_congr_right fun _ => ?_
  constructor
  · rintro ⟨_, m, ⟨t, ht, rfl⟩, hk, rfl, rfl⟩
    exact ⟨t, m, ht, hk, rfl, rfl⟩
  · rintro ⟨t, m, ht, hk, rfl, rfl⟩
    exact ⟨_, m, ⟨t, ht, rfl⟩, hk, rfl, rfl⟩

theorem reads_propertyDecl {p : PropertyDecl} : propertyDecl.Reads r p s ↔
    r.advance.advance.current.kind = .ident ∧ r.advance.advance.advance.current.kind = .punct .semicolon ∧
    p = { name := some r.current.ident, type := some r.advance.advance.current.ident,
          span := r.current.span.through r.advance.advance.advance.current.span } ∧
    s = r.advance.advance.advance := by
  unfold propertyDecl
  simp only [reads_bind, reads_current, exists_eq_and_eq, reads_advance, exists_unit_eq, reads_expect,
    exists_unit_and_eq, reads_currentIdent, reads_pure, Reader.peek_eq]

/-- One member of a class. -/
def ReadsMember (r : Reader) (m : Member) (s : Reader) : Prop :=
  r.current.kind = .ident ∧
    match m with
    | .property p => r.advance.current.kind = .punct .colon ∧ propertyDecl.Reads r p s
    | .method f => r.advance.current.kind ≠ .punct .colon ∧ functionDecl.Reads r f s

theorem steps_readsMember : Steps ReadsMember where
  leads := by
    rintro r (p | f) s ⟨-, -, h⟩
    · exact h.leads
    · exact h.leads
  notEof h := by
    rw [h.1]
    exact nofun

/-- A member as the rule for members gives it. -/
def memberSum : Member → PropertyDecl ⊕ FunctionDecl
  | .property p => .inl p
  | .method m => .inr m

theorem reads_member {x : PropertyDecl ⊕ FunctionDecl} : member.Reads r x s ↔ ∃ m, ReadsMember r m s ∧
    x = memberSum m := by
  unfold member
  simp only [reads_bind, reads_current, exists_eq_and_eq, reads_peek, reads_ite, reads_pure, not_reads_report_fail,
    Reader.peek_eq, Bool.and_eq_true, decide_eq_true_eq, exists_last]
  constructor
  · intro h
    split at h
    · rename_i hk
      obtain ⟨p, hp, rfl⟩ := h
      exact ⟨.property p, ⟨hk.1, hk.2, hp⟩, rfl⟩
    · rename_i hk
      split at h
      · rename_i hi
        obtain ⟨f, hf, rfl⟩ := h
        exact ⟨.method f, ⟨hi, fun hc => hk ⟨hi, hc⟩, hf⟩, rfl⟩
      · exact h.elim
  · rintro ⟨p | f, ⟨hi, hc, h⟩, rfl⟩
    · rw [if_pos ⟨hi, hc⟩]
      exact ⟨p, h, rfl⟩
    · rw [if_neg (fun hk => hc hk.2), if_pos hi]
      exact ⟨f, h, rfl⟩

/-- Where a class body ends. -/
def EndsBody (r : Reader) : Prop :=
  r.current.kind = .punct .rbrace ∨ r.current.kind = .eof ∨ r.current.kind.startsDecl = true

/-- A class body with one more member. -/
def ClassBody.add (b : ClassBody) (last : Span) : Member → ClassBody
  | .property p => { b with properties := b.properties.push p, last }
  | .method m => { b with methods := b.methods.push m, last }

theorem reads_memberRound {b : ClassBody} {o : Round ClassBody} : (memberRound b).Reads r o s ↔
    (EndsBody r ∧ o = .stop b ∧ s = r) ∨
    ∃ m n, ReadsMember r m n ∧ o = .again (b.add n.current.span m) ∧ s = n.advance := by
  unfold memberRound
  rw [reads_current_bind, reads_ite]
  simp only [Bool.or_eq_true, decide_eq_true_eq, or_assoc]
  split
  · rename_i hk
    rw [reads_pure]
    constructor
    · exact fun h => .inl ⟨hk, h⟩
    · rintro (⟨-, h⟩ | ⟨m, n, ⟨hi, -⟩, -⟩)
      · exact h
      · rw [hi] at hk
        rcases hk with h | h | h <;> cases h
  · rename_i hk
    rw [@reads_attempt_bind _ _ _ _ _ _ _ _ (by
      rintro (_ | _ | _)
      · infer_instance
      all_goals exact @Honest.bind _ _ _ _ inferInstance fun _ => inferInstance)]
    constructor
    · rintro ⟨x, n, hx, h⟩
      obtain ⟨m, hm, rfl⟩ := reads_member.1 hx
      cases m with
      | property p =>
        simp only [memberSum, reads_bind, reads_current, exists_eq_and_eq, reads_advance, exists_unit_eq, reads_pure] at h
        exact .inr ⟨.property p, n, hm, h⟩
      | method f =>
        simp only [memberSum, reads_bind, reads_current, exists_eq_and_eq, reads_advance, exists_unit_eq, reads_pure] at h
        exact .inr ⟨.method f, n, hm, h⟩
    · rintro (⟨h, -⟩ | ⟨m, n, hm, rfl, rfl⟩)
      · exact absurd h hk
      · refine ⟨memberSum m, n, reads_member.2 ⟨m, hm, rfl⟩, ?_⟩
        cases m with
        | property p =>
          simp only [memberSum, reads_bind, reads_current, exists_eq_and_eq, reads_advance, exists_unit_eq, reads_pure]
          exact ⟨rfl, trivial⟩
        | method f =>
          simp only [memberSum, reads_bind, reads_current, exists_eq_and_eq, reads_advance, exists_unit_eq, reads_pure]
          exact ⟨rfl, trivial⟩

/-- The lists of a class body. -/
def ClassBody.lists (b : ClassBody) : List PropertyDecl × List FunctionDecl × List Span :=
  (b.properties.toList, b.methods.toList, b.bad.toList)

/-- The lists with one more member. -/
def addMember (v : List PropertyDecl × List FunctionDecl × List Span) :
    Member → List PropertyDecl × List FunctionDecl × List Span
  | .property p => (v.1 ++ [p], v.2.1, v.2.2)
  | .method m => (v.1, v.2.1 ++ [m], v.2.2)

theorem ClassBody.lists_add (b : ClassBody) (last : Span) (m : Member) : (b.add last m).lists = addMember b.lists m := by
  cases m <;> simp [ClassBody.lists, ClassBody.add, addMember]

theorem foldl_addMember (ms : List Member) (v : List PropertyDecl × List FunctionDecl × List Span) :
    ms.foldl addMember v = (v.1 ++ ms.filterMap Member.property?, v.2.1 ++ ms.filterMap Member.method?, v.2.2) := by
  induction ms generalizing v with
  | nil => simp
  | cons m ms ih => cases m <;> simp [ih, addMember, List.filterMap_cons, Member.property?, Member.method?]

/-- A class with the given members. -/
def classOf (name : Ident) (ms : List Member) (span : Span) : ClassDef :=
  { name := some name, properties := ms.filterMap Member.property?, methods := ms.filterMap Member.method?, span }

theorem reads_classDef {c : ClassDef} {closed : Bool} (hr : r.WF) : classDef.Reads r (c, closed) s ↔
    r.advance.current.kind = .ident ∧ r.advance.advance.current.kind = .punct .lbrace ∧
    s.current.kind = .punct .rbrace ∧ closed = true ∧ ∃ ms,
      InTurn ReadsMember r.advance.advance.advance ms s ∧
      c = classOf r.advance.current.ident ms (r.current.span.through s.current.span) := by
  unfold classDef
  simp only [reads_bind, reads_current, exists_eq_and_eq, reads_expect, exists_unit_and_eq, reads_currentIdent,
    reads_advance, exists_unit_eq, reads_ite, reads_pure, Reader.peek_eq, not_reads_report, false_and, exists_false,
    Bool.not_eq_true', decide_eq_false_iff_not, decide_eq_true_eq]
  refine and_congr_right fun _ => and_congr_right fun _ => ⟨?_, ?_⟩
  · rintro ⟨b, m, hb, h⟩
    split at h
    · exact h.elim
    rename_i hk
    rw [Decidable.not_not] at hk
    obtain ⟨hc, rfl⟩ := h
    rw [if_pos hk, decide_eq_true hk, Prod.mk.injEq] at hc
    obtain ⟨ms, hms, -, hv⟩ := InTurn.of_loop ClassBody.lists addMember EndsBody steps_readsMember
      (fun h => by
        obtain ⟨-, e, -⟩ | ⟨m, n, hm, e, rfl⟩ := reads_memberRound.1 h
        · cases e
        · cases e
          exact ⟨m, n, hm, ClassBody.lists_add .., rfl⟩)
      (fun h => by
        obtain ⟨hk, e, rfl⟩ | ⟨m, n, -, e, -⟩ := reads_memberRound.1 h
        · exact ⟨hk, Round.stop.inj e, rfl⟩
        · cases e) hr.advance.advance.advance hb
    rw [foldl_addMember] at hv
    simp only [ClassBody.lists, Prod.mk.injEq, List.nil_append] at hv
    refine ⟨hk, hc.2, ms, hms, ?_⟩
    rw [hc.1, hv.1, hv.2.1, hv.2.2, classOf]
  · rintro ⟨hk, rfl, ms, hms, rfl⟩
    obtain ⟨b, hb, hv⟩ := InTurn.reads_loop ClassBody.lists addMember EndsBody steps_readsMember
      (fun b r m n h => ⟨b.add n.current.span m, reads_memberRound.2 (.inr ⟨m, n, h, rfl, rfl⟩), ClassBody.lists_add ..⟩)
      (fun b r h => reads_memberRound.2 (.inl ⟨h, rfl, rfl⟩)) (.inl hk) { last := r.advance.advance.current.span } hms
      hr.advance.advance.advance
    rw [foldl_addMember] at hv
    simp only [ClassBody.lists, Prod.mk.injEq, List.nil_append] at hv
    refine ⟨b, s, hb, ?_⟩
    rw [if_neg (not_not_intro hk), if_pos hk, decide_eq_true hk, hv.1, hv.2.1, hv.2.2, classOf]
    exact ⟨rfl, rfl⟩

end Specs

/-! ## Soundness -/

section Sound

variable {r s : Reader}

/-- The brace that closes a body, and the semicolon behind it that may be left out. -/
theorem edit_closing (hr : r.WF) (hk : r.current.kind = .punct .rbrace) :
    Edit r.rest [.punct .rbrace, .punct .semicolon]
      (if r.advance.current.kind = .punct .semicolon then r.advance else r).advance.rest [r.current.span.stop] [] := by
  have hne : r.current.kind ≠ .eof := by rw [hk]; exact nofun
  have hl : r.current.lexeme = .punct .rbrace := (hr.current_wf hne).valid.punct hk
  have hrest := hr.rest_eq hne
  rw [hrest, ← hl]
  split
  · rename_i hsemi
    refine .body hk ?_ (hr.advance.spells_punct hsemi (spells_nil.2 rfl)).toEdit
    rw [← hr.advance.current_kind, hsemi]
  · rename_i hsemi
    refine .close hk ?_ .nil
    rwa [← hr.advance.current_kind]

/-- What is read as a declaration is canonical, spells the tokens read, edits included, and starts where
they do. -/
structure SpellsDecl (r s : Reader) (canonical : Prop) (lexemes : List Lexeme) (bodies : List Block) (span : Span) :
    Prop where
  canonical : canonical
  edit : Edit r.rest lexemes s.advance.rest (bodies.map (·.span.stop)) (bodies.flatMap Block.listStops)
  start : span.start = r.current.span.start

theorem sound_functionDecl {f : FunctionDecl} (hr : r.WF) (h : functionDecl.Reads r f s) :
    SpellsDecl r s f.Canonical f.lexemes [f.body] f.span := by
  obtain ⟨n, m, ps, q, b, t, hn, h1, hp, h2, h3, h4, hb, rfl, rfl⟩ := reads_functionDecl.1 h
  have hm := hn.leads.wf hr
  have hq := hp.leads.wf hm.advance.advance
  have ht := hb.leads.wf hq.advance.advance.advance
  obtain ⟨hnc, hns, -⟩ := sound_dottedName hr hn
  obtain ⟨hpc, hps⟩ := sound_param.manyItems (by decide) hm.advance.advance (reads_params.1 hp)
  have hbl := sound_block hq.advance.advance.advance h4 hb
  refine ⟨⟨⟨n, rfl, hnc⟩, hpc, ⟨_, rfl, hq.advance.advance.ident_canonical h3⟩, hbl.canonical⟩, ?_, ?_⟩
  · have hhead := hns.append (hm.advance.spells_punct h1 (hps.append (hq.advance.spells_punct h2
      (hq.advance.advance.spells_ident h3 (spells_nil.2 rfl)))))
    have hclose := edit_closing ht hbl.closed
    rw [← hbl.stop] at hclose
    have := (hhead.edit hbl.edit).append hclose
    simp only [FunctionDecl.lexemes, Name.lexemes?, Ident.lexemes?, Block.Canonical.lexemes hbl.canonical]
    simpa using this
  · obtain ⟨-, parts, -, rfl⟩ := reads_dottedName.1 hn
    rfl

theorem sound_propertyDecl {p : PropertyDecl} (hr : r.WF) (hk : r.current.kind = .ident)
    (hc : r.advance.current.kind = .punct .colon) (h : propertyDecl.Reads r p s) :
    SpellsDecl r s p.Canonical p.lexemes [] p.span := by
  obtain ⟨h1, h2, rfl, rfl⟩ := reads_propertyDecl.1 h
  have hr2 := hr.advance.advance
  refine ⟨⟨⟨_, rfl, hr.ident_canonical hk⟩, ⟨_, rfl, hr2.ident_canonical h1⟩⟩, ?_, rfl⟩
  exact (hr.spells_ident hk (hr.advance.spells_punct hc (hr2.spells_ident h1
    (hr2.advance.spells_punct h2 (spells_nil.2 rfl))))).toEdit

theorem sound_member {m : Member} (hr : r.WF) (h : ReadsMember r m s) :
    SpellsDecl r s m.Canonical m.lexemes m.bodies m.span := by
  cases m with
  | property p => exact sound_propertyDecl hr h.1 h.2.1 h.2.2
  | method f => exact sound_functionDecl hr h.2.2

theorem sound_moduleName : moduleName.Sound (fun i => [.ident i.name]) Ident.Canonical := by
  intro r i s hr h
  obtain ⟨hk, rfl, rfl⟩ := reads_moduleName.1 h
  exact ⟨hr.ident_canonical hk, hr.spells_ident hk (spells_nil.2 rfl)⟩

theorem sound_moduleImport {i : ModuleImport} (hr : r.WF) (hk : r.current.kind = .keyword .use)
    (h : moduleImport.Reads r i s) : i.Canonical ∧ Spells r.rest i.lexemes s.advance.rest := by
  obtain ⟨ns, hns, rfl⟩ := reads_moduleImport.1 h
  obtain ⟨hne, hc, hs⟩ := sound_moduleName.items (by decide) hr.advance (reads_someItems.1 hns).2
  exact ⟨⟨hne, hc⟩, hr.spells_keyword hk hs⟩

theorem sound_aliasDecl {a : Alias} (hr : r.WF) (hk : r.current.kind = .keyword .alias)
    (h : aliasDecl.Reads r a s) : a.Canonical ∧ Spells r.rest a.lexemes s.advance.rest := by
  obtain ⟨h1, h2, t, m, ht, h3, rfl, rfl⟩ := reads_aliasDecl.1 h
  have hr2 := hr.advance.advance
  have hm := ht.leads.wf hr2.advance
  obtain ⟨hc, hs⟩ := sound_iri hr2.advance ht
  refine ⟨⟨⟨_, rfl, hr.advance.ident_canonical h1⟩, t, rfl, hc⟩, ?_⟩
  exact hr.spells_keyword hk (hr.advance.spells_ident h1 (hr2.spells_keyword h2
    (hs.append (hm.advance.spells_punct h3 (spells_nil.2 rfl)))))

theorem sound_classDef {c : ClassDef} {closed : Bool} (hr : r.WF) (hk : r.current.kind = .keyword .classWord)
    (h : classDef.Reads r (c, closed) s) :
    SpellsDecl r s c.Canonical c.lexemes (c.methods.map FunctionDecl.body) c.span := by
  obtain ⟨h1, h2, h3, -, ms, hms, rfl⟩ := (reads_classDef hr).1 h
  have hr3 := hr.advance.advance.advance
  have hs := (hms.leads steps_readsMember).wf hr3
  have hord : ms.Pairwise fun a b => a.span.start < b.span.start :=
    (hms.ascending steps_readsMember (fun _ _ _ hr h => (sound_member hr h).start) hr3).1
  obtain ⟨hc, he⟩ := hms.sound steps_readsMember
    (fun _ _ _ hr h => ⟨(sound_member hr h).canonical, (sound_member hr h).edit⟩) hr3
  have hmem := ClassDef.members_eq (c := classOf r.advance.current.ident ms (r.current.span.through s.current.span))
    hord rfl rfl
  obtain ⟨hprops, hmeths⟩ := Member.mix.pairwise_filterMap (·.span.start) hord
  refine ⟨⟨⟨_, rfl, hr.advance.ident_canonical h1⟩, fun p hp => hc _ (Member.mix.mem_left.1 hp),
    fun f hf => hc _ (Member.mix.mem_right.1 hf), rfl, ascending_map.2 hprops, ascending_map.2 hmeths⟩, ?_, rfl⟩
  · rw [ClassDef.lexemes, hmem]
    have := ((hr.spells_keyword hk (hr.advance.spells_ident h1 (hr.advance.advance.spells_punct h2
      (spells_nil.2 rfl)))).edit he).spells (hs.spells_punct h3 (spells_nil.2 rfl))
    simp only [classOf, ← flatMap_bodies, List.map_flatMap, List.flatMap_assoc, Ident.lexemes?]
    simpa using this

end Sound

end Rule
end SemFront
