/-
Reading programs: without reports, all the tokens are read as imports, then aliases, then classes and
functions. The program read is canonical and its text has the tokens of the source, edits included.
-/
import SemFront.Proofs.Grammar.Decl

namespace SemFront

namespace Program

/-- The bodies of the functions and methods of a program. -/
def bodies (p : Program) : List Block :=
  p.functions.map (·.body) ++ p.classes.flatMap fun c => c.methods.map (·.body)

/-- Where the bodies of functions and methods stop. -/
def bodyStops (p : Program) : List Int := p.bodies.map (·.span.stop)

/-- Where the list types of variable declarations stop. -/
def listStops (p : Program) : List Int := p.bodies.flatMap Block.listStops

theorem mem_bodies {p : Program} {b : Block} : b ∈ p.bodies ↔ b ∈ p.decls.flatMap Decl.bodies := by
  have hd : ∀ d, d ∈ p.decls ↔ d ∈ p.classes.map Decl.classDef ++ p.functions.map Decl.function :=
    fun d => mem_stableSort fun d : Decl => d.span.start
  simp only [List.mem_flatMap, hd, bodies, List.mem_append, List.mem_map]
  constructor
  · rintro (⟨f, hf, rfl⟩ | ⟨c, hc, m, hm, rfl⟩)
    · exact ⟨.function f, .inr ⟨f, hf, rfl⟩, List.mem_singleton.2 rfl⟩
    · exact ⟨.classDef c, .inl ⟨c, hc, rfl⟩, List.mem_map.2 ⟨m, hm, rfl⟩⟩
  · rintro ⟨_, ⟨c, hc, rfl⟩ | ⟨f, hf, rfl⟩, hb⟩
    · exact .inr ⟨c, hc, List.mem_map.1 hb⟩
    · exact .inl ⟨f, hf, (List.mem_singleton.1 hb).symm⟩

end Program

namespace Rule

/-! ## One declaration -/

section Specs

variable {r s : Reader}

/-- One import. -/
def ReadsImport (r : Reader) (i : ModuleImport) (s : Reader) : Prop :=
  r.current.kind = .keyword .use ∧ moduleImport.Reads r i s

/-- One alias. -/
def ReadsAlias (r : Reader) (a : Alias) (s : Reader) : Prop :=
  r.current.kind = .keyword .alias ∧ aliasDecl.Reads r a s

/-- One class, with its body closed, or one function. -/
def ReadsDecl (r : Reader) (d : Decl) (s : Reader) : Prop :=
  match d with
  | .classDef c => r.current.kind = .keyword .classWord ∧ classDef.Reads r (c, true) s
  | .function f => r.current.kind = .ident ∧ functionDecl.Reads r f s

theorem steps_readsImport : Steps ReadsImport where
  leads h := h.2.leads
  notEof h := by
    rw [h.1]
    exact nofun

theorem steps_readsAlias : Steps ReadsAlias where
  leads h := h.2.leads
  notEof h := by
    rw [h.1]
    exact nofun

theorem steps_readsDecl : Steps ReadsDecl where
  leads := by
    rintro r (c | f) s ⟨-, h⟩
    · exact h.leads
    · exact h.leads
  notEof := by
    rintro r (c | f) s ⟨hk, -⟩
    · rw [hk]
      exact nofun
    · rw [hk]
      exact nofun

namespace Progress

def addImport (p : Progress) (i : ModuleImport) : Progress := { p with imports := p.imports.push i }

def addAlias (p : Progress) (a : Alias) : Progress := { p with aliases := p.aliases.push a, part := .aliases }

def addDecl (p : Progress) : Decl → Progress
  | .classDef c => { p with classes := p.classes.push c, part := .decls }
  | .function f => { p with functions := p.functions.push f, part := .decls }

end Progress

variable {t : Token} {p : Progress} {o : Round Progress}

theorem reads_keepOrRecover {x : Rule α} [Honest x] {keep : α → Progress} : (keepOrRecover t p x keep).Reads r o s ↔
    ∃ d m, x.Reads r d m ∧ o = .again (keep d) ∧ s = m.advance := by
  unfold keepOrRecover
  rw [@reads_attempt_bind _ _ _ _ _ _ _ _ (by rintro (_ | _) <;> infer_instance)]
  simp only [reads_bind, reads_advance, exists_unit_eq, reads_pure]

theorem reads_importRound : (importRound t p).Reads r o s ↔ p.part = .imports ∧
    ∃ i m, moduleImport.Reads r i m ∧ o = .again (p.addImport i) ∧ s = m.advance := by
  unfold importRound
  simp only [reads_ite, reads_bind, not_reads_report, false_and, exists_false, reads_keepOrRecover]
  by_cases hp : p.part = .imports
  · rw [if_neg (not_not_intro hp), and_iff_right hp]
    rfl
  · rw [if_pos hp]
    exact iff_of_false id fun h => hp h.1

theorem reads_aliasRound : (aliasRound t p).Reads r o s ↔ p.part ≠ .decls ∧
    ∃ a m, aliasDecl.Reads r a m ∧ o = .again (p.addAlias a) ∧ s = m.advance := by
  unfold aliasRound
  simp only [reads_ite, reads_bind, not_reads_report, false_and, exists_false, reads_keepOrRecover]
  by_cases hp : p.part = .decls
  · rw [if_pos hp]
    exact iff_of_false id fun h => h.1 hp
  · simp only [if_neg hp]
    rw [and_iff_right hp]
    rfl

theorem reads_classRound (hr : r.WF) : (classRound t p).Reads r o s ↔
    ∃ c m, classDef.Reads r (c, true) m ∧ o = .again (p.addDecl (.classDef c)) ∧ s = m.advance := by
  unfold classRound
  rw [@reads_attempt_bind _ _ _ _ _ _ _ _ (by rintro (_ | ⟨c, closed⟩) <;> infer_instance)]
  simp only [reads_ite, reads_bind, reads_advance, exists_unit_eq, reads_pure]
  constructor
  · rintro ⟨⟨c, closed⟩, m, h, ho⟩
    obtain rfl := ((reads_classDef hr).1 h).2.2.2.1
    exact ⟨c, m, h, ho⟩
  · rintro ⟨c, m, h, ho⟩
    exact ⟨(c, true), m, h, ho⟩

theorem reads_functionRound : (functionRound t p).Reads r o s ↔
    ∃ f m, functionDecl.Reads r f m ∧ o = .again (p.addDecl (.function f)) ∧ s = m.advance := by
  unfold functionRound
  rw [reads_keepOrRecover]
  rfl

/-- A round stops at the end. Otherwise it reads one declaration, of a section that may still come. -/
theorem reads_declRound (hr : r.WF) : (declRound p).Reads r o s ↔
    (r.current.kind = .eof ∧ o = .stop p ∧ s = r) ∨
    (p.part = .imports ∧ ∃ i m, ReadsImport r i m ∧ o = .again (p.addImport i) ∧ s = m.advance) ∨
    (p.part ≠ .decls ∧ ∃ a m, ReadsAlias r a m ∧ o = .again (p.addAlias a) ∧ s = m.advance) ∨
    ∃ d m, ReadsDecl r d m ∧ o = .again (p.addDecl d) ∧ s = m.advance := by
  unfold declRound
  rw [reads_current_bind]
  constructor
  · intro h
    split at h
    · rename_i hk
      exact .inl ⟨hk, reads_pure.1 h⟩
    · rename_i hk
      obtain ⟨hp, i, m, hi, ho⟩ := reads_importRound.1 h
      exact .inr (.inl ⟨hp, i, m, ⟨hk, hi⟩, ho⟩)
    · rename_i hk
      obtain ⟨hp, a, m, ha, ho⟩ := reads_aliasRound.1 h
      exact .inr (.inr (.inl ⟨hp, a, m, ⟨hk, ha⟩, ho⟩))
    · rename_i hk
      obtain ⟨c, m, hc, ho⟩ := (reads_classRound hr).1 h
      exact .inr (.inr (.inr ⟨.classDef c, m, ⟨hk, hc⟩, ho⟩))
    · rename_i hk
      obtain ⟨f, m, hf, ho⟩ := reads_functionRound.1 h
      exact .inr (.inr (.inr ⟨.function f, m, ⟨hk, hf⟩, ho⟩))
    · simp only [reads_bind, not_reads_report, false_and, exists_false] at h
  · rintro (⟨hk, h⟩ | ⟨hp, i, m, ⟨hk, hi⟩, ho⟩ | ⟨hp, a, m, ⟨hk, ha⟩, ho⟩ | ⟨c | f, m, ⟨hk, h⟩, ho⟩)
    · rw [hk]
      exact reads_pure.2 h
    · rw [hk]
      exact reads_importRound.2 ⟨hp, i, m, hi, ho⟩
    · rw [hk]
      exact reads_aliasRound.2 ⟨hp, a, m, ha, ho⟩
    · rw [hk]
      exact (reads_classRound hr).2 ⟨c, m, h, ho⟩
    · rw [hk]
      exact reads_functionRound.2 ⟨f, m, h, ho⟩

/-! ## All declarations -/

/-- Imports, then aliases, then classes and functions, read in turn. -/
def Sections (r : Reader) (is : List ModuleImport) (as : List Alias) (ds : List Decl) (s : Reader) : Prop :=
  ∃ m n, InTurn ReadsImport r is m ∧ InTurn ReadsAlias m as n ∧ InTurn ReadsDecl n ds s

/-- What has been read once some declarations have. -/
def progress (is : List ModuleImport) (as : List Alias) (ds : List Decl) : Progress :=
  ds.foldl Progress.addDecl (as.foldl Progress.addAlias (is.foldl Progress.addImport {}))

/-- The program made of some declarations. -/
def programOf (is : List ModuleImport) (as : List Alias) (ds : List Decl) (span : Span) : Program :=
  { imports := is, aliases := as, classes := ds.filterMap Decl.classDef?, functions := ds.filterMap Decl.function?, span }

theorem foldl_addImport (is : List ModuleImport) (p : Progress) :
    is.foldl Progress.addImport p = { p with imports := p.imports ++ is.toArray } := by
  induction is generalizing p with
  | nil => simp
  | cons i is ih => simp [ih, Progress.addImport]

theorem foldl_addAlias (as : List Alias) (p : Progress) :
    ∃ part, as.foldl Progress.addAlias p = { p with aliases := p.aliases ++ as.toArray, part } := by
  induction as generalizing p with
  | nil => exact ⟨p.part, by simp⟩
  | cons a as ih => simpa [Progress.addAlias] using ih (p.addAlias a)

theorem foldl_addDecl (ds : List Decl) (p : Progress) : ∃ part, ds.foldl Progress.addDecl p =
    { p with classes := p.classes ++ (ds.filterMap Decl.classDef?).toArray,
             functions := p.functions ++ (ds.filterMap Decl.function?).toArray, part } := by
  induction ds generalizing p with
  | nil => exact ⟨p.part, by simp⟩
  | cons d ds ih =>
    cases d with
    | classDef c =>
      simpa [Progress.addDecl, List.filterMap_cons, Decl.classDef?, Decl.function?] using ih (p.addDecl (.classDef c))
    | function f =>
      simpa [Progress.addDecl, List.filterMap_cons, Decl.classDef?, Decl.function?] using ih (p.addDecl (.function f))

theorem progress_eq (is : List ModuleImport) (as : List Alias) (ds : List Decl) : ∃ part, progress is as ds =
    { imports := is.toArray, aliases := as.toArray, classes := (ds.filterMap Decl.classDef?).toArray,
      functions := (ds.filterMap Decl.function?).toArray, part } := by
  obtain ⟨part, h1⟩ := foldl_addAlias as (is.foldl Progress.addImport {})
  obtain ⟨part', h2⟩ := foldl_addDecl ds (as.foldl Progress.addAlias (is.foldl Progress.addImport {}))
  refine ⟨part', ?_⟩
  rw [progress, h2, h1, foldl_addImport]
  simp

/-- The rounds of a program read its sections in order. -/
theorem Sections.of_loop (hr : r.WF) (h : (loop declRound {}).Reads r p s) :
    s.current.kind = .eof ∧ ∃ is as ds, Sections r is as ds s ∧ p = progress is as ds := by
  -- the part a program is in says which of its sections are still empty
  refine Reads.of_loop h hr.budget
    (P := fun q m => m.WF ∧ ∃ is as ds, Sections r is as ds m ∧ q = progress is as ds ∧
      (q.part = .imports → as = []) ∧ (q.part ≠ .decls → ds = []))
    (Q := fun q m => m.current.kind = .eof ∧ ∃ is as ds, Sections r is as ds m ∧ q = progress is as ds)
    ⟨hr, [], [], [], ⟨r, r, .nil, .nil, .nil⟩, rfl, fun _ => rfl, fun _ => rfl⟩ ?_ ?_
  · rintro q m q' n ⟨hm, is, as, ds, ⟨m1, m2, h1, h2, h3⟩, rfl, has, hds⟩ h
    obtain ⟨-, e, -⟩ | ⟨hp, i, n, hi, e, rfl⟩ | ⟨hp, a, n, ha, e, rfl⟩ | ⟨d, n, hd, e, rfl⟩ := (reads_declRound hm).1 h
    · cases e
    · obtain rfl := has hp
      obtain rfl := hds (by rw [hp]; exact nofun)
      cases h2
      cases h3
      obtain rfl := Round.again.inj e
      refine ⟨⟨steps_readsImport.wf hm hi, is ++ [i], [], [], ⟨_, _, h1.concat hi, .nil, .nil⟩, ?_, fun _ => rfl,
        fun _ => rfl⟩, steps_readsImport.length_lt hm hi⟩
      simp [progress]
    · obtain rfl := hds hp
      cases h3
      obtain rfl := Round.again.inj e
      refine ⟨⟨steps_readsAlias.wf hm ha, is, as ++ [a], [], ⟨_, _, h1, h2.concat ha, .nil⟩, ?_, nofun, fun _ => rfl⟩,
        steps_readsAlias.length_lt hm ha⟩
      simp [progress]
    · obtain rfl := Round.again.inj e
      have hpart : ((progress is as ds).addDecl d).part = .decls := by cases d <;> rfl
      refine ⟨⟨steps_readsDecl.wf hm hd, is, as, ds ++ [d], ⟨_, _, h1, h2, h3.concat hd⟩, ?_, ?_, ?_⟩,
        steps_readsDecl.length_lt hm hd⟩
      · simp [progress]
      · rw [hpart]
        exact nofun
      · rw [hpart]
        exact fun h => absurd rfl h
  · rintro q m q' n ⟨hm, is, as, ds, hsec, rfl, -, -⟩ h
    obtain ⟨hk, e, rfl⟩ | ⟨hp, i, n, hi, e, rfl⟩ | ⟨hp, a, n, ha, e, rfl⟩ | ⟨d, n, hd, e, rfl⟩ := (reads_declRound hm).1 h
    · exact ⟨hk, is, as, ds, hsec, Round.stop.inj e⟩
    all_goals cases e

theorem Sections.reads_loop {is : List ModuleImport} {as : List Alias} {ds : List Decl} (hr : r.WF)
    (h : Sections r is as ds s) (hk : s.current.kind = .eof) : (loop declRound {}).Reads r (progress is as ds) s := by
  obtain ⟨m, n, h1, h2, h3⟩ := h
  have hm := (h1.leads steps_readsImport).wf hr
  have hn := (h2.leads steps_readsAlias).wf hm
  have hs := (h3.leads steps_readsDecl).wf hn
  refine Loops.reads ?_ hr.budget
  refine h1.loops steps_readsImport Progress.addImport (I := fun p => p.part = .imports) (fun hp => hp)
    (fun hr hp hi => (reads_declRound hr).2 (.inr (.inl ⟨hp, _, _, hi, rfl, rfl⟩))) hr rfl fun hp => ?_
  refine h2.loops steps_readsAlias Progress.addAlias (I := fun p => p.part ≠ .decls) (fun _ => nofun)
    (fun hr hp ha => (reads_declRound hr).2 (.inr (.inr (.inl ⟨hp, _, _, ha, rfl, rfl⟩)))) hm (by rw [hp]; exact nofun)
    fun _ => ?_
  refine h3.loops steps_readsDecl Progress.addDecl (I := fun _ => True) (fun _ => trivial)
    (fun hr _ hd => (reads_declRound hr).2 (.inr (.inr (.inr ⟨_, _, hd, rfl, rfl⟩)))) hn trivial fun _ => ?_
  exact .stop ((reads_declRound hs).2 (.inl ⟨hk, rfl, rfl⟩))

theorem reads_program {p : Program} (hr : r.WF) : program.Reads r p s ↔ s.current.kind = .eof ∧
    ∃ is as ds, Sections r is as ds s ∧ p = programOf is as ds (r.current.span.through s.current.span) := by
  unfold program
  simp only [reads_bind, reads_current, exists_eq_and_eq, reads_pure, exists_last]
  constructor
  · rintro ⟨q, hq, rfl⟩
    obtain ⟨hk, is, as, ds, hsec, rfl⟩ := Sections.of_loop hr hq
    obtain ⟨part, e⟩ := progress_eq is as ds
    refine ⟨hk, is, as, ds, hsec, ?_⟩
    rw [e]
    rfl
  · rintro ⟨hk, is, as, ds, hsec, rfl⟩
    obtain ⟨part, e⟩ := progress_eq is as ds
    refine ⟨progress is as ds, hsec.reads_loop hr hk, ?_⟩
    rw [e]
    rfl

end Specs

/-! ## Soundness -/

section Sound

variable {r s : Reader}

theorem sound_decl {d : Decl} (hr : r.WF) (h : ReadsDecl r d s) :
    SpellsDecl r s d.Canonical d.lexemes d.bodies d.span := by
  cases d with
  | classDef c => exact sound_classDef hr h.1 h.2
  | function f => exact sound_functionDecl hr h.2

/-- A program read without reports is canonical and spells all the tokens, edits included. -/
theorem sound_program {p : Program} (hr : r.WF) (h : program.Reads r p s) : p.Canonical ∧ s.rest = [] ∧
    Edit r.rest p.lexemes [] ((p.decls.flatMap Decl.bodies).map (·.span.stop))
      ((p.decls.flatMap Decl.bodies).flatMap Block.listStops) := by
  obtain ⟨hk, is, as, ds, ⟨m, n, h1, h2, h3⟩, rfl⟩ := (reads_program hr).1 h
  have hm := (h1.leads steps_readsImport).wf hr
  have hn := (h2.leads steps_readsAlias).wf hm
  have hs := (h3.leads steps_readsDecl).wf hn
  obtain ⟨hi, ei⟩ := h1.sound_of_spells steps_readsImport (fun _ _ _ hr h => sound_moduleImport hr h.1 h.2) hr
  obtain ⟨ha, ea⟩ := h2.sound_of_spells steps_readsAlias (fun _ _ _ hr h => sound_aliasDecl hr h.1 h.2) hm
  obtain ⟨hd, ed⟩ := h3.sound steps_readsDecl
    (fun _ _ _ hr h => ⟨(sound_decl hr h).canonical, (sound_decl hr h).edit⟩) hn
  have hord : ds.Pairwise fun a b => a.span.start < b.span.start :=
    (h3.ascending steps_readsDecl (fun _ _ _ hr h => (sound_decl hr h).start) hn).1
  obtain ⟨hcs, hfs⟩ := Decl.mix.pairwise_filterMap (·.span.start) hord
  have hrest := hs.rest_eq_nil hk
  refine ⟨⟨hi, ha, fun c hc => hd _ (Decl.mix.mem_left.1 hc), fun f hf => hd _ (Decl.mix.mem_right.1 hf), rfl,
    ascending_map.2 hcs, ascending_map.2 hfs⟩, hrest, ?_⟩
  rw [Program.lexemes, Program.decls_eq hord rfl rfl, ← hrest, List.map_flatMap, List.flatMap_assoc]
  have := (ei.append ea).append ed
  simpa [programOf] using this

/-- The tokens of a program read without reports, amended where its bodies and list types stop, are
those that it spells; bodies and list types stop where tokens that close them do. -/
theorem amended_of_reads {p : Program} (hr : r.WF) (h : program.Reads r p s) {e : Token} (he : e.kind = .eof) :
    amended p.bodyStops p.listStops (r.rest ++ [e]) = p.lexemes ++ [e.lexeme] ∧
      (∀ x ∈ p.bodyStops, ∃ t ∈ r.rest, t.kind = .punct .rbrace ∧ t.span.stop = x) ∧
      ∀ x ∈ p.listStops, ∃ t ∈ r.rest, (t.kind = .punct .greater ∨ t.kind = .punct .greaterEqual) ∧
        t.span.start + 1 = x := by
  obtain ⟨-, -, hedit⟩ := sound_program hr h
  have hB : ∀ x, x ∈ p.bodyStops ↔ x ∈ (p.decls.flatMap Decl.bodies).map (·.span.stop) := by
    simp only [Program.bodyStops, List.mem_map, Program.mem_bodies, implies_true]
  have hL : ∀ x, x ∈ p.listStops ↔ x ∈ (p.decls.flatMap Decl.bodies).flatMap Block.listStops := by
    intro x
    rw [Program.listStops, List.mem_flatMap, List.mem_flatMap]
    simp only [Program.mem_bodies]
  refine ⟨hedit.amended rfl he hr.ordered hr.tokens (fun t _ => hB _) (fun t _ => hL _), ?_, ?_⟩
  · exact fun x hx => hedit.positions.1 x ((hB x).1 hx)
  · exact fun x hx => hedit.positions.2 x ((hL x).1 hx)

end Sound

end Rule
end SemFront
