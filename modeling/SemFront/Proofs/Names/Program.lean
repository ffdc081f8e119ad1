/-
Names are neither lost nor doubled between a source and its visitors. In a source that is read without
diagnostics, the identifiers that a visit of the program meets are, in the order of their starts, the
identifiers among the tokens and the keywords inside the targets of aliases, each once and as it is
written; besides these a visit meets only the empty fragments of targets.

Declarations are read in turn, but a class keeps its properties and methods apart and a program its
classes and functions, so identifiers are compared up to order until the end. Whether a keyword is a name
depends on where the targets are: a target runs from one token of its alias to another, so that it has no
part in the tokens of any other declaration.
-/
import SemFront.Proofs.Names.Stmt
import SemFront.Proofs.RoundTrip

namespace SemFront

/-! ## Names of a source -/

/-- An identifier of no width and without a name. -/
def Ident.isEmpty (i : Ident) : Bool := i.name = "" && i.span.start = i.span.stop

/-- The fragment of an IRI that ends in `#`. -/
def AbsoluteIri.emptyFragment? (a : AbsoluteIri) : Option Ident := a.fragment.filter Ident.isEmpty

/-- The targets of the aliases. -/
def Program.targets (p : Program) : List AbsoluteIri := p.aliases.filterMap Alias.target

/-- Whether a span lies inside another one. -/
def Span.isInside (s t : Span) : Bool := t.start ≤ s.start && s.stop ≤ t.stop

/-- Whether a token is a name: an identifier, or a keyword inside a target. -/
def Token.isName (targets : List Span) (t : Token) : Bool :=
  match t.kind with
  | .ident => true
  | .keyword _ => targets.any t.span.isInside
  | _ => false

namespace Token

variable {S T : List Span} {t : Token}

theorem WF.isEmpty_ident (ht : t.WF) : t.ident.isEmpty = false := by
  have hwidth : t.span.start ≠ t.span.stop := ne_of_lt ht.nonempty
  simp [Ident.isEmpty, Token.ident, hwidth]

theorem name_ident_of_isName (h : t.isName S = true) : t.ident.name = t.raw := by
  refine t.literal_of_ne_string fun e => ?_
  simp [isName, e] at h

theorem isName_nil : t.isName [] = t.kind.isIdent := by
  unfold isName Kind.isIdent
  cases t.kind <;> rfl

/-- Inside a target every word is a name. -/
theorem isName_of_inside {s : Span} (h : t.span.isInside s = true) : t.isName [s] = t.kind.isWord := by
  unfold isName Kind.isWord
  cases t.kind <;> simp [h]

theorem isName_append_left (h : ∀ s ∈ T, t.span.isInside s = false) : t.isName (S ++ T) = t.isName S := by
  have hT : T.any t.span.isInside = false := List.any_eq_false.2 fun s hs => by simp [h s hs]
  unfold isName
  rw [List.any_append, hT, Bool.or_false]

theorem isName_append_right (h : ∀ s ∈ S, t.span.isInside s = false) : t.isName (S ++ T) = t.isName T := by
  have hS : S.any t.span.isInside = false := List.any_eq_false.2 fun s hs => by simp [h s hs]
  unfold isName
  rw [List.any_append, hS, Bool.false_or]

end Token

/-! ## Stretches with targets -/

/-- Each target runs from the start of one of the tokens to the stop of another. -/
def Holds (us : List Token) (S : List Span) : Prop :=
  ∀ s ∈ S, ∃ u ∈ us, ∃ v ∈ us, s.start = u.span.start ∧ s.stop = v.span.stop

/-- The names among the tokens `a` before `c`, which hold the targets `S`, are the identifiers `is` but for
the empty ones `es`. -/
def NamesAt (a : List Token) (S : List Span) (es is : List Ident) (c : List Token) : Prop :=
  ∃ us, a = us ++ c ∧ Holds us S ∧ is.Perm ((us.filter (Token.isName S)).map Token.ident ++ es)

section NamesAt

variable {a b c us vs : List Token} {S T : List Span} {es fs is js : List Ident}

/-- Targets have no part in tokens behind theirs. -/
theorem Holds.not_inside_after (h : Holds us S) (hlt : ∀ u ∈ us, ∀ v ∈ vs, u.span.stop ≤ v.span.start)
    (hwf : ∀ v ∈ vs, v.WF) : ∀ v ∈ vs, ∀ s ∈ S, v.span.isInside s = false := by
  intro v hv s hs
  obtain ⟨_, -, u, hu, -, hstop⟩ := h s hs
  have h1 := hlt u hu v hv
  have h2 := (hwf v hv).nonempty
  have : ¬ v.span.stop ≤ s.stop := by omega
  simp [Span.isInside, this]

/-- Targets have no part in tokens before theirs. -/
theorem Holds.not_inside_before (h : Holds vs T) (hlt : ∀ u ∈ us, ∀ v ∈ vs, u.span.stop ≤ v.span.start)
    (hwf : ∀ u ∈ us, u.WF) : ∀ u ∈ us, ∀ s ∈ T, u.span.isInside s = false := by
  intro u hu s hs
  obtain ⟨v, hv, _, -, hstart, -⟩ := h s hs
  have h1 := hlt u hu v hv
  have h2 := (hwf u hu).nonempty
  have : ¬ s.start ≤ u.span.start := by omega
  simp [Span.isInside, this]

theorem Holds.append (h : Holds us S) (h' : Holds vs T) : Holds (us ++ vs) (S ++ T) := by
  intro s hs
  rcases List.mem_append.1 hs with hs | hs
  · obtain ⟨u, hu, v, hv, e⟩ := h s hs
    exact ⟨u, List.mem_append_left _ hu, v, List.mem_append_left _ hv, e⟩
  · obtain ⟨u, hu, v, hv, e⟩ := h' s hs
    exact ⟨u, List.mem_append_right _ hu, v, List.mem_append_right _ hv, e⟩

/-- Without targets the names are the identifiers. -/
theorem Names.namesAt (h : Names Kind.isIdent a is c) : NamesAt a [] [] is c := by
  obtain ⟨us, rfl, hu⟩ := h
  have hname : Token.isName [] = fun t => t.kind.isIdent := funext fun _ => Token.isName_nil
  refine ⟨us, rfl, fun s hs => absurd hs List.not_mem_nil, ?_⟩
  rw [hname, List.append_nil]
  exact hu.symm

/-- Neighbouring stretches keep their names. -/
theorem NamesAt.append (ho : Ordered a) (hwf : ∀ t ∈ a, t.WF) (h : NamesAt a S es is b) (h' : NamesAt b T fs js c) :
    NamesAt a (S ++ T) (es ++ fs) (is ++ js) c := by
  obtain ⟨us, rfl, hS, hu⟩ := h
  obtain ⟨vs, rfl, hT, hv⟩ := h'
  have hlt : ∀ u ∈ us, ∀ v ∈ vs, u.span.stop ≤ v.span.start :=
    fun u hu v hv => (List.pairwise_append.1 ho).2.2 u hu v (List.mem_append_left _ hv)
  have hus : us.filter (Token.isName (S ++ T)) = us.filter (Token.isName S) :=
    List.filter_congr fun u hu => Token.isName_append_left
      (hT.not_inside_before hlt (fun u hu => hwf u (List.mem_append_left _ hu)) u hu)
  have hvs : vs.filter (Token.isName (S ++ T)) = vs.filter (Token.isName T) :=
    List.filter_congr fun v hv => Token.isName_append_right
      (hS.not_inside_after hlt (fun v hv => hwf v (List.mem_append_right _ (List.mem_append_left _ hv))) v hv)
  refine ⟨us ++ vs, by rw [List.append_assoc], hS.append hT, (hu.append hv).trans ?_⟩
  rw [List.filter_append, List.map_append, hus, hvs, List.append_assoc, List.append_assoc]
  exact (List.perm_append_comm_assoc _ _ _).append_left _

theorem Ordered.start_le {u : Token} (ho : Ordered (u :: us)) (hu : u.WF) :
    ∀ t ∈ u :: us, u.span.start ≤ t.span.start := by
  intro t ht
  rcases List.mem_cons.1 ht with rfl | ht
  · exact le_refl _
  · exact le_trans (le_of_lt hu.nonempty) ((List.pairwise_cons.1 ho).1 t ht)

theorem Ordered.stop_le {v : Token} (ho : Ordered (us ++ [v])) (hv : v.WF) :
    ∀ t ∈ us ++ [v], t.span.stop ≤ v.span.stop := by
  intro t ht
  rcases List.mem_append.1 ht with ht | ht
  · have hlt := (List.pairwise_append.1 ho).2.2 t ht v (List.mem_singleton.2 rfl)
    exact le_trans hlt (le_of_lt hv.nonempty)
  · rw [List.mem_singleton.1 ht]

/-- A stretch that is a target as a whole has all its words as names. -/
theorem Names.namesAt_target {u v : Token} (ho : Ordered a) (hwf : ∀ t ∈ a, t.WF) (h : Names Kind.isWord a is c)
    (hu : a = u :: b) (hv : a = vs ++ v :: c) (hp : js.Perm (is ++ es)) :
    NamesAt a [u.span.through v.span] es js c := by
  obtain ⟨us, rfl, hus⟩ := h
  obtain rfl : us = vs ++ [v] := List.append_cancel_right (hv.trans (by simp))
  have hvmem : v ∈ vs ++ [v] := List.mem_append_right _ (List.mem_singleton.2 rfl)
  have humem : u ∈ vs ++ [v] := by cases vs <;> simp_all
  have hmem : ∀ t ∈ vs ++ [v], t ∈ vs ++ [v] ++ c := fun t ht => List.mem_append_left _ ht
  have hlast := Ordered.stop_le (List.pairwise_append.1 ho).1 (hwf v (hmem v hvmem))
  have hfirst : ∀ t ∈ vs ++ [v], u.span.start ≤ t.span.start := by
    intro t ht
    have hwfu := hwf u (hmem u humem)
    have ht := hmem t ht
    rw [hu] at ho ht
    exact ho.start_le hwfu t ht
  have hstop : (u.span.through v.span).stop = v.span.stop := max_eq_right (hlast u humem)
  have hname : (vs ++ [v]).filter (Token.isName [u.span.through v.span]) =
      (vs ++ [v]).filter fun t => t.kind.isWord := by
    refine List.filter_congr fun t ht => Token.isName_of_inside ?_
    rw [Span.isInside, hstop, decide_eq_true (hlast t ht)]
    exact Bool.and_eq_true_iff.2 ⟨decide_eq_true (hfirst t ht), rfl⟩
  refine ⟨vs ++ [v], rfl, ?_, ?_⟩
  · intro s hs
    obtain rfl := List.mem_singleton.1 hs
    exact ⟨u, humem, v, hvmem, rfl, hstop⟩
  · rw [hname]
    exact hp.trans (hus.symm.append_right _)

end NamesAt

namespace Rule

variable {r s : Reader}

/-! ## IRIs -/

theorem ne_eof_of_isWord {k : Kind} (h : k.isWord = true) : k ≠ .eof := by
  rintro rfl
  cases h

theorem names_iriDomain {is : List Ident} (hr : r.WF) (h : iriDomain.Reads r is s) :
    Names Kind.isWord r.advance.rest (is.flatMap fun i => i.outline.names) s.advance.rest := by
  obtain ⟨hk, hl⟩ := reads_iriDomain.1 h
  obtain ⟨js, he, hn⟩ := (@segments_word .domainSegment).names (K := Kind.isWord) (fun h => h) rfl hr.advance hl
  obtain rfl : is = r.advance.current.ident :: js := by simpa using congrArg Array.toList he
  exact hr.advance.names_word hk (ne_eof_of_isWord hk) hn

theorem names_iriPath {path : List Ident × Bool} (hr : r.WF) (h : iriPath.Reads r path s) :
    Names Kind.isWord r.advance.rest (path.1.flatMap fun i => i.outline.names) s.advance.rest := by
  refine Reads.of_loop (reads_iriPath.1 h) hr.budget
    (P := fun xs m => m.WF ∧
      Names Kind.isWord r.advance.rest (xs.1.toList.flatMap fun i => i.outline.names) m.advance.rest)
    (Q := fun xs m => Names Kind.isWord r.advance.rest (xs.1.toList.flatMap fun i => i.outline.names) m.advance.rest)
    ⟨hr, .nil⟩ ?_ ?_
  · rintro xs m ys n ⟨hm, hn⟩ ha
    obtain ⟨hk, hw, rfl, rfl⟩ := reads_pathRound_again.1 ha
    refine ⟨⟨hm.advance.advance, ?_⟩, ?_⟩
    · simp only [Array.toList_push, List.flatMap_append, List.flatMap_cons, List.flatMap_nil]
      exact hn.append (hm.advance.names_pass hk rfl (by simp)
        (hm.advance.advance.names_word hw (ne_eof_of_isWord hw) .nil))
    · have h1 := hm.advance.length_advance (by simp [hk])
      have h2 := (Reader.Leads.advance m).length_le
      omega
  · rintro xs m ys n ⟨hm, hn⟩ ha
    rcases reads_pathRound_stop.1 ha with ⟨hk, -, rfl, rfl⟩ | ⟨-, rfl, rfl⟩
    · simpa using hn.append (hm.advance.names_pass hk rfl (by simp) .nil)
    · exact hn

/-- A fragment is a name, unless it is empty. -/
theorem names_iriFragment {f : Option Ident} (hr : r.WF) (h : iriFragment.Reads r f s) :
    ∃ is, Names Kind.isWord r.advance.rest is s.advance.rest ∧
      (Ident.outline? f).flatMap Outline.names = is ++ (f.filter Ident.isEmpty).toList := by
  rcases reads_iriFragment.1 h with ⟨hk, hw, rfl, rfl⟩ | ⟨hk, -, ⟨sp, rfl, rfl⟩, rfl⟩ | ⟨-, rfl, rfl⟩
  · have hne := ne_eof_of_isWord hw
    have hfull := (hr.advance.advance.current_wf hne).isEmpty_ident
    refine ⟨_, hr.advance.names_pass hk rfl (by simp) (hr.advance.advance.names_word hw hne .nil), ?_⟩
    simp [Ident.outline?, Option.filter, hfull]
  · refine ⟨_, hr.advance.names_pass hk rfl (by simp) .nil, ?_⟩
    simp [Ident.outline?, Ident.outline, Node.ident?, Option.filter, Ident.isEmpty]
  · exact ⟨_, .nil, rfl⟩

/-- An IRI in front of a token is a target: all its words are names. -/
theorem namesAt_iri {a : AbsoluteIri} (hr : r.WF) (h : iri.Reads r (.absolute a) s) (hs : s.current.kind ≠ .eof) :
    NamesAt r.rest [a.span] a.emptyFragment?.toList (Iri.absolute a).outline.names s.advance.rest := by
  have hrest := (h.leads.wf hr).rest_eq hs
  obtain ⟨ws, hws⟩ := h.leads.rest
  obtain ⟨hw, hc, m, hb, ha⟩ := reads_iri_absolute.1 h
  obtain ⟨hh, hm⟩ := looks_opensHost.eq hb
  obtain ⟨h1, h2⟩ := of_decide_eq_true hh.symm
  obtain ⟨is, n, path, q, f, hd, hp, hf, rfl⟩ := reads_absoluteIri.1 ha
  have hne := ne_eof_of_isWord hw
  have hmw := hb.leads.wf hr.advance
  have hnw := hd.leads.wf hmw.advance.advance
  obtain ⟨fs, hfs, hfrag⟩ := names_iriFragment (hp.leads.wf hnw) hf
  have htail := (names_iriDomain hmw.advance.advance hd).append ((names_iriPath hnw hp).append hfs)
  rw [hm.advance.advance.advance.rest] at htail
  have hnames := hr.names_word hw hne (hr.advance.names_pass hc rfl (by simp)
    (hr.advance.advance.names_pass h1 rfl (by simp) (hr.advance.advance.advance.names_pass h2 rfl (by simp) htail)))
  rw [hrest] at hws
  refine hnames.namesAt_target hr.ordered hr.tokens (hr.rest_eq hne) hws.symm ?_
  rw [Iri.outline, Outline.names_mk, List.flatMap_append, hfrag]
  simp [List.flatMap_map, Node.ident?, AbsoluteIri.emptyFragment?, Ident.outline?]

/-! ## Declarations -/

theorem names_functionDecl {f : FunctionDecl} (hr : r.WF) (h : functionDecl.Reads r f s) :
    Names Kind.isIdent r.rest f.outline.names s.advance.rest := by
  obtain ⟨n, m, ps, q, b, t, hn, h1, hp, h2, h3, h4, hb, rfl, rfl⟩ := reads_functionDecl.1 h
  have hm := hn.leads.wf hr
  have hq := hp.leads.wf hm.advance.advance
  have ht := hb.leads.wf hq.advance.advance.advance
  -- the semicolon behind a body is not a name
  have hend : Names Kind.isIdent t.advance.rest []
      (if t.advance.current.kind = .punct .semicolon then t.advance else t).advance.rest := by
    split
    · rename_i hsemi
      exact ht.advance.names_punct hsemi .nil
    · exact .nil
  have := (gathers_dottedName hr hn).append (hm.advance.names_punct h1 ((gathers_params hm.advance.advance hp).append
    (hq.advance.names_punct h2 (hq.advance.advance.names_ident h3
      ((gathersBlock_block hq.advance.advance.advance h4 hb).append hend)))))
  simpa [FunctionDecl.outline, List.flatMap_map, Name.outline?, Ident.outline?, Node.ident?] using this

theorem names_member {m : Member} (hr : r.WF) (h : ReadsMember r m s) :
    Names Kind.isIdent r.rest m.outline.names s.advance.rest := by
  cases m with
  | property p =>
    obtain ⟨hk, hc, h⟩ := h
    obtain ⟨h1, h2, rfl, rfl⟩ := reads_propertyDecl.1 h
    have hr2 := hr.advance.advance
    have := hr.names_ident hk (hr.advance.names_punct hc (hr2.names_ident h1 (hr2.advance.names_punct h2 .nil)))
    simpa [Member.outline, PropertyDecl.outline, Ident.outline?, Node.ident?] using this
  | method f => exact names_functionDecl hr h.2.2

theorem names_classDef {c : ClassDef} {closed : Bool} (hr : r.WF) (hk : r.current.kind = .keyword .classWord)
    (h : classDef.Reads r (c, closed) s) : Names Kind.isIdent r.rest c.outline.names s.advance.rest := by
  obtain ⟨h1, h2, h3, -, ms, hms, rfl⟩ := (reads_classDef hr).1 h
  have hr3 := hr.advance.advance.advance
  have hs := (hms.leads steps_readsMember).wf hr3
  have hbody := hms.names steps_readsMember (fun _ _ _ hr h => names_member hr h) hr3
  have := hr.names_keyword hk (hr.advance.names_ident h1 (hr.advance.advance.names_punct h2
    (hbody.append (hs.names_punct h3 .nil))))
  -- the members come apart into properties and methods
  have hperm := (Member.mix.perm ms).flatMap_right fun m => m.outline.names
  refine this.perm ?_
  simp only [ClassDef.outline, classOf, Outline.names_mk, Node.ident?, Ident.outline?, Option.toList_none,
    Option.toList_some, List.map_cons, List.map_nil, List.flatMap_append, List.flatMap_cons, List.flatMap_nil,
    List.flatMap_map, List.nil_append, List.append_nil, List.append_assoc]
  refine List.Perm.append_left _ (hperm.symm.trans ?_)
  simp [List.flatMap_map, Member.outline]

theorem names_decl {d : Decl} (hr : r.WF) (h : ReadsDecl r d s) :
    Names Kind.isIdent r.rest d.outline.names s.advance.rest := by
  cases d with
  | classDef c => exact names_classDef hr h.1 h.2
  | function f => exact names_functionDecl hr h.2

theorem names_import {i : ModuleImport} (hr : r.WF) (h : ReadsImport r i s) :
    Names Kind.isIdent r.rest i.outline.names s.advance.rest := by
  obtain ⟨ns, hns, rfl⟩ := reads_moduleImport.1 h.2
  have hname : moduleName.Gathers fun i => i.outline.names := by
    intro r i s hr h
    obtain ⟨hk, rfl, rfl⟩ := reads_moduleName.1 h
    simpa using hr.names_ident hk .nil
  have := hr.names_keyword h.1 (hname.someItems (by decide) hr.advance hns)
  simpa [ModuleImport.outline, List.flatMap_map, Node.ident?] using this

theorem namesAt_alias {a : Alias} (hr : r.WF) (h : ReadsAlias r a s) :
    NamesAt r.rest (a.target.toList.map AbsoluteIri.span) (a.target.toList.filterMap AbsoluteIri.emptyFragment?)
      a.outline.names s.advance.rest := by
  obtain ⟨hk, h⟩ := h
  obtain ⟨h1, h2, t, m, ht, h3, rfl, rfl⟩ := reads_aliasDecl.1 h
  have hr3 := hr.advance.advance.advance
  have hm := ht.leads.wf hr3
  -- the semicolon is behind the target, which therefore ends in a token
  have hend : m.current.kind ≠ .eof := by
    intro e
    have : m.advance.current.kind = .eof := by
      rw [hm.advance.current_kind, Reader.advance, hm.rest_eq_nil e]
      rfl
    rw [h3] at this
    cases this
  have hhead : Names Kind.isIdent r.rest r.advance.current.ident.outline.names r.advance.advance.advance.rest := by
    simpa using hr.names_keyword hk (hr.advance.names_ident h1 (hr.advance.advance.names_keyword h2 .nil))
  have hsemi : Names Kind.isIdent m.advance.rest [] m.advance.advance.rest := hm.advance.names_punct h3 .nil
  have htarget := (namesAt_iri hr3 ht hend).append hr3.ordered hr3.tokens hsemi.namesAt
  have := hhead.namesAt.append hr.ordered hr.tokens htarget
  have hfrag : [t].filterMap AbsoluteIri.emptyFragment? = t.emptyFragment?.toList := by
    cases h : t.emptyFragment? <;> simp [h]
  rw [Option.toList_some, hfrag]
  simpa [Alias.outline, List.flatMap_map, Ident.outline?, Node.ident?] using this

/-! ## Programs -/

theorem namesAt_aliases {as : List Alias} (h : InTurn ReadsAlias r as s) (hr : r.WF) :
    NamesAt r.rest ((as.filterMap Alias.target).map AbsoluteIri.span)
      ((as.filterMap Alias.target).filterMap AbsoluteIri.emptyFragment?) (as.flatMap fun a => a.outline.names)
      s.rest := by
  induction h with
  | nil => exact Names.nil.namesAt
  | @cons r m _ a as h' _ ih =>
    have htail := ih (steps_readsAlias.wf hr h')
    have hsplit : (a :: as).filterMap Alias.target = a.target.toList ++ as.filterMap Alias.target := by
      cases h : a.target <;> simp [h]
    rw [hsplit, List.map_append, List.filterMap_append, List.flatMap_cons]
    exact (namesAt_alias hr h').append hr.ordered hr.tokens htail

/-- The identifiers of a program read without reports are the names among its tokens and the empty
fragments of its targets. -/
theorem perm_names_program {p : Program} (hr : r.WF) (h : program.Reads r p s) : p.outline.names.Perm
    ((r.rest.filter (Token.isName (p.targets.map AbsoluteIri.span))).map Token.ident ++
      p.targets.filterMap AbsoluteIri.emptyFragment?) := by
  have hend := (sound_program hr h).2.1
  obtain ⟨-, is, as, ds, ⟨m, n, h1, h2, h3⟩, rfl⟩ := (reads_program hr).1 h
  have hm := (h1.leads steps_readsImport).wf hr
  have hn := (h2.leads steps_readsAlias).wf hm
  have himports := (h1.names steps_readsImport (fun _ _ _ hr h => names_import hr h) hr).namesAt
  have hdecls := (h3.names steps_readsDecl (fun _ _ _ hr h => names_decl hr h) hn).namesAt
  obtain ⟨us, hus, -, hperm⟩ := himports.append hr.ordered hr.tokens
    ((namesAt_aliases h2 hm).append hm.ordered hm.tokens hdecls)
  rw [hend, List.append_nil] at hus
  rw [List.append_nil, List.append_nil, List.nil_append, List.nil_append, ← hus] at hperm
  refine List.Perm.trans ?_ hperm
  have hmix := (Decl.mix.perm ds).flatMap_right fun d => d.outline.names
  simp only [Program.outline, programOf, Outline.names_mk, Node.ident?, Option.toList_none, List.flatMap_append,
    List.flatMap_map, List.map_nil, List.nil_append, List.append_nil, List.append_assoc]
  refine List.Perm.append_left _ (List.Perm.append_left _ (List.Perm.trans ?_ hmix))
  simp [List.flatMap_map, Decl.outline]

end Rule

/-! ## From sources to visitors -/

theorem Reader.WF.ascending_names {r : Reader} (hr : r.WF) (f : Token → Bool) :
    ((r.rest.filter f).map Token.ident).Pairwise fun i j => i.span.start < j.span.start := by
  rw [List.pairwise_map]
  refine (hr.ordered.sublist List.filter_sublist).imp_of_mem fun {t u} ht _ hlt => ?_
  exact lt_of_lt_of_le (hr.tokens t (List.mem_filter.1 ht).1).nonempty hlt

/-- Identifiers that are those of tokens and some empty ones come apart again. -/
theorem perm_of_perm_append {is es : List Ident} {ts : List Token} (h : is.Perm (ts.map Token.ident ++ es))
    (hts : ∀ t ∈ ts, t.WF) (hes : ∀ i ∈ es, i.isEmpty = true) :
    (is.filter fun i => !i.isEmpty).Perm (ts.map Token.ident) ∧ (is.filter Ident.isEmpty).Perm es := by
  have hfull : ∀ i ∈ ts.map Token.ident, i.isEmpty = false := by
    intro i hi
    obtain ⟨t, ht, rfl⟩ := List.mem_map.1 hi
    exact (hts t ht).isEmpty_ident
  constructor
  · have hkeep : (ts.map Token.ident).filter (fun i => !i.isEmpty) = ts.map Token.ident :=
      List.filter_eq_self.2 fun i hi => by simp [hfull i hi]
    have hdrop : es.filter (fun i => !i.isEmpty) = [] := List.filter_eq_nil_iff.2 fun i hi => by simp [hes i hi]
    simpa only [List.filter_append, hkeep, hdrop, List.append_nil] using h.filter fun i => !i.isEmpty
  · have hdrop : (ts.map Token.ident).filter Ident.isEmpty = [] :=
      List.filter_eq_nil_iff.2 fun i hi => by simp [hfull i hi]
    simpa only [List.filter_append, List.filter_eq_self.2 hes, hdrop, List.nil_append] using h.filter Ident.isEmpty

variable {file src : String} {limit : Nat}

/-- No name is lost and none is doubled: sorted by their starts, the identifiers that a visit meets are the
names of the source as they are written, each once, and the empty ones are the fragments of targets that end
in `#`. -/
theorem readProgram_names (h : (readProgram file src limit).diagnostics = []) :
    (stableSort (fun i j => i.span.start < j.span.start)
        ((readProgram file src limit).value.outline.names.filter fun i => !i.isEmpty)).map (fun i => (i.span, i.name)) =
      ((tokenize file src).filter (Token.isName ((readProgram file src limit).value.targets.map AbsoluteIri.span))).map
        (fun t => (t.span, t.raw)) ∧
    (((readProgram file src limit).value.outline.names.filter fun i => !i.isEmpty).map Ident.span).Nodup ∧
    ((readProgram file src limit).value.outline.names.filter Ident.isEmpty).Perm
      ((readProgram file src limit).value.targets.filterMap AbsoluteIri.emptyFragment?) := by
  obtain ⟨r, s, e, htok, he, hr, hread⟩ := reads_program_of_clean h
  generalize (readProgram file src limit).value = p at hread ⊢
  have hperm := Rule.perm_names_program hr hread
  generalize p.targets.map AbsoluteIri.span = S at hperm ⊢
  have heof : ¬ e.isName S = true := by
    have hk : e.kind = .eof := congrArg Lexeme.kind he
    simp [Token.isName, hk]
  have htokens : (tokenize file src).filter (Token.isName S) = r.rest.filter (Token.isName S) := by
    rw [htok, List.filter_append, List.filter_cons_of_neg heof, List.filter_nil, List.append_nil]
  have hfragments : ∀ i ∈ p.targets.filterMap AbsoluteIri.emptyFragment?, i.isEmpty = true := by
    intro i hi
    obtain ⟨a, -, ha⟩ := List.mem_filterMap.1 hi
    exact (Option.filter_eq_some_iff.1 ha).2
  obtain ⟨hnames, hempty⟩ :=
    perm_of_perm_append hperm (fun t ht => hr.tokens t (List.mem_filter.1 ht).1) hfragments
  have hascending := hr.ascending_names (Token.isName S)
  refine ⟨?_, ?_, hempty⟩
  · rw [stableSort_eq_of_perm (fun i : Ident => i.span.start) hnames hascending, htokens, List.map_map]
    refine List.map_congr_left fun t ht => ?_
    exact Prod.ext rfl (Token.name_ident_of_isName (List.mem_filter.1 ht).2)
  · refine (hnames.map Ident.span).nodup_iff.2 (List.pairwise_map.2 (hascending.imp fun {i j} hlt e => ?_))
    rw [e] at hlt
    exact lt_irrefl _ hlt

/-- A source with keywords inside a target that ends in `#`, and with a property behind a method. -/
def scattered : String :=
  "use m; alias b as if://use.x/class#; class C \x7b f(x: T): T \x7b return x.y; \x7d p: U; \x7d " ++
    "g(): T \x7b z = [v | v <- w, v.k]; \x7d"

/-- The names of `scattered` in their order. -/
def scatteredNames : List String :=
  ["m", "b", "if", "use", "x", "class", "C", "f", "x", "T", "T", "x", "y", "p", "U", "g", "T", "z", "v", "v", "w",
    "v", "k"]

theorem readProgram_names_scattered : (readProgram "a.sem" scattered).diagnostics = [] ∧
    (stableSort (fun i j => i.span.start < j.span.start)
      ((readProgram "a.sem" scattered).value.outline.names.filter fun i => !i.isEmpty)).map Ident.name =
        scatteredNames ∧
    (((readProgram "a.sem" scattered).value.outline.names.filter fun i => !i.isEmpty).map Ident.span).Nodup ∧
    ((readProgram "a.sem" scattered).value.outline.names.filter Ident.isEmpty).length = 1 := by
  obtain ⟨hclean, hraw, hfragments⟩ : ((readProgram "a.sem" scattered).diagnostics).isEmpty = true ∧
      ((tokenize "a.sem" scattered).filter
        (Token.isName ((readProgram "a.sem" scattered).value.targets.map AbsoluteIri.span))).map Token.raw =
          scatteredNames ∧
      ((readProgram "a.sem" scattered).value.targets.filterMap AbsoluteIri.emptyFragment?).length = 1 := by
    decide +kernel
  have hclean := List.isEmpty_iff.1 hclean
  obtain ⟨hsorted, hnodup, hempty⟩ := readProgram_names hclean
  have hnames := congrArg (List.map Prod.snd) hsorted
  rw [List.map_map, List.map_map] at hnames
  exact ⟨hclean, hnames.trans hraw, hnodup, hempty.length_eq.trans hfragments⟩

end SemFront
