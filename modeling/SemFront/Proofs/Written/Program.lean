/-
Whatever is read is written: statements, parameters, members and declarations, and so the program that a
source is read as, whatever the source. A placeholder among them stands where a round of reading gave up.
-/
import SemFront.Proofs.Written.Expr
import SemFront.Proofs.Written.Losses

namespace SemFront

namespace Rule

variable {cs : List Char} {r m n : Reader} (hr : r.Placed cs)
include hr

/-! ## Variables and assignments -/

theorem yields_typeRef {name : Token} : Yields r (typeRef name) fun type => type.1.Written := by
  intro m hm
  unfold typeRef
  rw [ensures_bind, ensures_peek]
  split
  · exact ⟨hm.trans (.report m _), trivial⟩
  · simp only [ensures_bind, ensures_advance, ensures_current, ensures_expect, ensures_currentIdent, ensures_peek,
      ensures_ite, ensures_pure, ensures_refuse]
    split
    · split
      · rename_i hk
        split
        · exact ⟨hm.next.next.next.next, (hm.next.next.next.wf hr.wf).ident_canonical hk⟩
        · trivial
      · trivial
    · trivial
  · simp only [ensures_bind, ensures_expect, ensures_current, ensures_pure]
    split
    · rename_i hk
      exact ⟨hm.next, (hm.next.wf hr.wf).ident_canonical hk⟩
    · trivial

theorem yields_varDecl (hm : r.Leads m) (hk : m.current.kind = .ident) : varDecl.Ensures m
    (fun s n => r.Leads n ∧ s.Written (losses r)) fun _ => True := by
  have hname : m.current.ident.Canonical := (hm.wf hr.wf).ident_canonical hk
  unfold varDecl
  simp only [ensures_bind, ensures_current, ensures_advance]
  refine (yields_typeRef hr _ hm.next).mono ?_ (fun _ h => h)
  rintro ⟨type, begun⟩ n ⟨hn, htype⟩
  dsimp only
  refine (Honest.ensures (x := initFollows begun)).mono (fun follows o ho => ?_) (fun _ _ => trivial)
  have hro := hn.trans ho
  simp only [ensures_ite, ensures_bind, ensures_advance, ensures_current, ensures_pure]
  split
  · exact (yields_expr hr.wf _ hro.next).mono (fun init s hinit => ⟨hinit.1, .varDecl hname htype (.inr hinit.2)⟩)
      (fun _ h => h)
  · exact ⟨hro, .varDecl hname htype (.inl rfl)⟩

theorem yields_assignment : Yields r assignment (Stmt.Written (losses r)) := by
  intro m hm
  unfold assignment
  simp only [ensures_bind, ensures_advance, ensures_pure]
  refine (yields_dottedName hr.wf m hm).mono (fun target n htarget => ?_) (fun _ h => h)
  exact (yields_expr hr.wf _ htarget.1.next.next).mono
    (fun value s hvalue => ⟨hvalue.1, .assign htarget.2 hvalue.2⟩) (fun _ h => h)

/-! ## Statements -/

theorem yields_exprStmt : Yields r exprStmt (Stmt.Written (losses r)) := by
  intro m hm
  unfold exprStmt
  simp only [ensures_bind, ensures_pure]
  exact (yields_expr hr.wf m hm).mono (fun value s hvalue => ⟨hvalue.1, .expr hvalue.2⟩) (fun _ h => h)

theorem yields_returnStmt : Yields r returnStmt (Stmt.Written (losses r)) := by
  intro m hm
  unfold returnStmt
  simp only [ensures_bind, ensures_current, ensures_advance, ensures_pure]
  exact (yields_expr hr.wf _ hm.next).mono (fun value s hvalue => ⟨hvalue.1, .ret hvalue.2⟩) (fun _ h => h)

theorem yields_nameStmt (hm : r.Leads m) (hk : m.current.kind = .ident) : nameStmt.Ensures m
    (fun s n => r.Leads n ∧ s.Written (losses r)) fun _ => True := by
  unfold nameStmt
  simp only [ensures_bind, ensures_peek, ensures_ite, ensures_afterChain]
  split
  · exact yields_varDecl hr hm hk
  · have hlook : r.Leads m.afterChain.2 := hm.trans (.look m _)
    split
    · exact yields_assignment hr _ hlook
    · exact yields_exprStmt hr _ hlook

section Blocks

variable {block : Rule Block} [Honest block] (hblock : Yields r block (Block.Written (losses r)))
include hblock

omit [Honest block] in
theorem yields_condBlock : Yields r (condBlock block) fun x => x.1.Written ∧ x.2.Written (losses r) := by
  intro m hm
  unfold condBlock
  simp only [ensures_bind, ensures_advance, ensures_expect, ensures_pure]
  refine (yields_expr hr.wf _ hm.next).mono (fun e n he => ?_) (fun _ h => h)
  split
  · exact (hblock _ he.1.next).mono (fun b s hb => ⟨hb.1, he.2, hb.2⟩) (fun _ h => h)
  · trivial

omit hr [Honest block] in
theorem yields_elseBlock : Yields r (elseBlock block) fun b => b = .absent ∨ b.Written (losses r) := by
  intro m hm
  unfold elseBlock
  simp only [ensures_bind, ensures_peek, ensures_ite, ensures_advance, ensures_expect, ensures_pure]
  split
  · split
    · exact (hblock _ hm.next.next).mono (fun b s hb => ⟨hb.1, .inr hb.2⟩) (fun _ h => h)
    · trivial
  · exact ⟨hm, .inl trivial⟩

omit [Honest block] in
theorem yields_ifStmt : Yields r (ifStmt block) (Stmt.Written (losses r)) := by
  intro m hm
  unfold ifStmt
  simp only [ensures_bind, ensures_current, ensures_pure]
  refine (yields_condBlock hr hblock m hm).mono ?_ (fun _ h => h)
  rintro ⟨condition, yes⟩ n ⟨hn, hcondition, hyes⟩
  refine (yields_elseBlock hblock n hn).mono (fun no s hno => ⟨hno.1, ?_⟩) (fun _ h => h)
  cases yes with
  | absent => exact hyes.elim
  | mk ys t =>
    rcases hno.2 with rfl | hno
    · exact .ifThen hcondition hyes
    · cases no with
      | absent => exact hno.elim
      | mk ns u => exact .ifElse hcondition hyes hno

omit [Honest block] in
theorem yields_whileStmt : Yields r (whileStmt block) (Stmt.Written (losses r)) := by
  intro m hm
  unfold whileStmt
  simp only [ensures_bind, ensures_current, ensures_pure]
  refine (yields_condBlock hr hblock m hm).mono ?_ (fun _ h => h)
  rintro ⟨condition, body⟩ s ⟨hs, hcondition, hbody⟩
  cases body with
  | absent => exact hbody.elim
  | mk bs t => exact ⟨hs, .whileLoop hcondition hbody⟩

omit [Honest block] in
theorem yields_withStmt : Yields r (withStmt block) (Stmt.Written (losses r)) := by
  intro m hm
  unfold withStmt
  simp only [ensures_bind, ensures_current, ensures_pure]
  refine (yields_condBlock hr hblock m hm).mono ?_ (fun _ h => h)
  rintro ⟨resource, body⟩ s ⟨hs, hresource, hbody⟩
  cases body with
  | absent => exact hbody.elim
  | mk bs t => exact ⟨hs, .withBlock hresource hbody⟩

omit [Honest block] in
theorem yields_stmt : Yields r (stmt block) (Stmt.Written (losses r)) := by
  intro m hm
  unfold stmt
  rw [ensures_bind, ensures_current]
  split
  · exact yields_ifStmt hr hblock m hm
  · exact yields_whileStmt hr hblock m hm
  · exact yields_withStmt hr hblock m hm
  · exact yields_returnStmt hr m hm
  · exact yields_nameStmt hr hm ‹_›
  · exact yields_exprStmt hr m hm

/-! ## Blocks -/

/-- One more statement, or a placeholder for one that was given up. -/
theorem ensures_stmtRound_grows {stmts : Array Stmt} (hm : r.Leads m) : (stmtRound block stmts).Ensures m
    (ofRound (fun ts o => ∃ s, ts = stmts.push s ∧ (s.Written (losses r) ∨ ∃ n span, s = .bad span ∧
        stmt block m = .fail n ∧ Abandons .statement m n o span))
      fun ts _ => ts = stmts) fun _ => True := by
  unfold stmtRound
  simp only [ensures_bind, ensures_current, ensures_ite, ensures_attempt]
  split
  · rfl
  · rename_i hk
    have hne : m.current.kind ≠ .eof := fun e => hk (by simp [e])
    refine (Ensures.self.and (yields_stmt hr hblock m hm)).leads.mono (fun s n hs => ?_) (fun n hn => ?_)
    · exact (Honest.ensures (x := finishStmt)).mono (fun _ o _ => ⟨s, rfl, .inl hs.2.2.2⟩) (fun _ _ => trivial)
    · refine (recover_abandons (hm.placed hr) hne hn.1).mono (fun span o ho => ?_) (fun _ h => h)
      exact ⟨.bad span, rfl, .inr ⟨n, span, rfl, hn.2.1, ho⟩⟩

end Blocks

theorem yields_blockAt (depth : Nat) : Yields r (blockAt depth) (Block.Written (losses r)) := by
  induction depth with
  | zero => exact fun _ _ => trivial
  | succ depth hblock =>
    intro m hm
    unfold blockAt blockWith
    simp only [ensures_bind, ensures_current, ensures_advance]
    refine (Yields.loop (P := fun ss : Array Stmt => ∀ s ∈ ss.toList, s.Written (losses r)) hr.wf
      (fun ss k hk hss => ?_) (by simp) _ hm.next).mono (fun ss s hs => ?_) (fun _ h => h)
    · refine (Ensures.self.and (ensures_stmtRound_grows hr hblock hk)).mono ?_ (fun _ _ => trivial)
      rintro (ts | ts) o ⟨he, h⟩
      · obtain ⟨s, rfl, hs | ⟨n, span, rfl, hfail, hspan⟩⟩ := h
        · exact forall_mem_push hss hs
        · exact forall_mem_push hss (.bad ⟨depth, ss, k, n, o, hk, hfail, he, hspan⟩)
      · cases h
        exact hss
    · split
      · exact ⟨hs.1.trans (.report s _), hs.2⟩
      · exact hs

theorem yields_block : Yields r block (Block.Written (losses r)) :=
  fun m hm => .of_budget (yields_blockAt hr _ m hm)

/-! ## Parameters -/

theorem yields_binding {bindings : Rule (List Binding)} (hbindings : Yields r bindings fun bs => ∀ b ∈ bs, b.Written) :
    Yields r (binding bindings) Binding.Written := by
  intro m hm
  unfold binding
  simp only [ensures_bind, ensures_current, ensures_ite, ensures_refuse, ensures_expect, ensures_currentIdent,
    ensures_peek, ensures_advance, ensures_pure]
  split
  · trivial
  rename_i hk
  split
  · split
    · rename_i hk'
      have hname : m.current.ident.Canonical := (hm.wf hr.wf).ident_canonical (by simpa using hk)
      have hprop : m.advance.advance.current.ident.Canonical := (hm.next.next.wf hr.wf).ident_canonical hk'
      split
      · exact (yields_expr hr.wf _ hm.next.next.next.next).mono
          (fun e s he => ⟨he.1, .leaf hname hprop (.inr he.2)⟩) (fun _ h => h)
      · split
        · exact (hbindings _ hm.next.next.next).mono (fun bs s hbs => ⟨hbs.1, .nested hname hprop hbs.2⟩) (fun _ h => h)
        · exact ⟨hm.next.next, .leaf hname hprop (.inl rfl)⟩
    · trivial
  · trivial

theorem yields_bindingsAt (depth : Nat) : Yields r (bindingsAt depth) fun bs => ∀ b ∈ bs, b.Written := by
  induction depth with
  | zero => exact fun _ _ => trivial
  | succ depth ih =>
    intro m hm
    unfold bindingsAt
    rw [ensures_bind, ensures_advance]
    exact (yields_binding hr ih).someItems hr.wf _ hm.next

theorem yields_param : Yields r param (Param.Written (losses r)) := by
  intro m hm
  unfold param
  simp only [ensures_bind, ensures_current, ensures_ite, ensures_refuse, ensures_expect, ensures_peek, ensures_advance,
    ensures_pure]
  split
  · trivial
  rename_i hk
  have hname : m.current.ident.Canonical := (hm.wf hr.wf).ident_canonical (by simpa using hk)
  split
  · refine (yields_dottedName hr.wf _ hm.next.next).mono (fun type n htype => ?_) (fun _ h => h)
    split
    · refine (Ensures.of_budget (yields_bindingsAt hr _ _ htype.1.next)).mono (fun bs s hbs => ?_) (fun _ h => h)
      exact ⟨hbs.1, .destructuring hname htype.2 hbs.2⟩
    · split
      · exact (yields_expr hr.wf _ htype.1.next.next).mono
          (fun e s he => ⟨he.1, .simple hname htype.2 (.inr he.2)⟩) (fun _ h => h)
      · exact ⟨htype.1, .simple hname htype.2 (.inl rfl)⟩
  · trivial

theorem yields_paramOrBad : Yields r paramOrBad (Param.Written (losses r)) := by
  intro m hm
  -- a parameter that was read, or one that was given up
  have hends : paramOrBad.Ensures m (fun p o => r.Leads o ∧ (p.Written (losses r) ∨ ∃ n span, p = .bad span ∧
      param m = .fail n ∧ AbandonsParam m n o span)) fun _ => True := by
    unfold paramOrBad
    simp only [ensures_bind, ensures_current, ensures_attempt]
    refine (Ensures.self.and (yields_param hr m hm)).leads.mono (fun p n hp => ?_) (fun n hn => ?_)
    · simp only [ensures_peek, ensures_ite, ensures_bind, ensures_advance, ensures_report, ensures_pure]
      split
      · exact ⟨hp.2.2.1.next, .inl hp.2.2.2⟩
      · refine (Honest.ensures (x := skipParam)).mono (fun _ o ho => ⟨?_, .inl hp.2.2.2⟩) (fun _ _ => trivial)
        exact (hp.2.2.1.trans (.report n _)).next.trans ho
    · refine (skipParamFrom_abandons (hm.placed hr) hn.1).leads.mono (fun span o ho => ?_) (fun _ _ => trivial)
      exact ⟨(hm.trans hn.1).trans ho.1, .inr ⟨n, span, rfl, hn.2.1, ho.2⟩⟩
  refine (Ensures.self.and hends).mono (fun p o h => ⟨h.2.1, ?_⟩) (fun _ _ => trivial)
  obtain ⟨he, -, hp | ⟨n, span, rfl, hfail, hspan⟩⟩ := h
  · exact hp
  · exact .bad ⟨m, n, o, hm, hfail, he, hspan⟩

theorem yields_params : Yields r params fun ps => ∀ p ∈ ps, p.Written (losses r) := by
  intro m hm
  unfold params
  simp only [ensures_bind, ensures_current, ensures_ite, ensures_pure]
  split
  · exact ⟨hm, by simp⟩
  refine Yields.loop (P := fun ps : Array Param => ∀ p ∈ ps.toList, p.Written (losses r)) hr.wf
    (fun ps k hk hps => ?_) (by simp) m hm
  unfold paramRound paramEnd
  simp only [ensures_bind, ensures_current, ensures_ite, ensures_advance, ensures_report, ensures_pure, ensures_fail]
  refine (yields_paramOrBad hr k hk).mono (fun p n hp => ?_) (fun _ h => h)
  have hpush : ∀ q ∈ (ps.push p).toList, q.Written (losses r) := forall_mem_push hps hp.2
  split
  · exact hpush
  · split
    · split
      · exact hpush
      · exact hpush
    · trivial

/-! ## Functions, imports and aliases -/

theorem yields_functionDecl : Yields r functionDecl (FunctionDecl.Written (losses r)) := by
  intro m hm
  unfold functionDecl
  simp only [ensures_bind, ensures_expect, ensures_advance, ensures_currentIdent, ensures_current, ensures_pure]
  refine (yields_dottedName hr.wf m hm).mono (fun name n hname => ?_) (fun _ h => h)
  split
  · refine (yields_params hr _ hname.1.next.next).mono (fun ps k hps => ?_) (fun _ h => h)
    split
    · split
      · rename_i hk
        have htype : k.advance.advance.current.ident.Canonical := (hps.1.next.next.wf hr.wf).ident_canonical hk
        split
        · refine (yields_block hr _ hps.1.next.next.next).mono (fun body l hbody => ?_) (fun _ h => h)
          refine (Honest.ensures (x := optionalSemicolon)).mono (fun _ s hs => ?_) (fun _ _ => trivial)
          exact ⟨hbody.1.trans hs, ⟨name, rfl, hname.2⟩, hps.2, ⟨_, rfl, htype⟩, hbody.2⟩
        · trivial
      · trivial
    · trivial
  · trivial

theorem yields_moduleImport : Yields r moduleImport fun i => ∀ n ∈ i.names, n.Canonical := by
  have hname : Yields r moduleName Ident.Canonical := by
    intro m hm
    unfold moduleName
    simp only [ensures_bind, ensures_current, ensures_ite, ensures_refuse, ensures_pure]
    split
    · trivial
    · rename_i hk
      exact ⟨hm, (hm.wf hr.wf).ident_canonical (by simpa using hk)⟩
  intro m hm
  unfold moduleImport
  simp only [ensures_bind, ensures_current, ensures_advance, ensures_pure]
  exact hname.someItems hr.wf _ hm.next

theorem yields_aliasDecl : Yields r aliasDecl Alias.Written := by
  intro m hm
  unfold aliasDecl aliasTarget
  simp only [ensures_bind, ensures_current, ensures_expect, ensures_currentIdent, ensures_advance, ensures_pure]
  split
  · rename_i hk
    have hname : m.advance.current.ident.Canonical := (hm.next.wf hr.wf).ident_canonical hk
    split
    · refine (yields_iri hr.wf _ hm.next.next.next).mono (fun i n hi => ?_) (fun _ h => h)
      cases i with
      | absolute a =>
        rw [ensures_pure]
        split
        · refine ⟨hi.1.next, ⟨_, rfl, hname⟩, ?_⟩
          rintro t ⟨⟩
          exact hi.2 a rfl
        · trivial
      | qualified q =>
        simp only [ensures_bind, ensures_report, ensures_pure]
        split
        · exact ⟨(hi.1.trans (.report n _)).next, ⟨_, rfl, hname⟩, by simp⟩
        · trivial
    · trivial
  · trivial

/-! ## Classes -/

theorem yields_member : Yields r member (Sum.elim PropertyDecl.Canonical (FunctionDecl.Written (losses r))) := by
  intro m hm
  unfold member propertyDecl
  simp only [ensures_bind, ensures_current, ensures_peek, ensures_ite, ensures_advance, ensures_expect,
    ensures_currentIdent, ensures_pure, ensures_report, ensures_fail]
  split
  · rename_i hk
    simp only [Bool.and_eq_true, decide_eq_true_eq] at hk
    split
    · rename_i htype
      split
      · refine ⟨hm.next.next.next, ⟨_, rfl, (hm.wf hr.wf).ident_canonical hk.1⟩, _, rfl, ?_⟩
        exact (hm.next.next.wf hr.wf).ident_canonical htype
      · trivial
    · trivial
  · split
    · exact yields_functionDecl hr m hm
    · trivial

/-- The members read so far are written. -/
structure ClassBody.Written (L : Losses) (b : ClassBody) : Prop where
  properties : ∀ p ∈ b.properties.toList, p.Canonical
  methods : ∀ m ∈ b.methods.toList, m.Written L
  bad : ∀ s ∈ b.bad.toList, L.member s

theorem ensures_memberRound_written {b : ClassBody} (hm : r.Leads m) (hb : b.Written (losses r)) :
    (memberRound b).Ensures m (ofRound (fun c _ => c.Written (losses r)) fun c _ => c.Written (losses r))
      fun _ => True := by
  -- one more member, or a place for one that was given up
  have hgrows : (memberRound b).Ensures m (ofRound (fun c o => c.Written (losses r) ∨ ∃ n span,
      c = { b with bad := b.bad.push span, last := span } ∧ member m = .fail n ∧ Abandons .member m n o span)
      fun c _ => c = b) fun _ => True := by
    unfold memberRound
    simp only [ensures_bind, ensures_current, ensures_ite, ensures_attempt]
    split
    · rfl
    · rename_i hk
      have hne : m.current.kind ≠ .eof := fun e => hk (by simp [e])
      refine (Ensures.self.and (yields_member hr m hm)).leads.mono (fun x n hx => ?_) (fun n hn => ?_)
      · cases x with
        | inl p => exact .inl ⟨forall_mem_push hb.properties hx.2.2.2, hb.methods, hb.bad⟩
        | inr f => exact .inl ⟨hb.properties, forall_mem_push hb.methods hx.2.2.2, hb.bad⟩
      · refine (recover_abandons (hm.placed hr) hne hn.1).mono (fun span o ho => ?_) (fun _ h => h)
        exact .inr ⟨n, span, rfl, hn.2.1, ho⟩
  refine (Ensures.self.and hgrows).mono ?_ (fun _ _ => trivial)
  rintro (c | c) o ⟨he, h⟩
  · rcases h with hc | ⟨n, span, rfl, hfail, hspan⟩
    · exact hc
    · exact ⟨hb.properties, hb.methods, forall_mem_push hb.bad ⟨b, m, n, o, hm, hfail, he, hspan⟩⟩
  · cases h
    exact hb

theorem yields_classDef : Yields r classDef fun x => x.1.Written (losses r) := by
  intro m hm
  unfold classDef
  simp only [ensures_bind, ensures_current, ensures_expect, ensures_currentIdent, ensures_advance]
  split
  · rename_i hk
    have hname : m.advance.current.ident.Canonical := (hm.next.wf hr.wf).ident_canonical hk
    split
    · refine (Yields.loop (P := ClassBody.Written (losses r)) hr.wf
        (fun b n hn hb => ensures_memberRound_written hr hn hb) ⟨by simp, by simp, by simp⟩ _ hm.next.next.next).mono
          (fun b s hs => ?_) (fun _ h => h)
      have hclass : ∀ span, (b.toClass m.advance.current.ident span).Written (losses r) := fun span =>
        ⟨⟨_, rfl, hname⟩, hs.2.properties, hs.2.methods, hs.2.bad⟩
      split
      · exact ⟨hs.1.trans (.report s _), hclass _⟩
      · exact ⟨hs.1, hclass _⟩
    · trivial
  · trivial

/-! ## Programs -/

/-- The declarations read so far are written, those that were given up apart. -/
structure Progress.Written (L : Losses) (p : Progress) : Prop where
  imports : ∀ i ∈ p.imports.toList, ∀ n ∈ i.names, n.Canonical
  aliases : ∀ a ∈ p.aliases.toList, a.Written
  classes : ∀ c ∈ p.classes.toList, c.Written L
  functions : ∀ f ∈ p.functions.toList, f.Written L

omit hr in
/-- From `p` to `q` one more declaration is read, or the one that begins at `m` is given up. -/
def GoesOn (m : Reader) (p q : Progress) (o : Reader) : Prop :=
  q.bad = p.bad ∨ ∃ n span, q.bad = p.bad.push span ∧ Abandons .declaration m n o span

theorem ensures_bad_written {p before : Progress} (hm : r.Leads m) (hk : m.current.kind ≠ .eof)
    (hn : m.Leads n) (hbefore : before.Written (losses r)) (hbad : before.bad = p.bad) :
    (recover .declaration m.current).Ensures n (fun span o =>
      ({ before with bad := before.bad.push span } : Progress).Written (losses r) ∧
        GoesOn m p { before with bad := before.bad.push span } o) fun _ => True := by
  refine (recover_abandons (hm.placed hr) hk hn).mono (fun span o ho => ⟨?_, .inr ⟨n, span, ?_, ho⟩⟩) (fun _ h => h)
  · exact ⟨hbefore.imports, hbefore.aliases, hbefore.classes, hbefore.functions⟩
  · show before.bad.push span = _
    rw [hbad]

theorem ensures_keepOrRecover_written {p before : Progress} {decl : Rule α} [Honest decl] {keep : α → Progress}
    {P : α → Prop} (hm : r.Leads m) (hk : m.current.kind ≠ .eof) (hn : m.Leads n)
    (hbefore : before.Written (losses r)) (hbad : before.bad = p.bad) (hdecl : Yields r decl P)
    (hkeep : ∀ a, P a → (keep a).Written (losses r) ∧ (keep a).bad = p.bad) :
    (keepOrRecover m.current before decl keep).Ensures n
      (ofRound (fun q o => q.Written (losses r) ∧ GoesOn m p q o) fun q _ => q = p) fun _ => True := by
  unfold keepOrRecover
  simp only [ensures_bind, ensures_attempt]
  refine (hdecl n (hm.trans hn)).leads.mono (fun a s ha => ?_) (fun o ho => ?_)
  · exact ⟨(hkeep a ha.2.2).1, .inl (hkeep a ha.2.2).2⟩
  · exact ensures_bad_written hr hm hk (hn.trans ho.1) hbefore hbad

theorem ensures_declRound_written {p : Progress} (hm : r.Leads m) (hp : p.Written (losses r)) :
    (declRound p).Ensures m (ofRound (fun q o => q.Written (losses r) ∧ GoesOn m p q o) fun q _ => q = p)
      fun _ => True := by
  have hpart : ∀ part, ({ p with part := part } : Progress).Written (losses r) := fun _ =>
    ⟨hp.imports, hp.aliases, hp.classes, hp.functions⟩
  unfold declRound
  rw [ensures_bind, ensures_current]
  split
  · rfl
  · rename_i hk
    have hne : m.current.kind ≠ .eof := by simp [hk]
    have hkeep : ∀ i : ModuleImport, (∀ n ∈ i.names, n.Canonical) →
        ({ p with imports := p.imports.push i } : Progress).Written (losses r) ∧ p.bad = p.bad := fun i hi =>
      ⟨⟨forall_mem_push hp.imports hi, hp.aliases, hp.classes, hp.functions⟩, rfl⟩
    unfold importRound
    split
    · exact ensures_bind.2 (ensures_keepOrRecover_written hr hm hne (.report m _) hp rfl (yields_moduleImport hr) hkeep)
    · exact ensures_keepOrRecover_written hr hm hne (.refl m) hp rfl (yields_moduleImport hr) hkeep
  · rename_i hk
    have hne : m.current.kind ≠ .eof := by simp [hk]
    have hkeep : ∀ (part : Section) (a : Alias), a.Written →
        ({ p with part := part, aliases := p.aliases.push a } : Progress).Written (losses r) ∧ p.bad = p.bad :=
      fun part a ha => ⟨⟨hp.imports, forall_mem_push hp.aliases ha, hp.classes, hp.functions⟩, rfl⟩
    unfold aliasRound
    split
    · exact ensures_bind.2 (ensures_keepOrRecover_written hr hm hne (.report m _) hp rfl (yields_aliasDecl hr)
        (hkeep p.part))
    · exact ensures_keepOrRecover_written hr hm hne (.refl m) (hpart .aliases) rfl (yields_aliasDecl hr)
        (hkeep .aliases)
  · rename_i hk
    have hne : m.current.kind ≠ .eof := by simp [hk]
    unfold classRound
    simp only [ensures_bind, ensures_attempt]
    refine (yields_classDef hr m hm).leads.mono ?_ (fun o ho => ?_)
    · rintro ⟨c, closed⟩ s ⟨-, -, hc⟩
      have hkeep : ({ p with part := .decls, classes := p.classes.push c } : Progress).Written (losses r) :=
        ⟨hp.imports, hp.aliases, forall_mem_push hp.classes hc, hp.functions⟩
      cases closed with
      | false => exact ⟨hkeep, .inl rfl⟩
      | true => exact ⟨hkeep, .inl rfl⟩
    · exact ensures_bad_written hr hm hne ho.1 (hpart .decls) rfl
  · rename_i hk
    refine ensures_keepOrRecover_written hr hm (by simp [hk]) (.refl m) (hpart .decls) rfl (yields_functionDecl hr) ?_
    exact fun f hf => ⟨⟨hp.imports, hp.aliases, hp.classes, forall_mem_push hp.functions hf⟩, rfl⟩
  · rename_i hne _ _ _ _
    rw [ensures_bind, ensures_report]
    exact ensures_bad_written hr hm hne (.report m _) hp rfl

theorem yields_program : Yields r program (Program.Written (losses r)) := by
  intro m hm
  unfold program
  simp only [ensures_bind, ensures_current, ensures_pure]
  refine (Yields.loop (P := fun p : Progress => p.Written (losses r) ∧ ∀ s ∈ p.bad.toList, (losses r).decl s) hr.wf
    (fun p k hk hp => ?_) ⟨⟨by simp, by simp, by simp, by simp⟩, by simp⟩ m hm).mono (fun p s hs => ?_) (fun _ h => h)
  · refine (Ensures.self.and (ensures_declRound_written hr hk hp.1)).mono ?_ (fun _ _ => trivial)
    rintro (q | q) o ⟨he, h⟩
    · refine ⟨h.1, ?_⟩
      rcases h.2 with hbad | ⟨n, span, hbad, hspan⟩
      · rw [hbad]
        exact hp.2
      · rw [hbad]
        exact forall_mem_push hp.2 ⟨p, q, k, n, o, hk, he, hbad, hspan⟩
    · cases h
      exact hp
  · exact ⟨hs.1, hs.2.1.imports, hs.2.1.aliases, hs.2.1.classes, hs.2.1.functions, hs.2.2⟩

end Rule

/-- The program read from any source is written, and its placeholders stand where reading gave up. -/
theorem readProgram_written (file source : String) (limit : Nat) :
    (readProgram file source limit).value.Written (Rule.losses (.ofSource file source limit)) := by
  have hr := Reader.ofSource_placed file source limit
  obtain ⟨p, s, he, -⟩ := (Rule.program_ends hr.wf).exists_ok
  have hvalue : (readProgram file source limit).value = p := by
    unfold readProgram
    rw [Rule.readSource_of_ok he]
  rw [hvalue]
  exact ((Rule.yields_program hr _ (.refl _)).ok he).2

end SemFront
