/-
Programs are placed. Parameters, members and declarations come one behind the other, read or given up;
a class and a program keep them in several lists, each of which ascends, and none overlaps another. So
the outline of whatever is read from a source is well placed in the text of the source.
-/
import SemFront.Proofs.Placement.Stmt

namespace SemFront

namespace Rule

variable {cs : List Char} {r m s : Reader}

/-! ## Bindings -/

section Bindings

variable {bindings : Rule (List Binding)} (hbindings : ∀ m, m.Placed cs → bindings.Ensures m
  (fun bs s => m.Leads s ∧ Laid cs m.start (bs.map Binding.outline) s.stop) fun _ => True)
include hbindings

theorem places_binding : (binding bindings).Places cs Binding.span fun b => [b.outline] := by
  intro r hr
  unfold binding
  simp only [ensures_bind, ensures_current, ensures_ite, ensures_refuse, ensures_expect, ensures_currentIdent,
    ensures_peek, ensures_advance, ensures_pure]
  split
  · trivial
  split
  · split
    · have hprop : r.Leads r.advance.advance := .of_advance (.advance _)
      have hpp := hprop.placed hr
      have hhead := hr.ident.append hpp.ident (hr.stop_le_next (.advance _))
      split
      · refine (places_expr _ hpp.advance.advance).mono (fun e s he => ?_) (fun _ h => h)
        have hrs : r.Leads s := hprop.trans he.leads.of_advance.of_advance
        refine .node hr hrs (hr.through_current hrs) (hhead.append he.laid ?_) rfl
        exact hpp.stop_le_next (.advance _)
      · split
        · refine (hbindings _ hpp.advance).mono (fun bs s hs => ?_) (fun _ h => h)
          have hrs : r.Leads s := hprop.trans hs.1.of_advance
          refine .node hr hrs (hr.through_current hrs) ?_ rfl
          rw [Binding.outlines_eq]
          refine (hhead.append (.nil (Int.le_refl _)) (Int.le_refl _)).append hs.2 ?_
          exact hpp.stop_le_next (.refl _)
        · refine .node hr hprop (hr.through_current hprop) ?_ rfl
          exact hhead.append (.nil (Int.le_refl _)) (Int.le_refl _)
    · trivial
  · trivial

end Bindings

theorem ensures_bindingsAt : ∀ depth m, m.Placed cs → (bindingsAt depth).Ensures m
    (fun bs s => m.Leads s ∧ Laid cs m.start (bs.map Binding.outline) s.stop) fun _ => True
  | 0, _, _ => trivial
  | depth + 1, m, hm => by
    unfold bindingsAt
    simp only [ensures_bind, ensures_advance]
    refine ((places_binding (ensures_bindingsAt depth)).someItems hm.advance).mono (fun bs s hs => ?_) (fun _ h => h)
    have hms : m.Leads s := hs.1.of_advance
    rw [← List.map_eq_flatMap] at hs
    exact ⟨hms, hs.2.mono (hm.start_mono (.advance m)) (hms.placed hm).start_le⟩

theorem ensures_bindings (hr : r.Placed cs) : bindings.Ensures r
    (fun bs s => r.Leads s ∧ Laid cs r.start (bs.map Binding.outline) s.stop) fun _ => True :=
  .of_budget (ensures_bindingsAt _ r hr)

/-! ## Parameters -/

theorem places_param : param.Places cs Param.span fun p => [p.outline] := by
  intro r hr
  unfold param
  simp only [ensures_bind, ensures_current, ensures_ite, ensures_refuse, ensures_expect, ensures_advance]
  split
  · trivial
  split
  · refine (places_dottedName _ hr.advance.advance).mono (fun type m htype => ?_) (fun _ h => h)
    have hrm : r.Leads m := htype.leads.of_advance.of_advance
    have hmp := hrm.placed hr
    have hhead := hr.ident.append htype.laid (hr.stop_le_next (.advance _))
    simp only [ensures_peek, ensures_pure]
    split
    · refine (ensures_bindings hmp.advance).mono (fun bs s hs => ?_) (fun _ h => h)
      have hrs : r.Leads s := hrm.trans hs.1.of_advance
      refine .node hr hrs (hr.through_current hrs) ?_ rfl
      rw [Binding.outlines_eq]
      exact hhead.append hs.2 (hmp.stop_le_next (.refl _))
    · split
      · refine (places_expr _ hmp.advance.advance).mono (fun e s he => ?_) (fun _ h => h)
        have hrs : r.Leads s := hrm.trans he.leads.of_advance.of_advance
        refine .node hr hrs (hr.through (.refl r) hrs he.stop) (hhead.append he.laid ?_) rfl
        exact hmp.stop_le_next (.advance _)
      · refine .node hr hrm (hr.through (.refl r) hrm htype.stop) ?_ rfl
        exact hhead.append (.nil (Int.le_refl _)) (Int.le_refl _)
  · trivial

/-- What is skipped of a parameter stops not behind the token that reading resumes at. -/
theorem ensures_skipParam (hr : r.Placed cs) :
    skipParam.Ensures r (fun t s => r.Leads s ∧ t.span.stop ≤ s.stop) fun _ => True := by
  refine .of_ok rfl ?_
  have hlead := Reader.Leads.advanceBy (paramLength 0 r.rest) r
  have hrest := Reader.advanceBy_rest (paramLength 0 r.rest) r
  generalize paramLength 0 r.rest = n at hlead hrest ⊢
  refine ⟨hlead, ?_⟩
  cases hskip : r.rest.take n with
  | nil => exact hr.stop_mono hlead
  | cons t ts =>
    have hmem : (t :: ts).getLastD r.current ∈ r.rest.take n := by
      rw [hskip, List.getLastD_cons]
      exact List.getLastD_mem_cons
    have hsplit : r.rest = r.rest.take n ++ (Reader.advanceBy n r).rest := by rw [hrest, List.take_append_drop]
    exact Int.le_trans (hr.stop_le_of_mem hlead hsplit hmem) (hlead.placed hr).start_le

/-- A parameter that was given up, and the token that ends it if nothing else was left of it. -/
theorem ensures_skipParamFrom (hr : r.Placed cs) (hm : r.Leads m) : (skipParamFrom r.current).Ensures m
    (fun span s => r.Leads s ∧ Laid cs r.start [(Param.bad span).outline] s.stop) fun _ => True := by
  have hskip : ∀ {n : Reader}, r.Leads n → skipParam.Ensures n (fun last s => r.Leads s ∧
      Laid cs r.start [(Param.bad (r.current.span.through last.span)).outline] s.stop) fun _ => True := by
    intro n hn
    refine (ensures_skipParam (hn.placed hr)).mono (fun last s hs => ?_) (fun _ h => h)
    have hrs := hn.trans hs.1
    have hstop : max r.stop last.span.stop ≤ s.stop := Int.max_le.2 ⟨hr.stop_mono hrs, hs.2⟩
    refine ⟨hrs, .single (.mk (hr.liesIn.stopAt ?_ ?_) nofun .nil nofun) (Int.le_refl _) hstop⟩
    · exact Int.le_trans hr.start_le (Int.le_max_left _ _)
    · exact Int.le_trans hstop (hrs.placed hr).liesIn.stop_le
  unfold skipParamFrom
  simp only [ensures_bind, ensures_current, ensures_ite, ensures_advance, ensures_pure]
  split
  · exact hskip (hm.trans (.advance m))
  · exact hskip hm

theorem ensures_paramOrBad (hr : r.Placed cs) : paramOrBad.Ensures r
    (fun p s => r.Leads s ∧ Laid cs r.start [p.outline] s.stop) fun _ => True := by
  unfold paramOrBad
  simp only [ensures_bind, ensures_current, ensures_attempt]
  refine (places_param r hr).leads.mono (fun p m hp => ?_) (fun m hm => ensures_skipParamFrom hr hm.1)
  have hmp := hp.1.placed hr
  have hkeep : ∀ {s : Reader}, m.Leads s → r.Leads s ∧ Laid cs r.start [p.outline] s.stop := fun hs =>
    ⟨hp.1.trans hs, hp.2.laid.mono (Int.le_refl _) (hmp.stop_mono hs)⟩
  simp only [ensures_peek, ensures_ite, ensures_bind, ensures_advance, ensures_report, ensures_pure]
  split
  · exact hkeep (.advance m)
  · have hlead := (Reader.Leads.report m (.expected (.commaOr .rparen) m.advance.current)).trans (.advance _)
    refine (ensures_skipParam (hlead.placed hmp)).mono (fun _ s hs => ?_) (fun _ h => h)
    exact hkeep (hlead.trans hs.1)

theorem ensures_params (hr : r.Placed cs) : params.Ensures r
    (fun ps s => r.Leads s ∧ Laid cs r.start (ps.map Param.outline) s.stop) fun _ => True := by
  unfold params
  simp only [ensures_bind, ensures_current, ensures_ite, ensures_pure]
  split
  · exact ⟨.refl r, .nil hr.start_le⟩
  refine Ensures.loop_placed (P := fun ps m => Laid cs r.start (ps.toList.map Param.outline) m.start)
    (fun ps m hm hps => ?_) hr (.nil (Int.le_refl _))
  unfold paramRound paramEnd
  simp only [ensures_bind, ensures_current, ensures_ite, ensures_advance, ensures_report, ensures_pure, ensures_fail]
  refine (ensures_paramOrBad hm).mono (fun p n hp => ?_) (fun _ h => h)
  have hnp := hp.1.placed hm
  have hpush : Laid cs r.start ((ps.push p).toList.map Param.outline) n.stop := hps.push hp.2 (Int.le_refl _)
  split
  · exact hpush
  · split
    · split
      · exact hpush.mono (Int.le_refl _) (hnp.stop_mono (.of_advance (.report _ _)))
      · exact hpush.mono (Int.le_refl _) (hnp.stop_le_next (.refl _))
    · trivial

/-! ## Functions, imports and aliases -/

theorem places_functionDecl : functionDecl.Places cs FunctionDecl.span fun f => [f.outline] := by
  intro r hr
  unfold functionDecl
  simp only [ensures_bind, ensures_expect, ensures_advance, ensures_currentIdent, ensures_current, ensures_pure]
  refine (places_dottedName r hr).mono (fun name m hname => ?_) (fun _ h => h)
  have hmp := hname.leads.placed hr
  split
  · refine (ensures_params hmp.advance.advance).mono (fun ps n hps => ?_) (fun _ h => h)
    have hmn : m.Leads n := hps.1.of_advance.of_advance
    have hnp := hmn.placed hmp
    split
    · split
      · split
        · refine (places_block _ hnp.advance.advance.advance).mono (fun body k hbody => ?_) (fun _ h => h)
          have hnk : n.Leads k := hbody.leads.of_advance.of_advance.of_advance
          refine (Honest.ensures (x := optionalSemicolon)).mono (fun _ s hs => ?_) (fun _ _ => trivial)
          have hms : m.Leads s := hmn.trans (hnk.trans hs)
          refine .node hr (hname.leads.trans hms) ?_ ?_ rfl
          · rw [hname.span]
            exact hr.through hname.leads hms rfl
          · have hparams := hname.laid.append hps.2 (hmp.stop_le_next (.advance _))
            have htype := hparams.append hnp.advance.advance.ident (hnp.stop_le_next (.advance _))
            have hall := htype.append hbody.laid (hnp.advance.advance.stop_le_next (.refl _))
            exact hall.mono (Int.le_refl _) ((hnk.placed hnp).stop_mono hs)
        · trivial
      · trivial
    · trivial
  · trivial

theorem places_moduleName : moduleName.Places cs Ident.span fun i => [i.outline] := by
  intro r hr
  unfold moduleName
  simp only [ensures_bind, ensures_current, ensures_ite, ensures_refuse, ensures_pure]
  split
  · trivial
  · exact ⟨.refl r, rfl, hr.ident⟩

theorem places_moduleImport : moduleImport.Places cs ModuleImport.span fun i => [i.outline] := by
  intro r hr
  unfold moduleImport
  simp only [ensures_bind, ensures_current, ensures_advance, ensures_pure]
  refine (places_moduleName.someItems hr.advance).mono (fun names s hs => ?_) (fun _ h => h)
  have hrs : r.Leads s := hs.1.of_advance
  rw [← List.map_eq_flatMap] at hs
  refine .node hr hrs (hr.through_current hrs) ?_ rfl
  exact hs.2.mono (hr.start_mono (.advance r)) (hrs.placed hr).start_le

theorem ensures_aliasTarget (hr : r.Placed cs) : aliasTarget.Ensures r
    (fun target s => r.Leads s ∧ Laid cs r.start (target.toList.map fun t => (Iri.absolute t).outline) s.stop)
    fun _ => True := by
  unfold aliasTarget
  rw [ensures_bind]
  refine (places_iri r hr).mono (fun i s hs => ?_) (fun _ h => h)
  cases i with
  | absolute a => exact ⟨hs.leads, hs.laid⟩
  | qualified q =>
    have hrs := hs.leads.trans (.report s (.aliasTarget q.span))
    exact ⟨hrs, .nil (Int.le_trans hr.start_le (hr.stop_mono hrs))⟩

theorem places_aliasDecl : aliasDecl.Places cs Alias.span fun a => [a.outline] := by
  intro r hr
  unfold aliasDecl
  simp only [ensures_bind, ensures_current, ensures_expect, ensures_currentIdent, ensures_advance, ensures_pure]
  split
  · split
    · have hlead : r.Leads r.advance.advance.advance :=
        .of_advance (.of_advance (.advance _))
      refine (ensures_aliasTarget hr.advance.advance.advance).mono (fun target n htarget => ?_) (fun _ h => h)
      have hnp := (hlead.trans htarget.1).placed hr
      split
      · have hrs : r.Leads n.advance := hlead.trans (htarget.1.trans (.advance n))
        refine .node hr hrs (hr.through_current hrs) ?_ rfl
        have hall := hr.advance.ident.append htarget.2 (hr.advance.stop_le_next (.advance _))
        exact hall.mono (hr.start_mono (.advance r)) (hnp.stop_mono (.advance n))
      · trivial
    · trivial
  · trivial

/-! ## Classes -/

theorem places_propertyDecl : propertyDecl.Places cs PropertyDecl.span fun p => [p.outline] := by
  intro r hr
  unfold propertyDecl
  simp only [ensures_bind, ensures_current, ensures_advance, ensures_expect, ensures_currentIdent, ensures_pure]
  split
  · split
    · have hlead : r.Leads r.advance.advance := .of_advance (.advance _)
      have hrs := hlead.trans (.advance _)
      refine .node hr hrs (hr.through_current hrs) ?_ rfl
      have hall := hr.ident.append hr.advance.advance.ident (hr.stop_le_next (.advance _))
      exact hall.mono (Int.le_refl _) (hr.advance.advance.stop_mono (.advance _))
    · trivial
  · trivial

/-- The outline of a member. -/
def memberOutline : PropertyDecl ⊕ FunctionDecl → Outline := Sum.elim PropertyDecl.outline FunctionDecl.outline

theorem places_member :
    member.Places cs (Sum.elim PropertyDecl.span FunctionDecl.span) fun x => [memberOutline x] := by
  intro r hr
  unfold member
  simp only [ensures_bind, ensures_current, ensures_peek, ensures_ite, ensures_pure, ensures_report, ensures_fail]
  split
  · exact places_propertyDecl r hr
  · split
    · exact places_functionDecl r hr
    · trivial

/-- The outlines of the members read so far. -/
def ClassBody.outlines (b : ClassBody) : List Outline :=
  b.properties.toList.map PropertyDecl.outline ++ b.methods.toList.map FunctionDecl.outline ++
    b.bad.toList.map fun s => Outline.leaf (.badDecl s)

section ClassBody

variable {b : ClassBody} {lo hi hi' : Int}

theorem laid_pushMember (last : Span) (h : Laid cs lo b.outlines hi) {x : PropertyDecl ⊕ FunctionDecl}
    (hx : Laid cs hi [memberOutline x] hi') : Laid cs lo (match x with
      | .inl p => { b with properties := b.properties.push p, last := last }
      | .inr f => { b with methods := b.methods.push f, last := last } : ClassBody).outlines hi' := by
  cases x with
  | inl p =>
    unfold ClassBody.outlines at h ⊢
    rw [List.append_assoc] at h ⊢
    refine h.pushAmid [] hx fun o ho => ?_
    simp only [List.mem_append, List.mem_map] at ho
    rcases ho with ⟨f, -, rfl⟩ | ⟨s, -, rfl⟩ <;> exact nofun
  | inr f =>
    unfold ClassBody.outlines at h ⊢
    rw [List.append_assoc] at h ⊢
    refine h.pushAmid _ hx fun o ho => ?_
    obtain ⟨s, -, rfl⟩ := List.mem_map.1 ho
    exact nofun

theorem laid_pushBad (last : Span) (h : Laid cs lo b.outlines hi) {span : Span} (hx : Laid cs hi [.leaf (.badDecl span)] hi') :
    Laid cs lo ({ b with bad := b.bad.push span, last := last } : ClassBody).outlines hi' := by
  unfold ClassBody.outlines at h ⊢
  rw [Array.toList_push, List.map_append, List.map_singleton, ← List.append_assoc]
  exact h.append hx (Int.le_refl _)

end ClassBody

/-- One more member, read or given up, comes behind those before it, and the body stops where it stops. -/
theorem ensures_memberRound {b : ClassBody} {lo : Int} (hr : r.Placed cs) (hb : Laid cs lo b.outlines b.last.stop)
    (hlast : b.last.stop ≤ r.start) : (memberRound b).Ensures r
      (ofRound (fun c s => Laid cs lo c.outlines c.last.stop ∧ c.last.stop ≤ s.start)
        fun c s => Laid cs lo c.outlines c.last.stop ∧ c.last.stop ≤ s.start) fun _ => True := by
  unfold memberRound
  simp only [ensures_bind, ensures_current, ensures_ite, ensures_attempt]
  split
  · exact ⟨hb, hlast⟩
  · rename_i hk
    have hne : r.current.kind ≠ .eof := fun e => hk (by simp [e])
    refine (places_member r hr).leads.mono (fun x m hx => ?_) (fun m hm => ?_)
    · have hnext : m.stop ≤ m.advance.start := (hx.1.placed hr).stop_le_next (.refl _)
      have hpush := laid_pushMember m.current.span hb (hx.2.laid.mono hlast (Int.le_refl _))
      cases x with
      | inl p => exact ⟨hpush, hnext⟩
      | inr f => exact ⟨hpush, hnext⟩
    · refine (ensures_recover_laid hr hne hm.1).mono (fun span s hs => ?_) (fun _ h => h)
      have hbad := hs (.badDecl span) rfl
      obtain ⟨h1, h2⟩ := hbad.inside _ (List.mem_singleton_self _)
      refine ⟨laid_pushBad span hb (.single (hbad.placed _ (List.mem_singleton_self _)) ?_ (Int.le_refl _)), h2⟩
      exact Int.le_trans hlast h1

/-- A class with the given name, body and span. -/
def ClassBody.toClass (b : ClassBody) (name : Ident) (span : Span) : ClassDef :=
  { name := some name, properties := b.properties.toList, methods := b.methods.toList, bad := b.bad.toList, span }

/-- A class from its keyword on, around its name and its body, that stops not before its last member. -/
theorem laid_class {b : ClassBody} {t : Span} (hr : r.Placed cs)
    (hb : Laid cs r.advance.advance.stop b.outlines b.last.stop) (ht : b.last.stop ≤ t.stop) (hend : t.stop ≤ cs.length) :
    Laid cs r.start [(b.toClass r.advance.current.ident (r.current.span.through t)).outline] t.stop := by
  have hopen : r.Leads r.advance.advance := .of_advance (.advance _)
  have h1 : r.stop ≤ r.advance.advance.stop := hr.stop_mono hopen
  have h2 := hb.le
  have h3 : r.start ≤ r.stop := hr.start_le
  have hspan : r.current.span.through t = { r.current.span with stop := t.stop } := by
    show { r.current.span with stop := max r.stop t.stop } = _
    rw [Int.max_eq_right (by omega)]
  have hname : r.advance.stop ≤ r.advance.advance.stop := hr.advance.stop_mono (.advance _)
  have hall := (hr.advance.ident.append hb hname).mono (hr.start_mono (.advance r)) ht
  rw [hspan]
  refine .single (Laid.wellPlaced (hr.liesIn.stopAt (by show r.start ≤ _; omega) hend) ?_) (Int.le_refl _) (Int.le_refl _)
  unfold ClassBody.outlines at hall
  rw [← List.append_assoc, ← List.append_assoc] at hall
  exact hall

/-- A class goes up to its closing brace; one that was not closed stops with its last member, in front of the token
that ended it. -/
theorem ensures_classDef (hr : r.Placed cs) : classDef.Ensures r (fun x s =>
    if x.2 then Extent cs r s x.1.span [x.1.outline] else Laid cs r.start [x.1.outline] s.start) fun _ => True := by
  have hopen : r.Leads r.advance.advance := .of_advance (.advance _)
  have hop := hopen.placed hr
  unfold classDef
  simp only [ensures_bind, ensures_current, ensures_expect, ensures_currentIdent, ensures_advance]
  split
  · split
    · refine (Ensures.loop_placed (P := fun b m => Laid cs r.advance.advance.stop b.outlines b.last.stop ∧
        b.last.stop ≤ m.start) (fun b m hm hb => ensures_memberRound hm hb.1 hb.2) hop.advance
          ⟨.nil (Int.le_refl _), hop.stop_le_next (.refl _)⟩).mono (fun b s hs => ?_) (fun _ h => h)
      obtain ⟨hs, hb, hlast⟩ := hs
      have hs : r.Leads s := hopen.trans hs.of_advance
      have hsp := hs.placed hr
      have hend := hsp.liesIn.stop_le
      have hle : s.start ≤ s.stop := hsp.start_le
      by_cases hclosed : s.current.kind = .punct .rbrace
      · simp only [hclosed, decide_true, Bool.not_true, Bool.false_eq_true, if_false, if_true, ensures_pure]
        exact ⟨hs, hr.through_current hs, laid_class hr hb (Int.le_trans hlast hle) hend⟩
      · simp only [hclosed, decide_false, Bool.not_false, Bool.false_eq_true, if_false, if_true, ensures_bind,
          ensures_report, ensures_pure]
        have hlaid := laid_class hr hb (Int.le_refl _) (Int.le_trans hlast (Int.le_trans hle hend))
        exact hlaid.mono (Int.le_refl _) hlast
    · trivial
  · trivial

/-! ## Programs -/

/-- The outlines of the declarations read so far. -/
def Progress.outlines (p : Progress) : List Outline :=
  p.imports.toList.map ModuleImport.outline ++ p.aliases.toList.map Alias.outline ++
    p.classes.toList.map ClassDef.outline ++ p.functions.toList.map FunctionDecl.outline ++
    p.bad.toList.map fun s => Outline.leaf (.badDecl s)

section Progress

variable {p : Progress} {lo hi hi' : Int}

theorem laid_pushBadDecl (h : Laid cs lo p.outlines hi) {span : Span} (hx : Laid cs hi [.leaf (.badDecl span)] hi') :
    Laid cs lo ({ p with bad := p.bad.push span } : Progress).outlines hi' := by
  unfold Progress.outlines at h ⊢
  rw [Array.toList_push, List.map_append, List.map_singleton, ← List.append_assoc]
  exact h.append hx (Int.le_refl _)

theorem laid_pushFunction (h : Laid cs lo p.outlines hi) {f : FunctionDecl} (hx : Laid cs hi [f.outline] hi') :
    Laid cs lo ({ p with functions := p.functions.push f } : Progress).outlines hi' := by
  unfold Progress.outlines at h ⊢
  rw [List.append_assoc] at h ⊢
  refine h.pushAmid _ hx fun o ho => ?_
  obtain ⟨s, -, rfl⟩ := List.mem_map.1 ho
  exact nofun

theorem laid_pushClass (h : Laid cs lo p.outlines hi) {c : ClassDef} (hx : Laid cs hi [c.outline] hi') :
    Laid cs lo ({ p with classes := p.classes.push c } : Progress).outlines hi' := by
  unfold Progress.outlines at h ⊢
  rw [List.append_assoc, List.append_assoc] at h ⊢
  refine h.pushAmid _ hx fun o ho => ?_
  simp only [List.mem_append, List.mem_map] at ho
  rcases ho with ⟨f, -, rfl⟩ | ⟨s, -, rfl⟩ <;> exact nofun

theorem laid_pushAlias (h : Laid cs lo p.outlines hi) {a : Alias} (hx : Laid cs hi [a.outline] hi') :
    Laid cs lo ({ p with aliases := p.aliases.push a } : Progress).outlines hi' := by
  unfold Progress.outlines at h ⊢
  rw [List.append_assoc, List.append_assoc, List.append_assoc] at h ⊢
  refine h.pushAmid _ hx fun o ho => ?_
  simp only [List.mem_append, List.mem_map] at ho
  rcases ho with ⟨c, -, rfl⟩ | ⟨f, -, rfl⟩ | ⟨s, -, rfl⟩ <;> exact nofun

theorem laid_pushImport (h : Laid cs lo p.outlines hi) {i : ModuleImport} (hx : Laid cs hi [i.outline] hi') :
    Laid cs lo ({ p with imports := p.imports.push i } : Progress).outlines hi' := by
  unfold Progress.outlines at h ⊢
  rw [List.append_assoc, List.append_assoc, List.append_assoc] at h ⊢
  refine h.pushAmid [] hx fun o ho => ?_
  simp only [List.mem_append, List.mem_map] at ho
  rcases ho with ⟨a, -, rfl⟩ | ⟨c, -, rfl⟩ | ⟨f, -, rfl⟩ | ⟨s, -, rfl⟩ <;> exact nofun

/-- What a round of a program keeps: the declarations so far lie between the start and the current token. -/
def Keeps (cs : List Char) (lo : Int) (x : Rule (Round Progress)) (m : Reader) : Prop :=
  x.Ensures m (ofRound (fun q s => Laid cs lo q.outlines s.start) fun q s => Laid cs lo q.outlines s.start) fun _ => True

theorem keeps_bad (hr : r.Placed cs) (hk : r.current.kind ≠ .eof) (hm : r.Leads m) (hp : Laid cs lo p.outlines r.start) :
    Keeps cs lo (do
      let span ← recover .declaration r.current
      return .again { p with bad := p.bad.push span }) m := by
  unfold Keeps
  simp only [ensures_bind, ensures_pure]
  refine (ensures_recover_laid hr hk hm).mono (fun span s hs => ?_) (fun _ h => h)
  exact laid_pushBadDecl hp (hs (.badDecl span) rfl)

/-- A declaration that was read is kept, and another one is given up. -/
theorem keeps_keepOrRecover {decl : Rule α} [Honest decl] {span : α → Span} {outline : α → Outline}
    {keep : α → Progress} (hdecl : decl.Places cs span fun d => [outline d]) (hr : r.Placed cs)
    (hk : r.current.kind ≠ .eof) (hm : r.Leads m) (hp : Laid cs lo p.outlines r.start)
    (hkeep : ∀ d {hi}, Laid cs r.start [outline d] hi → Laid cs lo (keep d).outlines hi) :
    Keeps cs lo (keepOrRecover r.current p decl keep) m := by
  have hmp := hm.placed hr
  unfold Keeps keepOrRecover
  rw [ensures_bind, ensures_attempt]
  refine (hdecl m hmp).leads.mono (fun d n hd => ?_) (fun n hn => keeps_bad hr hk (hm.trans hn.1) hp)
  refine hkeep d (hd.2.laid.mono (hr.start_mono hm) ?_)
  exact (hd.1.placed hmp).stop_le_next (.refl _)

theorem keeps_classRound (hr : r.Placed cs) (hk : r.current.kind ≠ .eof) (hp : Laid cs lo p.outlines r.start) :
    Keeps cs lo (classRound r.current p) r := by
  unfold Keeps classRound
  rw [ensures_bind, ensures_attempt]
  refine (ensures_classDef hr).leads.mono ?_ (fun n hn => keeps_bad (p := { p with part := .decls }) hr hk hn.1 hp)
  rintro ⟨c, closed⟩ n ⟨hn, hc⟩
  cases closed with
  | true =>
    have hc : Extent cs r n c.span [c.outline] := hc
    refine laid_pushClass hp (hc.laid.mono (Int.le_refl _) ?_)
    exact (hn.placed hr).stop_le_next (.refl _)
  | false =>
    -- an unclosed class stops in front of the current token, which is left to the next declaration
    exact laid_pushClass hp hc

theorem keeps_declRound (hr : r.Placed cs) (hp : Laid cs lo p.outlines r.start) : Keeps cs lo (declRound p) r := by
  unfold Keeps declRound
  rw [ensures_bind, ensures_current]
  split
  · exact hp
  · rename_i hk
    have hne : r.current.kind ≠ .eof := by simp [hk]
    have hkeep : ∀ i {hi}, Laid cs r.start [ModuleImport.outline i] hi →
      Laid cs lo ({ p with imports := p.imports.push i } : Progress).outlines hi := fun i _ => laid_pushImport hp
    unfold importRound
    split
    · exact ensures_bind.2 (keeps_keepOrRecover places_moduleImport hr hne (.report r _) hp hkeep)
    · exact keeps_keepOrRecover places_moduleImport hr hne (.refl r) hp hkeep
  · rename_i hk
    have hne : r.current.kind ≠ .eof := by simp [hk]
    unfold aliasRound
    split
    · exact ensures_bind.2 (keeps_keepOrRecover places_aliasDecl hr hne (.report r _) hp fun a _ => laid_pushAlias hp)
    · exact keeps_keepOrRecover (p := { p with part := .aliases }) places_aliasDecl hr hne (.refl r) hp
        fun a _ => laid_pushAlias (p := { p with part := .aliases }) hp
  · rename_i hk
    exact keeps_classRound hr (by simp [hk]) hp
  · rename_i hk
    exact keeps_keepOrRecover (p := { p with part := .decls }) places_functionDecl hr (by simp [hk]) (.refl r) hp
      fun f _ => laid_pushFunction (p := { p with part := .decls }) hp
  · rename_i hk _ _ _ _
    rw [ensures_bind, ensures_report]
    exact keeps_bad hr hk (.report r _) hp

theorem places_program : program.Places cs Program.span fun p => [p.outline] := by
  intro r hr
  unfold program
  simp only [ensures_bind, ensures_current, ensures_pure]
  have hround : ∀ p m, m.Placed cs → Laid cs r.start p.outlines m.start → Keeps cs r.start (declRound p) m :=
    fun _ _ hm hp => keeps_declRound hm hp
  refine (Ensures.loop_placed hround hr (.nil (Int.le_refl _))).mono (fun p s hs => ?_) (fun _ h => h)
  refine .node hr hs.1 (hr.through_current hs.1) ?_ rfl
  exact hs.2.mono (Int.le_refl _) (hs.1.placed hr).start_le

end Progress
end Rule

/-- The program read from any source is well placed in it: every node stands in the text with its line and its
column, inside of its parent and apart from its siblings. -/
theorem readProgram_wellPlaced (file source : String) (limit : Nat) :
    (readProgram file source limit).value.outline.WellPlaced source.toList := by
  have hr := Reader.ofSource_placed file source limit
  obtain ⟨p, s, he, -⟩ := (Rule.program_ends hr.wf).exists_ok
  have hvalue : (readProgram file source limit).value = p := by
    unfold readProgram
    rw [Rule.readSource_of_ok he]
  rw [hvalue]
  exact ((Rule.places_program _ hr).ok he).laid.placed _ (List.mem_singleton_self _)

end SemFront
