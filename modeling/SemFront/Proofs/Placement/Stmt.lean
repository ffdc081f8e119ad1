/-
Statements and blocks are placed, those that could not be read too: a placeholder begins where its
statement began and ends before reading resumes. Two types have spans that are no spans of tokens: a
list type takes the first half of a `>=` that closes it, and a missing type stands, empty, in front of
the `=` that follows it.
-/
import SemFront.Proofs.Grammar.Stmt
import SemFront.Proofs.Placement.Expr

namespace SemFront.Rule

variable {cs : List Char} {r m s : Reader}

/-! ## Variables and assignments -/

/-- Where the type of a variable stops: where reading stands, or if it is missing in front of the `=` that
follows. -/
def TypeStops (hi : Int) (begun : Bool) (s : Reader) : Prop :=
  hi ≤ s.stop ∨ begun = false ∧ s.advance.current.kind = .punct .assign ∧ hi ≤ s.advance.start

/-- A list type from its keyword on, up to the first character of the token that closes it. -/
theorem laid_listType (hr : r.Placed cs) (h : r.Leads m) (hk : m.advance.current.kind ≠ .eof)
    (hl : Laid cs r.start [m.current.ident.outline] m.stop) :
    Laid cs r.start [(TypeRef.named (some m.current.ident) true (r.current.span.through
      { m.advance.current.span with stop := m.advance.current.span.start + 1 })).outline] m.advance.stop := by
  have hmp := h.placed hr
  have h1 : r.stop ≤ m.stop := hr.stop_mono h
  have h2 : m.stop ≤ m.advance.start := hmp.stop_le_next (.refl _)
  have h3 : m.advance.start < m.advance.stop := (hmp.advance.wf.current_wf hk).nonempty
  have h4 : r.start ≤ r.stop := hr.start_le
  have h5 : m.advance.stop ≤ cs.length := hmp.advance.liesIn.stop_le
  have hspan : r.current.span.through { m.advance.current.span with stop := m.advance.current.span.start + 1 } =
      { r.current.span with stop := m.advance.start + 1 } := by
    show { r.current.span with stop := max r.stop (m.advance.start + 1) } = _
    rw [Int.max_eq_right (by omega)]
  rw [hspan]
  refine .single (Laid.wellPlaced ?_ (hl.mono (Int.le_refl _) ?_)) (Int.le_refl _) ?_
  · exact hr.liesIn.stopAt (n := m.advance.start + 1) (by show r.start ≤ _; omega) (by omega)
  · show m.stop ≤ m.advance.start + 1
    omega
  · show m.advance.start + 1 ≤ m.advance.stop
    omega

theorem ensures_typeRef {name : Token} (hr : r.Placed cs) : (typeRef name).Ensures r
    (fun type s => r.Leads s ∧ ∃ hi, Laid cs r.stop [type.1.outline] hi ∧ TypeStops hi type.2 s) fun _ => True := by
  have hnext : r.stop ≤ r.advance.start := hr.stop_le_next (.refl _)
  unfold typeRef
  rw [ensures_bind, ensures_peek]
  split
  · rename_i hk
    simp only [ensures_bind, ensures_report, ensures_pure]
    refine ⟨.report r _, r.advance.start, .single (.mk ?_ (by simp) .nil (by simp)) hnext (Int.le_refl _), .inr ?_⟩
    · exact hr.advance.liesIn.stopAt (Int.le_refl _) (Int.le_trans hr.advance.start_le hr.advance.liesIn.stop_le)
    · exact ⟨rfl, hk, Int.le_refl _⟩
  · simp only [ensures_bind, ensures_advance, ensures_current, ensures_expect, ensures_currentIdent, ensures_peek,
      ensures_ite, ensures_pure, ensures_refuse]
    split
    · split
      · split
        · rename_i hk
          have hk : r.advance.advance.advance.advance.current.kind ≠ .eof := fun e => by simp [e] at hk
          have hlead : r.advance.Leads r.advance.advance.advance := .of_advance (.advance _)
          refine ⟨.of_advance (hlead.trans (.advance _)), _,
            (laid_listType hr.advance hlead hk ?_).mono hnext (Int.le_refl _), .inl (Int.le_refl _)⟩
          exact hr.advance.advance.advance.ident.mono (hr.advance.start_mono hlead) (Int.le_refl _)
        · trivial
      · trivial
    · trivial
  · simp only [ensures_bind, ensures_expect, ensures_current, ensures_pure]
    split
    · refine ⟨.advance r, r.advance.stop, .single (Laid.wellPlaced hr.advance.liesIn ?_) hnext (Int.le_refl _),
        .inl (Int.le_refl _)⟩
      exact hr.advance.ident
    · trivial

theorem ensures_initFollows {hi : Int} {begun : Bool} (hr : r.Placed cs) (hhi : TypeStops hi begun r) :
    (initFollows begun).Ensures r
      (fun follows s => r.Leads s ∧ if follows then hi ≤ s.advance.start else hi ≤ s.stop) fun _ => True := by
  have h1 : r.stop ≤ r.advance.start := hr.stop_le_next (.refl _)
  have h2 : r.advance.stop ≤ r.advance.advance.start := hr.advance.stop_le_next (.refl _)
  have h3 : r.advance.start ≤ r.advance.stop := hr.advance.start_le
  unfold initFollows
  simp only [ensures_bind, ensures_peek, ensures_ite, ensures_advance, ensures_pure]
  split
  · refine ⟨.advance r, ?_⟩
    show hi ≤ r.advance.advance.start
    rcases hhi with hhi | ⟨-, -, hhi⟩ <;> omega
  · rename_i hk
    refine ⟨.refl r, ?_⟩
    rcases hhi with hhi | ⟨rfl, hassign, -⟩
    · split
      · omega
      · exact hhi
    · exact absurd hassign (by simpa using hk)

theorem places_varDecl : varDecl.Places cs Stmt.span fun st => [st.outline] := by
  intro r hr
  unfold varDecl
  simp only [ensures_bind, ensures_current, ensures_advance]
  refine (ensures_typeRef hr.advance).mono ?_ (fun _ h => h)
  rintro ⟨type, begun⟩ m ⟨hm, hi, htype, hhi⟩
  have hrm : r.Leads m := hm.of_advance
  have hmp := hrm.placed hr
  -- the name and the type, however far the type goes
  have hhead : Laid cs r.start (Ident.outline? (some r.current.ident) ++ [type.outline]) hi :=
    hr.ident.append htype (Int.le_trans (hr.stop_le_next (.refl _)) hr.advance.start_le)
  dsimp only
  refine (ensures_initFollows hmp hhi).mono (fun follows n hn => ?_) (fun _ h => h)
  have hrn := hrm.trans hn.1
  have hnp := hrn.placed hr
  cases follows with
  | true =>
    simp only [if_true, ensures_bind, ensures_advance, ensures_pure]
    refine (places_expr _ hnp.advance).mono (fun init s hinit => ?_) (fun _ h => h)
    have hrs : r.Leads s := hrn.trans hinit.leads.of_advance
    exact .node hr hrs (hr.through (.refl r) hrs hinit.stop) (hhead.append hinit.laid hn.2) rfl
  | false =>
    simp only [Bool.false_eq_true, if_false, ensures_bind, ensures_current, ensures_pure]
    refine .node hr hrn (hr.through_current hrn) ?_ rfl
    exact (hhead.mono (Int.le_refl _) hn.2).append (.nil (Int.le_refl _)) (Int.le_refl _)

theorem places_assignment : assignment.Places cs Stmt.span fun st => [st.outline] := by
  intro r hr
  unfold assignment
  simp only [ensures_bind, ensures_advance, ensures_pure]
  refine (places_dottedName r hr).mono (fun target m htarget => ?_) (fun _ h => h)
  have hmp := htarget.leads.placed hr
  refine (places_expr _ hmp.advance.advance).mono (fun value s hvalue => ?_) (fun _ h => h)
  have hms : m.Leads s := hvalue.leads.of_advance.of_advance
  refine .node hr (htarget.leads.trans hms) ?_ (htarget.laid.append hvalue.laid (hmp.stop_le_next (.advance _))) rfl
  show target.span.through value.span = _
  rw [htarget.span]
  exact hr.through htarget.leads hms hvalue.stop

/-! ## Statements -/

theorem places_exprStmt : exprStmt.Places cs Stmt.span fun st => [st.outline] := by
  intro r hr
  unfold exprStmt
  simp only [ensures_bind, ensures_pure]
  refine (places_expr r hr).mono (fun value s hvalue => ?_) (fun _ h => h)
  exact .node hr hvalue.leads hvalue.span hvalue.laid rfl

theorem places_returnStmt : returnStmt.Places cs Stmt.span fun st => [st.outline] := by
  intro r hr
  unfold returnStmt
  simp only [ensures_bind, ensures_current, ensures_advance, ensures_pure]
  refine (places_expr _ hr.advance).mono (fun value s hvalue => ?_) (fun _ h => h)
  have hrs : r.Leads s := hvalue.leads.of_advance
  refine .node hr hrs (hr.through (.refl r) hrs hvalue.stop) ?_ rfl
  exact hvalue.laid.mono (hr.start_mono (.advance r)) (Int.le_refl _)

section Blocks

variable {block : Rule Block} (hblock : block.Places cs Block.span Block.outline)
include hblock

theorem ensures_condBlock (hr : r.Placed cs) : (condBlock block).Ensures r
    (fun x s => r.Leads s ∧ Laid cs r.start (x.1.outline ++ x.2.outline) s.stop) fun _ => True := by
  unfold condBlock
  simp only [ensures_bind, ensures_advance, ensures_expect, ensures_pure]
  refine (places_expr _ hr.advance).mono (fun e m he => ?_) (fun _ h => h)
  have hmp := he.leads.placed hr.advance
  split
  · refine (hblock _ hmp.advance).mono (fun b s hb => ?_) (fun _ h => h)
    refine ⟨(he.leads.trans hb.leads.of_advance).of_advance, ?_⟩
    exact (he.laid.append hb.laid (hmp.stop_le_next (.refl _))).mono (hr.start_mono (.advance r)) (Int.le_refl _)
  · trivial

theorem ensures_elseBlock (hr : r.Placed cs) : (elseBlock block).Ensures r
    (fun b s => r.Leads s ∧ Laid cs r.stop b.outline s.stop) fun _ => True := by
  unfold elseBlock
  simp only [ensures_bind, ensures_peek, ensures_ite, ensures_advance, ensures_expect, ensures_pure]
  split
  · split
    · have hlead : r.advance.Leads r.advance.advance := .advance _
      refine (hblock _ hr.advance.advance).mono (fun b s hb => ?_) (fun _ h => h)
      refine ⟨(hlead.trans hb.leads).of_advance, ?_⟩
      exact hb.laid.mono (hr.stop_le_next hlead) (Int.le_refl _)
    · trivial
  · exact ⟨.refl r, .nil (Int.le_refl _)⟩

theorem places_ifStmt : (ifStmt block).Places cs Stmt.span fun st => [st.outline] := by
  intro r hr
  unfold ifStmt
  simp only [ensures_bind, ensures_current, ensures_pure]
  refine (ensures_condBlock hblock hr).mono (fun x m hx => ?_) (fun _ h => h)
  refine (ensures_elseBlock hblock (hx.1.placed hr)).mono (fun no s hno => ?_) (fun _ h => h)
  have hrs := hx.1.trans hno.1
  exact .node hr hrs (hr.through_current hrs) (hx.2.append hno.2 (Int.le_refl _)) rfl

theorem places_whileStmt : (whileStmt block).Places cs Stmt.span fun st => [st.outline] := by
  intro r hr
  unfold whileStmt
  simp only [ensures_bind, ensures_current, ensures_pure]
  refine (ensures_condBlock hblock hr).mono (fun x s hx => ?_) (fun _ h => h)
  exact .node hr hx.1 (hr.through_current hx.1) hx.2 rfl

theorem places_withStmt : (withStmt block).Places cs Stmt.span fun st => [st.outline] := by
  intro r hr
  unfold withStmt
  simp only [ensures_bind, ensures_current, ensures_pure]
  refine (ensures_condBlock hblock hr).mono (fun x s hx => ?_) (fun _ h => h)
  exact .node hr hx.1 (hr.through_current hx.1) hx.2 rfl

omit hblock in
theorem places_nameStmt : nameStmt.Places cs Stmt.span fun st => [st.outline] := by
  intro r hr
  unfold nameStmt
  simp only [ensures_bind, ensures_peek, ensures_ite, ensures_afterChain]
  split
  · exact places_varDecl r hr
  · -- looking behind the name does not move the reader
    have hlook : r.afterChain.2.Placed cs := (Reader.Leads.look r _).placed hr
    split
    · exact (places_assignment _ hlook).mono (fun _ _ h => ⟨(Reader.Leads.look r _).trans h.leads, h.span, h.laid⟩)
        (fun _ h => h)
    · exact (places_exprStmt _ hlook).mono (fun _ _ h => ⟨(Reader.Leads.look r _).trans h.leads, h.span, h.laid⟩)
        (fun _ h => h)

theorem places_stmt : (stmt block).Places cs Stmt.span fun st => [st.outline] := by
  intro r hr
  unfold stmt
  rw [ensures_bind, ensures_current]
  split
  · exact places_ifStmt hblock r hr
  · exact places_whileStmt hblock r hr
  · exact places_withStmt hblock r hr
  · exact places_returnStmt r hr
  · exact places_nameStmt r hr
  · exact places_exprStmt r hr

/-! ## Blocks -/

omit hblock in
theorem ensures_finishStmt : finishStmt.Ensures r (fun _ s => r.advance.Leads s) fun _ => True := by
  unfold finishStmt
  simp only [ensures_bind, ensures_peek, ensures_ite, ensures_advance, ensures_report]
  split
  · exact .advance _
  · have hlog (h : r.Logged) : (r.report (.missingSemicolon r.advance.current)).Logged := h.report _
    exact ⟨List.suffix_refl _, rfl, rfl, rfl, rfl, hlog, by simp [Reader.report, Reader.advance], Nat.le_refl _, id⟩

/-- One more statement, read or given up, comes behind those before it and in front of what follows. -/
theorem ensures_stmtRound [Honest block] {ss : Array Stmt} {lo : Int} (hr : r.Placed cs)
    (hss : Laid cs lo (ss.toList.map Stmt.outline) r.start) : (stmtRound block ss).Ensures r
      (ofRound (fun ts s => Laid cs lo (ts.toList.map Stmt.outline) s.start)
        fun ts s => Laid cs lo (ts.toList.map Stmt.outline) s.start) fun _ => True := by
  have hpush : ∀ {st : Stmt} {s : Reader}, Laid cs r.start [st.outline] s.start →
      Laid cs lo ((ss.push st).toList.map Stmt.outline) s.start := fun hst => hss.push hst (Int.le_refl _)
  unfold stmtRound
  simp only [ensures_bind, ensures_current, ensures_ite, ensures_attempt]
  split
  · exact hss
  · rename_i hk
    have hne : r.current.kind ≠ .eof := fun e => hk (by simp [e])
    refine (places_stmt hblock r hr).leads.mono (fun st m hst => ?_) (fun m hm => ?_)
    · refine ensures_finishStmt.mono (fun _ s hs => ?_) (fun _ h => h)
      refine hpush (hst.2.laid.mono (Int.le_refl _) ?_)
      exact (hst.1.placed hr).stop_le_next hs
    · exact (ensures_recover_laid hr hne hm.1).mono (fun span s hs => hpush (hs _ rfl)) (fun _ h => h)

theorem places_blockWith [Honest block] : (blockWith block).Places cs Block.span Block.outline := by
  intro r hr
  unfold blockWith
  simp only [ensures_bind, ensures_current, ensures_advance]
  refine (Ensures.loop_placed (P := fun ss m => Laid cs r.start (ss.toList.map Stmt.outline) m.start)
    (fun ss m hm hss => ensures_stmtRound hblock hm hss) hr.advance (.nil (hr.start_mono (.advance r)))).mono
      (fun ss s hs => ?_) (fun _ h => h)
  have hrs : r.Leads s := hs.1.of_advance
  have hlaid : Laid cs r.start (Stmt.outlines ss.toList) s.stop := by
    rw [Stmt.outlines_eq]
    exact hs.2.mono (Int.le_refl _) (hrs.placed hr).start_le
  split
  · exact .node hr (hrs.trans (.report s _)) (hr.through_current hrs) hlaid rfl
  · exact .node hr hrs (hr.through_current hrs) hlaid rfl

end Blocks

theorem places_blockAt (depth : Nat) : (blockAt depth).Places cs Block.span Block.outline := by
  induction depth with
  | zero => exact fun _ _ => trivial
  | succ depth ih => exact places_blockWith ih

theorem places_block : block.Places cs Block.span Block.outline := fun r hr => .of_budget (places_blockAt _ r hr)

end SemFront.Rule
