/-
Expressions are placed: each has the span from its first token to its last one, with its operands and
names laid out in between. A node built from its operands, such as a sum or a cast, stops where the last
of them stops.
-/
import SemFront.Proofs.Grammar.Expr
import SemFront.Proofs.Placement.Rule
import SemFront.Proofs.Tree.Outline

namespace SemFront

/-- The outline of a part of a comprehension. -/
def Rule.ComprehensionPart.outline : Rule.ComprehensionPart → List Outline
  | .generator g => [g.outline]
  | .constraint e => e.outline

namespace Rule

variable {cs : List Char} {r m s : Reader} {sub : Nat → Rule Expr} [∀ l, Honest (sub l)]
  (hsub : ∀ l, (sub l).Places cs Expr.span Expr.outline)
include hsub

/-! ## Operands -/

omit [∀ l, Honest (sub l)] in
theorem places_unary : (unary sub).Places cs Expr.span Expr.outline := by
  intro r hr
  unfold unary
  simp only [ensures_bind, ensures_current, ensures_advance, ensures_pure]
  refine (hsub _ _ hr.advance).mono (fun e s he => ?_) (fun _ h => h)
  have hrs : r.Leads s := he.leads.of_advance
  have hspan := hr.through (.refl r) hrs he.stop
  have hlaid := he.laid.mono (hr.start_mono (.advance r)) (Int.le_refl _)
  split
  · exact .node hr hrs hspan hlaid rfl
  · exact .node hr hrs hspan hlaid rfl

omit [∀ l, Honest (sub l)] in
theorem ensures_cast (hr : r.Placed cs) (hm : r.Leads m) : (cast sub r.current).Ensures m
    (fun e s => Extent cs r s e.span e.outline) fun _ => True := by
  have hmp := hm.placed hr
  unfold cast
  simp only [ensures_bind, ensures_advance, ensures_currentIdent, ensures_pure]
  refine (hsub _ _ hmp.advance.advance.advance).mono (fun e s he => ?_) (fun _ h => h)
  have hms : m.advance.Leads s := he.leads.of_advance.of_advance
  have hrs : r.Leads s := hm.trans hms.of_advance
  refine .node hr hrs (hr.through (.refl r) hrs he.stop) ?_ rfl
  have htype := hmp.advance.ident.append he.laid (hmp.advance.stop_le_next (.advance _))
  exact htype.mono (hr.start_mono (hm.trans (.advance m))) (Int.le_refl _)

omit [∀ l, Honest (sub l)] in
theorem places_parenOrCast : (parenOrCast sub).Places cs Expr.span Expr.outline := by
  intro r hr
  unfold parenOrCast
  simp only [ensures_bind, ensures_current]
  refine (Honest.ensures (x := opensCast)).mono (fun isCast m hm => ?_) (fun _ _ => trivial)
  have hmp := hm.placed hr
  split
  · exact ensures_cast hsub hr hm
  · simp only [ensures_bind, ensures_advance, ensures_expect, ensures_current, ensures_pure]
    refine (hsub _ _ hmp.advance).mono (fun e n he => ?_) (fun _ h => h)
    split
    · have hrs : r.Leads n.advance := hm.trans (he.leads.trans (.advance n)).of_advance
      refine .node hr hrs (hr.through_current hrs) ?_ rfl
      exact he.laid.mono (hr.start_mono (hm.trans (.advance m))) ((he.leads.placed hmp.advance).stop_mono (.advance n))
    · trivial

theorem places_nameOrCall : (nameOrCall sub).Places cs Expr.span Expr.outline := by
  intro r hr
  unfold nameOrCall
  simp only [ensures_bind]
  refine (places_dottedName r hr).mono (fun name m hname => ?_) (fun _ h => h)
  have hmp := hname.leads.placed hr
  simp only [ensures_peek, ensures_ite, ensures_pure, ensures_bind, ensures_advance, ensures_current]
  split
  · exact .node hr hname.leads hname.span hname.laid rfl
  · refine ((hsub 0).manyItems hmp.advance.advance).mono (fun args s hs => ?_) (fun _ h => h)
    have hms : m.Leads s := hs.1.of_advance.of_advance
    refine .node hr (hname.leads.trans hms) ?_ ?_ rfl
    · show name.span.through s.current.span = _
      rw [hname.span]
      exact hr.through hname.leads hms rfl
    · rw [Expr.outlines_eq]
      have hargs := hname.laid.append hs.2 (hmp.stop_le_next (.advance _))
      exact hargs.mono (Int.le_refl _) (hms.placed hmp).start_le

/-! ## Lists and comprehensions -/

omit hsub [∀ l, Honest (sub l)] in
theorem places_generator : generator.Places cs Generator.span fun g => [g.outline] := by
  intro r hr
  unfold generator
  simp only [ensures_bind, ensures_current, ensures_advance, ensures_expect, ensures_pure]
  split
  · have hrs : r.Leads r.advance.advance := .of_advance (.advance _)
    refine .node hr hrs (hr.through_current hrs) ?_ rfl
    exact hr.ident.append hr.advance.advance.ident (hr.stop_le_next (.advance _))
  · trivial

omit [∀ l, Honest (sub l)] in
theorem places_comprehensionPart :
    (comprehensionPart sub).Places cs ComprehensionPart.span ComprehensionPart.outline := by
  intro r hr
  unfold comprehensionPart
  simp only [ensures_bind, ensures_current, ensures_peek, ensures_ite, ensures_pure]
  split
  · exact places_generator r hr
  · exact hsub 0 r hr

theorem ensures_comprehension (hr : r.Placed cs) (hm : r.Leads m) : (comprehension sub r.current).Ensures m
    (fun e s => Extent cs r s e.span e.outline) fun _ => True := by
  have hmp := hm.placed hr
  unfold comprehension
  simp only [ensures_bind, ensures_advance, ensures_currentIdent, ensures_current]
  refine ((places_comprehensionPart hsub).someItems hmp.advance.advance.advance).mono (fun parts s hs => ?_)
    (fun _ h => h)
  have hms : m.advance.Leads s := hs.1.of_advance.of_advance
  have hrs : r.Leads s := hm.trans hms.of_advance
  have hspan := hr.through_current hrs
  unfold comprehensionOf
  cases hshape : comprehensionShape parts with
  | ok p =>
    obtain ⟨g, e⟩ := p
    obtain rfl := comprehensionShape_eq_ok.1 hshape
    refine .node hr hrs hspan ?_ rfl
    have hparts := hs.2
    rw [List.flatMap_cons, List.flatMap_singleton] at hparts
    have helement := hmp.advance.ident.append hparts (hmp.advance.stop_le_next (.advance _))
    exact helement.mono (hr.start_mono (hm.trans (.advance m))) (hrs.placed hr).start_le
  | error p =>
    have hrs' := hrs.trans (.report s (.comprehension p.1 (p.2.getD (r.current.span.through s.current.span))))
    exact .node hr hrs' hspan (.nil (Int.le_trans hr.start_le (hr.stop_mono hrs'))) rfl

theorem places_listOrComprehension : (listOrComprehension sub).Places cs Expr.span Expr.outline := by
  intro r hr
  unfold listOrComprehension
  simp only [ensures_bind, ensures_current]
  refine (Honest.ensures (x := opensComprehension)).mono (fun isComprehension m hm => ?_) (fun _ _ => trivial)
  have hmp := hm.placed hr
  split
  · exact ensures_comprehension hsub hr hm
  · simp only [ensures_bind, ensures_advance, ensures_current, ensures_pure]
    refine ((hsub 0).manyItems hmp.advance).mono (fun elems s hs => ?_) (fun _ h => h)
    have hrs : r.Leads s := hm.trans hs.1.of_advance
    refine .node hr hrs (hr.through_current hrs) ?_ rfl
    rw [Expr.outlines_eq]
    exact hs.2.mono (hr.start_mono (hm.trans (.advance m))) (hrs.placed hr).start_le

/-! ## New instances -/

omit [∀ l, Honest (sub l)] in
theorem places_propertyInit : (propertyInit sub).Places cs Initializer.span fun i => [i.outline] := by
  intro r hr
  unfold propertyInit
  simp only [ensures_bind, ensures_current, ensures_ite, ensures_refuse, ensures_expect, ensures_advance, ensures_pure]
  split
  · trivial
  · split
    · refine (hsub 0 _ hr.advance.advance).mono (fun e s he => ?_) (fun _ h => h)
      have hrs : r.Leads s := he.leads.of_advance.of_advance
      refine .node hr hrs (hr.through (.refl r) hrs he.stop) ?_ rfl
      exact hr.ident.append he.laid (hr.stop_le_next (.advance _))
    · trivial

theorem places_construct : (construct sub).Places cs Expr.span Expr.outline := by
  intro r hr
  unfold construct
  simp only [ensures_bind, ensures_current, ensures_expect, ensures_currentIdent, ensures_advance, ensures_pure]
  split
  · split
    · refine ((places_propertyInit hsub).manyItems hr.advance.advance.advance).mono (fun inits s hs => ?_)
        (fun _ h => h)
      have hrs : r.Leads s := hs.1.of_advance.of_advance.of_advance
      refine .node hr hrs (hr.through_current hrs) ?_ rfl
      have hinits := hs.2
      rw [← List.map_eq_flatMap, ← Initializer.outlines_eq] at hinits
      have htype := hr.advance.ident.append hinits (hr.advance.stop_le_next (.advance _))
      exact htype.mono (hr.start_mono (.advance r)) (hrs.placed hr).start_le
    · trivial
  · trivial

/-! ## Expressions -/

theorem places_primary : (primary sub).Places cs Expr.span Expr.outline := by
  intro r hr
  have hleaf : ∀ {n : Node}, n.span = r.current.span → Extent cs r r r.current.span [.mk n []] :=
    .node hr (.refl r) rfl (.nil hr.start_le)
  unfold primary
  rw [ensures_bind, ensures_current]
  split
  · exact places_nameOrCall hsub r hr
  · exact hleaf rfl
  · exact hleaf rfl
  · exact hleaf rfl
  · exact hleaf rfl
  · exact hleaf rfl
  · exact places_construct hsub r hr
  · exact places_unary hsub r hr
  · exact places_unary hsub r hr
  · exact places_parenOrCast hsub r hr
  · exact places_listOrComprehension hsub r hr
  · trivial

/-- Operators extend the expression read so far, which began at `r`, to the right. -/
theorem ensures_operators {level : Nat} {left : Expr} (hr : r.Placed cs)
    (hleft : Extent cs r m left.span left.outline) : (operators sub level left).Ensures m
      (fun e s => Extent cs r s e.span e.outline) fun _ => True := by
  unfold operators
  refine Ensures.loop (P := fun e n => Extent cs r n e.span e.outline) (fun e n _ he => ?_) (hleft.leads.wf hr.wf) hleft
  have hnp := he.leads.placed hr
  unfold operatorRound
  simp only [ensures_bind, ensures_peek]
  split
  · exact he
  · simp only [ensures_ite, ensures_bind, ensures_advance, ensures_pure]
    split
    · refine (hsub _ _ hnp.advance.advance).mono (fun e' s he' => ?_) (fun _ h => h)
      have hns : n.Leads s := he'.leads.of_advance.of_advance
      refine .node hr (he.leads.trans hns) ?_ (he.laid.append he'.laid (hnp.stop_le_next (.advance _))) rfl
      show e.span.through e'.span = _
      rw [he.span]
      exact hr.through he.leads hns he'.stop
    · exact he

omit hsub in
theorem places_exprAt (depth level : Nat) : (exprAt depth level).Places cs Expr.span Expr.outline := by
  induction depth generalizing level with
  | zero => exact fun _ _ => trivial
  | succ depth hsub =>
    intro r hr
    unfold exprAt
    rw [ensures_bind]
    exact (places_primary hsub r hr).mono (fun _ _ hleft => ensures_operators hsub hr hleft) (fun _ h => h)

omit hsub in
theorem places_expr : expr.Places cs Expr.span Expr.outline := fun r hr =>
  Ensures.of_budget (x := (exprAt · 0)) (places_exprAt _ 0 r hr)

end Rule
end SemFront
