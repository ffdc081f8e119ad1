/-
Expressions tell nothing twice. A rule that asks for a token behind what it has read fails there, so that
it is told of once; a list goes on behind a comma, from a token that nothing has been told of. The flaws of
a comprehension are the only problems told of at a place that was passed: one of the whole at its bracket,
one of its parts at the part, where a comprehension that is the part may have told of its own before.
-/
import SemFront.Proofs.Placement.Expr
import SemFront.Proofs.Repeats.Frontier

namespace SemFront

open Problem (Missing)

namespace Rule

variable {W : Vantage} {r m s : Reader} {E here next : Problem → Prop} {K : Kind → Bool}

/-! ## Names and lists -/

/-- A dotted name tells nothing of its first token, and nothing of the next one unless that is a dot. Behind a
dot nothing has been told of a name. -/
theorem dottedName_clear (h : r.Clear W here next) (hk : r.current.kind = .ident) : dottedName.Ensures r
    (fun _ s => s.Clear W (fun _ => s.rest.length = r.rest.length) next ∧ s.current.kind = .ident)
    (fun s => s.Stuck W Kind.isInside ∧ s.current.kind = .punct .dot) := by
  unfold dottedName
  simp only [ensures_bind, ensures_current, ensures_ite, ensures_refuse, ensures_pure]
  rw [if_neg (fun hne => hne hk)]
  refine Ensures.loop
    (P := fun _ m => m.Clear W (fun _ => m.rest.length = r.rest.length) next ∧ m.current.kind = .ident)
    (fun xs m _ hm => ?_) h.placed.wf ⟨h.mono (fun _ _ => rfl) fun _ h => h, hk⟩
  obtain ⟨hm, hmk⟩ := hm
  unfold segmentRound
  simp only [ensures_bind, ensures_peek, ensures_ite, ensures_advance, ensures_expect, ensures_currentIdent,
    ensures_pure]
  split
  · rename_i hdot
    -- at the dot, only what was told of it is known
    have hat : m.advance.Done W Kind.isInside :=
      (hm.pass (hmk.trans_ne (by decide)) (.refl _) rfl).done (by rw [hdot]; rfl)
    split
    · rename_i hident
      exact ⟨(hat.advance rfl).mono (fun _ => False.elim) (fun _ => False.elim), hident⟩
    · exact ⟨hat.refuse rfl (by decide), hdot⟩
  · exact ⟨hm, hmk⟩

theorem commaOr_ne (c : Punct) : (Wanted.commaOr c).text ≠ Wanted.kindText (.punct .rbrace) ∧
    (Wanted.commaOr c).text ≠ Wanted.kindText (.punct .colon) := by
  cases c <;> decide

section Items

variable {item : Rule α} [Honest item] {closing : Punct} {what : Wanted}

theorem Orderly.items (hitem : item.Orderly E K) (hK : K .eof = false) (h : r.Clear W E Nothing) :
    (items closing what item).Ensures r (fun _ s => s.Fresh W ∧ s.current.kind = .punct closing)
      (fun s => s.Stuck W K) := by
  unfold Rule.items
  simp only [ensures_bind, ensures_pure]
  refine Ensures.loop (P := fun _ m => m.Clear W E Nothing) (fun xs m _ hm => ?_) h.placed.wf h
  unfold itemRound
  simp only [ensures_bind, ensures_peek, ensures_ite, ensures_advance, ensures_current, ensures_pure, ensures_refuse]
  refine (hitem hm).mono (fun x n hn => ?_) (fun _ h => h)
  split
  · have hnext := (hn.advance hK).advance
    split
    · exact hnext.refuse_here
    · exact hnext.clear
  · split
    · rename_i hclose
      exact ⟨hn.advance hK, hclose⟩
    · exact hn.refuse hK (commaOr_ne closing)

theorem Orderly.manyItems (hitem : item.Orderly E K) (hK : K .eof = false) (h : r.Fresh W) :
    (manyItems closing what item).Ensures r (fun _ s => s.Fresh W ∧ s.current.kind = .punct closing)
      (fun s => s.Stuck W K) := by
  unfold Rule.manyItems
  simp only [ensures_bind, ensures_current, ensures_ite, ensures_pure]
  split
  · rename_i hclose
    exact ⟨h, hclose⟩
  · exact hitem.items hK h.clear

end Items

/-! ## Operands -/

section Operands

variable {sub : Nat → Rule Expr} [∀ l, Honest (sub l)] (hsub : ∀ l, (sub l).Orderly Missing Kind.isInside)
include hsub

omit [∀ l, Honest (sub l)] in
theorem orderly_unary (h : r.Clear W Missing Nothing) (hk : r.current.kind ≠ .eof) : (unary sub).Ensures r
    (fun _ s => s.Done W Kind.isInside) (fun s => s.Stuck W Kind.isInside) := by
  unfold unary
  simp only [ensures_bind, ensures_current, ensures_advance, ensures_pure]
  exact hsub _ (h.advance hk).clear

omit [∀ l, Honest (sub l)] in
theorem orderly_parenOrCast (h : r.Clear W Missing Nothing) (hk : r.current.kind = .punct .lparen) :
    (parenOrCast sub).Ensures r (fun _ s => s.Done W Kind.isInside) (fun s => s.Stuck W Kind.isInside) := by
  unfold parenOrCast
  simp only [ensures_bind, ensures_current]
  refine looks_opensCast.ensures_clear h fun m hl hm => ?_
  have hin : m.advance.Fresh W := hm.advance (by rw [hl.current, hk]; decide)
  split
  · unfold cast
    simp only [ensures_bind, ensures_advance, ensures_currentIdent, ensures_pure]
    exact hsub _ hin.advance.advance.clear
  · simp only [ensures_bind, ensures_advance, ensures_expect, ensures_current, ensures_pure]
    refine (hsub _ hin.clear).mono (fun e n hn => ?_) (fun _ h => h)
    split
    · rename_i hclose
      exact (hn.advance rfl).done (by rw [hclose]; rfl)
    · exact hn.refuse rfl (by decide)

theorem orderly_nameOrCall (h : r.Clear W Missing Nothing) (hk : r.current.kind = .ident) :
    (nameOrCall sub).Ensures r (fun _ s => s.Done W Kind.isInside) (fun s => s.Stuck W Kind.isInside) := by
  unfold nameOrCall
  simp only [ensures_bind]
  refine (dottedName_clear h hk).mono (fun name m hm => ?_) (fun _ h => h.1)
  have hname : m.Done W Kind.isInside := hm.1.done (by rw [hm.2]; rfl)
  simp only [ensures_peek, ensures_ite, ensures_pure, ensures_bind, ensures_advance, ensures_current]
  split
  · exact hname
  · refine ((hsub 0).manyItems rfl (hname.advance rfl).advance).mono (fun args s hs => ?_) (fun _ h => h)
    exact hs.1.done (by rw [hs.2]; rfl)

omit [∀ l, Honest (sub l)] in
theorem orderly_propertyInit : (propertyInit sub).Orderly Nothing Kind.isInside := by
  intro W r h
  unfold propertyInit
  simp only [ensures_bind, ensures_current, ensures_ite, ensures_refuse, ensures_expect, ensures_advance, ensures_pure]
  split
  · exact Reader.Fresh.refuse_here h
  · rename_i hk
    have hname : r.Done W Kind.isInside := h.done (by rw [not_not.1 hk]; rfl)
    split
    · exact hsub 0 (hname.advance rfl).advance.clear
    · exact hname.refuse rfl (by decide)

theorem orderly_construct (h : r.Clear W Missing Nothing) (hk : r.current.kind = .keyword .new) :
    (construct sub).Ensures r (fun _ s => s.Done W Kind.isInside) (fun s => s.Stuck W Kind.isInside) := by
  have hnew : r.Done W Kind.isInside := h.done (by rw [hk]; rfl)
  unfold construct
  simp only [ensures_bind, ensures_current, ensures_expect, ensures_currentIdent, ensures_advance, ensures_pure]
  split
  · rename_i hident
    have htype : r.advance.Done W Kind.isInside := (hnew.advance rfl).done (by rw [hident]; rfl)
    split
    · refine ((orderly_propertyInit hsub).manyItems rfl (htype.advance rfl).advance).mono (fun inits s hs => ?_)
        (fun _ h => h)
      exact hs.1.done (by rw [hs.2]; rfl)
    · exact htype.refuse rfl (by decide)
  · exact hnew.refuse rfl (by decide)

/-! ## Comprehensions -/

omit hsub [∀ l, Honest (sub l)] in
/-- What is wrong with the parts of a comprehension is told of at one of them, or at the whole. -/
theorem comprehensionShape_error {parts : List ComprehensionPart} {flaw : ComprehensionFlaw} {place : Option Span}
    (h : comprehensionShape parts = .error (flaw, place)) :
    place = none ∧ flaw.isOfPart = false ∨ ∃ x ∈ parts, place = some x.span ∧ flaw.isOfPart = true := by
  have hgen : ∀ g ∈ generatorsOf parts, .generator g ∈ parts := by
    intro g hg
    obtain ⟨x, hx, hxg⟩ := List.mem_filterMap.1 hg
    cases x with
    | generator g' =>
      cases hxg
      exact hx
    | constraint e => cases hxg
  have hcon : ∀ e ∈ constraintsOf parts, .constraint e ∈ parts := by
    intro e he
    obtain ⟨x, hx, hxe⟩ := List.mem_filterMap.1 he
    cases x with
    | generator g => cases hxe
    | constraint e' =>
      cases hxe
      exact hx
  unfold comprehensionShape at h
  split at h
  · cases h
    exact .inl ⟨rfl, rfl⟩
  · rename_i hg
    cases h
    exact .inr ⟨_, hgen _ (by rw [hg]; simp), rfl, rfl⟩
  · cases h
    exact .inl ⟨rfl, rfl⟩
  · rename_i he
    cases h
    exact .inr ⟨_, hcon _ (by rw [he]; simp), rfl, rfl⟩
  · rename_i hg _
    split at h
    · cases h
      exact .inr ⟨_, hgen _ (by rw [hg]; simp), rfl, rfl⟩
    · cases h

omit [∀ l, Honest (sub l)] in
theorem orderly_comprehensionPart : (comprehensionPart sub).Orderly Missing Kind.isInside := by
  intro W r h
  unfold comprehensionPart generator
  simp only [ensures_bind, ensures_current, ensures_peek, ensures_ite, ensures_advance, ensures_expect, ensures_pure]
  split
  · rename_i hk
    obtain ⟨hk1, hk2⟩ := Bool.and_eq_true_iff.1 hk
    have harrow : r.advance.Done W Kind.isInside :=
      (h.advance ((of_decide_eq_true hk1).trans_ne (by decide))).done (by rw [of_decide_eq_true hk2]; rfl)
    split
    · rename_i hident
      exact (harrow.advance rfl).done (by rw [hident]; rfl)
    · exact harrow.refuse rfl (by decide)
  · exact hsub 0 h

/-- What has been told of the parts of a comprehension, up to a reader behind them: each starts from `lo` on,
and what was told of there is no flaw of a comprehension that it is a part of. -/
def PartsTold (lo : Int) (xs : List ComprehensionPart) (s : Reader) : Prop :=
  ∀ x ∈ xs, lo ≤ x.span.start ∧ x.span.start < s.start ∧ ∀ q ∈ s.problems, q.site = x.span.start → q.isPartFlaw = false

variable (hplace : ∀ cs l, (sub l).Places cs Expr.span Expr.outline)
include hplace

/-- Parts are read in turn, and what is told of a part when it is read is told from its start on. -/
theorem parts_told (h : r.Fresh W) : (items .rbracket .comprehensionPart (comprehensionPart sub)).Ensures r
    (fun xs s => s.Fresh W ∧ s.current.kind = .punct .rbracket ∧ PartsTold r.start xs s)
    (fun s => s.Stuck W Kind.isInside) := by
  unfold Rule.items
  simp only [ensures_bind, ensures_pure]
  refine Ensures.loop (P := fun xs m => m.Fresh W ∧ r.start ≤ m.start ∧ PartsTold r.start xs.toList m)
    (fun xs m _ hm => ?_) h.placed.wf ⟨h, Int.le_refl _, fun x hx => absurd hx List.not_mem_nil⟩
  obtain ⟨hm, hle, hxs⟩ := hm
  -- a second vantage at this part tells what was reported while it was read
  have hV : m.Fresh (W.at m m.start) := hm.anew (Int.le_refl _)
  have hpart := ((orderly_comprehensionPart hsub hm.clear).and (orderly_comprehensionPart hsub hV.clear)).and
    (places_comprehensionPart (hplace W.text) m hm.placed)
  unfold itemRound
  simp only [ensures_bind, ensures_peek, ensures_ite, ensures_advance, ensures_current, ensures_pure, ensures_refuse]
  refine hpart.mono ?_ (fun _ h => h.1.1)
  rintro x n ⟨⟨hn, hnV⟩, hx⟩
  have hpush : ∀ {s : Reader}, n.advance.Leads s → s.reports = n.reports → PartsTold r.start (xs.push x).toList s := by
    intro s hs hrep y hy
    have hprob : s.problems = n.problems := by
      unfold Reader.problems
      rw [hrep]
    have hms : m.start < s.start := by
      have h1 := hm.placed.start_mono hx.leads
      have h2 := hn.clear.start_lt (hn.notEof rfl) hs
      omega
    rw [Array.toList_push, List.mem_append, List.mem_singleton] at hy
    rw [hprob]
    rcases hy with hy | rfl
    · obtain ⟨h1, h2, h3⟩ := hxs y hy
      refine ⟨h1, by omega, fun q hq hsite => ?_⟩
      rcases hnV.clear.known q hq with hq | hq
      · exact h3 q hq hsite
      · have : m.start ≤ q.site := hq.site
        omega
    · have hstart : y.span.start = m.start := by
        rw [hx.span]
        rfl
      refine ⟨by omega, by omega, fun q hq hsite => ?_⟩
      rcases hnV.clear.known q hq with hq | hq
      · -- nothing had been told of the part when it began
        rcases hm.sited q hq with hlt | ⟨-, hq⟩ | ⟨-, hq⟩
        · omega
        · exact hq.elim
        · exact hq.elim
      · exact hq.part (hsite.trans hstart)
  split
  · have hnext := (hn.advance rfl).advance
    split
    · exact hnext.refuse_here
    · refine ⟨hnext, ?_, hpush (.advance _) rfl⟩
      exact Int.le_trans hle (hm.placed.start_mono (hx.leads.trans (.of_advance (.advance _))))
  · split
    · rename_i hclose
      exact ⟨hn.advance rfl, hclose, hpush (.refl _) rfl⟩
    · exact hn.refuse rfl (commaOr_ne _)

omit hsub hplace [∀ l, Honest (sub l)] in
theorem message_ne {f g : ComprehensionFlaw} (hf : f.isOfPart = false) (hg : g.isOfPart = true) :
    f.message ≠ g.message := by
  cases f <;> cases g <;> first | exact absurd hf (by decide) | exact absurd hg (by decide) | decide

omit hsub hplace [∀ l, Honest (sub l)] in
/-- Only flaws of comprehensions agree with a flaw of a comprehension. -/
theorem eq_comprehension {p : Problem} {flaw : ComprehensionFlaw} {span : Span}
    (h : p.error.Agrees (Problem.comprehension flaw span).error) : ∃ f t, p = .comprehension f t := by
  have hcode := h.1
  cases p with
  | comprehension f t => exact ⟨f, t, rfl⟩
  | _ => exact absurd hcode (by simp [Problem.error])

/-- A comprehension that is wrong as a whole tells of it at its bracket, which nothing else has told of as a
flaw; and one with wrong parts at a part, which has told of its own flaws only. -/
theorem orderly_comprehension (h : r.Clear W Missing Nothing) (hk : r.current.kind ≠ .eof) :
    (comprehension sub r.current).Ensures r (fun _ s => s.Done W Kind.isInside)
      (fun s => s.Stuck W Kind.isInside) := by
  have hin : r.advance.advance.advance.Fresh W := (h.advance hk).advance.advance
  unfold comprehension someItems
  simp only [ensures_bind, ensures_advance, ensures_currentIdent, ensures_current, ensures_ite, ensures_refuse]
  split
  · exact hin.refuse_here
  · refine ((parts_told hsub hplace hin).and (parts_told hsub hplace (hin.anew (Int.le_refl _)))).leads.mono ?_
      (fun _ h => h.2.1)
    rintro xs s ⟨hl, ⟨hs, hclose, htold⟩, hs', -⟩
    have hstart : r.start < r.advance.advance.advance.start := h.start_lt hk (.of_advance (.advance _))
    have hlt : r.start < s.start := h.start_lt hk hl.of_advance.of_advance
    have hdone : ∀ {n : Reader}, n.Fresh W → n.current = s.current → n.Done W Kind.isInside := by
      intro n hn hcur
      exact hn.done (by rw [hcur, hclose]; rfl)
    unfold comprehensionOf
    cases hshape : comprehensionShape xs with
    | ok p => exact hdone hs rfl
    | error p =>
      obtain ⟨flaw, place⟩ := p
      simp only [ensures_bind, ensures_report, ensures_pure]
      refine hdone ?_ rfl
      have hsince := h.since
      rcases comprehensionShape_error hshape with ⟨rfl, hflaw⟩ | ⟨x, hx, rfl, hflaw⟩
      · refine hs.report (Problem.IsPlain.since ⟨rfl, hflaw⟩ hsince) (fun q hq hqp => ?_) (.inl hlt) (fun _ h => h)
          fun _ h => h
        -- what was known at the bracket is no flaw of it, and all the rest lies behind it
        have hq' : q.site = r.start := hqp.2.2
        rcases hs'.known q hq with hq | hq
        · obtain ⟨f, t, rfl⟩ := eq_comprehension hqp
          rcases h.sited _ hq with hlt | ⟨-, hq⟩ | ⟨-, hq⟩
          · omega
          · exact absurd hq Problem.not_missing_comprehension
          · exact hq.elim
        · have : r.advance.advance.advance.start ≤ q.site := hq.site
          omega
      · obtain ⟨h1, h2, h3⟩ := htold x hx
        refine hs.report ⟨by show _ ≤ x.span.start; omega, fun _ hs => absurd hs List.not_mem_nil, fun e => ?_⟩
          (fun q hq hqp => ?_) (.inl h2)
          (fun _ h => h) fun _ h => h
        · change x.span.start = _ at e
          omega
        · obtain ⟨f, t, rfl⟩ := eq_comprehension hqp
          exact .inr ⟨rfl, message_ne (h3 _ hq hqp.2.2) hflaw⟩

theorem orderly_listOrComprehension (h : r.Clear W Missing Nothing) (hk : r.current.kind = .punct .lbracket) :
    (listOrComprehension sub).Ensures r (fun _ s => s.Done W Kind.isInside) (fun s => s.Stuck W Kind.isInside) := by
  have hne : r.current.kind ≠ .eof := hk.trans_ne (by decide)
  unfold listOrComprehension
  simp only [ensures_bind, ensures_current]
  refine looks_opensComprehension.ensures_clear h fun m hl hm => ?_
  rw [← hl.current] at hne ⊢
  split
  · exact orderly_comprehension hsub hplace hm hne
  · simp only [ensures_bind, ensures_advance, ensures_current, ensures_pure]
    refine ((hsub 0).manyItems rfl (hm.advance hne)).mono (fun elems s hs => ?_) (fun _ h => h)
    exact hs.1.done (by rw [hs.2]; rfl)

/-! ## Expressions -/

omit hsub hplace [∀ l, Honest (sub l)] in
theorem orderly_noExpr : noExpr.Orderly Missing Kind.isInside := by
  intro W r h
  unfold noExpr
  simp only [ensures_bind, ensures_current, ensures_report, ensures_fail]
  refine (h.report_here ⟨rfl, rfl⟩ rfl ?_).stuck
  rintro q (hq | hq) hqp
  · exact Problem.not_missing_unexpected (hq.of_agrees hqp)
  · exact hq

theorem orderly_primary : (primary sub).Orderly Missing Kind.isInside := by
  intro W r h
  have hleaf : r.current.kind.isInside = true → r.Done W Kind.isInside := h.done
  unfold primary
  rw [ensures_bind, ensures_current]
  split
  all_goals rename_i hk
  · exact orderly_nameOrCall hsub h hk
  · exact hleaf (by rw [hk]; rfl)
  · exact hleaf (by rw [hk]; rfl)
  · exact hleaf (by rw [hk]; rfl)
  · exact hleaf (by rw [hk]; rfl)
  · exact hleaf (by rw [hk]; rfl)
  · exact orderly_construct hsub h hk
  · exact orderly_unary hsub h (hk.trans_ne (by decide))
  · exact orderly_unary hsub h (hk.trans_ne (by decide))
  · exact orderly_parenOrCast hsub h hk
  · exact orderly_listOrComprehension hsub hplace h hk
  · exact orderly_noExpr h

omit hplace in
theorem orderly_operators {level : Nat} {left : Expr} (h : r.Done W Kind.isInside) :
    (operators sub level left).Ensures r (fun _ s => s.Done W Kind.isInside) (fun s => s.Stuck W Kind.isInside) := by
  unfold operators
  refine Ensures.loop (P := fun _ m => m.Done W Kind.isInside) (fun e m _ hm => ?_) h.clear.placed.wf h
  unfold operatorRound
  simp only [ensures_bind, ensures_peek]
  split
  · exact hm
  · simp only [ensures_ite, ensures_bind, ensures_advance, ensures_pure]
    split
    · exact (hsub _ (hm.advance rfl).advance.clear).mono (fun _ _ h => h) (fun _ h => h)
    · exact hm

end Operands

theorem orderly_exprAt (depth level : Nat) : (exprAt depth level).Orderly Missing Kind.isInside := by
  induction depth generalizing level with
  | zero => exact orderly_noExpr
  | succ depth ih =>
    intro W r h
    unfold exprAt
    rw [ensures_bind]
    refine (orderly_primary ih (fun _ => places_exprAt depth) h).mono (fun left m hm => ?_) (fun _ h => h)
    exact orderly_operators ih hm

theorem orderly_expr : expr.Orderly Missing Kind.isInside := fun _ _ h =>
  Ensures.of_budget (x := (exprAt · 0)) (orderly_exprAt _ 0 h)

end Rule
end SemFront
