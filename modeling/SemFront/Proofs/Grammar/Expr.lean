/-
Reading expressions: what each rule does, and that what is read without reports is canonical and
spells the tokens read.
-/
import SemFront.Grammar.Expr
import SemFront.Proofs.Grammar.Name

namespace SemFront

/-- The operator of a kind of token is the one that is written so. -/
theorem BinaryOp.ofKind?_eq_some {k : Kind} {op : BinaryOp} :
    BinaryOp.ofKind? k = some op ↔ ∃ p, op.punct? = some p ∧ k = .punct p := by
  constructor
  · intro h
    unfold BinaryOp.ofKind? at h
    split at h
    all_goals cases h
    all_goals exact ⟨_, rfl, rfl⟩
  · rintro ⟨p, h, rfl⟩
    cases op <;> cases h <;> rfl

namespace Rule

/-! ## What each rule reads -/

section Rules

variable {sub : Nat → Rule Expr} [∀ n, Honest (sub n)] {r s : Reader} {e : Expr}

instance : Honest (unary sub) := by unfold unary; infer_instance

instance : Honest opensCast := by unfold opensCast; infer_instance

instance {t : Token} : Honest (cast sub t) := by unfold cast; infer_instance

instance : Honest (parenOrCast sub) := by unfold parenOrCast; infer_instance

instance : Honest (nameOrCall sub) := by unfold nameOrCall; infer_instance

instance : Honest generator := by unfold generator; infer_instance

instance : Honest (comprehensionPart sub) := by unfold comprehensionPart; infer_instance

instance {i : Ident} {ps : List ComprehensionPart} {t : Span} : Honest (comprehensionOf i ps t) := by
  unfold comprehensionOf
  split <;> infer_instance

instance {t : Token} : Honest (comprehension sub t) := by unfold comprehension; infer_instance

instance : Honest opensComprehension := by unfold opensComprehension; infer_instance

instance : Honest (listOrComprehension sub) := by unfold listOrComprehension; infer_instance

instance : Honest (propertyInit sub) := by unfold propertyInit; infer_instance

instance : Honest (construct sub) := by unfold construct; infer_instance

instance : Honest noExpr := by unfold noExpr; infer_instance

instance : Honest (primary sub) := by
  unfold primary
  refine @Honest.bind _ _ _ _ inferInstance fun t => ?_
  split <;> infer_instance

instance {n : Nat} {left : Expr} : Honest (operatorRound sub n left) := by
  unfold operatorRound
  refine @Honest.bind _ _ _ _ inferInstance fun t => ?_
  split <;> infer_instance

instance {n : Nat} : Honest (operators sub n e) := by unfold operators; infer_instance

theorem reads_unary : (unary sub).Reads r e s ↔ ∃ x, (sub operandLevel).Reads r.advance x s ∧
    e = if r.current.kind = .punct .bang then .not x (r.current.span.through x.span)
      else .neg x (r.current.span.through x.span) := by
  unfold unary
  simp only [reads_bind, reads_current, exists_eq_and_eq, reads_advance, exists_unit_eq, reads_pure]
  constructor
  · rintro ⟨x, m, h, rfl, rfl⟩
    exact ⟨x, h, rfl⟩
  · rintro ⟨x, h, rfl⟩
    exact ⟨x, s, h, rfl, rfl⟩

theorem looks_opensCast : opensCast.Looks fun r => decide (r.advance.current.kind = .ident ∧
    r.advance.advance.current.kind = .punct .rparen ∧
    r.advance.advance.advance.current.kind.startsExpr = true) := by
  intro r
  unfold opensCast
  simp only [reads_bind, reads_peek, exists_eq_and_eq, reads_ite, reads_ahead, reads_pure, Reader.peek_eq,
    Reader.ahead_succ, Reader.ahead_zero]
  by_cases h1 : r.advance.current.kind = .ident
  · by_cases h2 : r.advance.advance.current.kind = .punct .rparen
    · refine ⟨(r.look 1).look 2, ?_, (Reader.Looked.look r 1).trans (.look _ 2)⟩
      simp only [h1, h2, ne_eq, not_true_eq_false, if_false, and_true, true_and]
      cases h : r.advance.advance.advance.current.kind.startsExpr with
      | false => exact h.symm
      | true => exact h.symm
    · exact ⟨r.look 1, by simp [h1, h2], .look r 1⟩
  · exact ⟨r, by simp [h1], .refl r⟩

theorem reads_cast {t : Token} : (cast sub t).Reads r e s ↔ ∃ x, (sub operandLevel).Reads r.advance.advance.advance x s ∧
    e = .cast (some r.advance.current.ident) x (t.span.through x.span) := by
  unfold cast
  simp only [reads_bind, reads_currentIdent, exists_eq_and_eq, reads_advance, exists_unit_eq, reads_pure]
  constructor
  · rintro ⟨x, m, h, rfl, rfl⟩
    exact ⟨x, h, rfl⟩
  · rintro ⟨x, h, rfl⟩
    exact ⟨x, s, h, rfl, rfl⟩

theorem reads_parenOrCast : (parenOrCast sub).Reads r e s ↔ ∃ m,
    (opensCast.Reads r true m ∧ (cast sub r.current).Reads m e s) ∨
    (opensCast.Reads r false m ∧ ∃ x n, (sub 0).Reads m.advance x n ∧ n.advance.current.kind = .punct .rparen ∧
      s = n.advance ∧ e = .paren x (r.current.span.through n.advance.current.span)) := by
  unfold parenOrCast
  simp only [reads_bind, reads_current, exists_eq_and_eq, reads_ite, reads_advance, exists_unit_eq, reads_expect,
    exists_unit_and_eq, reads_pure, Reader.peek_eq]
  constructor
  · rintro ⟨b, m, hb, h⟩
    cases b with
    | true => exact ⟨m, .inl ⟨hb, by simpa using h⟩⟩
    | false =>
      obtain ⟨x, n, hx, hk, rfl, rfl⟩ : ∃ x n, (sub 0).Reads m.advance x n ∧ n.advance.current.kind = .punct .rparen ∧
        e = .paren x (r.current.span.through n.advance.current.span) ∧ s = n.advance := by simpa using h
      exact ⟨m, .inr ⟨hb, x, n, hx, hk, rfl, rfl⟩⟩
  · rintro ⟨m, ⟨hb, h⟩ | ⟨hb, x, n, hx, hk, rfl, rfl⟩⟩
    · exact ⟨true, m, hb, by simpa using h⟩
    · refine ⟨false, m, hb, ?_⟩
      rw [if_neg Bool.false_ne_true]
      exact ⟨x, n, hx, hk, rfl, rfl⟩

theorem reads_nameOrCall : (nameOrCall sub).Reads r e s ↔ ∃ n m, dottedName.Reads r n m ∧
    ((m.advance.current.kind ≠ .punct .lparen ∧ e = .varRef (some n) n.span ∧ s = m) ∨
     (m.advance.current.kind = .punct .lparen ∧
      ∃ es, (manyItems .rparen .argument (sub 0)).Reads m.advance.advance es s ∧
        e = .call (some n) es (n.span.through s.current.span))) := by
  unfold nameOrCall
  simp only [reads_bind, reads_peek, reads_current, exists_eq_and_eq, reads_ite, reads_advance, exists_unit_eq,
    reads_pure, Reader.peek_eq]
  constructor
  · rintro ⟨n, m, hn, h⟩
    refine ⟨n, m, hn, ?_⟩
    split at h
    · rename_i hk
      exact .inl ⟨hk, h⟩
    · rename_i hk
      obtain ⟨es, q, hes, rfl, rfl⟩ := h
      exact .inr ⟨Decidable.not_not.1 hk, es, hes, rfl⟩
  · rintro ⟨n, m, hn, ⟨hk, h⟩ | ⟨hk, es, hes, rfl⟩⟩
    · refine ⟨n, m, hn, ?_⟩
      rw [if_pos hk]
      exact h
    · refine ⟨n, m, hn, ?_⟩
      rw [if_neg (by simpa using hk)]
      exact ⟨es, s, hes, rfl, rfl⟩

/-- Parts without generators are constraints. -/
theorem eq_constraints_of_generatorsOf : ∀ ps : List ComprehensionPart, generatorsOf ps = [] →
    ps = (constraintsOf ps).map .constraint
  | [], _ => rfl
  | .generator g :: ps, h => by cases h
  | .constraint e :: ps, h => by
    have ih := eq_constraints_of_generatorsOf ps h
    exact congrArg (.constraint e :: ·) ih

theorem comprehensionShape_eq_ok {ps : List ComprehensionPart} {g : Generator} :
    comprehensionShape ps = .ok (g, e) ↔ ps = [.generator g, .constraint e] := by
  constructor
  · intro h
    unfold comprehensionShape at h
    split at h
    any_goals cases h
    rename_i g' e' hg he
    split at h
    · cases h
    · rename_i hne
      cases h
      match ps with
      | [] => cases hg
      | .constraint c :: ps => exact absurd rfl (hne c ps)
      | .generator g' :: ps =>
        obtain ⟨hg1, hg2⟩ := List.cons.inj hg
        have he : constraintsOf ps = [e] := he
        rw [eq_constraints_of_generatorsOf _ hg2, he, hg1]
        rfl
  · rintro rfl
    rfl

theorem reads_comprehensionOf {i : Ident} {ps : List ComprehensionPart} {t : Span} :
    (comprehensionOf i ps t).Reads r e s ↔ ∃ g c, ps = [.generator g, .constraint c] ∧
      e = .comprehension (some i) (some g) c t ∧ s = r := by
  simp only [← comprehensionShape_eq_ok]
  unfold comprehensionOf
  cases comprehensionShape ps with
  | ok p =>
    obtain ⟨g, c⟩ := p
    simp only [reads_pure, Except.ok.injEq, Prod.mk.injEq]
    constructor
    · rintro ⟨rfl, rfl⟩
      exact ⟨g, c, ⟨rfl, rfl⟩, rfl, rfl⟩
    · rintro ⟨g, c, ⟨rfl, rfl⟩, rfl, rfl⟩
      exact ⟨rfl, rfl⟩
  | error p => simp

theorem reads_comprehension {t : Token} : (comprehension sub t).Reads r e s ↔ ∃ g c,
    (someItems .rbracket .comprehensionPart (comprehensionPart sub)).Reads r.advance.advance.advance
      [.generator g, .constraint c] s ∧
    e = .comprehension (some r.advance.current.ident) (some g) c (t.span.through s.current.span) := by
  unfold comprehension
  simp only [reads_bind, reads_current, reads_currentIdent, exists_eq_and_eq, reads_advance, exists_unit_eq,
    reads_comprehensionOf]
  constructor
  · rintro ⟨ps, m, h, g, c, rfl, rfl, rfl⟩
    exact ⟨g, c, h, rfl⟩
  · rintro ⟨g, c, h, rfl⟩
    exact ⟨_, s, h, g, c, rfl, rfl, rfl⟩

theorem reads_comprehensionPart {p : ComprehensionPart} : (comprehensionPart sub).Reads r p s ↔
    (r.current.kind = .ident ∧ r.advance.current.kind = .punct .leftArrow ∧
      r.advance.advance.current.kind = .ident ∧
      p = .generator ⟨some r.current.ident, some r.advance.advance.current.ident,
        r.current.span.through r.advance.advance.current.span⟩ ∧ s = r.advance.advance) ∨
    (¬ (r.current.kind = .ident ∧ r.advance.current.kind = .punct .leftArrow) ∧
      ∃ x, (sub 0).Reads r x s ∧ p = .constraint x) := by
  unfold comprehensionPart generator
  simp only [reads_bind, reads_current, reads_peek, exists_eq_and_eq, reads_ite, reads_advance, exists_unit_eq,
    reads_expect, exists_unit_and_eq, reads_pure, Reader.peek_eq, Bool.and_eq_true, decide_eq_true_eq]
  split
  · rename_i h
    simp only [h, and_self, not_true_eq_false, false_and, or_false, true_and]
    constructor
    · rintro ⟨g, m, ⟨hk, rfl, rfl⟩, rfl, rfl⟩
      exact ⟨hk, rfl, rfl⟩
    · rintro ⟨hk, rfl, rfl⟩
      exact ⟨_, _, ⟨hk, rfl, rfl⟩, rfl, rfl⟩
  · rename_i h
    constructor
    · rintro ⟨x, m, hx, rfl, rfl⟩
      exact .inr ⟨h, x, hx, rfl⟩
    · rintro (⟨h1, h2, -⟩ | ⟨-, x, hx, rfl⟩)
      · exact absurd ⟨h1, h2⟩ h
      · exact ⟨x, s, hx, rfl, rfl⟩


theorem looks_opensComprehension : opensComprehension.Looks fun r => decide (r.advance.current.kind = .ident ∧
    r.advance.advance.current.kind = .punct .pipe) := by
  intro r
  unfold opensComprehension
  simp only [reads_bind, reads_peek, exists_eq_and_eq, reads_ite, reads_ahead, reads_pure, Reader.peek_eq,
    Reader.ahead_succ, Reader.ahead_zero]
  by_cases h : r.advance.current.kind = .ident
  · exact ⟨r.look 1, by simp [h], .look r 1⟩
  · exact ⟨r, by simp [h], .refl r⟩

theorem reads_listOrComprehension : (listOrComprehension sub).Reads r e s ↔ ∃ m,
    (opensComprehension.Reads r true m ∧ (comprehension sub r.current).Reads m e s) ∨
    (opensComprehension.Reads r false m ∧ ∃ es, (manyItems .rbracket .listElement (sub 0)).Reads m.advance es s ∧
      e = .list es (r.current.span.through s.current.span)) := by
  unfold listOrComprehension
  simp only [reads_bind, reads_current, exists_eq_and_eq, reads_ite, reads_advance, exists_unit_eq, reads_pure]
  constructor
  · rintro ⟨b, m, hb, h⟩
    cases b with
    | true =>
      rw [if_pos rfl] at h
      exact ⟨m, .inl ⟨hb, h⟩⟩
    | false =>
      rw [if_neg Bool.false_ne_true] at h
      obtain ⟨es, n, hes, rfl, rfl⟩ := h
      exact ⟨m, .inr ⟨hb, es, hes, rfl⟩⟩
  · rintro ⟨m, ⟨hb, h⟩ | ⟨hb, es, hes, rfl⟩⟩
    · refine ⟨true, m, hb, ?_⟩
      rw [if_pos rfl]
      exact h
    · refine ⟨false, m, hb, ?_⟩
      rw [if_neg Bool.false_ne_true]
      exact ⟨es, s, hes, rfl, rfl⟩

theorem reads_propertyInit {i : Initializer} : (propertyInit sub).Reads r i s ↔ r.current.kind = .ident ∧
    r.advance.current.kind = .punct .assign ∧ ∃ v, (sub 0).Reads r.advance.advance v s ∧
      i = .mk (some r.current.ident) v (r.current.span.through v.span) := by
  unfold propertyInit
  simp only [reads_bind, reads_current, exists_eq_and_eq, reads_ite, reads_advance, exists_unit_eq, reads_expect,
    exists_unit_and_eq, not_reads_refuse, reads_pure, Reader.peek_eq]
  constructor
  · intro h
    split at h
    · exact h.elim
    · rename_i hk
      obtain ⟨ha, v, m, hv, rfl, rfl⟩ := h
      exact ⟨Decidable.not_not.1 hk, ha, v, hv, rfl⟩
  · rintro ⟨hk, ha, v, hv, rfl⟩
    rw [if_neg (by simpa using hk)]
    exact ⟨ha, v, s, hv, rfl, rfl⟩

theorem reads_construct : (construct sub).Reads r e s ↔ r.advance.current.kind = .ident ∧
    r.advance.advance.current.kind = .punct .lparen ∧
    ∃ is, (manyItems .rparen .initializer (propertyInit sub)).Reads r.advance.advance.advance is s ∧
      e = .construct (some r.advance.current.ident) is (r.current.span.through s.current.span) := by
  unfold construct
  simp only [reads_bind, reads_current, reads_currentIdent, exists_eq_and_eq, reads_advance, exists_unit_eq,
    reads_expect, exists_unit_and_eq, reads_pure, Reader.peek_eq]
  constructor
  · rintro ⟨h1, h2, is, m, his, rfl, rfl⟩
    exact ⟨h1, h2, is, his, rfl⟩
  · rintro ⟨h1, h2, is, his, rfl⟩
    exact ⟨h1, h2, is, s, his, rfl, rfl⟩

theorem reads_operatorRound_again {n : Nat} {left : Expr} :
    (operatorRound sub n left).Reads r (.again e) s ↔ ∃ op x, BinaryOp.ofKind? r.advance.current.kind = some op ∧
      n < op.level ∧ (sub op.level).Reads r.advance.advance x s ∧
      e = .binary op left x (left.span.through x.span) := by
  unfold operatorRound
  rw [reads_peek_bind, Reader.peek_eq]
  cases hk : BinaryOp.ofKind? r.advance.current.kind with
  | none => simp
  | some op =>
    simp only [reads_bind, reads_ite, reads_advance, exists_unit_eq, reads_pure, Round.again.injEq, reduceCtorEq,
      false_and, Option.some.injEq]
    constructor
    · intro h
      split at h
      · rename_i hn
        obtain ⟨x, m, hx, rfl, rfl⟩ := h
        exact ⟨op, x, rfl, hn, hx, rfl⟩
      · exact h.elim
    · rintro ⟨op, x, rfl, hn, hx, rfl⟩
      rw [if_pos hn]
      exact ⟨x, s, hx, rfl, rfl⟩

theorem reads_operatorRound_stop {n : Nat} {left : Expr} :
    (operatorRound sub n left).Reads r (.stop e) s ↔
      (∀ op, BinaryOp.ofKind? r.advance.current.kind = some op → op.level ≤ n) ∧ e = left ∧ s = r := by
  unfold operatorRound
  rw [reads_peek_bind, Reader.peek_eq]
  cases hk : BinaryOp.ofKind? r.advance.current.kind with
  | none => simp
  | some op =>
    simp only [reads_bind, reads_ite, reads_advance, reads_pure, Round.stop.injEq, reduceCtorEq, false_and, and_false,
      exists_false, Option.some.injEq]
    constructor
    · intro h
      split at h
      · exact h.elim
      · rename_i hn
        refine ⟨?_, h⟩
        rintro op rfl
        exact Nat.le_of_not_lt hn
    · rintro ⟨hn, h⟩
      rw [if_neg (Nat.not_lt.2 (hn op rfl))]
      exact h

end Rules

instance exprAt_honest : ∀ d l, Honest (exprAt d l)
  | 0, l => by unfold exprAt; infer_instance
  | d + 1, l => by
    have := exprAt_honest d
    unfold exprAt
    infer_instance

instance : Honest expr where
  leads r := (exprAt_honest (r.budget + 1) 0).leads r
  speaks r s h := (exprAt_honest (r.budget + 1) 0).speaks r s h

/-! ## Soundness -/

/-- What holds of an expression without operators around it that was read without reports. -/
structure ReadsOperand (r : Reader) (e : Expr) (s : Reader) : Prop where
  canonical : e.Canonical
  spells : Spells r.rest e.lexemes s.advance.rest
  notBinary : e.isBinary = false
  noCast : e.endsInParenName = true → s.advance.current.kind.startsExpr = false

/-- What holds of an expression that was read without reports by a rule for operators above a level. -/
structure ReadsExpr (level : Nat) (r : Reader) (e : Expr) (s : Reader) : Prop where
  canonical : e.Canonical
  spells : Spells r.rest e.lexemes s.advance.rest
  above : e.isBinary = true → level < e.level
  ends : ∀ op, BinaryOp.ofKind? s.advance.current.kind = some op → op.level ≤ level
  noCast : e.endsInParenName = true → s.advance.current.kind.startsExpr = false

theorem ReadsExpr.notBinary {r s : Reader} {e : Expr} (h : ReadsExpr operandLevel r e s) : e.isBinary = false := by
  cases he : e.isBinary with
  | false => rfl
  | true =>
    have := Expr.isBinary_of_level (Nat.le_of_lt (h.above he))
    rw [he] at this
    cases this

section Sound

variable {sub : Nat → Rule Expr} [∀ n, Honest (sub n)] {r s : Reader} {e : Expr}

/-- The rule for the expressions inside reads soundly. -/
def SoundSub (sub : Nat → Rule Expr) : Prop :=
  ∀ ⦃n r e s⦄, r.WF → (sub n).Reads r e s → ReadsExpr n r e s

omit [∀ n, Honest (sub n)] in
theorem SoundSub.sound (hsub : SoundSub sub) (n : Nat) : (sub n).Sound Expr.lexemes Expr.Canonical :=
  fun _ _ _ hr h => ⟨(hsub hr h).canonical, (hsub hr h).spells⟩

theorem sound_unary (hsub : SoundSub sub) (hr : r.WF)
    (hk : r.current.kind = .punct .bang ∨ r.current.kind = .punct .minus) (h : (unary sub).Reads r e s) :
    ReadsOperand r e s := by
  obtain ⟨x, hx, rfl⟩ := reads_unary.1 h
  have hx := hsub hr.advance hx
  rcases hk with hk | hk
  · rw [if_pos hk]
    exact ⟨.not hx.canonical hx.notBinary, hr.spells_punct hk hx.spells, rfl, hx.noCast⟩
  · rw [if_neg (by rw [hk]; exact nofun)]
    exact ⟨.neg hx.canonical hx.notBinary, hr.spells_punct hk hx.spells, rfl, hx.noCast⟩

theorem sound_nameOrCall (hsub : SoundSub sub) (hr : r.WF) (h : (nameOrCall sub).Reads r e s) :
    ReadsOperand r e s := by
  obtain ⟨n, m, hn, h⟩ := reads_nameOrCall.1 h
  obtain ⟨hc, hs, -⟩ := sound_dottedName hr hn
  have hm := hn.leads.wf hr
  rcases h with ⟨-, rfl, rfl⟩ | ⟨hk, es, hes, rfl⟩
  · exact ⟨.varRef hc, hs, rfl, nofun⟩
  · obtain ⟨he, hl⟩ := (hsub.sound 0).manyItems (by decide) hm.advance.advance hes
    refine ⟨.call hc he, ?_, rfl, nofun⟩
    simp only [Expr.lexemes, Name.lexemes?, Expr.lexemesAll_eq, List.cons_append, List.append_assoc]
    exact hs.append (hm.advance.spells_punct hk hl)

/-- A cast is read as one, and a name in parentheses is read only if nothing behind it makes a cast. -/
theorem sound_parenOrCast (hsub : SoundSub sub) (hr : r.WF) (hk : r.current.kind = .punct .lparen)
    (h : (parenOrCast sub).Reads r e s) : ReadsOperand r e s := by
  obtain ⟨m, ⟨ho, h⟩ | ⟨ho, x, n, hx, hc, rfl, rfl⟩⟩ := reads_parenOrCast.1 h
  · obtain ⟨hb, hl⟩ := looks_opensCast.eq ho
    obtain ⟨h1, h2, -⟩ := of_decide_eq_true hb.symm
    obtain ⟨x, hx, rfl⟩ := reads_cast.1 h
    have hx := hsub (ho.leads.wf hr).advance.advance.advance hx
    rw [hl.advance.current]
    refine ⟨.cast (hr.advance.ident_canonical h1) hx.canonical hx.notBinary, ?_, rfl, hx.noCast⟩
    refine hr.spells_punct hk (hr.advance.spells_ident h1 (hr.advance.advance.spells_punct h2 ?_))
    rw [← hl.advance.advance.advance.rest]
    exact hx.spells
  · obtain ⟨hb, hl⟩ := looks_opensCast.eq ho
    have hm := ho.leads.wf hr
    have hn := hx.leads.wf hm.advance
    have hx := hsub hm.advance hx
    refine ⟨.paren hx.canonical, ?_, rfl, ?_⟩
    · refine hr.spells_punct hk (Spells.append ?_ (hn.advance.spells_punct hc (spells_nil.2 rfl)))
      rw [← hl.advance.rest]
      exact hx.spells
    · -- the tokens are `(`, one identifier and `)`, and still no cast was seen
      intro he
      obtain ⟨n', t, rfl, hp⟩ : ∃ n' t, x = .varRef (some n') t ∧ n'.parts.length = 1 := by
        cases x with
        | varRef o t =>
          cases o with
          | some n' => exact ⟨n', t, rfl, by simpa [Expr.endsInParenName] using he⟩
          | none => cases he
        | _ => cases he
      obtain ⟨i, hi⟩ := List.length_eq_one_iff.1 hp
      have hs : Spells m.advance.rest [.ident i.name] n.advance.rest := by
        simpa [Expr.lexemes, Name.lexemes?, Name.lexemes, hi, Lexeme.joined] using hx.spells
      obtain ⟨h1, hs⟩ := Reader.of_spells_cons hs
      have hs := spells_nil.1 hs
      have hk1 : r.advance.current.kind = .ident := by
        rw [← hl.advance.current]
        exact congrArg Lexeme.kind h1
      have hr2 : r.advance.advance.rest = n.advance.rest := hl.advance.advance.rest.symm.trans hs
      have hk2 : r.advance.advance.current.kind = .punct .rparen := by
        rw [hr.advance.advance.current_kind, hr2, ← hn.advance.current_kind, hc]
      have hk3 : n.advance.advance.current.kind = r.advance.advance.advance.current.kind := by
        rw [hn.advance.advance.current_kind, hr.advance.advance.advance.current_kind]
        exact congrArg headKind (congrArg List.tail hr2).symm
      rw [hk3]
      simpa [hk1, hk2] using hb

def ComprehensionPart.lexemes : ComprehensionPart → List Lexeme
  | .generator g => g.lexemes
  | .constraint e => e.lexemes

/-- A generator with both its names, or a canonical constraint. -/
def ComprehensionPart.Canonical : ComprehensionPart → Prop
  | .generator g => ∃ y z, g.element = some y ∧ g.source = some z ∧ y.Canonical ∧ z.Canonical
  | .constraint e => e.Canonical

theorem sound_comprehensionPart (hsub : SoundSub sub) :
    (comprehensionPart sub).Sound ComprehensionPart.lexemes ComprehensionPart.Canonical := by
  intro r p s hr h
  rcases reads_comprehensionPart.1 h with ⟨h1, h2, h3, rfl, rfl⟩ | ⟨-, x, hx, rfl⟩
  · refine ⟨⟨_, _, rfl, rfl, hr.ident_canonical h1, hr.advance.advance.ident_canonical h3⟩, ?_⟩
    exact hr.spells_ident h1 (hr.advance.spells_punct h2 (hr.advance.advance.spells_ident h3 (spells_nil.2 rfl)))
  · exact ⟨(hsub hr hx).canonical, (hsub hr hx).spells⟩

theorem sound_listOrComprehension (hsub : SoundSub sub) (hr : r.WF) (hk : r.current.kind = .punct .lbracket)
    (h : (listOrComprehension sub).Reads r e s) : ReadsOperand r e s := by
  obtain ⟨m, ⟨ho, h⟩ | ⟨ho, es, hes, rfl⟩⟩ := reads_listOrComprehension.1 h
  · obtain ⟨hb, hl⟩ := looks_opensComprehension.eq ho
    obtain ⟨h1, h2⟩ := of_decide_eq_true hb.symm
    obtain ⟨g, c, hp, rfl⟩ := reads_comprehension.1 h
    obtain ⟨-, hP, hs⟩ := (sound_comprehensionPart hsub).items (by decide)
      (ho.leads.wf hr).advance.advance.advance (reads_someItems.1 hp).2
    obtain ⟨y, z, hy, hz, hyc, hzc⟩ : ComprehensionPart.Canonical (.generator g) := hP _ (by simp)
    have hc : c.Canonical := hP (.constraint c) (by simp)
    obtain ⟨gy, gz, gs⟩ := g
    subst hy hz
    rw [hl.advance.current]
    refine ⟨.comprehension (hr.advance.ident_canonical h1) hyc hzc hc, ?_, rfl, fun h => by cases h⟩
    refine hr.spells_punct hk (hr.advance.spells_ident h1 (hr.advance.advance.spells_punct h2 ?_))
    rw [← hl.advance.advance.advance.rest]
    simpa [Lexeme.joined, ComprehensionPart.lexemes] using hs
  · obtain ⟨-, hl⟩ := looks_opensComprehension.eq ho
    obtain ⟨he, hs⟩ := (hsub.sound 0).manyItems (by decide) (ho.leads.wf hr).advance hes
    refine ⟨.list he, ?_, rfl, fun h => by cases h⟩
    simp only [Expr.lexemes, Expr.lexemesAll_eq, List.cons_append]
    refine hr.spells_punct hk ?_
    rw [← hl.advance.rest]
    exact hs

theorem sound_propertyInit (hsub : SoundSub sub) : (propertyInit sub).Sound Initializer.lexemes
    (fun i => (∃ x, i.name = some x ∧ x.Canonical) ∧ i.value.Canonical) := by
  intro r i s hr h
  obtain ⟨h1, h2, v, hv, rfl⟩ := reads_propertyInit.1 h
  have hv := hsub hr.advance.advance hv
  exact ⟨⟨⟨_, rfl, hr.ident_canonical h1⟩, hv.canonical⟩, hr.spells_ident h1 (hr.advance.spells_punct h2 hv.spells)⟩

theorem sound_construct (hsub : SoundSub sub) (hr : r.WF) (hk : r.current.kind = .keyword .new)
    (h : (construct sub).Reads r e s) : ReadsOperand r e s := by
  obtain ⟨h1, h2, is, his, rfl⟩ := reads_construct.1 h
  obtain ⟨hi, hs⟩ := (sound_propertyInit hsub).manyItems (by decide) hr.advance.advance.advance his
  refine ⟨.construct (hr.advance.ident_canonical h1) (fun i h => (hi i h).1) (fun i h => (hi i h).2), ?_, rfl, nofun⟩
  simp only [Expr.lexemes, Ident.lexemes?, Initializer.lexemesAll_eq, List.cons_append, List.nil_append]
  exact hr.spells_keyword hk (hr.advance.spells_ident h1 (hr.advance.advance.spells_punct h2 hs))

/-- A token that is an expression by itself. -/
theorem ReadsOperand.of_token (hr : r.WF) (hne : r.current.kind ≠ .eof) (hc : e.Canonical)
    (hl : e.lexemes = [r.current.lexeme]) (hb : e.isBinary = false) (hp : e.endsInParenName = false) :
    ReadsOperand r e r := by
  refine ⟨hc, ?_, hb, by simp [hp]⟩
  rw [hl]
  exact hr.spells_current hne (spells_nil.2 rfl)

theorem sound_primary (hsub : SoundSub sub) (hr : r.WF) (h : (primary sub).Reads r e s) : ReadsOperand r e s := by
  unfold primary at h
  rw [reads_current_bind] at h
  split at h
  · exact sound_nameOrCall hsub hr h
  · rename_i hk
    obtain ⟨rfl, rfl⟩ := reads_pure.1 h
    have hne : s.current.kind ≠ .eof := by rw [hk]; exact nofun
    obtain ⟨hi, hl⟩ := (hr.current_wf hne).valid.int hk
    rw [Token.literal_of_ne_string (by rw [hk]; exact nofun)]
    exact .of_token hr hne (.int hi) (by rw [hl]; rfl) rfl rfl
  · rename_i hk
    obtain ⟨rfl, rfl⟩ := reads_pure.1 h
    have hne : s.current.kind ≠ .eof := by rw [hk]; exact nofun
    obtain ⟨hi, hl⟩ := (hr.current_wf hne).valid.float hk
    rw [Token.literal_of_ne_string (by rw [hk]; exact nofun)]
    exact .of_token hr hne (.float hi) (by rw [hl]; rfl) rfl rfl
  · rename_i hk
    obtain ⟨rfl, rfl⟩ := reads_pure.1 h
    have hne : s.current.kind ≠ .eof := by rw [hk]; exact nofun
    obtain ⟨q, hq, hqq, hv, hl⟩ := Token.lexeme_string (hr.current_wf hne).valid hk
    rw [hq]
    exact .of_token hr hne (.string hqq hv) (by rw [hl]; rfl) rfl rfl
  · rename_i hk
    obtain ⟨rfl, rfl⟩ := reads_pure.1 h
    have hne : s.current.kind ≠ .eof := by rw [hk]; exact nofun
    exact .of_token hr hne .bool (by rw [(hr.current_wf hne).valid.keyword hk]; rfl) rfl rfl
  · rename_i hk
    obtain ⟨rfl, rfl⟩ := reads_pure.1 h
    have hne : s.current.kind ≠ .eof := by rw [hk]; exact nofun
    exact .of_token hr hne .bool (by rw [(hr.current_wf hne).valid.keyword hk]; rfl) rfl rfl
  · rename_i hk
    exact sound_construct hsub hr hk h
  · rename_i hk
    exact sound_unary hsub hr (.inl hk) h
  · rename_i hk
    exact sound_unary hsub hr (.inr hk) h
  · rename_i hk
    exact sound_parenOrCast hsub hr hk h
  · rename_i hk
    exact sound_listOrComprehension hsub hr hk h
  · exact absurd h (by simp [noExpr])

/-- Operators behind an operand: each new one binds no tighter than what stands to its left. -/
theorem sound_operators (hsub : SoundSub sub) {n : Nat} {m : Reader} {left : Expr} (hm : m.WF)
    (hl : ReadsOperand r left m) (h : (operators sub n left).Reads m e s) : ReadsExpr n r e s := by
  have hstart : ∀ op, BinaryOp.ofKind? m.advance.current.kind = some op → op.level ≤ left.level := by
    intro op _
    rw [Expr.level_of_not_binary hl.notBinary]
    exact Nat.le_of_lt op.level_lt
  refine Reads.of_loop h hm.budget
    (P := fun x q => q.WF ∧ x.Canonical ∧ Spells r.rest x.lexemes q.advance.rest ∧ (x.isBinary = true → n < x.level) ∧
      (∀ op, BinaryOp.ofKind? q.advance.current.kind = some op → op.level ≤ x.level) ∧
      (x.endsInParenName = true → q.advance.current.kind.startsExpr = false))
    (Q := fun x q => ReadsExpr n r x q)
    ⟨hm, hl.canonical, hl.spells, by simp [hl.notBinary], hstart, hl.noCast⟩ ?_ ?_
  · rintro x q y q' ⟨hq, hxc, hxs, hxn, hxl, hxp⟩ ha
    obtain ⟨op, z, hop, hn, hz, rfl⟩ := reads_operatorRound_again.1 ha
    have hz' := hsub hq.advance.advance hz
    obtain ⟨p, hp, hk⟩ := BinaryOp.ofKind?_eq_some.1 hop
    have hne : q.advance.current.kind ≠ .eof := by rw [hk]; exact nofun
    have hu : op ≠ .unknown := by rintro rfl; cases hp
    have hzl : op.level < z.level := by
      cases hb : z.isBinary with
      | true => exact hz'.above hb
      | false => exact Expr.level_of_not_binary hb ▸ op.level_lt
    -- a minus behind a name in parentheses would have made a cast
    have hsubt : op = .sub → x.endsInParenName = false := by
      rintro rfl
      cases hp
      cases hx : x.endsInParenName with
      | false => rfl
      | true =>
        have := hxp hx
        rw [hk] at this
        cases this
    refine ⟨⟨hz.leads.wf hq.advance.advance, .binary hu hxc hz'.canonical (hxl op hop) hzl hsubt, ?_, fun _ => hn,
      hz'.ends, hz'.noCast⟩, ?_⟩
    · simp only [Expr.lexemes, BinaryOp.lexemes, hp, List.append_assoc]
      exact hxs.append (hq.advance.spells_punct hk hz'.spells)
    · have h1 := hq.advance.length_advance hne
      have h2 := (Reader.Leads.advance q).length_le
      have h3 := hz.leads.length_le
      omega
  · rintro x q y q' ⟨hq, hxc, hxs, hxn, hxl, hxp⟩ ha
    obtain ⟨hop, rfl, rfl⟩ := reads_operatorRound_stop.1 ha
    exact ⟨hxc, hxs, hxn, hop, hxp⟩

end Sound

/-- Whatever is read as an expression is canonical and spells the tokens read. -/
theorem soundSub_exprAt (d : Nat) : SoundSub (exprAt d) := by
  induction d with
  | zero =>
    intro n r e s _ h
    exact absurd h (by simp [exprAt, noExpr])
  | succ d ih =>
    intro n r e s hr h
    unfold exprAt at h
    obtain ⟨left, m, hl, ho⟩ := reads_bind.1 h
    exact sound_operators ih (hl.leads.wf hr) (sound_primary ih hr hl) ho

theorem sound_expr {r s : Reader} {e : Expr} (hr : r.WF) (h : expr.Reads r e s) : ReadsExpr 0 r e s :=
  soundSub_exprAt (r.budget + 1) hr h

end Rule
end SemFront
