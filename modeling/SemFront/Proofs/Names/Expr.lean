/-
Expressions have the identifiers of their tokens: each rule for expressions gathers them, whatever the
rule for the expressions inside is, as long as that one does.
-/
import SemFront.Proofs.Grammar.Expr
import SemFront.Proofs.Names.Rule

namespace SemFront.Rule

/-- The identifiers of a part of a comprehension. -/
def ComprehensionPart.names : ComprehensionPart → List Ident
  | .generator g => g.outline.names
  | .constraint e => e.outline.flatMap Outline.names

section Expr

variable {sub : Nat → Rule Expr} [∀ n, Honest (sub n)]
  (hsub : ∀ n, (sub n).Gathers fun e => e.outline.flatMap Outline.names)
  {r s : Reader} {e : Expr}
include hsub

theorem names_unary (hr : r.WF) {p : Punct} (hk : r.current.kind = .punct p) (h : (unary sub).Reads r e s) :
    Names Kind.isIdent r.rest (e.outline.flatMap Outline.names) s.advance.rest := by
  obtain ⟨x, hx, rfl⟩ := reads_unary.1 h
  have hx := hr.names_punct hk (hsub _ hr.advance hx)
  split <;> simpa [Expr.outline, Node.ident?] using hx

theorem names_parenOrCast (hr : r.WF) (hk : r.current.kind = .punct .lparen) (h : (parenOrCast sub).Reads r e s) :
    Names Kind.isIdent r.rest (e.outline.flatMap Outline.names) s.advance.rest := by
  obtain ⟨m, ⟨ho, h⟩ | ⟨ho, x, n, hx, hc, rfl, rfl⟩⟩ := reads_parenOrCast.1 h
  · obtain ⟨hb, hl⟩ := looks_opensCast.eq ho
    obtain ⟨h1, h2, -⟩ := of_decide_eq_true hb.symm
    obtain ⟨x, hx, rfl⟩ := reads_cast.1 h
    have hx := hsub _ (ho.leads.wf hr).advance.advance.advance hx
    rw [hl.advance.advance.advance.rest] at hx
    rw [hl.advance.current]
    have := hr.names_punct hk (hr.advance.names_ident h1 (hr.advance.advance.names_punct h2 hx))
    simpa [Expr.outline, Ident.outline?, Node.ident?] using this
  · obtain ⟨-, hl⟩ := looks_opensCast.eq ho
    have hm := ho.leads.wf hr
    have hn := hx.leads.wf hm.advance
    have hx := hsub _ hm.advance hx
    rw [hl.advance.rest] at hx
    have := hr.names_punct hk (hx.append (hn.advance.names_punct hc .nil))
    simpa [Expr.outline, Node.ident?] using this

theorem names_nameOrCall (hr : r.WF) (h : (nameOrCall sub).Reads r e s) :
    Names Kind.isIdent r.rest (e.outline.flatMap Outline.names) s.advance.rest := by
  obtain ⟨n, m, hn, h⟩ := reads_nameOrCall.1 h
  have hm := hn.leads.wf hr
  have hname := gathers_dottedName hr hn
  rcases h with ⟨-, rfl, rfl⟩ | ⟨hk, es, hes, rfl⟩
  · simpa [Expr.outline, Name.outline?, Node.ident?] using hname
  · have hargs := (hsub 0).manyItems (by decide) hm.advance.advance hes
    have := hname.append (hm.advance.names_punct hk hargs)
    simpa [Expr.outline, Expr.outlines_eq, List.flatMap_assoc, Name.outline?, Node.ident?] using this

theorem gathers_comprehensionPart : (comprehensionPart sub).Gathers ComprehensionPart.names := by
  intro r p s hr h
  rcases reads_comprehensionPart.1 h with ⟨h1, h2, h3, rfl, rfl⟩ | ⟨-, x, hx, rfl⟩
  · have := hr.names_ident h1 (hr.advance.names_punct h2 (hr.advance.advance.names_ident h3 .nil))
    simpa [ComprehensionPart.names, Generator.outline, Ident.outline?, Node.ident?] using this
  · exact hsub 0 hr hx

theorem names_listOrComprehension (hr : r.WF) (hk : r.current.kind = .punct .lbracket)
    (h : (listOrComprehension sub).Reads r e s) :
    Names Kind.isIdent r.rest (e.outline.flatMap Outline.names) s.advance.rest := by
  obtain ⟨m, ⟨ho, h⟩ | ⟨ho, es, hes, rfl⟩⟩ := reads_listOrComprehension.1 h
  · obtain ⟨hb, hl⟩ := looks_opensComprehension.eq ho
    obtain ⟨h1, h2⟩ := of_decide_eq_true hb.symm
    obtain ⟨g, c, hp, rfl⟩ := reads_comprehension.1 h
    have hparts := (gathers_comprehensionPart hsub).someItems (by decide) (ho.leads.wf hr).advance.advance.advance hp
    rw [hl.advance.advance.advance.rest] at hparts
    rw [hl.advance.current]
    have := hr.names_punct hk (hr.advance.names_ident h1 (hr.advance.advance.names_punct h2 hparts))
    simpa [Expr.outline, ComprehensionPart.names, Ident.outline?, Node.ident?] using this
  · obtain ⟨-, hl⟩ := looks_opensComprehension.eq ho
    have hes := (hsub 0).manyItems (by decide) (ho.leads.wf hr).advance hes
    rw [hl.advance.rest] at hes
    simpa [Expr.outline, Expr.outlines_eq, List.flatMap_assoc, Node.ident?] using hr.names_punct hk hes

theorem gathers_propertyInit : (propertyInit sub).Gathers fun i => i.outline.names := by
  intro r i s hr h
  obtain ⟨h1, h2, v, hv, rfl⟩ := reads_propertyInit.1 h
  have := hr.names_ident h1 (hr.advance.names_punct h2 (hsub 0 hr.advance.advance hv))
  simpa [Initializer.outline, Ident.outline?, Node.ident?] using this

theorem names_construct (hr : r.WF) (hk : r.current.kind = .keyword .new) (h : (construct sub).Reads r e s) :
    Names Kind.isIdent r.rest (e.outline.flatMap Outline.names) s.advance.rest := by
  obtain ⟨h1, h2, is, his, rfl⟩ := reads_construct.1 h
  have his := (gathers_propertyInit hsub).manyItems (by decide) hr.advance.advance.advance his
  have := hr.names_keyword hk (hr.advance.names_ident h1 (hr.advance.advance.names_punct h2 his))
  simpa [Expr.outline, Initializer.outlines_eq, List.flatMap_map, Ident.outline?, Node.ident?] using this

theorem gathers_primary : (primary sub).Gathers fun e => e.outline.flatMap Outline.names := by
  intro r e s hr h
  -- a literal is one token, which is no identifier
  have hliteral : ∀ {k : Kind}, r.current.kind = k → k.isIdent = false → k ≠ .eof →
      Names Kind.isIdent r.rest [] r.advance.rest := fun hk hK hne => hr.names_pass hk hK hne .nil
  unfold primary at h
  rw [reads_current_bind] at h
  split at h
  · exact names_nameOrCall hsub hr h
  iterate 5
    · rename_i hk
      obtain ⟨rfl, rfl⟩ := reads_pure.1 h
      simpa [Expr.outline, Node.ident?] using hliteral hk rfl (by simp)
  · rename_i hk
    exact names_construct hsub hr hk h
  · rename_i hk
    exact names_unary hsub hr hk h
  · rename_i hk
    exact names_unary hsub hr hk h
  · rename_i hk
    exact names_parenOrCast hsub hr hk h
  · rename_i hk
    exact names_listOrComprehension hsub hr hk h
  · exact absurd h (by simp [noExpr])

theorem names_operators {n : Nat} {m : Reader} {left : Expr} (hm : m.WF)
    (hl : Names Kind.isIdent r.rest (left.outline.flatMap Outline.names) m.advance.rest)
    (h : (operators sub n left).Reads m e s) :
    Names Kind.isIdent r.rest (e.outline.flatMap Outline.names) s.advance.rest := by
  refine Reads.of_loop h hm.budget
    (P := fun x q => q.WF ∧ Names Kind.isIdent r.rest (x.outline.flatMap Outline.names) q.advance.rest)
    (Q := fun x q => Names Kind.isIdent r.rest (x.outline.flatMap Outline.names) q.advance.rest) ⟨hm, hl⟩ ?_ ?_
  · rintro x q y q' ⟨hq, hx⟩ ha
    obtain ⟨op, z, hop, -, hz, rfl⟩ := reads_operatorRound_again.1 ha
    obtain ⟨p, -, hk⟩ := BinaryOp.ofKind?_eq_some.1 hop
    refine ⟨⟨hz.leads.wf hq.advance.advance, ?_⟩, ?_⟩
    · have := hx.append (hq.advance.names_punct hk (hsub _ hq.advance.advance hz))
      simpa [Expr.outline, Node.ident?] using this
    · have h1 := hq.advance.length_advance (by simp [hk])
      have h2 := (Reader.Leads.advance q).length_le
      have h3 := hz.leads.length_le
      omega
  · rintro x q y q' ⟨hq, hx⟩ ha
    obtain ⟨-, rfl, rfl⟩ := reads_operatorRound_stop.1 ha
    exact hx

end Expr

theorem gathers_exprAt (d l : Nat) : (exprAt d l).Gathers fun e => e.outline.flatMap Outline.names := by
  induction d generalizing l with
  | zero =>
    intro r e s _ h
    exact absurd h (by simp [exprAt, noExpr])
  | succ d ih =>
    intro r e s hr h
    unfold exprAt at h
    obtain ⟨left, m, hl, ho⟩ := reads_bind.1 h
    exact names_operators ih (hl.leads.wf hr) (gathers_primary ih hr hl) ho

/-- Expressions have the identifiers of the tokens they are read from. -/
theorem gathers_expr : expr.Gathers fun e => e.outline.flatMap Outline.names :=
  fun r _ _ hr h => gathers_exprAt (r.budget + 1) 0 hr h

end SemFront.Rule
