/-
Statements and parameters have the identifiers of their tokens.
-/
import SemFront.Proofs.Grammar.Braces
import SemFront.Proofs.Names.Expr

namespace SemFront.Rule

/-! ## Statements -/

/-- What a rule for blocks reads has the identifiers of its tokens. -/
def GathersBlock (block : Rule Block) : Prop :=
  ∀ ⦃r b s⦄, r.WF → r.current.kind = .punct .lbrace → block.Reads r b s →
    Names Kind.isIdent r.rest (b.outline.flatMap Outline.names) s.advance.rest

variable {block : Rule Block} [Honest block] {r s : Reader} {st : Stmt}

theorem names_typeRef {name : Token} {t : TypeRef} {begun : Bool} (hr : r.WF)
    (h : (typeRef name).Reads r (t, begun) s) : Names Kind.isIdent r.advance.rest t.outline.names s.advance.rest := by
  have h1 := hr.advance
  rcases reads_typeRef.1 h with ⟨k1, k2, k3, k4, rfl, rfl⟩ | ⟨k1, rfl, rfl, rfl⟩
  · have h2 := h1.advance
    have := h1.names_keyword k1 (h2.names_punct k2 (h2.advance.names_ident k3 (h2.advance.advance.names_punct k4 .nil)))
    simpa [TypeRef.outline, Ident.outline?, Node.ident?] using this
  · simpa [TypeRef.outline, Ident.outline?, Node.ident?] using h1.names_ident k1 .nil

theorem names_varDecl (hr : r.WF) (hk : r.current.kind = .ident) (hc : r.advance.current.kind = .punct .colon)
    (h : varDecl.Reads r st s) : Names Kind.isIdent r.rest st.outline.names s.advance.rest := by
  obtain ⟨t, b, m, c, n, ht, hi, h⟩ := reads_varDecl.1 h
  have hm := ht.leads.wf hr.advance
  have hhead := hr.names_ident hk (hr.advance.names_punct hc (names_typeRef hr.advance ht))
  rw [reads_initFollows] at hi
  split at hi
  · rename_i hb
    obtain ⟨rfl, ha⟩ := hb
    obtain ⟨rfl, rfl⟩ := hi
    rcases h with ⟨-, e, he, rfl⟩ | ⟨h, -⟩
    · have := hhead.append (hm.advance.names_punct ha (gathers_expr hm.advance.advance he))
      simpa [Stmt.outline, Ident.outline?, Node.ident?] using this
    · cases h
  · obtain ⟨rfl, rfl⟩ := hi
    rcases h with ⟨rfl, e, he, rfl⟩ | ⟨rfl, rfl, rfl⟩
    · have := hhead.append (gathers_expr hm.advance he)
      simpa [Stmt.outline, Ident.outline?, Node.ident?] using this
    · simpa [Stmt.outline, Expr.outline, Ident.outline?, Node.ident?] using hhead

theorem names_exprStmt (hr : r.WF) (h : exprStmt.Reads r st s) :
    Names Kind.isIdent r.rest st.outline.names s.advance.rest := by
  obtain ⟨e, he, rfl⟩ := reads_exprStmt.1 h
  simpa [Stmt.outline, Node.ident?] using gathers_expr hr he

theorem names_assignment (hr : r.WF) (ha : r.afterChain.1.kind = .punct .assign) (h : assignment.Reads r st s) :
    Names Kind.isIdent r.rest st.outline.names s.advance.rest := by
  obtain ⟨n, m, e, hn, he, rfl⟩ := reads_assignment.1 h
  have hm := hn.leads.wf hr
  have hk : m.advance.current.kind = .punct .assign := by
    rw [(dottedName_next hr).ok hn.1]
    exact ha
  have := (gathers_dottedName hr hn).append (hm.advance.names_punct hk (gathers_expr hm.advance.advance he))
  simpa [Stmt.outline, Name.outline?, Node.ident?] using this

theorem names_nameStmt (hr : r.WF) (hk : r.current.kind = .ident) (h : nameStmt.Reads r st s) :
    Names Kind.isIdent r.rest st.outline.names s.advance.rest := by
  rw [reads_nameStmt] at h
  split at h
  · rename_i hc
    exact names_varDecl hr hk hc h
  · split at h
    · rename_i ha
      exact names_assignment (r := r.afterChain.2) (hr.look _) ha h
    · exact names_exprStmt (r := r.afterChain.2) (hr.look _) h

theorem names_condBlock (hb : GathersBlock block) {k : Keyword} {c : Expr} {b : Block} (hr : r.WF)
    (hk : r.current.kind = .keyword k) (h : (condBlock block).Reads r (c, b) s) :
    Names Kind.isIdent r.rest (c.outline.flatMap Outline.names ++ b.outline.flatMap Outline.names) s.advance.rest := by
  obtain ⟨m, hc, hl, hbl⟩ := reads_condBlock.1 h
  have hm := hc.leads.wf hr.advance
  exact hr.names_keyword hk ((gathers_expr hr.advance hc).append (hb hm.advance hl hbl))

theorem names_ifStmt (hb : GathersBlock block) (hr : r.WF) (hk : r.current.kind = .keyword .if)
    (h : (ifStmt block).Reads r st s) : Names Kind.isIdent r.rest st.outline.names s.advance.rest := by
  obtain ⟨c, y, n, m, hcy, hn, rfl⟩ := reads_ifStmt.1 h
  have hm := hcy.leads.wf hr
  have hyes := names_condBlock hb hr hk hcy
  rw [reads_elseBlock] at hn
  split at hn
  · rename_i helse
    have := hyes.append (hm.advance.names_keyword helse (hb hm.advance.advance hn.1 hn.2))
    simpa [Stmt.outline, Node.ident?] using this
  · obtain ⟨rfl, rfl⟩ := hn
    simpa [Stmt.outline, Block.outline, Node.ident?] using hyes

theorem names_stmt (hb : GathersBlock block) (hr : r.WF) (h : (stmt block).Reads r st s) :
    Names Kind.isIdent r.rest st.outline.names s.advance.rest := by
  unfold stmt at h
  rw [reads_current_bind] at h
  split at h <;> rename_i hk
  · exact names_ifStmt hb hr hk h
  · obtain ⟨c, b, hcb, rfl⟩ := reads_whileStmt.1 h
    simpa [Stmt.outline, Node.ident?] using names_condBlock hb hr hk hcb
  · obtain ⟨c, b, hcb, rfl⟩ := reads_withStmt.1 h
    simpa [Stmt.outline, Node.ident?] using names_condBlock hb hr hk hcb
  · obtain ⟨e, he, rfl⟩ := reads_returnStmt.1 h
    simpa [Stmt.outline, Node.ident?] using hr.names_keyword hk (gathers_expr hr.advance he)
  · exact names_nameStmt hr hk h
  · exact names_exprStmt hr h

theorem gathersBlock_blockWith (hb : GathersBlock block) : GathersBlock (blockWith block) := by
  intro r b s hr hk h
  obtain ⟨ss, hss, hcl, rfl⟩ := (reads_blockWith hr).1 h
  have hs := (hss.leads steps_readsStmt).wf hr.advance
  have hstmt : ∀ ⦃r st s⦄, r.WF → ReadsStmt block r st s →
      Names Kind.isIdent r.rest st.outline.names s.advance.rest := by
    rintro r st s hr ⟨-, -, m, hm, hsemi, rfl⟩
    simpa using (names_stmt hb hr hm).append ((hm.leads.wf hr).advance.names_punct hsemi .nil)
  have := hr.names_punct hk ((hss.names steps_readsStmt hstmt hr.advance).append (hs.names_punct hcl .nil))
  simpa [Block.outline, Stmt.outlines_eq, List.flatMap_map, Node.ident?] using this

theorem gathersBlock_blockAt (d : Nat) : GathersBlock (blockAt d) := by
  induction d with
  | zero =>
    intro r b s _ _ h
    exact absurd h (by simp [blockAt])
  | succ d ih => exact gathersBlock_blockWith ih

theorem reads_block {b : Block} : Rule.block.Reads r b s ↔ (blockAt (r.budget + 1)).Reads r b s := by
  unfold Reads Rule.block
  rfl

theorem gathersBlock_block : GathersBlock Rule.block :=
  fun _ _ _ hr hk h => gathersBlock_blockAt _ hr hk (reads_block.1 h)

/-! ## Parameters -/

/-- What a rule for bindings reads has the identifiers of its tokens. -/
def GathersBindings (bindings : Rule (List Binding)) : Prop :=
  ∀ ⦃r bs s⦄, r.WF → r.current.kind = .punct .lbrace → bindings.Reads r bs s →
    Names Kind.isIdent r.rest (bs.flatMap fun b => b.outline.names) s.advance.rest

theorem gathers_binding {bindings : Rule (List Binding)} [Honest bindings] (hb : GathersBindings bindings) :
    (binding bindings).Gathers fun b => b.outline.names := by
  intro r b s hr h
  obtain ⟨k1, k2, k3, h⟩ := reads_binding.1 h
  have h2 := hr.advance.advance
  have hhead : ∀ {is c}, Names Kind.isIdent r.advance.advance.advance.rest is c → Names Kind.isIdent r.rest
      (r.current.ident.outline.names ++ (r.advance.advance.current.ident.outline.names ++ is)) c :=
    fun h => hr.names_ident k1 (hr.advance.names_punct k2 (h2.names_ident k3 h))
  split at h
  · rename_i hk
    obtain ⟨c, hc, rfl⟩ := h
    have := hhead (h2.advance.names_punct hk (gathers_expr h2.advance.advance hc))
    simpa [Binding.outline, Ident.outline?, Node.ident?] using this
  · split at h
    · rename_i hk
      obtain ⟨bs, hbs, rfl⟩ := h
      have := hhead (hb h2.advance hk hbs)
      simpa [Binding.outline, Binding.outlines_eq, List.flatMap_map, Expr.outline, Ident.outline?, Node.ident?]
        using this
    · obtain ⟨rfl, rfl⟩ := h
      simpa [Binding.outline, Expr.outline, Ident.outline?, Node.ident?] using hhead .nil

theorem gathersBindings_bindingsAt (d : Nat) : GathersBindings (bindingsAt d) := by
  induction d with
  | zero =>
    intro r bs s _ _ h
    exact absurd h (by simp [bindingsAt])
  | succ d ih =>
    intro r bs s hr hk h
    have h := (gathers_binding ih).someItems (by decide) hr.advance (reads_bindingsAt_succ.1 h)
    exact hr.names_punct hk h

theorem gathers_param : param.Gathers fun p => p.outline.names := by
  intro r p s hr h
  obtain ⟨k1, k2, n, m, hn, h⟩ := reads_param.1 h
  have h2 := hr.advance.advance
  have hm := hn.leads.wf h2
  have hhead := hr.names_ident k1 (hr.advance.names_punct k2 (gathers_dottedName h2 hn))
  split at h
  · rename_i hk
    obtain ⟨bs, hbs, rfl⟩ := h
    have := hhead.append (gathersBindings_bindingsAt _ hm.advance hk (reads_bindings.1 hbs))
    simpa [Param.outline, Binding.outlines_eq, List.flatMap_map, Ident.outline?, Name.outline?, Node.ident?] using this
  · split at h
    · rename_i hk
      obtain ⟨c, hc, rfl⟩ := h
      have := hhead.append (hm.advance.names_punct hk (gathers_expr hm.advance.advance hc))
      simpa [Param.outline, Ident.outline?, Name.outline?, Node.ident?] using this
    · obtain ⟨rfl, rfl⟩ := h
      simpa [Param.outline, Expr.outline, Ident.outline?, Name.outline?, Node.ident?] using hhead

theorem gathers_params : params.Gathers fun ps => ps.flatMap fun p => p.outline.names :=
  fun _ _ _ hr h => gathers_param.manyItems (by decide) hr (reads_params.1 h)

end SemFront.Rule
