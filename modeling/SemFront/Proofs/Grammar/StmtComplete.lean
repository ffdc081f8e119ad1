/-
Canonical statements and blocks are read wherever they are spelled: each choice the rules make by
looking ahead is the one that led to the tokens.
-/
import SemFront.Proofs.Grammar.ExprComplete
import SemFront.Proofs.Grammar.Stmt

namespace SemFront

/-- The first token of a statement does not close a block, nor is it the end. -/
theorem Stmt.Canonical.lexemes_cons {st : Stmt} (h : st.Canonical) :
    ∃ l ls, st.lexemes = l :: ls ∧ l.kind ≠ .punct .rbrace ∧ l.kind ≠ .eof := by
  cases h with
  | expr he =>
    obtain ⟨l, ls, hl, hk⟩ := he.lexemes_cons
    refine ⟨l, ls, hl, ?_, ?_⟩ <;> (intro e; rw [e] at hk; cases hk)
  | @assign n e s hn he =>
    obtain ⟨i, is, hp⟩ := List.exists_cons_of_ne_nil hn.nonempty
    simp only [Stmt.lexemes, Name.lexemes?, Name.lexemes, hp, Rule.joined_dotted]
    exact ⟨_, _, rfl, (fun h => by cases h), (fun h => by cases h)⟩
  | ifThen | ifElse | whileLoop | withBlock | varDecl | ret => exact ⟨_, _, rfl, (fun h => by cases h), (fun h => by cases h)⟩

namespace Rule

/-! ## Which rule reads a statement -/

section Choices

variable {block : Rule Block} {r s : Reader} {st : Stmt}

theorem reads_stmt_if (hk : r.current.kind = .keyword .if) :
    (stmt block).Reads r st s ↔ (ifStmt block).Reads r st s := by
  unfold stmt
  rw [reads_current_bind, hk]

theorem reads_stmt_while (hk : r.current.kind = .keyword .while) :
    (stmt block).Reads r st s ↔ (whileStmt block).Reads r st s := by
  unfold stmt
  rw [reads_current_bind, hk]

theorem reads_stmt_with (hk : r.current.kind = .keyword .with) :
    (stmt block).Reads r st s ↔ (withStmt block).Reads r st s := by
  unfold stmt
  rw [reads_current_bind, hk]

theorem reads_stmt_return (hk : r.current.kind = .keyword .return) :
    (stmt block).Reads r st s ↔ returnStmt.Reads r st s := by
  unfold stmt
  rw [reads_current_bind, hk]

theorem reads_stmt_ident (hk : r.current.kind = .ident) : (stmt block).Reads r st s ↔ nameStmt.Reads r st s := by
  unfold stmt
  rw [reads_current_bind, hk]

theorem reads_stmt_expr (hk : r.current.kind.startsExpr = true) (hi : r.current.kind ≠ .ident) :
    (stmt block).Reads r st s ↔ exprStmt.Reads r st s := by
  unfold stmt
  rw [reads_current_bind]
  split
  any_goals
    rename_i h
    rw [h] at hk
    cases hk
  · rename_i h
    exact absurd h hi
  · rfl

end Choices

/-! ## Statements without blocks -/

/-- A statement is read wherever it is spelled in front of a semicolon, with blocks of less depth than
it has tokens. -/
def ReadableStmt (st : Stmt) : Prop := ∀ ⦃d r c⦄, r.WF → st.lexemes.length ≤ d → Spells r.rest st.lexemes c →
  headKind c = .punct .semicolon →
  ∃ st' s, (stmt (blockAt d)).Reads r st' s ∧ st'.erase = st.erase ∧ s.advance.rest = c

theorem follows_semicolon {e : Expr} {c : List Token} (hc : headKind c = .punct .semicolon) :
    e.Follows 0 (headKind c) := by
  rw [hc]
  exact .punct (by decide) rfl rfl

theorem complete_typeRef {t : TypeRef} (name : Token) {r : Reader} {c : List Token} (ht : t.Canonical)
    (hs : Spells r.advance.rest t.lexemes c) :
    ∃ t' s, (typeRef name).Reads r (t', false) s ∧ t'.erase = t.erase ∧ s.advance.rest = c := by
  match t, ht with
  | .named (some i) false _, ht =>
    obtain ⟨h1, hs⟩ := Reader.of_spells_cons hs
    obtain ⟨hk, hn⟩ := Token.ident_of_lexeme h1
    exact ⟨_, _, reads_typeRef.2 (.inr ⟨hk, rfl, rfl, rfl⟩), by simp [TypeRef.erase, Ident.erase_eq hn],
      spells_nil.1 hs⟩
  | .named (some i) true _, ht =>
    simp only [TypeRef.lexemes, if_true, Ident.lexemes?, List.cons_append, List.nil_append] at hs
    obtain ⟨h1, hs⟩ := Reader.of_spells_cons hs
    obtain ⟨h2, hs⟩ := Reader.of_spells_cons hs
    obtain ⟨h3, hs⟩ := Reader.of_spells_cons hs
    obtain ⟨h4, hs⟩ := Reader.of_spells_cons hs
    obtain ⟨hk, hn⟩ := Token.ident_of_lexeme h3
    exact ⟨_, _, reads_typeRef.2 (.inl ⟨congrArg Lexeme.kind h1, congrArg Lexeme.kind h2, hk,
      congrArg Lexeme.kind h4, rfl, rfl⟩), by simp [TypeRef.erase, Ident.erase_eq hn], spells_nil.1 hs⟩

theorem readable_varDecl {x : Ident} {t : TypeRef} {e : Expr} {sp : Span} (ht : t.Canonical) (he : e.Optional) :
    ReadableStmt (.varDecl (some x) (some t) e sp) := by
  intro d r c hr _ hs hc
  -- the lexemes of the type and what follows them, with or without an initializer
  obtain ⟨ls, hls, hinit⟩ : ∃ ls, (Stmt.varDecl (some x) (some t) e sp).lexemes =
      .ident x.name :: .punct .colon :: (t.lexemes ++ ls) ∧
      ((e = .absent ∧ ls = []) ∨ (e.Canonical ∧ ls = .punct .assign :: e.lexemes)) := by
    rcases he with rfl | he
    · exact ⟨[], by simp [Stmt.lexemes, Ident.lexemes?], .inl ⟨rfl, rfl⟩⟩
    · exact ⟨_, by rw [Stmt.lexemes_varDecl he.ne_absent]; simp [Ident.lexemes?], .inr ⟨he, rfl⟩⟩
  rw [hls] at hs
  obtain ⟨h1, hs⟩ := Reader.of_spells_cons hs
  obtain ⟨h2, hs⟩ := Reader.of_spells_cons hs
  obtain ⟨hk, hn⟩ := Token.ident_of_lexeme h1
  have hk2 : r.advance.current.kind = .punct .colon := congrArg Lexeme.kind h2
  obtain ⟨b, hb, hs⟩ := spells_append.1 hs
  obtain ⟨t', m, ht', hte, rfl⟩ := complete_typeRef r.current ht hb
  have hm := ht'.leads.wf hr.advance
  have hread : ∀ {st s}, varDecl.Reads r st s → (stmt (blockAt d)).Reads r st s := by
    intro st s h
    rw [reads_stmt_ident hk, reads_nameStmt, if_pos hk2]
    exact h
  rcases hinit with ⟨rfl, rfl⟩ | ⟨he, rfl⟩
  · obtain rfl := spells_nil.1 hs
    refine ⟨_, m, hread (reads_varDecl.2 ⟨t', false, m, false, m, ht', ?_, .inr ⟨rfl, rfl, rfl⟩⟩),
      by simp [Stmt.erase, hte, Ident.erase_eq hn], rfl⟩
    rw [reads_initFollows, if_neg (by rw [hm.advance.current_kind, hc]; simp)]
    exact ⟨rfl, rfl⟩
  · obtain ⟨h3, hs⟩ := Reader.of_spells_cons hs
    obtain ⟨e', s, he', hee, hes⟩ := complete_expr hm.advance.advance he hs (follows_semicolon hc)
    refine ⟨_, s, hread (reads_varDecl.2 ⟨t', false, m, true, m.advance, ht', ?_, .inl ⟨rfl, e', he', rfl⟩⟩),
      by simp [Stmt.erase, hte, hee, Ident.erase_eq hn], hes⟩
    rw [reads_initFollows, if_pos ⟨rfl, congrArg Lexeme.kind h3⟩]
    exact ⟨rfl, rfl⟩

/-- Behind the name that a statement starts with, the rules see what follows it. -/
theorem reads_nameStmt_of_spells {n : Name} {r s : Reader} {b : List Token} {st : Stmt} (hr : r.WF)
    (hn : n.Canonical) (hs : Spells r.rest n.lexemes b) (hd : headKind b ≠ .punct .dot)
    (hc : headKind b ≠ .punct .colon) : nameStmt.Reads r st s ↔
      if headKind b = .punct .assign then assignment.Reads r.afterChain.2 st s
      else exprStmt.Reads r.afterChain.2 st s := by
  have hnext : r.advance.current.kind ≠ .punct .colon := by
    obtain ⟨i, is, hp⟩ := List.exists_cons_of_ne_nil hn.nonempty
    simp only [Name.lexemes, hp, joined_dotted] at hs
    obtain ⟨-, hs⟩ := Reader.of_spells_cons hs
    rw [hr.advance.current_kind]
    cases is with
    | nil =>
      rw [spells_nil.1 hs]
      exact hc
    | cons j is =>
      simp [Spells.headKind hs, Lexeme.punct]
  rw [reads_nameStmt, if_neg hnext, afterChain_of_spells hr hn.nonempty hs hd]

theorem readable_assign {n : Name} {e : Expr} {sp : Span} (hn : n.Canonical) (he : e.Canonical) :
    ReadableStmt (.assign (some n) e sp) := by
  intro d r c hr _ hs hc
  simp only [Stmt.lexemes, Name.lexemes?] at hs
  obtain ⟨b, hb, hs⟩ := spells_append.1 hs
  have hbk : headKind b = .punct .assign := hs.headKind
  have hr' : r.afterChain.2.WF := hr.look _
  obtain ⟨n', m, hn', hne, rfl⟩ := complete_dottedName hr' hn hb (by simp [hbk])
  have hm := hn'.leads.wf hr'
  obtain ⟨-, hs⟩ := Reader.of_spells_cons hs
  obtain ⟨e', s, he', hee, hes⟩ := complete_expr hm.advance.advance he hs (follows_semicolon hc)
  have hk : r.current.kind = .ident := (reads_dottedName.1 hn').1
  refine ⟨.assign (some n') e' (n'.span.through e'.span), s, ?_, by simp [Stmt.erase, hne, hee], hes⟩
  rw [reads_stmt_ident hk, reads_nameStmt_of_spells hr hn hb (by simp [hbk]) (by simp [hbk]),
    if_pos hbk]
  exact reads_assignment.2 ⟨n', m, e', hn', he', rfl⟩

theorem readable_ret {e : Expr} {sp : Span} (he : e.Canonical) : ReadableStmt (.ret e sp) := by
  intro d r c hr _ hs hc
  obtain ⟨h1, hs⟩ := Reader.of_spells_cons hs
  obtain ⟨e', s, he', hee, hes⟩ := complete_expr hr.advance he hs (follows_semicolon hc)
  exact ⟨_, s, (reads_stmt_return (congrArg Lexeme.kind h1)).2 (reads_returnStmt.2 ⟨e', he', rfl⟩),
    by simp [Stmt.erase, hee], hes⟩

theorem readable_expr {e : Expr} {sp : Span} (he : e.Canonical) : ReadableStmt (.expr e sp) := by
  intro d r c hr _ hs hc
  simp only [Stmt.lexemes] at hs
  obtain ⟨l, ls, hl, hst⟩ := he.lexemes_cons
  have hk : r.current.kind = l.kind := by
    rw [hl] at hs
    exact congrArg Lexeme.kind (Reader.of_spells_cons hs).1
  by_cases hi : l.kind = .ident
  · -- the name that the expression starts with is followed by no colon and no equals sign
    obtain ⟨n, ms, hn, hms, hhead⟩ := he.starts_with_name hl hi
    have hs' := hs
    rw [hms] at hs'
    obtain ⟨b, hb, hs'⟩ := spells_append.1 hs'
    have hbk : headKind b ≠ .punct .dot ∧ headKind b ≠ .punct .colon ∧ headKind b ≠ .punct .assign := by
      cases ms with
      | nil =>
        rw [spells_nil.1 hs', hc]
        exact ⟨by simp, by simp, by simp⟩
      | cons m ms =>
        rw [hs'.headKind]
        rcases hhead m rfl with hm | ⟨op, hm⟩
        · rw [hm]
          exact ⟨by simp, by simp, by simp⟩
        · refine ⟨?_, ?_, ?_⟩ <;> (intro e; rw [e] at hm; cases hm)
    have hr' : r.afterChain.2.WF := hr.look _
    obtain ⟨e', s, he', hee, hes⟩ := complete_expr hr' he hs (follows_semicolon hc)
    refine ⟨.expr e' e'.span, s, ?_, by simp [Stmt.erase, hee], hes⟩
    rw [reads_stmt_ident (hk.trans hi), reads_nameStmt_of_spells hr hn hb hbk.1 hbk.2.1, if_neg hbk.2.2]
    exact reads_exprStmt.2 ⟨e', he', rfl⟩
  · obtain ⟨e', s, he', hee, hes⟩ := complete_expr hr he hs (follows_semicolon hc)
    exact ⟨_, s, (reads_stmt_expr (by rw [hk]; exact hst) (by rw [hk]; exact hi)).2 (reads_exprStmt.2 ⟨e', he', rfl⟩),
      by simp [Stmt.erase, hee], hes⟩

/-! ## Blocks -/

/-- A block is read wherever it is spelled, with at most as many blocks inside each other as it has
tokens. -/
def ReadableBlock (b : Block) : Prop := ∀ ⦃d r c⦄, r.WF → b.lexemes.length ≤ d → Spells r.rest b.lexemes c →
  ∃ b' s, (blockAt d).Reads r b' s ∧ b'.erase = b.erase ∧ s.advance.rest = c

theorem length_le_lexemesAll {st : Stmt} : ∀ {ss : List Stmt}, st ∈ ss →
    st.lexemes.length ≤ (Stmt.lexemesAll ss).length
  | s :: ss, h => by
    rw [Stmt.lexemesAll, List.length_append, List.length_cons]
    rcases List.mem_cons.1 h with rfl | h
    · omega
    · have := length_le_lexemesAll h
      omega

theorem readable_block {ss : List Stmt} {sp : Span} (hss : ∀ st ∈ ss, st.Canonical ∧ ReadableStmt st) :
    ReadableBlock (.mk ss sp) := by
  intro d r c hr hd hs
  obtain ⟨d, rfl⟩ : ∃ d', d = d' + 1 := by
    cases d with
    | zero => simp [Block.lexemes] at hd
    | succ d => exact ⟨d, rfl⟩
  simp only [Block.lexemes, List.cons_append, List.length_cons, List.length_append] at hs hd
  obtain ⟨h1, hs⟩ := Reader.of_spells_cons hs
  obtain ⟨b, hb, hs⟩ := spells_append.1 hs
  have hst : ∀ ⦃r st c⦄, r.WF → (st.Canonical ∧ ReadableStmt st ∧ st.lexemes.length ≤ d) →
      Spells r.rest (st.lexemes ++ [Lexeme.punct .semicolon]) c →
      ∃ st' s, ReadsStmt (blockAt d) r st' s ∧ st'.erase = st.erase ∧ s.advance.rest = c := by
    rintro r st c hr ⟨hcan, hread, hlen⟩ hs
    obtain ⟨b, hb, hs⟩ := spells_append.1 hs
    obtain ⟨st', m, hm, he, rfl⟩ := hread hr hlen hb hs.headKind
    obtain ⟨h2, hs⟩ := Reader.of_spells_cons hs
    obtain ⟨l, ls, hl, hk1, hk2⟩ := hcan.lexemes_cons
    rw [hl] at hb
    have hk : r.current.kind = l.kind := congrArg Lexeme.kind (Reader.of_spells_cons hb).1
    exact ⟨st', m.advance, ⟨by rw [hk]; exact hk1, by rw [hk]; exact hk2, m, hm, congrArg Lexeme.kind h2, rfl⟩, he,
      spells_nil.1 hs⟩
  rw [Stmt.lexemesAll_eq] at hb
  obtain ⟨ts, s, hts, hte, rfl⟩ := InTurn.complete steps_readsStmt hst ss
    (fun st h => ⟨(hss st h).1, (hss st h).2, by have := length_le_lexemesAll h; omega⟩) r.advance hr.advance hb
  obtain ⟨h2, hs⟩ := Reader.of_spells_cons hs
  exact ⟨_, s, (reads_blockWith hr).2 ⟨ts, hts, congrArg Lexeme.kind h2, rfl⟩, by simp [Block.erase, hte],
    spells_nil.1 hs⟩

theorem complete_condBlock {k : Keyword} {e : Expr} {ss : List Stmt} {sp : Span} (he : e.Canonical)
    (hss : ReadableBlock (.mk ss sp)) {d : Nat} {r : Reader} {c : List Token} (hr : r.WF)
    (hd : (Block.mk ss sp).lexemes.length ≤ d)
    (hs : Spells r.rest (.keyword k :: (e.lexemes ++ (Block.mk ss sp).lexemes)) c) :
    ∃ e' b s, (condBlock (blockAt d)).Reads r (e', b) s ∧ e'.erase = e.erase ∧ b.erase = (Block.mk ss sp).erase ∧
      s.advance.rest = c := by
  obtain ⟨h1, hs⟩ := Reader.of_spells_cons hs
  obtain ⟨b, hb, hs⟩ := spells_append.1 hs
  have hbk : headKind b = .punct .lbrace := by
    rw [Block.lexemes] at hs
    exact hs.headKind
  obtain ⟨e', m, he', hee, rfl⟩ := complete_expr hr.advance he hb (by rw [hbk]; exact .punct (by decide) rfl rfl)
  have hm := he'.leads.wf hr.advance
  obtain ⟨b', s, hb', hbe, hbs⟩ := hss hm.advance hd hs
  exact ⟨e', b', s, reads_condBlock.2 ⟨m, he', by rw [hm.advance.current_kind, hbk], hb'⟩, hee, hbe, hbs⟩

theorem readable_while {e : Expr} {ss : List Stmt} {t sp : Span} (he : e.Canonical) (hss : ReadableBlock (.mk ss t)) :
    ReadableStmt (.whileLoop e (.mk ss t) sp) := by
  intro d r c hr hd hs _
  simp only [Stmt.lexemes, List.cons_append, List.length_cons, List.length_append] at hs hd
  have hlen : (Block.mk ss t).lexemes.length ≤ d := by omega
  obtain ⟨e', b, s, h, hee, hbe, hbs⟩ := complete_condBlock he hss hr hlen hs
  exact ⟨_, s, (reads_stmt_while (congrArg Lexeme.kind (Reader.of_spells_cons hs).1)).2
    (reads_whileStmt.2 ⟨e', b, h, rfl⟩), by simp only [Stmt.erase, hee, hbe], hbs⟩

theorem readable_with {e : Expr} {ss : List Stmt} {t sp : Span} (he : e.Canonical) (hss : ReadableBlock (.mk ss t)) :
    ReadableStmt (.withBlock e (.mk ss t) sp) := by
  intro d r c hr hd hs _
  simp only [Stmt.lexemes, List.cons_append, List.length_cons, List.length_append] at hs hd
  have hlen : (Block.mk ss t).lexemes.length ≤ d := by omega
  obtain ⟨e', b, s, h, hee, hbe, hbs⟩ := complete_condBlock he hss hr hlen hs
  exact ⟨_, s, (reads_stmt_with (congrArg Lexeme.kind (Reader.of_spells_cons hs).1)).2
    (reads_withStmt.2 ⟨e', b, h, rfl⟩), by simp only [Stmt.erase, hee, hbe], hbs⟩

theorem readable_ifThen {e : Expr} {ss : List Stmt} {t sp : Span} (he : e.Canonical) (hss : ReadableBlock (.mk ss t)) :
    ReadableStmt (.ifElse e (.mk ss t) .absent sp) := by
  intro d r c hr hd hs hc
  simp only [Stmt.lexemes, List.cons_append, List.length_cons, List.length_append, List.append_nil] at hs hd
  have hlen : (Block.mk ss t).lexemes.length ≤ d := by omega
  obtain ⟨e', b, s, h, hee, hbe, rfl⟩ := complete_condBlock he hss hr hlen hs
  refine ⟨_, s, (reads_stmt_if (congrArg Lexeme.kind (Reader.of_spells_cons hs).1)).2
    (reads_ifStmt.2 ⟨e', b, .absent, s, h, ?_, rfl⟩), by simp only [Stmt.erase, hee, hbe], rfl⟩
  rw [reads_elseBlock, if_neg (by simp [(h.leads.wf hr).advance.current_kind, hc])]
  exact ⟨rfl, rfl⟩

theorem readable_ifElse {e : Expr} {ys ns : List Stmt} {t u sp : Span} (he : e.Canonical)
    (hys : ReadableBlock (.mk ys t)) (hns : ReadableBlock (.mk ns u)) :
    ReadableStmt (.ifElse e (.mk ys t) (.mk ns u) sp) := by
  intro d r c hr hd hs hc
  simp only [Stmt.lexemes, List.cons_append, List.length_cons, List.length_append] at hs hd
  rw [← List.cons_append] at hs
  obtain ⟨a, ha, hs⟩ := spells_append.1 hs
  have hleny : (Block.mk ys t).lexemes.length ≤ d := by omega
  have hlenn : (Block.mk ns u).lexemes.length ≤ d := by omega
  obtain ⟨e', b, m, h, hee, hbe, rfl⟩ := complete_condBlock he hys hr hleny ha
  have hm := h.leads.wf hr
  obtain ⟨h1, hs⟩ := Reader.of_spells_cons hs
  have hk : m.advance.advance.current.kind = .punct .lbrace := by
    rw [hm.advance.advance.current_kind]
    rw [Block.lexemes] at hs
    exact hs.headKind
  obtain ⟨b', s, hb', hbe', rfl⟩ := hns hm.advance.advance hlenn hs
  refine ⟨_, s, (reads_stmt_if (congrArg Lexeme.kind (Reader.of_spells_cons ha).1)).2
    (reads_ifStmt.2 ⟨e', b, b', m, h, ?_, rfl⟩), by simp only [Stmt.erase, hee, hbe, hbe'], rfl⟩
  have hk' : m.advance.current.kind = .keyword .else := congrArg Lexeme.kind h1
  rw [reads_elseBlock, if_pos hk']
  exact ⟨hk, hb'⟩

/-! ## All statements -/

theorem ReadableStmt.of_canonical {st : Stmt} (h : st.Canonical) : ReadableStmt st := by
  induction h with
  | ifThen he hy ih => exact readable_ifThen he (readable_block fun st h => ⟨hy st h, ih st h⟩)
  | ifElse he hy hn ihy ihn =>
    exact readable_ifElse he (readable_block fun st h => ⟨hy st h, ihy st h⟩)
      (readable_block fun st h => ⟨hn st h, ihn st h⟩)
  | whileLoop he hb ih => exact readable_while he (readable_block fun st h => ⟨hb st h, ih st h⟩)
  | withBlock he hb ih => exact readable_with he (readable_block fun st h => ⟨hb st h, ih st h⟩)
  | varDecl _ ht he => exact readable_varDecl ht he
  | assign hn he => exact readable_assign hn he
  | ret he => exact readable_ret he
  | expr he => exact readable_expr he

/-- Every canonical block is read where it is spelled. -/
theorem complete_block {b : Block} {r : Reader} {c : List Token} (hr : r.WF) (hb : b.Canonical)
    (hs : Spells r.rest b.lexemes c) :
    ∃ b' s, Rule.block.Reads r b' s ∧ b'.erase = b.erase ∧ s.advance.rest = c := by
  have hd : b.lexemes.length ≤ r.budget + 1 := by
    have h1 := hs.length
    have h2 := hr.budget
    omega
  rw [hb.eq_mk] at hs hd ⊢
  exact readable_block (fun st h => ⟨hb.stmts st h, .of_canonical (hb.stmts st h)⟩) hr hd hs

end Rule
end SemFront
