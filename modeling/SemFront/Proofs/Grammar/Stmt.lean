/-
Reading statements and blocks: what is read without reports is canonical and spells the tokens read,
but for a `>=` that closes a list type and begins an initializer.
-/
import SemFront.Grammar.Stmt
import SemFront.Proofs.Grammar.Expr
import SemFront.Proofs.Grammar.InTurn

namespace SemFront

/-! ## Where list types stop -/

/-- Where a list type stops; other types have no such place. -/
def TypeRef.listStops : Option TypeRef → List Int
  | some (.named _ true s) => [s.stop]
  | _ => []

mutual

/-- Where the list types of the variables in a statement stop. -/
def Stmt.listStops : Stmt → List Int
  | .ifElse _ yes no _ => yes.listStops ++ no.listStops
  | .whileLoop _ b _ => b.listStops
  | .withBlock _ b _ => b.listStops
  | .varDecl _ t _ _ => TypeRef.listStops t
  | _ => []

def Block.listStops : Block → List Int
  | .absent => []
  | .mk ss _ => Stmt.listStopsAll ss

def Stmt.listStopsAll : List Stmt → List Int
  | [] => []
  | s :: ss => s.listStops ++ Stmt.listStopsAll ss

end

@[simp] theorem Stmt.listStopsAll_eq (ss : List Stmt) : Stmt.listStopsAll ss = ss.flatMap Stmt.listStops := by
  induction ss with
  | nil => simp [Stmt.listStopsAll]
  | cons s ss ih => simp [Stmt.listStopsAll, ih]

def Block.stmts : Block → List Stmt
  | .absent => []
  | .mk ss _ => ss

theorem Block.Canonical.stmts {b : Block} (hb : b.Canonical) : ∀ st ∈ b.stmts, st.Canonical := by
  cases b with
  | absent => exact hb.elim
  | mk ss s => exact hb

theorem Block.Canonical.eq_mk {b : Block} (hb : b.Canonical) : b = .mk b.stmts b.span := by
  cases b with
  | absent => exact hb.elim
  | mk ss s => rfl

namespace Rule

/-! ## The rules one by one -/

section Specs

variable {block : Rule Block} [Honest block] {r s : Reader} {st : Stmt}

instance {t : Token} : Honest (typeRef t) := by
  unfold typeRef
  refine @Honest.bind _ _ _ _ inferInstance fun t => ?_
  split <;> infer_instance

instance {b : Bool} : Honest (initFollows b) := by unfold initFollows; infer_instance

instance : Honest varDecl := by
  unfold varDecl
  refine @Honest.bind _ _ _ _ inferInstance fun t => @Honest.bind _ _ _ _ inferInstance fun _ =>
    @Honest.bind _ _ _ _ inferInstance fun (ty, b) => ?_
  infer_instance

instance : Honest assignment := by unfold assignment; infer_instance

instance : Honest exprStmt := by unfold exprStmt; infer_instance

instance : Honest returnStmt := by unfold returnStmt; infer_instance

instance : Honest (condBlock block) := by unfold condBlock; infer_instance

instance : Honest (elseBlock block) := by unfold elseBlock; infer_instance

instance : Honest (ifStmt block) := by
  unfold ifStmt
  refine @Honest.bind _ _ _ _ inferInstance fun t => @Honest.bind _ _ _ _ inferInstance fun (c, y) => ?_
  infer_instance

instance : Honest (whileStmt block) := by
  unfold whileStmt
  refine @Honest.bind _ _ _ _ inferInstance fun t => @Honest.bind _ _ _ _ inferInstance fun (c, y) => ?_
  infer_instance

instance : Honest (withStmt block) := by
  unfold withStmt
  refine @Honest.bind _ _ _ _ inferInstance fun t => @Honest.bind _ _ _ _ inferInstance fun (c, y) => ?_
  infer_instance

instance : Honest nameStmt := by unfold nameStmt; infer_instance

instance : Honest (stmt block) := by
  unfold stmt
  refine @Honest.bind _ _ _ _ inferInstance fun t => ?_
  split <;> infer_instance

instance : Honest finishStmt := by unfold finishStmt; infer_instance

instance {ss : Array Stmt} : Honest (stmtRound block ss) := by
  unfold stmtRound
  refine @Honest.bind _ _ _ _ inferInstance fun t => @Honest.ite _ _ _ _ _ inferInstance ?_
  refine @Honest.bind _ _ _ _ inferInstance fun o => ?_
  cases o <;> infer_instance

instance : Honest (blockWith block) := by unfold blockWith; infer_instance

set_option synthInstance.maxSize 1000 in
theorem reads_typeRef {name : Token} {t : TypeRef} {begun : Bool} : (typeRef name).Reads r (t, begun) s ↔
    (r.advance.current.kind = .keyword .list ∧ r.advance.advance.current.kind = .punct .less ∧
      r.advance.advance.advance.current.kind = .ident ∧
      r.advance.advance.advance.advance.current.kind =
        .punct (if begun then .greaterEqual else .greater) ∧
      t = .named (some r.advance.advance.advance.current.ident) true (r.advance.current.span.through
        { r.advance.advance.advance.advance.current.span with
          stop := r.advance.advance.advance.advance.current.span.start + 1 }) ∧
      s = r.advance.advance.advance.advance) ∨
    (r.advance.current.kind = .ident ∧ begun = false ∧
      t = .named (some r.advance.current.ident) false r.advance.current.span ∧ s = r.advance) := by
  unfold typeRef
  rw [reads_peek_bind, Reader.peek_eq]
  split
  · rename_i hk
    simp [hk]
  · rename_i hk
    simp only [reads_bind, reads_advance, exists_unit_eq, reads_current, exists_eq_and_eq, reads_expect,
      exists_unit_and_eq, reads_currentIdent, reads_peek, reads_ite, reads_pure, not_reads_refuse, Reader.peek_eq, hk,
      true_and, reduceCtorEq, false_and, or_false, Prod.mk.injEq]
    refine and_congr_right fun _ => and_congr_right fun _ => ?_
    constructor
    · intro h
      split at h
      · rename_i hc
        obtain ⟨⟨rfl, rfl⟩, rfl⟩ := h
        refine ⟨?_, rfl, rfl⟩
        rcases (by simpa using hc) with hc | hc <;> simp [hc]
      · exact h.elim
    · rintro ⟨hc, rfl, rfl⟩
      rw [if_pos (by cases begun <;> simp [hc])]
      exact ⟨⟨rfl, by cases begun <;> simp [hc]⟩, rfl⟩
  · rename_i h1 h2
    simp only [reads_bind, reads_current, exists_eq_and_eq, reads_expect, exists_unit_and_eq, reads_pure,
      Reader.peek_eq, Prod.mk.injEq]
    constructor
    · rintro ⟨hk, ⟨rfl, rfl⟩, rfl⟩
      exact .inr ⟨hk, rfl, rfl, rfl⟩
    · rintro (⟨hk, -⟩ | ⟨hk, rfl, rfl, rfl⟩)
      · exact absurd hk h2
      · exact ⟨hk, ⟨rfl, rfl⟩, rfl⟩

theorem reads_initFollows {b c : Bool} : (initFollows b).Reads r c s ↔
    if b = false ∧ r.advance.current.kind = .punct .assign then c = true ∧ s = r.advance else c = b ∧ s = r := by
  unfold initFollows
  simp only [reads_bind, reads_peek, exists_eq_and_eq, reads_ite, reads_advance, exists_unit_eq, reads_pure,
    Reader.peek_eq]
  cases b <;> simp

theorem reads_varDecl : varDecl.Reads r st s ↔ ∃ t b m c n, (typeRef r.current).Reads r.advance (t, b) m ∧
    (initFollows b).Reads m c n ∧
    ((c = true ∧ ∃ e, expr.Reads n.advance e s ∧
      st = .varDecl (some r.current.ident) (some t) e (r.current.span.through e.span)) ∨
     (c = false ∧ st = .varDecl (some r.current.ident) (some t) .absent (r.current.span.through n.current.span) ∧
      s = n)) := by
  change (typeRef r.current >>= _).Reads r.advance st s ↔ _
  rw [@reads_bind _ _ _ _ _ _ _ _ (by rintro ⟨t, b⟩; infer_instance)]
  have key : ∀ {b : Bool} {x y : Prop}, (if b then x else y) ↔ (b = true ∧ x) ∨ (b = false ∧ y) := by
    intro b
    cases b <;> simp
  constructor
  · rintro ⟨⟨t, b⟩, m, ht, h⟩
    simp only [reads_bind, reads_ite, reads_advance, exists_unit_eq, reads_current, exists_eq_and_eq, reads_pure,
      key] at h
    obtain ⟨c, n, hc, ⟨rfl, e, q, he, rfl, rfl⟩ | ⟨rfl, rfl, rfl⟩⟩ := h
    · exact ⟨t, b, m, true, n, ht, hc, .inl ⟨rfl, e, he, rfl⟩⟩
    · exact ⟨t, b, m, false, s, ht, hc, .inr ⟨rfl, rfl, rfl⟩⟩
  · rintro ⟨t, b, m, c, n, ht, hc, h⟩
    refine ⟨(t, b), m, ht, ?_⟩
    simp only [reads_bind, reads_ite, reads_advance, exists_unit_eq, reads_current, exists_eq_and_eq, reads_pure, key]
    rcases h with ⟨rfl, e, he, rfl⟩ | ⟨rfl, rfl, rfl⟩
    · exact ⟨true, n, hc, .inl ⟨rfl, e, s, he, rfl, rfl⟩⟩
    · exact ⟨false, s, hc, .inr ⟨rfl, rfl, rfl⟩⟩

theorem reads_assignment : assignment.Reads r st s ↔ ∃ n m e, dottedName.Reads r n m ∧
    expr.Reads m.advance.advance e s ∧ st = .assign (some n) e (n.span.through e.span) := by
  unfold assignment
  simp only [reads_bind, reads_advance, exists_unit_eq, reads_pure, exists_last, exists_and_left]

theorem reads_exprStmt : exprStmt.Reads r st s ↔ ∃ e, expr.Reads r e s ∧ st = .expr e e.span := by
  unfold exprStmt
  simp only [reads_bind, reads_pure, exists_last]

theorem reads_returnStmt : returnStmt.Reads r st s ↔ ∃ e, expr.Reads r.advance e s ∧
    st = .ret e (r.current.span.through e.span) := by
  unfold returnStmt
  simp only [reads_bind, reads_current, exists_eq_and_eq, reads_advance, exists_unit_eq, reads_pure, exists_last]

theorem reads_condBlock {c : Expr} {b : Block} : (condBlock block).Reads r (c, b) s ↔ ∃ m,
    expr.Reads r.advance c m ∧ m.advance.current.kind = .punct .lbrace ∧ block.Reads m.advance b s := by
  unfold condBlock
  simp only [reads_bind, reads_advance, exists_unit_eq, reads_expect, exists_unit_and_eq, reads_pure, Reader.peek_eq,
    Prod.mk.injEq]
  constructor
  · rintro ⟨_, m, hc, hk, _, q, hb, ⟨rfl, rfl⟩, rfl⟩
    exact ⟨m, hc, hk, hb⟩
  · rintro ⟨m, hc, hk, hb⟩
    exact ⟨c, m, hc, hk, b, s, hb, ⟨rfl, rfl⟩, rfl⟩

theorem reads_elseBlock {b : Block} : (elseBlock block).Reads r b s ↔
    if r.advance.current.kind = .keyword .else then
      r.advance.advance.current.kind = .punct .lbrace ∧ block.Reads r.advance.advance b s
    else b = .absent ∧ s = r := by
  unfold elseBlock
  simp only [reads_bind, reads_peek, exists_eq_and_eq, reads_ite, reads_advance, exists_unit_eq, reads_expect,
    exists_unit_and_eq, reads_pure, Reader.peek_eq]

theorem reads_ifStmt : (ifStmt block).Reads r st s ↔ ∃ c y n m, (condBlock block).Reads r (c, y) m ∧
    (elseBlock block).Reads m n s ∧ st = .ifElse c y n (r.current.span.through s.current.span) := by
  change (condBlock block >>= _).Reads r st s ↔ _
  rw [@reads_bind _ _ _ _ _ _ _ _ (by rintro ⟨c, y⟩; infer_instance)]
  constructor
  · rintro ⟨⟨c, y⟩, m, hc, h⟩
    simp only [reads_bind, reads_current, exists_eq_and_eq, reads_pure] at h
    obtain ⟨n, q, hn, rfl, rfl⟩ := h
    exact ⟨c, y, n, m, hc, hn, rfl⟩
  · rintro ⟨c, y, n, m, hc, hn, rfl⟩
    refine ⟨(c, y), m, hc, ?_⟩
    simp only [reads_bind, reads_current, exists_eq_and_eq, reads_pure]
    exact ⟨n, s, hn, rfl, rfl⟩

theorem reads_whileStmt : (whileStmt block).Reads r st s ↔ ∃ c b, (condBlock block).Reads r (c, b) s ∧
    st = .whileLoop c b (r.current.span.through s.current.span) := by
  change (condBlock block >>= _).Reads r st s ↔ _
  rw [@reads_bind _ _ _ _ _ _ _ _ (by rintro ⟨c, y⟩; infer_instance)]
  constructor
  · rintro ⟨⟨c, b⟩, m, hc, h⟩
    simp only [reads_bind, reads_current, exists_eq_and_eq, reads_pure] at h
    obtain ⟨rfl, rfl⟩ := h
    exact ⟨c, b, hc, rfl⟩
  · rintro ⟨c, b, hc, rfl⟩
    refine ⟨(c, b), s, hc, ?_⟩
    simp only [reads_bind, reads_current, exists_eq_and_eq, reads_pure, and_self]

theorem reads_withStmt : (withStmt block).Reads r st s ↔ ∃ c b, (condBlock block).Reads r (c, b) s ∧
    st = .withBlock c b (r.current.span.through s.current.span) := by
  change (condBlock block >>= _).Reads r st s ↔ _
  rw [@reads_bind _ _ _ _ _ _ _ _ (by rintro ⟨c, y⟩; infer_instance)]
  constructor
  · rintro ⟨⟨c, b⟩, m, hc, h⟩
    simp only [reads_bind, reads_current, exists_eq_and_eq, reads_pure] at h
    obtain ⟨rfl, rfl⟩ := h
    exact ⟨c, b, hc, rfl⟩
  · rintro ⟨c, b, hc, rfl⟩
    refine ⟨(c, b), s, hc, ?_⟩
    simp only [reads_bind, reads_current, exists_eq_and_eq, reads_pure, and_self]

theorem reads_nameStmt : nameStmt.Reads r st s ↔
    if r.advance.current.kind = .punct .colon then varDecl.Reads r st s
    else if r.afterChain.1.kind = .punct .assign then assignment.Reads r.afterChain.2 st s
    else exprStmt.Reads r.afterChain.2 st s := by
  unfold nameStmt
  simp only [reads_bind, reads_peek, exists_eq_and_eq, reads_ite, reads_afterChain, Reader.peek_eq]

/-- One statement of a block, up to its semicolon. -/
def ReadsStmt (block : Rule Block) (r : Reader) (st : Stmt) (s : Reader) : Prop :=
  r.current.kind ≠ .punct .rbrace ∧ r.current.kind ≠ .eof ∧
    ∃ m, (stmt block).Reads r st m ∧ m.advance.current.kind = .punct .semicolon ∧ s = m.advance

theorem steps_readsStmt : Steps (ReadsStmt block) where
  leads := by
    rintro r st s ⟨-, -, m, hm, -, rfl⟩
    exact hm.leads.trans (.advance m)
  notEof h := h.2.1

theorem reads_finishStmt {u : Unit} : finishStmt.Reads r u s ↔
    r.advance.current.kind = .punct .semicolon ∧ s = r.advance.advance := by
  unfold finishStmt
  simp only [reads_bind, reads_peek, exists_eq_and_eq, reads_ite, reads_advance, exists_unit_eq, Reader.peek_eq,
    not_reads_report, false_and, exists_false]
  split <;> simp_all

theorem reads_stmtRound {ss : Array Stmt} {o : Round (Array Stmt)} : (stmtRound block ss).Reads r o s ↔
    ((r.current.kind = .punct .rbrace ∨ r.current.kind = .eof) ∧ o = .stop ss ∧ s = r) ∨
    ∃ st m, ReadsStmt block r st m ∧ o = .again (ss.push st) ∧ s = m.advance := by
  unfold stmtRound
  rw [reads_current_bind, reads_ite]
  simp only [Bool.or_eq_true, decide_eq_true_eq]
  split
  · rename_i hk
    rw [reads_pure]
    constructor
    · exact fun h => .inl ⟨hk, h⟩
    · rintro (⟨-, h⟩ | ⟨st, m, ⟨h1, h2, -⟩, -⟩)
      · exact h
      · exact absurd hk (not_or.2 ⟨h1, h2⟩)
  · rename_i hk
    obtain ⟨hk1, hk2⟩ := not_or.1 hk
    rw [@reads_attempt_bind _ _ _ _ _ _ _ _ (by rintro (_ | _) <;> infer_instance)]
    simp only [reads_bind, reads_finishStmt, exists_unit_and_eq, reads_pure]
    constructor
    · rintro ⟨st, m, hm, hs, rfl, rfl⟩
      exact .inr ⟨st, m.advance, ⟨hk1, hk2, m, hm, hs, rfl⟩, rfl, rfl⟩
    · rintro (⟨h, -⟩ | ⟨st, _, ⟨-, -, m, hm, hs, rfl⟩, rfl, rfl⟩)
      · exact absurd h hk
      · exact ⟨st, m, hm, hs, rfl, rfl⟩

theorem reads_blockWith {b : Block} (hr : r.WF) : (blockWith block).Reads r b s ↔ ∃ ss,
    InTurn (ReadsStmt block) r.advance ss s ∧ s.current.kind = .punct .rbrace ∧
      b = .mk ss (r.current.span.through s.current.span) := by
  have hloop : ∀ {ts : Array Stmt} {m : Reader}, (loop (stmtRound block) #[]).Reads r.advance ts m ↔
      ∃ ss, InTurn (ReadsStmt block) r.advance ss m ∧
        (m.current.kind = .punct .rbrace ∨ m.current.kind = .eof) ∧ ts = ss.toArray := by
    intro ts m
    constructor
    · intro h
      obtain ⟨ss, h1, h2, h3⟩ := InTurn.of_loop id Array.push
        (fun r => r.current.kind = .punct .rbrace ∨ r.current.kind = .eof) (@steps_readsStmt block _)
        (by simp [reads_stmtRound]) (by simp [reads_stmtRound]) hr.advance h
      exact ⟨ss, h1, h2, by simpa using h3⟩
    · rintro ⟨ss, h1, h2, rfl⟩
      obtain ⟨ts, hts, h3⟩ := InTurn.reads_loop id Array.push
        (fun r => r.current.kind = .punct .rbrace ∨ r.current.kind = .eof) (@steps_readsStmt block _)
        (fun ss r st n h => ⟨_, reads_stmtRound.2 (.inr ⟨st, n, h, rfl, rfl⟩), rfl⟩)
        (fun ss r h => reads_stmtRound.2 (.inl ⟨h, rfl, rfl⟩)) h2 #[] h1 hr.advance
      have h3 : ts = ss.toArray := by simpa using h3
      rwa [h3] at hts
  unfold blockWith
  simp only [reads_bind, reads_current, exists_eq_and_eq, reads_advance, exists_unit_eq, hloop, reads_ite, reads_pure]
  constructor
  · rintro ⟨_, m, ⟨ss, hss, hk, rfl⟩, h⟩
    split at h
    · simp at h
    · rename_i hne
      obtain ⟨rfl, rfl⟩ := h
      exact ⟨ss, hss, hk.resolve_right hne, rfl⟩
  · rintro ⟨ss, hss, hk, rfl⟩
    refine ⟨ss.toArray, s, ⟨ss, hss, .inl hk, rfl⟩, ?_⟩
    rw [if_neg (by simp [hk])]
    exact ⟨rfl, rfl⟩

instance blockAt_honest : ∀ d, Honest (blockAt d)
  | 0 => by unfold blockAt; infer_instance
  | d + 1 => by
    have := blockAt_honest d
    unfold blockAt
    infer_instance

instance : Honest Rule.block where
  leads r := (blockAt_honest (r.budget + 1)).leads r
  speaks r s h := (blockAt_honest (r.budget + 1)).speaks r s h

end Specs

/-! ## Soundness -/

/-- A canonical statement that spells the tokens read, edits included. -/
structure SpellsStmt (r : Reader) (st : Stmt) (s : Reader) : Prop where
  canonical : st.Canonical
  edit : Edit r.rest st.lexemes s.advance.rest [] st.listStops

/-- A canonical block that spells the tokens read up to the brace that closes it. -/
structure SpellsBlock (r : Reader) (b : Block) (s : Reader) : Prop where
  canonical : b.Canonical
  edit : Edit r.rest (.punct .lbrace :: Stmt.lexemesAll b.stmts) s.rest [] b.listStops
  closed : s.current.kind = .punct .rbrace
  stop : b.span.stop = s.current.span.stop

theorem Block.Canonical.lexemes {b : Block} (hb : b.Canonical) :
    b.lexemes = .punct .lbrace :: Stmt.lexemesAll b.stmts ++ [Lexeme.punct .rbrace] := by
  cases b with
  | absent => exact hb.elim
  | mk ss s => rw [Block.lexemes]; rfl

theorem SpellsBlock.whole {r s : Reader} {b : Block} (h : SpellsBlock r b s) (hs : s.WF) :
    Edit r.rest b.lexemes s.advance.rest [] b.listStops := by
  rw [Block.Canonical.lexemes h.canonical]
  exact h.edit.spells (hs.spells_punct h.closed (spells_nil.2 rfl))

/-- What a rule for blocks reads is spelled. -/
def SoundBlock (block : Rule Block) : Prop :=
  ∀ ⦃r b s⦄, r.WF → r.current.kind = .punct .lbrace → block.Reads r b s → SpellsBlock r b s

variable {block : Rule Block} [Honest block] {r s : Reader} {st : Stmt}

theorem sound_typeRef {name : Token} {t : TypeRef} {begun : Bool} (hr : r.WF)
    (h : (typeRef name).Reads r (t, begun) s) : t.Canonical ∧
      Edit r.advance.rest (t.lexemes ++ if begun then [.punct .assign] else []) s.advance.rest []
        (TypeRef.listStops (some t)) := by
  have h1 := hr.advance
  rcases reads_typeRef.1 h with ⟨k1, k2, k3, k4, rfl, rfl⟩ | ⟨k1, rfl, rfl, rfl⟩
  · have h2 := h1.advance
    have h3 := h2.advance
    have h4 := h3.advance
    refine ⟨h3.ident_canonical k3, ?_⟩
    have hne : r.advance.advance.advance.advance.current.kind ≠ .eof := by rw [k4]; exact nofun
    -- the list type stops behind the first character of the token that closes it
    have hstop : TypeRef.listStops (some (.named (some r.advance.advance.advance.current.ident) true
        (r.advance.current.span.through { r.advance.advance.advance.advance.current.span with
          stop := r.advance.advance.advance.advance.current.span.start + 1 }))) =
        [r.advance.advance.advance.advance.current.span.start + 1] := by
      have := h1.stop_le (by rw [k1]; exact nofun)
        (((Reader.Leads.refl _).trans (.advance _)).trans (.advance r.advance.advance.advance)) hne
      simp only [TypeRef.listStops, Span.through, List.cons.injEq, and_true]
      omega
    rw [hstop]
    have hclose : Edit r.advance.advance.advance.advance.rest
        (.punct .greater :: if begun then [.punct .assign] else [])
        r.advance.advance.advance.advance.advance.rest []
        [r.advance.advance.advance.advance.current.span.start + 1] := by
      rw [h4.rest_eq hne]
      cases begun with
      | false =>
        have k4 : r.advance.advance.advance.advance.current.kind = .punct .greater := k4
        rw [← (h4.current_wf hne).valid.punct k4]
        exact .list k4 .nil
      | true => exact .split k4 .nil
    simp only [TypeRef.lexemes, if_true, Ident.lexemes?, List.cons_append, List.nil_append]
    exact (h1.spells_keyword k1 (h2.spells_punct k2 (h3.spells_ident k3 (spells_nil.2 rfl)))).edit hclose
  · exact ⟨h1.ident_canonical k1, (h1.spells_ident k1 (spells_nil.2 rfl)).toEdit⟩

theorem sound_varDecl (hr : r.WF) (hk : r.current.kind = .ident) (hc : r.advance.current.kind = .punct .colon)
    (h : varDecl.Reads r st s) : SpellsStmt r st s := by
  obtain ⟨t, b, m, c, n, ht, hi, h⟩ := reads_varDecl.1 h
  obtain ⟨htc, hte⟩ := sound_typeRef hr.advance ht
  have hm := ht.leads.wf hr.advance
  have hx := hr.ident_canonical hk
  have hbase := (hr.spells_ident hk (hr.advance.spells_punct hc (spells_nil.2 rfl))).edit hte
  rw [reads_initFollows] at hi
  split at hi
  · rename_i hb
    obtain ⟨rfl, ha⟩ := hb
    obtain ⟨rfl, rfl⟩ := hi
    rcases h with ⟨-, e, he, rfl⟩ | ⟨h, -⟩
    · have he := sound_expr hm.advance.advance he
      refine ⟨.varDecl hx htc (.inr he.canonical), ?_⟩
      rw [Stmt.lexemes_varDecl he.canonical.ne_absent]
      have := hbase.spells (hm.advance.spells_punct ha he.spells)
      simpa [Ident.lexemes?, Stmt.listStops] using this
    · cases h
  · obtain ⟨rfl, rfl⟩ := hi
    rcases h with ⟨rfl, e, he, rfl⟩ | ⟨rfl, rfl, rfl⟩
    · have he := sound_expr hm.advance he
      refine ⟨.varDecl hx htc (.inr he.canonical), ?_⟩
      rw [Stmt.lexemes_varDecl he.canonical.ne_absent]
      have := hbase.spells he.spells
      simpa [Ident.lexemes?, Stmt.listStops] using this
    · refine ⟨.varDecl hx htc (.inl rfl), ?_⟩
      simpa [Stmt.lexemes, Ident.lexemes?, Stmt.listStops] using hbase

theorem sound_exprStmt (hr : r.WF) (h : exprStmt.Reads r st s) : SpellsStmt r st s := by
  obtain ⟨e, he, rfl⟩ := reads_exprStmt.1 h
  have he := sound_expr hr he
  exact ⟨.expr he.canonical, he.spells.toEdit⟩

theorem sound_assignment (hr : r.WF) (ha : r.afterChain.1.kind = .punct .assign)
    (h : assignment.Reads r.afterChain.2 st s) : SpellsStmt r st s := by
  obtain ⟨n, m, e, hn, he, rfl⟩ := reads_assignment.1 h
  have hr' : r.afterChain.2.WF := hr.look _
  have hm := hn.leads.wf hr'
  obtain ⟨hnc, hns, hnd⟩ := sound_dottedName hr' hn
  have he := sound_expr hm.advance.advance he
  have hk : m.advance.current.kind = .punct .assign := by
    rw [hm.advance.current_kind] at hnd ⊢
    exact (afterChain_of_spells hr hnc.nonempty hns hnd).symm.trans ha
  exact ⟨.assign hnc he.canonical, (hns.append (hm.advance.spells_punct hk he.spells)).toEdit⟩

theorem sound_returnStmt (hr : r.WF) (hk : r.current.kind = .keyword .return) (h : returnStmt.Reads r st s) :
    SpellsStmt r st s := by
  obtain ⟨e, he, rfl⟩ := reads_returnStmt.1 h
  have he := sound_expr hr.advance he
  exact ⟨.ret he.canonical, (hr.spells_keyword hk he.spells).toEdit⟩

theorem sound_nameStmt (hr : r.WF) (hk : r.current.kind = .ident) (h : nameStmt.Reads r st s) :
    SpellsStmt r st s := by
  rw [reads_nameStmt] at h
  split at h
  · rename_i hc
    exact sound_varDecl hr hk hc h
  · split at h
    · rename_i ha
      exact sound_assignment hr ha h
    · obtain ⟨h1, h2⟩ := sound_exprStmt (hr.look _) h
      exact ⟨h1, h2⟩

/-- A keyword, an expression and a block are spelled as such. -/
theorem sound_condBlock (hb : SoundBlock block) {k : Keyword} {c : Expr} {b : Block} (hr : r.WF)
    (hk : r.current.kind = .keyword k) (h : (condBlock block).Reads r (c, b) s) :
    c.Canonical ∧ b.Canonical ∧ Edit r.rest (.keyword k :: (c.lexemes ++ b.lexemes)) s.advance.rest [] b.listStops := by
  obtain ⟨m, hc, hl, hbl⟩ := reads_condBlock.1 h
  have hm := hc.leads.wf hr.advance
  have hc := sound_expr hr.advance hc
  have hs := hbl.leads.wf hm.advance
  have hbl := hb hm.advance hl hbl
  exact ⟨hc.canonical, hbl.canonical, (hr.spells_keyword hk hc.spells).edit (hbl.whole hs)⟩

theorem sound_ifStmt (hb : SoundBlock block) (hr : r.WF) (hk : r.current.kind = .keyword .if)
    (h : (ifStmt block).Reads r st s) : SpellsStmt r st s := by
  obtain ⟨c, y, n, m, hcy, hn, rfl⟩ := reads_ifStmt.1 h
  obtain ⟨hc, hy, he⟩ := sound_condBlock hb hr hk hcy
  have hm := hcy.leads.wf hr
  obtain ⟨ys, t, rfl⟩ : ∃ ys t, y = .mk ys t := ⟨_, _, hy.eq_mk⟩
  rw [reads_elseBlock] at hn
  split at hn
  · rename_i hk'
    obtain ⟨hl, hn⟩ := hn
    have hs := hn.leads.wf hm.advance.advance
    have hn := hb hm.advance.advance hl hn
    obtain ⟨ns, u, rfl⟩ : ∃ ns u, n = .mk ns u := ⟨_, _, hn.canonical.eq_mk⟩
    refine ⟨.ifElse hc hy hn.canonical, ?_⟩
    have := he.append ((hm.advance.spells_keyword hk' (spells_nil.2 rfl)).edit (hn.whole hs))
    simpa [Stmt.lexemes, Stmt.listStops] using this
  · obtain ⟨rfl, rfl⟩ := hn
    refine ⟨.ifThen hc hy, ?_⟩
    simpa [Stmt.lexemes, Stmt.listStops, Block.listStops] using he

theorem sound_whileStmt (hb : SoundBlock block) (hr : r.WF) (hk : r.current.kind = .keyword .while)
    (h : (whileStmt block).Reads r st s) : SpellsStmt r st s := by
  obtain ⟨c, b, hcb, rfl⟩ := reads_whileStmt.1 h
  obtain ⟨hc, hbc, he⟩ := sound_condBlock hb hr hk hcb
  obtain ⟨bs, t, rfl⟩ : ∃ bs t, b = .mk bs t := ⟨_, _, hbc.eq_mk⟩
  exact ⟨.whileLoop hc hbc, he⟩

theorem sound_withStmt (hb : SoundBlock block) (hr : r.WF) (hk : r.current.kind = .keyword .with)
    (h : (withStmt block).Reads r st s) : SpellsStmt r st s := by
  obtain ⟨c, b, hcb, rfl⟩ := reads_withStmt.1 h
  obtain ⟨hc, hbc, he⟩ := sound_condBlock hb hr hk hcb
  obtain ⟨bs, t, rfl⟩ : ∃ bs t, b = .mk bs t := ⟨_, _, hbc.eq_mk⟩
  exact ⟨.withBlock hc hbc, he⟩

theorem sound_stmt (hb : SoundBlock block) (hr : r.WF) (h : (stmt block).Reads r st s) : SpellsStmt r st s := by
  unfold stmt at h
  rw [reads_current_bind] at h
  split at h <;> rename_i hk
  · exact sound_ifStmt hb hr hk h
  · exact sound_whileStmt hb hr hk h
  · exact sound_withStmt hb hr hk h
  · exact sound_returnStmt hr hk h
  · exact sound_nameStmt hr hk h
  · exact sound_exprStmt hr h

theorem sound_blockWith (hb : SoundBlock block) : SoundBlock (blockWith block) := by
  intro r b s hr hk h
  obtain ⟨ss, hss, hcl, rfl⟩ := (reads_blockWith hr).1 h
  have hst : ∀ ⦃r st s⦄, r.WF → ReadsStmt block r st s → st.Canonical ∧
      Edit r.rest (st.lexemes ++ [Lexeme.punct .semicolon]) s.advance.rest [] st.listStops := by
    rintro r st s hr ⟨-, -, m, hm, hsemi, rfl⟩
    obtain ⟨hc, he⟩ := sound_stmt hb hr hm
    exact ⟨hc, he.spells ((hm.leads.wf hr).advance.spells_punct hsemi (spells_nil.2 rfl))⟩
  obtain ⟨hc, he⟩ := hss.sound steps_readsStmt hst hr.advance
  rw [InTurn.flatMap_nil] at he
  have hne : r.current.kind ≠ .eof := by simp [hk]
  refine ⟨hc, ?_, hcl, ?_⟩
  · have := (hr.spells_punct hk (spells_nil.2 rfl)).edit he
    simpa [Block.stmts, Block.listStops] using this
  · have h1 := hr.stop_le hne (hss.leads steps_readsStmt) (by simp [hcl])
    have h2 := (((hss.leads steps_readsStmt).wf hr.advance).current_wf (by simp [hcl])).nonempty
    simp only [Block.span, Span.through]
    omega

theorem soundBlock_blockAt : ∀ d, SoundBlock (blockAt d)
  | 0 => by
    intro r b s _ _ h
    exact absurd h (by simp [blockAt])
  | d + 1 => sound_blockWith (soundBlock_blockAt d)

theorem sound_block : SoundBlock Rule.block := fun r _ _ hr hk h => soundBlock_blockAt (r.budget + 1) hr hk h

end Rule
end SemFront
