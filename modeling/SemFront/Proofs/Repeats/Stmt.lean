/-
Statements and blocks tell nothing twice but what the end of the input cuts off. A statement that cannot be
read is given up with the token at which it failed, unless that is the first of another statement or closes
the block, and then nothing was told of the token behind it. A block that the input cuts off tells of its
own brace, which was opened before those of all blocks in it.
-/
import SemFront.Proofs.Repeats.Expr

namespace SemFront

open Problem (Missing)

theorem Reader.Placed.start_of_eof {cs : List Char} {r : Reader} (hr : r.Placed cs) (hk : r.current.kind = .eof) :
    r.start = cs.length := by
  obtain ⟨j, heof⟩ := hr.eof
  unfold Reader.start Reader.current
  rw [hr.wf.rest_eq_nil hk]
  exact heof.start

namespace Rule

variable {W : Vantage} {r m s : Reader} {here next : Problem → Prop}

/-! ## Variables and assignments -/

/-- A type that is missing in front of `=` is told of at that token; otherwise nothing is told of the token
behind a type. -/
theorem typeRef_clear {name : Token} (h : r.Done W Kind.isInside) : (typeRef name).Ensures r
    (fun t s => s.Clear W Anything (fun _ => t.2 = false ∧ s.advance.current.kind = .punct .assign) ∧
      s.current.kind ≠ .eof) (fun s => s.Stuck W Kind.isInside) := by
  have hne := h.notEof rfl
  have hdone : ∀ {m : Reader} {next : Problem → Prop}, m.Done W Kind.isInside →
      m.Clear W Anything next ∧ m.current.kind ≠ .eof :=
    fun h => ⟨h.clear.mono (fun _ h => h) (fun _ => False.elim), h.notEof rfl⟩
  unfold typeRef
  rw [ensures_bind, ensures_peek]
  split
  · rename_i hk
    simp only [ensures_bind, ensures_report, ensures_pure]
    refine ⟨(h.clear.report_next ⟨rfl, rfl⟩ hne rfl fun _ => False.elim).mono (fun _ h => h) fun _ _ => ?_, hne⟩
    exact ⟨trivial, hk⟩
  · rename_i hk
    simp only [ensures_bind, ensures_advance, ensures_current, ensures_expect, ensures_currentIdent, ensures_peek,
      ensures_ite, ensures_pure, ensures_refuse]
    have hlist : r.advance.Done W Kind.isInside := (h.advance rfl).done (by rw [hk]; rfl)
    split
    · rename_i hless
      have hopen : r.advance.advance.Done W Kind.isInside := (hlist.advance rfl).done (by rw [hless]; rfl)
      split
      · rename_i hident
        have helem := (hopen.advance rfl).done (K := Kind.isInside) (by rw [hident]; rfl)
        split
        · rename_i hclose
          have hclose : r.advance.advance.advance.advance.current.kind.isInside = true := by
            rcases Bool.or_eq_true_iff.1 hclose with hclose | hclose <;> rw [of_decide_eq_true hclose] <;> rfl
          exact hdone ((helem.advance rfl).done hclose)
        · exact helem.refuse rfl (by decide)
      · exact hopen.refuse rfl (by decide)
    · exact hlist.refuse rfl (by decide)
  · simp only [ensures_bind, ensures_expect, ensures_current, ensures_pure]
    split
    · rename_i hident
      exact hdone ((h.advance rfl).done (by rw [hident]; rfl))
    · exact h.refuse rfl (by decide)

theorem orderly_varDecl (h : r.Clear W Missing Nothing) (hk : r.current.kind = .ident)
    (hc : r.advance.current.kind = .punct .colon) : varDecl.Ensures r
      (fun _ s => s.Clear W Anything Nothing) (fun s => s.Stuck W Kind.isInside) := by
  have hcolon : r.advance.Done W Kind.isInside := (h.advance (hk.trans_ne (by decide))).done (by rw [hc]; rfl)
  unfold varDecl initFollows
  simp only [ensures_bind, ensures_current, ensures_advance]
  refine (typeRef_clear hcolon).mono ?_ (fun _ h => h)
  rintro ⟨type, begun⟩ m ⟨hm, hne⟩
  simp only [ensures_bind, ensures_peek, ensures_ite, ensures_advance, ensures_pure, ensures_current]
  have hinit : ∀ {n : Reader}, n.Fresh W → expr.Ensures n (fun _ s => s.Clear W Anything Nothing)
      (fun s => s.Stuck W Kind.isInside) :=
    fun hn => (orderly_expr hn.clear).mono (fun _ _ h => h.clear) (fun _ h => h)
  split
  · -- what may have been told of `=` is passed with it
    rename_i hassign
    have hassign : m.advance.current.kind = .punct .assign := of_decide_eq_true (Bool.and_eq_true_iff.1 hassign).2
    rw [if_pos trivial]
    exact hinit ((hm.pass hne (.refl _) rfl).advance (hassign.trans_ne (by decide)))
  · rename_i hassign
    have hm' : m.Clear W Anything Nothing := hm.mono (fun _ h => h) fun _ h =>
      hassign (by simp [show begun = false from h.1, h.2])
    split
    · exact hinit (hm'.advance hne)
    · exact hm'

theorem orderly_assignment (h : r.Clear W Missing Nothing) (hk : r.current.kind = .ident) : assignment.Ensures r
    (fun _ s => s.Clear W Anything Nothing) (fun s => s.Stuck W Kind.isInside) := by
  unfold assignment
  simp only [ensures_bind, ensures_advance, ensures_pure]
  refine (dottedName_clear h hk).mono (fun name m hm => ?_) (fun _ h => h.1)
  have hnext : m.advance.advance.Fresh W := (hm.1.advance (hm.2.trans_ne (by decide))).advance
  exact (orderly_expr hnext.clear).mono (fun _ _ h => h.clear) (fun _ h => h)

/-! ## Statements -/

theorem orderly_exprStmt (h : r.Clear W Missing Nothing) : exprStmt.Ensures r
    (fun _ s => s.Clear W Anything Nothing) (fun s => s.Stuck W Kind.isInside) := by
  unfold exprStmt
  simp only [ensures_bind, ensures_pure]
  exact (orderly_expr h).mono (fun _ _ h => h.clear) (fun _ h => h)

theorem orderly_nameStmt (h : r.Clear W Missing Nothing) (hk : r.current.kind = .ident) : nameStmt.Ensures r
    (fun _ s => s.Clear W Anything Nothing) (fun s => s.Stuck W Kind.isInside) := by
  unfold nameStmt
  simp only [ensures_bind, ensures_peek, ensures_ite, ensures_afterChain]
  split
  · rename_i hc
    exact orderly_varDecl h hk hc
  · have hlook : r.afterChain.2.Clear W Missing Nothing := h.stay (.look r _) (.look r _) rfl
    split
    · exact orderly_assignment hlook hk
    · exact orderly_exprStmt hlook

/-- A block from its brace on, if nothing has been told of that, tells nothing of the token behind it. -/
def OrderlyBlock (block : Rule Block) : Prop := ∀ ⦃W : Vantage⦄ ⦃r : Reader⦄, r.Fresh W →
  r.current.kind = .punct .lbrace →
    block.Ensures r (fun _ s => s.Clear W Anything Nothing) (fun s => s.Stuck W Kind.isInside)

section Stmt

variable {block : Rule Block} (hblock : OrderlyBlock block)
include hblock

theorem orderly_condBlock (h : r.Clear W here Nothing) (hk : r.current.kind ≠ .eof) : (condBlock block).Ensures r
    (fun _ s => s.Clear W Anything Nothing) (fun s => s.Stuck W Kind.isInside) := by
  unfold condBlock
  simp only [ensures_bind, ensures_advance, ensures_expect, ensures_pure]
  refine (orderly_expr (h.advance hk).clear).mono (fun e m hm => ?_) (fun _ h => h)
  split
  · rename_i hbrace
    exact hblock (hm.advance rfl) hbrace
  · exact hm.refuse rfl (by decide)

theorem orderly_elseBlock (h : r.Clear W Anything Nothing) : (elseBlock block).Ensures r
    (fun _ s => s.Clear W Anything Nothing) (fun s => s.Stuck W Kind.isInside) := by
  unfold elseBlock
  simp only [ensures_bind, ensures_peek, ensures_ite, ensures_advance, ensures_expect, ensures_pure]
  split
  · rename_i helse
    have hne : r.current.kind ≠ .eof := h.placed.wf.notEof_of_next (helse.trans_ne (by decide))
    have hat : r.advance.Done W Kind.isInside := (h.advance hne).done (by rw [helse]; rfl)
    split
    · rename_i hbrace
      exact hblock (hat.advance rfl) hbrace
    · exact hat.refuse rfl (by decide)
  · exact h

/-- What was told of the first token of a statement matters only if that is no keyword of one. -/
theorem orderly_stmt (h : r.Clear W (fun p => p.Missing ∨ r.current.kind.startsStmt = true) Nothing) :
    (stmt block).Ensures r (fun _ s => s.Clear W Anything Nothing) (fun s => s.Stuck W Kind.isInside) := by
  have hmissing : r.current.kind.startsStmt = false → r.Clear W Missing Nothing := by
    intro hk
    refine h.mono (fun p hp => hp.resolve_right ?_) fun _ h => h
    rw [hk]
    exact Bool.false_ne_true
  unfold stmt
  rw [ensures_bind, ensures_current]
  split
  · rename_i hk
    unfold ifStmt
    simp only [ensures_bind, ensures_current, ensures_pure]
    refine (orderly_condBlock hblock h (hk.trans_ne (by decide))).mono (fun _ m hm => ?_) (fun _ h => h)
    exact orderly_elseBlock hblock hm
  · rename_i hk
    unfold whileStmt
    simp only [ensures_bind, ensures_current, ensures_pure]
    exact orderly_condBlock hblock h (hk.trans_ne (by decide))
  · rename_i hk
    unfold withStmt
    simp only [ensures_bind, ensures_current, ensures_pure]
    exact orderly_condBlock hblock h (hk.trans_ne (by decide))
  · rename_i hk
    unfold returnStmt
    simp only [ensures_bind, ensures_current, ensures_advance, ensures_pure]
    have hnext := h.advance (hk.trans_ne (by decide))
    exact (orderly_expr hnext.clear).mono (fun _ _ h => h.clear) (fun _ h => h)
  · rename_i hk
    exact orderly_nameStmt (hmissing (by rw [hk]; rfl)) hk
  · rename_i h1 h2 h3 h4 _
    refine orderly_exprStmt (hmissing ?_)
    unfold Kind.startsStmt
    split
    · exact absurd ‹_› h1
    · exact absurd ‹_› h2
    · exact absurd ‹_› h3
    · exact absurd ‹_› h4
    · rfl

end Stmt

/-! ## Blocks -/

/-- Where a statement of a block begins or the block ends. -/
def StmtStart (W : Vantage) (r : Reader) : Prop :=
  r.Clear W (fun p => p.Missing ∨ r.current.kind.startsStmt = true ∨ r.current.kind = .punct .rbrace ∨
    r.current.kind = .eof) Nothing

theorem finishStmt_clear (h : r.Clear W Anything Nothing) {F : Reader → Prop} :
    finishStmt.Ensures r (fun _ s => StmtStart W s) F := by
  unfold finishStmt
  simp only [ensures_bind, ensures_peek, ensures_ite, ensures_advance, ensures_report]
  split
  · rename_i hsemi
    have hne : r.current.kind ≠ .eof := h.placed.wf.notEof_of_next (hsemi.trans_ne (by decide))
    exact (h.advance hne).advance.clear
  · by_cases hne : r.current.kind = .eof
    · -- a statement that the input cuts off may tell of its semicolon again
      have hend : r.advance.current = r.current := by
        refine (Reader.Leads.advance r).current_of_length ?_
        rw [h.placed.wf.rest_eq_nil hne]
        exact Nat.zero_le _
      have hlast : (Problem.missingSemicolon r.advance.current).site = W.text.length := by
        rw [hend]
        exact h.placed.start_of_eof hne
      have hnext : (r.report (.missingSemicolon r.advance.current)).Clear W Anything Anything := by
        refine h.report (Problem.IsPlain.since ⟨rfl, rfl⟩ ?_) (fun q _ _ => .inl ⟨hlast, .inl rfl⟩)
          (.inr (.inl ⟨?_, trivial⟩)) (fun _ h => h) fun _ => False.elim
        · rw [hlast, ← h.placed.start_of_eof hne]
          exact h.since
        · rw [hlast, h.placed.start_of_eof hne]
      refine (hnext.atEnd hne (.advance _) rfl).mono (fun p _ => .inr (.inr (.inr ?_))) fun _ h => h
      change r.advance.current.kind = .eof
      rw [hend]
      exact hne
    · have hnext := h.report_next (p := .missingSemicolon r.advance.current) ⟨rfl, rfl⟩ hne rfl fun _ => False.elim
      refine (hnext.pass hne (.refl _) rfl).mono ?_ fun _ h => h
      rintro p (hp | rfl)
      · exact hp.elim
      · exact .inl (.inr rfl)

/-- Recovery of a statement stays at a token only if that ends the block or begins a statement. -/
theorem skipOf_statement_eq_zero {start : Token} (hm : m.WF) (h : (skipOf .statement start m).count = 0) :
    m.current.kind.startsStmt = true ∨ m.current.kind = .punct .rbrace ∨ m.current.kind = .eof := by
  by_cases hk : m.current.kind = .eof
  · exact .inr (.inr hk)
  · unfold skipOf at h
    rw [hm.rest_eq hk] at h
    split at h
    · exact absurd h (Nat.ne_of_gt skipUnit_pos)
    · unfold skipFrom boundary? at h
      split at h
      · exact absurd h (Nat.succ_ne_zero _)
      · split at h
        · rename_i hbrace
          exact .inr (.inl hbrace)
        · split at h
          · exact absurd h (Nat.succ_ne_zero _)
          · split at h
            · exact absurd h Nat.one_ne_zero
            · by_cases hstmt : m.current.kind.startsStmt = true
              · exact .inl hstmt
              · rw [if_neg hstmt] at h
                exact absurd h (Nat.succ_ne_zero _)

theorem not_isInside {k : Kind} (h : k.startsStmt = true ∨ k = .punct .rbrace ∨ k = .eof) : k.isInside = false := by
  rcases h with h | rfl | rfl
  · unfold Kind.startsStmt at h
    split at h
    · rfl
    · rfl
    · rfl
    · rfl
    · cases h
  · rfl
  · rfl

theorem recover_statement {start : Token} (h : m.Stuck W Kind.isInside) {F : Reader → Prop} :
    (recover .statement start).Ensures m (fun _ s => StmtStart W s) F := by
  refine (recover_clear h).mono ?_ (fun _ h => h)
  rintro span s (⟨hz, hl, hs⟩ | ⟨-, hs⟩)
  · have hk := skipOf_statement_eq_zero h.placed.wf hz
    rw [← hl.current] at hk
    refine hs.mono (fun _ _ => .inr hk) fun p hp => ?_
    have hin := hp.2.1
    rw [← hl.current, not_isInside hk] at hin
    cases hin
  · exact hs.mono (fun _ hp => .inl hp.1.missing) fun _ h => h

/-- What is left open inside of a brace that the input cuts off was opened behind it, so that each brace is told
of for itself. -/
theorem unclosed_clear {what : Enclosure} {here' next' : Problem → Prop} (h : r.Fresh W) (hk : r.current.kind ≠ .eof)
    (hl : r.advance.Leads s) (hs : s.Clear W here next)
    (hs' : s.Clear (W.at r.advance r.advance.start) here' next') (heof : s.current.kind = .eof) :
    (s.report (.unclosed what r.current s.current)).Clear W Anything Nothing := by
  have hlt : r.start < r.advance.start := h.start_lt hk (.refl _)
  have hle := h.placed.start_mono hl.of_advance
  suffices hreport : (s.report (.unclosed what r.current s.current)).Clear W Anything Anything from
    hreport.atEnd heof (.refl _) rfl
  refine hs.report ⟨hs.since, ?_, fun _ => rfl⟩ (fun q hq hqp => ?_) (.inr (.inl ⟨rfl, trivial⟩))
    (fun _ _ => trivial) fun _ _ => trivial
  · intro t ht
    rw [List.mem_singleton.1 ht]
    exact h.since
  · refine .inl ⟨hs.placed.start_of_eof heof, .inr ⟨rfl, fun hrel => ?_⟩⟩
    have hsite : q.site = s.start := hqp.2.2
    rcases hs'.known q hq with hq | hq
    · -- what was known at the brace lies before it
      rcases h.sited q hq with hq | ⟨-, hq⟩ | ⟨-, hq⟩
      · omega
      · exact hq
      · exact hq
    · have hrelated := hq.related
      rw [hrel] at hrelated
      have hopen : r.advance.start ≤ r.start := hrelated _ (List.mem_singleton_self _)
      omega

section Block

variable {block : Rule Block} [Honest block] (hblock : OrderlyBlock block)
include hblock

theorem stmts_clear {ss : Array Stmt} (h : StmtStart W r) : (loop (stmtRound block) ss).Ensures r
    (fun _ s => s.Clear W Anything Nothing) (fun _ => False) := by
  refine Ensures.loop (P := fun _ m => StmtStart W m) (fun ss m _ hm => ?_) h.placed.wf h
  unfold stmtRound
  simp only [ensures_bind, ensures_current, ensures_ite, ensures_pure, ensures_attempt]
  split
  · exact hm.mono (fun _ _ => trivial) fun _ h => h
  · rename_i hk
    have hstart : m.Clear W (fun p => p.Missing ∨ m.current.kind.startsStmt = true) Nothing := by
      refine hm.mono (fun p hp => ?_) fun _ h => h
      rcases hp with hp | hp | hp | hp
      · exact .inl hp
      · exact .inr hp
      · exact absurd (by simp [hp]) hk
      · exact absurd (by simp [hp]) hk
    refine (orderly_stmt hblock hstart).mono (fun st n hn => ?_) (fun n hn => ?_)
    · exact finishStmt_clear hn
    · exact recover_statement hn

theorem blockWith_clear (h : r.Fresh W) (hk : r.current.kind = .punct .lbrace) :
    (blockWith block).Ensures r (fun _ s => s.Clear W Anything Nothing) (fun _ => False) := by
  unfold blockWith
  simp only [ensures_bind, ensures_current, ensures_advance]
  -- the second vantage is behind the brace
  have hin : r.advance.Fresh (W.at r.advance r.advance.start) := h.advance.anew (Int.le_refl _)
  refine ((stmts_clear hblock h.advance.clear).and (stmts_clear hblock hin.clear)).leads.mono ?_ (fun _ h => h.2.1)
  rintro ss s ⟨hl, hs, hs'⟩
  split
  · rename_i heof
    simp only [ensures_bind, ensures_report, ensures_pure]
    exact unclosed_clear h (hk.trans_ne (by decide)) hl hs hs' heof
  · exact hs

end Block

theorem orderly_blockAt : ∀ depth, OrderlyBlock (blockAt depth)
  | 0, _, _, h, _ => h.refuse_here
  | depth + 1, _, _, h, hk => (blockWith_clear (orderly_blockAt depth) h hk).mono (fun _ _ h => h) fun _ => False.elim

theorem block_clear (h : r.Fresh W) (hk : r.current.kind = .punct .lbrace) :
    block.Ensures r (fun _ s => s.Clear W Anything Nothing) (fun _ => False) :=
  Ensures.of_budget (x := blockAt) (blockWith_clear (orderly_blockAt _) h hk)

end Rule
end SemFront
