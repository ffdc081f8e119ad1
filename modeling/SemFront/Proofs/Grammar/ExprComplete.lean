/-
Reading expressions back: every canonical expression that is spelled in front of a token that may
follow it is read, up to spans. Left operands are not read on their own but on the way, so what is
proved of an expression is that reading it comes down to going on with the operators behind it.
-/
import SemFront.Proofs.Grammar.Expr

namespace SemFront

/-! ## How expressions start -/

namespace Expr.Canonical

variable {e : Expr}

/-- The first lexeme of an expression is one that an expression may start with. -/
theorem lexemes_cons (he : e.Canonical) : ∃ l ls, e.lexemes = l :: ls ∧ l.kind.startsExpr = true := by
  have hname : ∀ {n : Name} (ms : List Lexeme), n.Canonical →
      ∃ l ls, n.lexemes ++ ms = l :: ls ∧ l.kind.startsExpr = true := by
    intro n ms hn
    obtain ⟨i, is, hp⟩ := List.exists_cons_of_ne_nil hn.nonempty
    simp only [Name.lexemes, hp, Rule.joined_dotted]
    exact ⟨_, _, rfl, rfl⟩
  induction he with
  | @bool v s => cases v <;> exact ⟨_, _, rfl, rfl⟩
  | varRef hn => simpa [Expr.lexemes, Name.lexemes?] using hname [] hn
  | call hn _ _ =>
    simp only [Expr.lexemes, Name.lexemes?, List.append_assoc, List.cons_append]
    exact hname _ hn
  | @binary op l r s _ _ _ _ _ _ ih _ =>
    obtain ⟨x, xs, hl, hk⟩ := ih
    simp only [Expr.lexemes, hl, List.cons_append]
    exact ⟨_, _, rfl, hk⟩
  | _ => exact ⟨_, _, rfl, rfl⟩

/-- An expression that starts with an identifier starts with a name, and behind it stands nothing, a
parenthesis or an operator. -/
theorem starts_with_name {l : Lexeme} {ls : List Lexeme} (he : e.Canonical) (h : e.lexemes = l :: ls)
    (hl : l.kind = .ident) : ∃ (n : Name) (ms : List Lexeme), n.Canonical ∧ e.lexemes = n.lexemes ++ ms ∧
      ∀ m ∈ ms.head?, m.kind = .punct .lparen ∨ ∃ op, BinaryOp.ofKind? m.kind = some op := by
  induction he generalizing ls with
  | @varRef n s hn => exact ⟨n, [], hn, by simp [Expr.lexemes, Name.lexemes?], by simp⟩
  | @call n es s hn _ _ =>
    refine ⟨n, .punct .lparen :: Lexeme.joined (.punct .comma) (Expr.lexemesAll es) ++ [Lexeme.punct .rparen], hn,
      ?_, ?_⟩
    · simp [Expr.lexemes, Name.lexemes?]
    · simp [Lexeme.punct]
  | @binary op x y s hop hx _ _ _ _ ih _ =>
    obtain ⟨l', ls', hl', -⟩ := hx.lexemes_cons
    have hll : l' = l := by
      simp only [Expr.lexemes, hl', List.append_assoc, List.cons_append] at h
      exact (List.cons.inj h).1
    obtain ⟨n, ms, hn, hms, hhead⟩ := ih (hll ▸ hl')
    refine ⟨n, ms ++ (op.lexemes ++ y.lexemes), hn, by simp [Expr.lexemes, hms], ?_⟩
    cases ms with
    | nil =>
      cases op with
      | unknown => exact absurd rfl hop
      | _ => exact fun m hm => .inr ⟨_, by cases hm; rfl⟩
    | cons m ms => exact hhead
  | @bool v s =>
    cases v <;>
    · cases h
      cases hl
  | _ =>
    cases h
    cases hl

/-- Behind an identifier at the start of an expression stands a dot, a parenthesis or an operator. -/
theorem second {l m : Lexeme} {ls : List Lexeme} (he : e.Canonical) (h : e.lexemes = l :: m :: ls)
    (hl : l.kind = .ident) :
    m.kind = .punct .dot ∨ m.kind = .punct .lparen ∨ ∃ op, BinaryOp.ofKind? m.kind = some op := by
  obtain ⟨n, ms, hn, hms, hhead⟩ := he.starts_with_name h hl
  obtain ⟨i, is, hp⟩ := List.exists_cons_of_ne_nil hn.nonempty
  rw [hms] at h
  simp only [Name.lexemes, hp, Rule.joined_dotted] at h
  cases is with
  | nil =>
    cases h
    exact .inr (hhead m rfl)
  | cons j is =>
    cases h
    exact .inl rfl

/-- Only a name is a single identifier. -/
theorem single {l : Lexeme} (he : e.Canonical) (h : e.lexemes = [l]) (hl : l.kind = .ident) :
    ∃ n s, e = .varRef (some n) s ∧ n.parts.length = 1 := by
  cases he with
  | @varRef n s hn =>
    refine ⟨n, s, rfl, ?_⟩
    obtain ⟨i, is, hp⟩ := List.exists_cons_of_ne_nil hn.nonempty
    simp only [Expr.lexemes, Name.lexemes?, Name.lexemes, hp, Rule.joined_dotted] at h
    cases is with
    | nil => rw [hp]; rfl
    | cons j is => cases h
  | @call n es s hn _ =>
    have := congrArg List.length h
    simp [Expr.lexemes] at this
    omega
  | @binary op x y s hop hx hy =>
    obtain ⟨l1, ls1, h1, -⟩ := hx.lexemes_cons
    obtain ⟨l2, ls2, h2, -⟩ := hy.lexemes_cons
    have := congrArg List.length h
    simp [Expr.lexemes, h1, h2] at this
  | @bool v s =>
    cases v <;>
    · cases h
      cases hl
  | _ =>
    obtain ⟨rfl, -⟩ := List.cons.inj h
    cases hl

theorem level_pos (he : e.Canonical) : 0 < e.level := by
  cases he with
  | @binary op x y s hop =>
    cases op with
    | unknown => exact absurd rfl hop
    | _ => exact Nat.zero_lt_succ _
  | _ => exact Nat.zero_lt_succ _

end Expr.Canonical

theorem Rule.length_le_joined {α : Type} (lexemes : α → List Lexeme) (l : Lexeme) {x : α} :
    ∀ {xs : List α}, x ∈ xs → (lexemes x).length ≤ (Lexeme.joined l (xs.map lexemes)).length
  | [y], h => by
    cases List.mem_singleton.1 h
    exact Nat.le_refl _
  | y :: z :: xs, h => by
    simp only [List.map_cons, Lexeme.joined, List.length_append, List.length_cons]
    rcases List.mem_cons.1 h with rfl | h
    · omega
    · have := length_le_joined lexemes l h
      simp only [List.map_cons] at this
      omega

/-! ## What may follow -/

/-- A token of this kind does not go on with an operand. -/
structure Expr.Closes (e : Expr) (k : Kind) : Prop where
  noDot : k ≠ .punct .dot
  noParen : k ≠ .punct .lparen
  noCast : e.endsInParenName = true → k.startsExpr = false

/-- A token of this kind does not go on with an expression whose operators bind tighter than a
level. -/
structure Expr.Follows (level : Nat) (e : Expr) (k : Kind) : Prop extends e.Closes k where
  ends : ∀ op, BinaryOp.ofKind? k = some op → op.level ≤ level

/-- Punctuation that is no operator and starts no expression follows every expression. -/
theorem Expr.Follows.punct {n : Nat} {e : Expr} {p : Punct} (hd : p ≠ .dot)
    (hs : (Kind.punct p).startsExpr = false) (hop : BinaryOp.ofKind? (.punct p) = none) : e.Follows n (.punct p) where
  noDot := fun h => hd (Kind.punct.inj h)
  noParen := fun h => by rw [h] at hs; cases hs
  noCast _ := hs
  ends op h := by rw [hop] at h; cases h

namespace Rule

/-- Reading an expression comes down to reading the operators behind it. -/
def Spine (e : Expr) : Prop := ∀ ⦃d n r c⦄, r.WF → e.lexemes.length ≤ d + 1 → (e.isBinary = true → n < e.level) →
  Spells r.rest e.lexemes c → e.Follows e.level (headKind c) →
  ∃ x m, x.erase = e.erase ∧ m.advance.rest = c ∧ m.WF ∧
    ∀ y s, Loops (operatorRound (exprAt d) n) x m y s → (exprAt (d + 1) n).Reads r y s

/-- An expression is read wherever it is spelled and something follows that does not go on with it. -/
def Readable (e : Expr) : Prop := ∀ ⦃d n r c⦄, r.WF → e.lexemes.length ≤ d → (e.isBinary = true → n < e.level) →
  Spells r.rest e.lexemes c → e.Follows n (headKind c) →
  ∃ x s, (exprAt d n).Reads r x s ∧ x.erase = e.erase ∧ s.advance.rest = c

/-- An expression without operators around it is read as an operand. -/
def ReadableOperand (e : Expr) : Prop := ∀ ⦃d r c⦄, r.WF → e.lexemes.length ≤ d + 1 →
  Spells r.rest e.lexemes c → e.Closes (headKind c) →
  ∃ x s, (primary (exprAt d)).Reads r x s ∧ x.erase = e.erase ∧ s.advance.rest = c

theorem Spine.of_operand {e : Expr} (h : ReadableOperand e) : Spine e := by
  intro d n r c hr hd _ hs hf
  obtain ⟨x, m, hx, he, hm⟩ := h hr hd hs hf.toCloses
  refine ⟨x, m, he, hm, hx.leads.wf hr, fun y s hy => ?_⟩
  unfold exprAt
  exact reads_bind.2 ⟨x, m, hx, hy.reads (hx.leads.wf hr).budget⟩

theorem Spine.readable {e : Expr} (h : Spine e) (he : e.Canonical) : Readable e := by
  intro d n r c hr hd hn hs hf
  obtain ⟨l, ls, hl, -⟩ := he.lexemes_cons
  obtain ⟨d, rfl⟩ : ∃ d', d = d' + 1 := by
    cases d with
    | zero => rw [hl] at hd; cases hd
    | succ d => exact ⟨d, rfl⟩
  -- an operator that ends the reading binds no tighter than the expression does
  have hl : ∀ op, BinaryOp.ofKind? (headKind c) = some op → op.level ≤ e.level := by
    intro op hop
    cases hb : e.isBinary with
    | true => exact Nat.le_trans (hf.ends op hop) (Nat.le_of_lt (hn hb))
    | false => exact Expr.level_of_not_binary hb ▸ Nat.le_of_lt op.level_lt
  obtain ⟨x, m, hx, hm, hmw, hgo⟩ := h hr hd hn hs ⟨hf.toCloses, hl⟩
  refine ⟨x, m, hgo x m (.stop (reads_operatorRound_stop.2 ⟨?_, rfl, rfl⟩)), hx, hm⟩
  rw [hmw.advance.current_kind, hm]
  exact hf.ends

theorem Spine.binary {op : BinaryOp} {x y : Expr} {s : Span} (hop : op ≠ .unknown) (hx : Spine x) (hy : Readable y)
    (hxl : op.level ≤ x.level) (hyl : op.level < y.level) (hp : op = .sub → x.endsInParenName = false) :
    Spine (.binary op x y s) := by
  intro d n r c hr hd hn hs hf
  obtain ⟨p, hpn, hpk⟩ : ∃ p, op.punct? = some p ∧ (Kind.punct p).startsExpr = decide (op = .sub) := by
    cases op with
    | unknown => exact absurd rfl hop
    | _ => exact ⟨_, rfl, rfl⟩
  have hk : BinaryOp.ofKind? (.punct p) = some op := BinaryOp.ofKind?_eq_some.2 ⟨p, hpn, rfl⟩
  have hlen : (Expr.binary op x y s).lexemes = x.lexemes ++ Lexeme.punct p :: y.lexemes := by
    simp [Expr.lexemes, BinaryOp.lexemes, hpn]
  rw [hlen] at hs hd
  rw [List.length_append, List.length_cons] at hd
  obtain ⟨b, hb, hs⟩ := spells_append.1 hs
  have hbk : headKind b = .punct p := hs.headKind
  have hn' : n < op.level := hn rfl
  -- the left operand, up to the operator
  have hfx : x.Follows x.level (headKind b) := by
    rw [hbk]
    refine ⟨⟨?_, ?_, ?_⟩, ?_⟩
    · rintro e
      rw [e] at hk
      cases hk
    · rintro e
      rw [e] at hk
      cases hk
    · intro he
      rw [hpk]
      exact decide_eq_false fun e => by rw [hp e] at he; cases he
    · intro op' hop'
      rw [hk] at hop'
      cases hop'
      exact hxl
  obtain ⟨x', m, hxe, hm, hmw, hgo⟩ := hx (d := d) hr (by omega) (fun _ => Nat.lt_of_lt_of_le hn' hxl) hb hfx
  -- the right operand, up to the end
  have hmk : m.advance.current.kind = .punct p := by rw [hmw.advance.current_kind, hm, hbk]
  rw [← hm] at hs
  obtain ⟨-, hs⟩ := Reader.of_spells_cons hs
  have hfy : y.Follows op.level (headKind c) := ⟨⟨hf.noDot, hf.noParen, hf.noCast⟩, hf.ends⟩
  obtain ⟨y', q, hy', hye, hq⟩ := hy (d := d) hmw.advance.advance (by omega) (fun _ => hyl) hs hfy
  refine ⟨.binary op x' y' (x'.span.through y'.span), q, by simp [Expr.erase, hxe, hye], hq,
    hy'.leads.wf hmw.advance.advance, fun v t hv => hgo v t (.again ?_ ?_ hv)⟩
  · exact reads_operatorRound_again.2 ⟨op, y', by rw [hmk]; exact hk, hn', hy', rfl⟩
  · have h1 := hmw.advance.length_advance (by simp [hmk])
    have h2 := (Reader.Leads.advance m).length_le
    have h3 := hy'.leads.length_le
    omega

/-! ## Operands -/

section Operands

variable {sub : Nat → Rule Expr} {r s : Reader} {e : Expr}

theorem reads_primary_ident (hk : r.current.kind = .ident) :
    (primary sub).Reads r e s ↔ (nameOrCall sub).Reads r e s := by
  unfold primary
  rw [reads_current_bind, hk]

theorem reads_primary_new (hk : r.current.kind = .keyword .new) :
    (primary sub).Reads r e s ↔ (construct sub).Reads r e s := by
  unfold primary
  rw [reads_current_bind, hk]

theorem reads_primary_sign (hk : r.current.kind = .punct .bang ∨ r.current.kind = .punct .minus) :
    (primary sub).Reads r e s ↔ (unary sub).Reads r e s := by
  unfold primary
  rw [reads_current_bind]
  rcases hk with hk | hk <;> rw [hk]

theorem reads_primary_lparen (hk : r.current.kind = .punct .lparen) :
    (primary sub).Reads r e s ↔ (parenOrCast sub).Reads r e s := by
  unfold primary
  rw [reads_current_bind, hk]

theorem reads_primary_lbracket (hk : r.current.kind = .punct .lbracket) :
    (primary sub).Reads r e s ↔ (listOrComprehension sub).Reads r e s := by
  unfold primary
  rw [reads_current_bind, hk]

end Operands

theorem readable_bool {v : Bool} {t : Span} : ReadableOperand (.bool v t) := by
  intro d r c hr _ hs _
  cases v with
  | false =>
    obtain ⟨h1, hs⟩ := Reader.of_spells_cons hs
    have hk : r.current.kind = .keyword .false := congrArg Lexeme.kind h1
    refine ⟨.bool false r.current.span, r, ?_, rfl, spells_nil.1 hs⟩
    unfold primary
    rw [reads_current_bind, hk]
    exact reads_pure.2 ⟨rfl, rfl⟩
  | true =>
    obtain ⟨h1, hs⟩ := Reader.of_spells_cons hs
    have hk : r.current.kind = .keyword .true := congrArg Lexeme.kind h1
    refine ⟨.bool true r.current.span, r, ?_, rfl, spells_nil.1 hs⟩
    unfold primary
    rw [reads_current_bind, hk]
    exact reads_pure.2 ⟨rfl, rfl⟩

theorem readable_int {w : String} {t : Span} : ReadableOperand (.int w t) := by
  intro d r c hr _ hs _
  obtain ⟨h1, hs⟩ := Reader.of_spells_cons hs
  have hk : r.current.kind = .int := congrArg Lexeme.kind h1
  have hl : r.current.literal = w :=
    (Token.literal_of_ne_string (by rw [hk]; exact nofun)).trans (congrArg Lexeme.raw h1)
  refine ⟨.int r.current.literal r.current.span, r, ?_, by rw [hl]; rfl, spells_nil.1 hs⟩
  unfold primary
  rw [reads_current_bind, hk]
  exact reads_pure.2 ⟨rfl, rfl⟩

theorem readable_float {w : String} {t : Span} : ReadableOperand (.float w t) := by
  intro d r c hr _ hs _
  obtain ⟨h1, hs⟩ := Reader.of_spells_cons hs
  have hk : r.current.kind = .float := congrArg Lexeme.kind h1
  have hl : r.current.literal = w :=
    (Token.literal_of_ne_string (by rw [hk]; exact nofun)).trans (congrArg Lexeme.raw h1)
  refine ⟨.float r.current.literal r.current.span, r, ?_, by rw [hl]; rfl, spells_nil.1 hs⟩
  unfold primary
  rw [reads_current_bind, hk]
  exact reads_pure.2 ⟨rfl, rfl⟩

theorem readable_string {v : String} {q : Char} {t : Span} : ReadableOperand (.string v (some q) t) := by
  intro d r c hr _ hs _
  obtain ⟨h1, hs⟩ := Reader.of_spells_cons hs
  obtain ⟨hk, hl, hq⟩ := Token.string_of_lexeme h1
  refine ⟨.string r.current.literal r.current.raw.toList.head? r.current.span, r, ?_, by rw [hl, hq]; rfl,
    spells_nil.1 hs⟩
  unfold primary
  rw [reads_current_bind, hk]
  exact reads_pure.2 ⟨rfl, rfl⟩

/-- The operand of a sign, a negation or a cast is read up to what closes it. -/
theorem Readable.operand {e : Expr} (he : Readable e) (hb : e.isBinary = false) {d : Nat} {r : Reader}
    {c : List Token} (hr : r.WF) (hd : e.lexemes.length ≤ d) (hs : Spells r.rest e.lexemes c)
    (hc : e.Closes (headKind c)) :
    ∃ x s, (exprAt d operandLevel).Reads r x s ∧ x.erase = e.erase ∧ s.advance.rest = c :=
  he hr hd (by simp [hb]) hs ⟨hc, fun op _ => Nat.le_of_lt op.level_lt⟩

theorem readable_not {e : Expr} {t : Span} (he : Readable e) (hb : e.isBinary = false) :
    ReadableOperand (.not e t) := by
  intro d r c hr hd hs hc
  obtain ⟨h1, hs⟩ := Reader.of_spells_cons hs
  have hk : r.current.kind = .punct .bang := congrArg Lexeme.kind h1
  obtain ⟨x, s, hx, hxe, hxs⟩ := he.operand hb hr.advance (Nat.le_of_succ_le_succ hd) hs ⟨hc.1, hc.2, hc.3⟩
  refine ⟨_, s, (reads_primary_sign (.inl hk)).2 (reads_unary.2 ⟨x, hx, rfl⟩), ?_, hxs⟩
  rw [if_pos hk]
  simp [Expr.erase, hxe]

theorem readable_neg {e : Expr} {t : Span} (he : Readable e) (hb : e.isBinary = false) :
    ReadableOperand (.neg e t) := by
  intro d r c hr hd hs hc
  obtain ⟨h1, hs⟩ := Reader.of_spells_cons hs
  have hk : r.current.kind = .punct .minus := congrArg Lexeme.kind h1
  obtain ⟨x, s, hx, hxe, hxs⟩ := he.operand hb hr.advance (Nat.le_of_succ_le_succ hd) hs ⟨hc.1, hc.2, hc.3⟩
  refine ⟨_, s, (reads_primary_sign (.inr hk)).2 (reads_unary.2 ⟨x, hx, rfl⟩), ?_, hxs⟩
  rw [if_neg (by rw [hk]; exact nofun)]
  simp [Expr.erase, hxe]

theorem readable_cast {i : Ident} {e : Expr} {t : Span} (he : Readable e) (hc : e.Canonical)
    (hb : e.isBinary = false) : ReadableOperand (.cast (some i) e t) := by
  intro d r c hr hd hs hcl
  simp only [Expr.lexemes, Ident.lexemes?, List.cons_append, List.nil_append] at hs hd
  obtain ⟨h1, hs⟩ := Reader.of_spells_cons hs
  obtain ⟨h2, hs⟩ := Reader.of_spells_cons hs
  obtain ⟨h3, hs⟩ := Reader.of_spells_cons hs
  obtain ⟨hk2, hn⟩ := Token.ident_of_lexeme h2
  obtain ⟨l, ls, hl, hls⟩ := hc.lexemes_cons
  have hk4 : r.advance.advance.advance.current.kind.startsExpr = true := by
    have h4 := hs
    rw [hl] at h4
    rw [hr.advance.advance.advance.current_kind, h4.headKind]
    exact hls
  obtain ⟨m, hm, hlk⟩ := looks_opensCast.reads (r := r) (decide_eq_true ⟨hk2, congrArg Lexeme.kind h3, hk4⟩)
  have hmw := hm.leads.wf hr
  rw [← hlk.advance.advance.advance.rest] at hs
  simp only [List.length_cons] at hd
  obtain ⟨x, s, hx, hxe, hxs⟩ := he.operand (d := d) hb hmw.advance.advance.advance (by omega) hs
    ⟨hcl.1, hcl.2, hcl.3⟩
  refine ⟨_, s, (reads_primary_lparen (congrArg Lexeme.kind h1)).2 (reads_parenOrCast.2 ⟨m, .inl ⟨hm,
    reads_cast.2 ⟨x, hx, rfl⟩⟩⟩), ?_, hxs⟩
  rw [hlk.advance.current]
  simp [Expr.erase, hxe, Ident.erase_eq hn]

theorem readable_paren {e : Expr} {t : Span} (he : Readable e) (hc : e.Canonical) :
    ReadableOperand (.paren e t) := by
  intro d r c hr hd hs hcl
  simp only [Expr.lexemes, List.cons_append, List.length_cons, List.length_append] at hs hd
  obtain ⟨h1, hs⟩ := Reader.of_spells_cons hs
  -- no cast is seen: not one identifier alone stands in the parentheses, or no expression behind them
  have hno : ¬ (r.advance.current.kind = .ident ∧ r.advance.advance.current.kind = .punct .rparen ∧
      r.advance.advance.advance.current.kind.startsExpr = true) := by
    rintro ⟨k1, k2, k3⟩
    obtain ⟨l, ls, hl, -⟩ := hc.lexemes_cons
    rw [hl, List.cons_append] at hs
    obtain ⟨h2, hs⟩ := Reader.of_spells_cons hs
    have hlk : l.kind = .ident := by rw [← h2]; exact k1
    cases ls with
    | nil =>
      have h3 := spells_nil.1 (Reader.of_spells_cons hs).2
      obtain ⟨n, sp, rfl, hn⟩ := hc.single hl hlk
      have := hcl.noCast (by simpa [Expr.endsInParenName] using hn)
      rw [← h3, ← hr.advance.advance.advance.current_kind, k3] at this
      cases this
    | cons m ls =>
      obtain ⟨h3, hs⟩ := Reader.of_spells_cons hs
      have hm : m.kind = .punct .rparen := by rw [← h3]; exact k2
      rcases hc.second hl hlk with h | h | ⟨op, h⟩ <;> rw [hm] at h <;> cases h
  obtain ⟨m, hm, hlk⟩ := looks_opensCast.reads (r := r) (decide_eq_false hno)
  have hmw := hm.leads.wf hr
  rw [← hlk.advance.rest] at hs
  obtain ⟨b, hb, hs⟩ := spells_append.1 hs
  have hbk : headKind b = .punct .rparen := hs.headKind
  obtain ⟨x, n, hx, hxe, hxs⟩ := he (d := d) hmw.advance (by omega) (fun _ => hc.level_pos) hb
    (by rw [hbk]; exact .punct (by decide) rfl rfl)
  have hnw := hx.leads.wf hmw.advance
  refine ⟨_, n.advance, (reads_primary_lparen (congrArg Lexeme.kind h1)).2 (reads_parenOrCast.2 ⟨m, .inr ⟨hm, x, n, hx,
    ?_, rfl, rfl⟩⟩), by simp [Expr.erase, hxe], ?_⟩
  · rw [hnw.advance.current_kind, hxs, hbk]
  · rw [← hxs] at hs
    exact spells_nil.1 (Reader.of_spells_cons hs).2

theorem readable_varRef {n : Name} {t : Span} (hn : n.Canonical) : ReadableOperand (.varRef (some n) t) := by
  intro d r c hr hd hs hcl
  simp only [Expr.lexemes, Name.lexemes?] at hs
  obtain ⟨n', m, hm, hne, hms⟩ := complete_dottedName hr hn hs hcl.noDot
  have hk : r.current.kind = .ident := (reads_dottedName.1 hm).1
  refine ⟨_, m, (reads_primary_ident hk).2 (reads_nameOrCall.2 ⟨n', m, hm, .inl ⟨?_, rfl, rfl⟩⟩),
    by simp [Expr.erase, hne], hms⟩
  rw [(hm.leads.wf hr).advance.current_kind, hms]
  exact hcl.noParen

theorem itemComplete (d : Nat) : (exprAt d 0).Complete Expr.lexemes
    (fun e => e.Canonical ∧ Readable e ∧ e.lexemes.length ≤ d) (fun e k => e.Follows 0 k) Expr.erase := by
  rintro r e c hr ⟨hc, he, hd⟩ hs hf
  exact he hr hd (fun _ => hc.level_pos) hs hf

theorem startsExpr_ne {k : Kind} {p : Punct} (hk : k.startsExpr = true) (hp : (Kind.punct p).startsExpr = false) :
    k ≠ .punct p := by
  rintro rfl
  rw [hk] at hp
  cases hp

/-- Expressions with commas between them are read up to a closing token. -/
theorem complete_exprs (what : Wanted) {d : Nat} {closing : Punct} (hd : closing ≠ .dot) (hcl : closing ≠ .comma)
    (hst : (Kind.punct closing).startsExpr = false) (hop : BinaryOp.ofKind? (.punct closing) = none)
    {es : List Expr} (hes : ∀ e ∈ es, e.Canonical ∧ Readable e)
    (hlen : (Lexeme.joined (.punct .comma) (es.map Expr.lexemes)).length ≤ d) {r : Reader} {c : List Token} (hr : r.WF)
    (hs : Spells r.rest (Lexeme.joined (.punct .comma) (es.map Expr.lexemes) ++ [Lexeme.punct closing]) c) :
    ∃ xs s, (manyItems closing what (exprAt d 0)).Reads r xs s ∧ xs.map Expr.erase = es.map Expr.erase ∧
      s.advance.rest = c := by
  refine (itemComplete d).manyItems what hcl (fun _ _ => .punct (by decide) rfl rfl)
    (fun _ _ => .punct hd hst hop) ?_ ?_ hr hs
  · rintro x ⟨hc, -⟩
    obtain ⟨l, ls, hl, hk⟩ := hc.lexemes_cons
    exact ⟨l, ls, hl, startsExpr_ne hk hst⟩
  · exact fun e he => ⟨(hes e he).1, (hes e he).2, Nat.le_trans (length_le_joined _ _ he) hlen⟩

theorem readable_call {n : Name} {es : List Expr} {t : Span} (hn : n.Canonical)
    (hes : ∀ e ∈ es, e.Canonical ∧ Readable e) : ReadableOperand (.call (some n) es t) := by
  intro d r c hr hd hs hcl
  simp only [Expr.lexemes, Name.lexemes?, Expr.lexemesAll_eq, List.append_assoc, List.cons_append, List.length_cons,
    List.length_append] at hs hd
  obtain ⟨b, hb, hs⟩ := spells_append.1 hs
  have hbk : headKind b = .punct .lparen := hs.headKind
  obtain ⟨n', m, hm, hne, hms⟩ := complete_dottedName hr hn hb (by simp [hbk])
  have hk : r.current.kind = .ident := (reads_dottedName.1 hm).1
  have hmw := hm.leads.wf hr
  rw [← hms] at hs
  obtain ⟨h1, hs⟩ := Reader.of_spells_cons hs
  obtain ⟨xs, s, hx, hxe, hxs⟩ := complete_exprs .argument (d := d) (by decide) (by decide) rfl rfl hes
    (by omega) hmw.advance.advance hs
  exact ⟨_, s, (reads_primary_ident hk).2 (reads_nameOrCall.2 ⟨n', m, hm, .inr ⟨congrArg Lexeme.kind h1, xs, hx, rfl⟩⟩),
    by simp [Expr.erase, hne, hxe], hxs⟩

/-- What is spelled after an opening bracket does not look like a comprehension unless it is one. -/
theorem not_opensComprehension {es : List Expr} {r : Reader} {c : List Token} (hes : ∀ e ∈ es, e.Canonical)
    (hs : Spells r.advance.rest (Lexeme.joined (.punct .comma) (es.map Expr.lexemes) ++ [Lexeme.punct .rbracket]) c) :
    ¬ (r.advance.current.kind = .ident ∧ r.advance.advance.current.kind = .punct .pipe) := by
  rintro ⟨k1, k2⟩
  cases es with
  | nil =>
    have h1 := (Reader.of_spells_cons hs).1
    have : r.advance.current.kind = .punct .rbracket := congrArg Lexeme.kind h1
    rw [k1] at this
    cases this
  | cons e es =>
    have he := hes e (by simp)
    obtain ⟨l, ls, hl, -⟩ := he.lexemes_cons
    cases ls with
    | nil =>
      -- the element is one identifier, and a comma or the bracket stands behind it
      obtain ⟨m, ms, hms, hm⟩ : ∃ m ms, Lexeme.joined (.punct .comma) ((e :: es).map Expr.lexemes) ++
          [Lexeme.punct .rbracket] = l :: m :: ms ∧ (m = .punct .comma ∨ m = .punct .rbracket) := by
        cases es with
        | nil => exact ⟨_, _, by simp only [List.map_cons, List.map_nil, Lexeme.joined, hl]; rfl, .inr rfl⟩
        | cons e' es => exact ⟨_, _, by simp only [List.map_cons, Lexeme.joined, hl]; rfl, .inl rfl⟩
      rw [hms] at hs
      have h2 := (Reader.of_spells_cons (Reader.of_spells_cons hs).2).1
      have h3 : r.advance.advance.current.kind = m.kind := congrArg Lexeme.kind h2
      rw [k2] at h3
      rcases hm with rfl | rfl <;> cases h3
    | cons m ls =>
      obtain ⟨ms, hms⟩ : ∃ ms, Lexeme.joined (.punct .comma) ((e :: es).map Expr.lexemes) ++ [Lexeme.punct .rbracket] =
          l :: m :: ms := by
        cases es with
        | nil => exact ⟨_, by simp only [List.map_cons, List.map_nil, Lexeme.joined, hl]; rfl⟩
        | cons e' es => exact ⟨_, by simp only [List.map_cons, Lexeme.joined, hl]; rfl⟩
      rw [hms] at hs
      obtain ⟨h1, hs⟩ := Reader.of_spells_cons hs
      have h3 : r.advance.advance.current.kind = m.kind := congrArg Lexeme.kind (Reader.of_spells_cons hs).1
      have hlk : l.kind = .ident := by rw [← h1]; exact k1
      rw [k2] at h3
      rcases he.second hl hlk with h | h | ⟨op, h⟩ <;> rw [← h3] at h <;> cases h

theorem readable_list {es : List Expr} {t : Span} (hes : ∀ e ∈ es, e.Canonical ∧ Readable e) :
    ReadableOperand (.list es t) := by
  intro d r c hr hd hs hcl
  simp only [Expr.lexemes, Expr.lexemesAll_eq, List.cons_append, List.length_cons, List.length_append] at hs hd
  obtain ⟨h1, hs⟩ := Reader.of_spells_cons hs
  obtain ⟨m, hm, hlk⟩ := looks_opensComprehension.reads (r := r)
    (decide_eq_false (not_opensComprehension (fun e he => (hes e he).1) hs))
  have hmw := hm.leads.wf hr
  rw [← hlk.advance.rest] at hs
  obtain ⟨xs, s, hx, hxe, hxs⟩ := complete_exprs .listElement (d := d) (by decide) (by decide) rfl rfl hes
    (by omega) hmw.advance hs
  exact ⟨_, s, (reads_primary_lbracket (congrArg Lexeme.kind h1)).2 (reads_listOrComprehension.2 ⟨m, .inr ⟨hm, xs, hx, rfl⟩⟩),
    by simp [Expr.erase, hxe], hxs⟩

/-! ## Comprehensions and new instances -/

/-- The parts of a comprehension without their places. -/
def ComprehensionPart.erase : ComprehensionPart → ComprehensionPart
  | .generator g => .generator g.erase
  | .constraint e => .constraint e.erase

/-- A generator with both its names, or a constraint that is read at a depth. -/
def ComprehensionPart.ReadableAt (d : Nat) : ComprehensionPart → Prop
  | .generator g => ∃ y z, g.element = some y ∧ g.source = some z
  | .constraint e => e.Canonical ∧ Readable e ∧ e.lexemes.length ≤ d

/-- What may follow a part of a comprehension. -/
def ComprehensionPart.Follows : ComprehensionPart → Kind → Prop
  | .generator _, _ => True
  | .constraint e, k => e.Follows 0 k ∧ k ≠ .punct .leftArrow

theorem complete_comprehensionPart (d : Nat) : (comprehensionPart (exprAt d)).Complete ComprehensionPart.lexemes
    (ComprehensionPart.ReadableAt d) ComprehensionPart.Follows ComprehensionPart.erase := by
  intro r p c hr hp hs hf
  cases p with
  | generator g =>
    obtain ⟨y, z, hy, hz⟩ := hp
    obtain ⟨gy, gz, sp⟩ := g
    subst hy hz
    obtain ⟨h1, hs⟩ := Reader.of_spells_cons hs
    obtain ⟨h2, hs⟩ := Reader.of_spells_cons hs
    obtain ⟨h3, hs⟩ := Reader.of_spells_cons hs
    obtain ⟨k1, n1⟩ := Token.ident_of_lexeme h1
    obtain ⟨k3, n3⟩ := Token.ident_of_lexeme h3
    refine ⟨_, _, reads_comprehensionPart.2 (.inl ⟨k1, congrArg Lexeme.kind h2, k3, rfl, rfl⟩), ?_, spells_nil.1 hs⟩
    simp [ComprehensionPart.erase, Generator.erase, Ident.erase_eq n1, Ident.erase_eq n3]
  | constraint e =>
    obtain ⟨hc, he, hd⟩ := hp
    obtain ⟨x, s, hx, hxe, hxs⟩ := itemComplete d hr ⟨hc, he, hd⟩ hs hf.1
    refine ⟨.constraint x, s, reads_comprehensionPart.2 (.inr ⟨?_, x, hx, rfl⟩), by simp [ComprehensionPart.erase, hxe],
      hxs⟩
    rintro ⟨k1, k2⟩
    obtain ⟨l, ls, hl, -⟩ := hc.lexemes_cons
    simp only [ComprehensionPart.lexemes, hl] at hs
    obtain ⟨h1, hs⟩ := Reader.of_spells_cons hs
    cases ls with
    | nil =>
      rw [hr.advance.current_kind, spells_nil.1 hs] at k2
      exact hf.2 k2
    | cons m ls =>
      have hlk : l.kind = .ident := by rw [← h1]; exact k1
      have h3 : r.advance.current.kind = m.kind := congrArg Lexeme.kind (Reader.of_spells_cons hs).1
      rw [k2] at h3
      rcases hc.second hl hlk with h | h | ⟨op, h⟩ <;> rw [← h3] at h <;> cases h

theorem complete_comprehensionParts {d : Nat} {g : Generator} {e : Expr}
    (hg : ComprehensionPart.ReadableAt d (.generator g)) (he : ComprehensionPart.ReadableAt d (.constraint e))
    {r : Reader} {c : List Token} (hr : r.WF)
    (hs : Spells r.rest (Lexeme.joined (.punct .comma) (List.map ComprehensionPart.lexemes
      [.generator g, .constraint e]) ++ [Lexeme.punct .rbracket]) c) :
    ∃ g' e' s, (someItems .rbracket .comprehensionPart (comprehensionPart (exprAt d))).Reads r
      [.generator g', .constraint e'] s ∧ g'.erase = g.erase ∧ e'.erase = e.erase ∧ s.advance.rest = c := by
  have hfollow : ∀ {p : Punct}, p ≠ .dot → p ≠ .leftArrow → (Kind.punct p).startsExpr = false →
      BinaryOp.ofKind? (.punct p) = none → ∀ x : ComprehensionPart, x.Follows (.punct p) := by
    intro p hd hl hs hop x
    cases x with
    | generator g => trivial
    | constraint e => exact ⟨.punct hd hs hop, fun h => hl (Kind.punct.inj h)⟩
  have hhead : ∀ x, ComprehensionPart.ReadableAt d x → ∃ l ls, x.lexemes = l :: ls ∧ l.kind ≠ .punct .rbracket := by
    intro x hx
    cases x with
    | generator g =>
      obtain ⟨y, z, hy, hz⟩ := hx
      simp only [ComprehensionPart.lexemes, Generator.lexemes, hy, Ident.lexemes?]
      exact ⟨_, _, rfl, fun h => by cases h⟩
    | constraint e =>
      obtain ⟨l, ls, hl, hk⟩ := hx.1.lexemes_cons
      exact ⟨l, ls, hl, startsExpr_ne hk rfl⟩
  have hP : ∀ x ∈ [ComprehensionPart.generator g, .constraint e], ComprehensionPart.ReadableAt d x := by
    intro x hx
    simp only [List.mem_cons, List.not_mem_nil, or_false] at hx
    rcases hx with rfl | rfl
    · exact hg
    · exact he
  obtain ⟨ps, s, hps, hpe, hpc⟩ := (complete_comprehensionPart d).someItems .comprehensionPart (by decide)
    (fun x _ => hfollow (by decide) (by decide) rfl rfl x) (fun x _ => hfollow (by decide) (by decide) rfl rfl x)
    hhead (by simp) hP hr hs
  obtain ⟨p, ps, rfl, hp, hpe⟩ := List.map_eq_cons_iff.1 hpe
  obtain ⟨q, ps, rfl, hq, hpe⟩ := List.map_eq_cons_iff.1 hpe
  cases List.map_eq_nil_iff.1 hpe
  cases p with
  | constraint e' => cases hp
  | generator g' =>
    cases q with
    | generator g'' => cases hq
    | constraint e' =>
      exact ⟨g', e', s, hps, ComprehensionPart.generator.inj hp, ComprehensionPart.constraint.inj hq, hpc⟩

theorem readable_comprehension {x y z : Ident} {g t : Span} {e : Expr} (hc : e.Canonical) (he : Readable e) :
    ReadableOperand (.comprehension (some x) (some ⟨some y, some z, g⟩) e t) := by
  intro d r c hr hd hs hcl
  have hlx : (Expr.comprehension (some x) (some ⟨some y, some z, g⟩) e t).lexemes =
      .punct .lbracket :: .ident x.name :: .punct .pipe :: (Lexeme.joined (.punct .comma)
        (List.map ComprehensionPart.lexemes [.generator ⟨some y, some z, g⟩, .constraint e]) ++
          [Lexeme.punct .rbracket]) := by
    simp [Expr.lexemes, Ident.lexemes?, Lexeme.joined, ComprehensionPart.lexemes, Generator.lexemes]
  have hle : e.lexemes.length ≤ d := by
    rw [hlx] at hd
    simp [Lexeme.joined, ComprehensionPart.lexemes] at hd
    omega
  rw [hlx] at hs
  obtain ⟨h1, hs⟩ := Reader.of_spells_cons hs
  obtain ⟨h2, hs⟩ := Reader.of_spells_cons hs
  obtain ⟨h3, hs⟩ := Reader.of_spells_cons hs
  obtain ⟨k2, n2⟩ := Token.ident_of_lexeme h2
  obtain ⟨m, hm, hlk⟩ := looks_opensComprehension.reads (r := r) (decide_eq_true ⟨k2, congrArg Lexeme.kind h3⟩)
  have hmw := hm.leads.wf hr
  rw [← hlk.advance.advance.advance.rest] at hs
  obtain ⟨g', e', s, hp, hge, hee, hsc⟩ := complete_comprehensionParts (d := d) ⟨y, z, rfl, rfl⟩ ⟨hc, he, hle⟩
    hmw.advance.advance.advance hs
  refine ⟨_, s, (reads_primary_lbracket (congrArg Lexeme.kind h1)).2 (reads_listOrComprehension.2 ⟨m, .inl ⟨hm,
    reads_comprehension.2 ⟨g', e', hp, rfl⟩⟩⟩), ?_, hsc⟩
  rw [hlk.advance.current]
  simp [Expr.erase, hge, hee, Ident.erase_eq n2]

theorem complete_propertyInit (d : Nat) : (propertyInit (exprAt d)).Complete Initializer.lexemes
    (fun i => (∃ x, i.name = some x) ∧ i.value.Canonical ∧ Readable i.value ∧ i.value.lexemes.length ≤ d)
    (fun i k => i.value.Follows 0 k) Initializer.erase := by
  rintro r ⟨n, v, sp⟩ c hr ⟨⟨x, hx⟩, hv⟩ hs hf
  cases hx
  obtain ⟨h1, hs⟩ := Reader.of_spells_cons hs
  obtain ⟨h2, hs⟩ := Reader.of_spells_cons hs
  obtain ⟨k1, n1⟩ := Token.ident_of_lexeme h1
  obtain ⟨v', s, hv', hve, hvs⟩ := itemComplete d hr.advance.advance hv hs hf
  exact ⟨_, s, reads_propertyInit.2 ⟨k1, congrArg Lexeme.kind h2, v', hv', rfl⟩,
    by simp [Initializer.erase, Initializer.value, hve, Ident.erase_eq n1], hvs⟩

theorem readable_construct {i : Ident} {is : List Initializer} {t : Span} (hn : ∀ i ∈ is, ∃ x, i.name = some x)
    (hv : ∀ i ∈ is, i.value.Canonical ∧ Readable i.value) : ReadableOperand (.construct (some i) is t) := by
  intro d r c hr hd hs hcl
  simp only [Expr.lexemes, Ident.lexemes?, Initializer.lexemesAll_eq, List.cons_append, List.nil_append,
    List.length_cons, List.length_append] at hs hd
  obtain ⟨h1, hs⟩ := Reader.of_spells_cons hs
  obtain ⟨h2, hs⟩ := Reader.of_spells_cons hs
  obtain ⟨h3, hs⟩ := Reader.of_spells_cons hs
  obtain ⟨k2, n2⟩ := Token.ident_of_lexeme h2
  have hlen : ∀ j ∈ is, j.value.lexemes.length ≤ d := by
    intro j hj
    have h4 := length_le_joined Initializer.lexemes (.punct .comma) hj
    have h5 : j.value.lexemes.length ≤ j.lexemes.length := by
      obtain ⟨n, v, sp⟩ := j
      simp only [Initializer.lexemes, Initializer.value, List.length_append, List.length_cons]
      omega
    omega
  obtain ⟨js, s, hj, hje, hjs⟩ := (complete_propertyInit d).manyItems .initializer (by decide)
    (fun _ _ => .punct (by decide) rfl rfl) (fun _ _ => .punct (by decide) rfl rfl)
    (by
      rintro ⟨n, v, sp⟩ ⟨⟨x, hx⟩, -⟩
      cases hx
      exact ⟨_, _, rfl, fun h => by cases h⟩)
    (fun j h => ⟨hn j h, (hv j h).1, (hv j h).2, hlen j h⟩) hr.advance.advance.advance hs
  exact ⟨_, s, (reads_primary_new (congrArg Lexeme.kind h1)).2 (reads_construct.2 ⟨k2, congrArg Lexeme.kind h3, js, hj, rfl⟩),
    by simp [Expr.erase, hje, Ident.erase_eq n2], hjs⟩

/-! ## All expressions -/

theorem Spine.of_canonical {e : Expr} (he : e.Canonical) : Spine e := by
  induction he with
  | bool => exact .of_operand readable_bool
  | int _ => exact .of_operand readable_int
  | float _ => exact .of_operand readable_float
  | string _ _ => exact .of_operand readable_string
  | list hc ih => exact .of_operand (readable_list fun e h => ⟨hc e h, (ih e h).readable (hc e h)⟩)
  | comprehension _ _ _ hc ih => exact .of_operand (readable_comprehension hc (ih.readable hc))
  | varRef hn => exact .of_operand (readable_varRef hn)
  | not hc hb ih => exact .of_operand (readable_not (ih.readable hc) hb)
  | neg hc hb ih => exact .of_operand (readable_neg (ih.readable hc) hb)
  | binary hop hx hy hxl hyl hp ihx ihy => exact .binary hop ihx (ihy.readable hy) hxl hyl hp
  | call hn hc ih => exact .of_operand (readable_call hn fun e h => ⟨hc e h, (ih e h).readable (hc e h)⟩)
  | paren hc ih => exact .of_operand (readable_paren (ih.readable hc) hc)
  | cast _ hc hb ih => exact .of_operand (readable_cast (ih.readable hc) hc hb)
  | construct _ hn hv ih =>
    exact .of_operand (readable_construct (fun i h => (hn i h).imp fun _ h => h.1)
      fun i h => ⟨hv i h, (ih i h).readable (hv i h)⟩)

/-- Every canonical expression is read where it is spelled. -/
theorem complete_expr : expr.Complete Expr.lexemes Expr.Canonical (fun e k => e.Follows 0 k) Expr.erase := by
  intro r e c hr he hs hf
  have hd : e.lexemes.length ≤ r.budget + 1 := by
    have h1 := hs.length
    have h2 := hr.budget
    omega
  exact (Spine.of_canonical he).readable he hr hd (fun _ => he.level_pos) hs hf

end Rule
end SemFront
