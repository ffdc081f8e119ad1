/-
Reading parameters and bindings: the rules for them read exactly what canonical parameters spell. A
list of parameters, which goes on behind a broken one, reads without reports what a plain list of
items does.
-/
import SemFront.Grammar.Param
import SemFront.Proofs.Grammar.ExprComplete

namespace SemFront.Rule

/-! ## The rules one by one -/

section Specs

-- the rules below are long sequences of steps, each of which is an instance
set_option synthInstance.maxSize 1000

variable {bindings : Rule (List Binding)} [Honest bindings] {r s : Reader}

instance : Honest (binding bindings) := by unfold binding; infer_instance

instance bindingsAt_honest : ∀ d, Honest (bindingsAt d)
  | 0 => by unfold bindingsAt; infer_instance
  | d + 1 => by
    have := bindingsAt_honest d
    unfold bindingsAt
    infer_instance

instance : Honest Rule.bindings where
  leads r := (bindingsAt_honest (r.budget + 1)).leads r
  speaks r s h := (bindingsAt_honest (r.budget + 1)).speaks r s h

instance : Honest param := by unfold param; infer_instance

instance : Honest skipParam := .of_ok fun r => ⟨_, _, rfl, .advanceBy _ r⟩

instance {t : Token} : Honest (skipParamFrom t) := by unfold skipParamFrom; infer_instance

instance : Honest paramOrBad := by
  unfold paramOrBad
  refine @Honest.bind _ _ _ _ inferInstance fun t => @Honest.bind _ _ _ _ inferInstance fun o => ?_
  cases o <;> infer_instance

theorem reads_binding {b : Binding} : (binding bindings).Reads r b s ↔ r.current.kind = .ident ∧
    r.advance.current.kind = .punct .colon ∧ r.advance.advance.current.kind = .ident ∧
    if r.advance.advance.advance.current.kind = .punct .pipe then
      ∃ c, expr.Reads r.advance.advance.advance.advance c s ∧ b = .leaf (some r.current.ident)
        (some r.advance.advance.current.ident) c (r.current.span.through s.current.span)
    else if r.advance.advance.advance.current.kind = .punct .lbrace then
      ∃ bs, bindings.Reads r.advance.advance.advance bs s ∧ b = .nested (some r.current.ident)
        (some r.advance.advance.current.ident) .absent bs (r.current.span.through s.current.span)
    else b = .leaf (some r.current.ident) (some r.advance.advance.current.ident) .absent
        (r.current.span.through r.advance.advance.current.span) ∧ s = r.advance.advance := by
  unfold binding
  simp only [reads_bind, reads_current, exists_eq_and_eq, reads_ite, reads_advance, exists_unit_eq, reads_expect,
    exists_unit_and_eq, reads_currentIdent, reads_peek, not_reads_refuse, reads_pure, exists_last,
    Reader.peek_eq]
  by_cases hk : r.current.kind = .ident <;> simp [hk]

theorem reads_bindingsAt_succ {d : Nat} {bs : List Binding} : (bindingsAt (d + 1)).Reads r bs s ↔
    (someItems .rbrace .binding (binding (bindingsAt d))).Reads r.advance bs s := by
  rw [bindingsAt, reads_bind]
  simp only [reads_advance, exists_unit_eq]

theorem reads_bindings {bs : List Binding} : Rule.bindings.Reads r bs s ↔ (bindingsAt (r.budget + 1)).Reads r bs s := by
  unfold Reads Rule.bindings
  rfl

theorem reads_param {p : Param} : param.Reads r p s ↔ r.current.kind = .ident ∧
    r.advance.current.kind = .punct .colon ∧ ∃ n m, dottedName.Reads r.advance.advance n m ∧
    if m.advance.current.kind = .punct .lbrace then
      ∃ bs, Rule.bindings.Reads m.advance bs s ∧
        p = .destructuring (some r.current.ident) (some n) bs (r.current.span.through s.current.span)
    else if m.advance.current.kind = .punct .pipe then
      ∃ c, expr.Reads m.advance.advance c s ∧
        p = .simple (some r.current.ident) (some n) c (r.current.span.through c.span)
    else p = .simple (some r.current.ident) (some n) .absent (r.current.span.through n.span) ∧ s = m := by
  unfold param
  simp only [reads_bind, reads_current, exists_eq_and_eq, reads_ite, reads_advance, exists_unit_eq, reads_expect,
    exists_unit_and_eq, reads_peek, not_reads_refuse, reads_pure, exists_last, Reader.peek_eq]
  by_cases hk : r.current.kind = .ident <;> simp [hk]

theorem reads_paramOrBad {p : Param} : paramOrBad.Reads r p s ↔ ∃ m, param.Reads r p m ∧
    (m.advance.current.kind = .punct .comma ∨ m.advance.current.kind = .punct .rparen) ∧ s = m.advance := by
  unfold paramOrBad
  rw [reads_current_bind, @reads_attempt_bind _ _ _ _ _ _ _ _ (by rintro (_ | _) <;> infer_instance)]
  simp only [reads_bind, reads_peek, exists_eq_and_eq, reads_ite, reads_advance, exists_unit_eq, reads_pure,
    Reader.peek_eq, Bool.or_eq_true, decide_eq_true_eq, not_reads_report, false_and, exists_false]
  constructor
  · rintro ⟨p, m, hp, h⟩
    split at h
    · rename_i hk
      obtain ⟨rfl, rfl⟩ := h
      exact ⟨m, hp, hk, rfl⟩
    · exact h.elim
  · rintro ⟨m, hp, hk, rfl⟩
    refine ⟨p, m, hp, ?_⟩
    rw [if_pos hk]
    exact ⟨rfl, rfl⟩

theorem leads_paramEnd (ps : Array Param) (m : Reader) : m.Leads (paramEnd ps m).reader := by
  change m.Leads (Reply.reader ((if _ then _ else if _ then _ else _ : Rule _) m))
  split
  · exact .refl m
  · split
    · change m.Leads (Reply.reader ((if _ then _ else _ : Rule _) m.advance))
      split
      · exact (Reader.Leads.advance m).trans (.report _ _)
      · exact .advance m
    · exact .refl m

theorem paramEnd_eq_fail {ps : Array Param} {m : Reader} (h : paramEnd ps m = .fail s) :
    m.current.kind ≠ .punct .comma ∧ m.current.kind ≠ .punct .rparen := by
  change (if _ then _ else if _ then _ else _ : Rule _) m = .fail s at h
  split at h
  · cases h
  · rename_i h1
    split at h
    · change (if _ then _ else _ : Rule _) m.advance = .fail s at h
      split at h <;> cases h
    · rename_i h2
      exact ⟨h2, h1⟩

/-- A round fails only behind a parameter that was reported. -/
instance {ps : Array Param} : Honest (paramRound ps) := by
  refine .bind_of_reads (fun p m => leads_paramEnd _ m) ?_
  intro r m s p hp hs
  obtain ⟨q, -, hk, rfl⟩ := reads_paramOrBad.1 hp
  obtain ⟨h1, h2⟩ := paramEnd_eq_fail hs
  exact absurd hk (not_or.2 ⟨h1, h2⟩)

instance : Honest params := by unfold params; infer_instance

theorem reads_paramEnd {ps : Array Param} {o : Round (Array Param)} : (paramEnd ps).Reads r o s ↔
    (r.current.kind = .punct .rparen ∧ o = .stop ps ∧ s = r) ∨
    (r.current.kind = .punct .comma ∧ r.advance.current.kind ≠ .punct .rparen ∧ o = .again ps ∧ s = r.advance) := by
  unfold paramEnd
  rw [reads_current_bind]
  simp only [reads_ite, reads_pure, reads_bind, reads_advance, exists_unit_eq, reads_current, exists_eq_and_eq,
    not_reads_report, not_reads_fail, false_and, exists_false]
  by_cases h1 : r.current.kind = .punct .rparen
  · simp [h1]
  · by_cases h2 : r.current.kind = .punct .comma <;> by_cases h3 : r.advance.current.kind = .punct .rparen <;>
      simp [h1, h2, h3]

/-- Without reports, parameters are a list of items like any other. -/
theorem reads_paramRound {ps : Array Param} {o : Round (Array Param)} : (paramRound ps).Reads r o s ↔
    (itemRound .rparen .parameter param ps).Reads r o s := by
  unfold paramRound
  rw [reads_bind_of_leads fun p m => leads_paramEnd _ m]
  simp only [reads_paramOrBad, reads_paramEnd]
  cases o with
  | again qs =>
    rw [reads_itemRound_again]
    constructor
    · rintro ⟨p, _, ⟨m, hp, -, rfl⟩, ⟨-, h, -⟩ | ⟨h1, h2, h, rfl⟩⟩
      · cases h
      · exact ⟨p, m, hp, h1, h2, Round.again.inj h, rfl⟩
    · rintro ⟨p, m, hp, h1, h2, rfl, rfl⟩
      exact ⟨p, m.advance, ⟨m, hp, .inl h1, rfl⟩, .inr ⟨h1, h2, rfl, rfl⟩⟩
  | stop qs =>
    rw [reads_itemRound_stop (by decide)]
    constructor
    · rintro ⟨p, _, ⟨m, hp, -, rfl⟩, ⟨h1, h, rfl⟩ | ⟨-, -, h, -⟩⟩
      · exact ⟨p, m, hp, h1, Round.stop.inj h, rfl⟩
      · cases h
    · rintro ⟨p, m, hp, h1, rfl, rfl⟩
      exact ⟨p, m.advance, ⟨m, hp, .inr h1, rfl⟩, .inl ⟨h1, rfl, rfl⟩⟩

theorem reads_params {ps : List Param} : params.Reads r ps s ↔ (manyItems .rparen .parameter param).Reads r ps s := by
  have hloop : ∀ {qs : Array Param}, (loop paramRound #[]).Reads r qs s ↔
      (loop (itemRound .rparen .parameter param) #[]).Reads r qs s := reads_loop_congr reads_paramRound
  unfold params
  rw [reads_manyItems, reads_items, ← hloop]
  simp only [reads_bind, reads_current, exists_eq_and_eq, reads_ite, reads_pure]
  split
  · rfl
  · constructor
    · rintro ⟨qs, m, h, rfl, rfl⟩
      exact h
    · exact fun h => ⟨_, s, h, rfl, rfl⟩

end Specs

/-! ## Soundness -/

/-- Bindings in braces as they are spelled. -/
def bracedBindings (bs : List Binding) : List Lexeme :=
  .punct .lbrace :: (Lexeme.joined (.punct .comma) (bs.map Binding.lexemes) ++ [Lexeme.punct .rbrace])

/-- What a rule for bindings reads is canonical and spelled. -/
def SoundBindings (bindings : Rule (List Binding)) : Prop := ∀ ⦃r bs s⦄, r.WF → r.current.kind = .punct .lbrace →
  bindings.Reads r bs s → bs ≠ [] ∧ (∀ b ∈ bs, b.Canonical) ∧ Spells r.rest (bracedBindings bs) s.advance.rest

theorem sound_binding {bindings : Rule (List Binding)} [Honest bindings] (hb : SoundBindings bindings) :
    (binding bindings).Sound Binding.lexemes Binding.Canonical := by
  intro r b s hr h
  obtain ⟨k1, k2, k3, h⟩ := reads_binding.1 h
  have h1 := hr.advance
  have h2 := h1.advance
  have h3 := h2.advance
  have hname := hr.ident_canonical k1
  have hprop := h2.ident_canonical k3
  have hhead : ∀ {ls c}, Spells r.advance.advance.advance.rest ls c → Spells r.rest
      (.ident r.current.ident.name :: .punct .colon :: .ident r.advance.advance.current.ident.name :: ls) c :=
    fun h => hr.spells_ident k1 (h1.spells_punct k2 (h2.spells_ident k3 h))
  split at h
  · rename_i hk
    obtain ⟨c, hc, rfl⟩ := h
    have hc := sound_expr h3.advance hc
    refine ⟨.leaf hname hprop (.inr hc.canonical), ?_⟩
    simp only [Binding.lexemes, Ident.lexemes?, constraintLexemes_of_ne_absent hc.canonical.ne_absent,
      List.cons_append, List.nil_append]
    exact hhead (h3.spells_punct hk hc.spells)
  · split at h
    · rename_i hk
      obtain ⟨bs, hbs, rfl⟩ := h
      obtain ⟨hne, hcan, hs⟩ := hb h3 hk hbs
      refine ⟨.nested hname hprop hne hcan, ?_⟩
      simp only [Binding.lexemes, Binding.lexemesAll_eq, Ident.lexemes?, constraintLexemes, List.cons_append,
        List.nil_append]
      exact hhead hs
    · obtain ⟨rfl, rfl⟩ := h
      exact ⟨.leaf hname hprop (.inl rfl), hhead (spells_nil.2 rfl)⟩

theorem soundBindings_bindingsAt : ∀ d, SoundBindings (bindingsAt d)
  | 0 => by
    intro r bs s _ _ h
    exact absurd h (by simp [bindingsAt])
  | d + 1 => by
    intro r bs s hr hk h
    obtain ⟨-, h⟩ := reads_someItems.1 (reads_bindingsAt_succ.1 h)
    obtain ⟨hne, hc, hs⟩ := (sound_binding (soundBindings_bindingsAt d)).items (by decide) hr.advance h
    exact ⟨hne, hc, hr.spells_punct hk hs⟩

theorem sound_param : param.Sound Param.lexemes Param.Canonical := by
  intro r p s hr h
  obtain ⟨k1, k2, n, m, hn, h⟩ := reads_param.1 h
  have h2 := hr.advance.advance
  have hm := hn.leads.wf h2
  obtain ⟨hnc, hns, -⟩ := sound_dottedName h2 hn
  have hname := hr.ident_canonical k1
  have hhead : ∀ {ls c}, Spells m.advance.rest ls c → Spells r.rest
      (.ident r.current.ident.name :: .punct .colon :: (n.lexemes ++ ls)) c :=
    fun h => hr.spells_ident k1 (hr.advance.spells_punct k2 (hns.append h))
  split at h
  · rename_i hk
    obtain ⟨bs, hbs, rfl⟩ := h
    obtain ⟨hne, hcan, hs⟩ := soundBindings_bindingsAt _ hm.advance hk (reads_bindings.1 hbs)
    refine ⟨.destructuring hname hnc hne hcan, ?_⟩
    simp only [Param.lexemes, Binding.lexemesAll_eq, Ident.lexemes?, Name.lexemes?, List.cons_append, List.nil_append,
      List.append_assoc]
    exact hhead hs
  · split at h
    · rename_i hk
      obtain ⟨c, hc, rfl⟩ := h
      have hc := sound_expr hm.advance.advance hc
      refine ⟨.simple hname hnc (.inr hc.canonical), ?_⟩
      simp only [Param.lexemes, Ident.lexemes?, Name.lexemes?, constraintLexemes_of_ne_absent hc.canonical.ne_absent,
        List.cons_append, List.nil_append]
      exact hhead (hm.advance.spells_punct hk hc.spells)
    · obtain ⟨rfl, rfl⟩ := h
      exact ⟨.simple hname hnc (.inl rfl), hhead (spells_nil.2 rfl)⟩

/-! ## Completeness -/

/-- A binding is read wherever it is spelled inside braces, with lists of bindings of less depth than
it has tokens. -/
def ReadableBinding (b : Binding) : Prop := ∀ ⦃d r c⦄, r.WF → b.lexemes.length ≤ d → Spells r.rest b.lexemes c →
  headKind c = .punct .comma ∨ headKind c = .punct .rbrace →
  ∃ b' s, (binding (bindingsAt d)).Reads r b' s ∧ b'.erase = b.erase ∧ s.advance.rest = c

theorem complete_bindingsAt {bs : List Binding} (hne : bs ≠ []) (hbs : ∀ b ∈ bs, b.Canonical ∧ ReadableBinding b)
    {d : Nat} {r : Reader} {c : List Token} (hr : r.WF) (hd : (bracedBindings bs).length ≤ d)
    (hs : Spells r.rest (bracedBindings bs) c) :
    ∃ bs' s, (bindingsAt d).Reads r bs' s ∧ bs'.map Binding.erase = bs.map Binding.erase ∧ s.advance.rest = c := by
  obtain ⟨d, rfl⟩ : ∃ d', d = d' + 1 := by
    cases d with
    | zero => cases hd
    | succ d => exact ⟨d, rfl⟩
  simp only [bracedBindings, List.length_cons, List.length_append] at hs hd
  obtain ⟨-, hs⟩ := Reader.of_spells_cons hs
  have hitem : (binding (bindingsAt d)).Complete Binding.lexemes
      (fun b => b.Canonical ∧ ReadableBinding b ∧ b.lexemes.length ≤ d)
      (fun _ k => k = .punct .comma ∨ k = .punct .rbrace) Binding.erase := by
    rintro r b c hr ⟨-, hb, hd⟩ hs hc
    exact hb hr hd hs hc
  have hhead : ∀ b : Binding, (b.Canonical ∧ ReadableBinding b ∧ b.lexemes.length ≤ d) →
      ∃ l ls, b.lexemes = l :: ls ∧ l.kind ≠ .punct .rbrace := by
    rintro b ⟨hb, -⟩
    cases hb <;> exact ⟨_, _, rfl, nofun⟩
  have hP : ∀ b ∈ bs, b.Canonical ∧ ReadableBinding b ∧ b.lexemes.length ≤ d := by
    intro b hb
    have := length_le_joined Binding.lexemes (.punct .comma) hb
    exact ⟨(hbs b hb).1, (hbs b hb).2, by omega⟩
  obtain ⟨bs', s, hread, he, hcs⟩ := hitem.someItems .binding (by decide) (fun _ _ => .inl rfl) (fun _ _ => .inr rfl)
    hhead hne hP hr.advance hs
  exact ⟨bs', s, reads_bindingsAt_succ.2 hread, he, hcs⟩

theorem ReadableBinding.of_canonical {b : Binding} (h : b.Canonical) : ReadableBinding b := by
  induction h with
  | @leaf x p e sp _ _ he =>
    intro d r c hr hd hs hc
    simp only [Binding.lexemes, Ident.lexemes?, List.cons_append, List.nil_append] at hs
    obtain ⟨h1, hs⟩ := Reader.of_spells_cons hs
    obtain ⟨h2, hs⟩ := Reader.of_spells_cons hs
    obtain ⟨h3, hs⟩ := Reader.of_spells_cons hs
    obtain ⟨k1, n1⟩ := Token.ident_of_lexeme h1
    obtain ⟨k3, n3⟩ := Token.ident_of_lexeme h3
    have hw := hr.advance.advance.advance
    rcases he with rfl | he
    · have hc' : headKind r.advance.advance.advance.rest = .punct .comma ∨
          headKind r.advance.advance.advance.rest = .punct .rbrace := by
        rw [spells_nil.1 hs]
        exact hc
      rw [← hw.current_kind] at hc'
      refine ⟨.leaf (some r.current.ident) (some r.advance.advance.current.ident) .absent
        (r.current.span.through r.advance.advance.current.span), r.advance.advance, reads_binding.2 ⟨k1, congrArg Lexeme.kind h2, k3, ?_⟩,
        by simp [Binding.erase, Ident.erase_eq n1, Ident.erase_eq n3], spells_nil.1 hs⟩
      rw [if_neg (by rcases hc' with h | h <;> simp [h]), if_neg (by rcases hc' with h | h <;> simp [h])]
      exact ⟨rfl, rfl⟩
    · rw [constraintLexemes_of_ne_absent he.ne_absent] at hs
      obtain ⟨h4, hs⟩ := Reader.of_spells_cons hs
      have k4 : r.advance.advance.advance.current.kind = .punct .pipe := congrArg Lexeme.kind h4
      have hf : e.Follows 0 (headKind c) := by
        rcases hc with hc | hc <;> rw [hc] <;> exact .punct (by decide) rfl rfl
      obtain ⟨e', s, he', hee, hes⟩ := complete_expr hw.advance he hs hf
      refine ⟨.leaf (some r.current.ident) (some r.advance.advance.current.ident) e'
        (r.current.span.through s.current.span), s, reads_binding.2 ⟨k1, congrArg Lexeme.kind h2, k3, ?_⟩,
        by simp [Binding.erase, Ident.erase_eq n1, Ident.erase_eq n3, hee], hes⟩
      rw [if_pos k4]
      exact ⟨e', he', rfl⟩
  | @nested x p bs sp _ _ hne hbs ih =>
    intro d r c hr hd hs _
    have hlx : (Binding.nested (some x) (some p) .absent bs sp).lexemes =
        .ident x.name :: .punct .colon :: .ident p.name :: bracedBindings bs := by
      simp [Binding.lexemes, Ident.lexemes?, constraintLexemes, bracedBindings]
    rw [hlx] at hs hd
    simp only [List.length_cons] at hd
    obtain ⟨h1, hs⟩ := Reader.of_spells_cons hs
    obtain ⟨h2, hs⟩ := Reader.of_spells_cons hs
    obtain ⟨h3, hs⟩ := Reader.of_spells_cons hs
    obtain ⟨k1, n1⟩ := Token.ident_of_lexeme h1
    obtain ⟨k3, n3⟩ := Token.ident_of_lexeme h3
    have k4 : r.advance.advance.advance.current.kind = .punct .lbrace :=
      congrArg Lexeme.kind (Reader.of_spells_cons hs).1
    obtain ⟨bs', s, hread, hbe, hcs⟩ := complete_bindingsAt hne (fun b h => ⟨hbs b h, ih b h⟩)
      hr.advance.advance.advance (by omega : _ ≤ d) hs
    refine ⟨.nested (some r.current.ident) (some r.advance.advance.current.ident) .absent bs'
      (r.current.span.through s.current.span), s, reads_binding.2 ⟨k1, congrArg Lexeme.kind h2, k3, ?_⟩,
      by simp [Binding.erase, Ident.erase_eq n1, Ident.erase_eq n3, hbe], hcs⟩
    rw [if_neg (by simp [k4]), if_pos k4]
    exact ⟨bs', hread, rfl⟩

/-- Every canonical parameter is read where it is spelled. -/
theorem complete_param : param.Complete Param.lexemes Param.Canonical
    (fun _ k => k = .punct .comma ∨ k = .punct .rparen) Param.erase := by
  intro r p c hr hp hs hc
  cases hp with
  | @simple x n e sp _ hn he =>
    simp only [Param.lexemes, Ident.lexemes?, Name.lexemes?, List.cons_append, List.nil_append] at hs
    obtain ⟨h1, hs⟩ := Reader.of_spells_cons hs
    obtain ⟨h2, hs⟩ := Reader.of_spells_cons hs
    obtain ⟨k1, n1⟩ := Token.ident_of_lexeme h1
    obtain ⟨b, hb, hs⟩ := spells_append.1 hs
    rcases he with rfl | he
    · obtain rfl := spells_nil.1 hs
      obtain ⟨n', m, hn', hne, rfl⟩ := complete_dottedName hr.advance.advance hn hb
        (by rcases hc with hc | hc <;> simp [hc])
      rw [← (hn'.leads.wf hr.advance.advance).advance.current_kind] at hc
      refine ⟨.simple (some r.current.ident) (some n') .absent (r.current.span.through n'.span), m,
        reads_param.2 ⟨k1, congrArg Lexeme.kind h2, n', m, hn', ?_⟩, by simp [Param.erase, Ident.erase_eq n1, hne], rfl⟩
      rw [if_neg (by rcases hc with h | h <;> simp [h]), if_neg (by rcases hc with h | h <;> simp [h])]
      exact ⟨rfl, rfl⟩
    · rw [constraintLexemes_of_ne_absent he.ne_absent] at hs
      obtain ⟨n', m, hn', hne, rfl⟩ := complete_dottedName hr.advance.advance hn hb (by simp [hs.headKind, Lexeme.punct])
      have hm := hn'.leads.wf hr.advance.advance
      obtain ⟨h3, hs⟩ := Reader.of_spells_cons hs
      have k3 : m.advance.current.kind = .punct .pipe := congrArg Lexeme.kind h3
      have hf : e.Follows 0 (headKind c) := by
        rcases hc with hc | hc <;> rw [hc] <;> exact .punct (by decide) rfl rfl
      obtain ⟨e', s, he', hee, hes⟩ := complete_expr hm.advance.advance he hs hf
      refine ⟨.simple (some r.current.ident) (some n') e' (r.current.span.through e'.span), s,
        reads_param.2 ⟨k1, congrArg Lexeme.kind h2, n', m, hn', ?_⟩,
        by simp [Param.erase, Ident.erase_eq n1, hne, hee], hes⟩
      rw [if_neg (by simp [k3]), if_pos k3]
      exact ⟨e', he', rfl⟩
  | @destructuring x n bs sp _ hn hbne hbs =>
    have hlx : (Param.destructuring (some x) (some n) bs sp).lexemes =
        .ident x.name :: .punct .colon :: (n.lexemes ++ bracedBindings bs) := by
      simp [Param.lexemes, Ident.lexemes?, Name.lexemes?, bracedBindings]
    rw [hlx] at hs
    obtain ⟨h1, hs⟩ := Reader.of_spells_cons hs
    obtain ⟨h2, hs⟩ := Reader.of_spells_cons hs
    obtain ⟨k1, n1⟩ := Token.ident_of_lexeme h1
    obtain ⟨b, hb, hs⟩ := spells_append.1 hs
    obtain ⟨n', m, hn', hne, rfl⟩ := complete_dottedName hr.advance.advance hn hb
      (by simp [Spells.headKind hs, Lexeme.punct])
    have hm := hn'.leads.wf hr.advance.advance
    have k3 : m.advance.current.kind = .punct .lbrace := congrArg Lexeme.kind (Reader.of_spells_cons hs).1
    have hd : (bracedBindings bs).length ≤ m.advance.budget + 1 := by
      have h3 := hs.length
      have h4 := hm.advance.budget
      omega
    obtain ⟨bs', s, hread, hbe, hcs⟩ := complete_bindingsAt hbne (fun b h => ⟨hbs b h, .of_canonical (hbs b h)⟩)
      hm.advance hd hs
    refine ⟨.destructuring (some r.current.ident) (some n') bs' (r.current.span.through s.current.span), s,
      reads_param.2 ⟨k1, congrArg Lexeme.kind h2, n', m, hn', ?_⟩,
      by simp [Param.erase, Ident.erase_eq n1, hne, hbe], hcs⟩
    rw [if_pos k3]
    exact ⟨bs', reads_bindings.2 hread, rfl⟩

end SemFront.Rule
