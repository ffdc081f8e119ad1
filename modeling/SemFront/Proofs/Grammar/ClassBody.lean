/-
Errors inside a class never leave it, as long as they are not errors of parameters. A member is given up
with its braces counted, as a statement is, and so the class ends on the brace that closes it. Only a
parameter is given up without counting braces: it may take the brace that closes the class, or leave
braces open that the class then takes for its own. Where the parameters of no method do so, the class
ends on its brace whatever else stands in it.
-/
import SemFront.Proofs.Grammar.Braces
import SemFront.Proofs.Grammar.Unlogged

namespace SemFront

/-! ## Balanced tokens -/

section Balanced

variable {t c : Token} {ts us : List Token} {d : Nat}

/-- Tokens that close `d` braces more than they open, and at no point more than that. -/
def Sinks (d : Nat) (ts : List Token) : Prop :=
  (∀ us, us <+: ts → us.countP (·.kind = .punct .rbrace) ≤ us.countP (·.kind = .punct .lbrace) + d) ∧
    ts.countP (·.kind = .punct .rbrace) = ts.countP (·.kind = .punct .lbrace) + d

theorem sinks_zero : Sinks 0 ts ↔ Balanced ts := by
  unfold Sinks Balanced
  simp only [List.mem_inits, Nat.add_zero]

theorem sinks_cons : Sinks d (t :: ts) ↔
    (if t.kind = .punct .rbrace then 1 else 0) ≤ (if t.kind = .punct .lbrace then 1 else 0) + d ∧
    Sinks (d + (if t.kind = .punct .lbrace then 1 else 0) - if t.kind = .punct .rbrace then 1 else 0) ts := by
  have hpre : ∀ {P : List Token → Prop}, (∀ us, us <+: t :: ts → P us) ↔ P [] ∧ ∀ us, us <+: ts → P (t :: us) := by
    intro P
    simp only [List.prefix_cons_iff, or_imp, forall_and, forall_eq, forall_exists_index, and_imp]
    exact and_congr_right fun _ => ⟨fun h us => h _ us rfl, fun h us vs e hvs => e ▸ h vs hvs⟩
  unfold Sinks
  rw [hpre]
  simp only [List.countP_cons, List.countP_nil, decide_eq_true_eq]
  generalize (if t.kind = .punct .rbrace then 1 else 0) = b, (if t.kind = .punct .lbrace then 1 else 0) = a
  constructor
  · rintro ⟨⟨-, hle⟩, heq⟩
    have ht := hle [] List.nil_prefix
    simp only [List.countP_nil] at ht
    refine ⟨by omega, fun us hus => ?_, by omega⟩
    have := hle us hus
    omega
  · rintro ⟨ht, hle, heq⟩
    refine ⟨⟨Nat.zero_le _, fun us hus => ?_⟩, by omega⟩
    have := hle us hus
    omega

/-- The tokens before a closing brace close what was open. -/
theorem sinks_of_closing : ∀ {ts : List Token} {d : Nat}, closing d ts = some us → ∃ ws, ts = ws ++ us ∧ Sinks d ws
  | t :: ts, d, h => by
    rcases t.kind.brace_cases with hk | hk | hk
    · rw [closing_lbrace hk] at h
      obtain ⟨ws, rfl, hws⟩ := sinks_of_closing h
      exact ⟨t :: ws, rfl, by simpa [sinks_cons, hk] using hws⟩
    · cases d with
      | zero =>
        rw [closing_rbrace_zero hk] at h
        cases h
        exact ⟨[], rfl, sinks_zero.2 (by decide)⟩
      | succ d =>
        rw [closing_rbrace_succ hk] at h
        obtain ⟨ws, rfl, hws⟩ := sinks_of_closing h
        exact ⟨t :: ws, rfl, by simpa [sinks_cons, hk] using hws⟩
    · rw [closing_other hk] at h
      obtain ⟨ws, rfl, hws⟩ := sinks_of_closing h
      have := Kind.isBrace_eq_false.1 hk
      exact ⟨t :: ws, rfl, by simpa [sinks_cons, this] using hws⟩

theorem balanced_of_closing (h : closing 0 ts = some us) : ∃ ws, ts = ws ++ us ∧ Balanced ws := by
  obtain ⟨ws, hws, hs⟩ := sinks_of_closing h
  exact ⟨ws, hws, sinks_zero.1 hs⟩

/-- Tokens are balanced if they close nothing of what is around them. -/
theorem balanced_iff_closing : Balanced ts ↔ ∀ us, closing 0 (ts ++ us) = closing 0 us := by
  refine ⟨fun h us => h.closing_eq, fun h => ?_⟩
  let c : Token := { kind := .punct .rbrace, raw := "", span := {} }
  obtain ⟨ws, hws, hb⟩ := balanced_of_closing ((h [c]).trans (closing_rbrace_zero rfl))
  rwa [List.append_cancel_right hws]

theorem Balanced.append (h : Balanced ts) (h' : Balanced us) : Balanced (ts ++ us) := by
  refine balanced_iff_closing.2 fun vs => ?_
  rw [List.append_assoc, h.closing_eq, h'.closing_eq]

/-- Braces around balanced tokens are balanced. -/
theorem Balanced.braced {l : Token} (hl : l.kind = .punct .lbrace) (h : Balanced ts) (hc : c.kind = .punct .rbrace) :
    Balanced (l :: (ts ++ [c])) := by
  refine balanced_iff_closing.2 fun vs => ?_
  rw [List.cons_append, closing_lbrace hl, List.append_assoc, h.closing_eq]
  exact closing_rbrace_succ hc

theorem balanced_of_braceless (h : ∀ t ∈ ts, t.kind.isBrace = false) : Balanced ts := by
  refine balanced_iff_closing.2 fun vs => ?_
  induction ts with
  | nil => rfl
  | cons t ts ih =>
    rw [List.cons_append, closing_other (h t List.mem_cons_self)]
    exact ih fun u hu => h u (List.mem_cons_of_mem t hu)

/-- What stands before balanced tokens is balanced if the whole is. -/
theorem Balanced.of_append (h : Balanced (ts ++ us)) (hu : Balanced us) : Balanced ts := by
  rw [← sinks_zero] at *
  refine ⟨fun vs hvs => h.1 vs (hvs.trans (List.prefix_append ts us)), ?_⟩
  have heq := h.2
  rw [List.countP_append, List.countP_append] at heq
  have := hu.2
  omega

end Balanced

/-! ## Rules that take balanced tokens -/

/-- Moving on over balanced tokens. -/
structure Reader.Level (r s : Reader) : Prop where
  leads : r.Leads s
  tokens : ∃ us : List Token, r.rest = us ++ s.rest ∧ Balanced us

namespace Reader

variable {r m s : Reader}

/-- A reader on other tokens of the same source, with nothing noted yet. -/
def afresh (r : Reader) (ts : List Token) : Reader :=
  { rest := ts, eof := r.eof, budget := r.budget, tokens := r.tokens, limit := r.limit }

theorem Passes.level (h : r.Passes s) : r.Level s := by
  obtain ⟨us, hus, hb⟩ := h.tokens
  exact ⟨h.leads, us, hus, balanced_of_braceless hb⟩

theorem Level.trans (h : r.Level m) (h' : m.Level s) : r.Level s := by
  obtain ⟨us, hus, hb⟩ := h.tokens
  obtain ⟨vs, hvs, hb'⟩ := h'.tokens
  exact ⟨h.leads.trans h'.leads, us ++ vs, by rw [hus, hvs, List.append_assoc], hb.append hb'⟩

/-- Behind balanced tokens and one that is no brace. -/
theorem Level.advance (h : r.Level m) (hk : m.current.kind = k) (hb : k.isBrace = false) : r.Level m.advance :=
  h.trans (PassesTo.of_current hk hb).advance.level

/-- A pair of braces with balanced tokens between them. -/
theorem Level.braced (hr : r.WF) (hl : r.current.kind = .punct .lbrace) (h : r.advance.Level m)
    (hc : m.current.kind = .punct .rbrace) : r.Level m.advance := by
  obtain ⟨us, hus, hb⟩ := h.tokens
  refine ⟨((Leads.advance r).trans h.leads).trans (.advance m), _, ?_, hb.braced hl hc⟩
  have hm := (h.leads.wf hr.advance).rest_eq (by simp [hc])
  rw [hr.rest_eq (by simp [hl]), hus, hm]
  simp

end Reader

namespace Rule

open Reader (Passes PassesTo Level)

variable {r m : Reader} {x : Rule α} {ts : List Token}

/-- A rule that has taken balanced tokens when it succeeds, with the one it ends on. -/
def Levels (x : Rule α) (r : Reader) : Prop := x.Ensures r (fun _ s => r.Level s.advance) (fun _ => True)

theorem items_level [Honest x] {c : Punct} {w : Wanted} (hx : ∀ {m : Reader}, m.WF → r.Leads m → x.Levels m) (hr : r.WF) :
    (items c w x).Ensures r (fun _ s => r.Level s ∧ s.current.kind = .punct c) (fun _ => True) := by
  unfold items
  simp only [ensures_bind, ensures_pure]
  refine Ensures.loop (P := fun _ m => r.Level m) (fun xs m hm h => ?_) hr (Passes.refl r).level
  unfold itemRound
  simp only [ensures_bind, ensures_peek, ensures_ite, ensures_advance, ensures_current, ensures_pure, ensures_refuse]
  refine (hx hm h.leads).mono (fun a s hs => ?_) (fun _ _ => trivial)
  split
  · rename_i hcomma
    split
    · trivial
    · exact (h.trans hs).advance hcomma rfl
  · split
    · rename_i hclose
      exact ⟨h.trans hs, hclose⟩
    · trivial

/-- What follows an expected token, where nothing is asked of a failure. -/
theorem expect_then {k : Kind} {Q : Unit → Reader → Prop} (h : m.advance.current.kind = k → Q () m.advance) :
    (expect k).Ensures m Q (fun _ => True) := by
  rw [ensures_expect]
  split
  · rename_i hk
    exact h hk
  · trivial

theorem binding_levels {bindings : Rule (List Binding)} (hr : r.WF)
    (hb : ∀ {m : Reader}, m.WF → r.Leads m → m.current.kind = .punct .lbrace → bindings.Levels m) :
    (binding bindings).Levels r := by
  unfold Levels binding
  simp only [ensures_bind, ensures_current, ensures_ite, ensures_refuse, ensures_peek, ensures_advance,
    ensures_currentIdent, ensures_pure]
  split
  · trivial
  · rename_i hname
    refine expect_then fun hcolon => expect_then fun hprop => ?_
    have h := ((PassesTo.of_current (not_not.1 hname) rfl).advance_to hcolon rfl).advance_to hprop rfl
    split
    · rename_i hpipe
      exact (braceless_expr.ensures hr (h.advance_to hpipe rfl).advance fun _ _ hs => hs.advance.level).mono
        (fun _ _ h => h) (fun _ _ => trivial)
    · split
      · rename_i hlbrace
        exact (hb (h.advance.leads.wf hr) h.advance.leads hlbrace).mono
          (fun _ s hs => h.advance.level.trans hs) (fun _ _ => trivial)
      · exact h.advance.level

theorem bindingsAt_levels (d : Nat) (hr : r.WF) (hl : r.current.kind = .punct .lbrace) : (bindingsAt d).Levels r := by
  induction d generalizing r with
  | zero => trivial
  | succ d ih =>
    unfold Levels bindingsAt someItems
    simp only [ensures_bind, ensures_advance, ensures_current, ensures_ite, ensures_refuse]
    split
    · trivial
    · refine (items_level (fun hm _ => ?_) hr.advance).mono (fun _ s hs => ?_) (fun _ h => h)
      · exact binding_levels hm fun hn _ hk => ih hn hk
      · exact Level.braced hr hl hs.1 hs.2

theorem param_levels (hr : r.WF) : param.Levels r := by
  unfold Levels param
  simp only [ensures_bind, ensures_current, ensures_ite, ensures_refuse, ensures_peek, ensures_advance, ensures_pure]
  split
  · trivial
  · rename_i hname
    refine expect_then fun hcolon => ?_
    have hhead := ((PassesTo.of_current (not_not.1 hname) rfl).advance_to hcolon rfl).advance
    refine ((braceless_dottedName.passes hr.advance.advance).mono (fun _ m hm => ?_) (fun _ _ => trivial))
    have h := PassesTo.trans hhead hm
    split
    · rename_i hlbrace
      refine Ensures.of_budget ((bindingsAt_levels _ (h.advance.leads.wf hr) hlbrace).mono ?_ (fun _ _ => trivial))
      exact fun _ s hs => h.advance.level.trans hs
    · split
      · rename_i hpipe
        exact (braceless_expr.ensures hr (h.advance_to hpipe rfl).advance fun _ _ hs => hs.advance.level).mono
          (fun _ _ h => h) (fun _ _ => trivial)
      · exact h.advance.level

/-- Parameters that can be read take balanced tokens. -/
theorem Reads.params_level {ps : List Param} {s : Reader} (hr : r.WF) (h : params.Reads r ps s) : r.Level s := by
  have hitems : (manyItems .rparen .parameter param).Ensures r (fun _ s => r.Level s) (fun _ => True) := by
    unfold manyItems
    simp only [ensures_bind, ensures_current, ensures_ite, ensures_pure]
    split
    · exact (Passes.refl r).level
    · exact (items_level (fun hm _ => param_levels hm) hr).mono (fun _ _ hs => hs.1) (fun _ h => h)
  exact hitems.ok (reads_params.1 h).1

/-! ## Parameters in a class -/

/-- The tokens that a rule takes, whether it succeeds or fails. -/
def taken (x : Rule α) (r : Reader) : List Token := r.rest.take (r.rest.length - (x r).reader.rest.length)

/-- A rule reports nothing, or it takes balanced tokens all the same. -/
def EvenAt (x : Rule α) (r : Reader) : Prop := (x r).reader.reports = r.reports ∨ Balanced (x.taken r)

instance : Decidable (EvenAt x r) := inferInstanceAs (Decidable (_ ∨ _))

theorem rest_eq_taken_append [hx : Honest x] : r.rest = x.taken r ++ (x r).reader.rest := by
  obtain ⟨us, hus⟩ := (hx.leads r).rest
  unfold taken
  rw [← hus]
  simp

theorem EvenAt.params_level (hr : r.WF) (h : params.EvenAt r) : r.Level (params r).reader := by
  have hleads := (inferInstance : Honest params).leads r
  rcases h with h | h
  · cases hp : params r with
    | ok ps s =>
      rw [hp] at h
      exact Reads.params_level hr ⟨hp, h⟩
    | fail s =>
      rw [hp] at h
      exact absurd h ((inferInstance : Honest params).speaks r s hp)
  · exact ⟨hleads, _, rest_eq_taken_append, h⟩

/-- Parameters that are even keep the brace ahead that closes what is around them. -/
theorem params_inside (hr : r.WF) (heven : params.EvenAt (r.afresh r.rest)) (h : closing 0 r.rest = some ts) :
    params.Ensures r (fun _ s => closing 0 s.rest = some ts ∧ s.current.kind = .punct .rparen)
      (fun s => closing 0 s.rest = some ts) := by
  have hends : params.Ensures r (fun _ s => s.current.kind = .punct .rparen) (fun _ => True) := by
    unfold params
    simp only [ensures_bind, ensures_current, ensures_ite, ensures_pure]
    split
    · assumption
    · refine Ensures.loop (P := fun _ _ => True) (fun ps m _ _ => ?_) hr trivial
      unfold paramRound paramEnd
      simp only [ensures_bind, ensures_current, ensures_ite, ensures_pure, ensures_advance, ensures_report,
        ensures_fail]
      refine (Honest.ensures (x := paramOrBad)).mono (fun p m _ => ?_) (fun _ _ => trivial)
      split
      · assumption
      · split
        · split
          · assumption
          · trivial
        · trivial
  have hclosing : closing 0 (params r).reader.rest = some ts := by
    have hwf : (r.afresh r.rest).WF := ⟨hr.eof, hr.tokens, hr.ordered, hr.budget⟩
    have hsame : (r.afresh r.rest).SameInput r := ⟨rfl, rfl, rfl⟩
    obtain ⟨us, hus, hb⟩ := (heven.params_level hwf).tokens
    rw [(Unlogged.same params hsame).reader.rest] at hus
    rw [← hb.closing_eq, ← hus]
    exact h
  unfold Ensures at hends ⊢
  split
  · rename_i ps s e
    rw [e] at hends hclosing
    exact ⟨hclosing, hends⟩
  · rename_i s e
    rw [e] at hclosing
    exact hclosing

/-! ## Members -/

theorem dottedName_current (hr : r.WF) :
    dottedName.Ensures r (fun _ s => s.current.kind = .ident) (fun _ => True) := by
  unfold dottedName
  simp only [ensures_bind, ensures_current, ensures_ite, ensures_refuse, ensures_pure]
  split
  · trivial
  · rename_i hk
    refine Ensures.loop (P := fun _ m => m.current.kind = .ident) (fun xs m hm h => ?_) hr (not_not.1 hk)
    unfold segmentRound
    simp only [ensures_bind, ensures_peek, ensures_ite, ensures_advance, ensures_currentIdent, ensures_pure]
    split
    · exact expect_then fun hident => hident
    · exact h

/-- An expected token that is no brace, where the closing brace is to stay ahead. -/
theorem expect_inside {k : Kind} {Q : Unit → Reader → Prop} (hc : closing 0 r.rest = some ts) (h : r.PassesTo m)
    (hk : k.isBrace = false) (hQ : m.advance.current.kind = k → r.PassesTo m.advance → Q () m.advance) :
    (expect k).Ensures m Q (fun s => closing 0 s.rest = some ts) := by
  rw [ensures_expect]
  split
  · rename_i he
    exact hQ he (h.advance_to he hk)
  · exact (h.toPasses.report _).closing_eq hc

theorem propertyDecl_inside (h : closing 0 r.rest = some ts) (hname : r.current.kind = .ident)
    (hcolon : r.advance.current.kind = .punct .colon) : propertyDecl.Ensures r
      (fun _ s => closing 0 s.advance.rest = some ts) (fun s => closing 0 s.rest = some ts) := by
  unfold propertyDecl
  simp only [ensures_bind, ensures_advance, ensures_current, ensures_currentIdent, ensures_pure]
  have hp := (PassesTo.of_current hname rfl).advance_to hcolon rfl
  refine expect_inside h hp rfl fun _ hp => expect_inside h hp rfl fun _ hp => ?_
  exact hp.advance.closing_eq h

/-- The parameters of a function that starts here are even. -/
def EvenHead (ts : List Token) (r : Reader) : Prop := ∀ m : Reader, r.Leads m → closing 0 m.rest = some ts →
  m.current.kind = .ident → m.advance.current.kind = .punct .lparen → params.EvenAt (m.afresh m.advance.advance.rest)

theorem functionDecl_inside (hr : r.WF) (h : closing 0 r.rest = some ts) (heven : EvenHead ts r) :
    functionDecl.Ensures r (fun _ s => closing 0 s.advance.rest = some ts) (fun s => closing 0 s.rest = some ts) := by
  unfold functionDecl optionalSemicolon
  simp only [ensures_bind, ensures_advance, ensures_current, ensures_currentIdent, ensures_peek, ensures_ite,
    ensures_pure]
  have hname := (braceless_dottedName.passes hr).and (dottedName_current hr)
  refine hname.mono (fun name m hm => ?_) (fun s hs => hs.1.closing_eq h)
  obtain ⟨hm, hident⟩ := hm
  refine expect_inside h hm rfl fun hparen hm' => ?_
  have hlist := hm'.advance
  have hparams := params_inside (hlist.leads.wf hr)
    (heven m hm.leads (hm.toPasses.closing_eq h) hident hparen) (hlist.closing_eq h)
  refine hparams.leads.mono (fun ps n hn => ?_) (fun s hs => hs.2)
  obtain ⟨hl, hn, hclose⟩ := hn
  have hnwf := hl.wf (hlist.leads.wf hr)
  -- behind the parameters only the body has braces
  refine expect_inside hn (.of_current hclose rfl) rfl fun _ hp => expect_inside hn hp rfl fun _ hp => ?_
  rw [ensures_expect]
  split
  · rename_i hlbrace
    have hbody := hp.advance
    have hwf := hbody.leads.wf hnwf
    have hblock := (closes_blockAt _).inside hwf (Nat.le_succ_of_le hwf.budget) hlbrace (hbody.closing_eq hn)
    refine Ensures.of_budget (hblock.mono (fun b s hs => ?_) (fun _ hs => hs))
    split
    · rename_i hsemi
      exact (PassesTo.of_current hsemi rfl).advance.closing_eq hs
    · exact hs
  · exact (hp.toPasses.report _).closing_eq hn

theorem member_inside (hr : r.WF) (h : closing 0 r.rest = some ts) (heven : EvenHead ts r) :
    member.Ensures r (fun _ s => closing 0 s.advance.rest = some ts) (fun s => closing 0 s.rest = some ts) := by
  unfold member
  simp only [ensures_bind, ensures_current, ensures_peek, ensures_ite, ensures_report, ensures_fail, ensures_pure]
  split
  · rename_i hk
    obtain ⟨hname, hcolon⟩ : r.current.kind = .ident ∧ r.advance.current.kind = .punct .colon := by simpa using hk
    exact propertyDecl_inside h hname hcolon
  · split
    · exact functionDecl_inside hr h heven
    · exact h

theorem memberRound_inside (body : ClassBody) (hr : r.WF) (h : closing 0 r.rest = some ts) (heven : EvenHead ts r)
    (hdecl : r.current.kind.startsDecl = false) : (memberRound body).Ensures r
      (ofRound (fun _ s => closing 0 s.rest = some ts) fun _ s => s.rest = ts ∧ s.current.kind = .punct .rbrace)
      (fun _ => False) := by
  unfold memberRound
  simp only [ensures_bind, ensures_current, ensures_ite, ensures_attempt, ensures_pure]
  split
  · rename_i hstop
    have hkind : r.current.kind = .punct .rbrace := by simpa [hr.ne_eof_of_closing h, hdecl] using hstop
    exact ⟨hr.rest_eq_of_closing h hkind, hkind⟩
  · rename_i hstop
    have hs : r.current.kind ≠ .punct .rbrace := fun e => hstop (by simp [e])
    refine (member_inside hr h heven).mono (fun x m hm => ?_) (fun m hm => ?_)
    · cases x <;> exact hm
    · exact recover_inside (by decide) hs hm

/-! ## Classes -/

/-- Inside balanced tokens and before the brace behind them, what was passed is balanced too. -/
theorem exists_passed {c : Token} {us : List Token} (hr : r.rest = ts ++ c :: us) (hts : Balanced ts) (hl : r.Leads m)
    (h : closing 0 m.rest = some (c :: us)) : ∃ vs ws, ts = vs ++ ws ∧ Balanced vs ∧ m.rest = ws ++ c :: us := by
  obtain ⟨ws, hws, hb⟩ := balanced_of_closing h
  obtain ⟨vs, hvs⟩ := hl.rest
  have hsplit : ts = vs ++ ws := by
    rw [hr, hws, ← List.append_assoc] at hvs
    exact (List.append_cancel_right hvs).symm
  exact ⟨vs, ws, hsplit, (hsplit ▸ hts).of_append hb, hws⟩

/-- The parameters of every method of a class body `ts` are even: where a function head stands in it outside of
braces, what is read behind the parenthesis is read without reports or takes balanced tokens. -/
def EvenParams (r : Reader) (ts rest : List Token) : Prop :=
  ∀ n < ts.length, Balanced (ts.take n) → ((ts.drop n).take 2).map (·.kind) = [.ident, .punct .lparen] →
    params.EvenAt (r.afresh (ts.drop (n + 2) ++ rest))

instance {rest : List Token} : Decidable (EvenParams r ts rest) := inferInstanceAs (Decidable (∀ n < _, _ → _ → _))

theorem EvenParams.head {b : Reader} {c : Token} {us : List Token} (heven : EvenParams r ts (c :: us)) (hr : r.WF)
    (hb : r.Leads b) (hrest : b.rest = ts ++ c :: us) (hts : Balanced ts) (hc : c.kind = .punct .rbrace)
    (hm : b.Leads m) : EvenHead (c :: us) m := by
  intro k hk hclosing hname hparen
  have hl := hb.trans (hm.trans hk)
  have hwf := hl.wf hr
  obtain ⟨vs, ws, rfl, hvs, hws⟩ := exists_passed hrest hts (hm.trans hk) hclosing
  rw [hwf.rest_eq (by simp [hname]), hwf.advance.rest_eq (by simp [hparen])] at hws
  rcases ws with _ | ⟨a, _ | ⟨b, post⟩⟩
  -- neither the name nor the parenthesis is the closing brace
  · rw [(List.cons.inj hws).1, hc] at hname
    cases hname
  · rw [(List.cons.inj (List.cons.inj hws).2).1, hc] at hparen
    cases hparen
  · simp only [List.cons_append, List.cons.injEq] at hws
    obtain ⟨rfl, rfl, hafter⟩ := hws
    have h := heven vs.length (by simp) (by simpa using hvs) (by simp [hname, hparen])
    rw [List.drop_append] at h
    simp only [Nat.add_sub_cancel_left, List.drop_eq_nil_of_le (Nat.le_add_right _ _), List.nil_append,
      List.drop_succ_cons, List.drop_zero] at h
    unfold Reader.afresh at h ⊢
    rw [hafter, hl.eof, hl.budget, hl.tokens, hl.limit]
    exact h

/-- A class ends on the brace that closes it, whatever stands inside it and whatever was wrong there, unless it
was a parameter that took braces along. -/
theorem classDef_ends_on_closing {r : Reader} (hr : r.WF) {word name opened closed : Token} {ts rest : List Token}
    (hrest : r.rest = word :: name :: opened :: (ts ++ closed :: rest)) (hname : name.kind = .ident)
    (hopened : opened.kind = .punct .lbrace) (hts : Balanced ts) (hclosed : closed.kind = .punct .rbrace)
    (hdecl : ∀ t ∈ ts, t.kind.startsDecl = false) (heven : EvenParams r ts (closed :: rest)) :
    ∃ c s, classDef r = .ok (c, true) s ∧ c.name = some name.ident ∧
      c.span = word.span.through closed.span ∧ s.current = closed ∧ s.rest = closed :: rest := by
  have hword : r.current = word := by
    unfold Reader.current
    rw [hrest]
    rfl
  have hname' : r.advance.current = name := by
    unfold Reader.advance Reader.current
    rw [hrest]
    rfl
  have hopened' : r.advance.advance.current = opened := by
    unfold Reader.advance Reader.current
    rw [hrest]
    rfl
  have hbody : r.advance.advance.advance.rest = ts ++ closed :: rest := by
    unfold Reader.advance
    rw [hrest]
    rfl
  have hlbody : r.Leads r.advance.advance.advance := ((Reader.Leads.advance r).trans (.advance _)).trans (.advance _)
  have hclass : classDef.Ensures r (fun p s => p.2 = true ∧ p.1.name = some name.ident ∧
      p.1.span = word.span.through closed.span ∧ s.current = closed ∧ s.rest = closed :: rest) (fun _ => False) := by
    unfold classDef
    simp only [ensures_bind, ensures_current, ensures_currentIdent, ensures_advance, ensures_expect, ensures_ite,
      ensures_report, ensures_pure, hword, hname', hopened', hname, hopened, if_true]
    -- between members the closing brace is ahead, so the next token is that brace or one of the body
    refine Ensures.loop (P := fun _ m => r.advance.advance.advance.Leads m ∧ closing 0 m.rest = some (closed :: rest))
      (fun body m hm h => ?_) (hlbody.wf hr) ⟨.refl _, by rw [hbody]; exact hts.closing_append hclosed⟩
    obtain ⟨hl, hinside⟩ := h
    obtain ⟨vs, ws, rfl, -, hws⟩ := exists_passed hbody hts hl hinside
    have hcur : m.current.kind.startsDecl = false := by
      unfold Reader.current
      rw [hws]
      cases ws with
      | nil => exact congrArg Kind.startsDecl hclosed
      | cons t ws => exact hdecl t (by simp)
    have hround := memberRound_inside body hm hinside (heven.head hr hlbody hbody hts hclosed hl) hcur
    refine hround.leads.mono ?_ (fun _ hs => hs.2)
    rintro (body | body) s ⟨hsl, hs⟩
    · exact ⟨hl.trans hsl, hs⟩
    · obtain ⟨hsrest, hskind⟩ := hs
      have hscur : s.current = closed := by
        unfold Reader.current
        rw [hsrest]
        rfl
      simp [ofRound, hscur, hsrest, hclosed]
  obtain ⟨⟨c, b⟩, s, hs, rfl, h⟩ := hclass.exists_ok
  exact ⟨c, s, hs, h⟩

/-- A class with a property without a type, a method without parameters, a binding without a property, bindings
inside bindings and a stray parenthesis. -/
def brokenClass : Reader :=
  .ofSource "a.sem" ("class A \x7b x: ; 5; broken(: \x7b a; \x7d f(a: T \x7b b: , c: d \x7d): R \x7b ) \x7d " ++
    "g(a: T \x7b b: c \x7b d: e \x7d \x7d): R \x7b if \x7d z: int; \x7d h")

theorem classDef_ends_on_closing_broken :
    Balanced ((brokenClass.rest.drop 3).take 56) ∧ brokenClass.rest.length = 61 ∧
    EvenParams brokenClass ((brokenClass.rest.drop 3).take 56) (brokenClass.ahead 58 :: brokenClass.rest.drop 60) ∧
    ∃ c s, classDef brokenClass = .ok (c, true) s ∧ s.rest = brokenClass.ahead 58 :: brokenClass.rest.drop 60 := by
  -- the tokens are scanned once, for all that is to be known of them
  have h : brokenClass.rest = brokenClass.current :: brokenClass.ahead 0 :: brokenClass.ahead 1 ::
        ((brokenClass.rest.drop 3).take 56 ++ brokenClass.ahead 58 :: brokenClass.rest.drop 60) ∧
      (brokenClass.ahead 0).kind = .ident ∧ (brokenClass.ahead 1).kind = .punct .lbrace ∧
      (brokenClass.ahead 58).kind = .punct .rbrace ∧ brokenClass.rest.length = 61 ∧
      Balanced ((brokenClass.rest.drop 3).take 56) ∧
      (∀ t ∈ (brokenClass.rest.drop 3).take 56, t.kind.startsDecl = false) ∧
      EvenParams brokenClass ((brokenClass.rest.drop 3).take 56) (brokenClass.ahead 58 :: brokenClass.rest.drop 60) := by
    decide +kernel
  obtain ⟨hrest, hname, hopened, hclosed, hlength, hts, hdecl, heven⟩ := h
  obtain ⟨c, s, hs, -, -, -, hsr⟩ :=
    classDef_ends_on_closing (Reader.ofSource_wf _ _ _) hrest hname hopened hts hclosed hdecl heven
  exact ⟨hts, hlength, heven, c, s, hs, hsr⟩

/-- A class with a parameter that ends at the brace closing the class. -/
def strayParam : Reader := .ofSource "a.sem" "class N \x7b f(a \x7d"

/-- A class with a semicolon in the bindings of a parameter. -/
def brokenBindings : Reader := .ofSource "a.sem" "class N \x7b f(a: T \x7b b; \x7d): R \x7b \x7d x: T; \x7d"

/-- What a class leaves unread, and whether it was closed. -/
def leftBehind (r : Reader) : Option (Bool × List Token) :=
  match classDef r with
  | .ok c s => some (c.2, s.rest)
  | .fail _ => none

theorem exists_of_leftBehind {b : Bool} (h : leftBehind r = some (b, ts)) :
    ∃ c s, classDef r = .ok (c, b) s ∧ s.rest = ts := by
  unfold leftBehind at h
  split at h
  · rename_i c s e
    cases h
    exact ⟨c.1, s, e, rfl⟩
  · cases h

/-- Giving up a parameter does not count braces: one takes the brace that closes the class, and another leaves
an inner brace open, with which the class then ends early. -/
theorem classDef_misses_closing :
    (strayParam.rest.length = 7 ∧ Balanced ((strayParam.rest.drop 3).take 3) ∧
      ∃ c s, classDef strayParam = .ok (c, false) s ∧ s.rest = []) ∧
    brokenBindings.rest.length = 22 ∧ Balanced ((brokenBindings.rest.drop 3).take 18) ∧
      ∃ c s, classDef brokenBindings = .ok (c, true) s ∧ s.rest = brokenBindings.rest.drop 11 := by
  have hstray : strayParam.rest.length = 7 ∧ Balanced ((strayParam.rest.drop 3).take 3) ∧
      leftBehind strayParam = some (false, []) := by decide +kernel
  have hbindings : brokenBindings.rest.length = 22 ∧ Balanced ((brokenBindings.rest.drop 3).take 18) ∧
      leftBehind brokenBindings = some (true, brokenBindings.rest.drop 11) := by decide +kernel
  exact ⟨⟨hstray.1, hstray.2.1, exists_of_leftBehind hstray.2.2⟩,
    hbindings.1, hbindings.2.1, exists_of_leftBehind hbindings.2.2⟩

end Rule
end SemFront
