/-
What recovery skips. Tokens are given up over a count of the braces that are open, so the tokens skipped
close exactly what they open wherever recovery stops before the end of the input; a declaration may take one
stray closing brace behind them along. The span that comes back runs from the token that the unit began at
over all that was skipped.
-/
import SemFront.Proofs.Grammar.Braces

namespace SemFront

/-! ## Tokens that close what is open -/

/-- Tokens that close `depth` braces opened before them, besides those that they open, and none too early. -/
def ClosesOff (depth : Nat) (ts : List Token) : Prop :=
  (∀ us ∈ ts.inits, us.countP (·.kind = .punct .rbrace) ≤ us.countP (·.kind = .punct .lbrace) + depth) ∧
    ts.countP (·.kind = .punct .rbrace) = ts.countP (·.kind = .punct .lbrace) + depth

section ClosesOff

variable {t : Token} {ts : List Token} {d e : Nat}

theorem ClosesOff.nil : ClosesOff 0 [] := by simp [ClosesOff]

/-- One more token in front changes the depth by the brace that it is. -/
theorem ClosesOff.cons (h : ClosesOff e ts)
    (hd : d + (if t.kind = .punct .lbrace then 1 else 0) = e + (if t.kind = .punct .rbrace then 1 else 0)) :
    ClosesOff d (t :: ts) := by
  obtain ⟨hle, heq⟩ := h
  refine ⟨fun us hus => ?_, ?_⟩
  · rw [List.inits_cons] at hus
    rcases List.mem_cons.1 hus with rfl | hus
    · exact Nat.zero_le _
    · obtain ⟨vs, hvs, rfl⟩ := List.mem_map.1 hus
      have := hle vs hvs
      simp only [List.countP_cons, decide_eq_true_eq]
      omega
  · simp only [List.countP_cons, decide_eq_true_eq]
    omega

theorem ClosesOff.lbrace (hk : t.kind = .punct .lbrace) (h : ClosesOff (d + 1) ts) : ClosesOff d (t :: ts) :=
  h.cons (by simp [hk])

theorem ClosesOff.rbrace (hk : t.kind = .punct .rbrace) (h : ClosesOff d ts) : ClosesOff (d + 1) (t :: ts) :=
  h.cons (by simp [hk])

theorem ClosesOff.other (hk : t.kind.isBrace = false) (h : ClosesOff d ts) : ClosesOff d (t :: ts) := by
  obtain ⟨hl, hr⟩ := Kind.isBrace_eq_false.1 hk
  exact h.cons (by simp [hl, hr])

end ClosesOff

/-! ## Tokens that are given up -/

/-- The tokens given up of a unit inside `depth` braces: they close these braces, and those of a declaration may
end with a stray closing brace. -/
def GivenUp (unit : SyncUnit) (depth : Nat) (ts : List Token) : Prop :=
  ClosesOff depth ts ∨ unit = .declaration ∧ ∃ us stray, ts = us ++ [stray] ∧ stray.kind = .punct .rbrace ∧
    ClosesOff depth us

section GivenUp

variable {unit : SyncUnit} {t : Token} {ts : List Token} {d e : Nat}

theorem GivenUp.cons (h : GivenUp unit e ts) (hcons : ∀ us, ClosesOff e us → ClosesOff d (t :: us)) :
    GivenUp unit d (t :: ts) := by
  rcases h with h | ⟨hu, us, stray, rfl, hk, h⟩
  · exact .inl (hcons ts h)
  · exact .inr ⟨hu, t :: us, stray, rfl, hk, hcons us h⟩

/-- Where tokens are left behind those that are skipped, these are given up as a whole. -/
theorem skipFrom_givenUp : ∀ {ts : List Token} {d : Nat}, ts.drop (skipFrom unit d ts).count ≠ [] →
    GivenUp unit d (ts.take (skipFrom unit d ts).count)
  | [], _, h => absurd rfl h
  | t :: ts, d, h => by
    rw [skipFrom.eq_def] at h ⊢
    dsimp only at h ⊢
    rcases t.kind.brace_cases with hk | hk | hk
    · rw [if_pos hk] at h ⊢
      exact (skipFrom_givenUp h).cons fun _ => .lbrace hk
    · rw [if_neg (by simp [hk]), if_pos hk] at h ⊢
      cases d with
      | zero =>
        dsimp only at h ⊢
        split
        · rename_i hu
          exact .inr ⟨hu, [], t, rfl, hk, .nil⟩
        · exact .inl .nil
      | succ d =>
        dsimp only at h ⊢
        split
        · -- the brace that was opened in the unit ends it, perhaps with a semicolon
          rename_i hend
          obtain rfl : d = 0 := by simpa using (Bool.and_eq_true_iff.1 hend).1
          split
          · rename_i hsemi
            obtain ⟨u, us, rfl, hu⟩ : ∃ u us, ts = u :: us ∧ u.kind = .punct .semicolon := by
              cases ts with
              | nil => cases hsemi
              | cons u us => exact ⟨u, us, rfl, Option.some.inj hsemi⟩
            exact .inl (.rbrace hk (.other (by simp [hu, Kind.isBrace]) .nil))
          · exact .inl (.rbrace hk .nil)
        · rename_i hend
          rw [if_neg hend] at h
          exact (skipFrom_givenUp h).cons fun _ => .rbrace hk
    · obtain ⟨hl, hr⟩ := Kind.isBrace_eq_false.1 hk
      rw [if_neg hl, if_neg hr] at h ⊢
      split
      · rename_i hd
        rw [if_pos hd] at h
        exact (skipFrom_givenUp h).cons fun _ => .other hk
      · rename_i hd
        obtain rfl : d = 0 := by simpa using hd
        rw [if_neg hd] at h
        split
        · exact .inl (.other hk .nil)
        · rename_i hsemi
          rw [if_neg hsemi] at h
          split
          · exact .inl .nil
          · rename_i hb
            rw [hb] at h
            exact (skipFrom_givenUp h).cons fun _ => .other hk

/-- The same of a unit whose first token goes in any case. -/
theorem skipUnit_givenUp (ht : unit ≠ .declaration → t.kind ≠ .punct .rbrace)
    (h : (t :: ts).drop (skipUnit unit (t :: ts)).count ≠ []) :
    GivenUp unit 0 ((t :: ts).take (skipUnit unit (t :: ts)).count) := by
  rw [skipUnit] at h ⊢
  rcases t.kind.brace_cases with hk | hk | hk
  · rw [if_neg (by simp [hk]), if_neg (by simp [hk]), if_pos hk] at h ⊢
    exact (skipFrom_givenUp h).cons fun _ => .lbrace hk
  · have hu : unit = .declaration := by
      by_contra hu
      exact ht hu hk
    rw [if_neg (by simp [hk]), if_pos (by simp [hk, hu])]
    exact .inr ⟨hu, [], t, rfl, hk, .nil⟩
  · obtain ⟨hl, hr⟩ := Kind.isBrace_eq_false.1 hk
    by_cases hsemi : t.kind = .punct .semicolon
    · rw [if_pos hsemi]
      exact .inl (.other hk .nil)
    · rw [if_neg hsemi, if_neg (by simp [hr]), if_neg hl] at h ⊢
      exact (skipFrom_givenUp h).cons fun _ => .other hk

end GivenUp

/-- A span extended over tokens starts where it did and stops nowhere in front of the end of one of them. -/
theorem Span.over_covers : ∀ (ts : List Token) (span : Span), span.over ts = { span with stop := (span.over ts).stop } ∧
    span.stop ≤ (span.over ts).stop ∧ ∀ t ∈ ts, t.span.stop ≤ (span.over ts).stop
  | [], span => ⟨rfl, Int.le_refl _, by simp⟩
  | t :: ts, span => by
    obtain ⟨heq, hle, hts⟩ := Span.over_covers ts (span.through t.span)
    have hspan : span.stop ≤ (span.through t.span).stop := Int.le_max_left _ _
    have ht : t.span.stop ≤ (span.through t.span).stop := Int.le_max_right _ _
    exact ⟨heq, Int.le_trans hspan hle, List.forall_mem_cons.2 ⟨Int.le_trans ht hle, hts⟩⟩

/-! ## Recovery -/

namespace Rule

variable {unit : SyncUnit} {start : Token} {r : Reader}

/-- Where recovery stops before the end of the input, the tokens skipped are given up as a whole. -/
theorem skipOf_givenUp (hstart : unit ≠ .declaration → start.kind ≠ .punct .rbrace)
    (h : r.rest.drop (skipOf unit start r).count ≠ []) : GivenUp unit 0 (r.rest.take (skipOf unit start r).count) := by
  unfold skipOf at h ⊢
  split
  · rename_i hsame
    rw [if_pos hsame] at h
    obtain ⟨t, ts, hrest⟩ : ∃ t ts, r.rest = t :: ts :=
      List.exists_cons_of_ne_nil fun hnil => h (by rw [hnil, List.drop_nil])
    have hkind : t.kind = start.kind := by
      unfold Reader.current Token.isSame at hsame
      rw [hrest] at hsame
      simp only [Bool.and_eq_true, decide_eq_true_eq] at hsame
      exact hsame.1.1
    rw [hrest] at h ⊢
    exact skipUnit_givenUp (by rwa [hkind]) h
  · rename_i hsame
    rw [if_neg hsame] at h
    exact skipFrom_givenUp h

/-- From every state of reading a source, recovery skips tokens whose braces are balanced unless it comes to the
end of the input, those of a declaration perhaps with a stray closing brace behind them. It skips a token
where it is entered on the first one of the unit, and its span runs from that one over all tokens skipped. -/
theorem recover_skips_balanced {file source : String} {limit : Nat} (hr : (Reader.ofSource file source limit).Leads r)
    (unit : SyncUnit) (start : Token) :
    ∃ span s skipped, recover unit start r = .ok span s ∧ r.rest = skipped ++ s.rest ∧
      ((unit ≠ .declaration → start.kind ≠ .punct .rbrace) → s.current.kind ≠ .eof →
        Balanced skipped ∨ unit = .declaration ∧ ∃ ts stray, skipped = ts ++ [stray] ∧ stray.kind = .punct .rbrace ∧
          Balanced ts) ∧
      (r.current.isSame start = true → r.current.kind ≠ .eof → skipped ≠ []) ∧
      span = { start.span with stop := span.stop } ∧ start.span.stop ≤ span.stop ∧
      ∀ t ∈ skipped, t.span.stop ≤ span.stop := by
  have hwf : r.WF := hr.wf (Reader.ofSource_wf file source limit)
  obtain ⟨span, s, he, hleads, hrest, hspan⟩ : ∃ span s, recover unit start r = .ok span s ∧ r.Leads s ∧
      s.rest = r.rest.drop (skipOf unit start r).count ∧
      span = start.span.over (r.rest.take (skipOf unit start r).count) :=
    (ensures_recover fun _ hs e => ⟨hs, e, rfl⟩).exists_ok
  refine ⟨span, s, _, he, by rw [hrest, List.take_append_drop], ?_, ?_, ?_⟩
  · intro hstart hk
    refine skipOf_givenUp hstart ?_
    rw [← hrest]
    exact List.ne_nil_of_length_pos ((hleads.wf hwf).length_pos hk)
  · intro hsame hk
    obtain ⟨n, hn⟩ : ∃ n, (skipOf unit start r).count = n + 1 := by
      refine Nat.exists_eq_succ_of_ne_zero (Nat.ne_of_gt ?_)
      unfold skipOf
      rw [if_pos hsame, hwf.rest_eq hk]
      exact skipUnit_pos
    rw [hn, hwf.rest_eq hk]
    exact List.cons_ne_nil _ _
  · rw [hspan]
    exact Span.over_covers _ _

/-- An assignment without a value, with braces inside each other, in front of a stray brace. -/
def brokenUnit : Reader := .ofSource "a.sem" "x = \x7b ; ) \x7b \x7d \x7d y \x7d class"

/-- The statement is given up to the stray brace, which a declaration that begins at `y` takes along. -/
theorem recover_skips_balanced_stray :
    (∃ span s skipped, recover .statement brokenUnit.current brokenUnit.advance = .ok span s ∧
      brokenUnit.advance.rest = skipped ++ s.rest ∧ s.rest.length = 2 ∧ Balanced skipped) ∧
    ∃ span s skipped, recover .declaration (brokenUnit.advanceBy 8).current (brokenUnit.advanceBy 8) = .ok span s ∧
      (brokenUnit.advanceBy 8).rest = skipped ++ s.rest ∧ s.rest.length = 1 ∧ ¬ Balanced skipped ∧
      ∃ ts stray, skipped = ts ++ [stray] ∧ stray.kind = .punct .rbrace ∧ Balanced ts := by
  constructor
  · obtain ⟨span, s, skipped, he, hrest, hbalanced, -⟩ :=
      recover_skips_balanced (.advance brokenUnit) .statement brokenUnit.current
    have hs : s.rest.length = 2 ∧ s.current.kind = .punct .rbrace := by
      rw [show s = (recover .statement brokenUnit.current brokenUnit.advance).reader by rw [he]; rfl]
      decide +kernel
    obtain h | ⟨hu, -⟩ := hbalanced (fun _ => by decide +kernel) (hs.2.trans_ne (by decide))
    · exact ⟨span, s, skipped, he, hrest, hs.1, h⟩
    · cases hu
  · obtain ⟨span, s, skipped, he, hrest, hbalanced, -⟩ :=
      recover_skips_balanced (.advanceBy 8 brokenUnit) .declaration (brokenUnit.advanceBy 8).current
    have hs : s.rest = (brokenUnit.advanceBy 8).rest.drop 2 ∧ s.current.kind = .keyword .classWord := by
      rw [show s = (recover .declaration (brokenUnit.advanceBy 8).current (brokenUnit.advanceBy 8)).reader by
        rw [he]; rfl]
      decide +kernel
    have hskipped : skipped = (brokenUnit.advanceBy 8).rest.take 2 := by
      have hsplit := List.take_append_drop 2 (brokenUnit.advanceBy 8).rest
      rw [← hs.1, hrest] at hsplit
      rw [hrest]
      exact (List.append_cancel_right hsplit).symm
    have hnot : ¬ Balanced skipped := by
      rw [hskipped]
      decide +kernel
    obtain h | ⟨-, h⟩ := hbalanced (fun hu => absurd rfl hu) (hs.2.trans_ne (by decide))
    · exact absurd h hnot
    · refine ⟨span, s, skipped, he, hrest, ?_, hnot, h⟩
      rw [hs.1]
      decide +kernel

end Rule
end SemFront
