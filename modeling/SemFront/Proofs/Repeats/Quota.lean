/-
What a limit on errors bounds. It counts the lexical errors met so far and the errors of the grammar kept
so far, but it only keeps back errors of the grammar: a text that is no token is told of in any case. So
with a limit of `n` there are at most `n + 1` diagnostics and, above that, as many as there are lexical
errors behind the errors of the grammar that were kept; the lexical errors in front of those had been met
when the last one was kept.
-/
import SemFront.Proofs.Repeats.Program

namespace SemFront

/-! ## Lexical errors met -/

/-- Who looks further than all tokens in front of `b` has met the errors in front of it. -/
theorem length_before_le (b : Int) (c : List Token) : ∀ {ts : List Token} {n : Nat},
    ts.Pairwise (fun s t => s.span.start ≤ t.span.start) →
    (ts.filter (fun t => t.kind ≠ .illegal ∧ t.span.start < b)).length < n →
    ((lexicalErrors ts).filter (·.span.start < b)).length ≤ faultsWithin n (ts ++ c)
  | [], _, _, _ => Nat.zero_le _
  | _ :: _, 0, _, hn => by cases hn
  | t :: ts, n + 1, hord, hn => by
    obtain ⟨hhead, hord⟩ := List.pairwise_cons.1 hord
    rw [List.cons_append, faultsWithin, lexicalErrors_cons]
    by_cases ht : t.kind = .illegal
    · obtain ⟨e, he, -⟩ := Token.error?_of_illegal ht
      rw [List.filter_cons_of_neg (by simp [ht])] at hn
      rw [if_pos ht, he, Option.toList_some, List.singleton_append]
      have hrest := length_before_le b c hord hn
      rw [List.filter_cons]
      split
      · exact Nat.succ_le_succ hrest
      · exact Nat.le_succ_of_le hrest
    · rw [if_neg ht, Token.error?_of_legal ht]
      by_cases hb : t.span.start < b
      · rw [List.filter_cons_of_pos (by simp [ht, hb]), List.length_cons] at hn
        exact length_before_le b c hord (Nat.lt_of_succ_lt_succ hn)
      · -- nothing behind this token stands in front of `b`
        have hnone : (lexicalErrors ts).filter (·.span.start < b) = [] := by
          refine List.filter_eq_nil_iff.2 fun l hl => ?_
          have hspan := List.mem_map_of_mem (f := LexicalError.span) hl
          rw [lexicalErrors_spans] at hspan
          obtain ⟨u, hu, hspan⟩ := List.mem_map.1 hspan
          have := hhead u (List.mem_filter.1 hu).1
          rw [← hspan, decide_eq_true_iff]
          omega
        rw [Option.toList_none, List.nil_append, hnone]
        exact Nat.zero_le _

theorem Reader.WF.start_le {r : Reader} (h : r.WF) {t : Token} (ht : t ∈ r.rest) : r.start ≤ t.span.start := by
  obtain ⟨-, htokens, hord, -⟩ := h
  unfold start current
  cases hr : r.rest with
  | nil =>
    rw [hr] at ht
    cases ht
  | cons u us =>
    rw [hr] at ht htokens hord
    rcases List.mem_cons.1 ht with rfl | ht
    · exact Int.le_refl _
    · have hle := List.rel_of_pairwise_cons hord ht
      have hu := (htokens u List.mem_cons_self).nonempty
      exact Int.le_trans (Int.le_of_lt hu) hle

/-- Of the tokens ahead of a reader at its start, a reader on the way has looked at more than those in front of the
token behind its current one. -/
theorem Reader.Leads.length_before_lt {r m : Reader} {b : Int} (h : r.Leads m) (hr : r.WF) (htaken : r.taken = 0)
    (hreach : 2 ≤ r.reach) (hb : b ≤ m.advance.start) : (r.rest.filter (·.span.start < b)).length < m.reach := by
  have hadv := h.trans (.advance m)
  obtain ⟨us, hus⟩ := hadv.rest
  have hnone : m.advance.rest.filter (·.span.start < b) = [] := by
    refine List.filter_eq_nil_iff.2 fun t ht => ?_
    have := (hadv.wf hr).start_le ht
    rw [decide_eq_true_iff]
    omega
  -- one token more than have been taken lies in front, and two are looked at ahead
  have hfew := List.length_filter_le (fun t : Token => decide (t.span.start < b)) us
  have hlength := congrArg List.length hus
  have hrest : m.advance.rest.length = m.rest.length - 1 := List.length_tail
  have hmoved := h.taken
  have hlook := h.reach (by omega)
  rw [← hus, List.filter_append, hnone, List.append_nil]
  rw [List.length_append] at hlength
  omega

/-- When a problem was reported, the lexical errors in front of what had been looked at had been met. -/
theorem Vantage.Saw.length_before_le {file source : String} {limit : Nat} {b : Int} {q : Report}
    (h : (Vantage.ofSource file source limit).Saw b q) :
    ((lexicalErrors (tokenize file source)).filter (·.span.start < b)).length ≤
      faultsWithin q.reach (tokenize file source) := by
  obtain ⟨m, hleads, hreach, hb⟩ := h
  obtain ⟨ts, e, ht, he, hwf, hord⟩ := tokenize_ordered file source
  have hek : e.kind = .eof := congrArg Lexeme.kind he
  have horigin : (Vantage.ofSource file source limit).origin = _ :=
    (congrArg (Reader.ofTokens · limit) ht).trans (Reader.ofTokens_eq limit hek hwf)
  have hfew := hleads.length_before_lt (Reader.ofSource_wf file source limit) (by rw [horigin]) (by rw [horigin]) hb
  rw [horigin, List.filter_filter, hreach] at hfew
  rw [ht]
  refine Nat.le_trans (Nat.le_of_eq ?_)
    (SemFront.length_before_le b [e] (hord.imp_of_mem fun {t u} ht _ htu => ?_) (by simpa [Bool.and_comm] using hfew))
  · unfold lexicalErrors
    rw [List.filterMap_append, List.filterMap_cons, Token.error?_of_eof hek, List.filterMap_nil, List.append_nil]
  · exact Int.le_trans (Int.le_of_lt (hwf t ht).nonempty) htu

/-! ## What a log has counted -/

/-- What a log has kept with a limit of `n` of the reports `rs`: some of their problems and, once it is full, one
more error. When it kept the last of the problems, it had kept no more than `n`, with the lexical errors
met by then; each problem it has kept stands in the relation `P` to the report of that one. -/
structure Log.Counted (n : Nat) (ts : List Token) (P : Problem → Report → Prop) (rs : List Report)
    (ps : List Problem) (log : Log) : Prop where
  kept : log = { kept := ps } ∨ ∃ s, log = { kept := .tooMany n s :: ps, isFull := true }
  reported : ∀ p ∈ ps, ∃ r ∈ rs, r.problem = p
  count : ps ≠ [] → ∃ q ∈ rs, ps.length + faultsWithin q.reach ts ≤ n ∧ ∀ p ∈ ps, P p q

variable {n : Nat} {ts : List Token} {P : Problem → Report → Prop} {rs : List Report} {ps : List Problem} {log : Log}

theorem Log.Counted.weaken {r : Report} {log' : Log} (h : log.Counted n ts P rs ps)
    (hkept : log' = { kept := ps } ∨ ∃ s, log' = { kept := .tooMany n s :: ps, isFull := true }) :
    log'.Counted n ts P (rs ++ [r]) ps where
  kept := hkept
  reported p hp := by
    obtain ⟨r, hr, hrp⟩ := h.reported p hp
    exact ⟨r, List.mem_append_left _ hr, hrp⟩
  count hps := by
    obtain ⟨q, hq, hcount⟩ := h.count hps
    exact ⟨q, List.mem_append_left _ hq, hcount⟩

theorem Log.Counted.add {r : Report} (hn : 1 ≤ n) (h : log.Counted n ts P rs ps) (hself : P r.problem r)
    (hbefore : ∀ q ∈ rs, P q.problem r) :
    ∃ ps', (log.add n (faultsWithin r.reach ts) r.problem).Counted n ts P (rs ++ [r]) ps' := by
  rcases h.kept with rfl | ⟨s, rfl⟩
  · unfold Log.add
    simp only [Bool.false_eq_true, ↓reduceIte]
    split
    · exact ⟨ps, h.weaken (.inl rfl)⟩
    · by_cases hfull : n ≤ ps.length + faultsWithin r.reach ts
      · rw [if_pos (by simp [hfull]; omega)]
        exact ⟨ps, h.weaken (.inr ⟨_, rfl⟩)⟩
      · rw [if_neg (by simp [hfull])]
        have hmem : r ∈ rs ++ [r] := List.mem_append_right _ (List.mem_singleton_self r)
        refine ⟨r.problem :: ps, .inl rfl, ?_, fun _ => ⟨r, hmem, ?_, ?_⟩⟩
        · intro p hp
          rcases List.mem_cons.1 hp with rfl | hp
          · exact ⟨r, hmem, rfl⟩
          · obtain ⟨q, hq, hqp⟩ := h.reported p hp
            exact ⟨q, List.mem_append_left _ hq, hqp⟩
        · rw [List.length_cons]
          omega
        · intro p hp
          rcases List.mem_cons.1 hp with rfl | hp
          · exact hself
          · obtain ⟨q, hq, rfl⟩ := h.reported p hp
            exact hbefore q hq
  · exact ⟨ps, h.weaken (.inr ⟨s, rfl⟩)⟩

theorem Log.ofReports_counted (hn : 1 ≤ n) (ts : List Token) (rs : List Report) (hself : ∀ r ∈ rs, P r.problem r)
    (hbefore : rs.Pairwise fun q r => P q.problem r) : ∃ ps, (Log.ofReports n ts rs).Counted n ts P rs ps := by
  induction rs using List.reverseRecOn with
  | nil => exact ⟨[], .inl rfl, fun p hp => absurd hp List.not_mem_nil, fun h => absurd rfl h⟩
  | append_singleton rs r ih =>
    obtain ⟨hrs, -, hr⟩ := List.pairwise_append.1 hbefore
    obtain ⟨ps, hps⟩ := ih (fun q hq => hself q (List.mem_append_left _ hq)) hrs
    unfold Log.ofReports at hps ⊢
    rw [List.foldl_append, List.foldl_cons, List.foldl_nil]
    have hmem := List.mem_singleton_self r
    exact hps.add hn (hself r (List.mem_append_right _ hmem)) fun q hq => hr q hq r hmem

/-! ## Diagnostics within a limit -/

/-- What is kept of a source with a limit: problems that keep to it together with the lexical errors in front of
any of them, and perhaps one more that stands for all others. -/
theorem readProgram_kept (hn : 1 ≤ n) (file source : String) :
    ∃ ps last : List Problem, (readProgram file source n).problems = ps ++ last ∧ last.length ≤ 1 ∧
      (∀ p ∈ last, p.isTooMany = true) ∧ (∀ p ∈ ps, p.isTooMany = false) ∧
      ∀ p ∈ ps, ps.length + ((lexicalErrors (tokenize file source)).filter (·.span.start < p.site)).length ≤ n := by
  have hclear := readProgram_clear file source n
  obtain ⟨ps, hps⟩ := Log.ofReports_counted (P := fun p q => (Vantage.ofSource file source n).Saw p.site q) hn
    (tokenize file source) (readProgram file source n).reader.reports.toList hclear.seen hclear.seenBefore
  have hplain : ∀ p ∈ ps.reverse, p.isTooMany = false := by
    intro p hp
    obtain ⟨r, hr, rfl⟩ := hps.reported p (List.mem_reverse.1 hp)
    exact (readProgram_reports file source n r hr).2
  have hcount : ∀ p ∈ ps.reverse, ps.reverse.length +
      ((lexicalErrors (tokenize file source)).filter (·.span.start < p.site)).length ≤ n := by
    intro p hp
    have hp := List.mem_reverse.1 hp
    obtain ⟨q, -, hq, hsaw⟩ := hps.count (List.ne_nil_of_mem hp)
    rw [List.length_reverse]
    exact Nat.le_trans (Nat.add_le_add_left (hsaw p hp).length_before_le _) hq
  rw [readProgram, Rule.readSource_problems, keptProblems, ← readProgram]
  rcases hps.kept with hlog | ⟨s, hlog⟩
  · rw [hlog]
    have hnone : ∀ p ∈ ([] : List Problem), p.isTooMany = true := fun p hp => absurd hp List.not_mem_nil
    exact ⟨ps.reverse, [], (List.append_nil _).symm, Nat.zero_le 1, hnone, hplain, hcount⟩
  · rw [hlog]
    refine ⟨ps.reverse, [.tooMany n s], List.reverse_cons, Nat.le_refl 1, fun p hp => ?_, hplain, hcount⟩
    rw [List.mem_singleton.1 hp]
    rfl

/-- Diagnostics that keep to a limit of `n`, and one more, but for lexical errors: for each error of the grammar,
those behind it come on top. -/
structure Diagnostic.WithinQuota (n : Nat) (ds : List Diagnostic) : Prop where
  grammar : (ds.filter (·.stage = .parser)).length ≤ n + 1
  behind : ∀ d ∈ ds, d.stage = .parser → d.code ≠ "TOO_MANY_ERRORS" →
    ds.length ≤ n + 1 + (ds.filter fun l => l.stage = .lexer ∧ d.span.start ≤ l.span.start).length
  alone : (∀ d ∈ ds, d.stage = .parser → d.code = "TOO_MANY_ERRORS") →
    ds.length ≤ (ds.filter (·.stage = .lexer)).length + 1

theorem length_filter_lt_add_ge (b : Int) (ls : List LexicalError) :
    (ls.filter (·.span.start < b)).length + (ls.filter (b ≤ ·.span.start)).length = ls.length := by
  rw [← List.length_append]
  simp only [← Int.not_lt, decide_not]
  exact (List.filter_append_perm (fun l : LexicalError => decide (l.span.start < b)) ls).length_eq

section Merged

variable {ls : List LexicalError} {es : List GrammarError} {ds : List Diagnostic}

theorem Diagnostic.Merges.filter_parser_length
    (h : Merges (ls.map LexicalError.toDiagnostic) (es.map GrammarError.toDiagnostic) ds) :
    (ds.filter (·.stage = .parser)).length = es.length := by
  have hls : (ls.map LexicalError.toDiagnostic).filter (·.stage = .parser) = [] := by
    refine List.filter_eq_nil_iff.2 (List.forall_mem_map.2 fun l _ => ?_)
    simp [LexicalError.toDiagnostic]
  have hes : (es.map GrammarError.toDiagnostic).filter (·.stage = .parser) = es.map GrammarError.toDiagnostic :=
    List.filter_eq_self.2 (List.forall_mem_map.2 fun _ _ => rfl)
  rw [(h.perm.filter _).length_eq, List.filter_append, hls, hes, List.nil_append, List.length_map]

theorem Diagnostic.Merges.mem_grammar {d : Diagnostic}
    (h : Merges (ls.map LexicalError.toDiagnostic) (es.map GrammarError.toDiagnostic) ds)
    (hd : d ∈ ds) (hstage : d.stage = .parser) : ∃ e ∈ es, e.toDiagnostic = d := by
  rcases List.mem_append.1 (h.perm.mem_iff.1 hd) with hd | hd
  · obtain ⟨l, -, rfl⟩ := List.mem_map.1 hd
    cases hstage
  · exact List.mem_map.1 hd

theorem Diagnostic.Merges.filter_behind_length (b : Int)
    (h : Merges (ls.map LexicalError.toDiagnostic) (es.map GrammarError.toDiagnostic) ds) :
    (ds.filter fun l => l.stage = .lexer ∧ b ≤ l.span.start).length = (ls.filter (b ≤ ·.span.start)).length := by
  have hsplit : (ds.filter fun l => l.stage = .lexer ∧ b ≤ l.span.start) =
      (ds.filter (·.stage = .lexer)).filter (b ≤ ·.span.start) := by
    rw [List.filter_filter]
    simp [Bool.and_comm]
  rw [hsplit, h.scanned, List.filter_map, List.length_map]
  rfl

end Merged

/-- With a limit of `n` on errors, the diagnostics of a text are at most `n + 1` and, on top of these, the lexical
errors that are told of behind an error of the grammar. -/
theorem Parsed.ofText_quota {n : Nat} (hn : 1 ≤ n) (o : ParseOptions) (path text : String) :
    Diagnostic.WithinQuota n (ofText { o with limit := n } path text).diagnostics := by
  have hdiag : (ofText { o with limit := n } path text).diagnostics =
      (readProgram path (textRead o text) n).diagnostics := by rw [ofText_eq]
  have hmerges := readProgram_merges path (textRead o text) n
  obtain ⟨ps, last, hproblems, hone, hlast, hplain, hcount⟩ := readProgram_kept hn path (textRead o text)
  rw [Reading.errors, hproblems, ← hdiag] at hmerges
  have hlength := hmerges.perm.length_eq
  simp only [List.length_append, List.length_map] at hlength
  refine ⟨?_, ?_, ?_⟩
  · rw [hmerges.filter_parser_length, List.length_map, List.length_append]
    -- a limit that keeps a problem keeps no more of them than it allows
    cases ps with
    | nil =>
      rw [List.length_nil]
      omega
    | cons p ps =>
      have := hcount p List.mem_cons_self
      omega
  · intro d hd hstage hcode
    obtain ⟨e, he, rfl⟩ := hmerges.mem_grammar hd hstage
    obtain ⟨p, hp, rfl⟩ := List.mem_map.1 he
    rcases List.mem_append.1 hp with hp | hp
    · -- the lexical errors in front of the problem count, those behind it do not
      have hsplit := length_filter_lt_add_ge p.site (lexicalErrors (tokenize path (textRead o text)))
      have hquota := hcount p hp
      have hbehind := hmerges.filter_behind_length p.site
      unfold Problem.site at hsplit hquota hbehind
      unfold GrammarError.toDiagnostic
      dsimp only
      omega
    · exact absurd (Problem.code_eq_tooMany.2 (hlast p hp)) hcode
  · intro hall
    have hnone : ps = [] := by
      refine List.eq_nil_iff_forall_not_mem.2 fun p hp => ?_
      have hd := hmerges.perm.mem_iff.2 (List.mem_append_right _
        (List.mem_map_of_mem (List.mem_map_of_mem (List.mem_append_left last hp))))
      have := Problem.code_eq_tooMany.1 (hall _ hd rfl)
      rw [hplain p hp] at this
      cases this
    rw [hmerges.scanned, List.length_map]
    rw [hnone, List.length_nil] at hlength
    omega

/-- Two imports without a name between texts that are no tokens. -/
def faultyImports : String := "@ use ; use ; $ $"

/-- The bound is met: with a limit of two there are three diagnostics, and the two lexical errors behind them. -/
theorem Parsed.ofText_quota_imports :
    (ofText { limit := 2 } "a.sem" faultyImports).diagnostics.map (fun d => (d.code, d.span.start)) =
      [("LEXER_ILLEGAL_RUNE", 0), ("SYNTAX_EXPECTED_TOKEN", 6), ("TOO_MANY_ERRORS", 12), ("LEXER_ILLEGAL_RUNE", 14),
        ("LEXER_ILLEGAL_RUNE", 16)] ∧
    1 ≤ 2 ∧ Diagnostic.WithinQuota 2 (ofText { limit := 2 } "a.sem" faultyImports).diagnostics :=
  ⟨by decide +kernel, by decide, ofText_quota (by decide) {} "a.sem" faultyImports⟩

/-- Texts that are no tokens are told of whatever the limit. -/
theorem Parsed.ofText_beyond_limit : ¬(ofText { limit := 1 } "a.sem" "$ $ $").diagnostics.length ≤ 1 + 1 := by
  decide +kernel

end SemFront
