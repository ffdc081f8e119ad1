/-
What is told of a source. Reading goes on to the end of the input and so meets every text that is no
token; the errors of the scanner and those of the grammar are all about the file that was read, so
sorting them by place merges the two: none is lost, none is told twice, and at one place each kind keeps
its order, the lexical errors first. An unterminated string leaves nothing to scan, so it is the last of
the lexical errors.
-/
import SemFront.Proofs.Grammar.Progress
import SemFront.Proofs.Layout.Independence
import SemFront.Proofs.Token.Partition

namespace SemFront

/-! ## Merging diagnostics -/

namespace Diagnostic

/-- In one file, diagnostics are sorted by their starts. -/
theorem sortByPlace_eq {file : String} {ds : List Diagnostic} (h : ∀ d ∈ ds, d.span.file = file) :
    sortByPlace ds = stableSort (fun a b => a.span.start < b.span.start) ds := by
  -- both orders are the same on this list, so they are compared on equal elements of it
  have hds : List.Forall₂ (fun a b => a = b ∧ a.span.file = file) ds ds :=
    List.forall₂_same.2 fun d hd => ⟨rfl, h d hd⟩
  have hless : ∀ a b a' b' : Diagnostic, (a = a' ∧ a.span.file = file) → (b = b' ∧ b.span.file = file) →
      precedes a b = decide (a'.span.start < b'.span.start) := by
    rintro a b _ _ ⟨rfl, ha⟩ ⟨rfl, hb⟩
    unfold precedes
    rw [if_pos (ha.trans hb.symm)]
  have hsorted := (stableSort_forall₂ hless hds).imp fun _ _ => And.left
  rwa [List.forall₂_eq_eq_eq] at hsorted

/-- Diagnostics made of those of the scanner, `lexical`, and those of the grammar: in the order of their
starts, each of them once, those of the scanner as they came, and at each place those of the scanner
before those of the grammar, both as they came. -/
structure Merges (lexical grammar ds : List Diagnostic) : Prop where
  sorted : ds.Pairwise fun a b => a.span.start ≤ b.span.start
  perm : ds.Perm (lexical ++ grammar)
  scanned : ds.filter (·.stage = .lexer) = lexical
  stable : ∀ k, ds.filter (·.span.start = k) =
    lexical.filter (·.span.start = k) ++ grammar.filter (·.span.start = k)

theorem merges_sortByPlace (file : String) {lexical grammar : List Diagnostic}
    (hfile : ∀ d ∈ lexical ++ grammar, d.span.file = file) (hl : ∀ d ∈ lexical, d.stage = .lexer)
    (hg : ∀ d ∈ grammar, d.stage = .parser) (hord : lexical.Pairwise fun a b => a.span.start ≤ b.span.start) :
    Merges lexical grammar (sortByPlace (lexical ++ grammar)) := by
  rw [sortByPlace_eq hfile]
  let key : Diagnostic → Int := fun d => d.span.start
  refine ⟨stableSort_ascending key _, stableSort_perm key _, ?_, fun k => ?_⟩
  · have hfilter : (lexical ++ grammar).filter (·.stage = .lexer) = lexical := by
      rw [List.filter_append, List.filter_eq_self.2 (fun d hd => decide_eq_true (hl d hd)),
        List.filter_eq_nil_iff.2 (fun d hd => by simp [hg d hd]), List.append_nil]
    rw [filter_stableSort key (hfilter.symm ▸ hord), hfilter]
  · -- at one start all keys are equal, so any part of it ascends
    rw [← List.filter_append]
    refine filter_stableSort key (List.pairwise_of_forall_mem_list fun d hd e he => ?_)
    have hdk : key d = k := of_decide_eq_true (List.mem_filter.1 hd).2
    have hek : key e = k := of_decide_eq_true (List.mem_filter.1 he).2
    exact Int.le_of_eq (hdk.trans hek.symm)

end Diagnostic

/-! ## Errors of the grammar -/

theorem Reply.Alike.reader [Matching α] {P : Pairing} {x y : Reply α} (h : x.Alike P y) :
    x.reader.Alike P y.reader := by
  cases h with
  | ok _ hr => exact hr
  | fail hr => exact hr

/-- A span from where some token starts to where some token stops. -/
def Span.OfTokens (ts : List Token) (s : Span) : Prop := ∃ t ∈ ts, ∃ u ∈ ts, s = t.span.upTo u.span

theorem Span.OfTokens.mono {ts us : List Token} {s : Span} (h : s.OfTokens ts) (hsub : ts ⊆ us) : s.OfTokens us := by
  obtain ⟨t, ht, u, hu, rfl⟩ := h
  exact ⟨t, hsub ht, u, hsub hu, rfl⟩

/-- A problem is reported about tokens of the source, and so is what it is related to; none that is reported
stands for others. -/
theorem readProgram_reports (file source : String) (limit : Nat) :
    ∀ r ∈ (readProgram file source limit).reader.reports.toList,
    (∀ s ∈ r.problem.error.span :: r.problem.error.related.map Prod.fst, s.OfTokens (significant file source)) ∧
      r.problem.isTooMany = false := by
  -- a source is a layout of its own tokens, and read in step with itself
  obtain ⟨P, hfst, -, hr⟩ := @exists_pairing file file source source limit limit rfl
  have hreader := ((inferInstance : Rule.InStep P Rule.program Rule.program).replies hr).reader
  intro r hmem
  unfold readProgram at hmem
  rw [Rule.readSource_reader] at hmem
  obtain ⟨-, hspan, hrelated, hmany⟩ := List.forall₂_same.1 hreader.reports r hmem
  have hof {s : Span} (h : Matching.Matches P s s) : s.OfTokens (significant file source) := by
    obtain ⟨p, hp, q, hq, hs, -⟩ := h
    rw [← hfst]
    exact ⟨p.1, List.mem_map_of_mem hp, q.1, List.mem_map_of_mem hq, hs⟩
  exact ⟨List.forall_mem_cons.2 ⟨hof hspan, fun s hs => hof (List.forall₂_same.1 hrelated s hs)⟩, hmany⟩

/-- What is kept is a problem that was reported, or stands at the place of one. -/
theorem readProgram_problems {file source : String} {limit : Nat} : ∀ q ∈ (readProgram file source limit).problems,
    ∃ r ∈ (readProgram file source limit).reader.reports.toList,
      q = r.problem ∨ 0 < limit ∧ q = .tooMany limit r.problem.error.span := by
  unfold readProgram
  rw [Rule.readSource_problems]
  exact mem_keptProblems

theorem readProgram_errors_file (file source : String) (limit : Nat) :
    ∀ e ∈ (readProgram file source limit).errors, e.span.file = file := by
  intro e he
  obtain ⟨q, hq, rfl⟩ := List.mem_map.1 he
  obtain ⟨r, hr, hqr⟩ := readProgram_problems q hq
  obtain ⟨a, ha, b, -, hab⟩ := (readProgram_reports file source limit r hr).1 _ List.mem_cons_self
  have hspan : q.error.span = r.problem.error.span := by
    rcases hqr with rfl | ⟨-, rfl⟩ <;> rfl
  rw [hspan, hab]
  exact tokenize_file (List.mem_filter.1 ha).1

/-! ## Readings -/

/-- Reading a program meets every text that is no token. -/
theorem readProgram_lexical (file source : String) (limit : Nat) :
    (readProgram file source limit).lexical = lexicalErrors (tokenize file source) := by
  -- a program is read to the end whatever is wrong with it, and looking ahead goes no less far
  refine Rule.readSource_lexical ?_
  obtain ⟨p, s, hp, hs⟩ := (Rule.program_ends (Reader.ofSource_wf file source limit)).exists_ok
  rw [Rule.readSource_of_ok hp, hs]
  exact Nat.zero_le 1

theorem readProgram_merges (file source : String) (limit : Nat) :
    Diagnostic.Merges ((lexicalErrors (tokenize file source)).map LexicalError.toDiagnostic)
      ((readProgram file source limit).errors.map GrammarError.toDiagnostic)
      (readProgram file source limit).diagnostics := by
  unfold Reading.diagnostics
  rw [readProgram_lexical]
  refine Diagnostic.merges_sortByPlace file ?_ ?_ ?_ ?_
  · intro d hd
    rcases List.mem_append.1 hd with hd | hd
    · obtain ⟨e, he, rfl⟩ := List.mem_map.1 hd
      exact lexicalErrors_file e he
    · obtain ⟨e, he, rfl⟩ := List.mem_map.1 hd
      exact readProgram_errors_file file source limit e he
  · exact List.forall_mem_map.2 fun _ _ => rfl
  · exact List.forall_mem_map.2 fun _ _ => rfl
  · exact List.pairwise_map.2 (lexicalErrors_ordered file source)

/-- Where only the last element can have a property, some element has it if the last one has. -/
theorem exists_iff_getLast {p : α → Prop} {xs : List α} (h : xs.Pairwise fun a _ => ¬ p a) :
    (∃ a ∈ xs, p a) ↔ ∃ a, xs.getLast? = some a ∧ p a := by
  constructor
  · rintro ⟨a, ha, hp⟩
    obtain rfl | ⟨ys, b, rfl⟩ := List.eq_nil_or_concat' xs
    · cases ha
    · rcases List.mem_append.1 ha with ha | ha
      · exact absurd hp ((List.pairwise_append.1 h).2.2 a ha b (List.mem_singleton_self b))
      · obtain rfl := List.mem_singleton.1 ha
        exact ⟨a, List.getLast?_concat, hp⟩
  · rintro ⟨a, ha, hp⟩
    exact ⟨a, List.mem_of_getLast? ha, hp⟩

theorem readProgram_isFatal (file source : String) (limit : Nat) : (readProgram file source limit).isFatal = true ↔
    ∃ e, (lexicalErrors (tokenize file source)).getLast? = some e ∧ e.fault = .unterminatedString := by
  unfold Reading.isFatal
  rw [readProgram_lexical, List.any_eq_true, tokenize_eq]
  simp only [decide_eq_true_eq]
  exact exists_iff_getLast (Scanner.unterminated_last _ _)

/-- Whatever the source and the limit, the diagnostics of a program are the errors of the scanner and those
of the grammar, merged; and reading is fatal exactly if the last error of the scanner is an unterminated
string. -/
theorem readProgram_diagnostics (file source : String) (limit : Nat) :
    Diagnostic.Merges ((lexicalErrors (tokenize file source)).map LexicalError.toDiagnostic)
        ((readProgram file source limit).errors.map GrammarError.toDiagnostic)
        (readProgram file source limit).diagnostics ∧
      ((readProgram file source limit).isFatal = true ↔
        ∃ e, (lexicalErrors (tokenize file source)).getLast? = some e ∧ e.fault = .unterminatedString) :=
  ⟨readProgram_merges file source limit, readProgram_isFatal file source limit⟩

end SemFront
