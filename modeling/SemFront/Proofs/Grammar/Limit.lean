/-
A limit on errors leaves out what is told, and nothing that is read. A reader with a limit and one without
go side by side through every rule, in all but their logs the same, since no rule looks at a log; and the
logs run in step until the limit is met: up to there they keep the same problems, then the one with the
limit keeps an error in place of the next problem and is full. So what is told with a limit is what is told
without one, or the first part of it and one error that stands for the rest.
-/
import SemFront.Parsed.Basic
import SemFront.Proofs.Grammar.Diagnostics
import SemFront.Proofs.Grammar.Unlogged

namespace SemFront

/-! ## Logs with and without a limit -/

/-- The log with a limit of `n` beside the log without one, both newest first: they have kept the same, or
the first is full and ends with an error at the place of the problem `p` that it has left out first. -/
inductive Log.Cut (n : Nat) : Log → Log → Prop
  | whole {ps : List Problem} (le : ps.length ≤ n) : Cut n { kept := ps } { kept := ps }
  | cut {ps later : List Problem} {p : Problem} (le : ps.length ≤ n) :
    Cut n { kept := .tooMany n p.error.span :: ps, isFull := true } { kept := later ++ p :: ps }

/-- Whatever is reported, the two logs stay side by side. -/
theorem Log.Cut.add {n : Nat} (hn : 1 ≤ n) {a b : Log} (h : a.Cut n b) (k : Nat) (p : Problem) :
    (a.add n k p).Cut n (b.add 0 k p) := by
  cases h with
  | @whole ps le =>
    rw [Log.add_unlimited]
    unfold Log.add
    simp only [Bool.false_eq_true, ↓reduceIte]
    -- a repetition is left out of both; the limit decides about any other problem
    split
    · exact .whole le
    · by_cases hfull : n ≤ ps.length + k
      · rw [if_pos (by simp [hfull]; omega)]
        exact @Cut.cut n ps [] p le
      · rw [if_neg (by simp [hfull])]
        exact .whole (by rw [List.length_cons]; omega)
  | @cut ps later q le =>
    -- a full log stays as it is, while the other one may grow
    rw [Log.add_unlimited]
    split
    · exact .cut le
    · exact @Cut.cut n ps (p :: later) q le

/-! ## Readers with and without a limit -/

/-- A reader with a limit of `n` beside one without, which differ in their logs only. -/
inductive Reader.Limits (n : Nat) : Reader → Reader → Prop
  | mk {r : Reader} {log : Log} (unlimited : r.limit = 0) (cut : log.Cut n r.log) :
    Limits n { r with limit := n, log } r

/-- Whatever a rule does to both, the readers stay side by side. -/
theorem Reader.limits_bond {n : Nat} (hn : 1 ≤ n) : Bond (Limits n) where
  rest h := by cases h; rfl
  eof h := by cases h; rfl
  budget h := by cases h; rfl
  advance {_ r} h := by
    cases h with
    | @mk _ log unlimited cut => exact @Limits.mk n r.advance log unlimited cut
  look {_ r} h k := by
    cases h with
    | @mk _ log unlimited cut => exact @Limits.mk n (r.look k) log unlimited cut
  report {_ r} h p := by
    cases h with
    | @mk _ log unlimited cut =>
      -- both have met the same lexical errors, so the logs take a step together
      refine @Limits.mk n (r.report p) (log.add n r.faults p) unlimited ?_
      show (log.add n r.faults p).Cut n (r.log.add r.limit r.faults p)
      rw [unlimited]
      exact cut.add hn r.faults p
  recovered {_ r} h x := by
    cases h with
    | @mk _ log unlimited cut => exact @Limits.mk n (r.recovered x) log unlimited cut

theorem Reader.limits_ofSource (n : Nat) (file source : String) :
    Limits n (.ofSource file source n) (.ofSource file source) :=
  @Limits.mk n (.ofSource file source) {} rfl (.whole (Nat.zero_le n))

/-- A program is read with a limit and without to the same value, by readers that are still side by side. -/
theorem readProgram_limits {n : Nat} (hn : 1 ≤ n) (file source : String) :
    (readProgram file source n).value = (readProgram file source).value ∧
      (readProgram file source n).reader.Limits n (readProgram file source).reader := by
  have hreply := (inferInstance : Rule.Unlogged Rule.program).bound (Reader.limits_bond hn)
    (Reader.limits_ofSource n file source)
  unfold Reader.ofSource at hreply
  unfold readProgram Rule.readSource
  generalize Rule.program (.ofTokens (tokenize file source) n) = x,
    Rule.program (.ofTokens (tokenize file source)) = y at hreply ⊢
  cases hreply with
  | ok h => exact ⟨rfl, h⟩
  | fail h => exact ⟨rfl, h⟩

/-! ## Errors that are told -/

theorem Problem.code_eq_tooMany {p : Problem} : p.error.code = "TOO_MANY_ERRORS" ↔ p.isTooMany = true := by
  cases p <;> simp [Problem.error, Problem.isTooMany]

/-- What a limit of `n` leaves of all errors: all of them, or the first `k` and one that stands for the rest,
at the place of the first that is left out. -/
structure Truncated (n : Nat) (all kept : List GrammarError) : Prop where
  plain : ∀ e ∈ all, e.code ≠ "TOO_MANY_ERRORS"
  cut : kept = all ∨ ∃ (k : Nat) (e t : GrammarError), k ≤ n ∧ all[k]? = some e ∧ kept = all.take k ++ [t] ∧
    t.code = "TOO_MANY_ERRORS" ∧ t.span = e.span
  length_le : kept.length ≤ n + 1
  last : ∀ e ∈ kept.dropLast, e.code ≠ "TOO_MANY_ERRORS"

theorem Log.Cut.truncated {n : Nat} {a b : Log} (h : a.Cut n b) (hb : ∀ p ∈ b.kept, p.isTooMany = false) :
    Truncated n (b.kept.reverse.map Problem.error) (a.kept.reverse.map Problem.error) := by
  have hplain : ∀ e ∈ b.kept.reverse.map Problem.error, e.code ≠ "TOO_MANY_ERRORS" := by
    intro e he
    obtain ⟨p, hp, rfl⟩ := List.mem_map.1 he
    rw [Ne, Problem.code_eq_tooMany, hb p (List.mem_reverse.1 hp)]
    exact Bool.false_ne_true
  cases h with
  | @whole ps le =>
    refine ⟨hplain, .inl rfl, ?_, fun e he => hplain e (List.dropLast_subset _ he)⟩
    rw [List.length_map, List.length_reverse]
    exact Nat.le_succ_of_le le
  | @cut ps later p le =>
    have hall : (later ++ p :: ps).reverse.map Problem.error =
        ps.reverse.map Problem.error ++ p.error :: later.reverse.map Problem.error := by simp
    have hkept : (Problem.tooMany n p.error.span :: ps).reverse.map Problem.error =
        ps.reverse.map Problem.error ++ [(Problem.tooMany n p.error.span).error] := by simp
    have hlen : (ps.reverse.map Problem.error).length = ps.length := by
      rw [List.length_map, List.length_reverse]
    dsimp only at hplain ⊢
    rw [hall] at hplain ⊢
    rw [hkept]
    refine ⟨hplain, .inr ⟨ps.length, p.error, (Problem.tooMany n p.error.span).error, le, ?_, ?_, rfl, rfl⟩, ?_, ?_⟩
    · rw [← hlen, List.getElem?_append_right (Nat.le_refl _), Nat.sub_self]
      rfl
    · rw [← hlen, List.take_left]
    · rw [List.length_append, hlen]
      exact Nat.succ_le_succ le
    · rw [List.dropLast_concat]
      exact fun e he => hplain e (List.mem_append_left _ he)

/-- Readings by readers side by side have recovered at the same places and met the same lexical errors. -/
theorem Reading.of_limits {p q : Reading α} {n : Nat} (h : p.reader.Limits n q.reader) :
    p.recoveries = q.recoveries ∧ p.isFatal = q.isFatal := by
  unfold Reading.isFatal Reading.lexical Reading.recoveries
  generalize p.reader = r, q.reader = s at h ⊢
  cases h
  exact ⟨rfl, rfl⟩

theorem readProgram_truncated {n : Nat} (hn : 1 ≤ n) (file source : String) :
    Truncated n (readProgram file source).errors (readProgram file source n).errors := by
  have hcut : (readProgram file source n).reader.log.Cut n (readProgram file source).reader.log := by
    have h := (readProgram_limits hn file source).2
    generalize (readProgram file source n).reader = r, (readProgram file source).reader = s at h ⊢
    cases h with
    | mk _ cut => exact cut
  unfold Reading.errors Reading.problems
  refine hcut.truncated fun p hp => ?_
  obtain ⟨r, hr, rfl | ⟨h, -⟩⟩ := readProgram_problems p (List.mem_reverse.2 hp)
  · exact (readProgram_reports file source 0 r hr).2
  · cases h

/-- What parsing with a limit gives is what is read with it. -/
theorem Parsed.ofText_eq (o : ParseOptions) (limit : Nat) (path text : String) :
    ofText { o with limit } path text =
      { path, text := textRead o text, program := (readProgram path (textRead o text) limit).value,
        diagnostics := (readProgram path (textRead o text) limit).diagnostics,
        isFatal := (readProgram path (textRead o text) limit).isFatal,
        recoveries := (readProgram path (textRead o text) limit).recoveries } := by
  simp only [ofText, textRead]

/-- Parsing with a limit of `n` errors reads the same program, takes the same recoveries, finds the same
lexical errors and is fatal for the same texts as parsing without one; of the errors of the grammar it
leaves out those behind the limit, with one error in place of them. -/
theorem Parsed.ofText_limit {n : Nat} (hn : 1 ≤ n) (o : ParseOptions) (path text : String) :
    (ofText { o with limit := n } path text).program = (ofText { o with limit := 0 } path text).program ∧
    (ofText { o with limit := n } path text).recoveries = (ofText { o with limit := 0 } path text).recoveries ∧
    (ofText { o with limit := n } path text).isFatal = (ofText { o with limit := 0 } path text).isFatal ∧
    (ofText { o with limit := n } path text).diagnostics.filter (·.stage = .lexer) =
      (ofText { o with limit := 0 } path text).diagnostics.filter (·.stage = .lexer) ∧
    Truncated n (readProgram path (textRead o text)).errors (readProgram path (textRead o text) n).errors := by
  obtain ⟨hvalue, hreader⟩ := readProgram_limits hn path (textRead o text)
  obtain ⟨hrecoveries, hfatal⟩ := Reading.of_limits hreader
  rw [ofText_eq, ofText_eq]
  dsimp only
  refine ⟨hvalue, hrecoveries, hfatal, ?_, readProgram_truncated hn path (textRead o text)⟩
  rw [(readProgram_merges path (textRead o text) n).scanned, (readProgram_merges path (textRead o text) 0).scanned]

/-- Three imports without a name, and a text that is no token. -/
def namelessImports : String := "use ; @ use ; use ;"

/-- The text that is no token counts too: with a limit of two, only one import is told of. -/
theorem Parsed.ofText_limit_imports :
    (readProgram "a.sem" namelessImports).errors.map GrammarError.code =
      ["SYNTAX_EXPECTED_TOKEN", "SYNTAX_EXPECTED_TOKEN", "SYNTAX_EXPECTED_TOKEN"] ∧
    (readProgram "a.sem" namelessImports 2).errors.map GrammarError.code =
      ["SYNTAX_EXPECTED_TOKEN", "TOO_MANY_ERRORS"] ∧
    1 ≤ 2 ∧ Truncated 2 (readProgram "a.sem" (textRead {} namelessImports)).errors
      (readProgram "a.sem" (textRead {} namelessImports) 2).errors := by
  refine ⟨by decide +kernel, by decide +kernel, by decide, ?_⟩
  exact (ofText_limit (by decide) {} "a.sem" namelessImports).2.2.2.2

end SemFront
