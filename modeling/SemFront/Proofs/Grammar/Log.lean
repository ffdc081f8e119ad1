/-
Logs as they come of reports. A reader adds each problem to its log as it finds it; the log it ends with
is that of all its reports one after the other, so what is kept can be said of the reports of a reading as
a whole.
-/
import SemFront.Grammar.Reader

namespace SemFront

/-- The log of some reports on the given tokens. -/
def Log.ofReports (limit : Nat) (tokens : List Token) (reports : List Report) : Log :=
  reports.foldl (fun log r => log.add limit (faultsWithin r.reach tokens) r.problem) {}

/-- The problems kept of some reports on the given tokens, in the order of their discovery. -/
def keptProblems (limit : Nat) (tokens : List Token) (reports : List Report) : List Problem :=
  (Log.ofReports limit tokens reports).kept.reverse

/-- The log of a reader is that of its reports. -/
def Reader.Logged (r : Reader) : Prop := r.log = Log.ofReports r.limit r.tokens r.reports.toList

theorem Reader.Logged.report {r : Reader} (h : r.Logged) (p : Problem) : (r.report p).Logged := by
  show r.log.add r.limit r.faults p = Log.ofReports r.limit r.tokens (r.reports.push _).toList
  rw [Array.toList_push, Log.ofReports, List.foldl_append, ← Log.ofReports, ← h]
  rfl

theorem Reader.Logged.kept {r : Reader} (h : r.Logged) :
    r.log.kept.reverse = keptProblems r.limit r.tokens r.reports.toList :=
  congrArg (fun log : Log => log.kept.reverse) h

/-! ## What is kept -/

theorem Log.add_ne_nil {limit lexical : Nat} {log : Log} {p : Problem} (h : log.kept ≠ [] ∨ log.isFull = false) :
    (log.add limit lexical p).kept ≠ [] := by
  unfold Log.add
  split
  · rename_i hf
    exact h.resolve_right (by simp [hf])
  · split
    · rename_i hh
      intro e
      rw [e] at hh
      cases hh
    · split <;> simp

/-- Whatever the limit, the first problem of all is kept. -/
theorem keptProblems_eq_nil {limit : Nat} {ts : List Token} {rs : List Report} :
    keptProblems limit ts rs = [] ↔ rs = [] := by
  have hfold : ∀ (rs : List Report) (log : Log), log.kept ≠ [] →
      (rs.foldl (fun log r => log.add limit (faultsWithin r.reach ts) r.problem) log).kept ≠ [] := by
    intro rs
    induction rs with
    | nil => exact fun _ h => h
    | cons r rs ih => exact fun log h => ih _ (Log.add_ne_nil (.inl h))
  unfold keptProblems Log.ofReports
  rw [List.reverse_eq_nil_iff]
  cases rs with
  | nil => simp
  | cons r rs =>
    have h : (Log.add limit (faultsWithin r.reach ts) {} r.problem).kept ≠ [] := Log.add_ne_nil (.inr rfl)
    simp only [List.foldl_cons, reduceCtorEq, iff_false]
    exact hfold rs _ h

/-- A log takes a problem as it is, or an error at its place that stands for it and all that follow. -/
theorem Log.mem_add {limit k : Nat} {log : Log} {p q : Problem} (h : q ∈ (log.add limit k p).kept) :
    q ∈ log.kept ∨ q = p ∨ 0 < limit ∧ q = .tooMany limit p.error.span := by
  unfold Log.add at h
  split at h
  · exact .inl h
  · split at h
    · exact .inl h
    · split at h
      · rename_i hfull
        rcases List.mem_cons.1 h with hq | hq
        · exact .inr (.inr ⟨of_decide_eq_true (Bool.and_eq_true_iff.1 hfull).1, hq⟩)
        · exact .inl hq
      · rcases List.mem_cons.1 h with hq | hq
        · exact .inr (.inl hq)
        · exact .inl hq

theorem mem_keptProblems {limit : Nat} {ts : List Token} {rs : List Report} : ∀ q ∈ keptProblems limit ts rs,
    ∃ r ∈ rs, q = r.problem ∨ 0 < limit ∧ q = .tooMany limit r.problem.error.span := by
  suffices h : ∀ q ∈ (Log.ofReports limit ts rs).kept,
      ∃ r ∈ rs, q = r.problem ∨ 0 < limit ∧ q = .tooMany limit r.problem.error.span from
    fun q hq => h q (List.mem_reverse.1 hq)
  refine List.foldlRecOn rs _ (motive := fun log : Log => ∀ q ∈ log.kept,
      ∃ r ∈ rs, q = r.problem ∨ 0 < limit ∧ q = .tooMany limit r.problem.error.span)
    (fun _ hq => nomatch hq) fun log ih r hr q hq => ?_
  rcases Log.mem_add hq with hq | hq
  · exact ih q hq
  · exact ⟨r, hr, hq⟩

theorem Log.add_unlimited (ps : List Problem) (k : Nat) (p : Problem) :
    Log.add 0 k { kept := ps } p = { kept := if ps.head?.any (·.repeats p) then ps else p :: ps } := by
  unfold Log.add
  simp only [Bool.false_eq_true, Nat.lt_irrefl, decide_false, Bool.false_and, ↓reduceIte]
  split <;> rfl

end SemFront
