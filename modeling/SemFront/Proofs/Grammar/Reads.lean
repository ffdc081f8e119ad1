/-
What rules do to a reader. A rule only moves on and adds reports, and it reports before it fails
(`Honest`); `Reads` says that it reads a value without any report, and opens step by step along the
rule. A repetition reads what its rounds read one after the other (`Loops`), since the budget of the
reader never runs out while tokens are left.
-/
import SemFront.Grammar.Recovery
import SemFront.Proofs.Grammar.Log

namespace SemFront

/-! ## Readers moving on -/

/-- A reader that another one becomes by moving on and reporting. -/
structure Reader.Leads (r s : Reader) : Prop where
  rest : s.rest <:+ r.rest
  eof : s.eof = r.eof
  budget : s.budget = r.budget
  tokens : s.tokens = r.tokens
  limit : s.limit = r.limit
  log : r.Logged → s.Logged
  reports : r.reports.toList <+: s.reports.toList
  taken : r.taken + r.rest.length ≤ s.taken + s.rest.length
  reach : r.taken + 2 ≤ r.reach → s.taken + 2 ≤ s.reach

namespace Reader.Leads

theorem refl (r : Reader) : r.Leads r :=
  ⟨List.suffix_refl _, rfl, rfl, rfl, rfl, id, List.prefix_refl _, Nat.le_refl _, id⟩

theorem trans {r s t : Reader} (h : r.Leads s) (k : s.Leads t) : r.Leads t :=
  ⟨k.rest.trans h.rest, k.eof.trans h.eof, k.budget.trans h.budget, k.tokens.trans h.tokens,
    k.limit.trans h.limit, k.log ∘ h.log, h.reports.trans k.reports, Nat.le_trans h.taken k.taken, k.reach ∘ h.reach⟩

theorem advance (r : Reader) : r.Leads r.advance where
  rest := List.tail_suffix _
  eof := rfl
  budget := rfl
  tokens := rfl
  limit := rfl
  log := id
  reports := List.prefix_refl _
  taken := by
    simp only [Reader.advance, List.length_tail]
    omega
  reach _ := by
    simp only [Reader.advance]
    omega

theorem look (r : Reader) (n : Nat) : r.Leads (r.look n) where
  rest := List.suffix_refl _
  eof := rfl
  budget := rfl
  tokens := rfl
  limit := rfl
  log := id
  reports := List.prefix_refl _
  taken := Nat.le_refl _
  reach h := by
    simp only [Reader.look]
    omega

theorem report (r : Reader) (p : Problem) : r.Leads (r.report p) :=
  ⟨List.suffix_refl _, rfl, rfl, rfl, rfl, fun h => h.report p, by simp [Reader.report], Nat.le_refl _, id⟩

theorem advanceBy : ∀ (n : Nat) (r : Reader), r.Leads (Reader.advanceBy n r)
  | 0, r => refl r
  | n + 1, r => (advance r).trans (advanceBy n r.advance)

theorem recovered (r : Reader) (x : Recovery) : r.Leads (r.recovered x) :=
  ⟨List.suffix_refl _, rfl, rfl, rfl, rfl, id, List.prefix_refl _, Nat.le_refl _, id⟩

/-- Where nothing was reported from end to end, nothing was reported on the way. -/
theorem reports_eq {r m s : Reader} (h : r.Leads m) (k : m.Leads s) (e : s.reports = r.reports) :
    m.reports = r.reports ∧ s.reports = m.reports := by
  have h1 : m.reports.toList <+: r.reports.toList := e ▸ k.reports
  have h2 : m.reports = r.reports := by
    rw [← Array.toList_inj]
    exact (h.reports.eq_of_length_le h1.length_le).symm
  exact ⟨h2, e.trans h2.symm⟩

end Reader.Leads

/-! ## Honest rules -/

namespace Rule

/-- A rule only moves on and adds reports, and it reports before it fails. -/
class Honest (x : Rule α) : Prop where
  leads : ∀ r : Reader, r.Leads (x r).reader
  speaks : ∀ r s : Reader, x r = .fail s → s.reports ≠ r.reports

namespace Honest

/-- A rule that never fails is honest if it only moves on. -/
theorem of_ok {x : Rule α} (h : ∀ r, ∃ a s, x r = .ok a s ∧ r.Leads s) : Honest x where
  leads r := by
    obtain ⟨a, s, hx, hl⟩ := h r
    rw [hx]
    exact hl
  speaks r s hs := by
    obtain ⟨a, m, hx, -⟩ := h r
    rw [hx] at hs
    cases hs

instance : Honest (Rule.pure a) := .of_ok fun r => ⟨a, r, rfl, .refl r⟩

instance : Honest (Pure.pure a : Rule α) := .of_ok fun r => ⟨a, r, rfl, .refl r⟩

instance : Honest current := .of_ok fun r => ⟨_, r, rfl, .refl r⟩

instance : Honest peek := .of_ok fun r => ⟨_, r, rfl, .refl r⟩

instance : Honest (ahead n) := .of_ok fun r => ⟨_, _, rfl, .look r n⟩

instance : Honest afterChain := .of_ok fun r => ⟨_, _, rfl, .look r _⟩

instance : Honest advance := .of_ok fun r => ⟨_, _, rfl, .advance r⟩

instance : Honest (report p) := .of_ok fun r => ⟨_, _, rfl, .report r p⟩

instance bind {x : Rule α} {f : α → Rule β} [hx : Honest x] [hf : ∀ a, Honest (f a)] : Honest (x >>= f) where
  leads r := by
    have h := hx.leads r
    change r.Leads (Rule.bind x f r).reader
    unfold Rule.bind
    cases hr : x r with
    | ok a m =>
      rw [hr] at h
      exact Reader.Leads.trans h ((hf a).leads m)
    | fail m =>
      rw [hr] at h
      exact h
  speaks r s hs e := by
    have h := hx.leads r
    change Rule.bind x f r = _ at hs
    unfold Rule.bind at hs
    cases hr : x r with
    | ok a m =>
      rw [hr] at hs h
      replace hs : f a m = .fail s := hs
      have k := (hf a).leads m
      rw [hs] at k
      exact (hf a).speaks m s hs (h.reports_eq k e).2
    | fail m =>
      rw [hr] at hs
      cases hs
      exact hx.speaks r s hr e

instance reportFail : Honest (report p >>= fun _ => (fail : Rule α)) where
  leads r := .report r p
  speaks r s hs := by
    cases hs
    simp [Reader.report]

instance : Honest (refuse w t : Rule α) := reportFail

instance ite {c : Prop} [Decidable c] {x y : Rule α} [hx : Honest x] [hy : Honest y] :
    Honest (if c then x else y) := by
  split
  · exact hx
  · exact hy

instance : Honest (expect k) := by unfold expect; infer_instance

instance : Honest (expectWord w) := by unfold expectWord; infer_instance

instance attempt {x : Rule α} [hx : Honest x] : Honest x.attempt := by
  refine .of_ok fun r => ?_
  have h := hx.leads r
  unfold Rule.attempt
  cases hr : x r with
  | ok a m => exact ⟨some a, m, rfl, by rw [hr] at h; exact h⟩
  | fail m => exact ⟨none, m, rfl, by rw [hr] at h; exact h⟩

instance rounds {round : σ → Rule (Round σ)} [h : ∀ s, Honest (round s)] : ∀ n s, Honest (Rule.rounds round n s)
  | 0, s => by unfold Rule.rounds; infer_instance
  | n + 1, s => by
    have ih := @rounds _ round h n
    unfold Rule.rounds
    refine @bind _ _ _ _ (h s) ?_
    rintro (s | s)
    · exact ih s
    · infer_instance

instance loop {round : σ → Rule (Round σ)} [h : ∀ s, Honest (round s)] : Honest (Rule.loop round s) where
  leads r := (rounds (r.budget + 1) s).leads r
  speaks r m hm := (rounds (r.budget + 1) s).speaks r m hm

instance itemRound {item : Rule α} [Honest item] {xs : Array α} : Honest (Rule.itemRound c w item xs) := by
  unfold Rule.itemRound; infer_instance

instance items {item : Rule α} [Honest item] : Honest (Rule.items c w item) := by
  unfold Rule.items; infer_instance

instance someItems {item : Rule α} [Honest item] : Honest (Rule.someItems c w item) := by
  unfold Rule.someItems; infer_instance

instance manyItems {item : Rule α} [Honest item] : Honest (Rule.manyItems c w item) := by
  unfold Rule.manyItems; infer_instance

instance : Honest (recover unit start) := by
  refine .of_ok fun r => ⟨_, _, rfl, ?_⟩
  have h : ∀ (b : Bool) (m : Reader), m.Leads (if b then m.afterChain.2 else m) := by
    intro b m
    split
    · exact .look m _
    · exact .refl m
  exact ((Reader.Leads.advanceBy _ r).trans (h _ _)).trans (.recovered _ _)

end Honest

/-! ## Reading without reports -/

/-- From `r` a rule reads `a` without any report and ends at `s`. -/
def Reads (x : Rule α) (r : Reader) (a : α) (s : Reader) : Prop := x r = .ok a s ∧ s.reports = r.reports

theorem Reads.leads {x : Rule α} [hx : Honest x] {r s : Reader} {a : α} (h : x.Reads r a s) : r.Leads s := by
  have := hx.leads r
  rw [h.1] at this
  exact this

section Reads

variable {r s : Reader} {a : α} {b : β}

/-- Nothing reported on the whole means nothing reported in either part. -/
theorem reads_bind_of_leads {x : Rule α} {f : α → Rule β} [hx : Honest x]
    (hf : ∀ (a : α) (m : Reader), m.Leads (f a m).reader) :
    (x >>= f).Reads r b s ↔ ∃ a m, x.Reads r a m ∧ (f a).Reads m b s := by
  constructor
  · rintro ⟨h, e⟩
    change Rule.bind x f r = _ at h
    unfold Rule.bind at h
    split at h
    · rename_i a m hr
      have l1 := hx.leads r
      have l2 := hf a m
      rw [hr] at l1
      rw [h] at l2
      obtain ⟨e1, e2⟩ := l1.reports_eq l2 e
      exact ⟨a, m, ⟨hr, e1⟩, h, e2⟩
    · cases h
  · rintro ⟨a, m, ⟨h1, e1⟩, h2, e2⟩
    refine ⟨?_, e2.trans e1⟩
    change Rule.bind x f r = _
    unfold Rule.bind
    rw [h1]
    exact h2

@[simp] theorem reads_bind {x : Rule α} {f : α → Rule β} [Honest x] [hf : ∀ a, Honest (f a)] :
    (x >>= f).Reads r b s ↔ ∃ a m, x.Reads r a m ∧ (f a).Reads m b s :=
  reads_bind_of_leads fun a m => (hf a).leads m

/-- A rule that may fail in silence is honest behind one that never leaves it where it does. -/
theorem Honest.bind_of_reads {x : Rule α} {f : α → Rule β} [hx : Honest x]
    (hf : ∀ (a : α) (m : Reader), m.Leads (f a m).reader)
    (hs : ∀ {r m s : Reader} {a : α}, x.Reads r a m → f a m = .fail s → s.reports ≠ m.reports) :
    Honest (x >>= f) where
  leads r := by
    have h := hx.leads r
    change r.Leads (Rule.bind x f r).reader
    unfold Rule.bind
    cases hr : x r with
    | ok a m =>
      rw [hr] at h
      exact Reader.Leads.trans h (hf a m)
    | fail m =>
      rw [hr] at h
      exact h
  speaks r s h e := by
    have h1 := hx.leads r
    change Rule.bind x f r = _ at h
    unfold Rule.bind at h
    cases hr : x r with
    | ok a m =>
      rw [hr] at h h1
      replace h : f a m = .fail s := h
      have h2 := hf a m
      rw [h] at h2
      obtain ⟨e1, e2⟩ := h1.reports_eq h2 e
      exact hs ⟨hr, e1⟩ h e2
    | fail m =>
      rw [hr] at h
      cases h
      exact hx.speaks r s hr e

@[simp] theorem not_reads_fail : ¬ (fail : Rule α).Reads r a s := nofun

@[simp] theorem not_reads_refuse {w : Wanted} {t : Token} : ¬ (refuse w t : Rule α).Reads r a s := nofun

@[simp] theorem not_reads_report {p : Problem} {u : Unit} : ¬ (report p).Reads r u s := by
  rintro ⟨h, e⟩
  cases h
  simp [Reader.report] at e

@[simp] theorem not_reads_report_fail {p : Problem} : ¬ (report p >>= fun _ => (fail : Rule α)).Reads r a s := nofun

/-- A step that gives one value and one reader hands them on. -/
@[simp] theorem exists_eq_and_eq {p : α → Reader → Prop} {m : Reader} :
    (∃ b n, (b = a ∧ n = m) ∧ p b n) ↔ p a m :=
  ⟨fun ⟨_, _, ⟨e, e'⟩, h⟩ => e ▸ e' ▸ h, fun h => ⟨a, m, ⟨rfl, rfl⟩, h⟩⟩

/-- A step that only gives a reader hands it on. -/
@[simp] theorem exists_unit_eq {p : Unit → Reader → Prop} {m : Reader} : (∃ u n, n = m ∧ p u n) ↔ p () m :=
  ⟨fun ⟨_, _, e, h⟩ => e ▸ h, fun h => ⟨(), m, rfl, h⟩⟩

/-- A step that gives a reader under a condition hands it on under it. -/
@[simp] theorem exists_unit_and_eq {p : Unit → Reader → Prop} {q : Prop} {m : Reader} :
    (∃ u n, (q ∧ n = m) ∧ p u n) ↔ q ∧ p () m :=
  ⟨fun ⟨_, _, ⟨hq, e⟩, h⟩ => ⟨hq, e ▸ h⟩, fun ⟨hq, h⟩ => ⟨(), m, ⟨hq, rfl⟩, h⟩⟩

/-- The reader that a last step leaves is the one at the end. -/
theorem exists_last {p q : α → Reader → Prop} : (∃ b m, p b m ∧ q b m ∧ s = m) ↔ ∃ b, p b s ∧ q b s := by
  constructor
  · rintro ⟨b, _, hp, hq, rfl⟩
    exact ⟨b, hp, hq⟩
  · rintro ⟨b, hp, hq⟩
    exact ⟨b, s, hp, hq, rfl⟩

/-- A rule that always succeeds without a report reads what it gives. -/
theorem reads_iff_of_ok {x : Rule α} {b : α} {m : Reader} (h : x r = .ok b m) (e : m.reports = r.reports) :
    x.Reads r a s ↔ a = b ∧ s = m := by
  constructor
  · rintro ⟨h', -⟩
    cases h.symm.trans h'
    exact ⟨rfl, rfl⟩
  · rintro ⟨rfl, rfl⟩
    exact ⟨h, e⟩

@[simp] theorem reads_pure {b : α} : (Pure.pure b : Rule α).Reads r a s ↔ a = b ∧ s = r := reads_iff_of_ok rfl rfl

@[simp] theorem reads_rulePure {b : α} : (Rule.pure b).Reads r a s ↔ a = b ∧ s = r := reads_iff_of_ok rfl rfl

@[simp] theorem reads_current {t : Token} : current.Reads r t s ↔ t = r.current ∧ s = r := reads_iff_of_ok rfl rfl

@[simp] theorem reads_peek {t : Token} : peek.Reads r t s ↔ t = r.peek ∧ s = r := reads_iff_of_ok rfl rfl

@[simp] theorem reads_ahead {n : Nat} {t : Token} : (ahead n).Reads r t s ↔ t = r.ahead n ∧ s = r.look n :=
  reads_iff_of_ok rfl rfl

@[simp] theorem reads_afterChain {t : Token} :
    afterChain.Reads r t s ↔ t = r.afterChain.1 ∧ s = r.afterChain.2 := reads_iff_of_ok rfl rfl

@[simp] theorem reads_advance {u : Unit} : advance.Reads r u s ↔ s = r.advance :=
  (reads_iff_of_ok rfl rfl).trans (and_iff_right rfl)

theorem reads_current_bind {f : Token → Rule β} :
    (current >>= f).Reads r b s ↔ (f r.current).Reads r b s := Iff.rfl

theorem reads_peek_bind {f : Token → Rule β} : (peek >>= f).Reads r b s ↔ (f r.peek).Reads r b s := Iff.rfl

@[simp] theorem reads_ite {c : Prop} [Decidable c] {x y : Rule α} :
    (if c then x else y).Reads r a s ↔ if c then x.Reads r a s else y.Reads r a s := by
  split <;> rfl

@[simp] theorem reads_expect {k : Kind} {u : Unit} :
    (expect k).Reads r u s ↔ r.peek.kind = k ∧ s = r.advance := by
  simp [expect]

@[simp] theorem reads_expectWord {w : Wanted} {u : Unit} :
    (expectWord w).Reads r u s ↔ r.peek.kind.isWord = true ∧ s = r.advance := by
  simp [expectWord]

@[simp] theorem reads_attempt {x : Rule α} [hx : Honest x] {o : Option α} :
    x.attempt.Reads r o s ↔ ∃ a, o = some a ∧ x.Reads r a s := by
  unfold Rule.attempt Reads
  dsimp only
  cases hr : x r with
  | ok a m =>
    constructor
    · rintro ⟨h, e⟩
      cases h
      exact ⟨a, rfl, rfl, e⟩
    · rintro ⟨b, rfl, h, e⟩
      cases h
      exact ⟨rfl, e⟩
  | fail m =>
    constructor
    · rintro ⟨h, e⟩
      cases h
      exact absurd e (hx.speaks r s hr)
    · rintro ⟨b, -, h, -⟩
      cases h

/-- Without reports, what is only attempted is read. -/
theorem reads_attempt_bind {x : Rule α} {f : Option α → Rule β} [Honest x] [∀ o, Honest (f o)] :
    (x.attempt >>= f).Reads r b s ↔ ∃ a m, x.Reads r a m ∧ (f (some a)).Reads m b s := by
  simp only [reads_bind, reads_attempt]
  constructor
  · rintro ⟨_, m, ⟨a, rfl, ha⟩, h⟩
    exact ⟨a, m, ha, h⟩
  · rintro ⟨a, m, ha, h⟩
    exact ⟨some a, m, ⟨a, rfl, ha⟩, h⟩

end Reads

/-! ## Repetitions -/

/-- Rounds of a repetition one after the other, each but the last leaving fewer tokens. -/
inductive Loops (round : σ → Rule (Round σ)) : σ → Reader → σ → Reader → Prop
  | stop {x y : σ} {r s : Reader} : (round x).Reads r (.stop y) s → Loops round x r y s
  | again {x y z : σ} {r m s : Reader} : (round x).Reads r (.again y) m → m.rest.length < r.rest.length →
      Loops round y m z s → Loops round x r z s

variable {round : σ → Rule (Round σ)} [∀ s, Honest (round s)]

theorem reads_rounds_succ {n : Nat} {x z : σ} {r s : Reader} :
    (rounds round (n + 1) x).Reads r z s ↔ (round x).Reads r (.stop z) s ∨
      ∃ y m, (round x).Reads r (.again y) m ∧ (rounds round n y).Reads m z s := by
  change (round x >>= _).Reads r z s ↔ _
  rw [@reads_bind _ _ _ _ _ _ _ _ (by rintro (y | y) <;> infer_instance)]
  constructor
  · rintro ⟨y | y, m, h1, h2⟩
    · exact .inr ⟨y, m, h1, h2⟩
    · obtain ⟨rfl, rfl⟩ := reads_rulePure.1 h2
      exact .inl h1
  · rintro (h | ⟨y, m, h1, h2⟩)
    · exact ⟨.stop z, s, h, reads_rulePure.2 ⟨rfl, rfl⟩⟩
    · exact ⟨.again y, m, h1, h2⟩

theorem Loops.reads_rounds {x z : σ} {r s : Reader} (h : Loops round x r z s) :
    ∀ n, r.rest.length < n → (rounds round n x).Reads r z s := by
  induction h with
  | stop h =>
    intro n hn
    obtain ⟨n, rfl⟩ := Nat.exists_eq_succ_of_ne_zero (Nat.ne_of_gt (Nat.zero_lt_of_lt hn))
    exact reads_rounds_succ.2 (.inl h)
  | again h hlt _ ih =>
    intro n hn
    obtain ⟨n, rfl⟩ := Nat.exists_eq_succ_of_ne_zero (Nat.ne_of_gt (Nat.zero_lt_of_lt hn))
    exact reads_rounds_succ.2 (.inr ⟨_, _, h, ih n (by omega)⟩)

theorem Loops.reads {x z : σ} {r s : Reader} (h : Loops round x r z s) (hr : r.rest.length ≤ r.budget) :
    (loop round x).Reads r z s :=
  h.reads_rounds (r.budget + 1) (by omega)

/-- Repetitions whose rounds read the same read the same. -/
theorem reads_loop_congr {round' : σ → Rule (Round σ)} [∀ s, Honest (round' s)]
    (h : ∀ {x r y s}, (round x).Reads r y s ↔ (round' x).Reads r y s) {x z : σ} {r s : Reader} :
    (loop round x).Reads r z s ↔ (loop round' x).Reads r z s := by
  have key : ∀ n x r, (rounds round n x).Reads r z s ↔ (rounds round' n x).Reads r z s := by
    intro n
    induction n with
    | zero => exact fun x r => Iff.rfl
    | succ n ih =>
      intro x r
      simp only [reads_rounds_succ, h, ih]
  exact key (r.budget + 1) x r

/-- What holds before a repetition and is kept by its rounds leads to what the last round gives, if the
rounds that do not end it leave fewer tokens. -/
theorem Reads.of_loop {x z : σ} {r s : Reader} {P : σ → Reader → Prop} {Q : σ → Reader → Prop}
    (h : (loop round x).Reads r z s) (hr : r.rest.length ≤ r.budget) (hP : P x r)
    (again : ∀ {x r y m}, P x r → (round x).Reads r (.again y) m → P y m ∧ m.rest.length < r.rest.length)
    (stop : ∀ {x r y m}, P x r → (round x).Reads r (.stop y) m → Q y m) : Q z s := by
  have key : ∀ n x r, r.rest.length < n → P x r → (rounds round n x).Reads r z s → Q z s := by
    intro n
    induction n with
    | zero => intro x r hn; omega
    | succ n ih =>
      intro x r hn hP h
      rcases reads_rounds_succ.1 h with h | ⟨y, m, h1, h2⟩
      · exact stop hP h
      · obtain ⟨hP', hlt⟩ := again hP h1
        exact ih y m (by omega) hP' h2
  exact key (r.budget + 1) x r (by omega) hP h

end Rule
end SemFront
