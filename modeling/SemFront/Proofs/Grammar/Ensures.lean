/-
What a rule ensures from a reader on, whether it reports or not: one condition on the value and the
reader where it succeeds, another on the reader where it fails. Both are opened along the steps of the
rule. A repetition whose rounds leave fewer tokens (`Progresses`) ensures what its last round ensures,
so it is never cut off by the budget.
-/
import SemFront.Proofs.Grammar.Spells

namespace SemFront

namespace Reader

variable {r s : Reader}

theorem Leads.current_of_length (h : r.Leads s) (hl : r.rest.length ≤ s.rest.length) : s.current = r.current := by
  unfold current
  rw [h.rest.eq_of_length_le hl, h.eof]

theorem Leads.length_advance_le (h : r.Leads s) : s.advance.rest.length ≤ r.advance.rest.length := by
  unfold Reader.advance
  rw [List.length_tail, List.length_tail]
  exact Nat.sub_le_sub_right h.length_le 1

theorem advanceBy_rest : ∀ (n : Nat) (r : Reader), (advanceBy n r).rest = r.rest.drop n
  | 0, r => rfl
  | n + 1, r => by
    rw [advanceBy, advanceBy_rest n r.advance, advance, ← List.drop_one, List.drop_drop, Nat.add_comm]

namespace WF

theorem length_pos (hr : r.WF) (h : r.current.kind ≠ .eof) : 0 < r.rest.length := by
  have := hr.length_advance h
  omega

/-- Where another token follows, moving on leaves fewer tokens. -/
theorem length_advance_of_next (hr : r.WF) (h : r.advance.current.kind ≠ .eof) :
    r.advance.rest.length < r.rest.length := by
  have h1 := hr.advance.length_pos h
  have h2 : r.advance.rest.length = r.rest.length - 1 := List.length_tail
  omega

end WF
end Reader

namespace Rule

/-- Read from `r`, a rule ends with `Q` where it succeeds and with `F` where it fails. -/
def Ensures (x : Rule α) (r : Reader) (Q : α → Reader → Prop) (F : Reader → Prop) : Prop :=
  match x r with
  | .ok a s => Q a s
  | .fail s => F s

section Ensures

variable {x : Rule α} {r : Reader} {Q Q' : α → Reader → Prop} {F F' : Reader → Prop}

instance [∀ a s, Decidable (Q a s)] [∀ s, Decidable (F s)] : Decidable (x.Ensures r Q F) :=
  match h : x r with
  | .ok a s => decidable_of_iff (Q a s) (by rw [Ensures, h])
  | .fail s => decidable_of_iff (F s) (by rw [Ensures, h])

theorem Ensures.ok {a : α} {s : Reader} (h : x.Ensures r Q F) (e : x r = .ok a s) : Q a s := by
  unfold Ensures at h
  rwa [e] at h

theorem Ensures.fail {s : Reader} (h : x.Ensures r Q F) (e : x r = .fail s) : F s := by
  unfold Ensures at h
  rwa [e] at h

theorem Ensures.of_ok {a : α} {s : Reader} (e : x r = .ok a s) (h : Q a s) : x.Ensures r Q F := by
  unfold Ensures
  rwa [e]

theorem Ensures.of_fail {s : Reader} (e : x r = .fail s) (h : F s) : x.Ensures r Q F := by
  unfold Ensures
  rwa [e]

theorem Ensures.exists_ok (h : x.Ensures r Q fun _ => False) : ∃ a s, x r = .ok a s ∧ Q a s := by
  unfold Ensures at h
  split at h
  · rename_i a s e
    exact ⟨a, s, e, h⟩
  · exact h.elim

/-- A rule ends as it ends. -/
theorem Ensures.self : x.Ensures r (fun a s => x r = .ok a s) (fun s => x r = .fail s) := by
  unfold Ensures
  split
  · assumption
  · assumption

/-- A rule bounded by the budget of the reader ensures what it ensures with that bound. -/
theorem Ensures.of_budget {x : Nat → Rule α} (h : (x (r.budget + 1)).Ensures r Q F) :
    Ensures (fun r => x (r.budget + 1) r) r Q F := h

theorem Ensures.mono (h : x.Ensures r Q F) (hQ : ∀ a s, Q a s → Q' a s) (hF : ∀ s, F s → F' s) :
    x.Ensures r Q' F' := by
  unfold Ensures at h ⊢
  split
  · rename_i a s e
    rw [e] at h
    exact hQ a s h
  · rename_i s e
    rw [e] at h
    exact hF s h

theorem Ensures.and (h : x.Ensures r Q F) (h' : x.Ensures r Q' F') :
    x.Ensures r (fun a s => Q a s ∧ Q' a s) (fun s => F s ∧ F' s) := by
  unfold Ensures at h h' ⊢
  split
  · rename_i a s e
    rw [e] at h h'
    exact ⟨h, h'⟩
  · rename_i s e
    rw [e] at h h'
    exact ⟨h, h'⟩

/-- What a rule ensures comes with the fact that it only moved on. -/
theorem Ensures.leads [hx : Honest x] (h : x.Ensures r Q F) :
    x.Ensures r (fun a s => r.Leads s ∧ Q a s) (fun s => r.Leads s ∧ F s) := by
  have hl := hx.leads r
  unfold Ensures at h ⊢
  split
  · rename_i a s e
    rw [e] at h hl
    exact ⟨hl, h⟩
  · rename_i s e
    rw [e] at h hl
    exact ⟨hl, h⟩

/-- An honest rule moves on, if nothing else. -/
theorem Honest.ensures [Honest x] : x.Ensures r (fun _ s => r.Leads s) (fun s => r.Leads s) := by
  have h : x.Ensures r (fun _ _ => True) (fun _ => True) := by
    unfold Ensures
    split <;> trivial
  exact h.leads.mono (fun _ _ h => h.1) (fun _ h => h.1)

/-! ## Steps -/

@[simp] theorem ensures_pure {a : α} : (Pure.pure a : Rule α).Ensures r Q F ↔ Q a r := Iff.rfl

@[simp] theorem ensures_bind {f : α → Rule β} {Q : β → Reader → Prop} :
    (x >>= f).Ensures r Q F ↔ x.Ensures r (fun a m => (f a).Ensures m Q F) F := by
  change (Rule.bind x f).Ensures r Q F ↔ _
  unfold Ensures Rule.bind
  cases x r <;> rfl

@[simp] theorem ensures_fail : (fail : Rule α).Ensures r Q F ↔ F r := Iff.rfl

@[simp] theorem ensures_current {Q : Token → Reader → Prop} : current.Ensures r Q F ↔ Q r.current r := Iff.rfl

@[simp] theorem ensures_peek {Q : Token → Reader → Prop} : peek.Ensures r Q F ↔ Q r.advance.current r := by
  rw [← Reader.peek_eq]
  exact Iff.rfl

@[simp] theorem ensures_ahead {n : Nat} {Q : Token → Reader → Prop} :
    (ahead n).Ensures r Q F ↔ Q (r.ahead n) (r.look n) := Iff.rfl

@[simp] theorem ensures_afterChain {Q : Token → Reader → Prop} :
    afterChain.Ensures r Q F ↔ Q r.afterChain.1 r.afterChain.2 := Iff.rfl

@[simp] theorem ensures_advance {Q : Unit → Reader → Prop} : advance.Ensures r Q F ↔ Q () r.advance := Iff.rfl

@[simp] theorem ensures_report {p : Problem} {Q : Unit → Reader → Prop} :
    (report p).Ensures r Q F ↔ Q () (r.report p) := Iff.rfl

@[simp] theorem ensures_refuse {w : Wanted} {t : Token} :
    (refuse w t : Rule α).Ensures r Q F ↔ F (r.report (.expected w t)) := Iff.rfl

@[simp] theorem ensures_ite {c : Prop} [Decidable c] {y : Rule α} :
    (if c then x else y).Ensures r Q F ↔ if c then x.Ensures r Q F else y.Ensures r Q F := by
  split <;> rfl

@[simp] theorem ensures_expect {k : Kind} {Q : Unit → Reader → Prop} : (expect k).Ensures r Q F ↔
    if r.advance.current.kind = k then Q () r.advance
    else F (r.report (.expected (.token k) r.advance.current)) := by
  simp [expect]

@[simp] theorem ensures_expectWord {w : Wanted} {Q : Unit → Reader → Prop} : (expectWord w).Ensures r Q F ↔
    if r.advance.current.kind.isWord then Q () r.advance else F (r.report (.expected w r.advance.current)) := by
  simp [expectWord]

@[simp] theorem ensures_attempt {Q : Option α → Reader → Prop} :
    x.attempt.Ensures r Q F ↔ x.Ensures r (fun a s => Q (some a) s) (fun s => Q none s) := by
  unfold Ensures Rule.attempt
  dsimp only
  cases x r <;> rfl

theorem Looks.ensures [Honest x] {f : Reader → α} (hx : x.Looks f)
    (h : ∀ s, r.Leads s → r.Looked s → Q (f r) s) : x.Ensures r Q F := by
  obtain ⟨s, hs, hl⟩ := hx r
  exact .of_ok hs.1 (h s hs.leads hl)

end Ensures

/-! ## Repetitions -/

/-- Rounds of a repetition that go on leave fewer tokens. -/
class Progresses (round : σ → Rule (Round σ)) : Prop where
  length_lt : ∀ {x y : σ} {r s : Reader}, r.WF → round x r = .ok (.again y) s → s.rest.length < r.rest.length

/-- What a round ensures: one condition where it goes on, another where it stops. -/
def ofRound (P Q : σ → Reader → Prop) : Round σ → Reader → Prop
  | .again y, s => P y s
  | .stop y, s => Q y s

theorem Progresses.of_ensures {round : σ → Rule (Round σ)} (h : ∀ x r, r.WF → (round x).Ensures r
    (ofRound (fun _ s => s.rest.length < r.rest.length) fun _ _ => True) (fun _ => True)) : Progresses round where
  length_lt hr e := (h _ _ hr).ok e

/-- From `r` on, a round leaves fewer tokens and goes on; or it does nothing, since the current token is one
where the repetition is over. -/
def AdvancesAt (r : Reader) (round : σ → Rule (Round σ)) (ended : Kind → Prop) : Prop :=
  ∀ x, (round x).Ensures r
    (ofRound (fun _ s => s.rest.length < r.rest.length) fun y s => y = x ∧ s = r ∧ ended r.current.kind) fun _ => False

theorem Progresses.of_advances {round : σ → Rule (Round σ)} {ended : Kind → Prop}
    (h : ∀ r, r.WF → AdvancesAt r round ended) : Progresses round where
  length_lt hr e := (h _ hr _).ok e

theorem ensures_rounds_succ {round : σ → Rule (Round σ)} {n : Nat} {x : σ} {r : Reader} {Q : σ → Reader → Prop}
    {F : Reader → Prop} : (rounds round (n + 1) x).Ensures r Q F ↔
      (round x).Ensures r (ofRound (fun y s => (rounds round n y).Ensures s Q F) Q) F := by
  change (round x >>= _).Ensures r Q F ↔ _
  rw [ensures_bind]
  constructor <;>
  · intro h
    refine h.mono ?_ (fun _ h => h)
    rintro (y | y) s hs <;> exact hs

/-- What holds before a repetition and is kept by its rounds leads to what the last round ensures. -/
theorem Ensures.loop {round : σ → Rule (Round σ)} [∀ x, Honest (round x)] [hp : Progresses round]
    {P Q : σ → Reader → Prop} {F : Reader → Prop}
    (hround : ∀ x r, r.WF → P x r → (round x).Ensures r (ofRound P Q) F) {x : σ} {r : Reader} (hr : r.WF)
    (hx : P x r) : (loop round x).Ensures r Q F := by
  have key : ∀ n x r, r.rest.length < n → r.WF → P x r → (rounds round n x).Ensures r Q F := by
    intro n
    induction n with
    | zero => intro x r hn; omega
    | succ n ih =>
      intro x r hn hr hx
      rw [ensures_rounds_succ]
      have h := (hround x r hr hx).leads
      unfold Ensures at h ⊢
      split
      · rename_i o s e
        rw [e] at h
        cases o with
        | again y => exact ih y s (Nat.lt_of_lt_of_le (hp.length_lt hr e) (Nat.le_of_lt_succ hn)) (h.1.wf hr) h.2
        | stop y => exact h.2
      · rename_i s e
        rw [e] at h
        exact h.2
  exact key (r.budget + 1) x r (Nat.lt_succ_of_le hr.budget) hr hx

/-! ## Recovery -/

/-- A token behind the current one is another token of the source. -/
theorem isSame_of_length_lt {r m : Reader} (hr : r.WF) (hl : r.Leads m) (hlt : m.rest.length < r.rest.length) :
    m.current.isSame r.current = false := by
  obtain ⟨us, hus⟩ := hl.rest
  have hord := hr.ordered
  have hwf := hr.tokens
  cases us with
  | nil =>
    rw [← hus] at hlt
    exact absurd hlt (Nat.lt_irrefl _)
  | cons u us =>
    have hcur : r.current = u := by
      unfold Reader.current
      rw [← hus]
      rfl
    rw [← hus] at hord hwf
    have hu := hwf u (by simp)
    rw [hcur]
    unfold Reader.current Token.isSame
    cases hm : m.rest with
    | nil =>
      have hkind : m.eof.kind ≠ u.kind := by
        rw [hl.eof, hr.eof]
        exact fun e => hu.notEof e.symm
      simp [hkind]
    | cons t ts =>
      have hle : u.span.stop ≤ t.span.start := (List.pairwise_cons.1 hord).1 t (by simp [hm])
      have hlt : u.span.start < u.span.stop := hu.nonempty
      have hne : t.span.start ≠ u.span.start := by omega
      simp [hne]

/-- The tokens that recovery gives up. -/
def skipOf (unit : SyncUnit) (start : Token) (r : Reader) : Skip :=
  if r.current.isSame start then skipUnit unit r.rest else skipFrom unit 0 r.rest

theorem ensures_recover {unit : SyncUnit} {start : Token} {r : Reader} {Q : Span → Reader → Prop} {F : Reader → Prop}
    (h : ∀ s, r.Leads s → s.rest = r.rest.drop (skipOf unit start r).count →
      Q (start.span.over (r.rest.take (skipOf unit start r).count)) s) : (recover unit start).Ensures r Q F := by
  refine .of_ok rfl (h _ ?_ ?_)
  · exact (inferInstance : Honest (recover unit start)).leads r
  · change (if (skipOf unit start r).atFunction then _ else _ : Reader).rest = _
    rw [← Reader.advanceBy_rest]
    split <;> rfl

theorem skipUnit_pos {unit : SyncUnit} {t : Token} {ts : List Token} : 0 < (skipUnit unit (t :: ts)).count := by
  rw [skipUnit]
  split
  · exact Nat.one_pos
  · split
    · exact Nat.one_pos
    · split <;> exact Nat.succ_pos _

end Rule
end SemFront
