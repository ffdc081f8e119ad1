/-
Where problems are told of while a source is read. A rule reports about its current token or the next one,
so what was reported lies before the current token, except for what was reported about these two. A reader
is `Clear` where nothing has been told twice so far and the problems at these two tokens are of given
kinds; what a rule may report next then depends on these kinds only, and moving on forgets them.

Three things are told again: at the end of the input a semicolon and a closing brace that are missing, and
a comprehension that is wrong in itself and as a part of another one. To tell them apart, a `Vantage`
remembers what was known at some place, and what was reported since is described from there.
-/
import SemFront.Proofs.Placement.Rule

namespace SemFront

/-! ## Problems that agree -/

namespace GrammarError

/-- Two errors that say the same of the same place. -/
def Agrees (d e : GrammarError) : Prop :=
  d.code = e.code ∧ d.expected = e.expected ∧ d.span.start = e.span.start

/-- What lets `e` be told behind an error `d` that it agrees with. At the end of the input, which is at
`last`, each statement that was cut off lacks its semicolon and each open brace the closing one; and a
comprehension may be wrong in itself and as a part of another one. -/
def Excused (last : Int) (d e : GrammarError) : Prop :=
  e.span.start = last ∧ (e.code = "SYNTAX_MISSING_SEMICOLON" ∨
    e.expected = Wanted.kindText (.punct .rbrace) ∧ d.related ≠ e.related) ∨
  e.code = "STRUCTURAL_COMPREHENSION" ∧ d.message ≠ e.message

end GrammarError

/-- A flaw in the number or the order of the parts of a comprehension, told of at one of them. -/
def ComprehensionFlaw.isOfPart : ComprehensionFlaw → Bool
  | .manyGenerators | .manyConstraints | .constraintFirst => true
  | .noGenerator | .noConstraint => false

namespace Problem

/-- Where a problem is told of. -/
def site (p : Problem) : Int := p.error.span.start

def isPartFlaw : Problem → Bool
  | .comprehension flaw _ => flaw.isOfPart
  | _ => false

theorem repeats_iff {p q : Problem} : p.repeats q = true ↔ p.error.Agrees q.error := by
  simp [repeats, GrammarError.Agrees, and_assoc]

/-- Something is missing in front of a token. -/
def Missing (p : Problem) : Prop :=
  p.error.code = "SYNTAX_EXPECTED_TOKEN" ∨ p.error.code = "SYNTAX_MISSING_SEMICOLON"

/-- Another token is asked for, other than a closing brace. -/
def Asks (p : Problem) : Prop :=
  p.error.code = "SYNTAX_EXPECTED_TOKEN" ∧ p.error.expected ≠ Wanted.kindText (.punct .rbrace)

theorem Asks.missing {p : Problem} (h : p.Asks) : p.Missing := .inl h.1

theorem Missing.of_agrees {p q : Problem} (h : p.Missing) (ha : p.error.Agrees q.error) : q.Missing := by
  unfold Missing at h ⊢
  rwa [← ha.1]

theorem not_missing_unexpected {c : Context} {t : Token} : ¬(unexpected c t).Missing := by
  simp [Missing, error]

theorem not_missing_comprehension {f : ComprehensionFlaw} {t : Span} : ¬(comprehension f t).Missing := by
  simp [Missing, error]

end Problem

/-! ## Readers and what was reported -/

/-- The problems reported so far. -/
def Reader.problems (r : Reader) : List Problem := r.reports.toList.map Report.problem

/-- What a problem is like that was reported about a text from `b` on: it tells of nothing before, and
what it tells of at `b` is no part of a comprehension. -/
structure Problem.Since (b : Int) (p : Problem) : Prop where
  site : b ≤ p.site
  related : ∀ s ∈ p.error.related, b ≤ s.1.start
  part : p.site = b → p.isPartFlaw = false

/-- A problem that is about its own place only, and no part of a comprehension. -/
structure Problem.IsPlain (p : Problem) : Prop where
  related : p.error.related = []
  part : p.isPartFlaw = false

theorem Problem.IsPlain.since {b : Int} {p : Problem} (h : p.IsPlain) (hb : b ≤ p.site) : p.Since b where
  site := hb
  related := by
    rw [h.related]
    exact fun _ hs => absurd hs List.not_mem_nil
  part _ := h.part

/-- A place on the way of a reader through a text: what was known there, and where it was. -/
structure Vantage where
  text : List Char
  origin : Reader
  placed : origin.Placed text
  known : List Problem
  since : Int

/-- The vantage at another reader on the way: what has been reported there is known. -/
def Vantage.at (W : Vantage) (r : Reader) (b : Int) : Vantage := { W with known := r.problems, since := b }

/-- No problem at all. -/
def Nothing (_ : Problem) : Prop := False

/-- Any problem. -/
def Anything (_ : Problem) : Prop := True

/-- The tokens up to `b` had been looked at when a problem was reported. -/
def Vantage.Saw (W : Vantage) (b : Int) (q : Report) : Prop :=
  ∃ m : Reader, W.origin.Leads m ∧ m.reach = q.reach ∧ b ≤ m.advance.start

/-- A reader on the way from a vantage that has told nothing twice. What was reported lies before its
current token, or is `here` at that token or `next` at the one behind it; when it was reported, the
tokens up to it and to what had been reported before had been looked at. -/
structure Reader.Clear (W : Vantage) (here next : Problem → Prop) (r : Reader) : Prop where
  leads : W.origin.Leads r
  since : W.since ≤ r.start
  sited : ∀ p ∈ r.problems, p.site < r.start ∨ p.site = r.start ∧ here p ∨ p.site = r.advance.start ∧ next p
  known : ∀ p ∈ r.problems, p ∈ W.known ∨ p.Since W.since
  tidy : r.problems.Pairwise fun p q => p.error.Agrees q.error → p.error.Excused W.text.length q.error
  seen : ∀ q ∈ r.reports.toList, W.Saw q.problem.site q
  seenBefore : r.reports.toList.Pairwise fun p q => W.Saw p.problem.site q

namespace Reader

variable {W : Vantage} {here here' next next' : Problem → Prop} {r s : Reader} {p : Problem}

@[simp] theorem problems_report : (r.report p).problems = r.problems ++ [p] := by
  simp [problems, report]

namespace Clear

theorem placed (h : r.Clear W here next) : r.Placed W.text := h.leads.placed W.placed

theorem mono (h : r.Clear W here next) (hhere : ∀ p, here p → here' p) (hnext : ∀ p, next p → next' p) :
    r.Clear W here' next' where
  leads := h.leads
  since := h.since
  sited p hp := (h.sited p hp).imp_right (.imp (.imp_right (hhere p)) (.imp_right (hnext p)))
  known := h.known
  tidy := h.tidy
  seen := h.seen
  seenBefore := h.seenBefore

theorem anew {b : Int} (h : r.Clear W here next) (hb : b ≤ r.start) : r.Clear (W.at r b) here next where
  leads := h.leads
  since := hb
  sited := h.sited
  known _ hp := .inl hp
  tidy := h.tidy
  seen := h.seen
  seenBefore := h.seenBefore

/-- A reader that moved on without a report has told nothing twice either. -/
theorem move (h : r.Clear W here next) (hl : r.Leads s) (hrep : s.reports = r.reports)
    (hsited : ∀ p ∈ r.problems, p.site < s.start ∨ p.site = s.start ∧ here' p ∨ p.site = s.advance.start ∧ next' p) :
    s.Clear W here' next' := by
  have hprob : s.problems = r.problems := by
    unfold problems
    rw [hrep]
  refine ⟨h.leads.trans hl, Int.le_trans h.since (h.placed.start_mono hl), ?_, ?_, ?_, ?_, ?_⟩
  · rw [hprob]
    exact hsited
  · rw [hprob]
    exact h.known
  · rw [hprob]
    exact h.tidy
  · rw [hrep]
    exact h.seen
  · rw [hrep]
    exact h.seenBefore

/-- A reader that looked ahead stands where it stood. -/
theorem stay (h : r.Clear W here next) (hl : r.Leads s) (hs : r.Looked s) (hrep : s.reports = r.reports) :
    s.Clear W here next := by
  refine h.move hl hrep ?_
  unfold start
  rw [hs.current, hs.advance.current]
  exact h.sited

theorem start_lt (h : r.Clear W here next) (hk : r.current.kind ≠ .eof) (hs : r.advance.Leads s) :
    r.start < s.start := by
  have hlt : r.start < r.stop := (h.placed.wf.current_wf hk).nonempty
  exact Int.lt_of_lt_of_le hlt (h.placed.stop_le_next hs)

/-- Behind the current token, what was told of the next one is all that may be told of the current one. -/
theorem pass (h : r.Clear W here next) (hk : r.current.kind ≠ .eof) (hs : r.advance.Leads s)
    (hrep : s.reports = r.reports) : s.Clear W next Nothing := by
  have hlt := h.start_lt hk hs
  have hle := h.placed.advance.start_mono hs
  refine h.move hs.of_advance hrep fun p hp => ?_
  rcases h.sited p hp with hp | ⟨hp, -⟩ | ⟨hp, hnext⟩
  · exact .inl (Int.lt_trans hp hlt)
  · exact .inl (hp ▸ hlt)
  · rcases Int.lt_or_eq_of_le hle with hlt' | heq
    · exact .inl (hp ▸ hlt')
    · exact .inr (.inl ⟨hp.trans heq, hnext⟩)

/-- Nothing lies behind the end of the input. -/
theorem atEnd (h : r.Clear W here next) (hk : r.current.kind = .eof) (hl : r.Leads s)
    (hrep : s.reports = r.reports) : s.Clear W Anything Nothing := by
  have hrest := h.placed.wf.rest_eq_nil hk
  have hcur : ∀ {m : Reader}, r.Leads m → m.start = r.start := by
    intro m hm
    unfold start
    rw [hm.current_of_length (by rw [hrest]; exact Nat.zero_le _)]
  refine h.move hl hrep fun p hp => ?_
  rw [hcur hl]
  rcases h.sited p hp with hp | ⟨hp, -⟩ | ⟨hp, -⟩
  · exact .inl hp
  · exact .inr (.inl ⟨hp, trivial⟩)
  · exact .inr (.inl ⟨hp.trans (hcur (.advance r)), trivial⟩)

/-- What is told of lies no further than the next token. -/
theorem le_next {b : Int} {P Q : Prop} (h : r.Clear W here next)
    (hb : b < r.start ∨ b = r.start ∧ P ∨ b = r.advance.start ∧ Q) : b ≤ r.advance.start := by
  have hle := h.placed.start_mono (.advance r)
  omega

/-- A problem that agrees with none before it, unless it is excused, may be reported about a token up to
the next one. -/
theorem report (h : r.Clear W here next) (hsince : p.Since W.since)
    (hfresh : ∀ q ∈ r.problems, q.error.Agrees p.error → q.error.Excused W.text.length p.error)
    (hsite : p.site < r.start ∨ p.site = r.start ∧ here' p ∨ p.site = r.advance.start ∧ next' p)
    (hhere : ∀ q, here q → here' q) (hnext : ∀ q, next q → next' q) : (r.report p).Clear W here' next' := by
  have hh := h.mono hhere hnext
  have hsaw : W.Saw p.site ⟨p, r.reach⟩ := ⟨r, h.leads, rfl, h.le_next hsite⟩
  refine ⟨h.leads.trans (.report r p), h.since, ?_, ?_, ?_, ?_, ?_⟩
  · intro q hq
    rw [problems_report, List.mem_append, List.mem_singleton] at hq
    rcases hq with hq | rfl
    · exact hh.sited q hq
    · exact hsite
  · intro q hq
    rw [problems_report, List.mem_append, List.mem_singleton] at hq
    rcases hq with hq | rfl
    · exact h.known q hq
    · exact .inr hsince
  · rw [problems_report, List.pairwise_append]
    refine ⟨h.tidy, List.pairwise_singleton _ _, fun q hq q' hq' => ?_⟩
    rw [List.mem_singleton.1 hq']
    exact hfresh q hq
  · intro q hq
    unfold Reader.report at hq
    rw [Array.toList_push, List.mem_append, List.mem_singleton] at hq
    rcases hq with hq | rfl
    · exact h.seen q hq
    · exact hsaw
  · unfold Reader.report
    rw [Array.toList_push, List.pairwise_append]
    refine ⟨h.seenBefore, List.pairwise_singleton _ _, fun q hq q' hq' => ?_⟩
    rw [List.mem_singleton.1 hq']
    exact ⟨r, h.leads, rfl, h.le_next (h.sited _ (List.mem_map_of_mem hq))⟩

theorem report_here (h : r.Clear W here next) (hp : p.IsPlain) (hsite : p.site = r.start)
    (hfresh : ∀ q, here q ∨ next q → ¬q.error.Agrees p.error) :
    (r.report p).Clear W (fun q => here q ∨ q = p) next := by
  refine h.report (hp.since (hsite ▸ h.since)) (fun q hq hqp => ?_) (.inr (.inl ⟨hsite, .inr rfl⟩)) (fun _ => .inl)
    fun _ => id
  have hsite' : q.site = r.start := hqp.2.2.trans hsite
  rcases h.sited q hq with hlt | ⟨-, hq⟩ | ⟨-, hq⟩
  · omega
  · exact absurd hqp (hfresh q (.inl hq))
  · exact absurd hqp (hfresh q (.inr hq))

theorem report_next (h : r.Clear W here next) (hp : p.IsPlain) (hk : r.current.kind ≠ .eof)
    (hsite : p.site = r.advance.start) (hfresh : ∀ q, next q → ¬q.error.Agrees p.error) :
    (r.report p).Clear W here (fun q => next q ∨ q = p) := by
  have hlt := h.start_lt hk (.refl _)
  have hsince : W.since ≤ p.site := by
    have := h.since
    omega
  refine h.report (hp.since hsince) (fun q hq hqp => ?_) (.inr (.inr ⟨hsite, .inr rfl⟩)) (fun _ => id) fun _ => .inl
  have hsite' : q.site = r.advance.start := hqp.2.2.trans hsite
  rcases h.sited q hq with hlt | ⟨hq, -⟩ | ⟨-, hq⟩
  · omega
  · omega
  · exact absurd hqp (hfresh q hq)

end Clear
end Reader

/-! ## Where a rule leaves a reader -/

/-- A token inside of statements and declarations: neither the first nor the last of one, and none that
parts them. -/
def Kind.isInside : Kind → Bool
  | .punct .lbrace | .punct .rbrace | .punct .semicolon | .punct .comma | .eof | .illegal => false
  | k => !k.startsStmt && !k.startsDecl

namespace Reader

variable {W : Vantage} {E here next : Problem → Prop} {K : Kind → Bool} {r s : Reader} {w : Wanted}

/-- A reader on a token that nothing has been told of, and with nothing told of the next one. -/
def Fresh (W : Vantage) (r : Reader) : Prop := r.Clear W Nothing Nothing

/-- A reader on the last token of what was read. -/
structure Done (W : Vantage) (K : Kind → Bool) (r : Reader) : Prop where
  clear : r.Clear W Anything Nothing
  kind : K r.current.kind = true

/-- A reader where a rule has failed: if the problem is with the next token, then the current one is no
place to go on from. -/
def Stuck (W : Vantage) (K : Kind → Bool) (r : Reader) : Prop :=
  r.Clear W Anything fun p => p.Asks ∧ K r.current.kind = true ∧
    (p.error.expected = Wanted.kindText (.punct .colon) → r.current.kind = .ident)

theorem Clear.stuck (h : r.Clear W here Nothing) : r.Stuck W K := h.mono (fun _ _ => trivial) fun _ => False.elim

theorem Clear.done (h : r.Clear W here Nothing) (hk : K r.current.kind = true) : r.Done W K :=
  ⟨h.mono (fun _ _ => trivial) fun _ h => h, hk⟩

theorem Done.weaken {K' : Kind → Bool} (h : r.Done W K) (hK : ∀ k, K k = true → K' k = true) : r.Done W K' :=
  ⟨h.clear, hK _ h.kind⟩

theorem Stuck.weaken {K' : Kind → Bool} (h : r.Stuck W K) (hK : ∀ k, K k = true → K' k = true) : r.Stuck W K' :=
  h.mono (fun _ h => h) fun _ h => ⟨h.1, hK _ h.2.1, h.2.2⟩

theorem Fresh.clear (h : r.Fresh W) : r.Clear W E Nothing := h.mono (fun _ => False.elim) fun _ h => h

/-- From a fresh token on, every token is fresh. -/
theorem Fresh.move (h : r.Fresh W) (hl : r.Leads s) (hrep : s.reports = r.reports) : s.Fresh W := by
  refine Clear.move h hl hrep fun p hp => ?_
  rcases h.sited p hp with hp | ⟨-, hp⟩ | ⟨-, hp⟩
  · exact .inl (Int.lt_of_lt_of_le hp (h.placed.start_mono hl))
  · exact hp.elim
  · exact hp.elim

theorem Fresh.advance (h : r.Fresh W) : r.advance.Fresh W := h.move (.advance r) rfl

theorem Clear.advance (h : r.Clear W here Nothing) (hk : r.current.kind ≠ .eof) : r.advance.Fresh W :=
  h.pass hk (.refl _) rfl

/-- Moving on leaves nothing told of the token behind. -/
theorem Clear.advance_any (h : r.Clear W here next) : r.advance.Clear W Anything Nothing := by
  by_cases hk : r.current.kind = .eof
  · exact h.atEnd hk (.advance r) rfl
  · exact (h.pass hk (.refl _) rfl).mono (fun _ _ => trivial) fun _ h => h

theorem Clear.refuse_here (h : r.Clear W E Nothing)
    (hE : ∀ q, E q → ¬q.error.Agrees (Problem.expected w r.current).error) :
    (r.report (.expected w r.current)).Stuck W K := by
  refine (h.report_here ⟨rfl, rfl⟩ rfl ?_).stuck
  rintro q (hq | hq)
  · exact hE q hq
  · exact hq.elim

theorem Fresh.refuse_here (h : r.Fresh W) : (r.report (.expected w r.current)).Stuck W K :=
  Clear.refuse_here h fun _ => False.elim

namespace Done

variable (hK : K .eof = false)
include hK

theorem notEof (h : r.Done W K) : r.current.kind ≠ .eof := by
  intro e
  have hk := h.kind
  rw [e, hK] at hk
  cases hk

theorem advance (h : r.Done W K) : r.advance.Fresh W := h.clear.advance (h.notEof hK)

/-- Behind what was read, another token may be asked for. -/
theorem refuse_next (h : r.Done W K) (hw : w.text ≠ Wanted.kindText (.punct .rbrace))
    (hc : w.text = Wanted.kindText (.punct .colon) → r.current.kind = .ident) :
    (r.report (.expected w r.advance.current)).Stuck W K := by
  refine (h.clear.report_next ⟨rfl, rfl⟩ (h.notEof hK) rfl fun _ => False.elim).mono (fun _ h => h) ?_
  rintro q (hq | rfl)
  · exact hq.elim
  · exact ⟨⟨rfl, hw⟩, h.kind, hc⟩

theorem refuse (h : r.Done W K)
    (hw : w.text ≠ Wanted.kindText (.punct .rbrace) ∧ w.text ≠ Wanted.kindText (.punct .colon)) :
    (r.report (.expected w r.advance.current)).Stuck W K :=
  h.refuse_next hK hw.1 fun e => absurd e hw.2

end Done
end Reader

/-- A rule that only looks ahead leaves a reader as clear as it was. -/
theorem Rule.Looks.ensures_clear {x : Rule α} [Honest x] {f : Reader → α} (hx : x.Looks f) {W : Vantage}
    {here next : Problem → Prop} {r : Reader} (h : r.Clear W here next) {Q : α → Reader → Prop} {F : Reader → Prop}
    (hQ : ∀ s, r.Looked s → s.Clear W here next → Q (f r) s) : x.Ensures r Q F := by
  obtain ⟨s, hs, hl⟩ := hx r
  exact .of_ok hs.1 (hQ s hl (h.stay hs.leads hl hs.2))

/-- From a token at which only `E` has been told of, a rule ends where it can be gone on from, or where it
can be recovered from. -/
def Rule.Orderly (E : Problem → Prop) (K : Kind → Bool) (x : Rule α) : Prop :=
  ∀ ⦃W : Vantage⦄ ⦃r : Reader⦄, r.Clear W E Nothing → x.Ensures r (fun _ s => s.Done W K) (fun s => s.Stuck W K)

/-! ## Recovery -/

theorem Reader.WF.notEof_of_next {r : Reader} (hr : r.WF) (h : r.advance.current.kind ≠ .eof) :
    r.current.kind ≠ .eof := by
  intro e
  have hlt := hr.length_advance_of_next h
  rw [hr.rest_eq_nil e] at hlt
  exact absurd hlt (Nat.not_lt_zero _)

theorem Reader.advanceBy_reports : ∀ (n : Nat) (r : Reader), (advanceBy n r).reports = r.reports
  | 0, _ => rfl
  | n + 1, r => advanceBy_reports n r.advance

namespace Rule

variable {unit : SyncUnit} {start : Token} {W : Vantage} {here next : Problem → Prop} {m : Reader}

theorem skipOf_of_nil (h : m.rest = []) : (skipOf unit start m).count = 0 := by
  unfold skipOf
  rw [h]
  split <;> rfl

theorem ensures_recover_from {Q : Span → Reader → Prop} {F : Reader → Prop}
    (h : ∀ span s, (m.advanceBy (skipOf unit start m).count).Leads s →
      (m.advanceBy (skipOf unit start m).count).Looked s → s.reports = m.reports → Q span s) :
    (recover unit start).Ensures m Q F := by
  -- behind the tokens given up, a function head has been looked at
  let after := m.advanceBy (skipOf unit start m).count
  refine .of_ok rfl (h _ ((if (skipOf unit start m).atFunction then after.afterChain.2 else after).recovered _)
    (.trans ?_ (.recovered _ _)) ⟨?_, ?_⟩ ?_)
  · split
    · exact .look _ _
    · exact .refl _
  · unfold Reader.recovered
    split <;> rfl
  · unfold Reader.recovered
    split <;> rfl
  · unfold Reader.recovered
    split
    · exact Reader.advanceBy_reports _ m
    · exact Reader.advanceBy_reports _ m

/-- Recovery gives up nothing, or it moves on from the current token. -/
theorem recover_clear (h : m.Clear W here next) {F : Reader → Prop} : (recover unit start).Ensures m
    (fun _ s => (skipOf unit start m).count = 0 ∧ m.Looked s ∧ s.Clear W here next ∨
      m.current.kind ≠ .eof ∧ s.Clear W next Nothing) F := by
  refine ensures_recover_from fun span s hl hs hrep => ?_
  cases hn : (skipOf unit start m).count with
  | zero =>
    rw [hn] at hl hs
    exact .inl ⟨rfl, hs, h.stay hl hs hrep⟩
  | succ n =>
    have hk : m.current.kind ≠ .eof := by
      intro e
      rw [skipOf_of_nil (h.placed.wf.rest_eq_nil e)] at hn
      cases hn
    rw [hn] at hl
    exact .inr ⟨hk, h.pass hk ((Reader.Leads.advanceBy n m.advance).trans hl) hrep⟩

end Rule
end SemFront
