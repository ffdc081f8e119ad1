/-
Programs tell nothing twice but what the end of the input cuts off and what is wrong with comprehensions
inside each other. Declarations and members are given up one by one. Reading goes on behind the token at
which one of them failed, or at that token if another one begins there: then a problem with the token behind
is none that the next declaration would tell of.
-/
import Mathlib.Data.List.Chain
import SemFront.Proofs.Grammar.Braces
import SemFront.Proofs.Grammar.Limit
import SemFront.Proofs.Repeats.Param

namespace SemFront

open Problem (Missing Asks)

/-- A token that a declaration or a member may start with. -/
def Kind.mayStart (k : Kind) : Bool := k = .ident || k.startsDecl

/-- A colon or a semicolon is asked for. -/
def Problem.AsksMark (p : Problem) : Prop := p.Asks ∧
  (p.error.expected = Wanted.kindText (.punct .colon) ∨ p.error.expected = Wanted.kindText (.punct .semicolon))

/-- Where a declaration or a member that began at `r` has failed. Nothing is told of a token that another one
may start with but that it was not asked for; and of the token behind it only if the current one is inside of
what was read, or is a word of an IRI. -/
def Reader.Failed (W : Vantage) (r s : Reader) : Prop :=
  s.Clear W (fun p => s.rest.length = r.rest.length ∨ s.current.kind.mayStart = false ∨ p.Asks)
    fun p => p.Asks ∧ (s.rest.length = r.rest.length ∨ s.current.kind.isInside = true) ∨
      p.AsksMark ∧ s.current.kind.isWord = true

/-- Where a declaration or a member begins, or where what is around it ends. -/
def UnitStart (unit : SyncUnit) (W : Vantage) (r : Reader) : Prop :=
  r.Clear W
    (fun p => p.Missing ∧ (unit = .member → p.error.expected ≠ Wanted.kindText (.punct .rbrace)) ∨
      r.current.kind = .eof ∨ unit = .member ∧ r.current.kind = .punct .rbrace)
    fun p => p.Asks ∧ (boundary? unit r.current r.advance.rest).isSome = true ∧
      (r.current.kind.startsDecl = true → p.AsksMark)

namespace Rule

variable {W : Vantage} {r m s : Reader} {here next : Problem → Prop} {unit : SyncUnit} {w : Wanted}

/-! ## Recovery -/

theorem isSame_self (t : Token) : t.isSame t = true := by simp [Token.isSame]

/-- Recovery stays at a token only if that is not the first of the unit, and ends what is around the unit or
begins another one. -/
theorem skipOf_eq_zero {start : Token} (hu : unit ≠ .statement) (hm : m.WF) (h : (skipOf unit start m).count = 0) :
    m.current.kind = .eof ∨ m.current.isSame start = false ∧ (unit = .member ∧ m.current.kind = .punct .rbrace ∨
      (boundary? unit m.current m.advance.rest).isSome = true) := by
  by_cases hk : m.current.kind = .eof
  · exact .inl hk
  · refine .inr ?_
    unfold skipOf at h
    rw [hm.rest_eq hk] at h
    split at h
    · exact absurd h (Nat.ne_of_gt skipUnit_pos)
    · rename_i hsame
      refine ⟨Bool.eq_false_iff.2 hsame, ?_⟩
      unfold skipFrom at h
      split at h
      · exact absurd h (Nat.succ_ne_zero _)
      · split at h
        · rename_i hbrace
          refine .inl ⟨?_, hbrace⟩
          cases unit with
          | statement => exact absurd rfl hu
          | member => rfl
          | declaration => exact absurd h Nat.one_ne_zero
        · split at h
          · exact absurd h (Nat.succ_ne_zero _)
          · split at h
            · exact absurd h Nat.one_ne_zero
            · split at h
              · rename_i hb
                exact .inr (by rw [hb]; rfl)
              · exact absurd h (Nat.succ_ne_zero _)

theorem mayStart_of_boundary {t : Token} {ts : List Token} (hu : unit ≠ .statement)
    (h : (boundary? unit t ts).isSome = true) : t.kind.mayStart = true := by
  unfold Kind.mayStart
  by_cases hdecl : t.kind.startsDecl = true
  · simp [hdecl]
  · have hident : t.kind = .ident := by
      unfold boundary? startsFunction at h
      cases unit with
      | statement => exact absurd rfl hu
      | member =>
        by_contra hk
        simp [hdecl, hk] at h
      | declaration =>
        by_contra hk
        simp [hdecl, hk] at h
    simp [hident]

theorem mayStart_of_not_isWord {k : Kind} (h : ¬k.isWord = true) : k.mayStart = false := by
  cases k with
  | ident => exact absurd rfl h
  | keyword k => exact absurd rfl h
  | _ => rfl

theorem not_isInside_of_startsDecl {k : Kind} (h : k.startsDecl = true) : k.isInside = false := by
  unfold Kind.startsDecl at h
  split at h
  · rfl
  · rfl
  · rfl
  · cases h

/-- Behind a unit that failed, another one begins. -/
theorem recover_unit (hu : unit ≠ .statement) (hl : r.Leads m) (h : r.Failed W m) {F : Reader → Prop} :
    (recover unit r.current).Ensures m (fun _ s => UnitStart unit W s) F := by
  refine (recover_clear h).mono ?_ (fun _ h => h)
  rintro span s (⟨hz, hs, hc⟩ | ⟨-, hc⟩)
  · -- no unit begins at the token at which another one began and failed
    have hmoved : m.current.isSame r.current = false → m.rest.length ≠ r.rest.length := by
      intro hsame hlen
      rw [hl.current_of_length (Nat.le_of_eq hlen.symm), isSame_self] at hsame
      cases hsame
    have hcur := hs.current
    have hrest : s.advance.rest = m.advance.rest := hs.advance.rest
    rcases skipOf_eq_zero hu h.placed.wf hz with hk | ⟨hsame, hk⟩
    · refine (hc.atEnd (by rw [hcur, hk]) (.refl s) rfl).mono (fun _ _ => .inr (.inl ?_)) fun _ => False.elim
      rw [hcur, hk]
    · have hne := hmoved hsame
      rcases hk with ⟨rfl, hk⟩ | hk
      · refine hc.mono (fun _ _ => .inr (.inr ⟨rfl, by rw [hcur, hk]⟩)) fun p hp => ?_
        rw [hk] at hp
        rcases hp with ⟨-, hp | hp⟩ | ⟨-, hp⟩
        · exact absurd hp hne
        · cases hp
        · cases hp
      · refine hc.mono (fun p hp => .inl ?_) fun p hp => ?_
        · have hstart := mayStart_of_boundary hu hk
          rcases hp with hp | hp | hp
          · exact absurd hp hne
          · rw [hstart] at hp
            cases hp
          · exact ⟨hp.missing, fun _ => hp.2⟩
        · rw [hcur, hrest]
          rcases hp with ⟨hp, hin | hin⟩ | ⟨hp, -⟩
          · exact absurd hin hne
          · refine ⟨hp, hk, fun hdecl => ?_⟩
            rw [not_isInside_of_startsDecl hdecl] at hin
            cases hin
          · exact ⟨hp.1, hk, fun _ => hp⟩
  · exact hc.mono (fun p hp => .inl ⟨hp.elim (·.1.missing) (·.1.1.missing), fun _ => hp.elim (·.1.2) (·.1.1.2)⟩)
      fun _ => False.elim

/-- A rule fails where another token is asked for than the next one. -/
theorem failed_of_refuse (h : m.Clear W here next) (hne : m.current.kind ≠ .eof)
    (hw : w.text ≠ Wanted.kindText (.punct .rbrace))
    (hhere : ∀ p, here p → m.rest.length = r.rest.length ∨ m.current.kind.mayStart = false ∨ p.Asks)
    (hnext : ∀ p, next p → p.Asks ∧ p.error.expected ≠ w.text)
    (hk : m.rest.length = r.rest.length ∨ m.current.kind.isInside = true) :
    r.Failed W (m.report (.expected w m.advance.current)) := by
  refine (h.report_next (p := .expected w m.advance.current) ⟨rfl, rfl⟩ hne rfl
    fun q hq hqp => (hnext q hq).2 hqp.2.1).mono hhere ?_
  rintro p (hp | rfl)
  · exact .inl ⟨(hnext p hp).1, hk⟩
  · exact .inl ⟨⟨rfl, hw⟩, hk⟩

theorem failed_of_fresh (h : m.Fresh W) (hk : m.current.kind.isInside = true)
    (hw : w.text ≠ Wanted.kindText (.punct .rbrace)) : r.Failed W (m.report (.expected w m.advance.current)) :=
  failed_of_refuse h (fun e => by rw [e] at hk; cases hk) hw (fun _ => False.elim) (fun _ => False.elim) (.inr hk)

/-- Behind a word of an IRI, which may be any keyword, only a colon or a semicolon is asked for. -/
theorem failed_of_word (h : m.Fresh W) (hk : m.current.kind.isWord = true)
    (hw : w.text = Wanted.kindText (.punct .colon) ∨ w.text = Wanted.kindText (.punct .semicolon)) :
    r.Failed W (m.report (.expected w m.advance.current)) := by
  have hne : m.current.kind ≠ .eof := by
    intro e
    rw [e] at hk
    cases hk
  refine (h.report_next (p := .expected w m.advance.current) ⟨rfl, rfl⟩ hne rfl fun _ => False.elim).mono
    (fun _ => False.elim) ?_
  rintro p (hp | rfl)
  · exact hp.elim
  · refine .inr ⟨⟨⟨rfl, ?_⟩, hw⟩, hk⟩
    change w.text ≠ _
    rcases hw with hw | hw <;> rw [hw] <;> decide

/-! ## Functions -/

theorem afterChain_of_startsFunction (h : startsFunction r.current r.advance.rest = true) :
    r.afterChain.1.kind = .punct .lparen := by
  unfold startsFunction at h
  have hparen := of_decide_eq_true (Bool.and_eq_true_iff.1 h).2
  rw [Reader.afterChain_fst]
  change ((r.advance.rest.drop (chainLength r.advance.rest)).headD r.eof).kind = _
  generalize r.advance.rest.drop (chainLength r.advance.rest) = ts at hparen ⊢
  cases ts with
  | nil => cases hparen
  | cons t ts => exact Option.some.inj hparen

/-- What was told of the token behind the first one matters only if that is no function head. -/
theorem functionDecl_clear (h : r.Clear W here next) (hk : r.current.kind = .ident)
    (hnext : ∀ p, next p → startsFunction r.current r.advance.rest = true) : functionDecl.Ensures r
      (fun _ s => s.Clear W Anything Nothing) (fun s => r.Failed W s) := by
  unfold functionDecl optionalSemicolon
  simp only [ensures_bind]
  refine ((dottedName_clear h hk).and (dottedName_next h.placed.wf)).mono ?_ ?_
  · rintro name m ⟨⟨hm, hmk⟩, hafter⟩
    have hne : m.current.kind ≠ .eof := hmk.trans_ne (by decide)
    simp only [ensures_expect, ensures_advance, ensures_currentIdent]
    split
    · rename_i hparen
      have hin : m.advance.advance.Fresh W :=
        (hm.pass hne (.refl _) rfl).advance (hparen.trans_ne (by decide))
      refine (params_clear hin).mono (fun ps n hn => ?_) (fun n hn => ?_)
      · obtain ⟨hnk, hn⟩ := hn
        have hne : n.current.kind ≠ .eof := hnk.trans_ne (by decide)
        split
        · rename_i hcolon
          have hat := hn.pass hne (.refl n.advance) rfl
          split
          · rename_i hident
            have htype : n.advance.advance.Fresh W := hat.advance (hcolon.trans_ne (by decide))
            split
            · rename_i hbrace
              refine (block_clear htype.advance hbrace).mono (fun body s hs => ?_) (fun _ => False.elim)
              simp only [ensures_peek, ensures_ite, ensures_advance, ensures_current, ensures_pure]
              split
              · exact hs.advance_any
              · exact hs
            · exact failed_of_fresh htype (by rw [hident]; rfl) (by decide)
          · exact failed_of_refuse hat (hcolon.trans_ne (by decide)) (by decide)
              (fun _ _ => .inr (.inl (by rw [hcolon]; rfl))) (fun _ => False.elim) (.inr (by rw [hcolon]; rfl))
        · -- the parameters have not asked for this colon
          exact failed_of_refuse hn hne (by decide) (fun _ _ => .inr (.inl (by rw [hnk]; rfl))) (fun _ hp => hp)
            (.inr (by rw [hnk]; rfl))
      · refine hn.1.mono (fun _ _ => .inr (.inl ?_)) fun _ => False.elim
        rcases hn.2 with hk | hk | hk <;> rw [hk] <;> rfl
    · rename_i hparen
      refine failed_of_refuse hm hne (by decide) (fun _ hp => .inl hp) (fun p hp => ?_) (.inr (by rw [hmk]; rfl))
      -- at a function head, a parenthesis follows the name
      rw [hafter] at hparen
      exact absurd (afterChain_of_startsFunction (hnext p hp)) hparen
  · rintro m ⟨⟨hm, hmk⟩, -⟩
    exact hm.mono (fun _ _ => .inr (.inl (by rw [hmk]; rfl))) fun p hp => .inl ⟨hp.1, .inr hp.2.1⟩

/-! ## Imports and aliases -/

/-- What is told of the first name of an import is that it was not the colon or the semicolon of a declaration
before it. -/
theorem moduleImport_clear (h : r.Clear W here Problem.AsksMark) (hk : r.current.kind ≠ .eof) :
    moduleImport.Ensures r (fun _ s => s.Clear W Anything Nothing) (fun s => r.Failed W s) := by
  have hin : r.advance.Clear W Problem.AsksMark Nothing := h.pass hk (.refl _) rfl
  have hrefuse : ∀ {m : Reader}, m.Clear W Problem.AsksMark Nothing →
      r.Failed W (m.report (.expected .moduleName m.current)) := by
    intro m hm
    refine (hm.report_here (p := .expected .moduleName m.current) ⟨rfl, rfl⟩ rfl ?_).mono ?_ fun _ => False.elim
    · rintro q (hq | hq) hqp
      · have hexp : q.error.expected = Wanted.moduleName.text := hqp.2.1
        rcases hq.2 with hq | hq <;> exact absurd (hexp.symm.trans hq) (by decide)
      · exact hq
    · rintro q (hq | rfl)
      · exact .inr (.inr hq.1)
      · exact .inr (.inr ⟨rfl, show Wanted.moduleName.text ≠ _ by decide⟩)
  unfold moduleImport someItems items
  simp only [ensures_bind, ensures_current, ensures_advance, ensures_ite, ensures_refuse, ensures_pure]
  split
  · exact hrefuse hin
  · refine Ensures.loop (P := fun _ m => m.Clear W Problem.AsksMark Nothing) (fun xs m _ hm => ?_) hin.placed.wf hin
    unfold itemRound moduleName
    simp only [ensures_bind, ensures_current, ensures_ite, ensures_refuse, ensures_pure, ensures_peek, ensures_advance]
    split
    · exact hrefuse hm
    · rename_i hident
      have hident := not_not.1 hident
      have hnext : m.advance.Fresh W := hm.advance (hident.trans_ne (by decide))
      split
      · split
        · exact hrefuse hnext.advance.clear
        · exact hnext.advance.clear
      · split
        · exact hnext.clear
        · exact failed_of_refuse hm (hident.trans_ne (by decide)) (by decide) (fun _ hp => .inr (.inr hp.1))
            (fun _ => False.elim) (.inr (by rw [hident]; rfl))

/-- Behind a part of an IRI: nothing has been reported, and the current token is one of it. -/
structure IriEnd (W : Vantage) (r s : Reader) : Prop where
  fresh : s.Fresh W
  reports : s.reports = r.reports
  kind : s.current.kind.isInside = true ∨ s.current.kind.isWord = true

theorem IriEnd.advance (h : IriEnd W r m) (hk : m.advance.current.kind.isInside = true ∨
    m.advance.current.kind.isWord = true) : IriEnd W r m.advance := ⟨h.fresh.advance, h.reports, hk⟩

theorem qName_clear {f : Reader} {first : Token} {scope : Option Ident} (h : IriEnd W f m)
    (hk : m.current.kind.isInside = true) : (qName first scope).Ensures m
      (fun q s => IriEnd W f s ∧ q.span.start = first.span.start ∧ s = m.advance) (fun s => r.Failed W s) := by
  unfold qName
  simp only [ensures_bind, ensures_expectWord, ensures_current, ensures_pure]
  split
  · rename_i hword
    exact ⟨h.advance (.inr hword), rfl, trivial⟩
  · exact failed_of_fresh h.fresh hk (by decide)

theorem iriDomain_clear {f : Reader} (h : IriEnd W f m) (hk : m.current.kind.isInside = true) :
    iriDomain.Ensures m (fun _ s => IriEnd W f s) (fun s => r.Failed W s) := by
  unfold iriDomain
  simp only [ensures_bind, ensures_expectWord, ensures_currentIdent, ensures_pure]
  split
  · rename_i hword
    refine Ensures.loop (P := fun _ n => IriEnd W f n) (fun xs n _ hn => ?_) h.fresh.placed.wf.advance
      (h.advance (.inr hword))
    unfold segmentRound
    simp only [ensures_bind, ensures_peek, ensures_ite, ensures_advance, ensures_expectWord, ensures_currentIdent,
      ensures_pure]
    split
    · rename_i hdot
      have hin : n.advance.current.kind.isInside = true := by rw [hdot]; rfl
      split
      · rename_i hword
        exact (hn.advance (.inl hin)).advance (.inr hword)
      · exact failed_of_fresh hn.fresh.advance hin (by decide)
    · exact hn
  · exact failed_of_fresh h.fresh hk (by decide)

theorem iriPath_clear {f : Reader} {F : Reader → Prop} (h : IriEnd W f m) :
    iriPath.Ensures m (fun _ s => IriEnd W f s) F := by
  unfold iriPath
  simp only [ensures_bind, ensures_pure]
  refine Ensures.loop (P := fun _ n => IriEnd W f n) (fun path n _ hn => ?_) h.fresh.placed.wf h
  unfold pathRound
  simp only [ensures_bind, ensures_peek, ensures_ite, ensures_advance, ensures_pure, ensures_currentIdent]
  split
  · rename_i hslash
    have hat := hn.advance (.inl (by rw [hslash]; rfl))
    split
    · rename_i hword
      exact hat.advance (.inr hword)
    · exact hat
  · exact hn

theorem iriFragment_clear {f : Reader} {F : Reader → Prop} (h : IriEnd W f m) :
    iriFragment.Ensures m (fun _ s => IriEnd W f s) F := by
  unfold iriFragment
  simp only [ensures_bind, ensures_peek, ensures_ite, ensures_advance, ensures_pure, ensures_current,
    ensures_currentIdent]
  split
  · rename_i hhash
    have hat := h.advance (.inl (by rw [hhash]; rfl))
    split
    · rename_i hword
      exact hat.advance (.inr hword)
    · exact hat
  · exact h

/-- An IRI that can be read is read without a report; a qualified name has its place where it begins, in front
of its last token. -/
theorem iri_clear {f : Reader} (h : f.Fresh W) : iri.Ensures f
    (fun i s => IriEnd W f s ∧ ∀ q, i = .qualified q → q.span.start = f.start ∧ f.start < s.start)
    (fun s => r.Failed W s) := by
  unfold iri
  rw [ensures_bind, ensures_current]
  split
  · rename_i hcolon
    have hin : f.current.kind.isInside = true := by rw [hcolon]; rfl
    simp only [ensures_bind, ensures_pure]
    refine (qName_clear (f := f) ⟨h, rfl, .inl hin⟩ hin).mono ?_ (fun _ h => h)
    rintro q _ ⟨hs, hq, rfl⟩
    refine ⟨hs, ?_⟩
    rintro _ ⟨⟩
    exact ⟨hq, h.start_lt (hcolon.trans_ne (by decide)) (.refl _)⟩
  · split
    · rename_i hword
      have hne : f.current.kind ≠ .eof := by
        intro e
        rw [e] at hword
        cases hword
      simp only [ensures_bind, ensures_expect]
      split
      · rename_i hcolon
        have hin : f.advance.current.kind.isInside = true := by rw [hcolon]; rfl
        obtain ⟨m, hm, hl⟩ := looks_opensHost f.advance
        have hat : IriEnd W f m := ⟨h.advance.stay hm.leads hl hm.2, hm.2, .inl (by rw [hl.current]; exact hin)⟩
        refine .of_ok hm.1 ?_
        split
        · rename_i hhost
          obtain ⟨h1, h2⟩ := of_decide_eq_true hhost
          rw [← hl.advance.current] at h1
          rw [← hl.advance.advance.current] at h2
          have hslash : m.advance.advance.current.kind.isInside = true := by rw [h2]; rfl
          have hopen := (hat.advance (.inl (by rw [h1]; rfl))).advance (.inl hslash)
          unfold absoluteIri
          simp only [ensures_bind, ensures_advance, ensures_current, ensures_pure]
          refine (iriDomain_clear hopen hslash).mono (fun _ n hn => ?_) (fun _ h => h)
          refine (iriPath_clear hn).mono (fun _ k hk => ?_) (fun _ h => h)
          exact (iriFragment_clear hk).mono (fun _ s hs => ⟨hs, fun _ hq => Iri.noConfusion hq⟩) (fun _ h => h)
        · simp only [ensures_bind, ensures_pure]
          refine (qName_clear hat (by rw [hl.current]; exact hin)).mono ?_ (fun _ h => h)
          rintro q _ ⟨hs, hq, rfl⟩
          refine ⟨hs, ?_⟩
          rintro _ ⟨⟩
          exact ⟨hq, h.start_lt hne (hm.leads.trans (.advance m))⟩
      · -- a word that is no scheme asks for its colon, whatever keyword it may be
        exact failed_of_word h hword (.inl rfl)
    · rename_i hword
      rw [ensures_refuse]
      refine (h.report_here (p := .expected .iri f.current) ⟨rfl, rfl⟩ rfl ?_).mono (fun _ _ => .inr (.inl ?_))
        fun _ => False.elim
      · rintro q (hq | hq) <;> exact hq.elim
      · exact mayStart_of_not_isWord hword

/-- Of the place where a qualified name begins nothing has been told before. -/
theorem aliasTarget_clear {f : Reader} (h : f.Fresh W) : aliasTarget.Ensures f
    (fun _ s => s.Fresh W ∧ (s.current.kind.isInside = true ∨ s.current.kind.isWord = true))
    (fun s => r.Failed W s) := by
  unfold aliasTarget
  rw [ensures_bind]
  refine (iri_clear h).mono ?_ (fun _ h => h)
  rintro i s ⟨hs, hq⟩
  cases i with
  | absolute a => exact ⟨hs.fresh, hs.kind⟩
  | qualified q =>
    obtain ⟨hstart, hlt⟩ := hq q rfl
    have hsite : (Problem.aliasTarget q.span).site = f.start := hstart
    simp only [ensures_bind, ensures_report, ensures_pure]
    refine ⟨?_, hs.kind⟩
    have hsince : W.since ≤ (Problem.aliasTarget q.span).site := hsite ▸ h.since
    refine hs.fresh.report (Problem.IsPlain.since ⟨rfl, rfl⟩ hsince) (fun p hp hpq => ?_) (.inl (hsite ▸ hlt))
      (fun _ h => h) fun _ h => h
    have hp' : p ∈ f.problems := by
      unfold Reader.problems at hp ⊢
      rwa [← hs.reports]
    have hpsite : p.site = f.start := hpq.2.2.trans hstart
    rcases h.sited p hp' with hp | ⟨-, hp⟩ | ⟨-, hp⟩
    · omega
    · exact hp.elim
    · exact hp.elim

theorem aliasDecl_clear (h : r.Clear W here Problem.AsksMark) (hk : r.current.kind ≠ .eof) :
    aliasDecl.Ensures r (fun _ s => s.Clear W Anything Nothing) (fun s => r.Failed W s) := by
  unfold aliasDecl
  simp only [ensures_bind, ensures_current, ensures_expect, ensures_currentIdent, ensures_advance, ensures_pure]
  split
  · rename_i hident
    have hname := h.pass hk (.refl r.advance) rfl
    split
    · have hin : r.advance.advance.advance.Fresh W := (hname.advance (hident.trans_ne (by decide))).advance
      refine (aliasTarget_clear hin).mono (fun target s hs => ?_) (fun _ h => h)
      split
      · exact hs.1.advance.clear
      · rcases hs.2 with hin | hword
        · exact failed_of_fresh hs.1 hin (by decide)
        · exact failed_of_word hs.1 hword (.inr rfl)
    · exact failed_of_refuse hname (hident.trans_ne (by decide)) (by decide) (fun _ hp => .inr (.inr hp.1))
        (fun _ => False.elim) (.inr (by rw [hident]; rfl))
  · refine failed_of_refuse h hk (by decide) (fun _ _ => .inl rfl) (fun p hp => ⟨hp.1, ?_⟩) (.inl rfl)
    rcases hp.2 with hp | hp <;> rw [hp] <;> decide

/-! ## Classes -/

/-- Behind a unit that was read, another one begins. -/
theorem unitStart_advance (h : m.Clear W here Nothing) : UnitStart unit W m.advance := by
  by_cases hk : m.current.kind = .eof
  · refine (h.atEnd hk (.advance m) rfl).mono (fun _ _ => .inr (.inl ?_)) fun _ => False.elim
    rw [(Reader.Leads.advance m).current_of_length (by rw [h.placed.wf.rest_eq_nil hk]; exact Nat.zero_le _), hk]
  · exact (h.advance hk).mono (fun _ => False.elim) fun _ => False.elim

theorem propertyDecl_clear (h : r.Clear W here next) (hk : r.current.kind = .ident)
    (hc : r.advance.current.kind = .punct .colon) : propertyDecl.Ensures r
      (fun _ s => s.Clear W Anything Nothing) (fun s => r.Failed W s) := by
  have hcolon := h.pass (hk.trans_ne (by decide)) (.refl r.advance) rfl
  have hne : r.advance.current.kind ≠ .eof := hc.trans_ne (by decide)
  unfold propertyDecl
  simp only [ensures_bind, ensures_current, ensures_advance, ensures_expect, ensures_currentIdent, ensures_pure]
  split
  · rename_i hident
    have htype : r.advance.advance.Fresh W := hcolon.advance hne
    split
    · exact htype.advance.clear
    · exact failed_of_fresh htype (by rw [hident]; rfl) (by decide)
  · exact failed_of_refuse hcolon hne (by decide) (fun _ _ => .inr (.inl (by rw [hc]; rfl))) (fun _ => False.elim)
      (.inr (by rw [hc]; rfl))

/-- A unit that cannot begin with its first token has told of that token only what is missing there. -/
theorem failed_of_unexpected {c : Context} (h : UnitStart unit W r) (hk : r.current.kind ≠ .eof)
    (hb : unit = .member → r.current.kind ≠ .punct .rbrace) :
    r.Failed W (r.report (.unexpected c r.current)) := by
  refine (h.report_here (p := .unexpected c r.current) ⟨rfl, rfl⟩ rfl ?_).mono (fun _ _ => .inl rfl)
    fun _ hp => .inl ⟨hp.1, .inl rfl⟩
  rintro q (hq | hq) hqp
  · rcases hq with hq | hq | hq
    · exact Problem.not_missing_unexpected (hq.1.of_agrees hqp)
    · exact hk hq
    · exact hb hq.1 hq.2
  · exact Problem.not_missing_unexpected (hq.1.missing.of_agrees hqp)

theorem member_clear (h : UnitStart .member W r) (hk : r.current.kind ≠ .eof) (hb : r.current.kind ≠ .punct .rbrace)
    (hd : r.current.kind.startsDecl = false) : member.Ensures r
      (fun _ s => s.Clear W Anything Nothing) (fun s => r.Failed W s) := by
  unfold member
  simp only [ensures_bind, ensures_current, ensures_peek, ensures_ite, ensures_pure, ensures_report, ensures_fail]
  split
  · rename_i hc
    obtain ⟨hident, hc⟩ := Bool.and_eq_true_iff.1 hc
    exact propertyDecl_clear h (of_decide_eq_true hident) (of_decide_eq_true hc)
  · rename_i hc
    split
    · rename_i hident
      refine functionDecl_clear h hident fun p hp => ?_
      -- a member that begins here is no property, so it begins with a function head
      have hbound := hp.2.1
      unfold boundary? at hbound
      simp only [hd, Bool.false_eq_true, if_false] at hbound
      split at hbound
      · assumption
      · split at hbound
        · rename_i hcolon
          refine absurd ?_ hc
          have hcolon := of_decide_eq_true (Bool.and_eq_true_iff.1 hcolon).2
          rw [Bool.and_eq_true_iff]
          refine ⟨decide_eq_true hident, decide_eq_true ?_⟩
          rw [h.placed.wf.advance.current_kind]
          cases hrest : r.advance.rest with
          | nil =>
            rw [hrest] at hcolon
            cases hcolon
          | cons t ts =>
            rw [hrest] at hcolon
            exact Option.some.inj hcolon
        · cases hbound
    · exact failed_of_unexpected h hk fun _ => hb

theorem members_clear {b : ClassBody} (h : UnitStart .member W r) : (loop memberRound b).Ensures r
    (fun _ s => UnitStart .member W s ∧ (s.current.kind = .punct .rbrace ∨ s.current.kind = .eof ∨
      s.current.kind.startsDecl = true)) (fun _ => False) := by
  refine Ensures.loop (P := fun _ m => UnitStart .member W m) (fun b m _ hm => ?_) h.placed.wf h
  unfold memberRound
  simp only [ensures_bind, ensures_current, ensures_ite, ensures_pure, ensures_attempt]
  split
  · rename_i hk
    refine ⟨hm, ?_⟩
    simpa [or_assoc] using hk
  · rename_i hk
    have hk : m.current.kind ≠ .punct .rbrace ∧ m.current.kind ≠ .eof ∧ m.current.kind.startsDecl = false := by
      simpa [not_or, and_assoc] using hk
    refine (member_clear hm hk.2.1 hk.1 hk.2.2).leads.mono (fun x n hn => ?_) (fun n hn => ?_)
    · cases x <;> exact unitStart_advance hn.2
    · exact recover_unit (by decide) hn.1 hn.2

/-- A class that is not closed tells of its brace at the token that it ends with, of which no brace has been
asked before. -/
theorem unclosedClass_clear {what : Enclosure} {o : Reader} (ho : o.Fresh W) (hs : UnitStart .member W s)
    (hk : s.current.kind.startsDecl = true) :
    UnitStart .declaration W (s.report (.unclosed what o.current s.current)) := by
  have hne : s.current.kind ≠ .eof := fun e => by rw [e] at hk; cases hk
  have hbrace : s.current.kind ≠ .punct .rbrace := fun e => by rw [e] at hk; cases hk
  refine hs.report ⟨hs.since, ?_, fun _ => rfl⟩ (fun q hq hqp => ?_)
    (.inr (.inl ⟨rfl, .inl ⟨.inl rfl, fun e => by cases e⟩⟩)) (fun q hq => ?_) fun q hq => ?_
  · intro t ht
    rw [List.mem_singleton.1 ht]
    exact ho.since
  · have hsite : q.site = s.start := hqp.2.2
    have hexp : q.error.expected = Wanted.kindText (.punct .rbrace) := hqp.2.1
    rcases hs.sited q hq with hq | ⟨-, hq⟩ | ⟨-, hq⟩
    · omega
    · rcases hq with hq | hq | hq
      · exact absurd hexp (hq.2 rfl)
      · exact absurd hq hne
      · exact absurd hq.2 hbrace
    · exact absurd hexp hq.1.2
  · rcases hq with hq | hq | hq
    · exact .inl ⟨hq.1, fun e => by cases e⟩
    · exact absurd hq hne
    · exact absurd hq.2 hbrace
  · refine ⟨hq.1, ?_, hq.2.2⟩
    change (boundary? .declaration s.current s.advance.rest).isSome = true
    unfold boundary?
    simp [hk]

theorem classDef_clear (h : r.Clear W here Problem.AsksMark) (hk : r.current.kind ≠ .eof) : classDef.Ensures r
    (fun c s => if c.2 then s.Clear W Anything Nothing else UnitStart .declaration W s) (fun s => r.Failed W s) := by
  unfold classDef
  simp only [ensures_bind, ensures_current, ensures_expect, ensures_currentIdent, ensures_advance]
  split
  · rename_i hident
    have hname := h.pass hk (.refl r.advance) rfl
    split
    · rename_i hbrace
      have ho : r.advance.advance.Fresh W := hname.advance (hident.trans_ne (by decide))
      have hin : r.advance.advance.advance.Fresh (W.at r.advance.advance.advance r.advance.advance.advance.start) :=
        ho.advance.anew (Int.le_refl _)
      have hstart : ∀ {V : Vantage} {m : Reader}, m.Fresh V → UnitStart .member V m :=
        fun hm => hm.mono (fun _ => False.elim) fun _ => False.elim
      refine ((members_clear (hstart ho.advance)).and (members_clear (hstart hin))).leads.mono ?_
        (fun _ h => h.2.1.elim)
      rintro body s ⟨hl, ⟨hs, hk⟩, hs', -⟩
      split
      · rename_i hopen
        have hclosed : (decide (s.current.kind = .punct .rbrace)) = false := by simpa using hopen
        simp only [ensures_bind, ensures_report, ensures_pure, hclosed, Bool.false_eq_true, if_false]
        rcases hk with hk | hk | hk
        · rw [hk] at hclosed
          cases hclosed
        · refine (unclosed_clear ho (hbrace.trans_ne (by decide)) hl hs hs' hk).mono (fun _ _ => .inr (.inl hk))
            fun _ => False.elim
        · exact unclosedClass_clear ho hs hk
      · rename_i hclosed
        have hclosed : s.current.kind = .punct .rbrace := by simpa using hclosed
        simp only [ensures_pure, hclosed, decide_true, if_true]
        refine hs.mono (fun _ _ => trivial) fun p hp => ?_
        have hstart := mayStart_of_boundary (by decide) hp.2.1
        rw [hclosed] at hstart
        cases hstart
    · exact failed_of_refuse hname (hident.trans_ne (by decide)) (by decide) (fun _ hp => .inr (.inr hp.1))
        (fun _ => False.elim) (.inr (by rw [hident]; rfl))
  · refine failed_of_refuse h hk (by decide) (fun _ _ => .inl rfl) (fun p hp => ⟨hp.1, ?_⟩) (.inl rfl)
    rcases hp.2 with hp | hp <;> rw [hp] <;> decide

/-! ## Programs -/

section Decl

variable {p : Progress}

/-- A declaration that was read is passed; one that was not is given up. -/
theorem keepOrRecover_clear {decl : Rule α} [Honest decl] {keep : α → Progress} (hl : r.Leads m)
    (h : decl.Ensures m (fun _ s => s.Clear W Anything Nothing) (fun s => r.Failed W s)) {Q : Progress → Reader → Prop}
    {F : Reader → Prop} :
    (keepOrRecover r.current p decl keep).Ensures m (ofRound (fun _ s => UnitStart .declaration W s) Q) F := by
  unfold keepOrRecover
  rw [ensures_bind, ensures_attempt]
  refine h.leads.mono (fun d n hn => ?_) (fun n hn => ?_)
  · exact unitStart_advance hn.2
  · rw [ensures_bind]
    exact recover_unit (by decide) (hl.trans hn.1) hn.2

/-- What is told of a declaration out of order is told of its first token, as nothing has been before. -/
theorem report_late {q : Problem} (h : UnitStart .declaration W r) (hk : r.current.kind.startsDecl = true)
    (hq : q.IsPlain) (hsite : q.site = r.start) (hlate : ¬q.Missing) :
    (r.report q).Clear W Anything Problem.AsksMark := by
  refine (h.report_here hq hsite ?_).mono (fun _ _ => trivial) fun _ hp => hp.2.2 hk
  rintro p (hp | hp) hpq
  · rcases hp with hp | hp | hp
    · exact hlate (hp.1.of_agrees hpq)
    · rw [hp] at hk
      cases hk
    · cases hp.1
  · exact hlate (hp.1.missing.of_agrees hpq)

theorem declRound_clear (h : UnitStart .declaration W r) : (declRound p).Ensures r
    (ofRound (fun _ s => UnitStart .declaration W s) fun _ s => UnitStart .declaration W s) (fun _ => False) := by
  have hmarks : r.current.kind.startsDecl = true → r.Clear W Anything Problem.AsksMark :=
    fun hk => h.mono (fun _ _ => trivial) fun _ hp => hp.2.2 hk
  unfold declRound
  rw [ensures_bind, ensures_current]
  split
  · exact h
  · rename_i hk
    have hd : r.current.kind.startsDecl = true := by rw [hk]; rfl
    have hne : r.current.kind ≠ .eof := hk.trans_ne (by decide)
    unfold importRound
    split
    · rw [ensures_bind, ensures_report]
      have hlate := report_late (q := .lateImport r.current.span) h hd ⟨rfl, rfl⟩ rfl (by simp [Missing, Problem.error])
      exact keepOrRecover_clear (.report r _) (moduleImport_clear hlate hne)
    · exact keepOrRecover_clear (.refl r) (moduleImport_clear (hmarks hd) hne)
  · rename_i hk
    have hd : r.current.kind.startsDecl = true := by rw [hk]; rfl
    have hne : r.current.kind ≠ .eof := hk.trans_ne (by decide)
    unfold aliasRound
    split
    · rw [ensures_bind, ensures_report]
      have hlate := report_late (q := .lateAlias r.current.span) h hd ⟨rfl, rfl⟩ rfl (by simp [Missing, Problem.error])
      exact keepOrRecover_clear (.report r _) (aliasDecl_clear hlate hne)
    · exact keepOrRecover_clear (.refl r) (aliasDecl_clear (hmarks hd) hne)
  · rename_i hk
    have hd : r.current.kind.startsDecl = true := by rw [hk]; rfl
    unfold classRound
    rw [ensures_bind, ensures_attempt]
    refine (classDef_clear (hmarks hd) (hk.trans_ne (by decide))).leads.mono ?_ (fun n hn => ?_)
    · rintro ⟨c, closed⟩ n ⟨-, hn⟩
      cases closed
      · exact hn
      · exact unitStart_advance hn
    · exact ensures_bind.2 (recover_unit (by decide) hn.1 hn.2)
  · rename_i hk
    refine keepOrRecover_clear (.refl r) (functionDecl_clear h hk fun p hp => ?_)
    have hbound := hp.2.1
    unfold boundary? at hbound
    rw [hk] at hbound
    simpa [Kind.startsDecl] using hbound
  · rename_i hk _ _ _ _
    rw [ensures_bind, ensures_report, ensures_bind]
    exact recover_unit (by decide) (.report r _) (failed_of_unexpected h hk fun e => by cases e)

theorem program_clear (h : UnitStart .declaration W r) :
    program.Ensures r (fun _ s => UnitStart .declaration W s) (fun _ => False) := by
  unfold program
  simp only [ensures_bind, ensures_current, ensures_pure]
  exact Ensures.loop (P := fun _ m => UnitStart .declaration W m) (fun _ _ _ hm => declRound_clear hm) h.placed.wf h

end Decl
end Rule

/-! ## Errors that are told -/

/-- The place where the reading of a source begins. -/
def Vantage.ofSource (file source : String) (limit : Nat) : Vantage where
  text := source.toList
  origin := .ofSource file source limit
  placed := Reader.ofSource_placed file source limit
  known := []
  since := (Reader.ofSource file source limit).start

theorem readProgram_clear (file source : String) (limit : Nat) :
    (readProgram file source limit).reader.Clear (.ofSource file source limit) Anything Anything := by
  have hnone : (Reader.ofSource file source limit).problems = [] := rfl
  have hstart : UnitStart .declaration (.ofSource file source limit) (.ofSource file source limit) := by
    refine ⟨.refl _, Int.le_refl _, ?_, ?_, ?_, fun q hq => absurd hq List.not_mem_nil, .nil⟩
    · simp [hnone]
    · simp [hnone]
    · simp [hnone]
  obtain ⟨p, s, hp, hs⟩ := (Rule.program_clear hstart).exists_ok
  unfold readProgram
  rw [Rule.readSource_reader, hp]
  exact hs.mono (fun _ _ => trivial) fun _ _ => trivial

/-- The log without a limit, newest first: a part of the problems reported, none of which repeats the one
before. -/
theorem Log.ofReports_unlimited (ts : List Token) (rs : List Report) : ∃ ps, Log.ofReports 0 ts rs = { kept := ps } ∧
    ps.reverse.Sublist (rs.map Report.problem) ∧ ps.IsChain fun p q => q.repeats p = false := by
  induction rs using List.reverseRecOn with
  | nil => exact ⟨[], rfl, List.nil_sublist _, .nil⟩
  | append_singleton rs r ih =>
    obtain ⟨ps, hps, hsub, hchain⟩ := ih
    unfold Log.ofReports at hps ⊢
    rw [List.foldl_append, hps, List.foldl_cons, List.foldl_nil, Log.add_unlimited, List.map_append]
    refine ⟨_, rfl, ?_⟩
    split
    · exact ⟨hsub.trans (List.sublist_append_left _ _), hchain⟩
    · rename_i hrepeats
      rw [List.reverse_cons]
      refine ⟨hsub.append (List.Sublist.refl _), List.isChain_cons.2 ⟨fun q hq => ?_, hchain⟩⟩
      rw [Option.mem_def.1 hq] at hrepeats
      exact Bool.eq_false_iff.2 hrepeats

/-- Of all errors that are told of a source, no two say the same of the same place, but for those that the end of
the input cuts off and those of comprehensions inside each other; and none says the same as the one before it. -/
theorem readProgram_errors_apart (file source : String) :
    (readProgram file source).errors.Pairwise (fun d e => d.Agrees e → d.Excused source.toList.length e) ∧
      (readProgram file source).errors.IsChain (fun d e => ¬d.Agrees e) := by
  obtain ⟨ps, hps, hsub, hchain⟩ := Log.ofReports_unlimited (tokenize file source)
    (readProgram file source).reader.reports.toList
  have hproblems : (readProgram file source).problems = ps.reverse := by
    rw [readProgram, Rule.readSource_problems, keptProblems, ← readProgram, hps]
  have herrors : (readProgram file source).errors = ps.reverse.map Problem.error := by
    rw [Reading.errors, hproblems]
  have htidy := (readProgram_clear file source 0).tidy
  rw [herrors]
  refine ⟨List.pairwise_map.2 (htidy.sublist hsub), (List.isChain_map _).2 (List.isChain_reverse.2 ?_)⟩
  refine hchain.imp fun p q hpq hagree => ?_
  rw [Problem.repeats_iff.2 hagree] at hpq
  cases hpq

/-- A block inside another one, both cut off by the end of the input. -/
def cutOffBlocks : String := "f(): R \x7b if x \x7b"

/-- Both braces are missed, with the semicolon of the statement between them. -/
theorem readProgram_errors_cutOffBlocks :
    (readProgram "a.sem" cutOffBlocks).errors.map (fun e => (e.code, e.expected, e.span.start)) =
      [("SYNTAX_EXPECTED_TOKEN", Wanted.kindText (.punct .rbrace), 15),
        ("SYNTAX_MISSING_SEMICOLON", Wanted.kindText (.punct .semicolon), 15),
        ("SYNTAX_EXPECTED_TOKEN", Wanted.kindText (.punct .rbrace), 15)] ∧
    ¬(readProgram "a.sem" cutOffBlocks).errors.Pairwise fun d e => ¬d.Agrees e := by
  have hkeys : (readProgram "a.sem" cutOffBlocks).errors.map (fun e => (e.code, e.expected, e.span.start)) =
      [("SYNTAX_EXPECTED_TOKEN", Wanted.kindText (.punct .rbrace), 15),
        ("SYNTAX_MISSING_SEMICOLON", Wanted.kindText (.punct .semicolon), 15),
        ("SYNTAX_EXPECTED_TOKEN", Wanted.kindText (.punct .rbrace), 15)] := by
    decide +kernel
  refine ⟨hkeys, fun hapart => ?_⟩
  -- errors that do not agree differ in their code, in what is expected or in their place
  have hdistinct : ((readProgram "a.sem" cutOffBlocks).errors.map
      fun e => (e.code, e.expected, e.span.start)).Nodup := by
    refine List.pairwise_map.2 (hapart.imp fun {d e} h heq => h ?_)
    simpa [GrammarError.Agrees] using heq
  rw [hkeys] at hdistinct
  exact absurd hdistinct (by decide)

end SemFront
