/-
Reading makes progress. Every round of a repetition that goes on leaves fewer tokens: a statement, a
member or a declaration that was read is passed, and of one that could not be read at least the first
token is given up. So the repetitions end by themselves, and a program is read to the end of the
input.
-/
import SemFront.Proofs.Grammar.Decl
import SemFront.Proofs.Grammar.Ensures

namespace SemFront.Rule

variable {r m : Reader}

@[simp] theorem ensures_currentIdent {Q : Ident → Reader → Prop} {F : Reader → Prop} :
    currentIdent.Ensures r Q F ↔ Q r.current.ident r := Iff.rfl

/-! ## Names, lists and operators -/

instance {segment : Rule Unit} [Honest segment] : Progresses (segmentRound segment) := .of_ensures fun xs r hr => by
  unfold segmentRound
  simp only [ensures_bind, ensures_peek, ensures_ite, ensures_advance, ensures_pure]
  split
  · rename_i hk
    have hlt := hr.length_advance_of_next (by rw [hk]; exact nofun)
    exact Honest.ensures.mono (fun _ s hs => Nat.lt_of_le_of_lt hs.length_le hlt) (fun _ _ => trivial)
  · trivial

instance : Progresses pathRound := .of_ensures fun xs r hr => by
  unfold pathRound
  simp only [ensures_bind, ensures_peek, ensures_ite, ensures_advance, ensures_pure]
  split
  · rename_i hk
    have hlt := hr.length_advance_of_next (by rw [hk]; exact nofun)
    split
    · exact Nat.lt_of_le_of_lt (Reader.Leads.advance _).length_le hlt
    · trivial
  · trivial

instance {item : Rule α} [Honest item] {c : Punct} {w : Wanted} : Progresses (itemRound c w item) :=
  .of_ensures fun xs r hr => by
    unfold itemRound
    simp only [ensures_bind, ensures_peek, ensures_ite, ensures_advance, ensures_pure, ensures_current]
    refine Honest.ensures.mono (fun x m hm => ?_) (fun _ _ => trivial)
    split
    · rename_i hk
      have hlt := (hm.wf hr).length_advance_of_next (by rw [hk]; exact nofun)
      split
      · trivial
      · exact Nat.lt_of_le_of_lt (Reader.Leads.advance _).length_le (Nat.lt_of_lt_of_le hlt hm.length_le)
    · split <;> trivial

instance {sub : Nat → Rule Expr} [∀ l, Honest (sub l)] {level : Nat} : Progresses (operatorRound sub level) :=
  .of_ensures fun left r hr => by
    unfold operatorRound
    rw [ensures_bind, ensures_peek]
    split
    · trivial
    · rename_i op hop
      have hlt := hr.length_advance_of_next (by intro e; rw [e] at hop; cases hop)
      simp only [ensures_ite, ensures_bind, ensures_advance, ensures_pure]
      split
      · refine Honest.ensures.mono (fun _ s hs => ?_) (fun _ _ => trivial)
        exact Nat.lt_of_le_of_lt (hs.length_le.trans (Reader.Leads.advance _).length_le) hlt
      · trivial

/-! ## Units that are kept or given up -/

/-- Behind what was read from a token on, fewer tokens are left. -/
theorem length_advance_lt (hr : r.WF) (hk : r.current.kind ≠ .eof) (hl : r.Leads m) :
    m.advance.rest.length < r.rest.length := by
  have h1 := hl.length_le
  have h2 := hr.length_pos hk
  have h3 : m.advance.rest.length = m.rest.length - 1 := List.length_tail
  omega

/-- What could not be read from a token on is given up, and that token with it. -/
theorem recover_length_lt {unit : SyncUnit} {F : Reader → Prop} (hr : r.WF) (hk : r.current.kind ≠ .eof)
    (hl : r.Leads m) : (recover unit r.current).Ensures m (fun _ s => s.rest.length < r.rest.length) F := by
  refine ensures_recover fun s hs e => ?_
  by_cases hlt : m.rest.length < r.rest.length
  · exact Nat.lt_of_le_of_lt hs.length_le hlt
  · -- the attempt has not moved on, so the first token of the unit is skipped in any case
    have hm : m.rest = r.rest := hl.rest.eq_of_length_le (Nat.le_of_not_lt hlt)
    have hsame : m.current.isSame r.current = true := by
      rw [hl.current_of_length (Nat.le_of_not_lt hlt)]
      simp [Token.isSame]
    have hpos : 0 < (skipOf unit r.current m).count := by
      unfold skipOf
      rw [if_pos hsame, hm, hr.rest_eq hk]
      exact skipUnit_pos
    have h1 := hr.length_pos hk
    rw [e, hm, List.length_drop]
    omega

theorem finishStmt_length_lt {F : Reader → Prop} (hr : r.WF) (hk : r.current.kind ≠ .eof) (hl : r.Leads m) :
    finishStmt.Ensures m (fun _ s => s.rest.length < r.rest.length) F := by
  unfold finishStmt
  simp only [ensures_bind, ensures_peek, ensures_ite, ensures_advance, ensures_report]
  have h := length_advance_lt hr hk hl
  split
  · exact Nat.lt_of_le_of_lt (Reader.Leads.advance _).length_le h
  · exact h

theorem stmtRound_advances {block : Rule Block} [Honest block] (hr : r.WF) :
    AdvancesAt r (stmtRound block) fun k => k = .punct .rbrace ∨ k = .eof := by
  intro ss
  unfold stmtRound
  simp only [ensures_bind, ensures_current, ensures_ite, ensures_attempt]
  split
  · rename_i hk
    exact ⟨rfl, rfl, by simpa using hk⟩
  · rename_i hk
    have hne : r.current.kind ≠ .eof := fun e => hk (by simp [e])
    refine (Honest.ensures (x := stmt block)).mono (fun st m hm => ?_) (fun m hm => ?_)
    · exact finishStmt_length_lt hr hne hm
    · exact recover_length_lt hr hne hm

instance {block : Rule Block} [Honest block] : Progresses (stmtRound block) :=
  .of_advances fun _ hr => stmtRound_advances hr

theorem memberRound_advances (hr : r.WF) :
    AdvancesAt r memberRound fun k => k = .punct .rbrace ∨ k = .eof ∨ k.startsDecl := by
  intro b
  unfold memberRound
  simp only [ensures_bind, ensures_current, ensures_ite, ensures_attempt]
  split
  · rename_i hk
    exact ⟨rfl, rfl, by simpa [or_assoc] using hk⟩
  · rename_i hk
    have hne : r.current.kind ≠ .eof := fun e => hk (by simp [e])
    refine (Honest.ensures (x := member)).mono (fun x m hm => ?_) (fun m hm => ?_)
    · have h := length_advance_lt hr hne hm
      cases x <;> exact h
    · exact recover_length_lt hr hne hm

instance : Progresses memberRound := .of_advances fun _ hr => memberRound_advances hr

/-! ## Parameters -/

instance : Progresses paramRound := .of_ensures fun ps r hr => by
  unfold paramRound paramEnd
  simp only [ensures_bind, ensures_current, ensures_ite, ensures_advance, ensures_report, ensures_pure, ensures_fail]
  refine (Honest.ensures (x := paramOrBad)).mono (fun p m hm => ?_) (fun _ _ => trivial)
  split
  · trivial
  · split
    · rename_i hk
      have hlt := (hm.wf hr).length_advance (by rw [hk]; exact nofun)
      split
      · trivial
      · exact Nat.lt_of_lt_of_le hlt hm.length_le
    · trivial

/-! ## Declarations -/

section Decl

variable {p : Progress}

/-- Declarations are kept or given up, and none of them stops the reading of a program. -/
theorem keepOrRecover_length_lt {decl : Rule α} [Honest decl] {keep : α → Progress} (hr : r.WF)
    (hk : r.current.kind ≠ .eof) (hl : r.Leads m) : (keepOrRecover r.current p decl keep).Ensures m
      (ofRound (fun _ s => s.rest.length < r.rest.length) fun _ _ => False) (fun _ => False) := by
  unfold keepOrRecover
  rw [ensures_bind, ensures_attempt]
  refine (Honest.ensures (x := decl)).mono (fun d n hn => ?_) (fun n hn => ?_)
  · exact length_advance_lt hr hk (hl.trans hn)
  · exact ensures_bind.2 (recover_length_lt hr hk (hl.trans hn))

theorem classRound_length_lt (hr : r.WF) (hk : r.current.kind = .keyword .classWord) :
    (classRound r.current p).Ensures r
      (ofRound (fun _ s => s.rest.length < r.rest.length) fun _ _ => False) (fun _ => False) := by
  have hne : r.current.kind ≠ .eof := by rw [hk]; exact nofun
  unfold classRound
  rw [ensures_bind, ensures_attempt]
  -- an unclosed class is not passed, but its head is
  have hhead : classDef.Ensures r (fun _ s => s.rest.length < r.rest.length) (fun _ => True) := by
    unfold classDef
    rw [ensures_bind, ensures_current, ensures_bind, ensures_expect]
    split
    · rename_i hi
      have hlt := hr.length_advance_of_next (by rw [hi]; exact nofun)
      exact Honest.ensures.mono (fun _ s hs => Nat.lt_of_le_of_lt hs.length_le hlt) (fun _ _ => trivial)
    · trivial
  refine hhead.leads.mono ?_ (fun n hn => ensures_bind.2 (recover_length_lt hr hne hn.1))
  rintro ⟨c, closed⟩ n ⟨hn, hlt⟩
  cases closed
  · exact hlt
  · exact length_advance_lt hr hne hn

/-- Reading declarations is over at the end of the input only. -/
theorem declRound_advances (hr : r.WF) : AdvancesAt r declRound (· = .eof) := by
  have hmono : ∀ {p : Progress} {x : Rule (Round Progress)} {m : Reader}, x.Ensures m
      (ofRound (fun _ s => s.rest.length < r.rest.length) fun _ _ => False) (fun _ => False) → x.Ensures m
      (ofRound (fun _ s => s.rest.length < r.rest.length) fun y s => y = p ∧ s = r ∧ r.current.kind = .eof)
      (fun _ => False) := by
    intro p x m h
    refine h.mono ?_ (fun _ h => h)
    rintro (y | y) s hs
    · exact hs
    · exact hs.elim
  intro p
  unfold declRound
  rw [ensures_bind, ensures_current]
  split
  · rename_i hk
    exact ⟨rfl, rfl, hk⟩
  · rename_i hk
    have hne : r.current.kind ≠ .eof := by simp [hk]
    refine hmono ?_
    unfold importRound
    split
    · exact ensures_bind.2 (keepOrRecover_length_lt hr hne (.report r _))
    · exact keepOrRecover_length_lt hr hne (.refl r)
  · rename_i hk
    have hne : r.current.kind ≠ .eof := by simp [hk]
    refine hmono ?_
    unfold aliasRound
    split
    · exact ensures_bind.2 (keepOrRecover_length_lt hr hne (.report r _))
    · exact keepOrRecover_length_lt hr hne (.refl r)
  · rename_i hk
    exact hmono (classRound_length_lt hr hk)
  · rename_i hk
    have hne : r.current.kind ≠ .eof := by simp [hk]
    exact hmono (keepOrRecover_length_lt hr hne (.refl r))
  · rename_i hk _ _ _ _
    rw [ensures_bind, ensures_report, ensures_bind]
    exact recover_length_lt hr hk (.report r _)

instance : Progresses declRound := .of_advances fun _ hr => declRound_advances hr

/-- A program is read to the end of the input. -/
theorem program_ends (hr : r.WF) : program.Ensures r (fun _ s => s.rest = []) (fun _ => False) := by
  unfold program
  simp only [ensures_bind, ensures_current, ensures_pure]
  refine Ensures.loop (P := fun _ _ => True) (fun p m hm _ => ?_) hr trivial
  refine (declRound_advances hm p).mono ?_ (fun _ h => h)
  rintro (y | y) s hs
  · trivial
  · obtain ⟨-, rfl, hk⟩ := hs
    exact hm.rest_eq_nil hk

end Decl
end SemFront.Rule
