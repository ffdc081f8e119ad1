/-
Parameters tell nothing twice. A parameter that cannot be read is skipped up to the token that ends it; if
nothing had to be skipped, then a problem with the token behind can only have been found in front of a
closing parenthesis, and it is none that the function itself would tell of there.
-/
import SemFront.Proofs.Repeats.Stmt

namespace SemFront

open Problem (Missing Asks)

/-- A token that a parameter may stop at: one inside of it, or the brace that closes its bindings. -/
def Kind.closesParam (k : Kind) : Bool := k.isInside || k = .punct .rbrace

/-- A token that skipping to the end of a parameter stops at. -/
def Kind.endsParam : Kind → Bool
  | .punct .rparen | .punct .comma | .punct .lbrace | .punct .semicolon | .eof => true
  | _ => false

theorem headKind_drop_paramLength {d : Nat} {ts : List Token} :
    (headKind (ts.drop (paramLength d ts))).endsParam = true := by
  induction ts generalizing d with
  | nil => rfl
  | cons t ts ih =>
    rw [paramLength.eq_def]
    dsimp only
    split
    · exact ih
    · rename_i hk
      cases d with
      | zero => simp [headKind, hk, Kind.endsParam]
      | succ d => exact ih
    all_goals try
      rename_i hk
      split
      · simp [headKind, hk, Kind.endsParam]
      · exact ih
    exact ih

namespace Rule

variable {W : Vantage} {r m s : Reader} {here next : Problem → Prop}

theorem closesParam_of_isInside (k : Kind) (h : k.isInside = true) : k.closesParam = true := by
  simp [Kind.closesParam, h]

/-- Of the tokens that end a parameter, only its parenthesis may stand behind a part of it. -/
theorem eq_rparen {k : Kind} (h : k.endsParam = true) (h' : k.closesParam = true) : k = .punct .rparen := by
  unfold Kind.endsParam at h
  split at h
  · rfl
  · exact absurd h' (by decide)
  · exact absurd h' (by decide)
  · exact absurd h' (by decide)
  · exact absurd h' (by decide)
  · cases h

/-! ## Bindings -/

section Bindings

variable {bindings : Rule (List Binding)}

theorem orderly_binding (hb : bindings.Orderly Nothing Kind.closesParam) :
    (binding bindings).Orderly Nothing Kind.closesParam := by
  intro W r h
  unfold binding
  simp only [ensures_bind, ensures_current, ensures_ite, ensures_refuse, ensures_expect, ensures_currentIdent,
    ensures_peek, ensures_advance, ensures_pure]
  split
  · exact Reader.Fresh.refuse_here h
  · rename_i hk
    have hk := not_not.1 hk
    have hname : r.Done W Kind.closesParam := h.done (by rw [hk]; rfl)
    split
    · rename_i hc
      have hcolon : r.advance.Done W Kind.closesParam := (hname.advance rfl).done (by rw [hc]; rfl)
      split
      · rename_i hident
        have hproperty := (hcolon.advance rfl).done (K := Kind.closesParam) (by rw [hident]; rfl)
        split
        · refine (orderly_expr (hproperty.advance rfl).advance.clear).mono (fun _ _ h => ?_) (fun _ h => ?_)
          · exact h.weaken closesParam_of_isInside
          · exact h.weaken closesParam_of_isInside
        · split
          · exact (hb (hproperty.advance rfl)).mono (fun _ _ h => h) (fun _ h => h)
          · exact hproperty
      · exact hcolon.refuse rfl (by decide)
    · exact hname.refuse_next rfl (by decide) fun _ => hk

end Bindings

theorem orderly_bindingsAt : ∀ depth, (bindingsAt depth).Orderly Nothing Kind.closesParam
  | 0, _, _, h => Reader.Fresh.refuse_here h
  | depth + 1, W, r, h => by
    have hin : r.advance.Fresh W := Reader.Fresh.advance h
    unfold bindingsAt someItems
    simp only [ensures_bind, ensures_advance, ensures_current, ensures_ite, ensures_refuse]
    split
    · exact hin.refuse_here
    · refine ((orderly_binding (orderly_bindingsAt depth)).items rfl hin).mono (fun _ s hs => ?_) (fun _ h => h)
      exact hs.1.done (by rw [hs.2]; rfl)

theorem orderly_bindings : bindings.Orderly Nothing Kind.closesParam := fun _ _ h =>
  Ensures.of_budget (x := bindingsAt) (orderly_bindingsAt _ h)

/-! ## Parameters -/

theorem orderly_param : param.Orderly Nothing Kind.closesParam := by
  intro W r h
  unfold param
  simp only [ensures_bind, ensures_current, ensures_ite, ensures_refuse, ensures_expect, ensures_advance]
  split
  · exact Reader.Fresh.refuse_here h
  · rename_i hk
    have hk := not_not.1 hk
    have hname : r.Done W Kind.closesParam := h.done (by rw [hk]; rfl)
    split
    · rename_i hc
      have htype := (hname.advance rfl).advance
      by_cases hident : r.advance.advance.current.kind = .ident
      · refine (dottedName_clear htype hident).mono (fun name m hm => ?_) (fun _ h => ?_)
        · have hm : m.Done W Kind.closesParam := hm.1.done (by rw [hm.2]; rfl)
          simp only [ensures_peek, ensures_pure]
          split
          · exact (orderly_bindings (hm.advance rfl)).mono (fun _ _ h => h) (fun _ h => h)
          · split
            · refine (orderly_expr (hm.advance rfl).advance.clear).mono (fun _ _ h => ?_) (fun _ h => ?_)
              · exact h.weaken closesParam_of_isInside
              · exact h.weaken closesParam_of_isInside
            · exact hm
        · exact h.1.weaken closesParam_of_isInside
      · -- without a name the type is refused where it should begin
        unfold dottedName
        rw [ensures_bind, ensures_current, ensures_ite, if_pos hident, ensures_refuse]
        exact htype.refuse_here
    · exact hname.refuse_next rfl (by decide) fun _ => hk

/-! ## Lists of parameters -/

/-- Where a parameter ends. A problem with the token behind has been found only in front of a closing
parenthesis, and is no colon that is missing. -/
structure ParamEnd (W : Vantage) (r : Reader) : Prop where
  kind : r.current.kind.endsParam = true
  clear : r.Clear W Anything fun p => p.Asks ∧ p.error.expected ≠ Wanted.kindText (.punct .colon) ∧
    r.current.kind = .punct .rparen

/-- Skipping to the end of a parameter stays, or moves on from the current token. -/
theorem skipParam_clear (h : r.Clear W here next) {F : Reader → Prop} : skipParam.Ensures r
    (fun _ s => s.current.kind.endsParam = true ∧ (s = r ∨ s.Clear W next Nothing)) F := by
  refine .of_ok rfl ?_
  have hl := Reader.Leads.advanceBy (paramLength 0 r.rest) r
  refine ⟨?_, ?_⟩
  · rw [(hl.wf h.placed.wf).current_kind, Reader.advanceBy_rest]
    exact headKind_drop_paramLength
  · cases hn : paramLength 0 r.rest with
    | zero => exact .inl rfl
    | succ n =>
      have hne : r.current.kind ≠ .eof := by
        intro e
        rw [h.placed.wf.rest_eq_nil e] at hn
        cases hn
      exact .inr (h.pass hne (.advanceBy n r.advance) (Reader.advanceBy_reports n r.advance))

theorem skipParam_ends (h : r.Clear W here Nothing) {F : Reader → Prop} :
    skipParam.Ensures r (fun _ s => ParamEnd W s) F := by
  refine (skipParam_clear h).mono ?_ (fun _ h => h)
  rintro t s ⟨hk, rfl | hs⟩
  · exact ⟨hk, h.mono (fun _ _ => trivial) fun _ => False.elim⟩
  · exact ⟨hk, hs.mono (fun _ _ => trivial) fun _ => False.elim⟩

theorem skipParamFrom_ends {start : Token} (h : r.Stuck W Kind.closesParam) {F : Reader → Prop} :
    (skipParamFrom start).Ensures r (fun _ s => ParamEnd W s) F := by
  unfold skipParamFrom
  simp only [ensures_bind, ensures_current]
  split
  · simp only [ensures_bind, ensures_advance, ensures_pure]
    exact skipParam_ends h.advance_any
  · simp only [ensures_bind, ensures_pure]
    refine (skipParam_clear h).mono ?_ (fun _ h => h)
    rintro t s ⟨hk, rfl | hs⟩
    · refine ⟨hk, h.mono (fun _ h => h) fun p hp => ?_⟩
      have hparen := eq_rparen hk hp.2.1
      refine ⟨hp.1, fun e => ?_, hparen⟩
      rw [hp.2.2 e] at hparen
      cases hparen
    · exact ⟨hk, hs.mono (fun _ _ => trivial) fun _ => False.elim⟩

theorem paramOrBad_ends (h : r.Fresh W) {F : Reader → Prop} : paramOrBad.Ensures r (fun _ s => ParamEnd W s) F := by
  unfold paramOrBad
  simp only [ensures_bind, ensures_current, ensures_attempt]
  refine (orderly_param h).mono (fun p m hm => ?_) (fun m hm => ?_)
  · simp only [ensures_bind, ensures_peek, ensures_ite, ensures_advance, ensures_pure, ensures_report]
    split
    · rename_i hk
      have hfresh := hm.advance rfl
      refine ⟨?_, hfresh.mono (fun _ => False.elim) fun _ => False.elim⟩
      rcases Bool.or_eq_true_iff.1 hk with hk | hk <;> rw [of_decide_eq_true hk] <;> rfl
    · exact skipParam_ends (hm.refuse rfl (commaOr_ne _)).advance_any
  · exact skipParamFrom_ends hm

/-- A list of parameters ends with its parenthesis; or it stops where no parameter can go on, with nothing told
of the token behind. -/
theorem params_clear (h : r.Fresh W) : params.Ensures r
    (fun _ s => s.current.kind = .punct .rparen ∧
      s.Clear W Anything fun p => p.Asks ∧ p.error.expected ≠ Wanted.kindText (.punct .colon))
    (fun s => s.Clear W Anything Nothing ∧
      (s.current.kind = .punct .lbrace ∨ s.current.kind = .punct .semicolon ∨ s.current.kind = .eof)) := by
  unfold params
  simp only [ensures_bind, ensures_current, ensures_ite, ensures_pure]
  split
  · rename_i hk
    exact ⟨hk, h.mono (fun _ => False.elim) fun _ => False.elim⟩
  · refine Ensures.loop (P := fun _ m => m.Fresh W) (fun ps m _ hm => ?_) h.placed.wf h
    unfold paramRound paramEnd
    simp only [ensures_bind, ensures_current, ensures_ite, ensures_pure, ensures_advance, ensures_report, ensures_fail]
    refine (paramOrBad_ends hm).mono (fun p n hn => ?_) (fun _ h => h)
    by_cases hparen : n.current.kind = .punct .rparen
    · rw [if_pos hparen]
      exact ⟨hparen, hn.clear.mono (fun _ h => h) fun _ h => ⟨h.1, h.2.1⟩⟩
    · have hclear : n.Clear W Anything Nothing := hn.clear.mono (fun _ h => h) fun _ h => hparen h.2.2
      rw [if_neg hparen]
      split
      · rename_i hcomma
        have hnext : n.advance.Fresh W := hclear.advance (hcomma.trans_ne (by decide))
        split
        · rename_i hk
          refine ⟨hk, (hnext.report_here ⟨rfl, rfl⟩ rfl ?_).mono (fun _ _ => trivial) fun _ => False.elim⟩
          rintro q (hq | hq) <;> exact hq.elim
        · exact hnext
      · rename_i hcomma
        have hk := hn.kind
        refine ⟨hclear, ?_⟩
        unfold Kind.endsParam at hk
        split at hk
        · exact absurd ‹_› hparen
        · exact absurd ‹_› hcomma
        · exact .inl ‹_›
        · exact .inr (.inl ‹_›)
        · exact .inr (.inr ‹_›)
        · cases hk

end Rule
end SemFront
