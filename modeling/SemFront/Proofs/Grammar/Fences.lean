/-
Expressions and parameters close what they open. Where one can be read, the parentheses, brackets and
braces among its tokens are all closed again; where it cannot, none of those around it has been closed
up to there, and no comma passed that stood outside of all that it had opened itself.
-/
import SemFront.Proofs.Grammar.Braces

namespace SemFront

/-! ## What is open -/

/-- How many parentheses, brackets and braces are open. -/
@[ext] structure Fences where
  parens : Nat := 0
  brackets : Nat := 0
  braces : Nat := 0
deriving DecidableEq

namespace Fences

/-- What is open behind a token. -/
def move (o : Fences) : Kind → Fences
  | .punct .lparen => { o with parens := o.parens + 1 }
  | .punct .rparen => { o with parens := o.parens - 1 }
  | .punct .lbracket => { o with brackets := o.brackets + 1 }
  | .punct .rbracket => { o with brackets := o.brackets - 1 }
  | .punct .lbrace => { o with braces := o.braces + 1 }
  | .punct .rbrace => { o with braces := o.braces - 1 }
  | _ => o

/-- Whether a token belongs to what is open: it closes nothing else, and is no comma outside of it. -/
def admits (o : Fences) : Kind → Bool
  | .punct .rparen => o.parens ≠ 0
  | .punct .rbracket => o.brackets ≠ 0
  | .punct .rbrace => o.braces ≠ 0
  | .punct .comma => o ≠ {}
  | _ => true

/-- What is open behind some tokens. -/
def after (o : Fences) (ts : List Token) : Fences := ts.foldl (fun o t => o.move t.kind) o

/-- Tokens each of which belongs to what is open before it. -/
def Holds : Fences → List Token → Prop
  | _, [] => True
  | o, t :: ts => o.admits t.kind = true ∧ (o.move t.kind).Holds ts

instance : Add Fences := ⟨fun o p => ⟨o.parens + p.parens, o.brackets + p.brackets, o.braces + p.braces⟩⟩

variable {o p : Fences} {k : Kind} {us vs : List Token}

@[simp] theorem add_parens : (o + p).parens = o.parens + p.parens := rfl

@[simp] theorem add_brackets : (o + p).brackets = o.brackets + p.brackets := rfl

@[simp] theorem add_braces : (o + p).braces = o.braces + p.braces := rfl

theorem add_none (o : Fences) : o + {} = o := rfl

/-- What belongs to the inner ones belongs to all that is open, and leaves the outer ones open. -/
theorem admits_add (h : p.admits k = true) : (o + p).admits k = true ∧ (o + p).move k = o + p.move k := by
  unfold admits at h ⊢
  unfold move
  split at h
  · have hp : p.parens ≠ 0 := by simpa using h
    refine ⟨by simp [hp], ?_⟩
    ext <;> simp
    omega
  · have hp : p.brackets ≠ 0 := by simpa using h
    refine ⟨by simp [hp], ?_⟩
    ext <;> simp
    omega
  · have hp : p.braces ≠ 0 := by simpa using h
    refine ⟨by simp [hp], ?_⟩
    ext <;> simp
    omega
  · -- a sum is nothing only if both parts are
    have hp : p ≠ {} := by simpa using h
    have hsum : o + p ≠ {} := by
      intro e
      have h1 := congrArg parens e
      have h2 := congrArg brackets e
      have h3 := congrArg braces e
      simp only [add_parens, add_brackets, add_braces] at h1 h2 h3
      apply hp
      ext <;> simp <;> omega
    exact ⟨decide_eq_true hsum, rfl⟩
  · refine ⟨rfl, ?_⟩
    split
    · ext <;> simp
      omega
    · contradiction
    · ext <;> simp
      omega
    · contradiction
    · ext <;> simp
      omega
    · contradiction
    · rfl

theorem after_append (o : Fences) (us vs : List Token) : o.after (us ++ vs) = (o.after us).after vs :=
  List.foldl_append

theorem holds_append : o.Holds (us ++ vs) ↔ o.Holds us ∧ (o.after us).Holds vs := by
  induction us generalizing o with
  | nil => simp [Holds, after]
  | cons t us ih =>
    simp only [List.cons_append, Holds, ih, and_assoc]
    rfl

/-- Tokens that belong together do so inside of anything else, which stays open. -/
theorem Holds.add (h : p.Holds us) : (o + p).Holds us ∧ (o + p).after us = o + p.after us := by
  induction us generalizing p with
  | nil => exact ⟨trivial, rfl⟩
  | cons t us ih =>
    obtain ⟨ha, hm⟩ := admits_add (o := o) h.1
    obtain ⟨hh, he⟩ := ih h.2
    rw [← hm] at hh he
    exact ⟨⟨ha, hh⟩, he⟩

end Fences

/-! ## Readers inside of fences -/

namespace Reader

open Fences

variable {r m s : Reader} {o p : Fences} {k : Kind}

/-- Moving on over tokens that belong together and leave `o` open. -/
structure Nests (r : Reader) (o : Fences) (s : Reader) : Prop where
  leads : r.Leads s
  tokens : ∃ us : List Token, r.rest = us ++ s.rest ∧ Holds {} us ∧ after {} us = o

/-- As `Nests`, with the current token of the second reader among the tokens. -/
structure NestsTo (r : Reader) (o : Fences) (s : Reader) : Prop where
  leads : r.Leads s
  nests : r.Nests o s.advance

/-- Moving on over tokens that belong together, whatever they leave open. -/
def Within (r s : Reader) : Prop := ∃ o, r.Nests o s

theorem Nests.refl (r : Reader) : r.Nests {} r := ⟨.refl r, [], rfl, trivial, rfl⟩

theorem Nests.trans (h : r.Nests o m) (h' : m.Nests p s) : r.Nests (o + p) s := by
  obtain ⟨us, hus, hh, rfl⟩ := h.tokens
  obtain ⟨vs, hvs, hh', rfl⟩ := h'.tokens
  obtain ⟨hadd, hafter⟩ := hh'.add (o := after {} us)
  rw [add_none] at hadd hafter
  refine ⟨h.leads.trans h'.leads, us ++ vs, by rw [hus, hvs, List.append_assoc], holds_append.2 ⟨hh, hadd⟩, ?_⟩
  rw [after_append, hafter]

theorem Nests.of_rest (h : r.Nests o m) (hl : m.Leads s) (he : s.rest = m.rest) : r.Nests o s :=
  h.trans (p := {}) ⟨hl, [], he.symm, trivial, rfl⟩

theorem Nests.within (h : r.Nests o m) : r.Within m := ⟨o, h⟩

theorem Within.report (h : r.Within m) (q : Problem) : r.Within (m.report q) := by
  obtain ⟨o, h⟩ := h
  exact ⟨o, h.of_rest (.report m q) rfl⟩

/-- A token that belongs to what is open is passed. -/
theorem Nests.to (hr : r.WF) (h : r.Nests o m) (hk : m.current.kind = k) (ha : o.admits k = true) :
    r.NestsTo (o.move k) m := by
  subst hk
  refine ⟨h.leads, h.leads.trans (.advance m), ?_⟩
  obtain ⟨us, hus, hh, rfl⟩ := h.tokens
  have heof : m.eof.kind = .eof := by
    rw [h.leads.eof]
    exact hr.eof
  unfold Reader.current at ha ⊢
  unfold Reader.advance
  cases hm : m.rest with
  | nil =>
    rw [hm] at hus
    rw [List.headD_nil, heof]
    exact ⟨us, hus, hh, rfl⟩
  | cons t ts =>
    rw [hm] at ha hus
    refine ⟨us ++ [t], by simpa using hus, holds_append.2 ⟨hh, ha, trivial⟩, ?_⟩
    rw [after_append]
    rfl

namespace NestsTo

theorem of_current (hr : r.WF) (hk : r.current.kind = k) (ha : ({} : Fences).admits k = true) :
    r.NestsTo (move {} k) r := (Nests.refl r).to hr hk ha

theorem advance_to (hr : r.WF) (h : r.NestsTo o m) (hk : m.advance.current.kind = k) (ha : o.admits k = true) :
    r.NestsTo (o.move k) m.advance := h.nests.to hr hk ha

theorem looked (h : r.NestsTo o m) (hl : m.Leads s) (hs : m.Looked s) : r.NestsTo o s := by
  obtain ⟨us, hus, hh⟩ := h.nests.tokens
  have hrs := h.leads.trans hl
  exact ⟨hrs, hrs.trans (.advance s), us, by rw [hus, hs.advance.rest], hh⟩

/-- Whoever passes a token has come to it. -/
theorem within (h : r.NestsTo o m) : r.Within m := by
  obtain ⟨us, hus, hh, -⟩ := h.nests.tokens
  obtain ⟨vs, hvs⟩ := h.leads.rest
  refine ⟨_, h.leads, vs, hvs.symm, ?_, rfl⟩
  -- the tokens up to the current one are a beginning of those up to the next
  have hpre : ∃ ws, us = vs ++ ws := by
    unfold Reader.advance at hus
    cases hm : m.rest with
    | nil =>
      rw [hm] at hus hvs
      exact ⟨[], by simp_all⟩
    | cons t ts =>
      rw [hm, List.tail_cons] at hus
      rw [hm, hus] at hvs
      refine ⟨[t], (List.append_left_inj ts).1 ?_⟩
      rw [← hvs, List.append_assoc]
      rfl
  obtain ⟨ws, rfl⟩ := hpre
  exact (holds_append.1 hh).1

end NestsTo
end Reader

namespace Rule

open Reader (Nests NestsTo Within)

variable {r m : Reader} {o : Fences} {x : Rule α} {Q : α → Reader → Prop}

/-- A rule that closes what it opens when it succeeds, and closes nothing else when it fails. -/
structure Nested (x : Rule α) : Prop where
  nests : ∀ {r}, r.WF → x.Ensures r (fun _ s => r.NestsTo {} s) r.Within

/-- Inside of anything that is open, such a rule leaves it open. -/
theorem Nested.ensures (hx : Nested x) (hr : r.WF) (h : r.Nests o m) (hQ : ∀ a s, r.NestsTo o s → Q a s) :
    x.Ensures m Q r.Within := by
  refine (hx.nests (h.leads.wf hr)).mono (fun a s hs => hQ a s ⟨h.leads.trans hs.leads, h.trans hs.nests⟩) ?_
  rintro s ⟨p, hs⟩
  exact (h.trans hs).within

theorem expect_nests {k : Kind} {Q : Unit → Reader → Prop} (hr : r.WF) (h : r.NestsTo o m) (ha : o.admits k = true)
    (hQ : r.NestsTo (o.move k) m.advance → Q () m.advance) : (expect k).Ensures m Q r.Within := by
  rw [ensures_expect]
  split
  · rename_i hk
    exact hQ (h.advance_to hr hk ha)
  · exact h.within.report _

theorem nested_dottedName : Nested dottedName where
  nests {r} hr := by
    unfold dottedName
    simp only [ensures_bind, ensures_current, ensures_ite, ensures_refuse, ensures_pure]
    split
    · exact (Nests.refl r).within.report _
    · rename_i hk
      refine Ensures.loop (P := fun _ m => r.NestsTo {} m) (fun xs m hm h => ?_) hr
        (.of_current hr (not_not.1 hk) rfl)
      unfold segmentRound
      simp only [ensures_bind, ensures_peek, ensures_ite, ensures_advance, ensures_currentIdent, ensures_pure]
      split
      · rename_i hdot
        exact expect_nests hr (h.advance_to hr hdot rfl) rfl fun h => h
      · exact h

/-! ## Lists -/

section Items

variable [Honest x] {c : Punct} {w : Wanted} {Q : List α → Reader → Prop} (hx : Nested x) (hr : r.WF) (ho : o ≠ {})
  (hc : o.admits (.punct c) = true) (h : r.Nests o m) (hQ : ∀ xs s, r.NestsTo (o.move (.punct c)) s → Q xs s)
include hx hr ho hc h hQ

/-- The commas of a list stand inside of what was opened before it. -/
theorem items_nests : (items c w x).Ensures m Q r.Within := by
  unfold items
  simp only [ensures_bind, ensures_pure]
  refine Ensures.loop (P := fun _ s => r.Nests o s) (fun xs n _ hn => ?_) (h.leads.wf hr) h
  unfold itemRound
  simp only [ensures_bind, ensures_peek, ensures_ite, ensures_advance, ensures_current, ensures_pure, ensures_refuse]
  refine hx.ensures hr hn fun a s hs => ?_
  split
  · rename_i hcomma
    have hnext := (hs.advance_to hr hcomma (decide_eq_true ho)).nests
    split
    · exact hnext.within.report _
    · exact hnext
  · split
    · rename_i hclose
      exact hQ _ _ (hs.advance_to hr hclose hc)
    · exact hs.within.report _

theorem someItems_nests : (someItems c w x).Ensures m Q r.Within := by
  unfold someItems
  simp only [ensures_bind, ensures_current, ensures_ite, ensures_refuse]
  split
  · exact h.within.report _
  · exact items_nests hx hr ho hc h hQ

theorem manyItems_nests : (manyItems c w x).Ensures m Q r.Within := by
  unfold manyItems
  simp only [ensures_bind, ensures_current, ensures_ite, ensures_pure]
  split
  · rename_i hclose
    exact hQ _ _ (h.to hr hclose hc)
  · exact items_nests hx hr ho hc h hQ

end Items

/-! ## Expressions -/

theorem noExpr_nests {Q : Expr → Reader → Prop} (r : Reader) : noExpr.Ensures r Q r.Within := by
  unfold noExpr
  simp only [ensures_bind, ensures_current, ensures_report, ensures_fail]
  exact (Nests.refl r).within.report _

section Expr

variable {sub : Nat → Rule Expr} (hsub : ∀ l, Nested (sub l))
include hsub

theorem unary_nests (hr : r.WF) (h : r.NestsTo {} r) : (unary sub).Ensures r (fun _ s => r.NestsTo {} s) r.Within := by
  unfold unary
  simp only [ensures_bind, ensures_current, ensures_advance, ensures_pure]
  exact (hsub _).ensures hr h.nests fun _ _ hs => hs

theorem parenOrCast_nests (hr : r.WF) (hk : r.current.kind = .punct .lparen) :
    (parenOrCast sub).Ensures r (fun _ s => r.NestsTo {} s) r.Within := by
  unfold parenOrCast
  simp only [ensures_bind, ensures_current, ensures_ite, ensures_advance, ensures_pure]
  refine looks_opensCast.ensures fun m hl hm => ?_
  have h := (NestsTo.of_current hr hk rfl).looked hl hm
  split
  · rename_i hc
    obtain ⟨h1, h2, -⟩ := of_decide_eq_true hc
    rw [← hm.advance.current] at h1
    rw [← hm.advance.advance.current] at h2
    unfold cast
    simp only [ensures_bind, ensures_advance, ensures_currentIdent, ensures_pure]
    have hclosed := (h.advance_to hr h1 rfl).advance_to hr h2 rfl
    exact (hsub _).ensures hr hclosed.nests fun _ _ hs => hs
  · exact (hsub _).ensures hr h.nests fun _ _ hs => expect_nests hr hs rfl fun h => h

theorem nested_comprehensionPart : Nested (comprehensionPart sub) where
  nests {r} hr := by
    unfold comprehensionPart
    simp only [ensures_bind, ensures_peek, ensures_current, ensures_ite, ensures_pure]
    split
    · rename_i hk
      obtain ⟨h1, h2⟩ : r.current.kind = .ident ∧ r.advance.current.kind = .punct .leftArrow := by simpa using hk
      unfold generator
      simp only [ensures_bind, ensures_current, ensures_advance, ensures_pure]
      exact expect_nests hr ((NestsTo.of_current hr h1 rfl).advance_to hr h2 rfl) rfl fun h => h
    · exact (hsub 0).ensures hr (.refl r) fun _ _ hs => hs

theorem nested_propertyInit : Nested (propertyInit sub) where
  nests {r} hr := by
    unfold propertyInit
    simp only [ensures_bind, ensures_current, ensures_ite, ensures_refuse, ensures_advance, ensures_pure]
    split
    · exact (Nests.refl r).within.report _
    · rename_i hk
      refine expect_nests hr (.of_current hr (not_not.1 hk) rfl) rfl fun h => ?_
      exact (hsub 0).ensures hr h.nests fun _ _ hs => hs

variable [∀ l, Honest (sub l)]

theorem nameOrCall_nests (hr : r.WF) : (nameOrCall sub).Ensures r (fun _ s => r.NestsTo {} s) r.Within := by
  unfold nameOrCall
  simp only [ensures_bind, ensures_peek, ensures_current, ensures_ite, ensures_advance, ensures_pure]
  refine nested_dottedName.ensures hr (.refl r) fun _ m h => ?_
  split
  · exact h
  · rename_i hk
    have hopen := h.advance_to hr (not_not.1 hk) rfl
    exact manyItems_nests (hsub 0) hr (by decide) rfl hopen.nests fun _ _ hs => hs

theorem listOrComprehension_nests (hr : r.WF) (hk : r.current.kind = .punct .lbracket) :
    (listOrComprehension sub).Ensures r (fun _ s => r.NestsTo {} s) r.Within := by
  unfold listOrComprehension
  simp only [ensures_bind, ensures_current, ensures_ite, ensures_advance, ensures_pure]
  refine looks_opensComprehension.ensures fun m hl hm => ?_
  have h := (NestsTo.of_current hr hk rfl).looked hl hm
  split
  · rename_i hc
    obtain ⟨h1, h2⟩ := of_decide_eq_true hc
    rw [← hm.advance.current] at h1
    rw [← hm.advance.advance.current] at h2
    unfold comprehension
    simp only [ensures_bind, ensures_current, ensures_advance, ensures_currentIdent]
    have hparts := (h.advance_to hr h1 rfl).advance_to hr h2 rfl
    refine someItems_nests (nested_comprehensionPart hsub) hr (by decide) rfl hparts.nests fun _ s hs => ?_
    unfold comprehensionOf
    split
    · exact hs
    · exact hs.looked (.report s _) ⟨rfl, rfl⟩
  · exact manyItems_nests (hsub 0) hr (by decide) rfl h.nests fun _ _ hs => hs

theorem construct_nests (hr : r.WF) (h : r.NestsTo {} r) :
    (construct sub).Ensures r (fun _ s => r.NestsTo {} s) r.Within := by
  unfold construct
  simp only [ensures_bind, ensures_current, ensures_currentIdent, ensures_advance, ensures_pure]
  refine expect_nests hr h rfl fun h => expect_nests hr h rfl fun h => ?_
  exact manyItems_nests (nested_propertyInit hsub) hr (by decide) rfl h.nests fun _ _ hs => hs

theorem nested_primary : Nested (primary sub) where
  nests {r} hr := by
    unfold primary
    simp only [ensures_bind, ensures_current]
    split
    all_goals rename_i hk
    · exact nameOrCall_nests hsub hr
    · exact .of_current hr hk rfl
    · exact .of_current hr hk rfl
    · exact .of_current hr hk rfl
    · exact .of_current hr hk rfl
    · exact .of_current hr hk rfl
    · exact construct_nests hsub hr (.of_current hr hk rfl)
    · exact unary_nests hsub hr (.of_current hr hk rfl)
    · exact unary_nests hsub hr (.of_current hr hk rfl)
    · exact parenOrCast_nests hsub hr hk
    · exact listOrComprehension_nests hsub hr hk
    · exact noExpr_nests r

/-- Operators neither open nor close anything. -/
theorem operators_nests {level : Nat} {left : Expr} (hr : r.WF) (h : r.NestsTo {} m) :
    (operators sub level left).Ensures m (fun _ s => r.NestsTo {} s) r.Within := by
  refine Ensures.loop (P := fun _ s => r.NestsTo {} s) (fun e s _ hs => ?_) (h.leads.wf hr) h
  unfold operatorRound
  simp only [ensures_bind, ensures_peek]
  split
  · exact hs
  · rename_i op hop
    simp only [ensures_ite, ensures_bind, ensures_advance, ensures_pure]
    split
    · have hneutral : ∀ {k : Kind}, BinaryOp.ofKind? k = some op →
          ({} : Fences).admits k = true ∧ Fences.move {} k = {} := by
        intro k hk
        unfold BinaryOp.ofKind? at hk
        split at hk <;> first | exact ⟨rfl, rfl⟩ | cases hk
      obtain ⟨hadmits, hmove⟩ := hneutral hop
      have hnext := hs.advance_to hr rfl hadmits
      rw [hmove] at hnext
      exact (hsub _).ensures hr hnext.nests fun _ _ hs => hs
    · exact hs

end Expr

theorem nested_exprAt (d l : Nat) : Nested (exprAt d l) := by
  induction d generalizing l with
  | zero => exact ⟨fun {r} _ => noExpr_nests r⟩
  | succ d hsub =>
    refine ⟨fun {r} hr => ?_⟩
    unfold exprAt
    rw [ensures_bind]
    exact (nested_primary hsub).ensures hr (.refl r) fun _ _ h => operators_nests hsub hr h

theorem nested_expr : Nested expr := ⟨fun {r} hr => (nested_exprAt (r.budget + 1) 0).nests hr⟩

/-! ## Parameters -/

/-- A constraint behind its bar. -/
theorem constraint_nests {Q : Expr → Reader → Prop} (hr : r.WF) (h : r.NestsTo {} m)
    (hk : m.advance.current.kind = .punct .pipe) (hQ : ∀ e s, r.NestsTo {} s → Q e s) :
    expr.Ensures m.advance.advance Q r.Within :=
  nested_expr.ensures hr (h.advance_to hr hk rfl).nests hQ

theorem nested_binding {bindings : Rule (List Binding)}
    (hb : ∀ {m : Reader}, m.WF → m.current.kind = .punct .lbrace →
      bindings.Ensures m (fun _ s => m.NestsTo {} s) m.Within) : Nested (binding bindings) where
  nests {r} hr := by
    unfold binding
    simp only [ensures_bind, ensures_current, ensures_ite, ensures_refuse, ensures_peek, ensures_advance,
      ensures_currentIdent, ensures_pure]
    split
    · exact (Nests.refl r).within.report _
    · rename_i hname
      refine expect_nests hr (.of_current hr (not_not.1 hname) rfl) rfl fun h => expect_nests hr h rfl fun h => ?_
      split
      · rename_i hpipe
        exact constraint_nests hr h hpipe fun _ _ hs => hs
      · split
        · rename_i hlbrace
          refine (hb (h.nests.leads.wf hr) hlbrace).mono (fun _ s hs => ?_) ?_
          · exact ⟨h.nests.leads.trans hs.leads, h.nests.trans hs.nests⟩
          · rintro s ⟨p, hs⟩
            exact (h.nests.trans hs).within
        · exact h

theorem bindingsAt_nests (d : Nat) (hr : r.WF) (hk : r.current.kind = .punct .lbrace) :
    (bindingsAt d).Ensures r (fun _ s => r.NestsTo {} s) r.Within := by
  induction d generalizing r with
  | zero =>
    unfold bindingsAt
    simp only [ensures_bind, ensures_current, ensures_refuse]
    exact (Nests.refl r).within.report _
  | succ d ih =>
    unfold bindingsAt
    simp only [ensures_bind, ensures_advance]
    have hopen := NestsTo.of_current hr hk rfl
    exact someItems_nests (nested_binding ih) hr (by decide) rfl hopen.nests fun _ _ hs => hs

theorem nested_param : Nested param where
  nests {r} hr := by
    unfold param
    simp only [ensures_bind, ensures_current, ensures_ite, ensures_refuse, ensures_peek, ensures_advance, ensures_pure]
    split
    · exact (Nests.refl r).within.report _
    · rename_i hname
      refine expect_nests hr (.of_current hr (not_not.1 hname) rfl) rfl fun h => ?_
      refine nested_dottedName.ensures hr h.nests fun _ m h => ?_
      split
      · rename_i hlbrace
        refine Ensures.of_budget ((bindingsAt_nests _ (h.nests.leads.wf hr) hlbrace).mono (fun _ s hs => ?_) ?_)
        · exact ⟨h.nests.leads.trans hs.leads, h.nests.trans hs.nests⟩
        · rintro s ⟨p, hs⟩
          exact (h.nests.trans hs).within
      · split
        · rename_i hpipe
          exact constraint_nests hr h hpipe fun _ _ hs => hs
        · exact h

end Rule
end SemFront
