/-
Errors inside a block never leave it. Expressions pass no brace, whether they can be read or not, and
recovery counts the braces it gives up, so that at every statement of a block the brace that closes the
block is still ahead, behind tokens whose braces are balanced. A block ends on exactly that brace.
-/
import Mathlib.Data.List.Infix
import SemFront.Proofs.Grammar.Progress
import SemFront.Proofs.Grammar.Reading

namespace SemFront

/-! ## Braces -/

def Kind.isBrace : Kind → Bool
  | .punct .lbrace | .punct .rbrace => true
  | _ => false

/-- As many braces are closed as are opened, and none before it was opened. -/
def Balanced (ts : List Token) : Prop :=
  (∀ us ∈ ts.inits, us.countP (·.kind = .punct .rbrace) ≤ us.countP (·.kind = .punct .lbrace)) ∧
    ts.countP (·.kind = .punct .rbrace) = ts.countP (·.kind = .punct .lbrace)

instance (ts : List Token) : Decidable (Balanced ts) := inferInstanceAs (Decidable (_ ∧ _))

/-- The tokens from the brace on that closes what is open inside `depth` other braces. -/
def closing : (depth : Nat) → List Token → Option (List Token)
  | _, [] => none
  | depth, t :: ts =>
    if t.kind = .punct .lbrace then closing (depth + 1) ts
    else if t.kind = .punct .rbrace then
      match depth with
      | 0 => some (t :: ts)
      | depth + 1 => closing depth ts
    else closing depth ts

section Closing

variable {t : Token} {ts us : List Token} {d : Nat}

theorem closing_lbrace (h : t.kind = .punct .lbrace) : closing d (t :: ts) = closing (d + 1) ts := by
  rw [closing.eq_def]
  exact if_pos h

theorem closing_rbrace_zero (h : t.kind = .punct .rbrace) : closing 0 (t :: ts) = some (t :: ts) := by
  rw [closing, if_neg (by rw [h]; exact nofun), if_pos h]

theorem closing_rbrace_succ (h : t.kind = .punct .rbrace) : closing (d + 1) (t :: ts) = closing d ts := by
  rw [closing, if_neg (by rw [h]; exact nofun), if_pos h]

theorem Kind.brace_cases (k : Kind) : k = .punct .lbrace ∨ k = .punct .rbrace ∨ k.isBrace = false := by
  unfold isBrace
  split
  · exact .inl rfl
  · exact .inr (.inl rfl)
  · exact .inr (.inr rfl)

theorem Kind.isBrace_eq_false {k : Kind} : k.isBrace = false ↔ k ≠ .punct .lbrace ∧ k ≠ .punct .rbrace := by
  rcases k.brace_cases with rfl | rfl | hk
  · simp [isBrace]
  · simp [isBrace]
  · refine iff_of_true hk ⟨?_, ?_⟩ <;>
    · rintro rfl
      cases hk

theorem closing_other (h : t.kind.isBrace = false) : closing d (t :: ts) = closing d ts := by
  obtain ⟨h1, h2⟩ := Kind.isBrace_eq_false.1 h
  rw [closing.eq_def]
  exact (if_neg h1).trans (if_neg h2)

/-- What closes more braces is found behind the brace that closes fewer of them. -/
theorem closing_add : ∀ {ts us : List Token} {e : Nat}, closing (d + e + 1) ts = some us →
    ∃ c vs, closing e ts = some (c :: vs) ∧ c.kind = .punct .rbrace ∧ closing d vs = some us
  | t :: ts, us, e, h => by
    rcases t.kind.brace_cases with hk | hk | hk
    · rw [closing_lbrace hk] at h ⊢
      exact closing_add h
    · rw [closing_rbrace_succ hk] at h
      cases e with
      | zero => exact ⟨t, ts, closing_rbrace_zero hk, hk, h⟩
      | succ e =>
        rw [closing_rbrace_succ hk]
        exact closing_add h
    · rw [closing_other hk] at h ⊢
      exact closing_add h

/-- Tokens that close no more than `d` braces opened before them change the depth by what they open and close. -/
theorem closing_append_of_le : ∀ {ts : List Token} {d : Nat},
    (∀ us ∈ ts.inits, us.countP (·.kind = .punct .rbrace) ≤ us.countP (·.kind = .punct .lbrace) + d) →
    closing d (ts ++ us) =
      closing (d + ts.countP (·.kind = .punct .lbrace) - ts.countP (·.kind = .punct .rbrace)) us
  | [], d, _ => rfl
  | t :: ts, d, hle => by
    have hle' : ∀ us ∈ ts.inits, (t :: us).countP (·.kind = .punct .rbrace) ≤
        (t :: us).countP (·.kind = .punct .lbrace) + d := fun us hus => hle _ (by simpa using hus)
    simp only [List.countP_cons] at hle' ⊢
    rw [List.cons_append]
    rcases t.kind.brace_cases with hk | hk | hk
    · rw [closing_lbrace hk]
      simp only [hk, reduceCtorEq, Kind.punct.injEq, decide_eq_true_eq, if_true, if_false] at hle' ⊢
      rw [closing_append_of_le fun us hus => by have := hle' us hus; omega]
      congr 1
      omega
    · simp only [hk, reduceCtorEq, Kind.punct.injEq, decide_eq_true_eq, if_true, if_false] at hle' ⊢
      cases d with
      | zero =>
        have := hle' [] ((List.mem_inits _ _).2 List.nil_prefix)
        simp only [List.countP_nil] at this
        omega
      | succ d =>
        rw [closing_rbrace_succ hk, closing_append_of_le fun us hus => by have := hle' us hus; omega]
        congr 1
        omega
    · obtain ⟨h1, h2⟩ := Kind.isBrace_eq_false.1 hk
      rw [closing_other hk]
      simp only [h1, h2, decide_false] at hle' ⊢
      exact closing_append_of_le hle'

/-- Balanced tokens close nothing of what is around them. -/
theorem Balanced.closing_eq (h : Balanced ts) : closing d (ts ++ us) = closing d us := by
  rw [closing_append_of_le fun vs hvs => Nat.le_add_right_of_le (h.1 vs hvs), h.2, Nat.add_sub_cancel]

/-- Behind balanced tokens the closing brace of what is around them follows. -/
theorem Balanced.closing_append {c : Token} (h : Balanced ts) (hc : c.kind = .punct .rbrace) :
    closing 0 (ts ++ c :: us) = some (c :: us) :=
  h.closing_eq.trans (closing_rbrace_zero hc)

/-- Giving up a statement or a member never takes the brace that closes what is around it. -/
theorem closing_skipFrom {unit : SyncUnit} (hu : unit ≠ .declaration) : ∀ {ts us : List Token} {d : Nat},
    closing d ts = some us → closing 0 (ts.drop (skipFrom unit d ts).count) = some us
  | t :: ts, us, d, h => by
    rw [skipFrom.eq_def]
    dsimp only
    rcases t.kind.brace_cases with hk | hk | hk
    · rw [if_pos hk]
      rw [closing_lbrace hk] at h
      exact closing_skipFrom hu h
    · rw [if_neg (by rw [hk]; exact nofun), if_pos hk]
      cases d with
      | zero =>
        rw [if_neg hu]
        exact h
      | succ d =>
        rw [closing_rbrace_succ hk] at h
        dsimp only
        split
        · -- the unit ends with its brace and a semicolon behind it
          rename_i hd
          obtain rfl : d = 0 := by simpa using (Bool.and_eq_true_iff.1 hd).1
          cases ts with
          | nil => cases h
          | cons u ts =>
            split
            · rename_i hsemi
              rw [closing_other (by simp_all [Kind.isBrace])] at h
              exact h
            · exact h
        · exact closing_skipFrom hu h
    · obtain ⟨h1, h2⟩ := Kind.isBrace_eq_false.1 hk
      rw [if_neg h1, if_neg h2]
      have h' := h
      rw [closing_other hk] at h
      split
      · exact closing_skipFrom hu h
      · rename_i hd
        obtain rfl : d = 0 := by simpa using hd
        split
        · exact h
        · split
          · exact h'
          · exact closing_skipFrom hu h

theorem closing_skipUnit {unit : SyncUnit} (hu : unit ≠ .declaration) (ht : t.kind ≠ .punct .rbrace)
    (h : closing 0 (t :: ts) = some us) :
    closing 0 ((t :: ts).drop (skipUnit unit (t :: ts)).count) = some us := by
  rw [skipUnit]
  rcases t.kind.brace_cases with hk | hk | hk
  · rw [if_neg (by simp [hk]), if_neg (by simp [hu]), if_pos hk]
    rw [closing_lbrace hk] at h
    exact closing_skipFrom hu h
  · exact absurd hk ht
  · rw [closing_other hk] at h
    split
    · exact h
    · rw [if_neg (by simp [hu]), if_neg (Kind.isBrace_eq_false.1 hk).1]
      exact closing_skipFrom hu h

end Closing

/-! ## Rules that pass no brace -/

namespace Reader

variable {r m s : Reader}

/-- Moving on over tokens none of which is a brace. -/
structure Passes (r s : Reader) : Prop where
  leads : r.Leads s
  tokens : ∃ us : List Token, r.rest = us ++ s.rest ∧ ∀ t ∈ us, t.kind.isBrace = false

/-- As `Passes`, up to a token that is none either. -/
structure PassesTo (r s : Reader) : Prop extends r.Passes s where
  current : s.current.kind.isBrace = false

namespace Passes

theorem refl (r : Reader) : r.Passes r := ⟨.refl r, [], rfl, by simp⟩

theorem trans (h : r.Passes m) (h' : m.Passes s) : r.Passes s := by
  obtain ⟨us, hus, hb⟩ := h.tokens
  obtain ⟨vs, hvs, hb'⟩ := h'.tokens
  refine ⟨h.leads.trans h'.leads, us ++ vs, by rw [hus, hvs, List.append_assoc], fun t ht => ?_⟩
  rcases List.mem_append.1 ht with ht | ht
  · exact hb t ht
  · exact hb' t ht

theorem of_rest (h : r.Leads s) (he : s.rest = r.rest) : r.Passes s := ⟨h, [], he.symm, by simp⟩

theorem report (h : r.Passes m) (p : Problem) : r.Passes (m.report p) := h.trans (.of_rest (.report m p) rfl)

/-- The brace that closes what is around the tokens passed stays ahead. -/
theorem closing_eq (h : r.Passes s) {ts : List Token} (ht : closing 0 r.rest = some ts) : closing 0 s.rest = some ts := by
  obtain ⟨us, hus, hb⟩ := h.tokens
  rw [hus] at ht
  clear hus
  induction us with
  | nil => exact ht
  | cons u us ih =>
    rw [List.cons_append, closing_other (hb u List.mem_cons_self)] at ht
    exact ih ht fun t h => hb t (List.mem_cons_of_mem u h)

end Passes

namespace PassesTo

theorem of_current (h : r.current.kind = k) (hk : k.isBrace = false) : r.PassesTo r := ⟨.refl r, by rwa [h]⟩

theorem trans (h : r.Passes m) (h' : m.PassesTo s) : r.PassesTo s := ⟨h.trans h'.toPasses, h'.current⟩

theorem looked (h : r.PassesTo m) (hl : m.Leads s) (hs : m.Looked s) : r.PassesTo s :=
  ⟨h.toPasses.trans (.of_rest hl hs.rest), by rw [hs.current]; exact h.current⟩

/-- Any token but a brace is passed. -/
theorem advance (h : r.PassesTo m) : r.Passes m.advance := by
  refine h.toPasses.trans ⟨.advance m, ?_⟩
  unfold Reader.advance
  cases hm : m.rest with
  | nil => exact ⟨[], rfl, by simp⟩
  | cons t ts =>
    have ht : t.kind.isBrace = false := by
      have := h.current
      unfold Reader.current at this
      rwa [hm] at this
    exact ⟨[t], rfl, by simpa using ht⟩

theorem advance_to (h : r.PassesTo m) {k : Kind} (hk : m.advance.current.kind = k) (hb : k.isBrace = false) :
    r.PassesTo m.advance := ⟨h.advance, by rwa [hk]⟩

end PassesTo

/-- Where a closing brace is ahead, the input is not at its end. -/
theorem WF.ne_eof_of_closing {ts : List Token} {d : Nat} (hr : r.WF) (h : closing d r.rest = some ts) :
    r.current.kind ≠ .eof := by
  intro he
  rw [hr.rest_eq_nil he] at h
  cases h

theorem WF.rest_eq_of_closing {ts : List Token} (hr : r.WF) (h : closing 0 r.rest = some ts)
    (hk : r.current.kind = .punct .rbrace) : r.rest = ts := by
  have hrest := hr.rest_eq (hr.ne_eof_of_closing h)
  rw [hrest, closing_rbrace_zero hk] at h
  exact hrest.trans (Option.some.inj h)

theorem afterChain_fst (r : Reader) :
    r.afterChain.1 = (r.rest.tail.drop (chainLength r.rest.tail)).headD r.eof := by
  unfold afterChain ahead
  dsimp only
  rw [Nat.add_comm, ← List.drop_drop, List.drop_one]

end Reader

namespace Rule

open Reader (Passes PassesTo)

variable {r m : Reader} {x : Rule α} {Q : α → Reader → Prop}

/-- A rule that passes no brace, and if it succeeds ends on a token that is none. -/
structure Braceless (x : Rule α) : Prop where
  passes : ∀ {r}, r.WF → x.Ensures r (fun _ s => r.PassesTo s) r.Passes

theorem Braceless.ensures (hx : Braceless x) (hr : r.WF) (h : r.Passes m) (hQ : ∀ a s, r.PassesTo s → Q a s) :
    x.Ensures m Q r.Passes :=
  (hx.passes (h.leads.wf hr)).mono (fun a s hs => hQ a s (.trans h hs)) (fun _ hs => h.trans hs)

theorem expect_passes {k : Kind} {Q : Unit → Reader → Prop} (h : r.PassesTo m) (hk : k.isBrace = false)
    (hQ : r.PassesTo m.advance → Q () m.advance) : (expect k).Ensures m Q r.Passes := by
  rw [ensures_expect]
  split
  · rename_i he
    exact hQ (h.advance_to he hk)
  · exact h.toPasses.report _

theorem braceless_dottedName : Braceless dottedName where
  passes {r} hr := by
    unfold dottedName
    simp only [ensures_bind, ensures_current, ensures_ite, ensures_refuse, ensures_pure]
    split
    · exact (Passes.refl r).report _
    · rename_i hk
      refine Ensures.loop (P := fun _ m => r.PassesTo m) (fun xs m hm h => ?_) hr
        (.of_current (not_not.1 hk) rfl)
      unfold segmentRound
      simp only [ensures_bind, ensures_peek, ensures_ite, ensures_advance, ensures_currentIdent, ensures_pure]
      split
      · rename_i hdot
        exact expect_passes (h.advance_to hdot rfl) rfl fun h => h
      · exact h

theorem itemRound_passes {c : Punct} {w : Wanted} (hx : Braceless x) (hr : r.WF) (hc : (Kind.punct c).isBrace = false)
    {xs : Array α} (h : r.Passes m) : (itemRound c w x xs).Ensures m
      (ofRound (fun _ s => r.Passes s) fun _ s => r.PassesTo s) r.Passes := by
  unfold itemRound
  simp only [ensures_bind, ensures_peek, ensures_ite, ensures_advance, ensures_current, ensures_pure, ensures_refuse]
  refine hx.ensures hr h fun a s hs => ?_
  split
  · rename_i hcomma
    have hnext := (hs.advance_to hcomma rfl).advance
    split
    · exact hnext.report _
    · exact hnext
  · split
    · rename_i hclose
      exact hs.advance_to hclose hc
    · exact hs.toPasses.report _

theorem items_passes [Honest x] {c : Punct} {w : Wanted} {Q : List α → Reader → Prop} (hx : Braceless x) (hr : r.WF)
    (hc : (Kind.punct c).isBrace = false) (h : r.Passes m) (hQ : ∀ xs s, r.PassesTo s → Q xs s) :
    (items c w x).Ensures m Q r.Passes := by
  unfold items
  simp only [ensures_bind, ensures_pure]
  exact Ensures.loop (P := fun _ s => r.Passes s) (fun xs s _ hs => (itemRound_passes hx hr hc hs).mono
    (by rintro (a | a) s hs; exacts [hs, hQ _ s hs]) (fun _ hs => hs)) (h.leads.wf hr) h

theorem someItems_passes [Honest x] {c : Punct} {w : Wanted} {Q : List α → Reader → Prop} (hx : Braceless x)
    (hr : r.WF) (hc : (Kind.punct c).isBrace = false) (h : r.Passes m) (hQ : ∀ xs s, r.PassesTo s → Q xs s) :
    (someItems c w x).Ensures m Q r.Passes := by
  unfold someItems
  simp only [ensures_bind, ensures_current, ensures_ite, ensures_refuse]
  split
  · exact h.report _
  · exact items_passes hx hr hc h hQ

theorem manyItems_passes [Honest x] {c : Punct} {w : Wanted} {Q : List α → Reader → Prop} (hx : Braceless x)
    (hr : r.WF) (hc : (Kind.punct c).isBrace = false) (h : r.Passes m) (hQ : ∀ xs s, r.PassesTo s → Q xs s) :
    (manyItems c w x).Ensures m Q r.Passes := by
  unfold manyItems
  simp only [ensures_bind, ensures_current, ensures_ite, ensures_pure]
  split
  · rename_i hclose
    exact hQ _ _ ⟨h, by rwa [hclose]⟩
  · exact items_passes hx hr hc h hQ

/-! ## Expressions pass no brace -/

theorem noExpr_passes {Q : Expr → Reader → Prop} (h : r.Passes m) : noExpr.Ensures m Q r.Passes := by
  unfold noExpr
  simp only [ensures_bind, ensures_current, ensures_report, ensures_fail]
  exact h.report _

section Expr

variable {sub : Nat → Rule Expr} (hsub : ∀ l, Braceless (sub l))
include hsub

theorem unary_passes (hr : r.WF) (h : r.PassesTo r) : (unary sub).Ensures r (fun _ s => r.PassesTo s) r.Passes := by
  unfold unary
  simp only [ensures_bind, ensures_current, ensures_advance, ensures_pure]
  exact (hsub _).ensures hr h.advance fun _ _ hs => hs

theorem parenOrCast_passes (hr : r.WF) (h : r.PassesTo r) :
    (parenOrCast sub).Ensures r (fun _ s => r.PassesTo s) r.Passes := by
  unfold parenOrCast
  simp only [ensures_bind, ensures_current, ensures_ite, ensures_advance, ensures_pure]
  refine looks_opensCast.ensures fun m hl hm => ?_
  have h := h.looked hl hm
  split
  · rename_i hc
    obtain ⟨h1, h2, -⟩ := of_decide_eq_true hc
    rw [← hm.advance.current] at h1
    rw [← hm.advance.advance.current] at h2
    unfold cast
    simp only [ensures_bind, ensures_advance, ensures_currentIdent, ensures_pure]
    exact (hsub _).ensures hr ((h.advance_to h1 rfl).advance_to h2 rfl).advance fun _ _ hs => hs
  · exact (hsub _).ensures hr h.advance fun _ _ hs => expect_passes hs rfl fun h => h

theorem braceless_comprehensionPart : Braceless (comprehensionPart sub) where
  passes {r} hr := by
    unfold comprehensionPart
    simp only [ensures_bind, ensures_peek, ensures_current, ensures_ite, ensures_pure]
    split
    · rename_i hk
      obtain ⟨h1, h2⟩ : r.current.kind = .ident ∧ r.advance.current.kind = .punct .leftArrow := by simpa using hk
      unfold generator
      simp only [ensures_bind, ensures_current, ensures_advance, ensures_pure]
      exact expect_passes ((PassesTo.of_current h1 rfl).advance_to h2 rfl) rfl fun h => h
    · exact (hsub 0).ensures hr (.refl r) fun _ _ hs => hs

theorem braceless_propertyInit : Braceless (propertyInit sub) where
  passes {r} hr := by
    unfold propertyInit
    simp only [ensures_bind, ensures_current, ensures_ite, ensures_refuse, ensures_advance, ensures_pure]
    split
    · exact (Passes.refl r).report _
    · rename_i hk
      refine expect_passes (.of_current (not_not.1 hk) rfl) rfl fun h => ?_
      exact (hsub 0).ensures hr h.advance fun _ _ hs => hs

variable [∀ l, Honest (sub l)]

theorem nameOrCall_passes (hr : r.WF) : (nameOrCall sub).Ensures r (fun _ s => r.PassesTo s) r.Passes := by
  unfold nameOrCall
  simp only [ensures_bind, ensures_peek, ensures_current, ensures_ite, ensures_advance, ensures_pure]
  refine braceless_dottedName.ensures hr (.refl r) fun _ m h => ?_
  split
  · exact h
  · rename_i hk
    exact manyItems_passes (hsub 0) hr rfl (h.advance_to (not_not.1 hk) rfl).advance fun _ _ hs => hs

theorem listOrComprehension_passes (hr : r.WF) (h : r.PassesTo r) :
    (listOrComprehension sub).Ensures r (fun _ s => r.PassesTo s) r.Passes := by
  unfold listOrComprehension
  simp only [ensures_bind, ensures_current, ensures_ite, ensures_advance, ensures_pure]
  refine looks_opensComprehension.ensures fun m hl hm => ?_
  have h := h.looked hl hm
  split
  · rename_i hc
    obtain ⟨h1, h2⟩ := of_decide_eq_true hc
    rw [← hm.advance.current] at h1
    rw [← hm.advance.advance.current] at h2
    unfold comprehension
    simp only [ensures_bind, ensures_current, ensures_advance, ensures_currentIdent]
    refine someItems_passes (braceless_comprehensionPart hsub) hr rfl
      ((h.advance_to h1 rfl).advance_to h2 rfl).advance fun _ s hs => ?_
    unfold comprehensionOf
    split
    · exact hs
    · exact hs.looked (.report s _) ⟨rfl, rfl⟩
  · exact manyItems_passes (hsub 0) hr rfl h.advance fun _ _ hs => hs

theorem construct_passes (hr : r.WF) (h : r.PassesTo r) :
    (construct sub).Ensures r (fun _ s => r.PassesTo s) r.Passes := by
  unfold construct
  simp only [ensures_bind, ensures_current, ensures_currentIdent, ensures_advance, ensures_pure]
  refine expect_passes h rfl fun h => expect_passes h rfl fun h => ?_
  exact manyItems_passes (braceless_propertyInit hsub) hr rfl h.advance fun _ _ hs => hs

theorem braceless_primary : Braceless (primary sub) where
  passes {r} hr := by
    unfold primary
    simp only [ensures_bind, ensures_current]
    split
    all_goals rename_i hk
    · exact nameOrCall_passes hsub hr
    · exact .of_current hk rfl
    · exact .of_current hk rfl
    · exact .of_current hk rfl
    · exact .of_current hk rfl
    · exact .of_current hk rfl
    · exact construct_passes hsub hr (.of_current hk rfl)
    · exact unary_passes hsub hr (.of_current hk rfl)
    · exact unary_passes hsub hr (.of_current hk rfl)
    · exact parenOrCast_passes hsub hr (.of_current hk rfl)
    · exact listOrComprehension_passes hsub hr (.of_current hk rfl)
    · exact noExpr_passes (.refl r)

theorem operators_passes {level : Nat} {left : Expr} (hr : r.WF) (h : r.PassesTo m) :
    (operators sub level left).Ensures m (fun _ s => r.PassesTo s) r.Passes := by
  refine Ensures.loop (P := fun _ s => r.PassesTo s) (fun e s _ hs => ?_) (h.leads.wf hr) h
  unfold operatorRound
  simp only [ensures_bind, ensures_peek]
  split
  · exact hs
  · rename_i op hop
    simp only [ensures_ite, ensures_bind, ensures_advance, ensures_pure]
    split
    · have hk : s.advance.current.kind.isBrace = false := by
        cases hb : s.advance.current.kind.isBrace with
        | false => rfl
        | true =>
          unfold Kind.isBrace at hb
          split at hb <;> simp_all [BinaryOp.ofKind?]
      exact (hsub _).ensures hr (hs.advance_to rfl hk).advance fun _ _ hs => hs
    · exact hs

end Expr

theorem braceless_exprAt (d l : Nat) : Braceless (exprAt d l) := by
  induction d generalizing l with
  | zero => exact ⟨fun {r} _ => noExpr_passes (.refl r)⟩
  | succ d hsub =>
    refine ⟨fun {r} hr => ?_⟩
    unfold exprAt
    rw [ensures_bind]
    exact (braceless_primary hsub).ensures hr (.refl r) fun _ _ h => operators_passes hsub hr h

theorem braceless_expr : Braceless expr := ⟨fun {r} hr => (braceless_exprAt (r.budget + 1) 0).passes hr⟩

/-! ## Statements without blocks pass no brace -/

theorem typeRef_passes {t : Token} (h : r.PassesTo m) : (typeRef t).Ensures m (fun _ s => r.PassesTo s) r.Passes := by
  unfold typeRef
  simp only [ensures_bind, ensures_peek]
  split
  · rename_i hk
    exact h.looked (.report m _) ⟨rfl, rfl⟩
  · rename_i hk
    simp only [ensures_bind, ensures_advance, ensures_current, ensures_currentIdent, ensures_peek, ensures_ite,
      ensures_refuse, ensures_pure]
    refine expect_passes (h.advance_to hk rfl) rfl fun h => expect_passes h rfl fun h => ?_
    split
    · rename_i hk
      rcases Bool.or_eq_true_iff.1 hk with hk | hk
      · exact h.advance_to (of_decide_eq_true hk) rfl
      · exact h.advance_to (of_decide_eq_true hk) rfl
    · exact h.toPasses.report _
  · exact ensures_bind.2 (expect_passes h rfl fun h => h)

theorem varDecl_passes (hr : r.WF) (h1 : r.current.kind = .ident) (h2 : r.advance.current.kind = .punct .colon) :
    varDecl.Ensures r (fun _ s => r.PassesTo s) r.Passes := by
  unfold varDecl initFollows
  simp only [ensures_bind, ensures_current, ensures_advance, ensures_peek, ensures_ite, ensures_pure]
  refine (typeRef_passes ((PassesTo.of_current h1 rfl).advance_to h2 rfl)).mono ?_ (fun _ h => h)
  rintro ⟨type, begun⟩ m h
  dsimp only
  have hinit : ∀ {m : Reader}, r.PassesTo m → expr.Ensures m.advance (fun _ s => r.PassesTo s) r.Passes :=
    fun h => braceless_expr.ensures hr h.advance fun _ _ hs => hs
  split
  · rename_i hk
    have hk : m.advance.current.kind = .punct .assign := of_decide_eq_true (Bool.and_eq_true_iff.1 hk).2
    rw [if_pos trivial]
    exact hinit (h.advance_to hk rfl)
  · split
    · exact hinit h
    · exact h

/-- The token behind a dotted name is the one that was looked at before reading the name. -/
theorem dottedName_next (hr : r.WF) :
    dottedName.Ensures r (fun _ s => s.advance.current = r.afterChain.1) (fun _ => True) := by
  unfold dottedName
  simp only [ensures_bind, ensures_current, ensures_ite, ensures_refuse, ensures_pure]
  split
  · trivial
  · refine Ensures.loop (P := fun _ m => m.afterChain.1 = r.afterChain.1) (fun xs m hm h => ?_) hr rfl
    rw [← h]
    unfold segmentRound
    simp only [ensures_bind, ensures_peek, ensures_ite, ensures_advance, ensures_expect, ensures_currentIdent,
      ensures_pure]
    split
    · rename_i hdot
      split
      · rename_i hident
        have h1 : m.rest.tail = _ := hm.advance.rest_eq (by simp [hdot])
        have h2 := hm.advance.advance.rest_eq (by simp [hident])
        change m.advance.advance.afterChain.1 = m.afterChain.1
        rw [Reader.afterChain_fst, Reader.afterChain_fst, h1, h2]
        simp only [chainLength, hdot, hident, decide_true, Bool.and_self, if_true, List.drop_succ_cons,
          List.tail_cons]
        rfl
      · trivial
    · rename_i hdot
      rw [hm.advance.current_kind] at hdot
      change m.advance.current = m.afterChain.1
      rw [Reader.afterChain_fst, show chainLength m.rest.tail = 0 from chainLength_of_ne hdot]
      rfl

theorem assignment_passes (hr : r.WF) (ha : r.afterChain.1.kind = .punct .assign) :
    assignment.Ensures r (fun _ s => r.PassesTo s) r.Passes := by
  unfold assignment
  simp only [ensures_bind, ensures_advance, ensures_pure]
  have hname := (braceless_dottedName.passes hr).and (dottedName_next hr)
  refine hname.mono (fun _ m h => ?_) (fun _ h => h.1)
  exact braceless_expr.ensures hr (h.1.advance_to (by rw [h.2, ha]) rfl).advance fun _ _ hs => hs

theorem nameStmt_passes (hr : r.WF) (h : r.current.kind = .ident) :
    nameStmt.Ensures r (fun _ s => r.PassesTo s) r.Passes := by
  unfold nameStmt
  simp only [ensures_bind, ensures_peek, ensures_ite, ensures_afterChain]
  split
  · rename_i hk
    exact varDecl_passes hr h hk
  · have hl : r.Passes r.afterChain.2 := .of_rest (.look r _) rfl
    split
    · rename_i hk
      refine (assignment_passes (hl.leads.wf hr) hk).mono (fun _ s hs => .trans hl hs) (fun s hs => hl.trans hs)
    · unfold exprStmt
      simp only [ensures_bind, ensures_pure]
      exact braceless_expr.ensures hr hl fun _ _ hs => hs

/-! ## Blocks -/

/-- With at most `k` tokens left, a rule reads a block up to the brace that closes it. -/
structure Closes (k : Nat) (block : Rule Block) : Prop where
  ends : ∀ {r : Reader} {ts : List Token}, r.WF → r.rest.length ≤ k → r.current.kind = .punct .lbrace →
    closing 0 r.advance.rest = some ts → block.Ensures r
      (fun b s => s.rest = ts ∧ ∃ ss, b = .mk ss (r.current.span.through s.current.span)) (fun _ => False)

section Stmt

variable {k : Nat} {block : Rule Block} {ts : List Token}

/-- The brace that closes what is around a block is ahead behind the block. -/
theorem Closes.inside (hb : Closes k block) (hr : r.WF) (hk : r.rest.length ≤ k)
    (hl : r.current.kind = .punct .lbrace) (h : closing 0 r.rest = some ts) :
    block.Ensures r (fun _ s => closing 0 s.advance.rest = some ts) (fun s => closing 0 s.rest = some ts) := by
  rw [hr.rest_eq (by rw [hl]; exact nofun), closing_lbrace hl] at h
  obtain ⟨c, vs, hvs, -, h⟩ := closing_add (d := 0) (e := 0) h
  refine (hb.ends hr hk hl hvs).mono (fun b s hs => ?_) (fun _ hs => hs.elim)
  unfold Reader.advance
  rw [hs.1]
  exact h

theorem condBlock_inside (hb : Closes k block) (hr : r.WF) (hk : r.rest.length ≤ k) (hw : r.current.kind = .keyword w)
    (h : closing 0 r.rest = some ts) : (condBlock block).Ensures r
      (fun _ s => closing 0 s.advance.rest = some ts) (fun s => closing 0 s.rest = some ts) := by
  have hp : r.Passes r.advance := (PassesTo.of_current hw rfl).advance
  unfold condBlock
  simp only [ensures_bind, ensures_advance, ensures_expect, ensures_pure]
  refine (braceless_expr.passes hr.advance).mono (fun e m hm => ?_) (fun s hs => (hp.trans hs).closing_eq h)
  have hm := PassesTo.trans hp hm
  split
  · rename_i hl
    have hm' := hm.advance
    exact hb.inside (hm'.leads.wf hr) (Nat.le_trans hm'.leads.length_le hk) hl (hm'.closing_eq h)
  · exact (hm.toPasses.report _).closing_eq h

variable [Honest block]

theorem ifStmt_inside (hb : Closes k block) (hr : r.WF) (hk : r.rest.length ≤ k) (hw : r.current.kind = .keyword w)
    (h : closing 0 r.rest = some ts) : (ifStmt block).Ensures r
      (fun _ s => closing 0 s.advance.rest = some ts) (fun s => closing 0 s.rest = some ts) := by
  unfold ifStmt elseBlock
  simp only [ensures_bind, ensures_current, ensures_peek, ensures_advance, ensures_ite, ensures_expect, ensures_pure]
  refine (condBlock_inside hb hr hk hw h).leads.mono ?_ (fun _ hs => hs.2)
  rintro ⟨e, b⟩ m ⟨hl, hm⟩
  split
  · rename_i helse
    have hp : m.advance.Passes m.advance.advance := (PassesTo.of_current helse rfl).advance
    have hl' := (hl.trans (.advance m)).trans hp.leads
    split
    · rename_i hbrace
      exact hb.inside (hl'.wf hr) (Nat.le_trans hl'.length_le hk) hbrace (hp.closing_eq hm)
    · -- what stands in place of the brace behind `else` is not passed: it may be the closing one
      exact hm
  · exact hm

theorem stmt_inside (hb : Closes k block) (hr : r.WF) (hk : r.rest.length ≤ k) (h : closing 0 r.rest = some ts) :
    (stmt block).Ensures r (fun _ s => closing 0 s.advance.rest = some ts) (fun s => closing 0 s.rest = some ts) := by
  have hpass : ∀ {x : Rule Stmt}, x.Ensures r (fun _ s => r.PassesTo s) r.Passes → x.Ensures r
      (fun _ s => closing 0 s.advance.rest = some ts) (fun s => closing 0 s.rest = some ts) := fun hx =>
    hx.mono (fun _ s hs => hs.advance.closing_eq h) (fun s hs => hs.closing_eq h)
  unfold stmt
  simp only [ensures_bind, ensures_current]
  split
  all_goals rename_i hw
  · exact ifStmt_inside hb hr hk hw h
  · unfold whileStmt
    simp only [ensures_bind, ensures_current, ensures_pure]
    exact condBlock_inside hb hr hk hw h
  · unfold withStmt
    simp only [ensures_bind, ensures_current, ensures_pure]
    exact condBlock_inside hb hr hk hw h
  · refine hpass ?_
    unfold returnStmt
    simp only [ensures_bind, ensures_current, ensures_advance, ensures_pure]
    exact braceless_expr.ensures hr (PassesTo.of_current hw rfl).advance fun _ _ hs => hs
  · exact hpass (nameStmt_passes hr hw)
  · refine hpass ?_
    unfold exprStmt
    simp only [ensures_bind, ensures_pure]
    exact braceless_expr.ensures hr (.refl r) fun _ _ hs => hs

theorem finishStmt_inside {F : Reader → Prop} (h : closing 0 m.advance.rest = some ts) :
    finishStmt.Ensures m (fun _ s => closing 0 s.rest = some ts) F := by
  unfold finishStmt
  simp only [ensures_bind, ensures_peek, ensures_ite, ensures_advance, ensures_report]
  split
  · rename_i hk
    exact (PassesTo.of_current hk rfl).advance.closing_eq h
  · exact h

/-- Giving up a unit that does not start with the closing brace does not pass that brace. -/
theorem recover_inside {unit : SyncUnit} {start : Token} {F : Reader → Prop} (hu : unit ≠ .declaration)
    (hs : start.kind ≠ .punct .rbrace) (h : closing 0 m.rest = some ts) :
    (recover unit start).Ensures m (fun _ s => closing 0 s.rest = some ts) F := by
  refine ensures_recover fun s _ e => ?_
  rw [e]
  unfold skipOf
  split
  · rename_i hsame
    obtain ⟨t, us, hm⟩ : ∃ t us, m.rest = t :: us := by
      cases hm : m.rest with
      | nil => rw [hm] at h; cases h
      | cons t us => exact ⟨t, us, rfl⟩
    have ht : t.kind = start.kind := by
      unfold Reader.current Token.isSame at hsame
      rw [hm] at hsame
      simp only [Bool.and_eq_true, decide_eq_true_eq] at hsame
      exact hsame.1.1
    rw [hm] at h ⊢
    exact closing_skipUnit hu (by rwa [ht]) h
  · exact closing_skipFrom hu h

theorem stmtRound_inside (hb : Closes k block) (hr : r.WF) (hk : r.rest.length ≤ k) (h : closing 0 r.rest = some ts)
    {ss : Array Stmt} : (stmtRound block ss).Ensures r
      (ofRound (fun _ s => closing 0 s.rest = some ts) fun _ s => s.rest = ts ∧ s.current.kind = .punct .rbrace)
      (fun _ => False) := by
  unfold stmtRound
  simp only [ensures_bind, ensures_current, ensures_ite, ensures_attempt, ensures_pure]
  split
  · rename_i hstop
    -- the closing brace is still ahead, so it is not the end of the input that stops the block
    have hkind : r.current.kind = .punct .rbrace := by simpa [hr.ne_eof_of_closing h] using hstop
    exact ⟨hr.rest_eq_of_closing h hkind, hkind⟩
  · rename_i hstop
    have hs : r.current.kind ≠ .punct .rbrace := fun e => hstop (by simp [e])
    refine (stmt_inside hb hr hk h).mono (fun st m hm => ?_) (fun m hm => ?_)
    · exact finishStmt_inside hm
    · exact recover_inside (by decide) hs hm

theorem closes_blockWith (hb : Closes k block) : Closes (k + 1) (blockWith block) where
  ends {r ts} hr hk hl h := by
    have hlt : r.advance.rest.length ≤ k :=
      Nat.le_of_lt_succ (Nat.lt_of_lt_of_le (hr.length_advance (by simp [hl])) hk)
    unfold blockWith
    simp only [ensures_bind, ensures_current, ensures_advance, ensures_ite, ensures_report, ensures_pure]
    -- between statements the closing brace is ahead, and the tokens left bound the blocks inside
    refine Ensures.loop (P := fun _ m => m.rest.length ≤ k ∧ closing 0 m.rest = some ts)
      (fun ss m hm hinside => ?_) hr.advance ⟨hlt, h⟩
    obtain ⟨hmk, hmc⟩ := hinside
    refine (stmtRound_inside hb hm hmk hmc).leads.mono ?_ (fun _ hs => hs.2)
    rintro (ss | ss) s ⟨hsl, hs⟩
    · exact ⟨Nat.le_trans hsl.length_le hmk, hs⟩
    · obtain ⟨hrest, hkind⟩ := hs
      have hne : s.current.kind ≠ .eof := by simp [hkind]
      change if s.current.kind = .eof then _ else _
      rw [if_neg hne]
      exact ⟨hrest, _, rfl⟩

end Stmt

theorem closes_blockAt (k : Nat) : Closes k (blockAt k) := by
  induction k with
  | zero =>
    refine ⟨fun hr hk hl _ => ?_⟩
    have := hr.length_pos (by simp [hl])
    omega
  | succ k ih => exact closes_blockWith ih

/-- A block ends on the brace that closes it, whatever stands inside it and whatever was wrong there. -/
theorem block_ends_on_closing {r : Reader} (hr : r.WF) {opened closed : Token} {ts rest : List Token}
    (hrest : r.rest = opened :: (ts ++ closed :: rest)) (hopened : opened.kind = .punct .lbrace) (hts : Balanced ts)
    (hclosed : closed.kind = .punct .rbrace) :
    ∃ stmts s, block r = .ok (.mk stmts (opened.span.through closed.span)) s ∧
      s.current = closed ∧ s.rest = closed :: rest := by
  have hcur : r.current = opened := by
    unfold Reader.current
    rw [hrest]
    rfl
  have hahead : closing 0 r.advance.rest = some (closed :: rest) := by
    unfold Reader.advance
    rw [hrest]
    exact hts.closing_append hclosed
  have hblock := (closes_blockAt (r.budget + 1)).ends hr (Nat.le_succ_of_le hr.budget) (by rwa [hcur]) hahead
  obtain ⟨_, s, hs, hsr, stmts, rfl⟩ := hblock.exists_ok
  have hsc : s.current = closed := by
    unfold Reader.current
    rw [hsr]
    rfl
  rw [hcur, hsc] at hs
  exact ⟨stmts, s, hs, hsc, hsr⟩

/-- A block with a stray parenthesis, a branch without a block, blocks that are no statements and a loop
without a condition. -/
def brokenBlock : Reader :=
  .ofSource "a.sem" "\x7b if x \x7b ; ) \x7d else y = = 3; \x7b \x7b ] \x7d \x7d return; while ( \x7d z;"

theorem block_ends_on_closing_broken :
    Balanced ((brokenBlock.rest.drop 1).take 21) ∧ brokenBlock.rest.length = 25 ∧
    ∃ stmts span s, block brokenBlock = .ok (.mk stmts span) s ∧ s.rest = brokenBlock.rest.drop 22 := by
  have hrest : brokenBlock.rest = brokenBlock.current ::
      ((brokenBlock.rest.drop 1).take 21 ++ brokenBlock.ahead 21 :: brokenBlock.rest.drop 23) := by decide +kernel
  have hts : Balanced ((brokenBlock.rest.drop 1).take 21) := by decide +kernel
  obtain ⟨stmts, s, hs, -, hsr⟩ := block_ends_on_closing (Reader.ofSource_wf _ _ _) hrest (by decide +kernel) hts
    (by decide +kernel)
  refine ⟨hts, by decide +kernel, stmts, _, s, hs, hsr.trans ?_⟩
  decide +kernel

end Rule
end SemFront
