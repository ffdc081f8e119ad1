/-
Whatever a rule reads is written, also where it reports: names, IRIs and expressions. A comprehension
with the wrong parts is the only expression that is left as a placeholder.
-/
import SemFront.Proofs.Grammar.Expr
import SemFront.Proofs.Grammar.Progress
import SemFront.Proofs.Tree.Written

namespace SemFront

theorem forall_mem_push {P : α → Prop} {xs : Array α} {x : α} (h : ∀ y ∈ xs.toList, P y) (hx : P x) :
    ∀ y ∈ (xs.push x).toList, P y := by
  intro y hy
  rw [Array.toList_push, List.mem_append, List.mem_singleton] at hy
  rcases hy with hy | rfl
  · exact h y hy
  · exact hx

theorem Reader.Leads.next {r m : Reader} (h : r.Leads m) : r.Leads m.advance := h.trans (.advance m)

theorem Reader.WF.isWord {m : Reader} (hm : m.WF) (hk : m.current.kind.isWord = true) : IsWord m.current.ident.name :=
  ((hm.current_wf (by rintro e; rw [e] at hk; cases hk)).word hk).1

namespace Rule

/-- Wherever reading has come from `r`, a rule goes on from there and gives a value with `P`, if any. -/
def Yields (r : Reader) (x : Rule α) (P : α → Prop) : Prop :=
  ∀ m, r.Leads m → x.Ensures m (fun a s => r.Leads s ∧ P a) fun _ => True

variable {r : Reader}

/-- A repetition gives what its rounds keep. -/
theorem Yields.loop {round : σ → Rule (Round σ)} [∀ x, Honest (round x)] [Progresses round] {P : σ → Prop}
    (hr : r.WF) (hround : ∀ x m, r.Leads m → P x →
      (round x).Ensures m (ofRound (fun y _ => P y) fun y _ => P y) fun _ => True) {x : σ} (hx : P x) :
    Yields r (loop round x) P := by
  intro m hm
  refine Ensures.loop (P := fun y n => r.Leads n ∧ P y) (fun y n _ hn => ?_) (hm.wf hr) ⟨hm, hx⟩
  refine (hround y n hn.1 hn.2).leads.mono ?_ (fun _ _ => trivial)
  rintro (z | z) s ⟨hs, hz⟩
  · exact ⟨hn.1.trans hs, hz⟩
  · exact ⟨hn.1.trans hs, hz⟩

section Items

variable {item : Rule α} [Honest item] {P : α → Prop} {closing : Punct} {what : Wanted}

theorem Yields.items (hr : r.WF) (h : Yields r item P) :
    Yields r (items closing what item) fun xs => ∀ x ∈ xs, P x := by
  intro m hm
  unfold Rule.items
  rw [ensures_bind]
  refine (Yields.loop (P := fun xs : Array α => ∀ x ∈ xs.toList, P x) hr (fun xs n hn hxs => ?_) (by simp) m hm)
  unfold itemRound
  simp only [ensures_bind, ensures_peek, ensures_ite, ensures_advance, ensures_current, ensures_refuse, ensures_pure]
  refine (h n hn).mono (fun x s hx => ?_) (fun _ h => h)
  have hpush : ∀ y ∈ (xs.push x).toList, P y := forall_mem_push hxs hx.2
  split
  · split
    · trivial
    · exact hpush
  · split
    · exact hpush
    · trivial

theorem Yields.someItems (hr : r.WF) (h : Yields r item P) :
    Yields r (someItems closing what item) fun xs => ∀ x ∈ xs, P x := by
  intro m hm
  unfold Rule.someItems
  simp only [ensures_bind, ensures_current, ensures_ite, ensures_refuse]
  split
  · trivial
  · exact h.items hr m hm

theorem Yields.manyItems (hr : r.WF) (h : Yields r item P) :
    Yields r (manyItems closing what item) fun xs => ∀ x ∈ xs, P x := by
  intro m hm
  unfold Rule.manyItems
  simp only [ensures_bind, ensures_current, ensures_ite, ensures_pure]
  split
  · exact ⟨hm, by simp⟩
  · exact h.items hr m hm

end Items

/-! ## Names and IRIs -/

/-- Segments behind dots, each of them a token that `segment` moves on to. -/
theorem yields_segments {segment : Rule Unit} [Honest segment] {P : Ident → Prop} (hr : r.WF)
    (hsegment : ∀ m, r.Leads m → segment.Ensures m (fun _ s => P s.current.ident) fun _ => True) {xs : Array Ident}
    (hxs : ∀ x ∈ xs.toList, P x) (hne : xs.toList ≠ []) :
    Yields r (loop (segmentRound segment) xs) fun ys => ys.toList ≠ [] ∧ ∀ y ∈ ys.toList, P y := by
  refine Yields.loop (P := fun ys : Array Ident => ys.toList ≠ [] ∧ ∀ y ∈ ys.toList, P y) hr (fun ys m hm hys => ?_)
    ⟨hne, hxs⟩
  unfold segmentRound
  simp only [ensures_bind, ensures_peek, ensures_ite, ensures_advance, ensures_currentIdent, ensures_pure]
  split
  · exact (hsegment _ hm.next).mono (fun _ s hs => ⟨by simp, forall_mem_push hys.2 hs⟩) (fun _ h => h)
  · exact hys

theorem yields_dottedName (hr : r.WF) : Yields r dottedName Name.Canonical := by
  intro m hm
  unfold dottedName
  simp only [ensures_bind, ensures_current, ensures_ite, ensures_refuse, ensures_pure]
  split
  · trivial
  · rename_i hk
    have hfirst : m.current.ident.Canonical := (hm.wf hr).ident_canonical (by simpa using hk)
    refine (yields_segments (P := Ident.Canonical) hr (fun n hn => ?_) (by simpa using hfirst) (by simp) m hm).mono
      (fun parts s hs => ⟨hs.1, hs.2.1, hs.2.2⟩) (fun _ h => h)
    rw [ensures_expect]
    split
    · rename_i hk
      exact (hn.next.wf hr).ident_canonical hk
    · trivial

theorem yields_iriDomain (hr : r.WF) : Yields r iriDomain fun domain => domain ≠ [] ∧ ∀ i ∈ domain, IsWord i.name := by
  intro m hm
  unfold iriDomain
  simp only [ensures_bind, ensures_expectWord, ensures_currentIdent, ensures_pure]
  split
  · rename_i hk
    have hfirst : IsWord m.advance.current.ident.name := (hm.next.wf hr).isWord hk
    refine yields_segments (P := fun i => IsWord i.name) hr (fun n hn => ?_) (by simpa using hfirst) (by simp) _ hm.next
    rw [ensures_expectWord]
    split
    · rename_i hk
      exact (hn.next.wf hr).isWord hk
    · trivial
  · trivial

theorem yields_iriPath (hr : r.WF) : Yields r iriPath fun path => ∀ i ∈ path.1, IsWord i.name := by
  intro m hm
  unfold iriPath
  simp only [ensures_bind, ensures_pure]
  refine Yields.loop (P := fun path : Array Ident × Bool => ∀ i ∈ path.1.toList, IsWord i.name) hr
    (fun path n hn hpath => ?_) (by simp) m hm
  unfold pathRound
  simp only [ensures_bind, ensures_peek, ensures_ite, ensures_advance, ensures_currentIdent, ensures_pure]
  split
  · split
    · rename_i hk
      exact forall_mem_push hpath ((hn.next.next.wf hr).isWord hk)
    · exact hpath
  · exact hpath

theorem yields_iriFragment (hr : r.WF) : Yields r iriFragment fragmentCanonical := by
  intro m hm
  unfold iriFragment
  simp only [ensures_bind, ensures_peek, ensures_ite, ensures_advance, ensures_current, ensures_currentIdent,
    ensures_pure]
  split
  · split
    · rename_i hk
      exact ⟨hm.next.next, .inr ((hm.next.next.wf hr).isWord hk)⟩
    · exact ⟨hm.next, .inl rfl⟩
  · exact ⟨hm, trivial⟩

theorem yields_absoluteIri {first : Token} (hr : r.WF) (hfirst : IsWord first.ident.name) :
    Yields r (absoluteIri first) AbsoluteIri.Canonical := by
  intro m hm
  unfold absoluteIri
  simp only [ensures_bind, ensures_advance, ensures_current, ensures_pure]
  refine (yields_iriDomain hr _ hm.next.next).mono (fun domain n hdomain => ?_) (fun _ h => h)
  refine (yields_iriPath hr _ hdomain.1).mono (fun path o hpath => ?_) (fun _ h => h)
  refine (yields_iriFragment hr _ hpath.1).mono (fun fragment s hfragment => ⟨hfragment.1, ?_⟩) (fun _ h => h)
  exact ⟨⟨_, rfl, hfirst⟩, hdomain.2.1, hdomain.2.2, hpath.2, hfragment.2⟩

theorem yields_iri (hr : r.WF) : Yields r iri fun i => ∀ a, i = .absolute a → a.Canonical := by
  -- only an absolute IRI can become the target of an alias
  have hqualified : ∀ (first : Token) (scope : Option Ident) (m : Reader), r.Leads m → (qName first scope).Ensures m
      (fun q s => r.Leads s ∧ ∀ a, Iri.qualified q = .absolute a → a.Canonical) fun _ => True := by
    intro first scope m hm
    exact (Honest.ensures (x := qName first scope)).mono (fun q s hs => ⟨hm.trans hs, fun a h => by cases h⟩)
      (fun _ _ => trivial)
  intro m hm
  unfold iri
  simp only [ensures_bind, ensures_current, ensures_ite, ensures_pure, ensures_refuse, ensures_expect]
  split
  · exact hqualified _ _ m hm
  · split
    · rename_i hk
      split
      · refine (Honest.ensures (x := opensHost)).mono (fun host n hn => ?_) (fun _ _ => trivial)
        have hrn : r.Leads n := hm.next.trans hn
        split
        · refine (yields_absoluteIri hr ((hm.wf hr).isWord hk) n hrn).mono (fun a s ha => ⟨ha.1, ?_⟩) (fun _ h => h)
          rintro b ⟨⟩
          exact ha.2
        · exact hqualified _ _ n hrn
      · trivial
    · trivial

/-! ## Operands -/

section Sub

variable {sub : Nat → Rule Expr} [∀ l, Honest (sub l)] (hr : r.WF)
  (hsub : ∀ l, Yields r (sub l) fun e => e.Written ∧ (operandLevel ≤ l → e.isBinary = false))
include hsub

/-- What is read as an operand: a written expression with no operator of its own. -/
def Operand (e : Expr) : Prop := e.Written ∧ e.isBinary = false

omit [∀ l, Honest (sub l)] in
theorem yields_unary : Yields r (unary sub) Operand := by
  intro m hm
  unfold unary
  simp only [ensures_bind, ensures_current, ensures_advance, ensures_pure]
  refine (hsub _ _ hm.next).mono (fun e s he => ⟨he.1, ?_⟩) (fun _ h => h)
  split
  · exact ⟨.not he.2.1, rfl⟩
  · exact ⟨.neg he.2.1, rfl⟩

include hr

omit [∀ l, Honest (sub l)] in
theorem yields_parenOrCast : Yields r (parenOrCast sub) Operand := by
  intro m hm
  unfold parenOrCast
  simp only [ensures_bind, ensures_current]
  refine looks_opensCast.ensures fun n hn hlook => ?_
  have hrn : r.Leads n := hm.trans hn
  split
  · rename_i hcast
    have htype : n.advance.current.kind = .ident := by
      rw [hlook.advance.current]
      exact (of_decide_eq_true hcast).1
    unfold cast
    simp only [ensures_bind, ensures_advance, ensures_currentIdent, ensures_pure]
    refine (hsub _ _ hrn.next.next.next).mono (fun e s he => ⟨he.1, ?_, rfl⟩) (fun _ h => h)
    exact .cast ((hrn.next.wf hr).ident_canonical htype) he.2.1 (he.2.2 (Nat.le_refl _))
  · simp only [ensures_bind, ensures_advance, ensures_expect, ensures_current, ensures_pure]
    refine (hsub _ _ hrn.next).mono (fun e s he => ?_) (fun _ h => h)
    split
    · exact ⟨he.1.next, .paren he.2.1, rfl⟩
    · trivial

theorem yields_nameOrCall : Yields r (nameOrCall sub) Operand := by
  intro m hm
  unfold nameOrCall
  simp only [ensures_bind]
  refine (yields_dottedName hr m hm).mono (fun name n hname => ?_) (fun _ h => h)
  simp only [ensures_peek, ensures_ite, ensures_pure, ensures_bind, ensures_advance, ensures_current]
  split
  · exact ⟨hname.1, .varRef hname.2, rfl⟩
  · refine ((hsub 0).manyItems hr _ hname.1.next.next).mono (fun args s hargs => ⟨hargs.1, ?_, rfl⟩) (fun _ h => h)
    exact .call hname.2 fun e he => (hargs.2 e he).1

/-! ## Lists and comprehensions -/

/-- A part of a comprehension as it is read. -/
def ComprehensionPart.Written : ComprehensionPart → Prop
  | .generator g => ∃ y z, g.element = some y ∧ g.source = some z ∧ y.Canonical ∧ z.Canonical
  | .constraint e => e.Written

omit [∀ l, Honest (sub l)] in
theorem yields_comprehensionPart : Yields r (comprehensionPart sub) ComprehensionPart.Written := by
  intro m hm
  unfold comprehensionPart generator
  simp only [ensures_bind, ensures_current, ensures_peek, ensures_ite, ensures_advance, ensures_expect, ensures_pure]
  split
  · rename_i hk
    simp only [Bool.and_eq_true, decide_eq_true_eq] at hk
    split
    · rename_i hsource
      exact ⟨hm.next.next, _, _, rfl, rfl, (hm.wf hr).ident_canonical hk.1,
        (hm.next.next.wf hr).ident_canonical hsource⟩
    · trivial
  · exact (hsub 0 m hm).mono (fun e s he => ⟨he.1, he.2.1⟩) (fun _ h => h)

theorem yields_listOrComprehension : Yields r (listOrComprehension sub) Operand := by
  intro m hm
  unfold listOrComprehension
  simp only [ensures_bind, ensures_current]
  refine looks_opensComprehension.ensures fun n hn hlook => ?_
  have hrn : r.Leads n := hm.trans hn
  split
  · rename_i hopens
    have helement : n.advance.current.kind = .ident := by
      rw [hlook.advance.current]
      exact (of_decide_eq_true hopens).1
    unfold comprehension
    simp only [ensures_bind, ensures_advance, ensures_currentIdent, ensures_current]
    refine ((yields_comprehensionPart hr hsub).someItems hr _ hrn.next.next.next).mono (fun parts s hparts => ?_)
      (fun _ h => h)
    unfold comprehensionOf
    cases hshape : comprehensionShape parts with
    | ok p =>
      obtain ⟨⟨element, source, g⟩, c⟩ := p
      obtain rfl := comprehensionShape_eq_ok.1 hshape
      obtain ⟨y, z, hy, hz, hyc, hzc⟩ := hparts.2 (.generator ⟨element, source, g⟩) (by simp)
      have hc : c.Written := hparts.2 (.constraint c) (by simp)
      subst hy hz
      exact ⟨hparts.1, .comprehension ((hrn.next.wf hr).ident_canonical helement) hyc hzc hc, rfl⟩
    | error p => exact ⟨hparts.1.trans (.report s _), .bad, rfl⟩
  · simp only [ensures_bind, ensures_advance, ensures_current, ensures_pure]
    refine ((hsub 0).manyItems hr _ hrn.next).mono (fun elems s helems => ⟨helems.1, ?_, rfl⟩) (fun _ h => h)
    exact .list fun e he => (helems.2 e he).1

/-! ## New instances -/

omit [∀ l, Honest (sub l)] in
theorem yields_propertyInit : Yields r (propertyInit sub) fun i =>
    (∃ x, i.name = some x ∧ x.Canonical) ∧ i.value.Written := by
  intro m hm
  unfold propertyInit
  simp only [ensures_bind, ensures_current, ensures_ite, ensures_refuse, ensures_expect, ensures_advance, ensures_pure]
  split
  · trivial
  · rename_i hk
    split
    · refine (hsub 0 _ hm.next.next).mono (fun e s he => ⟨he.1, ⟨_, rfl, ?_⟩, he.2.1⟩) (fun _ h => h)
      exact (hm.wf hr).ident_canonical (by simpa using hk)
    · trivial

theorem yields_construct : Yields r (construct sub) Operand := by
  intro m hm
  unfold construct
  simp only [ensures_bind, ensures_current, ensures_expect, ensures_currentIdent, ensures_advance, ensures_pure]
  split
  · rename_i hk
    split
    · refine ((yields_propertyInit hr hsub).manyItems hr _ hm.next.next.next).mono (fun inits s hinits => ?_)
        (fun _ h => h)
      refine ⟨hinits.1, .construct ((hm.next.wf hr).ident_canonical hk) ?_ ?_, rfl⟩
      · exact fun i hi => (hinits.2 i hi).1
      · exact fun i hi => (hinits.2 i hi).2
    · trivial
  · trivial

/-! ## Expressions -/

theorem yields_primary : Yields r (primary sub) Operand := by
  intro m hm
  have hvalid : ∀ {k : Kind}, m.current.kind = k → k ≠ .eof → m.current.lexeme.Valid :=
    fun hk hne => ((hm.wf hr).current_wf (hk ▸ hne)).valid
  unfold primary
  rw [ensures_bind, ensures_current]
  split
  · exact yields_nameOrCall hr hsub m hm
  · rename_i hk
    rw [Token.literal_of_ne_string (by rw [hk]; exact Kind.noConfusion)]
    exact ⟨hm, .int ((hvalid hk Kind.noConfusion).int hk).1, rfl⟩
  · rename_i hk
    rw [Token.literal_of_ne_string (by rw [hk]; exact Kind.noConfusion)]
    exact ⟨hm, .float ((hvalid hk Kind.noConfusion).float hk).1, rfl⟩
  · rename_i hk
    obtain ⟨q, hq, hqq, hv, -⟩ := Token.lexeme_string (hvalid hk Kind.noConfusion) hk
    rw [hq]
    exact ⟨hm, .string hqq hv, rfl⟩
  · exact ⟨hm, .bool, rfl⟩
  · exact ⟨hm, .bool, rfl⟩
  · exact yields_construct hr hsub m hm
  · exact yields_unary hsub m hm
  · exact yields_unary hsub m hm
  · exact yields_parenOrCast hr hsub m hm
  · exact yields_listOrComprehension hr hsub m hm
  · trivial

/-- Operators extend an expression to the right, but none binds tighter than an operand. -/
theorem yields_operators {level : Nat} {left : Expr} (hleft : Operand left) : Yields r (operators sub level left)
    fun e => e.Written ∧ (operandLevel ≤ level → e.isBinary = false) := by
  unfold operators
  refine Yields.loop (P := fun e : Expr => e.Written ∧ (operandLevel ≤ level → e.isBinary = false)) hr
    (fun e m hm he => ?_)
    ⟨hleft.1, fun _ => hleft.2⟩
  unfold operatorRound
  simp only [ensures_bind, ensures_peek]
  split
  · exact he
  · rename_i op hop
    simp only [ensures_ite, ensures_bind, ensures_advance, ensures_pure]
    split
    · rename_i hlevel
      have hknown : op ≠ .unknown := by
        obtain ⟨p, hp, -⟩ := BinaryOp.ofKind?_eq_some.1 hop
        rintro rfl
        cases hp
      refine (hsub _ _ hm.next.next).mono (fun e' s he' => ⟨.binary hknown he.1 he'.2.1, fun hl => ?_⟩) (fun _ h => h)
      have := op.level_lt
      omega
    · exact he

omit hsub in
theorem yields_exprAt (depth level : Nat) : Yields r (exprAt depth level)
    fun e => e.Written ∧ (operandLevel ≤ level → e.isBinary = false) := by
  induction depth generalizing level with
  | zero => exact fun _ _ => trivial
  | succ depth hsub =>
    intro m hm
    unfold exprAt
    rw [ensures_bind]
    exact (yields_primary hr hsub m hm).mono (fun e s he => yields_operators hr hsub he.2 s he.1) (fun _ h => h)

omit hsub in
theorem yields_expr : Yields r expr Expr.Written := by
  intro m hm
  refine (Ensures.of_budget (x := (exprAt · 0)) (yields_exprAt hr _ 0 m hm)).mono (fun e s he => ?_) (fun _ h => h)
  exact ⟨he.1, he.2.1⟩

end Sub
end Rule
end SemFront
