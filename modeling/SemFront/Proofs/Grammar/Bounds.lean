/-
The bounds of reading are never met. Repetitions are cut off after as many rounds as the budget of the
reader allows, and expressions, blocks and bindings below that depth; but rounds leave fewer tokens and
what is inside starts behind the first token of what is around it. So a reader whose budget covers the
tokens left reads the same with any larger one.
-/
import SemFront.Proofs.Grammar.Progress
import SemFront.Proofs.Grammar.Reading

namespace SemFront

/-- A reader with another budget. -/
def Reader.within (n : Nat) (r : Reader) : Reader := { r with budget := n }

theorem Reader.advanceBy_within {n : Nat} : ∀ (i : Nat) (r : Reader), advanceBy i (r.within n) = (advanceBy i r).within n
  | 0, _ => rfl
  | i + 1, r => advanceBy_within i r.advance

/-- A reply with another budget. -/
def Reply.within (n : Nat) : Reply α → Reply α
  | .ok a s => .ok a (s.within n)
  | .fail s => .fail (s.within n)

namespace Rule

-- the rules below are long sequences of steps, each of which is an instance
set_option synthInstance.maxSize 1000

/-- One rule does from `r` what another one does with any budget that covers the tokens left. -/
def AgreesAt (r : Reader) (x y : Rule α) : Prop := ∀ n, r.rest.length ≤ n → y (r.within n) = (x r).within n

/-- Two rules agree on all readers with fewer than `k` tokens left. -/
class AgreesBelow (k : Nat) (x y : Rule α) : Prop where
  at_reader : ∀ {r : Reader}, r.WF → r.rest.length < k → AgreesAt r x y

theorem AgreesAt.bind {x y : Rule α} {f g : α → Rule β} {r : Reader} [hx : Honest x] (h : AgreesAt r x y)
    (hf : ∀ a s, x r = .ok a s → AgreesAt s (f a) (g a)) : AgreesAt r (x >>= f) (y >>= g) := by
  intro n hn
  have hl := hx.leads r
  change Rule.bind y g (r.within n) = (Rule.bind x f r).within n
  unfold Rule.bind
  rw [h n hn]
  cases hr : x r with
  | ok a s =>
    rw [hr] at hl
    exact hf a s hr n (Nat.le_trans hl.length_le hn)
  | fail s => rfl

theorem AgreesAt.current_bind {f g : Token → Rule β} {r : Reader} (h : AgreesAt r (f r.current) (g r.current)) :
    AgreesAt r (current >>= f) (current >>= g) := h

theorem AgreesAt.peek_bind {f g : Token → Rule β} {r : Reader}
    (h : AgreesAt r (f r.advance.current) (g r.advance.current)) : AgreesAt r (peek >>= f) (peek >>= g) := by
  rw [← Reader.peek_eq] at h
  exact h

theorem AgreesAt.advance_bind {f g : Unit → Rule β} {r : Reader} (h : AgreesAt r.advance (f ()) (g ())) :
    AgreesAt r (advance >>= f) (advance >>= g) :=
  fun n hn => h n (Nat.le_trans (Reader.Leads.advance r).length_le hn)

namespace AgreesBelow

variable {k : Nat}

theorem of_eq {x : Rule α} (h : ∀ r n, x (r.within n) = (x r).within n) : AgreesBelow k x x :=
  ⟨fun _ _ n _ => h _ n⟩

instance {a : α} : AgreesBelow k (Rule.pure a) (Rule.pure a) := .of_eq fun _ _ => rfl

instance {a : α} : AgreesBelow k (Pure.pure a : Rule α) (Pure.pure a) := .of_eq fun _ _ => rfl

instance : AgreesBelow k (fail : Rule α) fail := .of_eq fun _ _ => rfl

instance : AgreesBelow k current current := .of_eq fun _ _ => rfl

instance : AgreesBelow k peek peek := .of_eq fun _ _ => rfl

instance : AgreesBelow k (ahead n) (ahead n) := .of_eq fun _ _ => rfl

instance : AgreesBelow k afterChain afterChain := .of_eq fun _ _ => rfl

instance : AgreesBelow k advance advance := .of_eq fun _ _ => rfl

instance : AgreesBelow k (report p) (report p) := .of_eq fun _ _ => rfl

instance : AgreesBelow k (refuse w t : Rule α) (refuse w t) := .of_eq fun _ _ => rfl

theorem of_bind {x y : Rule α} {f g : α → Rule β} [hx : Honest x] [h : AgreesBelow k x y]
    (hf : ∀ a, AgreesBelow k (f a) (g a)) : AgreesBelow k (x >>= f) (y >>= g) where
  at_reader {r} hr hk := by
    refine (h.at_reader hr hk).bind fun a s e => ?_
    have hl := hx.leads r
    rw [e] at hl
    exact (hf a).at_reader (hl.wf hr) (Nat.lt_of_le_of_lt hl.length_le hk)

instance {x y : Rule α} {f g : α → Rule β} [Honest x] [AgreesBelow k x y] [∀ a, AgreesBelow k (f a) (g a)] :
    AgreesBelow k (x >>= f) (y >>= g) := .of_bind fun _ => inferInstance

theorem of_ite {c : Prop} [Decidable c] {x x' y y' : Rule α} (hx : AgreesBelow k x x') (hy : AgreesBelow k y y') :
    AgreesBelow k (if c then x else y) (if c then x' else y') := by
  split
  · exact hx
  · exact hy

instance {c : Prop} [Decidable c] {x x' y y' : Rule α} [AgreesBelow k x x'] [AgreesBelow k y y'] :
    AgreesBelow k (if c then x else y) (if c then x' else y') := .of_ite inferInstance inferInstance

instance {k' : Kind} : AgreesBelow k (expect k') (expect k') := by unfold expect; infer_instance

instance : AgreesBelow k (expectWord w) (expectWord w) := by unfold expectWord; infer_instance

instance attempt {x y : Rule α} [h : AgreesBelow k x y] : AgreesBelow k x.attempt y.attempt where
  at_reader {r} hr hk n hn := by
    unfold Rule.attempt
    rw [h.at_reader hr hk n hn]
    cases x r <;> rfl

/-- Rounds that leave fewer tokens stop before any bound that covers the tokens. -/
theorem rounds_eq {round round' : σ → Rule (Round σ)} [hh : ∀ x, Honest (round x)] [hp : Progresses round]
    [h : ∀ x, AgreesBelow k (round x) (round' x)] {n : Nat} : ∀ (f g : Nat) (x : σ) (r : Reader), r.WF →
      r.rest.length < k → r.rest.length ≤ n → r.rest.length < f → r.rest.length < g →
      Rule.rounds round' g x (r.within n) = (Rule.rounds round f x r).within n
  | 0, _, _, _, _, _, _, hf, _ => absurd hf (Nat.not_lt_zero _)
  | _, 0, _, _, _, _, _, _, hg => absurd hg (Nat.not_lt_zero _)
  | f + 1, g + 1, x, r, hr, hk, hn, hf, hg => by
    change Rule.bind (round' x) _ (r.within n) = (Rule.bind (round x) _ r).within n
    unfold Rule.bind
    rw [(h x).at_reader hr hk n hn]
    have hl := (hh x).leads r
    cases e : round x r with
    | fail s => rfl
    | ok o s =>
      rw [e] at hl
      cases o with
      | stop y => rfl
      | again y =>
        have hlt := hp.length_lt hr e
        exact rounds_eq f g y s (hl.wf hr) (by omega) (by omega) (by omega) (by omega)

instance loop {round round' : σ → Rule (Round σ)} [∀ x, Honest (round x)] [Progresses round]
    [∀ x, AgreesBelow k (round x) (round' x)] {x : σ} : AgreesBelow k (Rule.loop round x) (Rule.loop round' x) where
  at_reader {r} hr hk n hn :=
    rounds_eq (r.budget + 1) (n + 1) x r hr hk hn (Nat.lt_succ_of_le hr.budget) (Nat.lt_succ_of_le hn)

section Items

variable {item item' : Rule α} [Honest item] [AgreesBelow k item item'] {c : Punct} {w : Wanted}

instance {xs : Array α} : AgreesBelow k (itemRound c w item xs) (itemRound c w item' xs) := by
  unfold itemRound; infer_instance

instance : AgreesBelow k (items c w item) (items c w item') := by unfold items; infer_instance

instance : AgreesBelow k (someItems c w item) (someItems c w item') := by unfold someItems; infer_instance

instance : AgreesBelow k (manyItems c w item) (manyItems c w item') := by unfold manyItems; infer_instance

end Items

instance : AgreesBelow k (recover unit start) (recover unit start) := .of_eq fun r n => by
  unfold recover
  dsimp only
  rw [show (r.within n).rest = r.rest from rfl, show (r.within n).current = r.current from rfl,
    Reader.advanceBy_within]
  generalize (if r.current.isSame start then skipUnit unit r.rest else skipFrom unit 0 r.rest) = skip
  obtain ⟨count, _ | _⟩ := skip <;> rfl

/-! ## Names and IRIs -/

instance : AgreesBelow k currentIdent currentIdent := by unfold currentIdent; infer_instance

instance {segment : Rule Unit} [Honest segment] [AgreesBelow k segment segment] {xs : Array Ident} :
    AgreesBelow k (segmentRound segment xs) (segmentRound segment xs) := by unfold segmentRound; infer_instance

instance : AgreesBelow k dottedName dottedName := by unfold dottedName; infer_instance

instance : AgreesBelow k iriDomain iriDomain := by unfold iriDomain; infer_instance

instance {path : Array Ident × Bool} : AgreesBelow k (pathRound path) (pathRound path) := by
  unfold pathRound; infer_instance

instance : AgreesBelow k iriPath iriPath := by unfold iriPath; infer_instance

instance : AgreesBelow k iriFragment iriFragment := by unfold iriFragment; infer_instance

instance {t : Token} : AgreesBelow k (absoluteIri t) (absoluteIri t) := by unfold absoluteIri; infer_instance

instance {t : Token} {i : Option Ident} : AgreesBelow k (qName t i) (qName t i) := by unfold qName; infer_instance

instance : AgreesBelow k opensHost opensHost := by unfold opensHost; infer_instance

instance : AgreesBelow k iri iri := by unfold iri; infer_instance

/-! ## Expressions -/

section Expr

variable {sub sub' : Nat → Rule Expr} [∀ l, Honest (sub l)] [∀ l, AgreesBelow k (sub l) (sub' l)]

instance : AgreesBelow k opensCast opensCast := by unfold opensCast; infer_instance

instance : AgreesBelow k generator generator := by unfold generator; infer_instance

instance : AgreesBelow k (comprehensionPart sub) (comprehensionPart sub') := by
  unfold comprehensionPart; infer_instance

instance {i : Ident} {ps : List ComprehensionPart} {t : Span} :
    AgreesBelow k (comprehensionOf i ps t) (comprehensionOf i ps t) := by
  unfold comprehensionOf
  split <;> infer_instance

instance : AgreesBelow k opensComprehension opensComprehension := by unfold opensComprehension; infer_instance

instance : AgreesBelow k (propertyInit sub) (propertyInit sub') := by unfold propertyInit; infer_instance

instance : AgreesBelow k noExpr noExpr := by unfold noExpr; infer_instance

end Expr

end AgreesBelow

/-! What is inside an expression starts behind the first token of that expression: if the rules for the
expressions inside agree below `k`, those for the one around them agree below `k + 1`. -/

section Expr

variable {k : Nat} {sub sub' : Nat → Rule Expr} [∀ l, Honest (sub l)] [∀ l, AgreesBelow k (sub l) (sub' l)]
  {r : Reader}

theorem agreesAt_unary (hr : r.WF) (hlt : r.advance.rest.length < k) : AgreesAt r (unary sub) (unary sub') := by
  unfold unary
  exact .current_bind (.advance_bind (AgreesBelow.at_reader hr.advance hlt))

theorem agreesAt_cast {t : Token} (hr : r.WF) (hlt : r.advance.rest.length < k) :
    AgreesAt r (cast sub t) (cast sub' t) := by
  unfold cast
  exact .advance_bind (AgreesBelow.at_reader hr.advance hlt)

theorem agreesAt_comprehension {t : Token} (hr : r.WF) (hlt : r.advance.rest.length < k) :
    AgreesAt r (comprehension sub t) (comprehension sub' t) := by
  unfold comprehension
  exact .advance_bind (AgreesBelow.at_reader hr.advance hlt)

theorem agreesAt_parenOrCast (hr : r.WF) (hk : r.rest.length < k + 1) (hlt : r.advance.rest.length < k) :
    AgreesAt r (parenOrCast sub) (parenOrCast sub') := by
  unfold parenOrCast
  refine .current_bind (.bind (AgreesBelow.at_reader hr hk) fun b s e => ?_)
  have hl := (Honest.ensures (x := opensCast)).ok e
  have hlt' := Nat.lt_of_le_of_lt hl.length_advance_le hlt
  split
  · exact agreesAt_cast (hl.wf hr) hlt'
  · exact .advance_bind (AgreesBelow.at_reader (hl.wf hr).advance hlt')

theorem agreesAt_listOrComprehension (hr : r.WF) (hk : r.rest.length < k + 1) (hlt : r.advance.rest.length < k) :
    AgreesAt r (listOrComprehension sub) (listOrComprehension sub') := by
  unfold listOrComprehension
  refine .current_bind (.bind (AgreesBelow.at_reader hr hk) fun b s e => ?_)
  have hl := (Honest.ensures (x := opensComprehension)).ok e
  have hlt' := Nat.lt_of_le_of_lt hl.length_advance_le hlt
  split
  · exact agreesAt_comprehension (hl.wf hr) hlt'
  · exact .advance_bind (AgreesBelow.at_reader (hl.wf hr).advance hlt')

theorem agreesAt_nameOrCall (hr : r.WF) (hk : r.rest.length < k + 1) (hlt : r.advance.rest.length < k) :
    AgreesAt r (nameOrCall sub) (nameOrCall sub') := by
  unfold nameOrCall
  refine .bind (AgreesBelow.at_reader hr hk) fun n s e => .peek_bind ?_
  have hl := (Honest.ensures (x := dottedName)).ok e
  have hlt' := Nat.lt_of_le_of_lt hl.length_advance_le hlt
  split
  · exact (AgreesBelow.of_eq (k := k + 1) fun _ _ => rfl).at_reader (hl.wf hr) (Nat.lt_of_le_of_lt hl.length_le hk)
  · exact .advance_bind (AgreesBelow.at_reader (hl.wf hr).advance hlt')

theorem agreesAt_construct (hr : r.WF) (hk : r.rest.length < k + 1) (hlt : r.advance.rest.length < k) :
    AgreesAt r (construct sub) (construct sub') := by
  unfold construct
  refine .current_bind (.bind (AgreesBelow.at_reader hr hk) fun _ s e => ?_)
  have hs : (expect .ident).Ensures r (fun _ s => s = r.advance) (fun _ => True) := by
    rw [ensures_expect]
    split
    · rfl
    · trivial
  rw [hs.ok e]
  exact AgreesBelow.at_reader hr.advance hlt

theorem agreesBelow_primary : AgreesBelow (k + 1) (primary sub) (primary sub') where
  at_reader {r} hr hk := by
    have hlt : r.current.kind ≠ .eof → r.advance.rest.length < k :=
      fun h => Nat.lt_of_lt_of_le (hr.length_advance h) (Nat.le_of_lt_succ hk)
    unfold primary
    refine .current_bind ?_
    split
    all_goals rename_i hkind
    all_goals first | have hlt := hlt (by rw [hkind]; simp) | skip
    · exact agreesAt_nameOrCall hr hk hlt
    · exact AgreesBelow.at_reader hr hk
    · exact AgreesBelow.at_reader hr hk
    · exact AgreesBelow.at_reader hr hk
    · exact AgreesBelow.at_reader hr hk
    · exact AgreesBelow.at_reader hr hk
    · exact agreesAt_construct hr hk hlt
    · exact agreesAt_unary hr hlt
    · exact agreesAt_unary hr hlt
    · exact agreesAt_parenOrCast hr hk hlt
    · exact agreesAt_listOrComprehension hr hk hlt
    · exact AgreesBelow.at_reader hr hk

theorem agreesBelow_operatorRound {level : Nat} {left : Expr} :
    AgreesBelow (k + 1) (operatorRound sub level left) (operatorRound sub' level left) where
  at_reader {r} hr hk := by
    unfold operatorRound
    refine .peek_bind ?_
    split
    · exact AgreesBelow.at_reader hr hk
    · rename_i op hop
      have hlt := hr.length_advance_of_next (by intro e; rw [e] at hop; cases hop)
      split
      · exact .advance_bind (AgreesBelow.at_reader hr.advance (Nat.lt_of_lt_of_le hlt (Nat.le_of_lt_succ hk)))
      · exact AgreesBelow.at_reader hr hk

end Expr

/-- Two bounds on the depth of expressions are as good as each other if both cover the tokens left. -/
theorem agreesBelow_exprAt : ∀ {k d d' : Nat}, k ≤ d → k ≤ d' → ∀ l, AgreesBelow k (exprAt d l) (exprAt d' l)
  | 0, _, _, _, _, _ => ⟨fun _ hk => absurd hk (Nat.not_lt_zero _)⟩
  | k + 1, d + 1, d' + 1, hd, hd', l => by
    have := agreesBelow_exprAt (Nat.le_of_succ_le_succ hd) (Nat.le_of_succ_le_succ hd')
    have : AgreesBelow (k + 1) (primary (exprAt d)) (primary (exprAt d')) := agreesBelow_primary
    have (e : Expr) : AgreesBelow (k + 1) (operatorRound (exprAt d) l e) (operatorRound (exprAt d') l e) :=
      agreesBelow_operatorRound
    unfold exprAt operators
    infer_instance

namespace AgreesBelow

variable {k : Nat}

/-- What reads the same with any bound that covers the tokens left, reads the same with any budget. -/
theorem of_bounded {x : Nat → Rule α}
    (h : ∀ {k d d' : Nat}, k ≤ d → k ≤ d' → AgreesBelow k (x d) (x d')) :
    AgreesBelow k (fun r => x (r.budget + 1) r) (fun r => x (r.budget + 1) r) where
  at_reader hr _ n hn :=
    (h (Nat.succ_le_succ hr.budget) (Nat.succ_le_succ hn)).at_reader hr (Nat.lt_succ_self _) n hn

instance : AgreesBelow k expr expr := .of_bounded fun hd hd' => agreesBelow_exprAt hd hd' 0

/-! ## Statements -/

instance {t : Token} : AgreesBelow k (typeRef t) (typeRef t) := by
  unfold typeRef
  refine of_bind fun t => ?_
  split <;> infer_instance

instance : AgreesBelow k (initFollows b) (initFollows b) := by unfold initFollows; infer_instance

instance : AgreesBelow k varDecl varDecl := by unfold varDecl; infer_instance

instance : AgreesBelow k assignment assignment := by unfold assignment; infer_instance

instance : AgreesBelow k exprStmt exprStmt := by unfold exprStmt; infer_instance

instance : AgreesBelow k returnStmt returnStmt := by unfold returnStmt; infer_instance

instance : AgreesBelow k nameStmt nameStmt := by unfold nameStmt; infer_instance

instance : AgreesBelow k finishStmt finishStmt := by unfold finishStmt; infer_instance

instance {block block' : Rule Block} [Honest block] [AgreesBelow k block block'] :
    AgreesBelow k (elseBlock block) (elseBlock block') := by unfold elseBlock; infer_instance

end AgreesBelow

/-! The blocks of a statement start behind its keyword. -/

section Stmt

variable {k : Nat} {block block' : Rule Block} [Honest block] [AgreesBelow k block block'] {r : Reader}

theorem agreesAt_condBlock (hr : r.WF) (hlt : r.advance.rest.length < k) :
    AgreesAt r (condBlock block) (condBlock block') := by
  unfold condBlock
  exact .advance_bind (AgreesBelow.at_reader hr.advance hlt)

/-- What follows the block agrees as well, since it is read behind the keyword too. -/
theorem agreesAt_condBlock_bind {f g : Expr × Block → Rule α} [∀ p, AgreesBelow k (f p) (g p)] (hr : r.WF)
    (hlt : r.advance.rest.length < k) : AgreesAt r (condBlock block >>= f) (condBlock block' >>= g) := by
  refine .bind (agreesAt_condBlock hr hlt) fun p s e => ?_
  have hl : (condBlock block).Ensures r (fun _ s => r.advance.Leads s) (fun _ => True) := by
    unfold condBlock
    rw [ensures_bind, ensures_advance]
    exact Honest.ensures.mono (fun _ _ h => h) (fun _ _ => trivial)
  exact AgreesBelow.at_reader ((hl.ok e).wf hr.advance) (Nat.lt_of_le_of_lt (hl.ok e).length_le hlt)

theorem agreesBelow_stmt : AgreesBelow (k + 1) (stmt block) (stmt block') where
  at_reader {r} hr hk := by
    have hlt : r.current.kind ≠ .eof → r.advance.rest.length < k :=
      fun h => Nat.lt_of_lt_of_le (hr.length_advance h) (Nat.le_of_lt_succ hk)
    unfold stmt
    refine .current_bind ?_
    split
    · rename_i hkind
      exact .current_bind (agreesAt_condBlock_bind hr (hlt (by simp [hkind])))
    · rename_i hkind
      exact .current_bind (agreesAt_condBlock_bind hr (hlt (by simp [hkind])))
    · rename_i hkind
      exact .current_bind (agreesAt_condBlock_bind hr (hlt (by simp [hkind])))
    · exact AgreesBelow.at_reader hr hk
    · exact AgreesBelow.at_reader hr hk
    · exact AgreesBelow.at_reader hr hk

theorem agreesBelow_blockWith : AgreesBelow (k + 1) (blockWith block) (blockWith block') := by
  have : AgreesBelow (k + 1) (stmt block) (stmt block') := agreesBelow_stmt
  have (ss : Array Stmt) : AgreesBelow (k + 1) (stmtRound block ss) (stmtRound block' ss) := by
    unfold stmtRound
    refine .of_bind fun t => .of_ite inferInstance (.of_bind fun o => ?_)
    cases o <;> infer_instance
  unfold blockWith
  infer_instance

end Stmt

theorem agreesBelow_blockAt : ∀ {k d d' : Nat}, k ≤ d → k ≤ d' → AgreesBelow k (blockAt d) (blockAt d')
  | 0, _, _, _, _ => ⟨fun _ hk => absurd hk (Nat.not_lt_zero _)⟩
  | k + 1, d + 1, d' + 1, hd, hd' => by
    have := agreesBelow_blockAt (Nat.le_of_succ_le_succ hd) (Nat.le_of_succ_le_succ hd')
    exact agreesBelow_blockWith

/-! Bindings inside a binding start behind its name. -/

theorem agreesBelow_binding {k : Nat} {bindings bindings' : Rule (List Binding)} [Honest bindings]
    [AgreesBelow k bindings bindings'] : AgreesBelow (k + 1) (binding bindings) (binding bindings') where
  at_reader {r} hr hk := by
    unfold binding
    refine .current_bind ?_
    split
    · exact AgreesBelow.at_reader hr hk
    · refine .bind (AgreesBelow.at_reader hr hk) fun _ s e => ?_
      have hs : (expect (.punct .colon)).Ensures r (fun _ s => s.WF ∧ s.rest.length < k) (fun _ => True) := by
        rw [ensures_expect]
        split
        · rename_i hkind
          have hlt := hr.length_advance_of_next (by rw [hkind]; exact nofun)
          exact ⟨hr.advance, Nat.lt_of_lt_of_le hlt (Nat.le_of_lt_succ hk)⟩
        · trivial
      exact AgreesBelow.at_reader (hs.ok e).1 (hs.ok e).2

theorem agreesBelow_bindingsAt : ∀ {k d d' : Nat}, k ≤ d → k ≤ d' → AgreesBelow k (bindingsAt d) (bindingsAt d')
  | 0, _, _, _, _ => ⟨fun _ hk => absurd hk (Nat.not_lt_zero _)⟩
  | k + 1, d + 1, d' + 1, hd, hd' => by
    have := agreesBelow_bindingsAt (Nat.le_of_succ_le_succ hd) (Nat.le_of_succ_le_succ hd')
    have : AgreesBelow (k + 1) (binding (bindingsAt d)) (binding (bindingsAt d')) := agreesBelow_binding
    unfold bindingsAt
    infer_instance

namespace AgreesBelow

variable {k : Nat}

instance : AgreesBelow k block block := .of_bounded agreesBelow_blockAt

instance : AgreesBelow k bindings bindings := .of_bounded agreesBelow_bindingsAt

/-! ## Parameters -/

instance : AgreesBelow k param param := by unfold param; infer_instance

instance : AgreesBelow k skipParam skipParam := .of_eq fun r n => by
  unfold skipParam
  dsimp only
  rw [Reader.advanceBy_within]
  rfl

instance {t : Token} : AgreesBelow k (skipParamFrom t) (skipParamFrom t) := by unfold skipParamFrom; infer_instance

instance : AgreesBelow k paramOrBad paramOrBad := by
  unfold paramOrBad
  refine of_bind fun t => of_bind fun o => ?_
  cases o <;> infer_instance

instance {ps : Array Param} : AgreesBelow k (paramEnd ps) (paramEnd ps) := by unfold paramEnd; infer_instance

instance {ps : Array Param} : AgreesBelow k (paramRound ps) (paramRound ps) := by unfold paramRound; infer_instance

instance : AgreesBelow k params params := by unfold params; infer_instance

/-! ## Declarations -/

instance : AgreesBelow k optionalSemicolon optionalSemicolon := by unfold optionalSemicolon; infer_instance

instance : AgreesBelow k functionDecl functionDecl := by unfold functionDecl; infer_instance

instance : AgreesBelow k moduleName moduleName := by unfold moduleName; infer_instance

instance : AgreesBelow k moduleImport moduleImport := by unfold moduleImport; infer_instance

instance : AgreesBelow k aliasTarget aliasTarget := by
  unfold aliasTarget
  refine of_bind fun i => ?_
  cases i <;> infer_instance

instance : AgreesBelow k aliasDecl aliasDecl := by unfold aliasDecl; infer_instance

instance : AgreesBelow k propertyDecl propertyDecl := by unfold propertyDecl; infer_instance

instance : AgreesBelow k member member := by unfold member; infer_instance

instance {b : ClassBody} : AgreesBelow k (memberRound b) (memberRound b) := by
  unfold memberRound
  refine of_bind fun t => of_ite inferInstance (of_bind fun o => ?_)
  rcases o with _ | _ | _ <;> infer_instance

instance : AgreesBelow k classDef classDef := by unfold classDef; infer_instance

instance {t : Token} {p : Progress} {decl : Rule α} [Honest decl] [AgreesBelow k decl decl] {keep : α → Progress} :
    AgreesBelow k (keepOrRecover t p decl keep) (keepOrRecover t p decl keep) := by
  unfold keepOrRecover
  refine of_bind fun o => ?_
  cases o <;> infer_instance

instance {t : Token} {p : Progress} : AgreesBelow k (importRound t p) (importRound t p) := by
  unfold importRound; infer_instance

instance {t : Token} {p : Progress} : AgreesBelow k (aliasRound t p) (aliasRound t p) := by
  unfold aliasRound; infer_instance

instance {t : Token} {p : Progress} : AgreesBelow k (classRound t p) (classRound t p) := by
  unfold classRound
  refine of_bind fun o => ?_
  cases o <;> infer_instance

instance {t : Token} {p : Progress} : AgreesBelow k (functionRound t p) (functionRound t p) := by
  unfold functionRound; infer_instance

instance {p : Progress} : AgreesBelow k (declRound p) (declRound p) := by
  unfold declRound
  refine of_bind fun t => ?_
  split <;> infer_instance

instance : AgreesBelow k program program := by unfold program; infer_instance

/-! ## Sources -/

instance : AgreesBelow k expectEnd expectEnd := by unfold expectEnd; infer_instance

instance : AgreesBelow k wholeExpr wholeExpr := by
  unfold wholeExpr
  refine of_bind fun t => of_bind fun o => ?_
  cases o <;> infer_instance

instance : AgreesBelow k wholeIri wholeIri := by
  unfold wholeIri
  refine of_bind fun o => ?_
  cases o <;> infer_instance

end AgreesBelow

theorem wholeExpr_succeeds (r : Reader) : wholeExpr.Ensures r (fun _ _ => True) (fun _ => False) := by
  unfold wholeExpr
  simp only [ensures_bind, ensures_current, ensures_attempt]
  refine (Honest.ensures (x := expr)).mono (fun e s _ => ?_) (fun s _ => trivial)
  unfold expectEnd
  simp only [ensures_bind, ensures_peek, ensures_ite, ensures_report, ensures_pure, ite_self]

theorem wholeIri_succeeds (r : Reader) : wholeIri.Ensures r (fun _ _ => True) (fun _ => False) := by
  unfold wholeIri
  simp only [ensures_bind, ensures_attempt]
  refine (Honest.ensures (x := iri)).mono (fun e s _ => ?_) (fun s _ => trivial)
  unfold expectEnd
  simp only [ensures_bind, ensures_peek, ensures_ite, ensures_report, ensures_pure, ite_self]

/-- Neither the class nor the method, the block or the call in this source is closed. -/
def unclosedSource : String := "class A \x7b m(a, ): T \x7b while f(x"

end Rule
end SemFront
