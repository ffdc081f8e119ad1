/-
What was noted on the way has no influence on reading. A rule looks at the tokens ahead and at nothing
else of a reader, neither at its log nor at its limit. So whatever two readers on the same tokens have in
common that moving on and noting keep (a `Bond`), they have in common behind every rule, and the rule gives
the same value on both or fails on both. What a rule does somewhere inside a source can be found out on a
reader that has no reports yet, and readers that differ in their limits are read in step.
-/
import SemFront.Grammar.Decl
import SemFront.Proofs.Grammar.Param

namespace SemFront

/-! ## Readers on the same tokens -/

/-- A relation between readers on the same tokens that moving on and noting keep. -/
structure Reader.Bond (R : Reader → Reader → Prop) : Prop where
  rest : ∀ {q r}, R q r → q.rest = r.rest
  eof : ∀ {q r}, R q r → q.eof = r.eof
  budget : ∀ {q r}, R q r → q.budget = r.budget
  advance : ∀ {q r}, R q r → R q.advance r.advance
  look : ∀ {q r}, R q r → ∀ n, R (q.look n) (r.look n)
  report : ∀ {q r}, R q r → ∀ p, R (q.report p) (r.report p)
  recovered : ∀ {q r}, R q r → ∀ x, R (q.recovered x) (r.recovered x)

/-- Two replies with the same value, or two failures, from readers that are still related. -/
inductive Reply.Bound (R : Reader → Reader → Prop) : Reply α → Reply α → Prop where
  | ok {a : α} {q r : Reader} (h : R q r) : Bound R (.ok a q) (.ok a r)
  | fail {q r : Reader} (h : R q r) : Bound R (.fail q) (.fail r)

theorem Reply.Bound.reader {R : Reader → Reader → Prop} {x y : Reply α} (h : x.Bound R y) : R x.reader y.reader := by
  cases h with
  | ok h => exact h
  | fail h => exact h

namespace Reader.Bond

variable {R : Reader → Reader → Prop} {q r : Reader}

theorem current (hR : Bond R) (h : R q r) : q.current = r.current := by
  unfold Reader.current
  rw [hR.rest h, hR.eof h]

theorem ahead (hR : Bond R) (h : R q r) (n : Nat) : q.ahead n = r.ahead n := by
  unfold Reader.ahead
  rw [hR.rest h, hR.eof h]

theorem advanceBy (hR : Bond R) (h : R q r) (n : Nat) : R (Reader.advanceBy n q) (Reader.advanceBy n r) := by
  induction n generalizing q r with
  | zero => exact h
  | succ n ih => exact ih (hR.advance h)

theorem afterChain (hR : Bond R) (h : R q r) : q.afterChain.1 = r.afterChain.1 ∧ R q.afterChain.2 r.afterChain.2 := by
  unfold Reader.afterChain
  dsimp only
  rw [hR.rest h, hR.ahead h]
  exact ⟨rfl, hR.look h _⟩

end Reader.Bond

/-- Two readers have the same tokens ahead, whatever each of them has noted. -/
structure Reader.SameInput (q r : Reader) : Prop where
  rest : q.rest = r.rest
  eof : q.eof = r.eof
  budget : q.budget = r.budget

theorem Reader.sameInput_bond : Bond SameInput where
  rest := SameInput.rest
  eof := SameInput.eof
  budget := SameInput.budget
  advance h := ⟨congrArg List.tail h.rest, h.eof, h.budget⟩
  look h _ := ⟨h.rest, h.eof, h.budget⟩
  report h _ := ⟨h.rest, h.eof, h.budget⟩
  recovered h _ := ⟨h.rest, h.eof, h.budget⟩

/-! ## Rules that do not look at what was noted -/

namespace Rule

-- the rules below are long sequences of steps, each of which is an instance
set_option synthInstance.maxSize 1000

/-- What a rule does does not depend on what was noted before, nor on how much of it is to be kept. -/
class Unlogged (x : Rule α) : Prop where
  bound : ∀ {R : Reader → Reader → Prop} {q r : Reader}, Reader.Bond R → R q r → (x q).Bound R (x r)

theorem Unlogged.same (x : Rule α) [Unlogged x] {q r : Reader} (h : q.SameInput r) :
    (x q).Bound Reader.SameInput (x r) :=
  bound Reader.sameInput_bond h

namespace Unlogged

instance : Unlogged (Rule.pure a) := ⟨fun _ => .ok⟩

instance : Unlogged (Pure.pure a : Rule α) := ⟨fun _ => .ok⟩

instance : Unlogged (fail : Rule α) := ⟨fun _ => .fail⟩

instance : Unlogged current where
  bound {R q r} hR h := by
    unfold Rule.current
    rw [hR.current h]
    exact .ok h

instance : Unlogged (ahead n) where
  bound {R q r} hR h := by
    unfold Rule.ahead
    rw [hR.ahead h n]
    exact .ok (hR.look h n)

instance : Unlogged peek where
  bound {R q r} hR h := by
    unfold Rule.peek Reader.peek
    rw [hR.ahead h 0]
    exact .ok h

instance : Unlogged afterChain where
  bound {R q r} hR h := by
    unfold Rule.afterChain
    rw [(hR.afterChain h).1]
    exact .ok (hR.afterChain h).2

instance : Unlogged advance := ⟨fun hR h => .ok (hR.advance h)⟩

instance : Unlogged (report p) := ⟨fun hR h => .ok (hR.report h p)⟩

instance bind {x : Rule α} {f : α → Rule β} [hx : Unlogged x] [hf : ∀ a, Unlogged (f a)] : Unlogged (x >>= f) where
  bound {R q r} hR h := by
    change (Rule.bind x f q).Bound _ (Rule.bind x f r)
    unfold Rule.bind
    have hs := hx.bound hR h
    generalize x q = y, x r = z at hs ⊢
    cases hs with
    | ok h => exact (hf _).bound hR h
    | fail h => exact .fail h

instance : Unlogged (refuse w t : Rule α) := by unfold refuse; infer_instance

instance ite {c : Prop} [Decidable c] {x y : Rule α} [hx : Unlogged x] [hy : Unlogged y] :
    Unlogged (if c then x else y) := by
  split
  · exact hx
  · exact hy

instance : Unlogged (expect k) := by unfold expect; infer_instance

instance : Unlogged (expectWord w) := by unfold expectWord; infer_instance

instance attempt {x : Rule α} [hx : Unlogged x] : Unlogged x.attempt where
  bound {R q r} hR h := by
    unfold Rule.attempt
    have hs := hx.bound hR h
    generalize x q = y, x r = z at hs ⊢
    cases hs with
    | ok h => exact .ok h
    | fail h => exact .ok h

instance rounds {round : σ → Rule (Round σ)} [h : ∀ s, Unlogged (round s)] (n : Nat) (s : σ) :
    Unlogged (Rule.rounds round n s) := by
  induction n generalizing s with
  | zero => unfold Rule.rounds; infer_instance
  | succ n ih =>
    unfold Rule.rounds
    refine @bind _ _ _ _ (h s) ?_
    rintro (s | s)
    · exact ih s
    · infer_instance

/-- A rule bounded by the budget does not look at the log if it does not for any bound. -/
theorem of_bounded {x : Nat → Rule α} (h : ∀ n, Unlogged (x n)) : Unlogged fun r => x (r.budget + 1) r where
  bound {R q r} hR hs := by
    rw [hR.budget hs]
    exact (h _).bound hR hs

instance loop {round : σ → Rule (Round σ)} [∀ s, Unlogged (round s)] {s : σ} : Unlogged (Rule.loop round s) :=
  of_bounded fun n => rounds n s

instance {item : Rule α} [Unlogged item] {xs : Array α} : Unlogged (itemRound c w item xs) := by
  unfold itemRound; infer_instance

instance {item : Rule α} [Unlogged item] : Unlogged (items c w item) := by unfold items; infer_instance

instance {item : Rule α} [Unlogged item] : Unlogged (someItems c w item) := by unfold someItems; infer_instance

instance {item : Rule α} [Unlogged item] : Unlogged (manyItems c w item) := by unfold manyItems; infer_instance

end Unlogged

/-! ## Names and expressions -/

instance : Unlogged currentIdent := by unfold currentIdent; infer_instance

instance {segment : Rule Unit} [Unlogged segment] {xs : Array Ident} : Unlogged (segmentRound segment xs) := by
  unfold segmentRound; infer_instance

instance : Unlogged dottedName := by unfold dottedName; infer_instance

instance : Unlogged iriDomain := by unfold iriDomain; infer_instance

instance {path : Array Ident × Bool} : Unlogged (pathRound path) := by unfold pathRound; infer_instance

instance : Unlogged iriPath := by unfold iriPath; infer_instance

instance : Unlogged iriFragment := by unfold iriFragment; infer_instance

instance {t : Token} : Unlogged (absoluteIri t) := by unfold absoluteIri; infer_instance

instance {t : Token} {i : Option Ident} : Unlogged (qName t i) := by unfold qName; infer_instance

instance : Unlogged opensHost := by unfold opensHost; infer_instance

instance : Unlogged iri := by unfold iri; infer_instance

section Expr

variable {sub : Nat → Rule Expr} [∀ n, Unlogged (sub n)]

instance : Unlogged noExpr := by unfold noExpr; infer_instance

instance : Unlogged (unary sub) := by unfold unary; infer_instance

instance : Unlogged opensCast := by unfold opensCast; infer_instance

instance {t : Token} : Unlogged (cast sub t) := by unfold cast; infer_instance

instance : Unlogged (parenOrCast sub) := by unfold parenOrCast; infer_instance

instance : Unlogged (nameOrCall sub) := by unfold nameOrCall; infer_instance

instance : Unlogged generator := by unfold generator; infer_instance

instance : Unlogged (comprehensionPart sub) := by unfold comprehensionPart; infer_instance

instance {i : Ident} {ps : List ComprehensionPart} {t : Span} : Unlogged (comprehensionOf i ps t) := by
  unfold comprehensionOf
  split <;> infer_instance

instance {t : Token} : Unlogged (comprehension sub t) := by unfold comprehension; infer_instance

instance : Unlogged opensComprehension := by unfold opensComprehension; infer_instance

instance : Unlogged (listOrComprehension sub) := by unfold listOrComprehension; infer_instance

instance : Unlogged (propertyInit sub) := by unfold propertyInit; infer_instance

instance : Unlogged (construct sub) := by unfold construct; infer_instance

instance : Unlogged (primary sub) := by
  unfold primary
  refine @Unlogged.bind _ _ _ _ inferInstance fun t => ?_
  split <;> infer_instance

instance {n : Nat} {left : Expr} : Unlogged (operatorRound sub n left) := by
  unfold operatorRound
  refine @Unlogged.bind _ _ _ _ inferInstance fun t => ?_
  split <;> infer_instance

instance {n : Nat} : Unlogged (operators sub n e) := by unfold operators; infer_instance

end Expr

instance unlogged_exprAt (d l : Nat) : Unlogged (exprAt d l) := by
  induction d generalizing l with
  | zero => unfold exprAt; infer_instance
  | succ d ih => unfold exprAt; infer_instance

instance : Unlogged expr := .of_bounded fun d => unlogged_exprAt d 0

/-! ## Parameters -/

instance {bindings : Rule (List Binding)} [Unlogged bindings] : Unlogged (binding bindings) := by
  unfold binding; infer_instance

instance unlogged_bindingsAt (d : Nat) : Unlogged (bindingsAt d) := by
  induction d with
  | zero => unfold bindingsAt; infer_instance
  | succ d ih => unfold bindingsAt; infer_instance

instance : Unlogged bindings := .of_bounded unlogged_bindingsAt

instance : Unlogged param := by unfold param; infer_instance

instance : Unlogged skipParam where
  bound {R q r} hR h := by
    unfold skipParam
    rw [hR.rest h, hR.current h]
    exact .ok (hR.advanceBy h _)

instance {t : Token} : Unlogged (skipParamFrom t) := by unfold skipParamFrom; infer_instance

instance : Unlogged paramOrBad := by
  unfold paramOrBad
  refine @Unlogged.bind _ _ _ _ inferInstance fun t => @Unlogged.bind _ _ _ _ inferInstance fun o => ?_
  cases o <;> infer_instance

instance {ps : Array Param} : Unlogged (paramEnd ps) := by unfold paramEnd; infer_instance

instance {ps : Array Param} : Unlogged (paramRound ps) := by unfold paramRound; infer_instance

instance : Unlogged params := by unfold params; infer_instance

/-! ## Statements -/

instance {unit : SyncUnit} {start : Token} : Unlogged (recover unit start) where
  bound {R q r} hR h := by
    unfold recover
    dsimp only
    rw [hR.rest h, hR.current h]
    generalize (if r.current.isSame start then skipUnit unit r.rest else skipFrom unit 0 r.rest) = skip
    have hskipped := hR.advanceBy h skip.count
    split
    · have hafter := (hR.afterChain hskipped).2
      rw [hR.current hafter]
      exact .ok (hR.recovered hafter _)
    · rw [hR.current hskipped]
      exact .ok (hR.recovered hskipped _)

instance {t : Token} : Unlogged (typeRef t) := by
  unfold typeRef
  refine @Unlogged.bind _ _ _ _ inferInstance fun t => ?_
  split <;> infer_instance

instance {begun : Bool} : Unlogged (initFollows begun) := by unfold initFollows; infer_instance

instance : Unlogged varDecl := by unfold varDecl; infer_instance

instance : Unlogged assignment := by unfold assignment; infer_instance

instance : Unlogged exprStmt := by unfold exprStmt; infer_instance

instance : Unlogged returnStmt := by unfold returnStmt; infer_instance

instance : Unlogged nameStmt := by unfold nameStmt; infer_instance

instance : Unlogged finishStmt := by unfold finishStmt; infer_instance

section Stmt

variable {block : Rule Block} [Unlogged block]

instance : Unlogged (condBlock block) := by unfold condBlock; infer_instance

instance : Unlogged (elseBlock block) := by unfold elseBlock; infer_instance

instance : Unlogged (ifStmt block) := by unfold ifStmt; infer_instance

instance : Unlogged (whileStmt block) := by unfold whileStmt; infer_instance

instance : Unlogged (withStmt block) := by unfold withStmt; infer_instance

instance : Unlogged (stmt block) := by
  unfold stmt
  refine @Unlogged.bind _ _ _ _ inferInstance fun t => ?_
  split <;> infer_instance

instance {ss : Array Stmt} : Unlogged (stmtRound block ss) := by
  unfold stmtRound
  refine @Unlogged.bind _ _ _ _ inferInstance fun t => @Unlogged.ite _ _ _ _ _ inferInstance ?_
  refine @Unlogged.bind _ _ _ _ inferInstance fun o => ?_
  cases o <;> infer_instance

instance : Unlogged (blockWith block) := by unfold blockWith; infer_instance

end Stmt

instance unlogged_blockAt (d : Nat) : Unlogged (blockAt d) := by
  induction d with
  | zero => unfold blockAt; infer_instance
  | succ d ih => unfold blockAt; infer_instance

instance : Unlogged block := .of_bounded unlogged_blockAt

/-! ## Declarations -/

instance : Unlogged optionalSemicolon := by unfold optionalSemicolon; infer_instance

instance : Unlogged functionDecl := by unfold functionDecl; infer_instance

instance : Unlogged moduleName := by unfold moduleName; infer_instance

instance : Unlogged moduleImport := by unfold moduleImport; infer_instance

instance : Unlogged aliasTarget := by
  unfold aliasTarget
  refine @Unlogged.bind _ _ _ _ inferInstance fun i => ?_
  cases i <;> infer_instance

instance : Unlogged aliasDecl := by unfold aliasDecl; infer_instance

instance : Unlogged propertyDecl := by unfold propertyDecl; infer_instance

instance : Unlogged member := by unfold member; infer_instance

instance {b : ClassBody} : Unlogged (memberRound b) := by
  unfold memberRound
  refine @Unlogged.bind _ _ _ _ inferInstance fun t => @Unlogged.ite _ _ _ _ _ inferInstance ?_
  refine @Unlogged.bind _ _ _ _ inferInstance fun o => ?_
  cases o with
  | none => infer_instance
  | some m =>
    refine @Unlogged.bind _ _ _ _ inferInstance fun t => @Unlogged.bind _ _ _ _ inferInstance fun _ => ?_
    cases m <;> infer_instance

instance : Unlogged classDef := by unfold classDef; infer_instance

section Decl

variable {t : Token} {p : Progress}

instance {decl : Rule α} [Unlogged decl] {keep : α → Progress} : Unlogged (keepOrRecover t p decl keep) := by
  unfold keepOrRecover
  refine @Unlogged.bind _ _ _ _ inferInstance fun o => ?_
  cases o <;> infer_instance

instance : Unlogged (importRound t p) := by unfold importRound; infer_instance

instance : Unlogged (aliasRound t p) := by unfold aliasRound; infer_instance

instance : Unlogged (classRound t p) := by
  unfold classRound
  refine @Unlogged.bind _ _ _ _ inferInstance fun o => ?_
  match o with
  | none => infer_instance
  | some (c, closed) => infer_instance

instance : Unlogged (functionRound t p) := by unfold functionRound; infer_instance

instance : Unlogged (declRound p) := by
  unfold declRound
  refine @Unlogged.bind _ _ _ _ inferInstance fun t => ?_
  split <;> infer_instance

end Decl

instance : Unlogged program := by unfold program; infer_instance

end Rule
end SemFront
