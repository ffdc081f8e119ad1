/-
Reading two layouts of the same tokens goes in step. Rules see of a token its kind and its text, and of
places only which token they belong to; so from readers that stand on tokens of the same index every
rule ends in the same way, with values that match, with the same reports up to places, and with readers
on tokens of the same index again.
-/
import SemFront.Grammar.Reading
import SemFront.Proofs.Layout.Pairing

namespace SemFront

open Matching (Matches)

-- the rules below are long sequences of steps, each of which is an instance
set_option synthInstance.maxSize 10000

variable {P : Pairing}

/-! ## Problems -/

/-- An error without its places. -/
def GrammarError.erase (e : GrammarError) : GrammarError :=
  { e with span := {}, related := e.related.map fun r => ({}, r.2) }

/-- Whether a problem only stands for others, which are left out. -/
def Problem.isTooMany : Problem → Bool
  | .tooMany _ _ => true
  | _ => false

/-- Problems match if their errors say the same of the same tokens. One that stands for others is about no
tokens of its own, and matches none. -/
instance : Matching Problem where
  Matches P p q := p.error.erase = q.error.erase ∧ Matches P p.error.span q.error.span ∧
    Matches P (p.error.related.map Prod.fst) (q.error.related.map Prod.fst) ∧ p.isTooMany = false

section Problems

variable {t u t' u' : Token} {s s' : Span}

theorem Matched.describe [Matched P t u] : t.describe = u.describe := by
  unfold Token.describe
  rw [Matched.kind (P := P) (u := u), show t.raw = u.raw from (inferInstance : Matched P t.raw u.raw).matches_]

variable [h : Matched P t u] [h' : Matched P t' u'] [hs : Matched P s s']

instance {w : Wanted} : Matched P (Problem.expected w t) (.expected w u) := by
  refine ⟨?_, (inferInstance : Matched P t.span u.span).matches_, .nil, rfl⟩
  simp only [Problem.error, GrammarError.erase, Matched.describe (P := P) (t := t) (u := u),
    Matched.kind (P := P) (t := t) (u := u)]

instance {c : Context} : Matched P (Problem.unexpected c t) (.unexpected c u) := by
  refine ⟨?_, (inferInstance : Matched P t.span u.span).matches_, .nil, rfl⟩
  simp only [Problem.error, GrammarError.erase, Matched.describe (P := P) (t := t) (u := u)]

instance {w w' : Enclosure} [hw : Matched P w w'] : Matched P (Problem.unclosed w t' t) (.unclosed w' u' u) := by
  refine ⟨?_, (inferInstance : Matched P t.span u.span).matches_,
    .cons (inferInstance : Matched P t'.span u'.span).matches_ .nil, rfl⟩
  obtain rfl : w = w' := hw.matches_
  simp only [Problem.error, GrammarError.erase, Matched.describe (P := P) (t := t) (u := u), List.map_cons,
    List.map_nil]

instance : Matched P (Problem.missingSemicolon t) (.missingSemicolon u) := by
  refine ⟨?_, (inferInstance : Matched P t.span u.span).matches_, .nil, rfl⟩
  simp only [Problem.error, GrammarError.erase, Matched.describe (P := P) (t := t) (u := u)]

instance {n m : String} [hn : Matched P n m] : Matched P (Problem.missingType n t) (.missingType m u) := by
  refine ⟨?_, (inferInstance : Matched P t.span u.span).matches_, .nil, rfl⟩
  obtain rfl : n = m := hn.matches_
  simp only [Problem.error, GrammarError.erase, Matched.describe (P := P) (t := t) (u := u)]

instance : Matched P (Problem.lateImport s) (.lateImport s') := ⟨rfl, hs.matches_, .nil, rfl⟩

instance : Matched P (Problem.lateAlias s) (.lateAlias s') := ⟨rfl, hs.matches_, .nil, rfl⟩

instance : Matched P (Problem.aliasTarget s) (.aliasTarget s') := ⟨rfl, hs.matches_, .nil, rfl⟩

instance {f : ComprehensionFlaw} : Matched P (Problem.comprehension f s) (.comprehension f s') :=
  ⟨rfl, hs.matches_, .nil, rfl⟩

end Problems

/-! ## Readers -/

instance : Matching Report := ⟨fun P a b => Matches P a.problem b.problem⟩

instance : Matching Recovery :=
  ⟨fun P a b => a.unit = b.unit ∧ a.skipped = b.skipped ∧ Matches P a.resumed b.resumed⟩

/-- Readers that stand on tokens of the same index and have reported the same. -/
structure Reader.Alike (P : Pairing) (r s : Reader) : Prop where
  rest : ∃ ps, ps <:+ P.tokens ∧ r.rest = ps.map Prod.fst ∧ s.rest = ps.map Prod.snd
  eof : (r.eof, s.eof) = P.eof
  budget : s.budget = r.budget
  reports : Matches P r.reports s.reports
  recoveries : Matches P r.recoveries s.recoveries

namespace Reader.Alike

variable {r s : Reader}

theorem headD {ps : List (Token × Token)} (hps : ps <:+ P.tokens) (h : (r.eof, s.eof) = P.eof) :
    Matches P ((ps.map Prod.fst).headD r.eof) ((ps.map Prod.snd).headD s.eof) := by
  cases ps with
  | nil => exact List.mem_append_right _ (h ▸ List.mem_singleton_self _)
  | cons p ps => exact List.mem_append_left _ (hps.mem List.mem_cons_self)

theorem current (h : r.Alike P s) : Matches P r.current s.current := by
  obtain ⟨ps, hps, hr, hs⟩ := h.rest
  unfold Reader.current
  rw [hr, hs]
  exact headD hps h.eof

theorem ahead (h : r.Alike P s) (n : Nat) : Matches P (r.ahead n) (s.ahead n) := by
  obtain ⟨ps, hps, hr, hs⟩ := h.rest
  unfold Reader.ahead
  rw [hr, hs, ← List.map_drop, ← List.map_drop]
  exact headD ((List.drop_suffix _ ps).trans hps) h.eof

theorem advance (h : r.Alike P s) : r.advance.Alike P s.advance where
  rest := by
    obtain ⟨ps, hps, hr, hs⟩ := h.rest
    refine ⟨ps.tail, (List.tail_suffix ps).trans hps, ?_, ?_⟩
    · rw [List.map_tail, ← hr]
      rfl
    · rw [List.map_tail, ← hs]
      rfl
  eof := h.eof
  budget := h.budget
  reports := h.reports
  recoveries := h.recoveries

theorem kinds (h : r.Alike P s) : ∃ ps, ps <:+ P.tokens ∧ r.rest = ps.map Prod.fst ∧ s.rest = ps.map Prod.snd ∧
    ∀ p ∈ ps, p.1.kind = p.2.kind := by
  obtain ⟨ps, hps, hr, hs⟩ := h.rest
  refine ⟨ps, hps, hr, hs, fun p hp => ?_⟩
  exact congrArg Lexeme.kind (P.lexemes p (List.mem_append_left _ (hps.mem hp)))

theorem look (h : r.Alike P s) (n m : Nat) : (r.look n).Alike P (s.look m) :=
  ⟨h.rest, h.eof, h.budget, h.reports, h.recoveries⟩

theorem advanceBy : ∀ (n : Nat) {r s : Reader}, r.Alike P s → (r.advanceBy n).Alike P (s.advanceBy n)
  | 0, _, _, h => h
  | n + 1, _, _, h => advanceBy n h.advance

theorem report {p q : Problem} (h : r.Alike P s) (hp : Matches P p q) : (r.report p).Alike P (s.report q) where
  rest := h.rest
  eof := h.eof
  budget := h.budget
  reports := by
    change List.Forall₂ _ (r.reports.push _).toList (s.reports.push _).toList
    rw [Array.toList_push, Array.toList_push]
    exact List.rel_append h.reports (.cons hp .nil)
  recoveries := h.recoveries

end Reader.Alike

/-! ## Rules -/

/-- Replies from two layouts: both are values that match, or both are failures. -/
inductive Reply.Alike [Matching α] (P : Pairing) : Reply α → Reply α → Prop where
  | ok {a b : α} {r s : Reader} : Matches P a b → r.Alike P s → Reply.Alike P (.ok a r) (.ok b s)
  | fail {r s : Reader} : r.Alike P s → Reply.Alike P (.fail r) (.fail s)

namespace Rule

/-- Two rules that read two layouts in step. -/
class InStep [Matching α] (P : Pairing) (x y : Rule α) : Prop where
  replies : ∀ {r s : Reader}, r.Alike P s → (x r).Alike P (y s)

inductive Round.Matches [Matching σ] (P : Pairing) : Round σ → Round σ → Prop where
  | again {a b : σ} : Matching.Matches P a b → Round.Matches P (.again a) (.again b)
  | stop {a b : σ} : Matching.Matches P a b → Round.Matches P (.stop a) (.stop b)

instance [Matching σ] : Matching (Round σ) := ⟨Round.Matches⟩

instance [Matching σ] {a b : σ} [h : Matched P a b] : Matched P (Round.again a) (.again b) := ⟨.again h.matches_⟩

instance [Matching σ] {a b : σ} [h : Matched P a b] : Matched P (Round.stop a) (.stop b) := ⟨.stop h.matches_⟩

namespace InStep

section Steps

variable [Matching α] [Matching β]

instance {a b : α} [h : Matched P a b] : InStep P (Pure.pure a : Rule α) (Pure.pure b) := ⟨fun hr => .ok h.matches_ hr⟩

instance {a b : α} [h : Matched P a b] : InStep P (Rule.pure a) (Rule.pure b) := ⟨fun hr => .ok h.matches_ hr⟩

instance : InStep P (fail : Rule α) fail := ⟨fun hr => .fail hr⟩

instance : InStep P current current := ⟨fun hr => .ok hr.current hr⟩

instance : InStep P peek peek := ⟨fun hr => .ok (hr.ahead 0) hr⟩

instance : InStep P (ahead n) (ahead n) := ⟨fun hr => .ok (hr.ahead n) (hr.look n n)⟩

instance : InStep P advance advance := ⟨fun hr => .ok rfl hr.advance⟩

instance {p q : Problem} [h : Matched P p q] : InStep P (report p) (report q) :=
  ⟨fun hr => .ok rfl (hr.report h.matches_)⟩

theorem of_bind {x y : Rule α} {f g : α → Rule β} [hx : InStep P x y]
    (hf : ∀ a b, Matches P a b → InStep P (f a) (g b)) : InStep P (x >>= f) (y >>= g) where
  replies {r s} hr := by
    have h := hx.replies hr
    change (Rule.bind x f r).Alike P (Rule.bind y g s)
    unfold Rule.bind
    cases hxr : x r with
    | ok a r' =>
      cases hys : y s with
      | ok b s' =>
        rw [hxr, hys] at h
        cases h with
        | ok hab hr' => exact (hf a b hab).replies hr'
      | fail s' =>
        rw [hxr, hys] at h
        cases h
    | fail r' =>
      cases hys : y s with
      | ok b s' =>
        rw [hxr, hys] at h
        cases h
      | fail s' =>
        rw [hxr, hys] at h
        cases h with
        | fail hr' => exact .fail hr'

instance {x y : Rule α} {f g : α → Rule β} [InStep P x y]
    [hf : ∀ p : MatchedPair P α, InStep P (f p.left) (g p.right)] : InStep P (x >>= f) (y >>= g) :=
  of_bind fun a b h => hf ⟨a, b, h⟩

instance {c d : Prop} [Decidable c] [Decidable d] {x y x' y' : Rule α} [h : Matched P c d] [hx : InStep P x y]
    [hx' : InStep P x' y'] : InStep P (if c then x else x') (if d then y else y') := by
  by_cases hc : c
  · rw [if_pos hc, if_pos (h.matches_.1 hc)]
    exact hx
  · rw [if_neg hc, if_neg fun hd => hc (h.matches_.2 hd)]
    exact hx'

instance {w : Wanted} {t u : Token} [Matched P t u] : InStep P (refuse w t : Rule α) (refuse w u) := by
  unfold refuse; infer_instance

instance {k : Kind} : InStep P (expect k) (expect k) := by unfold expect; infer_instance

instance {w : Wanted} : InStep P (expectWord w) (expectWord w) := by unfold expectWord; infer_instance

instance {x y : Rule α} [h : InStep P x y] : InStep P x.attempt y.attempt where
  replies {r s} hr := by
    have h := h.replies hr
    unfold attempt
    cases hx : x r with
    | ok a r' =>
      cases hy : y s with
      | ok b s' =>
        rw [hx, hy] at h
        cases h with
        | ok hab hr' => exact .ok (.some hab) hr'
      | fail s' =>
        rw [hx, hy] at h
        cases h
    | fail r' =>
      cases hy : y s with
      | ok b s' =>
        rw [hx, hy] at h
        cases h
      | fail s' =>
        rw [hx, hy] at h
        cases h with
        | fail hr' => exact .ok .none hr'

/-- After an attempt, both readings go on with values that match, or both without one. -/
instance {x y : Rule α} {f g : Option α → Rule β} [InStep P x y]
    [hs : ∀ p : MatchedPair P α, InStep P (f (some p.left)) (g (some p.right))] [hn : InStep P (f none) (g none)] :
    InStep P (x.attempt >>= f) (y.attempt >>= g) := by
  refine of_bind fun a b h => ?_
  cases h with
  | some h => exact hs ⟨_, _, h⟩
  | none => exact hn

end Steps

section Loops

variable [Matching σ] {round round' : σ → Rule (Round σ)}
  [h : ∀ p : MatchedPair P σ, InStep P (round p.left) (round' p.right)]

theorem rounds : ∀ (n : Nat) {x y : σ}, Matches P x y → InStep P (Rule.rounds round n x) (Rule.rounds round' n y)
  | 0, _, _, hxy => ⟨fun hr => .ok hxy hr⟩
  | n + 1, x, y, hxy => by
    have := h ⟨x, y, hxy⟩
    change InStep P (round x >>= _) (round' y >>= _)
    refine of_bind fun a b hab => ?_
    cases hab with
    | again hab => exact rounds n hab
    | stop hab => exact ⟨fun hr => .ok hab hr⟩

instance {x y : σ} [hxy : Matched P x y] : InStep P (loop round x) (loop round' y) where
  replies {r s} hr := by
    unfold loop
    rw [hr.budget]
    exact (rounds _ hxy.matches_).replies hr

end Loops

section Items

variable [Matching α] {item item' : Rule α} [InStep P item item'] {c : Punct} {w : Wanted}

instance {xs ys : Array α} [Matched P xs ys] : InStep P (itemRound c w item xs) (itemRound c w item' ys) := by
  unfold itemRound; infer_instance

instance : InStep P (items c w item) (items c w item') := by unfold items; infer_instance

instance : InStep P (someItems c w item) (someItems c w item') := by unfold someItems; infer_instance

instance : InStep P (manyItems c w item) (manyItems c w item') := by unfold manyItems; infer_instance

end Items

/-! ## Names and IRIs -/

instance : InStep P currentIdent currentIdent := by unfold currentIdent; infer_instance

instance {segment : Rule Unit} [InStep P segment segment] {xs ys : Array Ident} [Matched P xs ys] :
    InStep P (segmentRound segment xs) (segmentRound segment ys) := by unfold segmentRound; infer_instance

instance : InStep P dottedName dottedName := by unfold dottedName; infer_instance

instance : InStep P iriDomain iriDomain := by unfold iriDomain; infer_instance

instance {x y : Array Ident × Bool} [Matched P x y] : InStep P (pathRound x) (pathRound y) := by
  unfold pathRound; infer_instance

instance : InStep P iriPath iriPath := by unfold iriPath; infer_instance

instance : InStep P iriFragment iriFragment := by unfold iriFragment; infer_instance

instance {t u : Token} [Matched P t u] : InStep P (absoluteIri t) (absoluteIri u) := by
  unfold absoluteIri; infer_instance

instance {t u : Token} {i j : Option Ident} [Matched P t u] : InStep P (qName t i) (qName u j) := by
  unfold qName; infer_instance

instance : InStep P opensHost opensHost := by unfold opensHost; infer_instance

instance : InStep P iri iri := by unfold iri; infer_instance

/-! ## Expressions -/

end InStep

inductive ComprehensionPart.Matches (P : Pairing) : ComprehensionPart → ComprehensionPart → Prop where
  | generator {g h : Generator} : Matching.Matches P g h → Matches P (.generator g) (.generator h)
  | constraint {e f : Expr} : Matching.Matches P e f → Matches P (.constraint e) (.constraint f)

instance : Matching ComprehensionPart := ⟨ComprehensionPart.Matches⟩

instance {g h : Generator} [m : Matched P g h] : Matched P (ComprehensionPart.generator g) (.generator h) :=
  ⟨.generator m.matches_⟩

instance {e f : Expr} [m : Matched P e f] : Matched P (ComprehensionPart.constraint e) (.constraint f) :=
  ⟨.constraint m.matches_⟩

theorem generatorsOf_matches {ps qs : List ComprehensionPart} (h : Matches P ps qs) :
    Matches P (generatorsOf ps) (generatorsOf qs) := by
  change List.Forall₂ (Matches P) ps qs at h
  induction h with
  | nil => exact .nil
  | cons h _ ih =>
    cases h with
    | generator h => exact .cons h ih
    | constraint _ => exact ih

theorem constraintsOf_matches {ps qs : List ComprehensionPart} (h : Matches P ps qs) :
    Matches P (constraintsOf ps) (constraintsOf qs) := by
  change List.Forall₂ (Matches P) ps qs at h
  induction h with
  | nil => exact .nil
  | cons h _ ih =>
    cases h with
    | generator _ => exact ih
    | constraint h => exact .cons h ih

namespace InStep

instance {i j : Ident} {ps qs : List ComprehensionPart} {s t : Span} [hi : Matched P i j] [hp : Matched P ps qs]
    [hs : Matched P s t] : InStep P (comprehensionOf i ps s) (comprehensionOf j qs t) := by
  have hg := generatorsOf_matches hp.matches_
  have hc := constraintsOf_matches hp.matches_
  have hparts := hp.matches_
  unfold comprehensionOf comprehensionShape
  generalize generatorsOf ps = gs at hg ⊢
  generalize generatorsOf qs = gs' at hg ⊢
  generalize constraintsOf ps = cs at hc ⊢
  generalize constraintsOf qs = cs' at hc ⊢
  cases hg with
  | nil => dsimp only; infer_instance
  | cons hg hgs =>
    have := Matched.mk hg
    cases hgs with
    | cons hg _ =>
      have := Matched.mk hg
      dsimp only
      infer_instance
    | nil =>
      cases hc with
      | nil => dsimp only; infer_instance
      | cons hc hcs =>
        have := Matched.mk hc
        cases hcs with
        | cons hc _ =>
          have := Matched.mk hc
          dsimp only
          infer_instance
        | nil =>
          cases hparts with
          | nil => dsimp only; infer_instance
          | cons hpart _ => cases hpart <;> (dsimp only; infer_instance)

section Expr

variable {sub sub' : Nat → Rule Expr} [∀ l, InStep P (sub l) (sub' l)]

instance : InStep P (unary sub) (unary sub') := by unfold unary; infer_instance

instance : InStep P opensCast opensCast := by unfold opensCast; infer_instance

instance {t u : Token} [Matched P t u] : InStep P (cast sub t) (cast sub' u) := by unfold cast; infer_instance

instance : InStep P (parenOrCast sub) (parenOrCast sub') := by unfold parenOrCast; infer_instance

instance : InStep P (nameOrCall sub) (nameOrCall sub') := by unfold nameOrCall; infer_instance

instance : InStep P generator generator := by unfold generator; infer_instance

instance : InStep P (comprehensionPart sub) (comprehensionPart sub') := by unfold comprehensionPart; infer_instance

instance {t u : Token} [Matched P t u] : InStep P (comprehension sub t) (comprehension sub' u) := by
  unfold comprehension; infer_instance

instance : InStep P opensComprehension opensComprehension := by unfold opensComprehension; infer_instance

instance : InStep P (listOrComprehension sub) (listOrComprehension sub') := by
  unfold listOrComprehension; infer_instance

instance : InStep P (propertyInit sub) (propertyInit sub') := by unfold propertyInit; infer_instance

instance : InStep P (construct sub) (construct sub') := by unfold construct; infer_instance

instance : InStep P noExpr noExpr := by unfold noExpr; infer_instance

instance : InStep P (primary sub) (primary sub') := by
  unfold primary
  refine of_bind fun t u h => ?_
  have := Matched.mk h
  rw [Matched.kind (P := P) (t := t) (u := u)]
  cases u.kind with
  | keyword k => cases k <;> infer_instance
  | punct p => cases p <;> infer_instance
  | _ => infer_instance

instance {level : Nat} {e f : Expr} [Matched P e f] : InStep P (operatorRound sub level e) (operatorRound sub' level f) := by
  unfold operatorRound
  refine of_bind fun t u h => ?_
  have := Matched.mk h
  rw [Matched.kind (P := P) (t := t) (u := u)]
  cases BinaryOp.ofKind? u.kind <;> infer_instance

end Expr

instance exprAt : ∀ d l, InStep P (Rule.exprAt d l) (Rule.exprAt d l)
  | 0, _ => by unfold Rule.exprAt; infer_instance
  | d + 1, l => by
    have := exprAt d
    unfold Rule.exprAt operators
    infer_instance

instance : InStep P expr expr where
  replies {r s} hr := by
    unfold expr
    rw [hr.budget]
    exact (exprAt _ 0).replies hr

/-! ## What is ahead -/

end InStep

theorem chainLength_eq : ∀ {ps : List (Token × Token)}, (∀ p ∈ ps, p.1.kind = p.2.kind) →
    chainLength (ps.map Prod.fst) = chainLength (ps.map Prod.snd)
  | [], _ => rfl
  | [p], _ => rfl
  | p :: q :: ps, hk => by
    have ih := chainLength_eq fun p (hp : p ∈ ps) => hk p (List.mem_cons_of_mem _ (List.mem_cons_of_mem _ hp))
    simp only [List.map_cons, chainLength]
    rw [hk p List.mem_cons_self, hk q (List.mem_cons_of_mem _ List.mem_cons_self), ih]

section Ahead

variable {ps : List (Token × Token)} (hk : ∀ p ∈ ps, p.1.kind = p.2.kind)
include hk

theorem headKind_eq : (ps.map Prod.fst).head?.map Token.kind = (ps.map Prod.snd).head?.map Token.kind := by
  cases ps with
  | nil => rfl
  | cons p ps => exact congrArg some (hk p List.mem_cons_self)

theorem startsFunction_eq {t u : Token} (h : t.kind = u.kind) :
    startsFunction t (ps.map Prod.fst) = startsFunction u (ps.map Prod.snd) := by
  unfold startsFunction
  rw [h, chainLength_eq hk, ← List.map_drop, ← List.map_drop, headKind_eq]
  exact fun p hp => hk p (List.mem_of_mem_drop hp)

theorem boundary?_eq {unit : SyncUnit} {t u : Token} (h : t.kind = u.kind) :
    boundary? unit t (ps.map Prod.fst) = boundary? unit u (ps.map Prod.snd) := by
  unfold boundary?
  rw [h, startsFunction_eq hk h, headKind_eq hk]

theorem skipFrom_eq {unit : SyncUnit} {d : Nat} : skipFrom unit d (ps.map Prod.fst) = skipFrom unit d (ps.map Prod.snd) := by
  induction ps generalizing d with
  | nil => rfl
  | cons p ps ih =>
    have hps : ∀ p ∈ ps, p.1.kind = p.2.kind := fun q hq => hk q (List.mem_cons_of_mem p hq)
    have h := hk p List.mem_cons_self
    rw [List.map_cons, List.map_cons, skipFrom.eq_def, skipFrom.eq_def]
    simp only [h, ih hps, headKind_eq hps, boundary?_eq hps h]

theorem skipUnit_eq {unit : SyncUnit} : skipUnit unit (ps.map Prod.fst) = skipUnit unit (ps.map Prod.snd) := by
  cases ps with
  | nil => rfl
  | cons p ps =>
    have hps : ∀ p ∈ ps, p.1.kind = p.2.kind := fun q hq => hk q (List.mem_cons_of_mem p hq)
    rw [List.map_cons, List.map_cons, skipUnit, skipUnit, hk p List.mem_cons_self, skipFrom_eq hps, skipFrom_eq hps]

theorem paramLength_eq {d : Nat} : paramLength d (ps.map Prod.fst) = paramLength d (ps.map Prod.snd) := by
  induction ps generalizing d with
  | nil => rfl
  | cons p ps ih =>
    have hps : ∀ p ∈ ps, p.1.kind = p.2.kind := fun q hq => hk q (List.mem_cons_of_mem p hq)
    rw [List.map_cons, List.map_cons, paramLength.eq_def, paramLength.eq_def]
    simp only [hk p List.mem_cons_self, ih hps]

end Ahead

theorem afterChain_alike {r s : Reader} (h : r.Alike P s) :
    Matches P r.afterChain.1 s.afterChain.1 ∧ r.afterChain.2.Alike P s.afterChain.2 := by
  obtain ⟨ps, -, hr, hs, hk⟩ := h.kinds
  have hn : chainLength r.rest.tail = chainLength s.rest.tail := by
    rw [hr, hs, ← List.map_tail, ← List.map_tail]
    exact chainLength_eq fun p hp => hk p (List.mem_of_mem_tail hp)
  unfold Reader.afterChain
  dsimp only
  rw [hn]
  exact ⟨h.ahead _, h.look _ _⟩

theorem over_matches {ps : List (Token × Token)} (hps : ∀ p ∈ ps, p ∈ P.all) {s t : Span} (h : Matches P s t) :
    Matches P (s.over (ps.map Prod.fst)) (t.over (ps.map Prod.snd)) := by
  induction ps generalizing s t with
  | nil => exact h
  | cons p ps ih =>
    have := Matched.mk h
    have : Matched P p.1 p.2 := ⟨hps p List.mem_cons_self⟩
    exact ih (fun q hq => hps q (List.mem_cons_of_mem p hq))
      (inferInstance : Matched P (s.through p.1.span) (t.through p.2.span)).matches_

namespace InStep

instance : InStep P afterChain afterChain :=
  ⟨fun hr => .ok (afterChain_alike hr).1 (afterChain_alike hr).2⟩

instance {unit : SyncUnit} {t u : Token} [h : Matched P t u] : InStep P (recover unit t) (recover unit u) where
  replies {r s} hr := by
    obtain ⟨ps, hps, hrr, hsr, hk⟩ := hr.kinds
    have hskip : (if r.current.isSame t then skipUnit unit r.rest else skipFrom unit 0 r.rest) =
        if s.current.isSame u then skipUnit unit s.rest else skipFrom unit 0 s.rest := by
      rw [Matched.isSame hr.current h.matches_, hrr, hsr, skipUnit_eq hk, skipFrom_eq hk]
    unfold recover
    dsimp only
    rw [hskip]
    generalize (if s.current.isSame u then skipUnit unit s.rest else skipFrom unit 0 s.rest) = skip
    have hafter : (if skip.atFunction then (r.advanceBy skip.count).afterChain.2 else r.advanceBy skip.count).Alike P
        (if skip.atFunction then (s.advanceBy skip.count).afterChain.2 else s.advanceBy skip.count) := by
      split
      · exact (afterChain_alike (hr.advanceBy _)).2
      · exact hr.advanceBy _
    refine .ok ?_ ⟨hafter.rest, hafter.eof, hafter.budget, hafter.reports, ?_⟩
    · rw [hrr, hsr, ← List.map_take, ← List.map_take]
      have := (inferInstance : Matched P t.span u.span)
      exact over_matches (fun p hp => List.mem_append_left _ (hps.mem (List.mem_of_mem_take hp))) this.matches_
    · change List.Forall₂ _ (Array.push _ _).toList (Array.push _ _).toList
      rw [Array.toList_push, Array.toList_push]
      exact List.rel_append hafter.recoveries (.cons ⟨rfl, rfl, hafter.current⟩ .nil)

/-! ## Statements -/

instance {t u : Token} [Matched P t u] : InStep P (typeRef t) (typeRef u) := by
  unfold typeRef
  refine of_bind fun v w h => ?_
  have := Matched.mk h
  rw [Matched.kind (P := P) (t := v) (u := w)]
  cases w.kind with
  | keyword k => cases k <;> infer_instance
  | punct p => cases p <;> infer_instance
  | _ => infer_instance

instance {b c : Bool} [Matched P b c] : InStep P (initFollows b) (initFollows c) := by unfold initFollows; infer_instance

instance : InStep P varDecl varDecl := by unfold varDecl; infer_instance

instance : InStep P assignment assignment := by unfold assignment; infer_instance

instance : InStep P exprStmt exprStmt := by unfold exprStmt; infer_instance

instance : InStep P returnStmt returnStmt := by unfold returnStmt; infer_instance

instance : InStep P nameStmt nameStmt := by unfold nameStmt; infer_instance

instance : InStep P finishStmt finishStmt := by unfold finishStmt; infer_instance

section Stmt

variable {block block' : Rule Block} [InStep P block block']

instance : InStep P (condBlock block) (condBlock block') := by unfold condBlock; infer_instance

instance : InStep P (elseBlock block) (elseBlock block') := by unfold elseBlock; infer_instance

instance : InStep P (ifStmt block) (ifStmt block') := by unfold ifStmt; infer_instance

instance : InStep P (whileStmt block) (whileStmt block') := by unfold whileStmt; infer_instance

instance : InStep P (withStmt block) (withStmt block') := by unfold withStmt; infer_instance

instance : InStep P (stmt block) (stmt block') := by
  unfold stmt
  refine of_bind fun t u h => ?_
  rw [(Matched.mk h).kind]
  cases u.kind with
  | keyword k => cases k <;> infer_instance
  | _ => infer_instance

instance {ss ts : Array Stmt} [Matched P ss ts] : InStep P (stmtRound block ss) (stmtRound block' ts) := by
  unfold stmtRound; infer_instance

instance : InStep P (blockWith block) (blockWith block') := by unfold blockWith; infer_instance

end Stmt

instance blockAt : ∀ d, InStep P (Rule.blockAt d) (Rule.blockAt d)
  | 0 => by unfold Rule.blockAt; infer_instance
  | d + 1 => by
    have := blockAt d
    unfold Rule.blockAt
    infer_instance

instance : InStep P block block where
  replies {r s} hr := by
    unfold block
    rw [hr.budget]
    exact (blockAt _).replies hr

/-! ## Parameters -/

instance {bindings bindings' : Rule (List Binding)} [InStep P bindings bindings'] :
    InStep P (binding bindings) (binding bindings') := by unfold binding; infer_instance

instance bindingsAt : ∀ d, InStep P (Rule.bindingsAt d) (Rule.bindingsAt d)
  | 0 => by unfold Rule.bindingsAt; infer_instance
  | d + 1 => by
    have := bindingsAt d
    unfold Rule.bindingsAt
    infer_instance

instance : InStep P bindings bindings where
  replies {r s} hr := by
    unfold bindings
    rw [hr.budget]
    exact (bindingsAt _).replies hr

instance : InStep P param param := by unfold param; infer_instance

instance : InStep P skipParam skipParam where
  replies {r s} hr := by
    obtain ⟨ps, hps, hrr, hsr, hk⟩ := hr.kinds
    unfold skipParam
    dsimp only
    have hlast : ∀ (qs : List (Token × Token)), (∀ q ∈ qs, q ∈ P.all) →
        Matches P ((qs.map Prod.fst).getLastD r.current) ((qs.map Prod.snd).getLastD s.current) := by
      intro qs hqs
      rcases List.eq_nil_or_concat qs with rfl | ⟨qs, q, rfl⟩
      · exact hr.current
      · simp only [List.concat_eq_append, List.map_append, List.map_cons, List.map_nil, List.getLastD_concat]
        exact hqs q (by simp)
    rw [hrr, hsr, paramLength_eq hk, ← List.map_take, ← List.map_take]
    exact .ok (hlast _ fun q hq => List.mem_append_left _ (hps.mem (List.mem_of_mem_take hq))) (hr.advanceBy _)

instance {t u : Token} [h : Matched P t u] : InStep P (skipParamFrom t) (skipParamFrom u) := by
  unfold skipParamFrom
  refine of_bind fun v w hv => ?_
  have := Matched.mk hv
  rw [Matched.isSame hv h.matches_]
  infer_instance

instance : InStep P paramOrBad paramOrBad := by unfold paramOrBad; infer_instance

instance {xs ys : Array Param} [Matched P xs ys] : InStep P (paramEnd xs) (paramEnd ys) := by
  unfold paramEnd; infer_instance

instance {xs ys : Array Param} [Matched P xs ys] : InStep P (paramRound xs) (paramRound ys) := by
  unfold paramRound; infer_instance

instance : InStep P params params := by unfold params; infer_instance

/-! ## Declarations -/

instance : InStep P optionalSemicolon optionalSemicolon := by unfold optionalSemicolon; infer_instance

instance : InStep P functionDecl functionDecl := by unfold functionDecl; infer_instance

instance : InStep P moduleName moduleName := by unfold moduleName; infer_instance

instance : InStep P moduleImport moduleImport := by unfold moduleImport; infer_instance

instance : InStep P aliasTarget aliasTarget := by
  unfold aliasTarget
  refine of_bind fun i j h => ?_
  cases h with
  | absolute h =>
    have := Matched.mk h
    infer_instance
  | qualified h =>
    have := Matched.mk h
    infer_instance

instance : InStep P aliasDecl aliasDecl := by unfold aliasDecl; infer_instance

instance : InStep P propertyDecl propertyDecl := by unfold propertyDecl; infer_instance

instance : InStep P member member := by unfold member; infer_instance

end InStep

/-! Of what has been read of a class or a program, each list matches. -/

instance : Matching ClassBody where
  Matches P b c := Matches P b.properties c.properties ∧ Matches P b.methods c.methods ∧ Matches P b.bad c.bad ∧
    Matches P b.last c.last

section ClassBody

variable {b c : ClassBody} {ps qs : Array PropertyDecl} {fs gs : Array FunctionDecl} {xs ys : Array Span} {s t : Span}

instance [h : Matched P b c] : Matched P b.properties c.properties := ⟨h.matches_.1⟩

instance [h : Matched P b c] : Matched P b.methods c.methods := ⟨h.matches_.2.1⟩

instance [h : Matched P b c] : Matched P b.bad c.bad := ⟨h.matches_.2.2.1⟩

instance [h : Matched P b c] : Matched P b.last c.last := ⟨h.matches_.2.2.2⟩

instance [hp : Matched P ps qs] [hf : Matched P fs gs] [hx : Matched P xs ys] [hs : Matched P s t] :
    Matched P (ClassBody.mk ps fs xs s) (.mk qs gs ys t) := ⟨hp.matches_, hf.matches_, hx.matches_, hs.matches_⟩

end ClassBody

instance : Matching Progress where
  Matches P p q := Matches P p.imports q.imports ∧ Matches P p.aliases q.aliases ∧ Matches P p.classes q.classes ∧
    Matches P p.functions q.functions ∧ Matches P p.bad q.bad ∧ Matches P p.part q.part

section Progress

variable {p q : Progress} {is js : Array ModuleImport} {as bs : Array Alias} {cs ds : Array ClassDef}
  {fs gs : Array FunctionDecl} {xs ys : Array Span} {s t : Section}

instance [h : Matched P p q] : Matched P p.imports q.imports := ⟨h.matches_.1⟩

instance [h : Matched P p q] : Matched P p.aliases q.aliases := ⟨h.matches_.2.1⟩

instance [h : Matched P p q] : Matched P p.classes q.classes := ⟨h.matches_.2.2.1⟩

instance [h : Matched P p q] : Matched P p.functions q.functions := ⟨h.matches_.2.2.2.1⟩

instance [h : Matched P p q] : Matched P p.bad q.bad := ⟨h.matches_.2.2.2.2.1⟩

instance [h : Matched P p q] : Matched P p.part q.part := ⟨h.matches_.2.2.2.2.2⟩

instance [hi : Matched P is js] [ha : Matched P as bs] [hc : Matched P cs ds] [hf : Matched P fs gs]
    [hx : Matched P xs ys] [hs : Matched P s t] : Matched P (Progress.mk is as cs fs xs s) (.mk js bs ds gs ys t) :=
  ⟨hi.matches_, ha.matches_, hc.matches_, hf.matches_, hx.matches_, hs.matches_⟩

end Progress

namespace InStep

instance {b c : ClassBody} [Matched P b c] : InStep P (memberRound b) (memberRound c) := by
  unfold memberRound
  refine of_bind fun t u h => ?_
  have := Matched.mk h
  have hmember (x y : PropertyDecl ⊕ FunctionDecl) (hxy : Matches P x y) (v w : Token) [Matched P v w] :
      InStep P
        (match x with
        | .inl p => return Round.again { b with properties := b.properties.push p, last := v.span }
        | .inr m => return Round.again { b with methods := b.methods.push m, last := v.span })
        (match y with
        | .inl p => return Round.again { c with properties := c.properties.push p, last := w.span }
        | .inr m => return Round.again { c with methods := c.methods.push m, last := w.span }) := by
    cases hxy with
    | inl h =>
      have := Matched.mk h
      infer_instance
    | inr h =>
      have := Matched.mk h
      infer_instance
  have (p : MatchedPair P (PropertyDecl ⊕ FunctionDecl)) (q : MatchedPair P Token) :=
    hmember p.left p.right p.matches_ q.left q.right
  infer_instance

instance : InStep P classDef classDef := by unfold classDef; infer_instance

section Decl

variable {t u : Token} [Matched P t u] {p q : Progress} [Matched P p q]

instance [Matching α] {decl : Rule α} [InStep P decl decl] {keep keep' : α → Progress}
    [∀ p : MatchedPair P α, Matched P (keep p.left) (keep' p.right)] :
    InStep P (keepOrRecover t p decl keep) (keepOrRecover u q decl keep') := by unfold keepOrRecover; infer_instance

instance : InStep P (importRound t p) (importRound u q) := by unfold importRound; infer_instance

instance : InStep P (aliasRound t p) (aliasRound u q) := by unfold aliasRound; infer_instance

instance : InStep P (classRound t p) (classRound u q) := by unfold classRound; infer_instance

instance : InStep P (functionRound t p) (functionRound u q) := by unfold functionRound; infer_instance

instance : InStep P (declRound p) (declRound q) := by
  unfold declRound
  refine of_bind fun t u h => ?_
  have := Matched.mk h
  rw [Matched.kind (P := P) (t := t) (u := u)]
  cases u.kind with
  | keyword k => cases k <;> infer_instance
  | _ => infer_instance

end Decl

instance : InStep P program program := by unfold program; infer_instance

end InStep
end Rule
end SemFront
