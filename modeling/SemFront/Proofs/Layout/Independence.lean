/-
What is read does not depend on the layout. Blanks, line ends and text that is no token move tokens
around and leave their kinds and texts as they are; so two sources with the same significant tokens
have the same program up to spans, the same problems at tokens of the same index, and the same
recoveries. Spans are compared in three places, to see whether a recovery got anywhere, whether a
problem repeats the one before it, and in which order declarations are written: each time only the
order of tokens counts.
-/
import SemFront.Proofs.Grammar.Decl
import SemFront.Proofs.Grammar.Reading
import SemFront.Proofs.Layout.InStep
import SemFront.Proofs.Token.Place
import SemFront.Proofs.Tree.Order
import SemFront.Proofs.Tree.Placeholders

namespace SemFront

open Matching (Matches)

/-! ## The tokens of two sources -/

/-- The tokens of a source, the end included, without text that is no token. -/
def significant (file source : String) : List Token := (tokenize file source).filter (·.kind ≠ .illegal)

/-- The significant tokens are in order, and they are what the reader of the source reads. -/
theorem significant_ordered (file source : String) (limit : Nat) : ∃ ts e, significant file source = ts ++ [e] ∧
    (ts ++ [e]).Pairwise Token.Before ∧ Reader.ofSource file source limit =
      { rest := ts, eof := e, budget := ts.length + 1, tokens := tokenize file source, limit } := by
  obtain ⟨ts, e, ht, he, hwf, hord⟩ := tokenize_ordered file source
  have hek : e.kind = .eof := congrArg Lexeme.kind he
  have hsig : significant file source = ts.filter (·.kind ≠ .illegal) ++ [e] := by
    unfold significant
    rw [ht, List.filter_append]
    simp [hek]
  refine ⟨ts.filter (·.kind ≠ .illegal), e, hsig, ?_, ?_⟩
  · obtain ⟨i, j, hcover, -⟩ := tokenize_covers (t := e) (by rw [ht]; simp)
    have hend : e.span.start ≤ e.span.stop := by
      rw [hcover.start, hcover.stop]
      exact Int.ofNat_le.2 hcover.le
    refine List.pairwise_append.2 ⟨?_, List.pairwise_singleton _ _, ?_⟩
    · refine (hord.sublist List.filter_sublist).imp_of_mem fun {t u} htm hum htu => ?_
      have h1 := (hwf t (List.mem_filter.1 htm).1).nonempty
      have h2 := (hwf u (List.mem_filter.1 hum).1).nonempty
      exact ⟨by omega, by omega⟩
    · intro t htm u hu
      obtain rfl := List.mem_singleton.1 hu
      have htm := (List.mem_filter.1 htm).1
      have h1 := (hwf t htm).nonempty
      have h2 := tokenize_ends ht hek t htm
      exact ⟨by omega, by omega⟩
  · unfold Reader.ofSource
    rw [ht]
    exact Reader.ofTokens_eq limit hek hwf

/-- Sources with the same significant tokens have a pairing, and their readers start in step. -/
theorem exists_pairing {file file' source source' : String} (limit limit' : Nat)
    (h : (significant file source).map Token.lexeme = (significant file' source').map Token.lexeme) :
    ∃ P : Pairing, P.all.map Prod.fst = significant file source ∧ P.all.map Prod.snd = significant file' source' ∧
      (Reader.ofSource file source limit).Alike P (.ofSource file' source' limit') := by
  obtain ⟨ts, e, hts, hord, hr⟩ := significant_ordered file source limit
  obtain ⟨us, f, hus, hord', hr'⟩ := significant_ordered file' source' limit'
  rw [hts, hus] at h ⊢
  have hlen : ts.length = us.length := by
    have := congrArg List.length h
    simpa using this
  have hzip : (ts ++ [e]).zip (us ++ [f]) = ts.zip us ++ [(e, f)] := by
    rw [List.zip_append hlen, List.zip_cons_cons, List.zip_nil_left]
  have hfst : (ts.zip us ++ [(e, f)]).map Prod.fst = ts ++ [e] := by
    rw [List.map_append, List.map_fst_zip (Nat.le_of_eq hlen), List.map_singleton]
  have hsnd : (ts.zip us ++ [(e, f)]).map Prod.snd = us ++ [f] := by
    rw [List.map_append, List.map_snd_zip (Nat.le_of_eq hlen.symm), List.map_singleton]
  have hlex : List.Forall₂ (fun t u => Token.lexeme t = Token.lexeme u) (ts ++ [e]) (us ++ [f]) := by
    rw [← List.forall₂_eq_eq_eq, List.forall₂_map_left_iff, List.forall₂_map_right_iff] at h
    exact h
  let P : Pairing := {
    tokens := ts.zip us
    eof := (e, f)
    lexemes := fun p hp => (List.forall₂_iff_zip.1 hlex).2 (hzip ▸ hp)
    ordered := List.Pairwise.and (List.pairwise_map.1 (hfst.symm ▸ hord)) (List.pairwise_map.1 (hsnd.symm ▸ hord')) }
  refine ⟨P, hfst, hsnd, ?_⟩
  rw [hr, hr']
  exact {
    rest := ⟨ts.zip us, List.suffix_refl _, (List.map_fst_zip (Nat.le_of_eq hlen)).symm,
      (List.map_snd_zip (Nat.le_of_eq hlen.symm)).symm⟩
    eof := rfl
    budget := by rw [hlen]
    reports := .nil
    recoveries := .nil }

variable {P : Pairing}

/-! ## Texts -/

/-- Sorting by what lists have in common leaves it in common. -/
theorem stableSort_forall₂ {R : α → β → Prop} {less : α → α → Bool} {less' : β → β → Bool}
    (hless : ∀ a b a' b', R a a' → R b b' → less a b = less' a' b') :
    ∀ {xs : List α} {ys : List β}, List.Forall₂ R xs ys → List.Forall₂ R (stableSort less xs) (stableSort less' ys) := by
  intro xs ys hxs
  induction hxs with
  | nil => exact .nil
  | @cons x y xs ys h hs ih =>
    have hinsert : ∀ {xs : List α} {ys : List β}, List.Forall₂ R xs ys →
        List.Forall₂ R (insertBy less x xs) (insertBy less' y ys) := by
      intro xs ys hs
      induction hs with
      | nil => exact .cons h .nil
      | cons hab hs ih =>
        unfold insertBy
        rw [hless _ _ _ _ hab h]
        split
        · exact .cons hab ih
        · exact .cons h (.cons hab hs)
    exact hinsert ih

instance : Matching Member := ⟨fun P m n => m.erase = n.erase ∧ Matches P m.span n.span⟩

instance : Matching Decl := ⟨fun P d e => d.shape = e.shape ∧ Matches P d.span e.span⟩

namespace Matched

/-- The members of a class come in the same order in both layouts. -/
theorem members {c d : ClassDef} (h : Matches P c d) : Matches P c.members d.members := by
  obtain ⟨-, hp, hm, -, -⟩ := h
  refine stableSort_forall₂ (fun _ _ _ _ hab hab' => ?_) (List.rel_append ?_ ?_)
  · exact decide_eq_decide.2 (Matched.start_lt hab.2 hab'.2)
  · refine List.forall₂_map_left_iff.2 (List.forall₂_map_right_iff.2 (hp.imp fun p q hpq => ?_))
    exact ⟨congrArg Member.property hpq.1, hpq.2⟩
  · refine List.forall₂_map_left_iff.2 (List.forall₂_map_right_iff.2 (hm.imp fun f g hfg => ?_))
    exact ⟨congrArg Member.method hfg.1, hfg.2⟩

theorem decls {p q : Program} (h : Matches P p q) : Matches P p.decls q.decls := by
  obtain ⟨-, -, hc, hf, -⟩ := h
  refine stableSort_forall₂ (fun _ _ _ _ hab hab' => ?_) (List.rel_append ?_ ?_)
  · exact decide_eq_decide.2 (Matched.start_lt hab.2 hab'.2)
  · refine List.forall₂_map_left_iff.2 (List.forall₂_map_right_iff.2 (hc.imp fun c d hcd => ⟨?_, hcd.2.2.2.2⟩))
    unfold Decl.shape
    dsimp only
    rw [Matched.option_map_eq Matched.erase_ident hcd.1, Matched.map_eq And.left (members hcd)]
  · refine List.forall₂_map_left_iff.2 (List.forall₂_map_right_iff.2 (hf.imp fun f g hfg => ?_))
    exact ⟨congrArg Sum.inr hfg.1, hfg.2⟩

theorem text {p q : Program} (h : Matches P p q) : p.text = q.text :=
  Program.Alike.text ⟨Matched.map_eq id h.1, Matched.map_eq id h.2.1, Matched.map_eq And.left (decls h)⟩

theorem placeholders {p q : Program} (h : Matches P p q) : p.outline.placeholders = q.outline.placeholders := by
  rw [← p.placeholders_erase, ← q.placeholders_erase, Matched.erase_program h]

/-! ## Errors -/

/-- Whether a problem repeats another one does not depend on the layout. -/
theorem repeats {a b a' b' : Problem} (h : Matches P a a') (h' : Matches P b b') : a.repeats b = a'.repeats b' := by
  have hsame : ∀ {a a' : Problem}, Matches P a a' →
      a.error.code = a'.error.code ∧ a.error.expected = a'.error.expected := fun {a a'} h => by
    obtain ⟨he, -⟩ := h
    simp only [GrammarError.erase, GrammarError.mk.injEq] at he
    exact ⟨he.2.1, he.2.2.2.1⟩
  unfold Problem.repeats
  rw [(hsame h).1, (hsame h').1, (hsame h).2, (hsame h').2, decide_eq_decide.2 (Matched.start_eq h.2.1 h'.2.1)]

end Matched

/-- Logs without a limit that have kept the same. -/
structure Log.Alike (P : Pairing) (a b : Log) : Prop where
  kept : Matches P a.kept b.kept
  notFull : a.isFull = false ∧ b.isFull = false

theorem Log.Alike.add {a b : Log} {p q : Problem} (h : a.Alike P b) (hp : Matches P p q) (n m : Nat) :
    (a.add 0 n p).Alike P (b.add 0 m q) := by
  have hrep : a.kept.head?.any (·.repeats p) = b.kept.head?.any (·.repeats q) := by
    have hk := h.kept
    generalize a.kept = xs at hk ⊢
    generalize b.kept = ys at hk ⊢
    cases hk with
    | nil => rfl
    | cons hab _ => exact Matched.repeats hab hp
  simp only [Log.add, h.notFull, hrep, Nat.lt_irrefl, decide_false, Bool.false_and, Bool.false_eq_true, ↓reduceIte]
  split
  · exact h
  · exact ⟨.cons hp h.kept, rfl, rfl⟩

theorem Log.Alike.ofReports {rs ss : List Report} (h : Matches P rs ss) (ts us : List Token) :
    (Log.ofReports 0 ts rs).Alike P (Log.ofReports 0 us ss) := by
  suffices ∀ {a b : Log}, a.Alike P b →
      (rs.foldl (fun log r => log.add 0 (faultsWithin r.reach ts) r.problem) a).Alike P
        (ss.foldl (fun log r => log.add 0 (faultsWithin r.reach us) r.problem) b) from this ⟨.nil, rfl, rfl⟩
  change List.Forall₂ (Matches P) rs ss at h
  induction h with
  | nil => exact id
  | cons hp _ ih => exact fun hab => ih (hab.add hp _ _)

/-- Without a limit, the problems kept match. -/
theorem Matched.keptProblems {rs ss : List Report} (h : Matches P rs ss) (ts us : List Token) :
    Matches P (keptProblems 0 ts rs) (keptProblems 0 us ss) :=
  List.rel_reverse (Log.Alike.ofReports h ts us).kept

/-! ## Readings -/

/-- Spans in two sources that start at tokens of the same index and stop at tokens of the same index. -/
def Span.SameTokens (ts us : List Token) (s t : Span) : Prop :=
  ∃ (i j : Nat) (a b a' b' : Token), ts[i]? = some a ∧ ts[j]? = some b ∧ us[i]? = some a' ∧ us[j]? = some b' ∧
    s = a.span.upTo b.span ∧ t = a'.span.upTo b'.span

theorem Matched.sameTokens {s t : Span} (h : Matches P s t) :
    Span.SameTokens (P.all.map Prod.fst) (P.all.map Prod.snd) s t := by
  obtain ⟨p, hp, q, hq, hs, ht⟩ := h
  obtain ⟨i, hi⟩ := List.getElem?_of_mem hp
  obtain ⟨j, hj⟩ := List.getElem?_of_mem hq
  refine ⟨i, j, p.1, q.1, p.2, q.2, ?_, ?_, ?_, ?_, hs, ht⟩ <;> simp [hi, hj]

/-- Errors that say the same, of tokens of the same indices. -/
structure GrammarError.Alike (ts us : List Token) (e f : GrammarError) : Prop where
  said : e.erase = f.erase
  span : Span.SameTokens ts us e.span f.span
  related : List.Forall₂ (Span.SameTokens ts us) (e.related.map Prod.fst) (f.related.map Prod.fst)

/-- What a recovery tells besides places: the unit given up, the number of tokens skipped, and the kind of the
token that reading resumed at. -/
def Recovery.outcome (r : Recovery) : SyncUnit × Nat × Kind := (r.unit, r.skipped, r.resumed.kind)

/-- Readings of two sources, with tokens `ts` and `us`, that differ in places only. -/
structure Reading.Alike (ts us : List Token) (p q : Reading Program) : Prop where
  value : p.value.erase = q.value.erase
  text : p.value.text = q.value.text
  placeholders : p.value.outline.placeholders = q.value.outline.placeholders
  errors : List.Forall₂ (GrammarError.Alike ts us) p.errors q.errors
  recoveries : p.recoveries.map Recovery.outcome = q.recoveries.map Recovery.outcome

theorem Matched.reading {p q : Reading Program} {ts us : List Token} (hv : Matches P p.value q.value)
    (hr : p.reader.Alike P q.reader) (hp : p.problems = SemFront.keptProblems 0 ts p.reader.reports.toList)
    (hq : q.problems = SemFront.keptProblems 0 us q.reader.reports.toList) :
    Reading.Alike (P.all.map Prod.fst) (P.all.map Prod.snd) p q where
  value := Matched.erase_program hv
  text := Matched.text hv
  placeholders := Matched.placeholders hv
  errors := by
    unfold Reading.errors
    rw [hp, hq]
    refine List.forall₂_map_left_iff.2 (List.forall₂_map_right_iff.2 ?_)
    refine (Matched.keptProblems hr.reports _ _).imp fun a b hab => ⟨hab.1, Matched.sameTokens hab.2.1, ?_⟩
    exact hab.2.2.1.imp fun _ _ => Matched.sameTokens
  recoveries := by
    refine Matched.map_eq (fun {a b} hab => ?_) hr.recoveries
    obtain ⟨hunit, hskipped, hresumed⟩ := hab
    have : Matched P a.resumed b.resumed := ⟨hresumed⟩
    unfold Recovery.outcome
    rw [hunit, hskipped, Matched.kind (P := P) (t := a.resumed) (u := b.resumed)]

/-- Sources with the same significant tokens are read alike, whatever their layout and however broken
they are: programs equal up to spans, the same errors at tokens of the same index, and the same
recoveries. -/
theorem readProgram_ignores_layout {file file' source source' : String}
    (h : (significant file source).map Token.lexeme = (significant file' source').map Token.lexeme) :
    Reading.Alike (significant file source) (significant file' source') (readProgram file source)
      (readProgram file' source') := by
  obtain ⟨P, hfst, hsnd, hr⟩ := exists_pairing 0 0 h
  rw [← hfst, ← hsnd]
  have hreply := (inferInstance : Rule.InStep P Rule.program Rule.program).replies hr
  have hreading : Matches P (readProgram file source).value (readProgram file' source').value ∧
      (readProgram file source).reader.Alike P (readProgram file' source').reader := by
    unfold Reader.ofSource at hreply
    unfold readProgram Rule.readSource
    generalize Rule.program (.ofTokens (tokenize file source)) = x at hreply ⊢
    generalize Rule.program (.ofTokens (tokenize file' source')) = y at hreply ⊢
    cases hreply with
    | ok hv hr => exact ⟨hv, hr⟩
    | fail hr => exact ⟨⟨.nil, .nil, .nil, .nil, .nil⟩, hr⟩
  exact Matched.reading hreading.1 hreading.2 Rule.readSource_problems Rule.readSource_problems

/-- A broken function on one line, and over several lines with text in between that is no token. -/
theorem readProgram_ignores_layout_broken :
    (significant "a" "f(): T \x7b x = ; y = 1 \x7d").map Token.lexeme =
      (significant "b" "f ()\n: @ T\n\x7b\n\tx=;\n\ty = 1\n\x7d\n").map Token.lexeme ∧
    Reading.Alike (significant "a" "f(): T \x7b x = ; y = 1 \x7d")
      (significant "b" "f ()\n: @ T\n\x7b\n\tx=;\n\ty = 1\n\x7d\n")
      (readProgram "a" "f(): T \x7b x = ; y = 1 \x7d") (readProgram "b" "f ()\n: @ T\n\x7b\n\tx=;\n\ty = 1\n\x7d\n") :=
  have h : (significant "a" "f(): T \x7b x = ; y = 1 \x7d").map Token.lexeme =
      (significant "b" "f ()\n: @ T\n\x7b\n\tx=;\n\ty = 1\n\x7d\n").map Token.lexeme := by decide +kernel
  ⟨h, readProgram_ignores_layout h⟩

end SemFront
