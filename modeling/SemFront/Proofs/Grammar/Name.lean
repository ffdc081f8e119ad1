/-
Reading names and IRIs: the rules for them read exactly what canonical names and absolute IRIs
spell.
-/
import SemFront.Grammar.Name
import SemFront.Proofs.Grammar.Spells
import SemFront.Proofs.Tree.Erase

namespace SemFront

/-! ## Words -/

theorem Token.literal_of_ne_string {t : Token} (h : t.kind ≠ .string) : t.literal = t.raw := if_neg h

theorem Token.WF.ident {t : Token} (ht : t.WF) (hk : t.kind = .ident) :
    t.ident.Canonical ∧ t.lexeme = .ident t.ident.name := by
  have hl : t.literal = t.raw := Token.literal_of_ne_string (by rw [hk]; exact nofun)
  obtain ⟨h1, h2⟩ := ht.valid.ident hk
  unfold Ident.Canonical Token.ident
  rw [hl]
  exact ⟨h1, h2⟩

theorem Token.WF.word {t : Token} (ht : t.WF) (hk : t.kind.isWord = true) :
    IsWord t.ident.name ∧ t.lexeme = .word t.ident.name := by
  have hl : t.literal = t.raw := Token.literal_of_ne_string (by rintro e; rw [e] at hk; cases hk)
  obtain ⟨h1, h2⟩ := ht.valid.word hk
  unfold Token.ident
  rw [hl]
  exact ⟨h1, h2⟩

theorem Token.ident_of_lexeme {t : Token} {w : String} (h : t.lexeme = .ident w) :
    t.kind = .ident ∧ t.ident.name = w := by
  have hk : t.kind = .ident := congrArg Lexeme.kind h
  exact ⟨hk, (Token.literal_of_ne_string (by rw [hk]; exact nofun)).trans (congrArg Lexeme.raw h)⟩

theorem Token.word_of_lexeme {t : Token} {w : String} (h : t.lexeme = .word w) :
    t.kind.isWord = true ∧ t.ident.name = w := by
  have hk : t.kind.isWord = true := by
    rw [← Token.lexeme_kind, h]
    exact Lexeme.word_isWord w
  refine ⟨hk, (Token.literal_of_ne_string ?_).trans (congrArg Lexeme.raw h)⟩
  rintro e
  rw [e] at hk
  cases hk

namespace Reader.WF

variable {r : Reader} {ls : List Lexeme} {c : List Token}

theorem spells_ident (hr : r.WF) (hk : r.current.kind = .ident) (h : Spells r.advance.rest ls c) :
    Spells r.rest (.ident r.current.ident.name :: ls) c := by
  have hne : r.current.kind ≠ .eof := by rw [hk]; exact nofun
  rw [← ((hr.current_wf hne).ident hk).2]
  exact hr.spells_current hne h

theorem ident_canonical (hr : r.WF) (hk : r.current.kind = .ident) : r.current.ident.Canonical :=
  ((hr.current_wf (by rw [hk]; exact nofun)).ident hk).1

end Reader.WF

namespace Rule

instance : Honest currentIdent := by unfold currentIdent; infer_instance

@[simp] theorem reads_currentIdent {r s : Reader} {i : Ident} : currentIdent.Reads r i s ↔ i = r.current.ident ∧ s = r :=
  reads_iff_of_ok rfl rfl

/-! ## Segments behind dots -/

/-- What a segment behind a dot may be: the tokens of some kinds, each spelling a segment. -/
structure Segments (segment : Rule Unit) (K : Kind → Prop) (f : String → Lexeme) (P : Ident → Prop) : Prop where
  honest : Honest segment
  reads : ∀ {r u s}, segment.Reads r u s ↔ K r.advance.current.kind ∧ s = r.advance
  notEof : ¬ K .eof
  sound : ∀ {t : Token}, t.WF → K t.kind → P t.ident ∧ t.lexeme = f t.ident.name
  complete : ∀ {t : Token} {w : String}, t.lexeme = f w → K t.kind ∧ t.ident.name = w

theorem segments_ident : Segments (expect .ident) (· = .ident) .ident Ident.Canonical where
  honest := inferInstance
  reads := by simp [Reader.peek_eq]
  notEof := nofun
  sound ht hk := ht.ident hk
  complete h := Token.ident_of_lexeme h

theorem segments_word {w : Wanted} :
    Segments (expectWord w) (·.isWord = true) .word (fun i => IsWord i.name) where
  honest := inferInstance
  reads := by simp [Reader.peek_eq]
  notEof := nofun
  sound ht hk := ht.word hk
  complete h := Token.word_of_lexeme h

variable {segment : Rule Unit} {K : Kind → Prop} {f : String → Lexeme} {P : Ident → Prop}

instance [Honest segment] {xs : Array Ident} : Honest (segmentRound segment xs) := by
  unfold segmentRound; infer_instance

theorem Segments.reads_again (h : Segments segment K f P) {xs ys : Array Ident} {r s : Reader} :
    (segmentRound segment xs).Reads r (.again ys) s ↔ r.advance.current.kind = .punct .dot ∧
      K r.advance.advance.current.kind ∧ ys = xs.push r.advance.advance.current.ident ∧ s = r.advance.advance := by
  have := h.honest
  unfold segmentRound
  simp only [reads_bind, reads_peek, exists_eq_and_eq, reads_ite, reads_advance, exists_unit_eq, h.reads,
    exists_unit_and_eq, reads_currentIdent, reads_pure, Reader.peek_eq, Round.again.injEq, reduceCtorEq, false_and]
  split <;> simp_all

theorem Segments.reads_stop (h : Segments segment K f P) {xs ys : Array Ident} {r s : Reader} :
    (segmentRound segment xs).Reads r (.stop ys) s ↔
      r.advance.current.kind ≠ .punct .dot ∧ ys = xs ∧ s = r := by
  have := h.honest
  unfold segmentRound
  simp only [reads_bind, reads_peek, exists_eq_and_eq, reads_ite, reads_advance, exists_unit_eq, h.reads,
    exists_unit_and_eq, reads_currentIdent, reads_pure, Reader.peek_eq, Round.stop.injEq, reduceCtorEq, false_and,
    and_false]
  split <;> simp_all

/-- The lexemes of segments, each behind a dot. -/
def dotted (f : String → Lexeme) (is : List Ident) : List Lexeme := is.flatMap fun i => [.punct .dot, f i.name]

theorem joined_dotted (f : String → Lexeme) (i : Ident) :
    ∀ is : List Ident, Lexeme.joined (.punct .dot) ((i :: is).map fun j => [f j.name]) = f i.name :: dotted f is
  | [] => rfl
  | j :: is => by
    have ih := joined_dotted f j is
    simp only [List.map_cons] at ih
    simp [Lexeme.joined, ih, dotted]

theorem Segments.sound_loop (h : Segments segment K f P) {xs ys : Array Ident} {r s : Reader} (hr : r.WF)
    (hl : (loop (segmentRound segment) xs).Reads r ys s) :
    ∃ is : List Ident, ys = xs ++ is.toArray ∧ (∀ i ∈ is, P i) ∧
      Spells r.advance.rest (dotted f is) s.advance.rest ∧ s.advance.current.kind ≠ .punct .dot := by
  have := h.honest
  refine Reads.of_loop hl hr.budget
    (P := fun zs m => m.WF ∧ ∃ is : List Ident, zs = xs ++ is.toArray ∧ (∀ i ∈ is, P i) ∧
      Spells r.advance.rest (dotted f is) m.advance.rest)
    (Q := fun zs m => ∃ is : List Ident, zs = xs ++ is.toArray ∧ (∀ i ∈ is, P i) ∧
      Spells r.advance.rest (dotted f is) m.advance.rest ∧ m.advance.current.kind ≠ .punct .dot)
    ⟨hr, [], by simp, by simp, spells_nil.2 rfl⟩ ?_ ?_
  · rintro zs m ws n ⟨hm, is, rfl, hP, hs⟩ ha
    obtain ⟨hd, hK, rfl, rfl⟩ := h.reads_again.1 ha
    have hne : m.advance.advance.current.kind ≠ .eof := fun e => h.notEof (e ▸ hK)
    obtain ⟨hPt, hft⟩ := h.sound (hm.advance.advance.current_wf hne) hK
    have hd' : m.advance.current.kind ≠ .eof := by rw [hd]; exact nofun
    refine ⟨⟨hm.advance.advance, is ++ [m.advance.advance.current.ident], by simp, ?_, ?_⟩, ?_⟩
    · simp only [List.mem_append, List.mem_singleton]
      rintro i (hi | rfl)
      · exact hP i hi
      · exact hPt
    · simp only [dotted, List.flatMap_append, List.flatMap_cons, List.flatMap_nil, List.append_nil]
      refine hs.append (hm.advance.spells_punct hd ?_)
      rw [← hft]
      exact hm.advance.advance.spells_current hne (spells_nil.2 rfl)
    · have h1 := hm.advance.length_advance hd'
      have h2 := (Reader.Leads.advance m).length_le
      omega
  · rintro zs m ws n ⟨hm, is, rfl, hP, hs⟩ ha
    obtain ⟨hd, rfl, rfl⟩ := h.reads_stop.1 ha
    exact ⟨is, rfl, hP, hs, hd⟩

theorem Segments.complete_loop (h : Segments segment K f P) {c : List Token} (hc : headKind c ≠ .punct .dot) :
    ∀ (is : List Ident) (xs : Array Ident) (r : Reader), r.WF → Spells r.advance.rest (dotted f is) c →
    ∃ (js : List Ident) (s : Reader), Loops (segmentRound segment) xs r (xs ++ js.toArray) s ∧
      js.map Ident.erase = is.map Ident.erase ∧ s.advance.rest = c
  | [], xs, r, hr, hs => by
    have hs' := spells_nil.1 hs
    refine ⟨[], r, .stop (h.reads_stop.2 ⟨?_, by simp, rfl⟩), rfl, hs'⟩
    rw [hr.advance.current_kind, hs']
    exact hc
  | i :: is, xs, r, hr, hs => by
    obtain ⟨h1, hs⟩ := Reader.of_spells_cons hs
    obtain ⟨h2, hs⟩ := Reader.of_spells_cons hs
    have hd : r.advance.current.kind = .punct .dot := congrArg Lexeme.kind h1
    obtain ⟨hK, hn⟩ := h.complete h2
    obtain ⟨js, s, hl, hj, hc⟩ := h.complete_loop hc is (xs.push r.advance.advance.current.ident) r.advance.advance
      hr.advance.advance hs
    refine ⟨r.advance.advance.current.ident :: js, s, .again (h.reads_again.2 ⟨hd, hK, rfl, rfl⟩) ?_ ?_, ?_, hc⟩
    · have h1 := hr.advance.length_advance (by rw [hd]; exact nofun)
      have h2 := (Reader.Leads.advance r).length_le
      omega
    · simpa using hl
    · simp [Ident.erase_eq hn, hj]

/-! ## Dotted names -/

instance : Honest dottedName := by unfold dottedName; infer_instance

theorem reads_dottedName {r s : Reader} {n : Name} : dottedName.Reads r n s ↔ r.current.kind = .ident ∧
    ∃ parts : Array Ident, (loop (segmentRound (expect .ident)) #[r.current.ident]).Reads r parts s ∧
      n = { parts := parts.toList, span := r.current.span.through s.current.span } := by
  unfold dottedName
  simp only [reads_bind, reads_current, exists_eq_and_eq, reads_ite, not_reads_refuse, reads_pure]
  constructor
  · intro h
    split at h
    · exact h.elim
    · rename_i hk
      obtain ⟨parts, m, hl, rfl, rfl⟩ := h
      exact ⟨Decidable.not_not.1 hk, parts, hl, rfl⟩
  · rintro ⟨hk, parts, hl, rfl⟩
    rw [if_neg (by simpa using hk)]
    exact ⟨parts, s, hl, rfl, rfl⟩

/-- What is read as a name spells it, and no dot follows. -/
theorem sound_dottedName {r s : Reader} {n : Name} (hr : r.WF) (h : dottedName.Reads r n s) :
    n.Canonical ∧ Spells r.rest n.lexemes s.advance.rest ∧ s.advance.current.kind ≠ .punct .dot := by
  obtain ⟨hk, parts, hl, rfl⟩ := reads_dottedName.1 h
  obtain ⟨is, rfl, hP, hs, hd⟩ := segments_ident.sound_loop hr hl
  refine ⟨⟨by simp, ?_⟩, ?_, hd⟩
  · simp only [Array.toList_append, List.cons_append, List.nil_append, List.mem_cons]
    rintro i (rfl | hi)
    · exact hr.ident_canonical hk
    · exact hP i hi
  · simp only [Name.lexemes, Array.toList_append, List.cons_append, List.nil_append, joined_dotted]
    exact hr.spells_ident hk hs

theorem complete_dottedName : dottedName.Complete Name.lexemes Name.Canonical (fun _ k => k ≠ .punct .dot) Name.erase := by
  intro r n c hr hn hs hc
  obtain ⟨parts, span⟩ := n
  cases parts with
  | nil => exact absurd rfl hn.nonempty
  | cons i is =>
    simp only [Name.lexemes, joined_dotted] at hs
    obtain ⟨h1, hs⟩ := Reader.of_spells_cons hs
    obtain ⟨hk, hi⟩ := Token.ident_of_lexeme h1
    obtain ⟨js, s, hl, hj, hcs⟩ := segments_ident.complete_loop hc is #[r.current.ident] r hr hs
    refine ⟨_, s, reads_dottedName.2 ⟨hk, _, hl.reads hr.budget, rfl⟩, ?_, hcs⟩
    simp [Name.erase, Ident.erase_eq hi, hj]

theorem chainLength_of_ne {c : List Token} (hc : headKind c ≠ .punct .dot) : chainLength c = 0 := by
  match c with
  | [] => rfl
  | [t] => rfl
  | t :: u :: c =>
    have ht : t.kind ≠ .punct .dot := hc
    simp [chainLength, ht]

theorem drop_chainLength {c : List Token} (hc : headKind c ≠ .punct .dot) :
    ∀ (is : List Ident) (b : List Token), Spells b (dotted .ident is) c → b.drop (chainLength b) = c
  | [], b, hs => by
    obtain rfl := spells_nil.1 hs
    rw [chainLength_of_ne hc, List.drop_zero]
  | i :: is, b, hs => by
    obtain ⟨t, b, rfl, ht, hs⟩ := spells_cons.1 hs
    obtain ⟨u, b, rfl, hu, hs⟩ := spells_cons.1 hs
    have ht' : t.kind = .punct .dot := congrArg Lexeme.kind ht
    have hu' : u.kind = .ident := congrArg Lexeme.kind hu
    simp only [chainLength, ht', hu', decide_true, Bool.and_self, if_true, List.drop_succ_cons]
    exact drop_chainLength hc is b hs

/-- The token behind a dotted name is found without reading the name. -/
theorem afterChain_of_spells {r : Reader} {n : Name} {c : List Token} (hr : r.WF) (hn : n.parts ≠ [])
    (hs : Spells r.rest n.lexemes c) (hc : headKind c ≠ .punct .dot) : r.afterChain.1.kind = headKind c := by
  obtain ⟨i, is, hp⟩ := List.exists_cons_of_ne_nil hn
  simp only [Name.lexemes, hp, joined_dotted] at hs
  obtain ⟨t, b, hb, -, hs⟩ := spells_cons.1 hs
  have hd := drop_chainLength hc is b hs
  unfold Reader.afterChain Reader.ahead
  dsimp only
  rw [hb, List.tail_cons, List.drop_succ_cons, hd]
  cases c with
  | nil => exact hr.eof
  | cons u c => rfl

/-! ## IRIs -/

instance : Honest iriDomain := by unfold iriDomain; infer_instance

instance {path : Array Ident × Bool} : Honest (pathRound path) := by unfold pathRound; infer_instance

instance : Honest iriPath := by unfold iriPath; infer_instance

instance : Honest iriFragment := by unfold iriFragment; infer_instance

instance {t : Token} : Honest (absoluteIri t) := by unfold absoluteIri; infer_instance

instance {t : Token} {i : Option Ident} : Honest (qName t i) := by unfold qName; infer_instance

instance : Honest opensHost := by unfold opensHost; infer_instance

instance : Honest iri := by unfold iri; infer_instance

theorem reads_iriDomain {r s : Reader} {is : List Ident} : iriDomain.Reads r is s ↔
    r.advance.current.kind.isWord = true ∧
      (loop (segmentRound (expectWord .domainSegment)) #[r.advance.current.ident]).Reads r.advance is.toArray s := by
  unfold iriDomain
  simp only [reads_bind, reads_expectWord, exists_unit_and_eq, reads_currentIdent, exists_eq_and_eq, reads_pure,
    Reader.peek_eq]
  constructor
  · rintro ⟨hk, a, m, h, rfl, rfl⟩
    exact ⟨hk, h⟩
  · rintro ⟨hk, h⟩
    exact ⟨hk, is.toArray, s, h, rfl, rfl⟩

theorem sound_iriDomain {r s : Reader} {is : List Ident} (hr : r.WF) (h : iriDomain.Reads r is s) :
    is ≠ [] ∧ (∀ i ∈ is, IsWord i.name) ∧
      Spells r.advance.rest (Lexeme.joined (.punct .dot) (is.map fun i => [.word i.name])) s.advance.rest := by
  obtain ⟨hk, hl⟩ := reads_iriDomain.1 h
  obtain ⟨js, he, hP, hs, -⟩ := (@segments_word .domainSegment).sound_loop hr.advance hl
  obtain rfl : is = r.advance.current.ident :: js := by simpa using congrArg Array.toList he
  have hne : r.advance.current.kind ≠ .eof := by
    rintro e
    rw [e] at hk
    cases hk
  obtain ⟨hw, hf⟩ := (hr.advance.current_wf hne).word hk
  refine ⟨by simp, ?_, ?_⟩
  · simp only [List.mem_cons]
    rintro i (rfl | hi)
    · exact hw
    · exact hP i hi
  · rw [joined_dotted, ← hf]
    exact hr.advance.spells_current hne hs

theorem complete_iriDomain {r : Reader} {is : List Ident} {c : List Token} (hr : r.WF) (hne : is ≠ [])
    (hs : Spells r.advance.rest (Lexeme.joined (.punct .dot) (is.map fun i => [.word i.name])) c)
    (hc : headKind c ≠ .punct .dot) :
    ∃ js s, iriDomain.Reads r js s ∧ js.map Ident.erase = is.map Ident.erase ∧ s.advance.rest = c := by
  obtain ⟨i, is, rfl⟩ := List.exists_cons_of_ne_nil hne
  rw [joined_dotted] at hs
  obtain ⟨h1, hs⟩ := Reader.of_spells_cons hs
  obtain ⟨hk, hi⟩ := Token.word_of_lexeme h1
  obtain ⟨js, s, hl, hj, hcs⟩ := (@segments_word .domainSegment).complete_loop hc is #[r.advance.current.ident]
    r.advance hr.advance hs
  refine ⟨r.advance.current.ident :: js, s, reads_iriDomain.2 ⟨hk, ?_⟩, by simp [Ident.erase_eq hi, hj], hcs⟩
  simpa using hl.reads hr.advance.budget

theorem reads_pathRound_again {xs ys : Array Ident × Bool} {r s : Reader} :
    (pathRound xs).Reads r (.again ys) s ↔ r.advance.current.kind = .punct .slash ∧
      r.advance.advance.current.kind.isWord = true ∧ ys = (xs.1.push r.advance.advance.current.ident, xs.2) ∧
      s = r.advance.advance := by
  unfold pathRound
  simp only [reads_bind, reads_peek, exists_eq_and_eq, reads_ite, reads_advance, exists_unit_eq, reads_currentIdent,
    reads_pure, Reader.peek_eq, Round.again.injEq, reduceCtorEq, false_and]
  split
  · split <;> simp_all
  · simp_all

theorem reads_pathRound_stop {xs ys : Array Ident × Bool} {r s : Reader} :
    (pathRound xs).Reads r (.stop ys) s ↔
      (r.advance.current.kind = .punct .slash ∧ r.advance.advance.current.kind.isWord = false ∧
        ys = (xs.1, true) ∧ s = r.advance) ∨
      (r.advance.current.kind ≠ .punct .slash ∧ ys = xs ∧ s = r) := by
  unfold pathRound
  simp only [reads_bind, reads_peek, exists_eq_and_eq, reads_ite, reads_advance, exists_unit_eq, reads_currentIdent,
    reads_pure, Reader.peek_eq, Round.stop.injEq, reduceCtorEq, false_and]
  split
  · split <;> simp_all
  · simp_all

theorem reads_iriPath {r s : Reader} {path : List Ident × Bool} : iriPath.Reads r path s ↔
    (loop pathRound (#[], false)).Reads r (path.1.toArray, path.2) s := by
  unfold iriPath
  simp only [reads_bind, reads_pure]
  constructor
  · rintro ⟨p, m, h, rfl, rfl⟩
    exact h
  · intro h
    exact ⟨_, _, h, rfl, rfl⟩

/-- The lexemes of a path: segments behind slashes and perhaps one more slash. -/
def pathLexemes (path : List Ident × Bool) : List Lexeme :=
  path.1.flatMap (fun i => [.punct .slash, .word i.name]) ++ if path.2 then [.punct .slash] else []

theorem sound_iriPath {r s : Reader} {path : List Ident × Bool} (hr : r.WF) (h : iriPath.Reads r path s) :
    (∀ i ∈ path.1, IsWord i.name) ∧ Spells r.advance.rest (pathLexemes path) s.advance.rest := by
  refine Reads.of_loop (reads_iriPath.1 h) hr.budget
    (P := fun xs m => m.WF ∧ xs.2 = false ∧ (∀ i ∈ xs.1.toList, IsWord i.name) ∧
      Spells r.advance.rest (pathLexemes (xs.1.toList, false)) m.advance.rest)
    (Q := fun xs m => (∀ i ∈ xs.1.toList, IsWord i.name) ∧
      Spells r.advance.rest (pathLexemes (xs.1.toList, xs.2)) m.advance.rest)
    ⟨hr, rfl, by simp, spells_nil.2 rfl⟩ ?_ ?_
  · rintro xs m ys n ⟨hm, h2, hP, hs⟩ ha
    obtain ⟨hk, hw, rfl, rfl⟩ := reads_pathRound_again.1 ha
    have hne : m.advance.advance.current.kind ≠ .eof := by
      rintro e
      rw [e] at hw
      cases hw
    obtain ⟨hW, hf⟩ := (hm.advance.advance.current_wf hne).word hw
    refine ⟨⟨hm.advance.advance, h2, ?_, ?_⟩, ?_⟩
    · simp only [Array.toList_push, List.mem_append, List.mem_singleton]
      rintro i (hi | rfl)
      · exact hP i hi
      · exact hW
    · simp only [pathLexemes, Array.toList_push, List.flatMap_append, List.flatMap_cons, List.flatMap_nil,
        List.append_nil, Bool.false_eq_true, if_false] at hs ⊢
      refine hs.append (hm.advance.spells_punct hk ?_)
      rw [← hf]
      exact hm.advance.advance.spells_current hne (spells_nil.2 rfl)
    · have h1 := hm.advance.length_advance (by rw [hk]; exact nofun)
      have h2 := (Reader.Leads.advance m).length_le
      omega
  · rintro xs m ys n ⟨hm, h2, hP, hs⟩ ha
    rcases reads_pathRound_stop.1 ha with ⟨hk, -, rfl, rfl⟩ | ⟨-, rfl, rfl⟩
    · refine ⟨hP, ?_⟩
      simp only [pathLexemes, Bool.false_eq_true, if_false, List.append_nil, if_true] at hs ⊢
      exact hs.append (hm.advance.spells_punct hk (spells_nil.2 rfl))
    · rw [h2]
      exact ⟨hP, hs⟩

/-- A path in front of a token that is no word and no slash is read to its end. -/
theorem complete_iriPath {c : List Token} {slash : Bool} (hw : (headKind c).isWord = false)
    (hsl : headKind c ≠ .punct .slash) :
    ∀ (is : List Ident) (xs : Array Ident) (r : Reader), r.WF → Spells r.advance.rest (pathLexemes (is, slash)) c →
    ∃ (js : List Ident) (s : Reader), Loops pathRound (xs, false) r (xs ++ js.toArray, slash) s ∧
      js.map Ident.erase = is.map Ident.erase ∧ s.advance.rest = c
  | [], xs, r, hr, hs => by
    cases slash with
    | false =>
      have hs' := spells_nil.1 hs
      refine ⟨[], r, .stop (reads_pathRound_stop.2 (.inr ⟨?_, by simp, rfl⟩)), rfl, hs'⟩
      rw [hr.advance.current_kind, hs']
      exact hsl
    | true =>
      obtain ⟨h1, hs⟩ := Reader.of_spells_cons hs
      have hs' := spells_nil.1 hs
      refine ⟨[], r.advance, .stop (reads_pathRound_stop.2 (.inl ⟨congrArg Lexeme.kind h1, ?_, by simp, rfl⟩)),
        rfl, hs'⟩
      rw [hr.advance.advance.current_kind, hs']
      exact hw
  | i :: is, xs, r, hr, hs => by
    obtain ⟨h1, hs⟩ := Reader.of_spells_cons hs
    obtain ⟨h2, hs⟩ := Reader.of_spells_cons hs
    have hk : r.advance.current.kind = .punct .slash := congrArg Lexeme.kind h1
    obtain ⟨hK, hn⟩ := Token.word_of_lexeme h2
    obtain ⟨js, s, hl, hj, hc⟩ := complete_iriPath hw hsl is (xs.push r.advance.advance.current.ident)
      r.advance.advance hr.advance.advance hs
    refine ⟨r.advance.advance.current.ident :: js, s,
      .again (reads_pathRound_again.2 ⟨hk, hK, rfl, rfl⟩) ?_ ?_, by simp [Ident.erase_eq hn, hj], hc⟩
    · have h1 := hr.advance.length_advance (by rw [hk]; exact nofun)
      have h2 := (Reader.Leads.advance r).length_le
      omega
    · simpa using hl

theorem reads_iriFragment {r s : Reader} {f : Option Ident} : iriFragment.Reads r f s ↔
    (r.advance.current.kind = .punct .hash ∧ r.advance.advance.current.kind.isWord = true ∧
      f = some r.advance.advance.current.ident ∧ s = r.advance.advance) ∨
    (r.advance.current.kind = .punct .hash ∧ r.advance.advance.current.kind.isWord = false ∧
      (∃ sp, f = some { name := "", span := sp } ∧ sp = { r.advance.current.span with
        start := r.advance.current.span.stop, column := r.advance.current.span.column + 1 }) ∧ s = r.advance) ∨
    (r.advance.current.kind ≠ .punct .hash ∧ f = none ∧ s = r) := by
  unfold iriFragment
  simp only [reads_bind, reads_peek, exists_eq_and_eq, reads_ite, reads_advance, exists_unit_eq, reads_currentIdent,
    reads_current, reads_pure, Reader.peek_eq]
  split
  · split <;> simp_all
  · simp_all

theorem sound_iriFragment {r s : Reader} {f : Option Ident} (hr : r.WF) (h : iriFragment.Reads r f s) :
    fragmentCanonical f ∧ Spells r.advance.rest (fragmentLexemes f) s.advance.rest := by
  rcases reads_iriFragment.1 h with ⟨hk, hw, rfl, rfl⟩ | ⟨hk, -, ⟨sp, rfl, -⟩, rfl⟩ | ⟨-, rfl, rfl⟩
  · have hne : r.advance.advance.current.kind ≠ .eof := by
      rintro e
      rw [e] at hw
      cases hw
    obtain ⟨hW, hf⟩ := (hr.advance.advance.current_wf hne).word hw
    have hn : r.advance.advance.current.ident.name ≠ "" := by
      obtain ⟨c, cs, hc, -⟩ := hW
      rintro e
      rw [e] at hc
      cases hc
    refine ⟨.inr hW, ?_⟩
    rw [fragmentLexemes, if_neg hn, ← hf]
    exact hr.advance.spells_punct hk (hr.advance.advance.spells_current hne (spells_nil.2 rfl))
  · exact ⟨.inl rfl, hr.advance.spells_punct hk (spells_nil.2 rfl)⟩
  · exact ⟨trivial, spells_nil.2 rfl⟩

/-- What no IRI goes on with. -/
structure EndsIri (k : Kind) : Prop where
  noWord : k.isWord = false
  noDot : k ≠ .punct .dot
  noSlash : k ≠ .punct .slash
  noHash : k ≠ .punct .hash

theorem endsIri_semicolon : EndsIri (.punct .semicolon) := ⟨rfl, by simp, by simp, by simp⟩

theorem endsIri_eof : EndsIri .eof := ⟨rfl, by simp, by simp, by simp⟩

theorem complete_iriFragment {r : Reader} {f : Option Ident} {c : List Token} (hr : r.WF) (hf : fragmentCanonical f)
    (hs : Spells r.advance.rest (fragmentLexemes f) c) (hc : EndsIri (headKind c)) :
    ∃ g s, iriFragment.Reads r g s ∧ g.map Ident.erase = f.map Ident.erase ∧ s.advance.rest = c := by
  cases f with
  | none =>
    have hs' := spells_nil.1 hs
    refine ⟨none, r, reads_iriFragment.2 (.inr (.inr ⟨?_, rfl, rfl⟩)), rfl, hs'⟩
    rw [hr.advance.current_kind, hs']
    exact hc.noHash
  | some i =>
    obtain ⟨h1, hs⟩ := Reader.of_spells_cons hs
    have hk : r.advance.current.kind = .punct .hash := congrArg Lexeme.kind h1
    by_cases hn : i.name = ""
    · rw [if_pos hn] at hs
      have hs' := spells_nil.1 hs
      refine ⟨_, r.advance, reads_iriFragment.2 (.inr (.inl ⟨hk, ?_, ⟨_, rfl, rfl⟩, rfl⟩)), ?_, hs'⟩
      · rw [hr.advance.advance.current_kind, hs']
        exact hc.noWord
      · exact congrArg some (Ident.erase_eq hn.symm)
    · rw [if_neg hn] at hs
      obtain ⟨h2, hs⟩ := Reader.of_spells_cons hs
      obtain ⟨hw, hi⟩ := Token.word_of_lexeme h2
      exact ⟨_, _, reads_iriFragment.2 (.inl ⟨hk, hw, rfl, rfl⟩), congrArg some (Ident.erase_eq hi), spells_nil.1 hs⟩

theorem reads_absoluteIri {t : Token} {r s : Reader} {a : AbsoluteIri} : (absoluteIri t).Reads r a s ↔
    ∃ is m path n f, iriDomain.Reads r.advance.advance is m ∧ iriPath.Reads m path n ∧ iriFragment.Reads n f s ∧
      a = { scheme := some t.ident, domain := is, path := path.1, trailingSlash := path.2, fragment := f
            span := t.span.through s.current.span } := by
  unfold absoluteIri
  simp only [reads_bind, reads_advance, exists_unit_eq, reads_current, exists_eq_and_eq, reads_pure]
  constructor
  · rintro ⟨is, m, hd, path, n, hp, f, q, hf, rfl, rfl⟩
    exact ⟨is, m, path, n, f, hd, hp, hf, rfl⟩
  · rintro ⟨is, m, path, n, f, hd, hp, hf, rfl⟩
    exact ⟨is, m, hd, path, n, hp, f, s, hf, rfl, rfl⟩

theorem looks_opensHost : opensHost.Looks fun r => decide (r.advance.current.kind = .punct .slash ∧
    r.advance.advance.current.kind = .punct .slash) := by
  intro r
  unfold opensHost
  simp only [reads_bind, reads_peek, exists_eq_and_eq, reads_ite, reads_ahead, reads_pure, Reader.peek_eq,
    Reader.ahead_succ, Reader.ahead_zero]
  by_cases h : r.advance.current.kind = .punct .slash
  · exact ⟨r.look 1, by simp [h], .look r 1⟩
  · exact ⟨r, by simp [h], .refl r⟩

theorem reads_iri_absolute {r s : Reader} {a : AbsoluteIri} : iri.Reads r (.absolute a) s ↔
    r.current.kind.isWord = true ∧ r.advance.current.kind = .punct .colon ∧
      ∃ m, opensHost.Reads r.advance true m ∧ (absoluteIri r.current).Reads m a s := by
  unfold iri
  simp only [reads_bind, exists_eq_and_eq, reads_ite, reads_current, reads_expect, exists_unit_and_eq,
    not_reads_refuse, reads_pure, Reader.peek_eq, Iri.absolute.injEq, reduceCtorEq, false_and, and_false, exists_false]
  constructor
  · intro h
    split at h
    · exact h.elim
    · split at h
      · rename_i hw
        obtain ⟨hc, b, m, hb, h⟩ := h
        cases b with
        | false => simp at h
        | true =>
          obtain ⟨b, n, h, rfl, rfl⟩ := h
          exact ⟨hw, hc, m, hb, h⟩
      · exact h.elim
  · rintro ⟨hw, hc, m, hb, h⟩
    rw [if_neg (by rintro e; rw [e] at hw; cases hw), if_pos hw]
    exact ⟨hc, true, m, hb, a, s, h, rfl, rfl⟩

theorem absoluteIri_lexemes {i : Ident} {is ps : List Ident} {slash : Bool} {f : Option Ident} {sp : Span} :
    AbsoluteIri.lexemes ⟨some i, is, ps, slash, f, sp⟩ =
      .word i.name :: .punct .colon :: .punct .slash :: .punct .slash ::
        (Lexeme.joined (.punct .dot) (is.map fun i => [.word i.name]) ++
          (pathLexemes (ps, slash) ++ fragmentLexemes f)) := by
  simp only [AbsoluteIri.lexemes, pathLexemes, List.append_assoc, List.cons_append, List.nil_append]

theorem sound_iri {r s : Reader} {a : AbsoluteIri} (hr : r.WF) (h : iri.Reads r (.absolute a) s) :
    a.Canonical ∧ Spells r.rest a.lexemes s.advance.rest := by
  obtain ⟨hw, hc, m, hb, ha⟩ := reads_iri_absolute.1 h
  obtain ⟨hh, hm⟩ := looks_opensHost.eq hb
  obtain ⟨h1, h2⟩ := of_decide_eq_true hh.symm
  obtain ⟨is, n, path, q, f, hd, hp, hf, rfl⟩ := reads_absoluteIri.1 ha
  have hne : r.current.kind ≠ .eof := by
    rintro e
    rw [e] at hw
    cases hw
  obtain ⟨hW, hl⟩ := (hr.current_wf hne).word hw
  have hmw := hb.leads.wf hr.advance
  obtain ⟨hne', hdP, hds⟩ := sound_iriDomain hmw.advance.advance hd
  have hnw := hd.leads.wf hmw.advance.advance
  obtain ⟨hpP, hps⟩ := sound_iriPath hnw hp
  obtain ⟨hfP, hfs⟩ := sound_iriFragment (hp.leads.wf hnw) hf
  refine ⟨⟨⟨_, rfl, hW⟩, hne', hdP, hpP, hfP⟩, ?_⟩
  rw [absoluteIri_lexemes, ← hl]
  refine hr.spells_current hne (hr.advance.spells_punct hc (hr.advance.advance.spells_punct h1
    (hr.advance.advance.advance.spells_punct h2 ?_)))
  rw [← hm.advance.advance.advance.rest]
  exact hds.append (hps.append hfs)

theorem headKind_path {path : List Ident × Bool} {b c : List Token} (h : Spells b (pathLexemes path) c) :
    headKind b = headKind c ∨ headKind b = .punct .slash := by
  obtain ⟨is, slash⟩ := path
  cases is with
  | nil =>
    cases slash with
    | false => exact .inl (congrArg headKind (spells_nil.1 h))
    | true => exact .inr h.headKind
  | cons i is => exact .inr h.headKind

theorem headKind_fragment {f : Option Ident} {b c : List Token} (h : Spells b (fragmentLexemes f) c) :
    headKind b = headKind c ∨ headKind b = .punct .hash := by
  cases f with
  | none => exact .inl (congrArg headKind (spells_nil.1 h))
  | some i => exact .inr h.headKind

theorem complete_iri {r : Reader} {a : AbsoluteIri} {c : List Token} (hr : r.WF) (ha : a.Canonical)
    (hs : Spells r.rest a.lexemes c) (hc : EndsIri (headKind c)) :
    ∃ b s, iri.Reads r (.absolute b) s ∧ b.erase = a.erase ∧ s.advance.rest = c := by
  obtain ⟨⟨i, hi, -⟩, hne, -, -, hf⟩ := ha
  obtain ⟨scheme, is, ps, slash, f, sp⟩ := a
  subst hi
  rw [absoluteIri_lexemes] at hs
  obtain ⟨l1, hs⟩ := Reader.of_spells_cons hs
  obtain ⟨l2, hs⟩ := Reader.of_spells_cons hs
  obtain ⟨l3, hs⟩ := Reader.of_spells_cons hs
  obtain ⟨l4, hs⟩ := Reader.of_spells_cons hs
  obtain ⟨hw, hn⟩ := Token.word_of_lexeme l1
  obtain ⟨m, hm, hlk⟩ := looks_opensHost.reads (r := r.advance)
    (decide_eq_true ⟨congrArg Lexeme.kind l3, congrArg Lexeme.kind l4⟩)
  have hmw := hm.leads.wf hr.advance
  obtain ⟨b, hb, hs⟩ := spells_append.1 hs
  obtain ⟨d, hd, hs⟩ := spells_append.1 hs
  -- behind the path stands a fragment or the end, before it a slash as well
  have hdk : (headKind d).isWord = false ∧ headKind d ≠ .punct .dot ∧ headKind d ≠ .punct .slash := by
    rcases headKind_fragment hs with e | e
    · rw [e]
      exact ⟨hc.noWord, hc.noDot, hc.noSlash⟩
    · rw [e]
      exact ⟨rfl, by simp, by simp⟩
  have hbk : headKind b ≠ .punct .dot := by
    rcases headKind_path hd with e | e
    · rw [e]
      exact hdk.2.1
    · rw [e]
      exact nofun
  rw [← hlk.advance.advance.advance.rest] at hb
  obtain ⟨is', n, hn1, he1, hn2⟩ := complete_iriDomain hmw.advance.advance hne hb hbk
  have hnw := hn1.leads.wf hmw.advance.advance
  rw [← hn2] at hd
  obtain ⟨ps', q, hq1, he2, hq2⟩ := complete_iriPath hdk.1 hdk.2.2 ps #[] n hnw hd
  have hq3 : iriPath.Reads n (ps', slash) q := reads_iriPath.2 (by simpa using hq1.reads hnw.budget)
  rw [← hq2] at hs
  obtain ⟨f', s, hf1, he3, hf2⟩ := complete_iriFragment (hq3.leads.wf hnw) hf hs hc
  refine ⟨_, s, reads_iri_absolute.2 ⟨hw, congrArg Lexeme.kind l2, m, hm,
    reads_absoluteIri.2 ⟨is', n, (ps', slash), q, f', hn1, hq3, hf1, rfl⟩⟩, ?_, hf2⟩
  simp [AbsoluteIri.erase, Ident.erase_eq hn, he1, he2, he3]

end Rule
end SemFront
