/-
Round trips of IRIs. The text of a canonical IRI, qualified or absolute, is read as that IRI up to
spans, and an IRI that was read without diagnostics is canonical and written with the tokens of its
source. An IRI is written without blanks, so its lexemes only keep apart by their kinds.
-/
import SemFront.Proofs.RoundTrip

namespace SemFront

/-! ## Canonical IRIs -/

/-- The parts of a canonical qualified name are words, reserved ones included. Its scope may be missing. -/
structure QName.Canonical (q : QName) : Prop where
  scope : ∀ i ∈ q.scope, IsWord i.name
  fragment : ∃ i, q.fragment = some i ∧ IsWord i.name

def Iri.Canonical : Iri → Prop
  | .qualified q => q.Canonical
  | .absolute a => a.Canonical

def QName.erase (q : QName) : QName := { scope := q.scope.map Ident.erase, fragment := q.fragment.map Ident.erase }

def Iri.erase : Iri → Iri
  | .qualified q => .qualified q.erase
  | .absolute a => .absolute a.erase

/-! ## Their texts -/

def QName.lexemes (q : QName) : List Lexeme :=
  (match q.scope with | some i => [Lexeme.word i.name] | none => []) ++
    Lexeme.punct .colon :: (match q.fragment with | some i => [Lexeme.word i.name] | none => holeLexemes)

def Iri.lexemes : Iri → List Lexeme
  | .qualified q => q.lexemes
  | .absolute a => a.lexemes

theorem QName.Canonical.scans {q : QName} (hq : q.Canonical) : Scans q.text.toList q.lexemes := by
  obtain ⟨hscope, i, hi, hic⟩ := hq
  obtain ⟨scope, fragment, span⟩ := q
  subst hi
  have hfragment : Scans i.name.toList [.word i.name] := by
    simpa using Scans.word hic (Kind.ends_nil _) .nil
  have hcolon : Scans (':' :: i.name.toList) [.punct .colon, .word i.name] := .single rfl (fun _ _ => rfl) hfragment
  simp only [QName.text, QName.lexemes, Ident.text?, String.toList_append, String.reduceToList, List.append_assoc,
    List.cons_append, List.nil_append]
  cases scope with
  | none => exact hcolon
  | some j => exact Scans.word (hscope j rfl) (.of_head rfl) hcolon

theorem Iri.Canonical.scans {i : Iri} (hi : i.Canonical) : Scans i.text.toList i.lexemes := by
  cases i with
  | qualified q => exact QName.Canonical.scans hi
  | absolute a => simpa [Iri.text, Iri.lexemes] using AbsoluteIri.Canonical.scans hi (Kind.ends_nil _) .nil

namespace Rule

variable {r s : Reader} {c : List Token}

/-! ## Reading qualified names -/

theorem reads_qName {t : Token} {scope : Option Ident} {q : QName} : (qName t scope).Reads r q s ↔
    r.advance.current.kind.isWord = true ∧ s = r.advance ∧
      q = { scope, fragment := some s.current.ident, span := t.span.through s.current.span } := by
  unfold qName
  simp only [reads_bind, reads_expectWord, exists_unit_and_eq, reads_current, exists_eq_and_eq, reads_pure,
    Reader.peek_eq]
  constructor
  · rintro ⟨hw, rfl, rfl⟩
    exact ⟨hw, rfl, rfl⟩
  · rintro ⟨hw, rfl, rfl⟩
    exact ⟨hw, rfl, rfl⟩

/-- A qualified name starts with its colon, or with a scope that no host follows. -/
theorem reads_iri_qualified {q : QName} : iri.Reads r (.qualified q) s ↔
    (r.current.kind = .punct .colon ∧ (qName r.current none).Reads r q s) ∨
    (r.current.kind.isWord = true ∧ r.advance.current.kind = .punct .colon ∧
      ∃ m, opensHost.Reads r.advance false m ∧ (qName r.current (some r.current.ident)).Reads m q s) := by
  unfold iri
  simp only [reads_bind, exists_eq_and_eq, reads_ite, reads_current, reads_expect, exists_unit_and_eq,
    not_reads_refuse, reads_pure, Reader.peek_eq, Iri.qualified.injEq, reduceCtorEq, false_and, and_false, exists_false]
  constructor
  · intro h
    split at h
    · rename_i hc
      obtain ⟨q, m, hq, rfl, rfl⟩ := h
      exact .inl ⟨hc, hq⟩
    · split at h
      · rename_i hw
        obtain ⟨hc, host, m, hhost, h⟩ := h
        cases host with
        | true => simp at h
        | false =>
          obtain ⟨q, n, hq, rfl, rfl⟩ := h
          exact .inr ⟨hw, hc, m, hhost, hq⟩
      · exact h.elim
  · rintro (⟨hc, hq⟩ | ⟨hw, hc, m, hhost, hq⟩)
    · rw [if_pos hc]
      exact ⟨q, s, hq, rfl, rfl⟩
    · rw [if_neg (by rintro e; rw [e] at hw; cases hw), if_pos hw]
      exact ⟨hc, false, m, hhost, q, s, hq, rfl, rfl⟩

/-- The word behind the colon, and the lexeme that it is. -/
theorem sound_qName {t : Token} {scope : Option Ident} {q : QName} (hr : r.WF) (h : (qName t scope).Reads r q s) :
    q.scope = scope ∧
      ∃ i, q.fragment = some i ∧ IsWord i.name ∧ Spells r.advance.rest [.word i.name] s.advance.rest := by
  obtain ⟨hw, rfl, rfl⟩ := reads_qName.1 h
  have hne : r.advance.current.kind ≠ .eof := by
    intro e
    rw [e] at hw
    cases hw
  obtain ⟨hW, hl⟩ := (hr.advance.current_wf hne).word hw
  refine ⟨rfl, _, rfl, hW, ?_⟩
  rw [← hl]
  exact hr.advance.spells_current hne (spells_nil.2 rfl)

theorem sound_iri_qualified {q : QName} (hr : r.WF) (h : iri.Reads r (.qualified q) s) :
    q.Canonical ∧ Spells r.rest q.lexemes s.advance.rest := by
  rcases reads_iri_qualified.1 h with ⟨hc, hq⟩ | ⟨hw, hc, m, hhost, hq⟩
  · obtain ⟨hscope, i, hi, hW, hs⟩ := sound_qName hr hq
    refine ⟨⟨by simp [hscope], i, hi, hW⟩, ?_⟩
    simp only [QName.lexemes, hscope, hi, List.nil_append]
    exact hr.spells_punct hc hs
  · -- looking for a host leaves the reader on the colon
    have hlook := (looks_opensHost.eq hhost).2
    obtain ⟨hscope, i, hi, hW, hs⟩ := sound_qName (hhost.leads.wf hr.advance) hq
    have hne : r.current.kind ≠ .eof := by
      intro e
      rw [e] at hw
      cases hw
    obtain ⟨hW', hl⟩ := (hr.current_wf hne).word hw
    refine ⟨⟨by simpa [hscope] using hW', i, hi, hW⟩, ?_⟩
    simp only [QName.lexemes, hscope, hi, List.cons_append, List.nil_append, ← hl]
    rw [hlook.advance.rest] at hs
    exact hr.spells_current hne (hr.advance.spells_punct hc hs)

theorem complete_iri_qualified {q : QName} (hq : q.Canonical) (hs : Spells r.rest q.lexemes c) :
    ∃ p s, iri.Reads r (.qualified p) s ∧ p.erase = q.erase ∧ s.advance.rest = c := by
  obtain ⟨-, i, hi, -⟩ := hq
  obtain ⟨scope, fragment, span⟩ := q
  subst hi
  cases scope with
  | none =>
    obtain ⟨hcolon, hs⟩ := Reader.of_spells_cons hs
    obtain ⟨hword, hs⟩ := Reader.of_spells_cons hs
    obtain ⟨hw, hn⟩ := Token.word_of_lexeme hword
    refine ⟨_, _, reads_iri_qualified.2 (.inl ⟨congrArg Lexeme.kind hcolon, reads_qName.2 ⟨hw, rfl, rfl⟩⟩), ?_,
      spells_nil.1 hs⟩
    simp [QName.erase, Ident.erase_eq hn]
  | some j =>
    obtain ⟨hfirst, hs⟩ := Reader.of_spells_cons hs
    obtain ⟨hcolon, hs⟩ := Reader.of_spells_cons hs
    obtain ⟨hword, hs⟩ := Reader.of_spells_cons hs
    obtain ⟨hw, hn⟩ := Token.word_of_lexeme hfirst
    obtain ⟨hw', hn'⟩ := Token.word_of_lexeme hword
    -- behind the colon stands a word, which is no slash
    have hhost : r.advance.advance.current.kind ≠ .punct .slash := by
      intro e
      rw [e] at hw'
      cases hw'
    obtain ⟨m, hm, hlook⟩ := looks_opensHost.reads (r := r.advance) (a := false) (by simp [hhost])
    have hcur : m.advance.current = r.advance.advance.current := hlook.advance.current
    refine ⟨_, _, reads_iri_qualified.2 (.inr ⟨hw, congrArg Lexeme.kind hcolon, m, hm,
      reads_qName.2 ⟨by rw [hcur]; exact hw', rfl, rfl⟩⟩), ?_, ?_⟩
    · simp [QName.erase, hcur, Ident.erase_eq hn, Ident.erase_eq hn']
    · rw [hlook.advance.advance.rest]
      exact spells_nil.1 hs

/-! ## Reading IRIs -/

theorem sound_iris {i : Iri} (hr : r.WF) (h : iri.Reads r i s) :
    i.Canonical ∧ Spells r.rest i.lexemes s.advance.rest := by
  cases i with
  | qualified q => exact sound_iri_qualified hr h
  | absolute a => exact sound_iri hr h

theorem complete_iris {i : Iri} (hr : r.WF) (hi : i.Canonical) (hs : Spells r.rest i.lexemes c)
    (hc : EndsIri (headKind c)) : ∃ j s, iri.Reads r j s ∧ j.erase = i.erase ∧ s.advance.rest = c := by
  cases i with
  | qualified q =>
    obtain ⟨p, s, hread, herase, hrest⟩ := complete_iri_qualified hi hs
    exact ⟨.qualified p, s, hread, congrArg Iri.qualified herase, hrest⟩
  | absolute a =>
    obtain ⟨b, s, hread, herase, hrest⟩ := complete_iri hr hi hs hc
    exact ⟨.absolute b, s, hread, congrArg Iri.absolute herase, hrest⟩

theorem reads_wholeIri {o : Option Iri} : wholeIri.Reads r o s ↔
    ∃ i, o = some i ∧ iri.Reads r i s ∧ s.advance.current.kind = .eof := by
  unfold wholeIri
  rw [@reads_attempt_bind _ _ _ _ _ _ _ _ (by rintro (_ | _) <;> infer_instance)]
  simp only [reads_bind, reads_expectEnd, exists_unit_and_eq, reads_pure]
  constructor
  · rintro ⟨i, m, hi, hk, rfl, rfl⟩
    exact ⟨i, rfl, hi, hk⟩
  · rintro ⟨i, rfl, hi, hk⟩
    exact ⟨i, s, hi, hk, rfl, rfl⟩

end Rule

/-! ## Round trips -/

/-- The text of a canonical IRI is read as that IRI up to spans. -/
theorem Iri.Canonical.read_text {i : Iri} (hi : i.Canonical) (file : String) (limit : Nat) :
    (readIri file i.text limit).diagnostics = [] ∧ (readIri file i.text limit).value.map Iri.erase = some i.erase := by
  refine (Rule.clean_of_reads (Q := fun o : Option Iri => o.map Iri.erase = some i.erase) hi.scans
    fun r hr hs => ?_).symm
  obtain ⟨j, s, hread, herase, hrest⟩ := Rule.complete_iris hr hi hs Rule.endsIri_eof
  refine ⟨some j, s, Rule.reads_wholeIri.2 ⟨j, rfl, hread, ?_⟩, congrArg some herase⟩
  rw [(hread.leads.wf hr).advance.current_kind, hrest]
  rfl

/-- What is read without diagnostics is a canonical IRI, and its text has the tokens of the source. -/
theorem canonical_of_clean_iri {file src : String} {limit : Nat} (h : (readIri file src limit).diagnostics = []) :
    ∃ i, (readIri file src limit).value = some i ∧ i.Canonical ∧
      ∀ file', (tokenize file' i.text).map Token.lexeme = (tokenize file src).map Token.lexeme := by
  have hend : ∀ {r s : Reader} {o : Option Iri}, r.WF → Rule.wholeIri.Reads r o s → s.advance.rest = [] := by
    intro r s o hr h
    obtain ⟨i, -, hi, hk⟩ := Rule.reads_wholeIri.1 h
    exact (hi.leads.wf hr).advance.rest_eq_nil hk
  obtain ⟨r, s, e, htok, he, hr, hread⟩ := Rule.reads_of_clean (fun r o s hr h => by
    have hlen : s.rest.length - 1 = 0 := List.length_tail ▸ congrArg List.length (hend hr h)
    omega) h
  obtain ⟨i, hvalue, hi, -⟩ := Rule.reads_wholeIri.1 hread
  obtain ⟨hcan, us, hus, hlex⟩ := Rule.sound_iris hr hi
  rw [hend hr hread, List.append_nil] at hus
  refine ⟨i, hvalue, hcan, fun file' => ?_⟩
  rw [lexemes_tokenize hcan.scans, htok, hus, List.map_append, hlex, List.map_singleton, he]

/-- Exactly the canonical IRIs are read without diagnostics: each is read from its text, up to spans, and
whatever is read is one whose text has the tokens of the source. -/
theorem readIri_iff_canonical :
    (∀ i : Iri, i.Canonical → ∀ file limit,
      (readIri file i.text limit).diagnostics = [] ∧ (readIri file i.text limit).value.map Iri.erase = some i.erase) ∧
    ∀ file src limit, (readIri file src limit).diagnostics = [] →
      ∃ i, (readIri file src limit).value = some i ∧ i.Canonical ∧
        ∀ file', (tokenize file' i.text).map Token.lexeme = (tokenize file src).map Token.lexeme :=
  ⟨fun _ hi file limit => hi.read_text file limit, fun _ _ _ h => canonical_of_clean_iri h⟩

/-- An IRI whose segments are reserved words, with a slash at its end and an empty fragment. -/
def reservedIri : { i : Iri // i.Canonical } where
  val := .absolute { scheme := some { name := "use" }, domain := [{ name := "class" }, { name := "new" }],
                     path := [{ name := "list" }], trailingSlash := true, fragment := some {} }
  property :=
    ⟨⟨_, rfl, by decide +kernel⟩, by simp, by simpa using by decide +kernel, by simpa using by decide +kernel, .inl rfl⟩

theorem readIri_iff_canonical_reserved : reservedIri.val.Canonical ∧
    (readIri "a.sem" reservedIri.val.text).diagnostics = [] ∧
    (readIri "a.sem" reservedIri.val.text).value.map Iri.erase = some reservedIri.val.erase ∧
    (readIri "a.sem" " as : true").diagnostics = [] ∧
    ∃ i, (readIri "a.sem" " as : true").value = some i ∧ i.Canonical ∧
      (tokenize "b.sem" i.text).map Token.lexeme = (tokenize "a.sem" " as : true").map Token.lexeme := by
  have hclean : (readIri "a.sem" " as : true").diagnostics = [] := List.isEmpty_iff.1 (by decide +kernel)
  obtain ⟨hread, herase⟩ := readIri_iff_canonical.1 reservedIri.val reservedIri.property "a.sem" 0
  obtain ⟨i, hi, hcan, htok⟩ := readIri_iff_canonical.2 "a.sem" " as : true" 0 hclean
  exact ⟨reservedIri.property, hread, herase, hclean, i, hi, hcan, htok "b.sem"⟩

end SemFront
