/-
Reading a whole source. The tokens of a source make a well-formed reader, a reading without
diagnostics comes from a rule that reads all the tokens without reports, and there was no text among
them that is no token.
-/
import SemFront.Grammar.Reading
import SemFront.Proofs.Grammar.Expr

namespace SemFront

/-! ## Diagnostics -/

theorem insertBy_ne_nil (less : α → α → Bool) (x : α) (xs : List α) : insertBy less x xs ≠ [] := by
  unfold insertBy
  split
  · simp
  · split <;> simp

theorem stableSort_eq_nil {less : α → α → Bool} {xs : List α} : stableSort less xs = [] ↔ xs = [] := by
  cases xs with
  | nil => simp [stableSort]
  | cons x xs => simp [stableSort, insertBy_ne_nil]

theorem Reading.problems_eq {r : Reading α} (h : r.reader.Logged) :
    r.problems = keptProblems r.reader.limit r.reader.tokens r.reader.reports.toList :=
  h.kept

theorem Reading.diagnostics_eq_nil {r : Reading α} (h : r.reader.Logged) :
    r.diagnostics = [] ↔ r.lexical = [] ∧ r.reader.reports = #[] := by
  unfold Reading.diagnostics Diagnostic.sortByPlace Reading.errors
  rw [stableSort_eq_nil, List.append_eq_nil_iff, List.map_eq_nil_iff, List.map_eq_nil_iff, List.map_eq_nil_iff,
    Reading.problems_eq h, keptProblems_eq_nil]
  exact and_congr_right fun _ => Array.toList_eq_nil_iff

/-! ## Text that is no token -/

theorem lexicalErrors_ne_nil {ts : List Token} {t : Token} (ht : t ∈ ts) (hk : t.kind = .illegal) :
    lexicalErrors ts ≠ [] := by
  obtain ⟨e, he, -⟩ := Token.error?_of_illegal hk
  exact List.ne_nil_of_mem (List.mem_filterMap.2 ⟨t, ht, he⟩)

theorem lexicalErrors_eq_nil {ts : List Token} (h : ∀ t ∈ ts, t.kind ≠ .illegal) : lexicalErrors ts = [] :=
  List.filterMap_eq_nil_iff.2 fun t ht => Token.error?_of_legal (h t ht)

/-- Who looks further than all tokens in front has met the errors among them. -/
theorem length_le_faultsWithin (c : List Token) : ∀ {ts : List Token} {n : Nat},
    (ts.filter (·.kind ≠ .illegal)).length < n → (lexicalErrors ts).length ≤ faultsWithin n (ts ++ c)
  | [], _, _ => Nat.zero_le _
  | _ :: _, 0, hn => by cases hn
  | t :: ts, n + 1, hn => by
    rw [List.cons_append, faultsWithin, lexicalErrors_cons]
    by_cases ht : t.kind = .illegal
    · obtain ⟨e, he, -⟩ := Token.error?_of_illegal ht
      rw [List.filter_cons_of_neg (by simpa using ht)] at hn
      rw [if_pos ht, he]
      exact Nat.succ_le_succ (length_le_faultsWithin c hn)
    · rw [List.filter_cons_of_pos (by simpa using ht), List.length_cons] at hn
      rw [if_neg ht, Token.error?_of_legal ht]
      exact length_le_faultsWithin c (Nat.lt_of_succ_lt_succ hn)

/-- Who has looked further than all tokens in front of the end has met all errors. -/
theorem Reading.lexical_eq {r : Reading α} {ts : List Token} {e : Token} (ht : r.reader.tokens = ts ++ [e])
    (he : e.kind = .eof) (h : (ts.filter (·.kind ≠ .illegal)).length < r.reader.reach) :
    r.lexical = lexicalErrors r.reader.tokens := by
  have hlast : lexicalErrors (ts ++ [e]) = lexicalErrors ts := by
    unfold lexicalErrors
    rw [List.filterMap_append, List.filterMap_cons_none (Token.error?_of_eof he),
      List.filterMap_nil, List.append_nil]
  unfold Reading.lexical Reader.faults
  rw [ht]
  refine List.take_of_length_le ?_
  rw [hlast]
  exact length_le_faultsWithin [e] h

/-! ## The reader of a source -/

variable {ts : List Token} {e : Token} (limit : Nat)

theorem Reader.ofTokens_rest (he : e.kind = .eof) (hts : ∀ t ∈ ts, t.WF) :
    (Reader.ofTokens (ts ++ [e]) limit).rest = ts.filter (·.kind ≠ .illegal) := by
  have h : (ts.filter (·.kind ≠ .illegal)).filter (·.kind ≠ .eof) = ts.filter (·.kind ≠ .illegal) := by
    rw [List.filter_eq_self]
    intro t ht
    simpa using (hts t (List.mem_filter.1 ht).1).notEof
  unfold Reader.ofTokens
  simp only [List.filter_append, h]
  simp [he]

/-- The reader of some tokens stands on the first one that counts, and ends at the last one. -/
theorem Reader.ofTokens_eq (he : e.kind = .eof) (hts : ∀ t ∈ ts, t.WF) :
    Reader.ofTokens (ts ++ [e]) limit =
      { rest := ts.filter (·.kind ≠ .illegal), eof := e, budget := (ts.filter (·.kind ≠ .illegal)).length + 1,
        tokens := ts ++ [e], limit } := by
  have hrest := ofTokens_rest limit he hts
  have hfind : ((ts ++ [e]).filter (·.kind ≠ .illegal)).find? (·.kind = .eof) = some e := by
    rw [List.filter_append, List.find?_append, List.find?_eq_none.2 ?_]
    · simp [he]
    · intro t ht
      simpa using (hts t (List.mem_filter.1 ht).1).notEof
  have hlen : ((ts ++ [e]).filter (·.kind ≠ .illegal)).length = (ts.filter (·.kind ≠ .illegal)).length + 1 := by
    rw [List.filter_append, List.length_append]
    simp [he]
  unfold ofTokens at hrest ⊢
  dsimp only at hrest ⊢
  rw [hrest, hfind, hlen]
  rfl

theorem Reader.ofTokens_wf (he : e.kind = .eof) (hts : ∀ t ∈ ts, t.WF) (hord : Ordered ts) :
    (Reader.ofTokens (ts ++ [e]) limit).WF := by
  have hrest := ofTokens_rest limit he hts
  refine ⟨?_, ?_, ?_, ?_⟩
  · unfold Reader.ofTokens
    dsimp only
    cases hf : (List.filter (fun t : Token => decide (t.kind ≠ .illegal)) (ts ++ [e])).find? (·.kind = .eof) with
    | none => rfl
    | some t => simpa using List.find?_some hf
  · rw [hrest]
    exact fun t ht => hts t (List.mem_filter.1 ht).1
  · rw [hrest]
    exact hord.sublist List.filter_sublist
  · exact List.length_filter_le _ _

/-- The reader at the start of a source. -/
def Reader.ofSource (file source : String) (limit : Nat := 0) : Reader := .ofTokens (tokenize file source) limit

theorem Reader.ofSource_wf (file source : String) (limit : Nat) : (ofSource file source limit).WF := by
  obtain ⟨ts, e, ht, he, hts, hord⟩ := tokenize_ordered file source
  unfold ofSource
  rw [ht]
  exact ofTokens_wf limit (congrArg Lexeme.kind he) hts hord

namespace Rule

instance : Honest expectEnd := by unfold expectEnd; infer_instance

instance : Honest wholeExpr := by
  unfold wholeExpr
  refine @Honest.bind _ _ _ _ inferInstance fun t => @Honest.bind _ _ _ _ inferInstance fun o => ?_
  cases o <;> infer_instance

instance : Honest wholeIri := by
  unfold wholeIri
  refine @Honest.bind _ _ _ _ inferInstance fun o => ?_
  cases o <;> infer_instance

variable {x : Rule α} [Honest x] {d : α} {file src : String} {limit : Nat}

omit [Honest x] in
theorem readSource_reader : (x.readSource d file src limit).reader = (x (.ofSource file src limit)).reader := by
  unfold readSource Reader.ofSource
  split
  · rename_i h
    rw [h]
    rfl
  · rename_i h
    rw [h]
    rfl

/-- Reading a source starts at its first token, with an empty log. -/
theorem readSource_leads : (Reader.ofSource file src limit).Leads (x.readSource d file src limit).reader := by
  rw [readSource_reader]
  exact Honest.leads _

theorem readSource_tokens : (x.readSource d file src limit).reader.tokens = tokenize file src :=
  readSource_leads.tokens

theorem readSource_logged : (x.readSource d file src limit).reader.Logged := readSource_leads.log rfl

/-- What is kept of a source is what the limit leaves of the reports. -/
theorem readSource_problems : (x.readSource d file src limit).problems =
    keptProblems limit (tokenize file src) (x.readSource d file src limit).reader.reports.toList := by
  have hlimit : (x.readSource d file src limit).reader.limit = limit := readSource_leads.limit
  rw [Reading.problems_eq readSource_logged, readSource_tokens, hlimit]

omit [Honest x] in
theorem readSource_of_ok {a : α} {s : Reader} (h : x (.ofSource file src limit) = .ok a s) :
    x.readSource d file src limit = { value := a, reader := s } := by
  unfold Reader.ofSource at h
  unfold readSource
  rw [h]

theorem reads_of_diagnostics (h : (x.readSource d file src limit).diagnostics = []) :
    ∃ s, x.Reads (.ofTokens (tokenize file src) limit) (x.readSource d file src limit).value s ∧
      (x.readSource d file src limit).reader = s := by
  have hr := ((Reading.diagnostics_eq_nil readSource_logged).1 h).2
  unfold readSource at hr ⊢
  cases hx : x (.ofTokens (tokenize file src) limit) with
  | ok a s =>
    rw [hx] at hr
    exact ⟨s, ⟨hx, hr⟩, rfl⟩
  | fail s =>
    rw [hx] at hr
    exact absurd hr (Honest.speaks _ s hx)

/-- A rule that reads up to the last token has met all texts that are no tokens. -/
theorem readSource_lexical (h : (x.readSource d file src limit).reader.rest.length ≤ 1) :
    (x.readSource d file src limit).lexical = lexicalErrors (tokenize file src) := by
  obtain ⟨ts, e, ht, he, hts, -⟩ := tokenize_ordered file src
  have hek : e.kind = .eof := congrArg Lexeme.kind he
  have hrest : (Reader.ofSource file src limit).rest = ts.filter (·.kind ≠ .illegal) := by
    unfold Reader.ofSource
    rw [ht]
    exact Reader.ofTokens_rest limit hek hts
  have hreach : (ts.filter (·.kind ≠ .illegal)).length < (x.readSource d file src limit).reader.reach := by
    have hl : (Reader.ofSource file src limit).Leads (x.readSource d file src limit).reader := readSource_leads
    have h1 := hl.taken
    have h2 := hl.reach (Nat.le_refl 2)
    have h3 : (Reader.ofSource file src limit).taken = 0 := rfl
    rw [hrest] at h1
    omega
  rw [Reading.lexical_eq (readSource_tokens.trans ht) hek hreach, readSource_tokens]

/-- A reading without diagnostics by a rule that reads up to the last token: no text was left out, and
the rule reads all the tokens without reports. -/
theorem reads_of_clean (hend : ∀ ⦃r a s⦄, r.WF → x.Reads r a s → s.rest.length ≤ 1)
    (h : (x.readSource d file src limit).diagnostics = []) :
    ∃ (r s : Reader) (e : Token), tokenize file src = r.rest ++ [e] ∧ e.lexeme = .eof ∧ r.WF ∧
      x.Reads r (x.readSource d file src limit).value s := by
  obtain ⟨s, hs, hsr⟩ := reads_of_diagnostics h
  obtain ⟨ts, e, ht, he, hts, hord⟩ := tokenize_ordered file src
  have hek : e.kind = .eof := congrArg Lexeme.kind he
  rw [ht] at hs
  have hwf := Reader.ofTokens_wf limit hek hts hord
  have hlex : lexicalErrors (ts ++ [e]) = [] := by
    rw [← ht, ← readSource_lexical (x := x) (d := d) (by rw [hsr]; exact hend hwf hs)]
    exact ((Reading.diagnostics_eq_nil readSource_logged).1 h).1
  have hlegal : ∀ t ∈ ts, t.kind ≠ .illegal :=
    fun t htm hk => lexicalErrors_ne_nil (List.mem_append_left [e] htm) hk hlex
  have hall : ts.filter (·.kind ≠ .illegal) = ts := by
    rw [List.filter_eq_self]
    exact fun t ht => by simpa using hlegal t ht
  exact ⟨_, s, e, by rw [ht, Reader.ofTokens_rest limit hek hts, hall], he, hwf, hs⟩

/-- On a text that scans to some lexemes, a rule that reads them without reports leaves no
diagnostics. -/
theorem clean_of_reads {Q : α → Prop} {ls : List Lexeme} (hsc : Scans src.toList ls)
    (hx : ∀ r : Reader, r.WF → Spells r.rest ls [] → ∃ a s, x.Reads r a s ∧ Q a) :
    Q (x.readSource d file src limit).value ∧ (x.readSource d file src limit).diagnostics = [] := by
  obtain ⟨ts, e, ht, he, hts, hord⟩ := tokenize_ordered file src
  have hek : e.kind = .eof := congrArg Lexeme.kind he
  have hls : ts.map Token.lexeme = ls := by
    have : (tokenize file src).map Token.lexeme = ls ++ [Lexeme.eof] := lexemes_tokenize hsc
    rw [ht, List.map_append, List.map_singleton, he] at this
    exact List.append_cancel_right this
  have hlegal : ∀ t ∈ ts, t.kind ≠ .illegal := by
    intro t htm
    exact hsc.legal t.lexeme (hls ▸ List.mem_map_of_mem htm)
  have hall : ts.filter (·.kind ≠ .illegal) = ts := by
    rw [List.filter_eq_self]
    exact fun t ht => by simpa using hlegal t ht
  have hrest := Reader.ofTokens_rest limit hek hts
  obtain ⟨a, s, hs, hQ⟩ := hx (Reader.ofTokens (ts ++ [e]) limit) (Reader.ofTokens_wf limit hek hts hord)
    ⟨ts, by rw [hrest, hall, List.append_nil], hls⟩
  rw [← ht] at hs
  have hread := readSource_of_ok (d := d) hs.1
  have hnil : lexicalErrors (tokenize file src) = [] := by
    refine lexicalErrors_eq_nil fun t htm => ?_
    rw [ht, List.mem_append, List.mem_singleton] at htm
    rcases htm with htm | rfl
    · exact hlegal t htm
    · rw [hek]
      exact nofun
  refine ⟨?_, (Reading.diagnostics_eq_nil readSource_logged).2 ⟨?_, ?_⟩⟩
  · rw [hread]
    exact hQ
  · unfold Reading.lexical
    rw [readSource_tokens, hnil, List.take_nil]
  · rw [hread]
    exact hs.2

end Rule
end SemFront
