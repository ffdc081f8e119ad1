/-
Round trips between sources and trees. Canonical trees are written and read back as themselves up to
spans. A source read without diagnostics gives a canonical tree, so its text is read back as well, and
has the tokens of the source: all of them for an expression, and for a program all but the semicolons
that may be left out behind bodies and the `>=` that close list types.
-/
import SemFront.Proofs.Grammar.ProgramComplete
import SemFront.Proofs.Grammar.Reading
import SemFront.Proofs.Tree.Outline

namespace SemFront

variable {file src : String} {limit : Nat}

/-! ## Programs -/

theorem reads_program_of_clean (h : (readProgram file src limit).diagnostics = []) :
    ∃ (r s : Reader) (e : Token), tokenize file src = r.rest ++ [e] ∧ e.lexeme = .eof ∧ r.WF ∧
      Rule.program.Reads r (readProgram file src limit).value s :=
  Rule.reads_of_clean (fun r p s hr h => by rw [(Rule.sound_program hr h).2.1]; exact Nat.zero_le 1) h

theorem canonical_of_clean (h : (readProgram file src limit).diagnostics = []) :
    (readProgram file src limit).value.Canonical := by
  obtain ⟨r, s, e, -, -, hr, hread⟩ := reads_program_of_clean h
  exact (Rule.sound_program hr hread).1

/-- The text of a canonical program is read without diagnostics, as a program that is written like it
and differs from it in spans only. -/
theorem Program.Canonical.read_text {p : Program} (hp : p.Canonical) (file : String) (limit : Nat) :
    (readProgram file p.text limit).diagnostics = [] ∧ (readProgram file p.text limit).value.erase = p.erase ∧
      (readProgram file p.text limit).value.text = p.text := by
  have h : (readProgram file p.text limit).value.Alike p ∧ (readProgram file p.text limit).diagnostics = [] :=
    Rule.clean_of_reads hp.scans fun r hr hs => Rule.complete_program hr hp hs
  exact ⟨h.2, h.1.erase (canonical_of_clean h.2) hp, h.1.text⟩

/-- Writing a canonical program and reading it is the identity up to spans. -/
theorem readProgram_text {p : Program} (hp : p.Canonical) (file : String) (limit : Nat) :
    (readProgram file p.text limit).diagnostics = [] ∧ (readProgram file p.text limit).value.erase = p.erase := by
  obtain ⟨hclean, herase, -⟩ := hp.read_text file limit
  exact ⟨hclean, herase⟩

/-- A function without parameters that returns a value. -/
def returning (name : String) (value : Expr) (start : Int) : FunctionDecl :=
  { name := some { parts := [{ name }] }, returnType := some { name := "T" }, body := .mk [.ret value {}] {}
    span := { start } }

theorem returning_canonical {name : String} {value : Expr} {start : Int} (hn : IsIdent name) (hv : value.Canonical) :
    (returning name value start).Canonical where
  name := ⟨_, rfl, by simp, by simpa [Ident.Canonical] using hn⟩
  params := fun _ hp => absurd hp List.not_mem_nil
  returnType := ⟨_, rfl, by decide +kernel⟩
  body := List.forall_mem_singleton.2 (.ret hv)

/-- A program whose class stands between its two functions. -/
def interleaved : Program :=
  { imports := [{ names := [{ name := "core" }] }]
    aliases := [{ name := some { name := "t" }
                  target := some { scheme := some { name := "https" }, domain := [{ name := "class" }]
                                   trailingSlash := true, fragment := some {} } }]
    classes := [{ name := some { name := "C" }, properties := [{ name := some { name := "p" }, type := some { name := "T" } }]
                  methods := [returning "m" (.neg (.bool true {}) {}) 1], span := { start := 1 } }]
    functions := [returning "f" (.bool true {}) 0, returning "g" (.list [] {}) 2] }

theorem interleaved_canonical : interleaved.Canonical where
  imports := by
    simp only [interleaved, List.mem_singleton, forall_eq]
    exact ⟨by simp, by simpa [Ident.Canonical] using by decide +kernel⟩
  aliases := by
    simp only [interleaved, List.mem_singleton, forall_eq]
    refine ⟨⟨_, rfl, by decide +kernel⟩, _, rfl, ⟨_, rfl, by decide +kernel⟩, by simp, by simpa using by decide +kernel, nofun, .inl rfl⟩
  classes := by
    simp only [interleaved, List.mem_singleton, forall_eq]
    refine ⟨⟨_, rfl, by decide +kernel⟩, ?_, ?_, rfl, by simp [Ascending], by simp [Ascending]⟩
    · simp only [List.mem_singleton, forall_eq]
      exact ⟨⟨_, rfl, by decide +kernel⟩, _, rfl, by decide +kernel⟩
    · simp only [List.mem_singleton, forall_eq]
      exact returning_canonical (by decide +kernel) (.neg .bool rfl)
  functions := by
    simp only [interleaved, List.mem_cons, List.not_mem_nil, or_false, forall_eq_or_imp, forall_eq]
    exact ⟨returning_canonical (by decide +kernel) .bool, returning_canonical (by decide +kernel) (.list nofun)⟩
  bad := rfl
  classesAscend := by simp [interleaved, Ascending]
  functionsAscend := by simp [interleaved, returning, Ascending]

theorem readProgram_text_interleaved : interleaved.Canonical ∧
    (readProgram "a.sem" interleaved.text).diagnostics = [] ∧
    (readProgram "a.sem" interleaved.text).value.erase = interleaved.erase :=
  ⟨interleaved_canonical, readProgram_text interleaved_canonical "a.sem" 0⟩

/-- What is read without diagnostics has no placeholders and all its targets. Its text is read without
diagnostics, as the same program up to spans, whose text is the same again. -/
theorem readProgram_text_of_clean (h : (readProgram file src limit).diagnostics = []) :
    (readProgram file src limit).value.outline.placeholders = 0 ∧
    (∀ a ∈ (readProgram file src limit).value.aliases, a.target ≠ none) ∧
    ∀ file' limit', (readProgram file' (readProgram file src limit).value.text limit').diagnostics = [] ∧
      (readProgram file' (readProgram file src limit).value.text limit').value.erase =
        (readProgram file src limit).value.erase ∧
      (readProgram file' (readProgram file src limit).value.text limit').value.text =
        (readProgram file src limit).value.text := by
  have hp := canonical_of_clean h
  obtain ⟨hwhole, htargets⟩ := hp.placeholders
  exact ⟨hwhole, htargets, hp.read_text⟩

/-- A source with a body that no semicolon follows, and a `>=` that closes a list type. -/
def unamended : String := "alias t as https://class; f(): T { x: list<T>= [-1 - 2]; } class C { m(): T { return (T) x; }; }"

theorem unamended_clean : (readProgram "a.sem" unamended).diagnostics = [] := List.isEmpty_iff.1 (by decide +kernel)

theorem readProgram_text_of_unamended : (readProgram "a.sem" unamended).diagnostics = [] ∧
    (readProgram "a.sem" unamended).value.outline.placeholders = 0 ∧
    (∃ a ∈ (readProgram "a.sem" unamended).value.aliases, a.target ≠ none) ∧
    (readProgram "b.sem" (readProgram "a.sem" unamended).value.text 1).diagnostics = [] ∧
    (readProgram "b.sem" (readProgram "a.sem" unamended).value.text 1).value.erase =
      (readProgram "a.sem" unamended).value.erase ∧
    (readProgram "b.sem" (readProgram "a.sem" unamended).value.text 1).value.text =
      (readProgram "a.sem" unamended).value.text := by
  obtain ⟨hwhole, htargets, hread⟩ := readProgram_text_of_clean unamended_clean
  have hne : (readProgram "a.sem" unamended).value.aliases ≠ [] := by decide +kernel
  obtain ⟨a, ha⟩ := List.exists_mem_of_ne_nil _ hne
  exact ⟨unamended_clean, hwhole, ⟨a, ha, htargets a ha⟩, hread "b.sem" 1⟩

/-- The text of what is read without diagnostics has the tokens of the source, but for a semicolon behind
each body that has none and a `>` and a `=` for each `>=` that closes a list type. Each body stops with
a brace of the source, and each list type with the first character of a `>` or a `>=`. -/
theorem tokenize_text_of_clean (h : (readProgram file src limit).diagnostics = []) :
    (∀ file', (tokenize file' (readProgram file src limit).value.text).map Token.lexeme =
      amended (readProgram file src limit).value.bodyStops (readProgram file src limit).value.listStops
        (tokenize file src)) ∧
    (∀ x ∈ (readProgram file src limit).value.bodyStops, ∃ t ∈ tokenize file src,
      t.kind = .punct .rbrace ∧ t.span.stop = x) ∧
    ∀ x ∈ (readProgram file src limit).value.listStops, ∃ t ∈ tokenize file src,
      (t.kind = .punct .greater ∨ t.kind = .punct .greaterEqual) ∧ t.span.start + 1 = x := by
  obtain ⟨r, s, e, htok, he, hr, hread⟩ := reads_program_of_clean h
  obtain ⟨hamend, hbodies, hlists⟩ := Rule.amended_of_reads hr hread (congrArg Lexeme.kind he)
  rw [htok]
  refine ⟨fun file' => ?_, fun x hx => ?_, fun x hx => ?_⟩
  · rw [hamend, he, lexemes_tokenize (canonical_of_clean h).scans]
  · obtain ⟨t, ht, hx⟩ := hbodies x hx
    exact ⟨t, List.mem_append_left _ ht, hx⟩
  · obtain ⟨t, ht, hx⟩ := hlists x hx
    exact ⟨t, List.mem_append_left _ ht, hx⟩

theorem tokenize_text_of_unamended : (readProgram "a.sem" unamended).diagnostics = [] ∧
    (tokenize "b.sem" (readProgram "a.sem" unamended).value.text).map Token.lexeme =
      amended [58, 93] [45] (tokenize "a.sem" unamended) ∧
    (∃ t ∈ tokenize "a.sem" unamended, t.kind = .punct .rbrace ∧ t.span.stop = 58) ∧
    ∃ t ∈ tokenize "a.sem" unamended, (t.kind = .punct .greater ∨ t.kind = .punct .greaterEqual) ∧
      t.span.start + 1 = 45 := by
  have hbodies : (readProgram "a.sem" unamended).value.bodyStops = [58, 93] := by decide +kernel
  have hlists : (readProgram "a.sem" unamended).value.listStops = [45] := by decide +kernel
  obtain ⟨htok, hb, hl⟩ := tokenize_text_of_clean unamended_clean
  rw [hbodies] at htok hb
  rw [hlists] at htok hl
  exact ⟨unamended_clean, htok "b.sem", hb 58 (by decide), hl 45 (by decide)⟩

/-! ## Expressions -/

namespace Rule

theorem reads_expectEnd {r s : Reader} {u : Unit} : expectEnd.Reads r u s ↔ r.advance.current.kind = .eof ∧ s = r := by
  unfold expectEnd
  simp only [reads_bind, reads_peek, exists_eq_and_eq, reads_ite, reads_pure, Reader.peek_eq, not_reads_report,
    true_and]
  by_cases hk : r.advance.current.kind = .eof <;> simp [hk]

theorem reads_wholeExpr {r s : Reader} {e : Expr} : wholeExpr.Reads r e s ↔
    expr.Reads r e s ∧ s.advance.current.kind = .eof := by
  unfold wholeExpr
  rw [reads_current_bind, @reads_attempt_bind _ _ _ _ _ _ _ _ (by rintro (_ | _) <;> infer_instance)]
  simp only [reads_bind, reads_expectEnd, exists_unit_and_eq, reads_pure]
  constructor
  · rintro ⟨e, m, he, hk, rfl, rfl⟩
    exact ⟨he, hk⟩
  · rintro ⟨he, hk⟩
    exact ⟨e, s, he, hk, rfl, rfl⟩

end Rule

/-- The end follows every expression. -/
theorem Expr.Follows.eof {n : Nat} {e : Expr} : e.Follows n .eof where
  noDot := nofun
  noParen := nofun
  noCast _ := rfl
  ends := nofun

theorem Expr.Canonical.scans_text {e : Expr} (he : e.Canonical) : Scans e.text.toList e.lexemes := by
  simpa using he.written.scans apart_nil .nil

/-- The text of a canonical expression is read as that expression up to spans. -/
theorem Expr.Canonical.read_text {e : Expr} (he : e.Canonical) (file : String) (limit : Nat) :
    (readExpr file e.text limit).diagnostics = [] ∧ (readExpr file e.text limit).value.erase = e.erase := by
  refine (Rule.clean_of_reads (Q := fun x : Expr => x.erase = e.erase) he.scans_text fun r hr hs => ?_).symm
  obtain ⟨x, s, hx, hxe, hrest⟩ := Rule.complete_expr hr he hs .eof
  refine ⟨x, s, Rule.reads_wholeExpr.2 ⟨hx, ?_⟩, hxe⟩
  rw [(hx.leads.wf hr).advance.current_kind, hrest]
  rfl

theorem reads_expr_of_clean (h : (readExpr file src limit).diagnostics = []) :
    ∃ (r s : Reader) (e : Token), tokenize file src = r.rest ++ [e] ∧ e.lexeme = .eof ∧ r.WF ∧
      Rule.expr.Reads r (readExpr file src limit).value s ∧ s.advance.rest = [] := by
  have hend : ∀ {r s : Reader} {x : Expr}, r.WF → Rule.wholeExpr.Reads r x s →
      Rule.expr.Reads r x s ∧ s.advance.rest = [] := by
    intro r s x hr h
    obtain ⟨hx, hk⟩ := Rule.reads_wholeExpr.1 h
    exact ⟨hx, (hx.leads.wf hr).advance.rest_eq_nil hk⟩
  obtain ⟨r, s, e, htok, he, hr, hread⟩ := Rule.reads_of_clean (fun r x s hr h => by
    have hlen : s.rest.length - 1 = 0 := List.length_tail ▸ congrArg List.length (hend hr h).2
    omega) h
  exact ⟨r, s, e, htok, he, hr, hend hr hread⟩

/-- An expression read without diagnostics is canonical, and its text has the tokens of the source. -/
theorem canonical_of_clean_expr (h : (readExpr file src limit).diagnostics = []) :
    (readExpr file src limit).value.Canonical ∧
    ∀ file', (tokenize file' (readExpr file src limit).value.text).map Token.lexeme =
      (tokenize file src).map Token.lexeme := by
  obtain ⟨r, s, e, htok, he, hr, hread, hnil⟩ := reads_expr_of_clean h
  have hcan := (Rule.sound_expr hr hread).canonical
  obtain ⟨us, hus, hlex⟩ := (Rule.sound_expr hr hread).spells
  rw [hnil, List.append_nil] at hus
  refine ⟨hcan, fun file' => ?_⟩
  rw [lexemes_tokenize hcan.scans_text, htok, hus, List.map_append, hlex, List.map_singleton, he]

/-- Exactly the canonical expressions are read without diagnostics: each is read from its text, up to
spans, and whatever is read is one whose text has the tokens of the source. -/
theorem readExpr_iff_canonical :
    (∀ e : Expr, e.Canonical → ∀ file limit,
      (readExpr file e.text limit).diagnostics = [] ∧ (readExpr file e.text limit).value.erase = e.erase) ∧
    ∀ file src limit, (readExpr file src limit).diagnostics = [] →
      (readExpr file src limit).value.Canonical ∧
      ∀ file', (tokenize file' (readExpr file src limit).value.text).map Token.lexeme =
        (tokenize file src).map Token.lexeme :=
  ⟨fun _ he file limit => he.read_text file limit, fun _ _ _ h => canonical_of_clean_expr h⟩

/-- A difference of a negation and a cast. -/
def difference : Expr :=
  .binary .sub (.neg (.bool true {}) {}) (.cast (some { name := "T" }) (.list [] {}) {}) {}

theorem difference_canonical : difference.Canonical :=
  .binary nofun (.neg .bool rfl) (.cast (by decide +kernel) (.list nofun) rfl) (by decide) (by decide) fun _ => rfl

theorem readExpr_iff_canonical_difference : difference.Canonical ∧
    (readExpr "a.sem" difference.text).diagnostics = [] ∧
    (readExpr "a.sem" difference.text).value.erase = difference.erase ∧
    (readExpr "a.sem" "- x-(T)-1").diagnostics = [] ∧ (readExpr "a.sem" "- x-(T)-1").value.Canonical ∧
    (tokenize "b.sem" (readExpr "a.sem" "- x-(T)-1").value.text).map Token.lexeme =
      (tokenize "a.sem" "- x-(T)-1").map Token.lexeme := by
  have hclean : (readExpr "a.sem" "- x-(T)-1").diagnostics = [] := List.isEmpty_iff.1 (by decide +kernel)
  obtain ⟨hread, herase⟩ := readExpr_iff_canonical.1 difference difference_canonical "a.sem" 0
  obtain ⟨hcan, htok⟩ := readExpr_iff_canonical.2 "a.sem" "- x-(T)-1" 0 hclean
  exact ⟨difference_canonical, hread, herase, hclean, hcan, htok "b.sem"⟩

end SemFront
