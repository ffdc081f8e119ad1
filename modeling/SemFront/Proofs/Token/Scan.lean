/-
Scanning a whole text. `Cuts cs ls` says that a text is cut into the lexemes `ls`, wherever it
stands, and `Scans cs ls` that all of these are of the language. Valid lexemes that are kept apart
are scanned as they are written (`Scans.lexeme`), the tokens of a source are what it is cut into
(`Cuts.lexemes_tokenize`), and each of them is valid and ends before the next one starts
(`tokenize_ordered`).
-/
import SemFront.Proofs.Token.Munch
import SemFront.Token.Scanner

namespace SemFront

open Munch

/-- A text is cut into lexemes; those of the kind `illegal` are no tokens of the language. -/
inductive Cuts : List Char → List Lexeme → Prop
  | nil : Cuts [] []
  | blank {c : Char} {cs : List Char} {ls : List Lexeme} (hc : Text.isBlank c = true) (h : Cuts cs ls) :
    Cuts (c :: cs) ls
  | token {c : Char} {cs : List Char} {ls : List Lexeme} (hc : Text.isBlank c = false)
    (h : Cuts ((c :: cs).drop (first c cs).length) ls) :
    Cuts (c :: cs) (⟨(first c cs).kind, String.ofList ((c :: cs).take (first c cs).length)⟩ :: ls)

/-- A text is cut into lexemes, all of them of the language. -/
inductive Scans : List Char → List Lexeme → Prop
  | nil : Scans [] []
  | blank {c : Char} {cs : List Char} {ls : List Lexeme} (hc : Text.isBlank c = true) (h : Scans cs ls) :
    Scans (c :: cs) ls
  | token {c : Char} {cs : List Char} {ls : List Lexeme} (hc : Text.isBlank c = false)
    (hk : (first c cs).kind ≠ .illegal) (h : Scans ((c :: cs).drop (first c cs).length) ls) :
    Scans (c :: cs) (⟨(first c cs).kind, String.ofList ((c :: cs).take (first c cs).length)⟩ :: ls)

/-! ## White space -/

/-- No range of white space meets a range of letters. -/
theorem Text.blankRanges_disjoint :
    ∀ b ∈ blankRanges, ∀ l ∈ letterRanges, b.2 < l.1 ∨ l.2 < b.1 := by decide +kernel

theorem Text.not_letter_of_blank {n : Nat} (h : blankRanges.holds n = true) : letterRanges.holds n = false := by
  simp only [Ranges.holds, List.any_eq_true, Bool.and_eq_true, decide_eq_true_eq] at h
  obtain ⟨b, hb, h1, h2⟩ := h
  simp only [Ranges.holds, List.any_eq_false, Bool.and_eq_true, decide_eq_true_eq]
  rintro l hl ⟨h3, h4⟩
  have := Text.blankRanges_disjoint b hb l hl
  omega

theorem not_blank_of_startsName {c : Char} (h : startsName c = true) : Text.isBlank c = false := by
  cases hb : Text.isBlank c
  · rfl
  · exfalso
    simp only [startsName, Bool.or_eq_true, decide_eq_true_eq] at h
    rcases h with h | rfl
    · unfold Text.isBlank at hb
      unfold Text.isLetter at h
      split at hb
      · rename_i hlt
        rw [if_pos hlt] at h
        rw [isAlpha_iff_toNat] at h
        simp at hb
        omega
      · rename_i hlt
        rw [if_neg hlt, Text.not_letter_of_blank hb] at h
        cases h
    · revert hb; decide

theorem not_blank_of_isDigit {c : Char} (h : isDigit c = true) : Text.isBlank c = false := by
  simp only [isDigit, Bool.and_eq_true, decide_eq_true_eq] at h
  have h1 : c.toNat ≤ 57 := h.2
  have h2 : 48 ≤ c.toNat := h.1
  unfold Text.isBlank
  rw [if_pos (by omega)]
  simp
  omega

/-- No valid lexeme starts with white space. -/
theorem Lexeme.Valid.not_blank {l : Lexeme} {c : Char} {cs : List Char} (hl : l.Valid)
    (hi : l.kind ≠ .illegal) (h : l.raw.toList = c :: cs) : Text.isBlank c = false := by
  have hnum : ∀ {sign ds k : List Char}, IsSign sign → IsDigits ds → sign ++ (ds ++ k) = c :: cs →
      Text.isBlank c = false := by
    intro sign ds k hs hds e
    rcases hs with rfl | rfl
    · cases ds with
      | nil => exact absurd rfl hds.1
      | cons d ds =>
        cases e
        exact not_blank_of_isDigit (hds.2 c (by simp))
    · cases e
      decide
  obtain ⟨kind, raw⟩ := l
  simp only at h hi
  cases kind with
  | illegal => exact absurd rfl hi
  | eof =>
    have hr : raw = "" := hl
    rw [hr] at h
    cases h
  | ident =>
    obtain ⟨⟨c', cs', h', hc, -, -⟩, -⟩ : IsIdent raw := hl
    cases h.symm.trans h'
    exact not_blank_of_startsName hc
  | keyword k =>
    have hr : raw = k.text := hl
    obtain ⟨c', cs', h', hc, -, -⟩ := k.isWord_text
    rw [← hr] at h'
    cases h.symm.trans h'
    exact not_blank_of_startsName hc
  | int =>
    obtain ⟨sign, ds, h', hs, hds⟩ : IsInt raw := hl
    exact hnum hs hds (k := []) (by rw [List.append_nil, ← h', h])
  | float =>
    obtain ⟨sign, ds, fs, ex, h', hs, hds, -, -⟩ : IsFloat raw := hl
    exact hnum hs hds (k := '.' :: fs ++ ex) (by rw [← h, h']; simp)
  | string =>
    obtain ⟨q, bs, h', hq, -⟩ : IsString raw := hl
    cases h.symm.trans h'
    rcases hq with rfl | rfl <;> decide
  | punct p =>
    have hr : raw = p.text := hl
    rw [hr] at h
    cases p <;> (cases h; decide)

theorem Lexeme.Valid.exists_cons {l : Lexeme} (hl : l.Valid) (hi : l.kind ≠ .illegal) (he : l.kind ≠ .eof) :
    ∃ c cs, l.raw.toList = c :: cs := by
  obtain ⟨kind, raw⟩ := l
  cases kind with
  | illegal => exact absurd rfl hi
  | eof => exact absurd rfl he
  | ident =>
    obtain ⟨⟨c, cs, h, -⟩, -⟩ : IsIdent raw := hl
    exact ⟨c, cs, h⟩
  | keyword k =>
    have hr : raw = k.text := hl
    obtain ⟨c, cs, h, -⟩ := k.isWord_text
    exact ⟨c, cs, hr ▸ h⟩
  | int =>
    obtain ⟨sign, ds, h, -, hds⟩ : IsInt raw := hl
    exact List.exists_cons_of_ne_nil (by simp [h, hds.1])
  | float =>
    obtain ⟨sign, ds, fs, ex, h, -⟩ : IsFloat raw := hl
    exact List.exists_cons_of_ne_nil (by simp [h])
  | string =>
    obtain ⟨q, bs, h, -⟩ : IsString raw := hl
    exact ⟨q, _, h⟩
  | punct p =>
    have hr : raw = p.text := hl
    subst hr
    cases p <;> exact ⟨_, _, rfl⟩

/-! ## Building a scan -/

/-- A valid lexeme in front of a text that does not go on with it is scanned as it is. -/
theorem Scans.lexeme {l : Lexeme} {k : List Char} {ls : List Lexeme} (hl : l.Valid) (hi : l.kind ≠ .illegal)
    (he : l.kind ≠ .eof) (hk : l.kind.Ends k) (h : Scans k ls) : Scans (l.raw.toList ++ k) (l :: ls) := by
  obtain ⟨c, cs, hr⟩ : ∃ c cs, l.raw.toList = c :: cs := hl.exists_cons hi he
  have hf := first_of_valid hl hi hr hk
  have hlen : (c :: (cs ++ k)).drop (first c (cs ++ k)).length = k := by
    rw [hf, ← List.cons_append, ← hr]
    exact List.drop_left
  have htake : (c :: (cs ++ k)).take (first c (cs ++ k)).length = l.raw.toList := by
    rw [hf, ← List.cons_append, ← hr]
    exact List.take_left
  have := @Scans.token c (cs ++ k) ls (hl.not_blank hi hr) (by rw [hf]; exact hi) (by rw [hlen]; exact h)
  rw [htake, hf, String.ofList_toList] at this
  rw [hr]
  exact this

theorem Scans.punct (p : Punct) {k : List Char} {ls : List Lexeme} (hk : (Kind.punct p).Ends k) (h : Scans k ls) :
    Scans (p.text.toList ++ k) (.punct p :: ls) :=
  Scans.lexeme (l := .punct p) rfl nofun nofun hk h

theorem Scans.word {w : String} {k : List Char} {ls : List Lexeme} (hw : IsWord w)
    (hk : Kind.ident.Ends k) (h : Scans k ls) : Scans (w.toList ++ k) (.word w :: ls) := by
  cases hkw : Keyword.ofText? w with
  | none =>
    have hi : IsIdent w := ⟨hw, hkw⟩
    rw [Lexeme.word_of_isIdent hi]
    exact Scans.lexeme (l := .ident w) hi nofun nofun hk h
  | some kw =>
    rw [← Keyword.text_of_ofText? hkw, Lexeme.word_keyword]
    exact Scans.lexeme (l := .keyword kw) rfl nofun nofun hk h

theorem Scans.ident {w : String} {k : List Char} {ls : List Lexeme} (hw : IsIdent w)
    (hk : Kind.ident.Ends k) (h : Scans k ls) : Scans (w.toList ++ k) (.ident w :: ls) :=
  Scans.lexeme (l := .ident w) hw nofun nofun hk h

theorem Scans.keyword (kw : Keyword) {k : List Char} {ls : List Lexeme}
    (hk : Kind.ident.Ends k) (h : Scans k ls) : Scans (kw.text.toList ++ k) (.keyword kw :: ls) :=
  Scans.lexeme (l := .keyword kw) rfl nofun nofun hk h

theorem Scans.blanks {cs k : List Char} {ls : List Lexeme} (hcs : ∀ c ∈ cs, Text.isBlank c = true) (h : Scans k ls) :
    Scans (cs ++ k) ls := by
  induction cs with
  | nil => exact h
  | cons c cs ih => exact .blank (hcs c (by simp)) (ih fun d hd => hcs d (by simp [hd]))

theorem Scans.legal {cs : List Char} {ls : List Lexeme} (h : Scans cs ls) : ∀ l ∈ ls, l.kind ≠ .illegal := by
  induction h with
  | nil => exact nofun
  | blank _ _ ih => exact ih
  | token _ hk _ ih =>
    intro l hl
    rcases List.mem_cons.1 hl with rfl | hl
    · exact hk
    · exact ih l hl

/-! ## The tokens of a source -/

theorem Scans.cuts {cs : List Char} {ls : List Lexeme} (h : Scans cs ls) : Cuts cs ls := by
  induction h with
  | nil => exact .nil
  | blank hc _ ih => exact .blank hc ih
  | token hc _ _ ih => exact .token hc ih

theorem Cuts.dropBlanks {cs : List Char} {ls : List Lexeme} (h : Cuts cs ls) :
    Cuts (cs.dropWhile Text.isBlank) ls := by
  induction h with
  | nil => exact .nil
  | blank hc _ ih => rw [List.dropWhile_cons_of_pos hc]; exact ih
  | token hc h _ => rw [List.dropWhile_cons_of_neg (by simp [hc])]; exact .token hc h

@[simp] theorem Scanner.skipBlanks_rest (s : Scanner) : s.skipBlanks.rest = s.rest.dropWhile Text.isBlank := by
  change s.rest.drop (s.rest.takeWhile Text.isBlank).length = _
  induction s.rest with
  | nil => rfl
  | cons c cs ih => cases hc : Text.isBlank c <;> simp [hc, ih]

theorem dropWhile_cons_not {p : Char → Bool} : ∀ {cs : List Char} {c : Char} {k : List Char},
    cs.dropWhile p = c :: k → p c = false
  | [], _, _, h => by cases h
  | d :: cs, c, k, h => by
    cases hd : p d with
    | true => rw [List.dropWhile_cons_of_pos hd] at h; exact dropWhile_cons_not h
    | false =>
      rw [List.dropWhile_cons_of_neg (by simp [hd])] at h
      cases h
      exact hd

theorem Position.after_offset (p : Position) (cs : List Char) : (p.after cs).offset = p.offset + cs.length := by
  unfold Position.after
  induction cs generalizing p with
  | nil => rfl
  | cons c cs ih =>
    have : (p.next c).offset = p.offset + 1 := by unfold Position.next; split <;> rfl
    rw [List.foldl_cons, ih, this, List.length_cons]
    omega

/-- One step of scanning: behind white space stands the end of the input, or the first token of the
text, which the scanner then stands behind. -/
theorem Scanner.next_cases (s : Scanner) :
    (s.rest.dropWhile Text.isBlank = [] ∧ s.next.1.lexeme = .eof) ∨
      ∃ c cs, s.rest.dropWhile Text.isBlank = c :: cs ∧ Text.isBlank c = false ∧
        s.next.1.lexeme = ⟨(first c cs).kind, String.ofList ((c :: cs).take (first c cs).length)⟩ ∧
        s.next.2.rest = (c :: cs).drop (first c cs).length ∧
        (s.position.offset : Int) ≤ s.next.1.span.start ∧ s.next.1.span.start < s.next.1.span.stop ∧
        s.next.1.span.stop = (s.next.2.position.offset : Int) := by
  have hoff : s.position.offset ≤ s.skipBlanks.position.offset := by
    change _ ≤ (s.position.after _).offset
    rw [Position.after_offset]
    omega
  have hnb := @dropWhile_cons_not Text.isBlank s.rest
  rw [← Scanner.skipBlanks_rest] at hnb ⊢
  unfold Scanner.next
  generalize s.skipBlanks = s' at hoff hnb ⊢
  dsimp only
  split
  · rename_i hr
    exact .inl ⟨hr, rfl⟩
  · rename_i c cs hr
    have hfit := first_fits c cs
    have hpos := hfit.pos
    have hstop : (s'.position.after (s'.rest.take (first c cs).length)).offset =
        s'.position.offset + (first c cs).length := by
      rw [Position.after_offset, List.length_take, hr, Nat.min_eq_left hfit.le]
    refine .inr ⟨c, cs, hr, hnb hr, ?_, ?_, ?_, ?_, rfl⟩
    · rw [← hr]; rfl
    · rw [← hr]; rfl
    · exact Int.ofNat_le.2 hoff
    · change (s'.position.offset : Int) < ((s'.position.after _).offset : Int)
      rw [hstop]
      omega

theorem Scanner.tokens_eof {s : Scanner} (h : s.next.1.kind = .eof) (n : Nat) : s.tokens (n + 1) = [s.next.1] := by
  unfold Scanner.tokens
  exact if_pos h

theorem Scanner.tokens_cons {s : Scanner} (h : s.next.1.kind ≠ .eof) (n : Nat) :
    s.tokens (n + 1) = s.next.1 :: s.next.2.tokens n := by
  conv => lhs; unfold Scanner.tokens
  exact if_neg h

/-- A token is taken from the text, so less of it is left. -/
theorem Scanner.rest_lt {s : Scanner} {c : Char} {cs : List Char} (hd : s.rest.dropWhile Text.isBlank = c :: cs)
    (hr : s.next.2.rest = (c :: cs).drop (first c cs).length) : s.next.2.rest.length < s.rest.length := by
  have h1 : (s.rest.dropWhile Text.isBlank).length ≤ s.rest.length := (List.dropWhile_suffix _).length_le
  have h2 := (first_fits c cs).pos
  have h3 : 0 < (c :: cs).length := by simp
  rw [hr, List.length_drop]
  rw [hd] at h1
  omega

theorem Scanner.lexemes_tokens : ∀ (n : Nat) (s : Scanner) (ls : List Lexeme), Cuts s.rest ls → s.rest.length < n →
    (s.tokens n).map Token.lexeme = ls ++ [Lexeme.eof]
  | 0, s, ls, h, hn => by cases hn
  | n + 1, s, ls, h, hn => by
    have hs := h.dropBlanks
    obtain ⟨hd, hl⟩ | ⟨c, cs, hd, hb, hl, hr, -⟩ := s.next_cases
    · rw [hd] at hs
      cases hs
      rw [Scanner.tokens_eof (congrArg Lexeme.kind hl), List.map_singleton, hl, List.nil_append]
    · rw [hd] at hs
      cases hs with
      | blank hc _ => rw [hb] at hc; cases hc
      | @token _ _ ls _ ht =>
        have hlt := Scanner.rest_lt hd hr
        have hk : s.next.1.kind ≠ .eof := fun he => (first_fits c cs).kind ((congrArg Lexeme.kind hl).symm.trans he)
        rw [Scanner.tokens_cons hk, List.map_cons, hl,
          Scanner.lexemes_tokens n s.next.2 ls (by rw [hr]; exact ht) (by omega), List.cons_append]

/-- The tokens of a source are what its text is cut into, and the end of the input. -/
theorem Cuts.lexemes_tokenize {file source : String} {ls : List Lexeme} (h : Cuts source.toList ls) :
    (tokenize file source).map Token.lexeme = ls ++ [Lexeme.eof] :=
  Scanner.lexemes_tokens _ _ _ h (Nat.lt_succ_self _)

theorem lexemes_tokenize {file source : String} {ls : List Lexeme} (h : Scans source.toList ls) :
    (tokenize file source).map Token.lexeme = ls ++ [Lexeme.eof] :=
  h.cuts.lexemes_tokenize

/-! ## Valid and ordered tokens -/

/-- A token with a text of its kind that is not empty. -/
structure Token.WF (t : Token) : Prop where
  notEof : t.kind ≠ .eof
  valid : t.lexeme.Valid
  nonempty : t.span.start < t.span.stop

/-- Each token ends before the next one starts. -/
def Ordered (ts : List Token) : Prop := ts.Pairwise fun s t => s.span.stop ≤ t.span.start

theorem Scanner.tokens_ordered : ∀ (n : Nat) (s : Scanner), s.rest.length < n →
    ∃ (ts : List Token) (e : Token), s.tokens n = ts ++ [e] ∧ e.lexeme = Lexeme.eof ∧ (∀ t ∈ ts, t.WF) ∧ Ordered ts ∧
      ∀ t ∈ ts, (s.position.offset : Int) ≤ t.span.start
  | 0, s, hn => by cases hn
  | n + 1, s, hn => by
    obtain ⟨hd, hl⟩ | ⟨c, cs, hd, hb, hl, hr, hle, hlt, hstop⟩ := s.next_cases
    · exact ⟨[], s.next.1, Scanner.tokens_eof (congrArg Lexeme.kind hl) n, hl, by simp, by simp [Ordered], by simp⟩
    · have hfit := first_fits c cs
      have hshort := Scanner.rest_lt hd hr
      have hk : s.next.1.kind ≠ .eof := fun he => hfit.kind ((congrArg Lexeme.kind hl).symm.trans he)
      obtain ⟨ts, e, he, hke, hwf, hord, hoff⟩ := Scanner.tokens_ordered n s.next.2 (by omega)
      refine ⟨s.next.1 :: ts, e, by rw [Scanner.tokens_cons hk, he]; rfl, hke, ?_, ?_, ?_⟩
      · intro t ht
        rcases List.mem_cons.1 ht with rfl | ht
        · exact ⟨hk, by rw [hl]; exact hfit.valid, hlt⟩
        · exact hwf t ht
      · exact List.pairwise_cons.2 ⟨fun t ht => by rw [hstop]; exact hoff t ht, hord⟩
      · intro t ht
        rcases List.mem_cons.1 ht with rfl | ht
        · exact hle
        · have := hoff t ht
          omega

/-- The tokens of a source are well-formed, in order, and followed by the end of the input. -/
theorem tokenize_ordered (file source : String) :
    ∃ (ts : List Token) (e : Token), tokenize file source = ts ++ [e] ∧ e.lexeme = .eof ∧ (∀ t ∈ ts, t.WF) ∧
      Ordered ts := by
  obtain ⟨ts, e, h, he, hwf, hord, -⟩ :=
    Scanner.tokens_ordered _ { Scanner.ofText source with file } (Nat.lt_succ_self _)
  exact ⟨ts, e, h, he, hwf, hord⟩

/-! ## Errors -/

/-- Text that is no token has one error, about its place; it tells an unterminated string by the quote. -/
theorem Token.error?_of_illegal {t : Token} (h : t.kind = .illegal) : ∃ e, t.error? = some e ∧ e.span = t.span ∧
    (e.fault = .unterminatedString ↔ ∃ q ∈ t.raw.toList.head?, IsQuote q) := by
  unfold Token.error? IsQuote
  rw [if_neg (by simp [h])]
  split
  · rename_i hq
    exact ⟨_, rfl, rfl, by simp [hq]⟩
  · rename_i hq
    exact ⟨_, rfl, rfl, by simp [hq]⟩
  · rename_i hq hq'
    refine ⟨_, rfl, rfl, ?_⟩
    simp only [reduceCtorEq, false_iff]
    rintro ⟨q, hm, rfl | rfl⟩
    · exact hq hm
    · exact hq' hm

theorem Token.error?_of_legal {t : Token} (h : t.kind ≠ .illegal) : t.error? = none := by
  unfold Token.error?
  exact if_pos h

theorem Token.error?_of_eof {t : Token} (h : t.kind = .eof) : t.error? = none :=
  error?_of_legal (by rw [h]; exact nofun)

theorem lexicalErrors_cons (t : Token) (ts : List Token) :
    lexicalErrors (t :: ts) = t.error?.toList ++ lexicalErrors ts := by
  unfold lexicalErrors
  rw [List.filterMap_cons]
  cases t.error? <;> rfl

end SemFront
