/-
Scanning loses nothing. The tokens of a source lie one behind the other, between them is nothing but white
space, and behind the last character stands the end of the input, once. So the texts of the tokens and the
white space in front of them make up the source again, each token can be cut out of the source by its span,
and the errors are those of the tokens that are none of the language, in the order of their places. None
follows that of an unterminated string.
-/
import SemFront.Proofs.Placement.Outline
import SemFront.Proofs.Token.Longest

namespace SemFront

/-! ## Tokens side by side -/

/-- Tokens that cover a text from an offset to its end, but for white space in front of each. -/
inductive Tiles (cs : List Char) : Nat → List Token → Prop
  | nil : Tiles cs cs.length []
  | cons {n i j : Nat} {t : Token} {ts : List Token} (le : n ≤ i)
    (blank : ∀ c ∈ (cs.drop n).take (i - n), Text.isBlank c = true) (covers : t.Covers cs i j) (h : Tiles cs j ts) :
    Tiles cs n (t :: ts)

namespace Tiles

variable {cs : List Char} {n : Nat} {ts : List Token}

theorem start_le (h : Tiles cs n ts) : ∀ t ∈ ts, (n : Int) ≤ t.span.start := by
  induction h with
  | nil => exact fun t ht => absurd ht List.not_mem_nil
  | cons le _ covers _ ih =>
    have h1 := covers.le
    intro t ht
    rcases List.mem_cons.1 ht with rfl | ht
    · rw [covers.start]
      omega
    · have := ih t ht
      omega

theorem ordered (h : Tiles cs n ts) : Ordered ts := by
  induction h with
  | nil => exact List.Pairwise.nil
  | cons _ _ covers h ih =>
    refine List.pairwise_cons.2 ⟨fun u hu => ?_, ih⟩
    rw [covers.stop]
    exact h.start_le u hu

/-- A character that no token covers is white space. -/
theorem blank (h : Tiles cs n ts) : ∀ (k : Nat) (hk : k < cs.length), n ≤ k →
    (∀ t ∈ ts, ¬ (t.span.start ≤ k ∧ (k : Int) < t.span.stop)) → Text.isBlank cs[k] = true := by
  induction h with
  | nil => exact fun k hk hn => absurd hk (Nat.not_lt.2 hn)
  | @cons n i j t ts le blank covers h ih =>
    intro k hk hn hout
    by_cases hki : k < i
    · refine blank _ (List.mem_iff_getElem.2 ⟨k - n, ?_, ?_⟩)
      · rw [List.length_take, List.length_drop]
        omega
      · rw [List.getElem_take, List.getElem_drop]
        congr 1
        omega
    · have hj : j ≤ k := by
        have := hout t List.mem_cons_self
        rw [covers.start, covers.stop] at this
        omega
      exact ih k hk hj fun u hu => hout u (List.mem_cons_of_mem t hu)

/-- The tokens with the white space in front of them make up the text. -/
theorem joined (h : Tiles cs n ts) : ∃ gaps : List (List Char), gaps.length = ts.length ∧
    (∀ g ∈ gaps, ∀ c ∈ g, Text.isBlank c = true) ∧
    (List.zipWith (fun g t => g ++ t.raw.toList) gaps ts).flatten = cs.drop n := by
  induction h with
  | nil => exact ⟨[], rfl, nofun, List.drop_length.symm⟩
  | @cons n i j t ts le blank covers h ih =>
    obtain ⟨gaps, hlen, hgaps, hjoin⟩ := ih
    refine ⟨(cs.drop n).take (i - n) :: gaps, by rw [List.length_cons, List.length_cons, hlen], ?_, ?_⟩
    · intro g hg
      rcases List.mem_cons.1 hg with rfl | hg
      · exact blank
      · exact hgaps g hg
    · have hj : cs.drop j = (cs.drop i).drop (j - i) := by
        rw [List.drop_drop, Nat.add_sub_cancel' covers.le]
      have hi : cs.drop i = (cs.drop n).drop (i - n) := by
        rw [List.drop_drop, Nat.add_sub_cancel' le]
      rw [List.zipWith_cons_cons, List.flatten_cons, hjoin, covers.raw, List.append_assoc, hj, List.take_append_drop,
        hi, List.take_append_drop]

end Tiles

/-- With a budget for all that is left, a scanner cuts it into tokens up to the end. -/
theorem Scanner.tokens_tile {cs : List Char} : ∀ (k : Nat) (s : Scanner) (n : Nat), s.Behind cs n →
    s.rest.length < k → Tiles cs n (s.tokens k)
  | 0, _, _, _, hk => by cases hk
  | k + 1, s, n, h, hlt => by
    obtain ⟨i, j, hle, hblank, hcover, hbehind, heof⟩ := h.next
    obtain ⟨-, hl⟩ | ⟨c, cs', hd, -, hl, hr, -⟩ := s.next_cases
    · have hk : s.next.1.kind = .eof := congrArg Lexeme.kind hl
      obtain rfl := heof hk
      obtain rfl : j = cs.length := Nat.le_antisymm hcover.le_length hcover.le
      rw [Scanner.tokens_eof hk]
      exact .cons hle hblank hcover .nil
    · have hshort := Scanner.rest_lt hd hr
      have hne : s.next.1.kind ≠ .eof := fun he => (first_fits c cs').kind ((congrArg Lexeme.kind hl).symm.trans he)
      rw [Scanner.tokens_cons hne]
      exact .cons hle hblank hcover (Scanner.tokens_tile k s.next.2 j hbehind (by omega))

theorem tokenize_tiles (file source : String) : Tiles source.toList 0 (tokenize file source) :=
  Scanner.tokens_tile _ _ 0 ⟨Nat.zero_le _, rfl, rfl⟩ (Nat.lt_succ_self _)

/-! ## Errors -/

/-- The scanner at the start of a source. -/
def Scanner.ofSource (file source : String) : Scanner := { Scanner.ofText source with file }

theorem tokenize_eq (file source : String) :
    tokenize file source = (Scanner.ofSource file source).tokens (source.toList.length + 1) := rfl

/-- The scanner behind the next `n` tokens. -/
def Scanner.past : (n : Nat) → Scanner → Scanner
  | 0, s => s
  | n + 1, s => past n s.next.2

/-- What a scanner has recorded behind its tokens are the errors of these. -/
theorem Scanner.past_errors : ∀ (k : Nat) (s : Scanner),
    (s.past (s.tokens k).length).errors = s.errors ++ lexicalErrors (s.tokens k)
  | 0, s => by rw [Scanner.tokens, lexicalErrors]; exact (List.append_nil _).symm
  | k + 1, s => by
    by_cases he : s.next.1.kind = .eof
    · rw [Scanner.tokens_eof he, lexicalErrors_cons]
      exact (s.next_errors).trans (congrArg _ (List.append_nil _).symm)
    · rw [Scanner.tokens_cons he, lexicalErrors_cons, ← List.append_assoc, ← s.next_errors]
      exact Scanner.past_errors k s.next.2

/-- There is one error for each text that is no token, about its place. -/
theorem lexicalErrors_spans (ts : List Token) :
    (lexicalErrors ts).map LexicalError.span = (ts.filter (·.kind = .illegal)).map Token.span := by
  induction ts with
  | nil => rfl
  | cons t ts ih =>
    rw [lexicalErrors_cons, List.map_append, ih]
    by_cases hk : t.kind = .illegal
    · obtain ⟨e, he, hspan, -⟩ := Token.error?_of_illegal hk
      rw [he, List.filter_cons_of_pos (by simpa using hk), List.map_cons, ← hspan]
      rfl
    · rw [Token.error?_of_legal hk, List.filter_cons_of_neg (by simpa using hk)]
      rfl

theorem lexicalErrors_file {file source : String} :
    ∀ e ∈ lexicalErrors (tokenize file source), e.span.file = file := by
  intro e he
  have hm := List.mem_map_of_mem (f := LexicalError.span) he
  rw [lexicalErrors_spans] at hm
  obtain ⟨t, ht, hspan⟩ := List.mem_map.1 hm
  rw [← hspan]
  exact tokenize_file (List.mem_filter.1 ht).1

theorem lexicalErrors_ordered (file source : String) :
    (lexicalErrors (tokenize file source)).Pairwise fun a b => a.span.start ≤ b.span.start := by
  have hts : (tokenize file source).Pairwise fun t u => t.span.start ≤ u.span.start := by
    refine (tokenize_tiles file source).ordered.imp_of_mem fun {t u} ht _ htu => ?_
    obtain ⟨i, j, hcover, -⟩ := tokenize_covers ht
    exact Int.le_trans hcover.liesIn.start_le htu
  rw [← List.pairwise_map (R := fun a b : Span => a.start ≤ b.start), lexicalErrors_spans, List.pairwise_map]
  exact hts.sublist List.filter_sublist

/-- Behind an unterminated string nothing is left to scan. -/
theorem Scanner.rest_of_unterminated {s : Scanner} {e : LexicalError} (he : s.next.1.error? = some e)
    (hf : e.fault = .unterminatedString) : s.next.2.rest = [] := by
  have hk : s.next.1.kind = .illegal := by
    by_contra hk
    cases he.symm.trans (Token.error?_of_legal hk)
  obtain ⟨e', he', -, hfault⟩ := Token.error?_of_illegal hk
  obtain rfl := Option.some.inj (he.symm.trans he')
  obtain ⟨q, hq, hquote⟩ := hfault.1 hf
  have hr := s.refuses_of_illegal hk
  have hhead : q ∈ s.skipBlanks.rest.head? := by
    rw [← hr.rest, List.head?_append, hq]
    rfl
  have hall := hr.rest.trans (hr.unterminated q hhead hquote).1.symm
  exact List.append_right_eq_self.1 hall

theorem Scanner.lexicalErrors_of_rest {s : Scanner} (h : s.rest = []) (k : Nat) : lexicalErrors (s.tokens k) = [] := by
  cases k with
  | zero => rfl
  | succ k =>
    obtain ⟨-, hl⟩ | ⟨c, cs, hd, -⟩ := s.next_cases
    · have hk : s.next.1.kind = .eof := congrArg Lexeme.kind hl
      rw [Scanner.tokens_eof hk]
      exact List.filterMap_cons_none (Token.error?_of_eof hk)
    · rw [h] at hd
      cases hd

/-- No error follows that of an unterminated string. -/
theorem Scanner.unterminated_last : ∀ (k : Nat) (s : Scanner),
    (lexicalErrors (s.tokens k)).Pairwise fun e _ => e.fault ≠ .unterminatedString
  | 0, s => .nil
  | k + 1, s => by
    by_cases he : s.next.1.kind = .eof
    · rw [Scanner.tokens_eof he, lexicalErrors_cons, Token.error?_of_eof he]
      exact .nil
    · rw [Scanner.tokens_cons he, lexicalErrors_cons]
      cases herr : s.next.1.error? with
      | none => exact Scanner.unterminated_last k s.next.2
      | some e =>
        refine List.pairwise_cons.2 ⟨fun e' he' hf => ?_, Scanner.unterminated_last k s.next.2⟩
        rw [Scanner.lexicalErrors_of_rest (Scanner.rest_of_unterminated herr hf)] at he'
        cases he'

/-! ## The partition of a source -/

/-- A text and the tokens that it is cut into. -/
structure Partition (cs : List Char) (ts : List Token) : Prop where
  /-- The last token, and no other, is the end: empty and behind all characters. -/
  ends : ∃ (us : List Token) (e : Token), ts = us ++ [e] ∧
    (e.kind = .eof ∧ e.raw = "" ∧ e.span.start = cs.length ∧ e.span.stop = cs.length) ∧
    ∀ t ∈ us, t.kind ≠ .eof ∧ t.raw ≠ ""
  ordered : ts.Pairwise fun t u => t.span.stop ≤ u.span.start
  placed : ∀ t ∈ ts, t.span.LiesIn cs
  raw : ∀ t ∈ ts, t.raw.toList = (cs.drop t.span.start.toNat).take (t.span.stop.toNat - t.span.start.toNat)
  blank : ∀ (k : Nat) (hk : k < cs.length), (∀ t ∈ ts, ¬ (t.span.start ≤ k ∧ (k : Int) < t.span.stop)) →
    Text.isBlank cs[k] = true
  joined : ∃ gaps : List (List Char), gaps.length = ts.length ∧ (∀ g ∈ gaps, ∀ c ∈ g, Text.isBlank c = true) ∧
    (List.zipWith (fun g t => g ++ t.raw.toList) gaps ts).flatten = cs

theorem tokenize_ends_empty (file source : String) : ∃ (us : List Token) (e : Token), tokenize file source = us ++ [e] ∧
    (e.kind = .eof ∧ e.raw = "" ∧ e.span.start = source.toList.length ∧ e.span.stop = source.toList.length) ∧
    ∀ t ∈ us, t.kind ≠ .eof ∧ t.raw ≠ "" := by
  obtain ⟨us, e, ht, he, hwf, -⟩ := tokenize_ordered file source
  have hek : e.kind = .eof := congrArg Lexeme.kind he
  obtain ⟨i, j, hcover, heof⟩ := tokenize_covers (t := e) (by rw [ht]; simp)
  obtain rfl := heof hek
  obtain rfl : j = source.toList.length := Nat.le_antisymm hcover.le_length hcover.le
  refine ⟨us, e, ht, ⟨hek, congrArg Lexeme.raw he, hcover.start, hcover.stop⟩, fun t htm => ⟨(hwf t htm).notEof, ?_⟩⟩
  obtain ⟨i, j, hcover, -⟩ := tokenize_covers (t := t) (by rw [ht]; exact List.mem_append_left _ htm)
  have hlt := (hwf t htm).nonempty
  have hle := hcover.le_length
  rw [hcover.start, hcover.stop] at hlt
  intro hr
  have hlen := congrArg List.length hcover.raw
  rw [hr, List.length_take, List.length_drop] at hlen
  have : "".toList.length = 0 := rfl
  omega

/-- Every source is cut into tokens without a loss, each of them with its place; the errors that the scanner
has recorded behind them are those of the texts that are no tokens, in their order and at their places. -/
theorem tokenize_partition (file source : String) :
    Partition source.toList (tokenize file source) ∧
      ((Scanner.ofSource file source).past (tokenize file source).length).errors =
        lexicalErrors (tokenize file source) ∧
      (lexicalErrors (tokenize file source)).map LexicalError.span =
        ((tokenize file source).filter (·.kind = .illegal)).map Token.span := by
  have htiles := tokenize_tiles file source
  refine ⟨⟨tokenize_ends_empty file source, htiles.ordered, ?_, ?_, ?_, htiles.joined⟩, ?_, lexicalErrors_spans _⟩
  · intro t ht
    obtain ⟨i, j, hcover, -⟩ := tokenize_covers ht
    exact hcover.liesIn
  · intro t ht
    obtain ⟨i, j, hcover, -⟩ := tokenize_covers ht
    rw [hcover.start, hcover.stop, Int.toNat_natCast, Int.toNat_natCast]
    exact hcover.raw
  · exact fun k hk => htiles.blank k hk (Nat.zero_le k)
  · rw [tokenize_eq, Scanner.past_errors]
    rfl

end SemFront
