/-
Windows and readers show the same tokens. A window fetches tokens from a scanner when they are asked for, and
a reader has all of them from the start. Whatever looks ahead and moves come one after another, both stand
as many tokens behind the first one as they were moved on, over the tokens of the language with the end of the
input repeated for ever. A look ahead changes nothing of what is shown later, and the errors that the
scanner of the window has met are those within the reach of the reader.
-/
import SemFront.Grammar.Window
import SemFront.Proofs.Grammar.Reading
import SemFront.Proofs.Token.Partition

namespace SemFront

namespace Scanner

/-! ## All tokens of a scanner -/

section All

variable {s : Scanner}

theorem next_rest_lt (h : s.next.1.kind ≠ .eof) : s.next.2.rest.length < s.rest.length := by
  obtain ⟨-, hl⟩ | ⟨c, cs, hd, -, -, hr, -⟩ := s.next_cases
  · exact absurd (congrArg Lexeme.kind hl) h
  · exact rest_lt hd hr

/-- A budget for all that is left makes no difference. -/
theorem tokens_budget : ∀ (n m : Nat) (s : Scanner), s.rest.length < n → s.rest.length < m → s.tokens n = s.tokens m
  | 0, _, _, hn, _ => absurd hn (Nat.not_lt_zero _)
  | _ + 1, 0, _, _, hm => absurd hm (Nat.not_lt_zero _)
  | n + 1, m + 1, s, hn, hm => by
    by_cases he : s.next.1.kind = .eof
    · rw [tokens_eof he, tokens_eof he]
    · have hlt := next_rest_lt he
      rw [tokens_cons he, tokens_cons he, tokens_budget n m _ (by omega) (by omega)]

/-- All tokens that are left. -/
def all (s : Scanner) : List Token := s.tokens (s.rest.length + 1)

theorem all_eof (h : s.next.1.kind = .eof) : s.all = [s.next.1] := tokens_eof h _

theorem all_cons (h : s.next.1.kind ≠ .eof) : s.all = s.next.1 :: s.next.2.all := by
  unfold all
  rw [tokens_cons h, tokens_budget _ _ _ (next_rest_lt h) (Nat.lt_succ_self _)]

theorem skipBlanks_of_nil (h : s.rest = []) : s.skipBlanks = s := by
  unfold skipBlanks pass
  rw [h]
  obtain ⟨rest, position, file, errors⟩ := s
  cases h
  rfl

theorem next_of_nil (h : s.skipBlanks.rest = []) : s.next = (s.skipBlanks.tokenOf .eof 0, s.skipBlanks) := by
  unfold next
  dsimp only
  rw [h]

/-- At the end of the input a scanner stays where it is. -/
theorem next_eof (h : s.next.1.kind = .eof) : s.next.2.next = s.next := by
  have hrest : s.skipBlanks.rest = [] := by
    rw [skipBlanks_rest]
    obtain ⟨hd, -⟩ | ⟨c, cs, -, -, hl, -⟩ := s.next_cases
    · exact hd
    · exact absurd ((congrArg Lexeme.kind hl).symm.trans h) (first_fits c cs).kind
  have hskip := skipBlanks_of_nil hrest
  rw [next_of_nil hrest, next_of_nil (by rw [hskip]; exact hrest), hskip]

end All

/-! ## Fetching -/

/-- What a scanner gives and becomes when the next token of the language is fetched: the texts in front of it that
are no tokens are dropped, and their errors are recorded. -/
structure Fetches (s : Scanner) (t : Token) (s' : Scanner) : Prop where
  legal : t.kind ≠ .illegal
  ends : t.kind = .eof → s'.next = (t, s')
  split : ∃ dropped, (∀ u ∈ dropped, u.kind = .illegal) ∧
    s.all = dropped ++ t :: (if t.kind = .eof then [] else s'.all) ∧ s'.errors = s.errors ++ lexicalErrors dropped

theorem fetches_next {s : Scanner} (h : s.next.1.kind ≠ .illegal) : s.Fetches s.next.1 s.next.2 where
  legal := h
  ends he := next_eof he
  split := by
    refine ⟨[], by simp, ?_, ?_⟩
    · split
      · rename_i he
        exact all_eof he
      · rename_i he
        exact all_cons he
    · rw [next_errors, Token.error?_of_legal h]
      rfl

theorem fetches_fetchWithin : ∀ (budget : Nat) (s : Scanner), s.rest.length ≤ budget →
    s.Fetches (s.fetchWithin budget).1 (s.fetchWithin budget).2
  | 0, s, h => by
    have he : s.next.1.kind = .eof := by
      by_contra he
      have := next_rest_lt he
      omega
    exact fetches_next (he.trans_ne (by decide))
  | budget + 1, s, h => by
    unfold fetchWithin
    split
    · rename_i hi
      have hne : s.next.1.kind ≠ .eof := hi.trans_ne (by decide)
      have hlt := next_rest_lt hne
      obtain ⟨hlegal, hends, dropped, hdropped, hall, herr⟩ := fetches_fetchWithin budget s.next.2 (by omega)
      refine ⟨hlegal, hends, s.next.1 :: dropped, List.forall_mem_cons.2 ⟨hi, hdropped⟩, ?_, ?_⟩
      · rw [all_cons hne, hall]
        rfl
      · rw [herr, next_errors, lexicalErrors_cons, List.append_assoc]
    · rename_i hi
      exact fetches_next hi

theorem fetches_fetch (s : Scanner) : s.Fetches s.fetch.1 s.fetch.2 := fetches_fetchWithin _ s (Nat.le_refl _)

theorem fetch_eof {s : Scanner} (h : s.fetch.1.kind = .eof) : s.fetch.2.fetch = s.fetch := by
  have hnext := (fetches_fetch s).ends h
  generalize s.fetch = x at h hnext ⊢
  obtain ⟨t, s'⟩ := x
  unfold fetch
  cases s'.rest.length with
  | zero => exact hnext
  | succ n =>
    unfold fetchWithin
    rw [hnext, if_neg (by rw [h]; decide)]

/-- The scanner behind the next `n` tokens of the language. -/
def fetched : (n : Nat) → Scanner → Scanner
  | 0, s => s
  | n + 1, s => fetched n s.fetch.2

theorem fetched_succ : ∀ (n : Nat) (s : Scanner), s.fetched (n + 1) = (s.fetched n).fetch.2
  | 0, _ => rfl
  | n + 1, s => fetched_succ n s.fetch.2

/-- The `n`-th token of the language that is fetched. -/
def token (s : Scanner) (n : Nat) : Token := (s.fetched n).fetch.1

/-- From the end of the input on nothing changes. -/
theorem fetched_of_eof {s : Scanner} {n : Nat} (h : (s.token n).kind = .eof) (k : Nat) :
    s.fetched (n + 1 + k) = s.fetched (n + 1) ∧ s.token (n + k) = s.token n := by
  induction k with
  | zero => exact ⟨rfl, rfl⟩
  | succ k ih =>
    have hstay : (s.fetched (n + 1)).fetch = (s.fetched n).fetch := by
      rw [fetched_succ]
      exact fetch_eof h
    constructor
    · rw [← Nat.add_assoc, fetched_succ, ih.1, hstay, fetched_succ]
    · have hk : n + (k + 1) = n + 1 + k := by omega
      unfold token
      rw [hk, ih.1, hstay]

end Scanner

/-! ## What is fetched -/

/-- The tokens of a list, the last one for ever. -/
def endless (ts : List Token) (k : Nat) : Token := ts.getD (min k (ts.length - 1)) default

theorem endless_cons {t : Token} {ts : List Token} (h : ts ≠ []) (k : Nat) :
    endless (t :: ts) (k + 1) = endless ts k := by
  have hpos := List.length_pos_iff.2 h
  unfold endless
  rw [List.length_cons, show min (k + 1) (ts.length + 1 - 1) = min k (ts.length - 1) + 1 by omega]
  rfl

/-- What a reader on some tokens in front of the end sees. -/
theorem headD_drop_eq_endless (ts : List Token) (e : Token) (k : Nat) :
    (ts.drop k).headD e = endless (ts ++ [e]) k := by
  unfold endless
  rw [List.headD_eq_head?_getD, List.head?_drop, List.getD_eq_getElem?_getD, List.length_append,
    List.length_singleton, Nat.add_sub_cancel]
  by_cases hk : k < ts.length
  · rw [Nat.min_eq_left (Nat.le_of_lt hk), List.getElem?_append_left hk, List.getElem?_eq_getElem hk]
    rfl
  · rw [Nat.min_eq_right (Nat.le_of_not_lt hk), List.getElem?_eq_none (Nat.le_of_not_lt hk),
      List.getElem?_concat_length]
    rfl

namespace Scanner

/-- The tokens of the language are fetched in their order, and behind them the end for ever. -/
theorem token_eq_endless : ∀ (k : Nat) (s : Scanner), s.token k = endless (s.all.filter (·.kind ≠ .illegal)) k := by
  -- the tokens of the language that are left, from the one that is fetched on
  have hlegal : ∀ s : Scanner, s.all.filter (·.kind ≠ .illegal) =
      s.fetch.1 :: (if s.fetch.1.kind = .eof then [] else s.fetch.2.all.filter (·.kind ≠ .illegal)) := by
    intro s
    obtain ⟨hl, -, dropped, hdropped, hall, -⟩ := fetches_fetch s
    have hnone : dropped.filter (·.kind ≠ .illegal) = [] := by
      rw [List.filter_eq_nil_iff]
      exact fun u hu => by simpa using hdropped u hu
    rw [hall, List.filter_append, hnone, List.filter_cons_of_pos (by simpa using hl), List.nil_append]
    split <;> rfl
  intro k
  induction k with
  | zero =>
    intro s
    rw [hlegal s]
    exact rfl
  | succ k ih =>
    intro s
    have hnext : s.token (k + 1) = s.fetch.2.token k := rfl
    rw [hnext, ih, hlegal s]
    split
    · rename_i he
      have hstay := fetch_eof he
      rw [hlegal, hstay, if_pos he]
      unfold endless
      simp
    · rw [endless_cons (by rw [hlegal]; exact List.cons_ne_nil _ _)]

theorem faultsWithin_append {dropped ts : List Token} (h : ∀ u ∈ dropped, u.kind = .illegal) (n : Nat) :
    faultsWithin (n + 1) (dropped ++ ts) = dropped.length + faultsWithin (n + 1) ts := by
  induction dropped with
  | nil => exact (Nat.zero_add _).symm
  | cons u us ih =>
    obtain ⟨hu, hus⟩ := List.forall_mem_cons.1 h
    rw [List.cons_append, faultsWithin, if_pos hu, ih hus, List.length_cons]
    omega

theorem length_lexicalErrors {dropped : List Token} (h : ∀ u ∈ dropped, u.kind = .illegal) :
    (lexicalErrors dropped).length = dropped.length := by
  have hspans := congrArg List.length (lexicalErrors_spans dropped)
  rwa [List.length_map, List.length_map, List.filter_eq_self.2 fun u hu => by simpa using h u hu] at hspans

/-- The errors met on the way to `n` tokens of the language. -/
theorem fetched_errors : ∀ (n : Nat) (s : Scanner),
    (s.fetched n).errors = s.errors ++ (lexicalErrors s.all).take (faultsWithin n s.all)
  | 0, s => by simp [fetched, faultsWithin]
  | n + 1, s => by
    obtain ⟨hl, hends, dropped, hdropped, hall, herr⟩ := fetches_fetch s
    have hfaults : faultsWithin (n + 1) s.all =
        dropped.length + faultsWithin n (if s.fetch.1.kind = .eof then [] else s.fetch.2.all) := by
      rw [hall, faultsWithin_append hdropped, faultsWithin, if_neg hl]
    have herrors : lexicalErrors s.all =
        lexicalErrors dropped ++ lexicalErrors (if s.fetch.1.kind = .eof then [] else s.fetch.2.all) := by
      rw [hall, lexicalErrors, List.filterMap_append]
      exact congrArg _ ((lexicalErrors_cons _ _).trans (by rw [Token.error?_of_legal hl]; rfl))
    have hrest : (lexicalErrors s.fetch.2.all).take (faultsWithin n s.fetch.2.all) =
        (lexicalErrors (if s.fetch.1.kind = .eof then [] else s.fetch.2.all)).take
          (faultsWithin n (if s.fetch.1.kind = .eof then [] else s.fetch.2.all)) := by
      split
      · rename_i he
        have hnext := congrArg Prod.fst (hends he)
        rw [all_eof (hnext ▸ he), hnext, lexicalErrors_cons, Token.error?_of_eof he]
        simp [lexicalErrors]
      · rfl
    rw [hfaults, herrors, ← length_lexicalErrors hdropped, List.take_length_add_append, ← hrest,
      ← List.append_assoc, ← herr]
    exact fetched_errors n s.fetch.2

end Scanner

/-! ## Windows -/

namespace Window

variable {s : Scanner} {w : Window} {k : Nat}

/-- A window on the tokens of `s` that was moved on to the `k`-th one. -/
structure Shows (s : Scanner) (w : Window) (k : Nat) : Prop where
  current : w.current = s.token k
  tokens : w.peek :: w.waiting = (List.range' (k + 1) (w.waiting.length + 1)).map s.token
  scanner : w.scanner = s.fetched (k + 2 + w.waiting.length)

theorem Shows.peek (h : Shows s w k) : w.peek = s.token (k + 1) := (List.cons.inj h.tokens).1

theorem Shows.advance (h : Shows s w k) : Shows s w.advance (k + 1) := by
  have hpeek := h.peek
  have htokens := h.tokens
  have hscanner := h.scanner
  unfold Window.advance
  cases hw : w.waiting with
  | nil =>
    rw [hw] at hscanner
    refine ⟨hpeek, ?_, ?_⟩
    · rw [hscanner]
      rfl
    · rw [hscanner, ← Scanner.fetched_succ]
      rfl
  | cons t ts =>
    rw [hw] at htokens hscanner
    refine ⟨hpeek, (List.cons.inj htokens).2, ?_⟩
    dsimp only
    rw [hscanner, List.length_cons]
    congr 1
    omega

theorem shows_ofSource (file source : String) : Shows (Scanner.ofSource file source) (.ofSource file source) 0 :=
  ⟨rfl, rfl, rfl⟩

theorem Shows.fetchOne (h : Shows s w k) : Shows s w.fetchOne k := by
  obtain ⟨hcurrent, htokens, hscanner⟩ := h
  unfold Window.fetchOne
  refine ⟨hcurrent, ?_, ?_⟩
  · have hlast : k + 1 + (w.waiting.length + 1) = k + 2 + w.waiting.length := by omega
    rw [← List.cons_append, htokens, List.length_append, List.length_singleton,
      List.range'_1_concat (n := w.waiting.length + 1), List.map_append, List.map_singleton, hscanner, hlast]
    rfl
  · rw [hscanner, ← Scanner.fetched_succ, List.length_append, List.length_singleton]
    rfl

/-- Tokens wait until there are enough of them or the end of the input is among them. -/
theorem Shows.fill : ∀ (n : Nat) {w : Window}, Shows s w k → Shows s (w.fill n) k ∧
    ((w.fill n).waiting.length = w.waiting.length + n ∨
      (w.fill n).waiting.length ≤ w.waiting.length + n ∧ (s.token (k + 1 + (w.fill n).waiting.length)).kind = .eof)
  | 0, _, h => ⟨h, .inl rfl⟩
  | n + 1, w, h => by
    have hlen : w.fetchOne.waiting.length = w.waiting.length + 1 := by
      unfold Window.fetchOne
      rw [List.length_append, List.length_singleton]
    unfold Window.fill
    split
    · rename_i he
      refine ⟨h.fetchOne, .inr ⟨by omega, ?_⟩⟩
      rw [h.scanner] at he
      rw [hlen, show k + 1 + (w.waiting.length + 1) = k + 2 + w.waiting.length by omega]
      exact he
    · obtain ⟨hshows, hfilled⟩ := Shows.fill n h.fetchOne
      refine ⟨hshows, ?_⟩
      rw [hlen] at hfilled
      rcases hfilled with hfilled | ⟨hle, heof⟩
      · exact .inl (by omega)
      · exact .inr ⟨by omega, heof⟩

/-- A look ahead sees the token asked for and leaves the window where it is. -/
theorem Shows.ahead (h : Shows s w k) (n : Nat) :
    (w.ahead n).1 = s.token (k + 1 + n) ∧ Shows s (w.ahead n).2 k := by
  obtain ⟨hshows, hfilled⟩ := h.fill (n - w.waiting.length)
  refine ⟨?_, hshows⟩
  unfold Window.ahead
  dsimp only
  generalize w.fill (n - w.waiting.length) = v at hshows hfilled ⊢
  have hget : ∀ i ≤ v.waiting.length, (v.peek :: v.waiting).getD i v.peek = s.token (k + 1 + i) := by
    intro i hi
    rw [hshows.tokens, List.getD_eq_getElem?_getD, List.getElem?_map, List.getElem?_range' (by omega)]
    simp
  rw [hget _ (Nat.min_le_right _ _)]
  by_cases hn : n ≤ v.waiting.length
  · rw [Nat.min_eq_left hn]
  · -- the end of the input came before the token asked for, and stands for it
    obtain ⟨-, heof⟩ := hfilled.resolve_left (by omega)
    have hmore := (Scanner.fetched_of_eof heof (n - v.waiting.length)).2
    rw [Nat.min_eq_right (by omega), ← hmore]
    congr 1
    omega

end Window

/-! ## Moves -/

/-- What can be done with a window or a reader: moving on, or looking `n` places behind the next token. -/
inductive Move where
  | advance
  | look (n : Nat)
deriving DecidableEq

def Window.move (w : Window) : Move → Window
  | .advance => w.advance
  | .look n => (w.ahead n).2

def Reader.move (r : Reader) : Move → Reader
  | .advance => r.advance
  | .look n => r.look n

/-- What a window shows: the current token, the next one, and those that a look ahead sees. -/
def Window.view (w : Window) : Token × Token × (Nat → Token) := (w.current, w.peek, fun n => (w.ahead n).1)

def Reader.view (r : Reader) : Token × Token × (Nat → Token) := (r.current, r.peek, r.ahead)

theorem Window.Shows.view {s : Scanner} {w : Window} {k : Nat} (h : Shows s w k) :
    w.view = (s.token k, s.token (k + 1), fun n => s.token (k + 1 + n)) := by
  unfold Window.view
  rw [h.current, h.peek]
  congr 2
  funext n
  exact (h.ahead n).1

/-- A window and a reader that both stand on the `k`-th token behind where they started, and have met the same part
of the source: as many tokens, or the end of the input. -/
structure SideBySide (s : Scanner) (start : Reader) (w : Window) (r : Reader) (k : Nat) : Prop where
  shows : w.Shows s k
  rest : r.rest = start.rest.drop k
  eof : r.eof = start.eof
  taken : r.taken = k
  reach : r.reach = k + 2 + w.waiting.length ∨
    k + 2 + w.waiting.length ≤ r.reach ∧ (s.token (k + 1 + w.waiting.length)).kind = .eof

namespace SideBySide

variable {s : Scanner} {start : Reader} {w : Window} {r : Reader} {k : Nat}

theorem advance (h : SideBySide s start w r k) : SideBySide s start w.advance r.advance (k + 1) := by
  have hreach := h.reach
  refine ⟨h.shows.advance, ?_, h.eof, congrArg (· + 1) h.taken, ?_⟩
  · unfold Reader.advance
    rw [h.rest, List.tail_drop]
  · unfold Window.advance Reader.advance
    dsimp only
    rw [h.taken]
    cases hw : w.waiting with
    | cons t ts =>
      -- a token that was waiting is no new one
      rw [hw, List.length_cons] at hreach
      rw [show k + 1 + 1 + ts.length = k + 1 + (ts.length + 1) by omega]
      rcases hreach with hreach | ⟨hle, heof⟩
      · exact .inl (by dsimp only; omega)
      · exact .inr ⟨by dsimp only; omega, heof⟩
    | nil =>
      rw [hw, List.length_nil] at hreach
      dsimp only
      rw [List.length_nil]
      rcases hreach with hreach | ⟨hle, heof⟩
      · exact .inl (by omega)
      · refine .inr ⟨by omega, ?_⟩
        have hmore := (Scanner.fetched_of_eof heof 1).2
        rw [show k + 1 + 1 + 0 = k + 1 + 0 + 1 by omega, hmore]
        exact heof

theorem look (h : SideBySide s start w r k) (n : Nat) : SideBySide s start (w.ahead n).2 (r.look n) k := by
  have hreach := h.reach
  obtain ⟨-, hfilled⟩ := h.shows.fill (n - w.waiting.length)
  refine ⟨(h.shows.ahead n).2, h.rest, h.eof, h.taken, ?_⟩
  unfold Window.ahead Reader.look
  dsimp only
  rw [h.taken]
  generalize w.fill (n - w.waiting.length) = v at hfilled ⊢
  rcases hfilled with hfilled | ⟨hle, heof⟩
  · rcases hreach with hreach | ⟨hle, heof⟩
    · exact .inl (by omega)
    · refine .inr ⟨by omega, ?_⟩
      have hmore := (Scanner.fetched_of_eof heof (n - w.waiting.length)).2
      rw [hfilled, ← Nat.add_assoc, hmore]
      exact heof
  · exact .inr ⟨by omega, heof⟩

theorem move (h : SideBySide s start w r k) (m : Move) :
    SideBySide s start (w.move m) (r.move m) (k + [m].count .advance) := by
  cases m with
  | advance => exact h.advance
  | look n => exact h.look n

theorem moves : ∀ (ms : List Move) {w : Window} {r : Reader} {k : Nat}, SideBySide s start w r k →
    SideBySide s start (ms.foldl Window.move w) (ms.foldl Reader.move r) (k + ms.count .advance)
  | [], _, _, _, h => h
  | m :: ms, w, r, k, h => by
    have hrest := moves ms (h.move m)
    rwa [Nat.add_assoc, ← List.count_append] at hrest

theorem ofSource (file source : String) (limit : Nat) : SideBySide (.ofSource file source) (.ofSource file source limit)
    (.ofSource file source) (.ofSource file source limit) 0 :=
  ⟨Window.shows_ofSource file source, rfl, rfl, rfl, .inl rfl⟩

/-- The scanner of the window has met the errors within the reach of the reader. -/
theorem errors (h : SideBySide s start w r k) :
    w.scanner.errors = s.errors ++ (lexicalErrors s.all).take (faultsWithin r.reach s.all) := by
  rw [← Scanner.fetched_errors, h.shows.scanner]
  rcases h.reach with hreach | ⟨hle, heof⟩
  · rw [hreach]
  · have hstay := (Scanner.fetched_of_eof heof (r.reach - (k + 2 + w.waiting.length))).1
    rw [show k + 1 + w.waiting.length + 1 = k + 2 + w.waiting.length by omega, Nat.add_sub_cancel' hle] at hstay
    rw [hstay]

/-- What the reader shows is what stands behind the tokens that it has passed. -/
theorem view (h : SideBySide s start w r k) :
    let stream := endless (start.rest ++ [start.eof])
    r.view = (stream k, stream (k + 1), fun n => stream (k + 1 + n)) := by
  intro stream
  have hahead : ∀ n, r.ahead n = stream (k + 1 + n) := by
    intro n
    unfold Reader.ahead
    rw [h.rest, h.eof, List.drop_drop, headD_drop_eq_endless, Nat.add_comm n 1, Nat.add_assoc]
  have hcurrent : r.current = stream k := by
    unfold Reader.current
    rw [h.rest, h.eof, headD_drop_eq_endless]
  unfold Reader.view Reader.peek
  rw [hcurrent, hahead 0]
  congr 2
  funext n
  exact hahead n

end SideBySide

/-- A reader of a source starts with all its tokens of the language. -/
theorem Reader.ofSource_tokens (file source : String) (limit : Nat) :
    (tokenize file source).filter (·.kind ≠ .illegal) =
      (Reader.ofSource file source limit).rest ++ [(Reader.ofSource file source limit).eof] := by
  obtain ⟨ts, e, ht, he, hts, -⟩ := tokenize_ordered file source
  have hek : e.kind = .eof := congrArg Lexeme.kind he
  unfold Reader.ofSource
  rw [ht, Reader.ofTokens_eq limit hek hts, List.filter_append, List.filter_cons_of_pos (by simp [hek]),
    List.filter_nil]

/-- After any moves on from the start of a source, a window and a reader show the token behind as many others as
they were moved on, the next one, and for every look ahead the one that far behind it, the end of the input being
repeated for ever. What a look ahead fetches makes no difference to anything that is shown after further moves, and
the errors met are those within the reach of the reader. -/
theorem Window.view_moves (file source : String) (limit : Nat) (ms : List Move) :
    let tokens := tokenize file source
    let stream := endless (tokens.filter (·.kind ≠ .illegal))
    let w := ms.foldl Window.move (.ofSource file source)
    let r := ms.foldl Reader.move (.ofSource file source limit)
    let k := ms.count .advance
    w.view = (stream k, stream (k + 1), fun n => stream (k + 1 + n)) ∧ r.view = w.view ∧
      (∀ (n : Nat) (later : List Move), (later.foldl Window.move (w.ahead n).2).view = (later.foldl Window.move w).view) ∧
      w.scanner.errors = (lexicalErrors tokens).take (faultsWithin r.reach tokens) := by
  intro tokens stream w r k
  have h : SideBySide (.ofSource file source) (.ofSource file source limit) w r k := by
    have hmoves := (SideBySide.ofSource file source limit).moves ms
    rwa [Nat.zero_add] at hmoves
  have hstream : ∀ n, (Scanner.ofSource file source).token n = stream n := fun n => Scanner.token_eq_endless n _
  have hview : ∀ {v : Window} {j : Nat}, v.Shows (.ofSource file source) j →
      v.view = (stream j, stream (j + 1), fun n => stream (j + 1 + n)) := by
    intro v j hv
    simp only [hv.view, hstream]
  refine ⟨hview h.shows, ?_, ?_, ?_⟩
  · have hreader := h.view
    rw [← Reader.ofSource_tokens] at hreader
    exact hreader.trans (hview h.shows).symm
  · intro n later
    rw [hview ((h.look n).moves later).shows, hview (h.moves later).shows]
  · exact h.errors

end SemFront
