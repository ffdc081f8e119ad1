/-
Where tokens stand. Every token of a source covers the characters that are its text, and its span tells
where they are: the offsets of the first one and of the one behind the last, and the line and the column
of the first. The end of the input stands behind the last character.
-/
import SemFront.Proofs.Token.Scan

namespace SemFront

/-! ## Positions in a text -/

/-- The position behind the first `n` characters. -/
def Position.at (cs : List Char) (n : Nat) : Position := Position.after {} (cs.take n)

namespace Position

variable {cs : List Char} {n : Nat}

theorem at_offset (h : n ≤ cs.length) : (Position.at cs n).offset = n := by
  unfold Position.at
  rw [after_offset, List.length_take, Nat.min_eq_left h]
  exact Nat.zero_add n

theorem after_at (k : Nat) : (Position.at cs n).after ((cs.drop n).take k) = .at cs (n + k) := by
  unfold Position.at Position.after
  rw [List.take_add, List.foldl_append]

end Position

/-! ## Tokens -/

/-- A token whose text is that from offset `i` to offset `j`, and whose span says so. -/
structure Token.Covers (cs : List Char) (t : Token) (i j : Nat) : Prop where
  le : i ≤ j
  le_length : j ≤ cs.length
  raw : t.raw.toList = (cs.drop i).take (j - i)
  span : ∃ file, t.span = .between file (.at cs i) (.at cs j)

/-- A scanner that has read the first `n` characters of a text. -/
structure Scanner.Behind (cs : List Char) (s : Scanner) (n : Nat) : Prop where
  le : n ≤ cs.length
  rest : s.rest = cs.drop n
  position : s.position = .at cs n

namespace Scanner.Behind

variable {cs : List Char} {s : Scanner} {n k : Nat}

theorem pass (h : s.Behind cs n) (hk : k ≤ s.rest.length) : (s.pass k).Behind cs (n + k) where
  le := by
    rw [h.rest, List.length_drop] at hk
    have := h.le
    omega
  rest := by
    unfold Scanner.pass
    rw [h.rest, List.drop_drop]
  position := by
    unfold Scanner.pass
    rw [h.rest, h.position, Position.after_at]

theorem tokenOf (h : s.Behind cs n) (kind : Kind) (hk : k ≤ s.rest.length) :
    (s.tokenOf kind k).Covers cs n (n + k) where
  le := Nat.le_add_right n k
  le_length := (h.pass hk).le
  raw := by
    unfold Scanner.tokenOf
    dsimp only
    rw [String.toList_ofList, h.rest, Nat.add_sub_cancel_left]
  span := ⟨s.file, by
    unfold Scanner.tokenOf
    dsimp only
    rw [h.rest, h.position, Position.after_at]⟩

/-- The next token covers what the scanner then has read, behind white space; only at the end of the text it
is the end. -/
theorem next (h : s.Behind cs n) : ∃ i j, n ≤ i ∧ (∀ c ∈ (cs.drop n).take (i - n), Text.isBlank c = true) ∧
    s.next.1.Covers cs i j ∧ s.next.2.Behind cs j ∧ (s.next.1.kind = .eof → i = cs.length) := by
  have hs : s.skipBlanks.Behind cs (n + (s.rest.takeWhile Text.isBlank).length) :=
    h.pass (List.takeWhile_prefix _).length_le
  have hblank : ∀ c ∈ (cs.drop n).take (s.rest.takeWhile Text.isBlank).length, Text.isBlank c = true := by
    rw [← h.rest, ← List.prefix_iff_eq_take.1 (List.takeWhile_prefix _)]
    exact List.all_eq_true.1 List.all_takeWhile
  unfold Scanner.next
  generalize s.skipBlanks = s' at hs ⊢
  generalize (s.rest.takeWhile Text.isBlank).length = m at hs hblank ⊢
  rw [← Nat.add_sub_cancel_left n m] at hblank
  dsimp only
  split
  · rename_i hr
    have hend : cs.length ≤ n + m := List.drop_eq_nil_iff.1 (hs.rest.symm.trans hr)
    exact ⟨n + m, n + m, Nat.le_add_right n m, hblank, hs.tokenOf .eof (Nat.zero_le _), hs,
      fun _ => Nat.le_antisymm hs.le hend⟩
  · rename_i c cs' hr
    have hfit := first_fits c cs'
    have hle : (Munch.first c cs').length ≤ s'.rest.length := by rw [hr]; exact hfit.le
    have hpass := hs.pass hle
    exact ⟨n + m, _, Nat.le_add_right n m, hblank, hs.tokenOf _ hle, ⟨hpass.le, hpass.rest, hpass.position⟩,
      fun he => absurd he hfit.kind⟩

end Scanner.Behind

/-- The tokens of a text cover its characters, and the end stands behind all of them. -/
theorem Scanner.tokens_cover {cs : List Char} : ∀ (k : Nat) (s : Scanner) (n : Nat), s.Behind cs n →
    ∀ t ∈ s.tokens k, ∃ i j, t.Covers cs i j ∧ (t.kind = .eof → i = cs.length)
  | 0, _, _, _, t, ht => by cases ht
  | k + 1, s, n, h, t, ht => by
    obtain ⟨i, j, -, -, hcover, hbehind, heof⟩ := h.next
    unfold Scanner.tokens at ht
    dsimp only at ht
    split at ht
    · obtain rfl := List.mem_singleton.1 ht
      exact ⟨i, j, hcover, heof⟩
    · rcases List.mem_cons.1 ht with rfl | ht
      · exact ⟨i, j, hcover, heof⟩
      · exact Scanner.tokens_cover k s.next.2 j hbehind t ht

theorem tokenize_covers {file source : String} {t : Token} (ht : t ∈ tokenize file source) :
    ∃ i j, t.Covers source.toList i j ∧ (t.kind = .eof → i = source.toList.length) :=
  Scanner.tokens_cover _ _ 0 ⟨Nat.zero_le _, rfl, rfl⟩ t ht

/-! ## Spans of tokens -/

/-- The span from where one starts to where another one stops. -/
def Span.upTo (s t : Span) : Span := { s with stop := t.stop }

namespace Token.Covers

variable {cs : List Char} {t : Token} {i j : Nat}

theorem start (h : t.Covers cs i j) : t.span.start = i := by
  obtain ⟨file, hs⟩ := h.span
  rw [hs]
  exact congrArg Int.ofNat (Position.at_offset (Nat.le_trans h.le h.le_length))

theorem stop (h : t.Covers cs i j) : t.span.stop = j := by
  obtain ⟨file, hs⟩ := h.span
  rw [hs]
  exact congrArg Int.ofNat (Position.at_offset h.le_length)

end Token.Covers

/-- No token stands behind the end of the input. -/
theorem tokenize_ends {file source : String} {ts : List Token} {e : Token} (h : tokenize file source = ts ++ [e])
    (he : e.kind = .eof) : ∀ t ∈ ts, t.span.stop ≤ e.span.start := by
  intro t ht
  obtain ⟨i, j, hcover, -⟩ := tokenize_covers (t := t) (by rw [h]; exact List.mem_append_left _ ht)
  obtain ⟨i', j', hcover', heof⟩ := tokenize_covers (t := e) (by rw [h]; simp)
  rw [hcover.stop, hcover'.start, heof he]
  exact Int.ofNat_le.2 hcover.le_length

/-! ## Files -/

theorem Scanner.next_file (s : Scanner) : s.next.1.span.file = s.file ∧ s.next.2.file = s.file := by
  unfold Scanner.next
  dsimp only
  split <;> exact ⟨rfl, rfl⟩

theorem Scanner.tokens_file : ∀ (k : Nat) (s : Scanner), ∀ t ∈ s.tokens k, t.span.file = s.file
  | 0, _, _, ht => by cases ht
  | k + 1, s, t, ht => by
    by_cases he : s.next.1.kind = .eof
    · rw [Scanner.tokens_eof he] at ht
      obtain rfl := List.mem_singleton.1 ht
      exact s.next_file.1
    · rw [Scanner.tokens_cons he] at ht
      rcases List.mem_cons.1 ht with rfl | ht
      · exact s.next_file.1
      · exact (Scanner.tokens_file k s.next.2 t ht).trans s.next_file.2

theorem tokenize_file {file source : String} {t : Token} (ht : t ∈ tokenize file source) : t.span.file = file :=
  Scanner.tokens_file _ { Scanner.ofText source with file } t ht

end SemFront
