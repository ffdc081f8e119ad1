/-
Carets. Scanning counts lines and columns one character at a time, and showing a diagnostic cuts the
whole text at its line feeds; both mean the same line and the same place of it for every offset. So the
source line of a diagnostic is shown with a row of marks below it, and a caret stands in that row below
the character at which the diagnostic starts, whatever other parts of the line are marked.
-/
import Mathlib.Data.Prod.Lex
import SemFront.Diagnostic.Sources
import SemFront.Parsed.Basic
import SemFront.Proofs.Diagnostic.Row
import SemFront.Proofs.Grammar.Diagnostics
import SemFront.Proofs.Text.Lines

namespace SemFront

/-! ## Lines and offsets -/

/-- A span starts at the place of its line that its column tells. -/
theorem Span.LiesIn.addresses {text : String} {s : Span} (h : s.LiesIn text.toList) :
    ∃ (k n i : Nat) (line : List Char), s.start = k ∧ s.line = n + 1 ∧ s.column = i + 1 ∧
      Text.Addresses text k n i line := by
  obtain ⟨k, hk⟩ := Int.eq_ofNat_of_zero_le h.nonneg
  have hle : k ≤ text.toList.length := by
    have := h.start_le
    have := h.stop_le
    omega
  have hline := h.line
  have hcolumn := h.column
  rw [hk, Int.toNat_natCast] at hline hcolumn
  obtain ⟨hat, hlen⟩ := Text.splitOn_offset (a := '\n') (text.toList.take k) (text.toList.drop k)
  rw [List.take_append_drop] at hat hlen
  rw [List.length_take, Nat.min_eq_left hle] at hlen
  have hbehind : text.toList[k]? = (text.toList.drop k)[0]? := by rw [List.getElem?_drop, Nat.add_zero]
  generalize (text.toList.take k).reverse.takeWhile (· ≠ '\n') = left at hat hlen hcolumn
  refine ⟨k, _, _, _, hk, hline, hcolumn, hat, ?_, hlen.symm, ?_, ?_⟩
  · simp
  · intro hi
    rw [hbehind, List.getElem?_append_right (by simp), List.length_reverse, Nat.sub_self]
    rw [List.length_append, List.length_reverse] at hi
    cases hd : text.toList.drop k with
    | nil => simp [hd] at hi
    | cons c cs =>
      rw [hd, List.takeWhile_cons] at hi
      split at hi
      · rename_i hc
        rw [List.takeWhile_cons, if_pos hc]
        rfl
      · simp at hi
  · intro hi
    rw [List.length_append, List.length_reverse] at hi
    rw [hbehind]
    cases hd : text.toList.drop k with
    | nil =>
      have hend := List.drop_eq_nil_iff.1 hd
      exact .inr (by rw [← String.length_toList]; omega)
    | cons c cs =>
      rw [hd, List.takeWhile_cons] at hi
      split at hi
      · simp at hi
      · rename_i hc
        exact .inl (by simpa using hc)

/-! ## Rows of marks -/

namespace Underline

variable {row : List Char} {labels : List Label} {l : Label} {width i : Nat}

/-- There is a caret wherever a primary part is marked, the place behind the line included. -/
theorem row_caret (hl : l ∈ labels) (hstyle : l.style = .primary) (hplace : i ∈ places (width + 1) l.span) :
    (Underline.row width labels)[i]? = some '^' := by
  rw [getElem?_row (Nat.le_of_lt_succ (lt_of_mem_places hplace)), signAt, if_pos ⟨l, hl, hstyle, hplace⟩]

/-- Only blanks are cut off. -/
theorem trimmed_getElem? (h : row[i]? = some '^') : (trimmed row)[i]? = some '^' := by
  obtain ⟨⟨n, hrow⟩, -⟩ := trimmed_spec row
  rw [hrow] at h
  by_cases hi : i < (trimmed row).length
  · rwa [List.getElem?_append_left hi] at h
  · rw [List.getElem?_append_right (Nat.le_of_not_lt hi)] at h
    cases List.eq_of_mem_replicate (List.mem_of_getElem? h)

theorem text?_caret (hl : l ∈ labels) (hstyle : l.style = .primary) (hplace : i ∈ places (width + 1) l.span) :
    ∃ marks, text? width labels = some marks ∧ marks.toList[i]? = some '^' := by
  have hrow := trimmed_getElem? (row_caret hl hstyle hplace)
  unfold text?
  cases ht : trimmed (Underline.row width labels) with
  | nil => rw [ht] at hrow; cases hrow
  | cons c cs =>
    refine ⟨_, rfl, ?_⟩
    rw [ht] at hrow
    rw [String.toList_append, String.toList_ofList,
      List.getElem?_append_left (List.getElem?_eq_some_iff.1 hrow).1, hrow]

/-- A part is marked at the place where it starts, however little it covers. -/
theorem mem_places_start {s : Span} (hfits : Fits s) (hi : s.column = i + 1) (hinside : i ≤ width) :
    i ∈ places (width + 1) s := by
  refine (mem_places_of_fits hfits).2 ⟨Nat.lt_succ_of_le hinside, ?_⟩
  unfold Over
  omega

end Underline

/-! ## Machine integers -/

/-- The offsets in a text, its lines and columns and the line behind its last are machine integers, as they are
for every text that a machine can hold. -/
def Text.Fits (text : String) : Prop := Word.Holds (text.length + 2)

instance (text : String) : Decidable (Text.Fits text) := inferInstanceAs (Decidable (Word.Holds _))

namespace Span.OfTokens

variable {file source : String} {s : Span}

/-- A span of tokens starts in the source, and stops in it, though perhaps before its start. -/
theorem liesIn (h : s.OfTokens (tokenize file source)) : ∃ t u : Span, t.LiesIn source.toList ∧
    u.LiesIn source.toList ∧ s = t.upTo u := by
  obtain ⟨t, ht, u, hu, hs⟩ := h
  obtain ⟨_, _, hcover, -⟩ := tokenize_covers ht
  obtain ⟨_, _, hcover', -⟩ := tokenize_covers hu
  exact ⟨t.span, u.span, hcover.liesIn, hcover'.liesIn, hs⟩

/-- In a text that fits, so do its spans. -/
theorem fits (h : s.OfTokens (tokenize file source)) (hsource : Text.Fits source) : Underline.Fits s := by
  obtain ⟨t, u, ht, hu, rfl⟩ := h.liesIn
  obtain ⟨k, n, i, line, hk, -, hi, hat⟩ := ht.addresses
  have hoffset := hat.offset
  have hstart := ht.start_le
  have hstop := ht.stop_le
  have hstop' := hu.stop_le
  have hnonneg := hu.nonneg
  have hstart' := hu.start_le
  rw [String.length_toList] at hstop hstop'
  simp only [Text.Fits, Underline.Fits, Word.Holds, Span.upTo] at hsource ⊢
  omega

theorem holds_line (h : s.OfTokens (tokenize file source)) (hsource : Text.Fits source) :
    Word.Holds (s.line - 1) ∧ Word.Holds (s.line + 1) := by
  obtain ⟨t, u, ht, -, rfl⟩ := h.liesIn
  obtain ⟨k, n, i, line, -, hn, -, hat⟩ := ht.addresses
  have hlt := (List.getElem?_eq_some_iff.1 hat.isLine).1
  have hle := Text.length_lines_le source
  simp only [Text.Fits, Word.Holds, Span.upTo] at hsource ⊢
  omega

end Span.OfTokens

/-! ## Shown lines -/

/-- Line `n` of a source, counted from 0, is shown with its number, and below it a row with a caret at place
`i`. The number takes as many places as are left free in the row, so that the caret stands below place `i` of
the line. -/
def ShowsCaret (shown : String) (n i : Nat) (line : List Char) : Prop :=
  ∃ (above below marks : String) (width : Nat), shown = above ++ "\n" ++
      (" " ++ Text.padLeft width (toString (n + 1)) ++ " | " ++ String.ofList line ++ "\n") ++
      (" " ++ Text.padLeft width "" ++ " | " ++ marks ++ "\n") ++ below ∧
    (toString (n + 1)).length ≤ width ∧ marks.toList[i]? = some '^'

theorem length_toString_mono {m n : Nat} (h : m ≤ n) : (toString m).length ≤ (toString n).length := by
  have hn : n < 10 ^ n.repr.length := (Nat.length_repr_le_iff Nat.length_repr_pos).1 (Nat.le_refl _)
  exact (Nat.length_repr_le_iff Nat.length_repr_pos).2 (Nat.lt_of_le_of_lt h hn)

/-- A text that ends with the end of a row. -/
def EndsRow (s : String) : Prop := ∃ t, s = t ++ "\n"

theorem EndsRow.append {t : String} (h : EndsRow t) (s : String) : EndsRow (s ++ t) := by
  obtain ⟨u, rfl⟩ := h
  exact ⟨s ++ u, String.append_assoc.symm⟩

theorem EndsRow.join {s : String} {xs : List String} (hs : EndsRow s) (hxs : ∀ x ∈ xs, EndsRow x) :
    EndsRow (s ++ String.join xs) := by
  induction xs generalizing s with
  | nil => rwa [String.join_nil, String.append_empty]
  | cons x xs ih =>
    rw [String.join_cons, ← String.append_assoc]
    exact ih ((hxs x List.mem_cons_self).append s) fun y hy => hxs y (List.mem_cons_of_mem _ hy)

/-- Among rows below a row, one with a caret is shown as it is. -/
theorem ShowsCaret.of_mem {xs : List String} (hxs : ∀ x ∈ xs, EndsRow x) {n i width : Nat} {line : List Char}
    {marks : String} (hmem : " " ++ Text.padLeft width (toString (n + 1)) ++ " | " ++ String.ofList line ++ "\n" ++
      (" " ++ Text.padLeft width "" ++ " | " ++ marks ++ "\n") ∈ xs)
    (hwidth : (toString (n + 1)).length ≤ width) (hcaret : marks.toList[i]? = some '^') {top : String}
    (htop : EndsRow top) (bottom : String) : ShowsCaret (top ++ String.join xs ++ bottom) n i line := by
  obtain ⟨ys, zs, rfl⟩ := List.append_of_mem hmem
  obtain ⟨above, habove⟩ := htop.join fun y hy => hxs y (List.mem_append_left _ hy)
  refine ⟨above, String.join zs ++ bottom, marks, width, ?_, hwidth, hcaret⟩
  rw [← habove, String.join_append, String.join_cons]
  simp only [String.append_assoc]

namespace Diagnostic

/-- Labels are sorted by line and column. -/
theorem sortLabels_eq (ls : List Label) :
    sortLabels ls =
      stableSort (fun a b => toLex (a.span.line, a.span.column) < toLex (b.span.line, b.span.column)) ls := by
  unfold sortLabels
  congr 1
  funext a b
  simp only [Prod.Lex.toLex_lt_toLex]
  split <;> simp_all

theorem mem_sortLabels {l : Label} {ls : List Label} : l ∈ sortLabels ls ↔ l ∈ ls := by
  rw [sortLabels_eq, mem_stableSort fun l : Label => toLex (l.span.line, l.span.column)]

theorem sortLabels_ascending (ls : List Label) : (sortLabels ls).Pairwise fun a b => a.span.line ≤ b.span.line := by
  rw [sortLabels_eq]
  refine (stableSort_ascending (fun l : Label => toLex (l.span.line, l.span.column)) ls).imp fun h => ?_
  rw [Prod.Lex.toLex_le_toLex] at h
  omega

/-- In ascending order all labels are between the first and the last. -/
theorem line_between {labels : List Label} (h : labels.Pairwise fun a b => a.span.line ≤ b.span.line) {l : Label}
    (hl : l ∈ labels) : ∃ first ∈ labels, ∃ last ∈ labels, labels.head? = some first ∧ labels.getLast? = some last ∧
      first.span.line ≤ l.span.line ∧ l.span.line ≤ last.span.line := by
  have hne := List.ne_nil_of_mem hl
  refine ⟨labels.head hne, List.head_mem hne, labels.getLast hne, List.getLast_mem hne, List.head?_eq_some_head hne,
    List.getLast?_eq_some_getLast hne, ?_, ?_⟩
  · exact h.rel_head_of_rel_head_head hl (Int.le_refl _)
  · exact h.rel_getLast_of_rel_getLast_getLast hl (Int.le_refl _)

theorem endsRow_showLine (width number : Nat) (line : List Char) (labels : List Label) :
    EndsRow (showLine width number line labels) := by
  unfold showLine
  split
  · exact ⟨_, String.append_assoc.symm⟩
  · exact ⟨_, String.append_empty⟩

/-- A line with a primary part is shown with a caret below the place where the part starts. -/
theorem showLine_caret {n i : Nat} {line : List Char} {labels : List Label} {l : Label} (width : Nat) (hl : l ∈ labels)
    (hstyle : l.style = .primary) (hplace : i ∈ Underline.places (line.length + 1) l.span) : ∃ marks,
    showLine width (n + 1) line labels =
      (" " ++ Text.padLeft width (toString (n + 1)) ++ " | " ++ String.ofList line ++ "\n") ++
      (" " ++ Text.padLeft width "" ++ " | " ++ marks ++ "\n") ∧ marks.toList[i]? = some '^' := by
  obtain ⟨marks, hmarks, hcaret⟩ := Underline.text?_caret hl hstyle hplace
  refine ⟨marks, ?_, hcaret⟩
  unfold showLine
  rw [hmarks]

/-- Every label in the source has its line shown, since the lines from the first label to the last are. -/
theorem showLines_caret {file : String} {lines : List (List Char)} {labels : List Label} {line : List Char} {l : Label}
    {n i : Nat} (hsorted : labels.Pairwise fun a b => a.span.line ≤ b.span.line)
    (hholds : ∀ l ∈ labels, Word.Holds (l.span.line - 1) ∧ Word.Holds (l.span.line + 1)) (hl : l ∈ labels)
    (hstyle : l.style = .primary) (hn : l.span.line = n + 1) (hline : lines[n]? = some line)
    (hplace : i ∈ Underline.places (line.length + 1) l.span) : ShowsCaret (showLines file lines labels) n i line := by
  obtain ⟨first, hmem1, last, hmem2, hfirst, hlast, hle1, hle2⟩ := line_between hsorted hl
  have hlen : n < lines.length := (List.getElem?_eq_some_iff.1 hline).1
  have hsome : ¬ (labels.all fun l => l.span.line < 1 || (lines.length : Int) < l.span.line) = true := by
    intro hall
    have := List.all_eq_true.1 hall l hl
    simp only [Bool.or_eq_true, decide_eq_true_eq] at this
    omega
  unfold showLines
  simp only [hfirst, hlast, if_neg hsome, Word.wrap_of_holds (hholds first hmem1).1,
    Word.wrap_of_holds (hholds last hmem2).2]
  have htop : max 1 (first.span.line - 1) ≤ n + 1 ∧ 1 ≤ max 1 (first.span.line - 1) := by omega
  have hbottom : (n : Int) + 1 ≤ min (lines.length : Int) (last.span.line + 1) := by omega
  generalize max 1 (first.span.line - 1) = top at htop
  generalize min (lines.length : Int) (last.span.line + 1) = bottom at hbottom
  have hwidth : (toString (n + 1)).length ≤ (toString bottom).length := by
    obtain ⟨m, rfl⟩ := Int.eq_ofNat_of_zero_le (a := bottom) (by omega)
    exact length_toString_mono (by omega)
  generalize (toString bottom).length = width at hwidth
  have hnumber : n + 1 ∈ (List.range (bottom - top + 1).toNat).map fun i => top.toNat + i :=
    List.mem_map.2 ⟨n + 1 - top.toNat, List.mem_range.2 (by omega), by omega⟩
  have hhere : l ∈ labels.filter fun l => l.span.line = ((n + 1 : Nat) : Int) :=
    List.mem_filter.2 ⟨hl, decide_eq_true (by omega)⟩
  obtain ⟨marks, hmarks, hcaret⟩ := showLine_caret (n := n) width hhere hstyle hplace
  have hbar : EndsRow " |\n" := ⟨" |", rfl⟩
  refine .of_mem (List.forall_mem_map.2 fun n _ => endsRow_showLine width n _ _) ?_ hwidth hcaret
    ((hbar.append _).append _) _
  refine List.mem_map.2 ⟨n + 1, hnumber, ?_⟩
  rw [Nat.add_sub_cancel, List.getD_eq_getElem?_getD, hline]
  exact hmarks

end Diagnostic

theorem ShowsCaret.append {shown : String} {n i : Nat} {line : List Char} (h : ShowsCaret shown n i line)
    (top bottom : String) : ShowsCaret (top ++ shown ++ bottom) n i line := by
  obtain ⟨above, below, marks, width, rfl, hwidth, hcaret⟩ := h
  refine ⟨top ++ above, below ++ bottom, marks, width, ?_, hwidth, hcaret⟩
  simp only [String.append_assoc]

/-! ## Diagnostics of a source -/

namespace Diagnostic

/-- A diagnostic marks its own place as the main one. -/
def MarksOwn (d : Diagnostic) : Prop := ∃ l ∈ d.marked, l.span = d.span ∧ l.style = .primary

theorem marksOwn_of_unlabelled {d : Diagnostic} (hlabels : d.labels = []) (hplaced : d.span.isPlaced = true) :
    d.MarksOwn := by
  refine ⟨{ span := d.span }, ?_, rfl, rfl⟩
  unfold marked
  rw [if_neg (not_not.2 hlabels), if_pos hplaced]
  exact List.mem_singleton_self _

theorem mem_marked {d : Diagnostic} {l : Label} (hl : l ∈ d.marked) : l ∈ d.labels ∨ l.span = d.span := by
  unfold marked at hl
  split at hl
  · exact .inl hl
  · split at hl
    · exact .inr (by rw [List.mem_singleton.1 hl])
    · cases hl

end Diagnostic

theorem GrammarError.mem_labels {e : GrammarError} {l : Label} (hl : l ∈ e.labels) :
    l.span ∈ e.span :: e.related.map Prod.fst := by
  rcases List.mem_append.1 hl with hl | hl
  · have hspan : l.span = e.span := by
      split at hl
      · rw [List.mem_singleton.1 hl]
      · split at hl
        · rw [List.mem_singleton.1 hl]
        · cases hl
    exact hspan ▸ List.mem_cons_self
  · obtain ⟨r, hr, rfl⟩ := List.mem_map.1 hl
    exact List.mem_cons_of_mem _ (List.mem_map_of_mem hr)

/-- The first label of an error is about its own place. -/
theorem GrammarError.marksOwn {e : GrammarError} (hplaced : e.span.isPlaced = true) : e.toDiagnostic.MarksOwn := by
  by_cases h : e.labels = []
  · exact Diagnostic.marksOwn_of_unlabelled h hplaced
  · have hmarked : e.toDiagnostic.marked = e.labels := if_pos h
    unfold Diagnostic.MarksOwn
    rw [hmarked]
    unfold labels at h ⊢
    by_cases he : e.expected ≠ ""
    · exact ⟨_, List.mem_append_left _ (by rw [if_pos he]; exact List.mem_singleton_self _), rfl, rfl⟩
    · by_cases hr : e.related ≠ []
      · exact ⟨_, List.mem_append_left _ (by rw [if_neg he, if_pos hr]; exact List.mem_singleton_self _), rfl, rfl⟩
      · simp_all

theorem Diagnostic.displayIn_showsCaret {d : Diagnostic} {lines : List (List Char)} {n i : Nat} {line : List Char}
    (hmarks : d.MarksOwn) (hholds : ∀ l ∈ d.marked, Word.Holds (l.span.line - 1) ∧ Word.Holds (l.span.line + 1))
    (hn : d.span.line = n + 1) (hline : lines[n]? = some line)
    (hplace : i ∈ Underline.places (line.length + 1) d.span) : ShowsCaret (d.displayIn lines) n i line := by
  obtain ⟨l, hl, hspan, hstyle⟩ := hmarks
  obtain ⟨x, xs, hx⟩ := List.exists_cons_of_ne_nil (List.ne_nil_of_mem hl)
  unfold displayIn
  rw [hx] at hl hholds ⊢
  refine ShowsCaret.append ?_ _ _
  exact showLines_caret (sortLabels_ascending _) (fun l hl => hholds l (mem_sortLabels.1 hl)) (mem_sortLabels.2 hl)
    hstyle (hspan ▸ hn) hline (hspan ▸ hplace)

/-- Every diagnostic of a source is about tokens of it, and so are its labels. -/
theorem readProgram_ofTokens (file source : String) (limit : Nat) :
    ∀ d ∈ (readProgram file source limit).diagnostics, d.span.OfTokens (tokenize file source) ∧
      (∀ l ∈ d.labels, l.span.OfTokens (tokenize file source)) ∧ (d.span.isPlaced = true → d.MarksOwn) := by
  intro d hd
  rcases List.mem_append.1 ((readProgram_merges file source limit).perm.mem_iff.1 hd) with hd | hd
  · obtain ⟨e, he, rfl⟩ := List.mem_map.1 hd
    have hspan : e.span ∈ ((tokenize file source).filter (·.kind = .illegal)).map Token.span := by
      rw [← lexicalErrors_spans]
      exact List.mem_map_of_mem he
    obtain ⟨t, ht, hts⟩ := List.mem_map.1 hspan
    have ht := (List.mem_filter.1 ht).1
    exact ⟨⟨t, ht, t, ht, hts.symm⟩, fun _ hl => absurd hl List.not_mem_nil, Diagnostic.marksOwn_of_unlabelled rfl⟩
  · obtain ⟨e, he, rfl⟩ := List.mem_map.1 hd
    obtain ⟨q, hq, rfl⟩ := List.mem_map.1 he
    obtain ⟨r, hr, hqr⟩ := readProgram_problems q hq
    have hreport := (readProgram_reports file source limit r hr).1
    -- a problem that stands for others is at the place of a report, and related to nothing
    have hof : ∀ s ∈ q.error.span :: q.error.related.map Prod.fst, s.OfTokens (tokenize file source) := by
      intro s hs
      refine (hreport s ?_).mono List.filter_sublist.subset
      rcases hqr with rfl | ⟨-, rfl⟩
      · exact hs
      · exact List.mem_singleton.1 hs ▸ List.mem_cons_self
    refine ⟨hof _ List.mem_cons_self, fun l hl => hof _ (GrammarError.mem_labels hl), GrammarError.marksOwn⟩

/-- Whatever the options and the source, if its offsets are machine integers: a diagnostic is shown with the line
of the text in which it starts, and below that line is a row of marks whose caret is at the place of the line
that is the character at which the diagnostic starts, or one past the end of the line. If the text was read from
bytes, the same is shown when the bytes are cut into lines first and each line is read on its own. -/
theorem Sources.display_caret {o : ParseOptions} {path text : String} {s : Sources} {disk : Disk}
    (hfits : Text.Fits (Parsed.ofText o path text).text)
    (hs : s.load disk path = .ok (Parsed.ofText o path text).text) {d : Diagnostic}
    (hd : d ∈ (Parsed.ofText o path text).diagnostics) : ∃ (k n i : Nat) (line : List Char),
    d.span.start = k ∧ d.span.line = n + 1 ∧ d.span.column = i + 1 ∧
      Text.Addresses (Parsed.ofText o path text).text k n i line ∧ ShowsCaret (s.display disk d) n i line ∧
      ∀ bs, Text.Bytes.decode bs = (Parsed.ofText o path text).text →
        d.displayIn (Text.Bytes.lines bs) = s.display disk d := by
  simp only [Parsed.ofText] at hfits hs hd ⊢
  obtain ⟨hof, hlabels, hmarks⟩ := readProgram_ofTokens path (Parsed.textRead o text) o.limit d hd
  obtain ⟨t, u, ht, -, hspan⟩ := hof.liesIn
  obtain ⟨k, n, i, line, hk, hn, hi, hat⟩ := ht.addresses
  have hline : d.span.line = n + 1 := by rw [hspan]; exact hn
  have hcolumn : d.span.column = i + 1 := by rw [hspan]; exact hi
  have hplaced : d.span.isPlaced = true := by
    unfold Span.isPlaced
    rw [hline, hcolumn]
    simp
  have hfile : d.span.file = path := by
    obtain ⟨a, ha, b, -, hab⟩ := hof
    rw [hab]
    exact tokenize_file ha
  have hdisplay : s.display disk d = d.displayIn (Text.lines (Parsed.textRead o text)) := by
    unfold Sources.display
    rw [hfile, hs]
    rfl
  refine ⟨k, n, i, line, by rw [hspan]; exact hk, hline, hcolumn, hat, ?_, fun bs hbs => ?_⟩
  · rw [hdisplay]
    refine Diagnostic.displayIn_showsCaret (hmarks hplaced) (fun l hl => ?_) hline hat.isLine
      (Underline.mem_places_start (hof.fits hfits) hcolumn hat.inside)
    rcases Diagnostic.mem_marked hl with hl | hl
    · exact (hlabels l hl).holds_line hfits
    · exact hl ▸ hof.holds_line hfits
  · rw [hdisplay, ← hbs, Text.Bytes.lines_decode]

/-- A class that is not closed; its line breaks off within a character. -/
def unclosedBytes : List UInt8 :=
  ("class A \x7b ".toList.map fun c => c.toNat.toUInt8) ++ [0xE2, 0x82, 0x0A]

/-- The class as a text, with two characters for the bytes that cannot be read. -/
def unclosedClass : String := Text.Bytes.decode unclosedBytes

/-- The brace is missed at the end of the input, which is in a line of its own; the brace that was opened is
marked in the line above, in which the broken character is told as well. -/
theorem Sources.display_caret_unclosed : ∃ d ∈ (Parsed.ofText {} "a.sem" unclosedClass).diagnostics,
    d.span.start = 13 ∧ d.span.line = 2 ∧ d.span.column = 1 ∧ d.labels.map (·.span.line) = [2, 1] ∧
    ∃ line, Text.Addresses unclosedClass 13 1 0 line ∧
      ShowsCaret ((Sources.add {} "a.sem" unclosedClass).display ⟨fun _ => .error .missing⟩ d) 1 0 line ∧
      d.displayIn (Text.Bytes.lines unclosedBytes) =
        (Sources.add {} "a.sem" unclosedClass).display ⟨fun _ => .error .missing⟩ d := by
  have hall : (Parsed.ofText {} "a.sem" unclosedClass).diagnostics.map (fun d =>
      (d.span.start, d.span.line, d.span.column, d.labels.map (·.span.line))) =
      [(10, 1, 11, []), (11, 1, 12, []), (13, 2, 1, [2, 1])] := by
    decide +kernel
  have hlast : (13, 2, 1, [2, 1]) ∈ (Parsed.ofText {} "a.sem" unclosedClass).diagnostics.map (fun d =>
      (d.span.start, d.span.line, d.span.column, d.labels.map (·.span.line))) := by
    rw [hall]
    simp
  obtain ⟨d, hd, hplace⟩ := List.mem_map.1 hlast
  simp only [Prod.mk.injEq] at hplace
  obtain ⟨hstart, hline, hcolumn, hlabels⟩ := hplace
  have hfits : Text.Fits (Parsed.ofText {} "a.sem" unclosedClass).text := by decide +kernel
  have hs : (Sources.add {} "a.sem" unclosedClass).load ⟨fun _ => .error .missing⟩ "a.sem" =
    .ok (Parsed.ofText {} "a.sem" unclosedClass).text := rfl
  obtain ⟨k, n, i, line, hk, hn, hi, hat, hshows, hbytes⟩ := display_caret hfits hs hd
  obtain rfl : k = 13 := by omega
  obtain rfl : n = 1 := by omega
  obtain rfl : i = 0 := by omega
  exact ⟨d, hd, hstart, hline, hcolumn, hlabels, line, hat, hshows, hbytes unclosedBytes rfl⟩

end SemFront
