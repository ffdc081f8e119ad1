/-
Rows of marks in closed form. Primary parts are marked before secondary ones, each kind over whatever it
finds or around it; what comes out at a place depends only on which parts are marked there, so neither the
order of the labels nor what a part covers outside of the row has any influence. Where no sum of columns and
offsets leaves the machine integers, a part is marked at the places over which it lies.
-/
import Mathlib.Data.List.TakeWhile
import SemFront.Diagnostic.Underline

namespace SemFront.Underline

variable {sign : Char} {overwrite : Bool} {row : List Char} {labels : List Label} {l : Label} {s : Span}
  {length width i : Nat}

/-! ## Places -/

theorem start_nonneg (s : Span) : 0 ≤ start s := Int.le_max_left _ _

theorem mem_places : i ∈ places length s ↔ start s ≤ i ∧ (i : Int) < stop length s := by
  have := start_nonneg s
  rw [places, List.mem_range'_1]
  omega

/-- Whatever the columns and offsets, marking stays in the row. -/
theorem lt_of_mem_places (h : i ∈ places length s) : i < length := by
  have hstop := (mem_places.1 h).2
  unfold stop at hstop
  omega

/-- A part lies over a place of a row: it starts at its column, or with the row if that is before it, and
is at least one place wide. -/
def Over (s : Span) (i : Nat) : Prop :=
  max 0 (s.column - 1) ≤ (i : Int) ∧ (i : Int) < max 0 (s.column - 1) + max 1 (s.stop - s.start)

instance (s : Span) (i : Nat) : Decidable (Over s i) := inferInstanceAs (Decidable (_ ∧ _))

/-- Where a part starts, how wide it is and where it ends are machine integers. -/
def Fits (s : Span) : Prop :=
  Word.Holds (s.column - 1) ∧ Word.Holds (s.stop - s.start) ∧
    Word.Holds (max 0 (s.column - 1) + max 1 (s.stop - s.start))

instance (s : Span) : Decidable (Fits s) := inferInstanceAs (Decidable (_ ∧ _))

theorem mem_places_of_fits (h : Fits s) : i ∈ places length s ↔ i < length ∧ Over s i := by
  obtain ⟨hcolumn, hwidth, hstop⟩ := h
  have hstart : start s = max 0 (s.column - 1) := by rw [start, Word.wrap_of_holds hcolumn]
  rw [mem_places, stop, hstart, Word.wrap_of_holds hwidth, Word.wrap_of_holds hstop]
  unfold Over
  omega

/-! ## Marking parts one after the other -/

theorem length_markAt : (markAt sign overwrite row i).length = row.length := List.length_modify _ _ _

theorem length_mark : (mark sign overwrite row l).length = row.length :=
  List.foldlRecOn _ _ (motive := fun r : List Char => r.length = row.length) rfl fun _ h _ _ => length_markAt.trans h

theorem length_foldl_mark (ls : List Label) : (ls.foldl (mark sign overwrite) row).length = row.length :=
  List.foldlRecOn _ _ (motive := fun r : List Char => r.length = row.length) rfl fun _ h _ _ => length_mark.trans h

theorem getElem?_markAt (p : Nat) : (markAt sign overwrite row p)[i]? =
    row[i]?.map fun c => if i = p ∧ (overwrite ∨ c = ' ') then sign else c := by
  rw [markAt, List.getElem?_modify]
  refine congrFun (congrArg Option.map (funext fun c => ?_)) _
  by_cases hp : i = p
  · simp [hp]
  · simp [hp, Ne.symm hp]

/-- A part is marked at its places, over whatever is there or where nothing is. -/
theorem getElem?_mark : (mark sign overwrite row l)[i]? =
    row[i]?.map fun c => if i ∈ places row.length l.span ∧ (overwrite ∨ c = ' ') then sign else c := by
  unfold mark
  generalize places row.length l.span = ps
  induction ps generalizing row with
  | nil => simp
  | cons p ps ih =>
    rw [List.foldl_cons, ih, getElem?_markAt, Option.map_map]
    refine congrFun (congrArg Option.map (funext fun c => ?_)) _
    by_cases hp : i = p <;> by_cases hps : i ∈ ps <;> by_cases hc : overwrite = true ∨ c = ' ' <;> simp_all

/-- Of several parts it does not matter which comes first: where one has left its mark, the others would leave
the same. -/
theorem getElem?_foldl_mark (ls : List Label) : (ls.foldl (mark sign overwrite) row)[i]? =
    row[i]?.map fun c =>
      if (∃ l ∈ ls, i ∈ places row.length l.span) ∧ (overwrite ∨ c = ' ') then sign else c := by
  induction ls generalizing row with
  | nil => simp
  | cons l ls ih =>
    rw [List.foldl_cons, ih, getElem?_mark, length_mark, Option.map_map]
    refine congrFun (congrArg Option.map (funext fun c => ?_)) _
    by_cases hl : i ∈ places row.length l.span <;> by_cases hls : ∃ l ∈ ls, i ∈ places row.length l.span <;>
      by_cases hc : overwrite = true ∨ c = ' ' <;> simp_all

/-! ## The row -/

section Sign

variable {lies lies' : Span → Nat → Prop} [∀ s i, Decidable (lies s i)] [∀ s i, Decidable (lies' s i)]

/-- What belongs at a place of a row: a caret below a primary part, or else a tilde below a secondary one. -/
def signAt (lies : Span → Nat → Prop) [∀ s i, Decidable (lies s i)] (labels : List Label) (i : Nat) : Char :=
  if ∃ l ∈ labels, l.style = .primary ∧ lies l.span i then '^'
  else if ∃ l ∈ labels, l.style = .secondary ∧ lies l.span i then '~'
  else ' '

theorem signAt_congr (h : ∀ l ∈ labels, (lies l.span i ↔ lies' l.span i)) :
    signAt lies labels i = signAt lies' labels i := by
  have hsome (style : Style) : (∃ l ∈ labels, l.style = style ∧ lies l.span i) ↔
      ∃ l ∈ labels, l.style = style ∧ lies' l.span i :=
    exists_congr fun l => and_congr_right fun hl => and_congr_right fun _ => h l hl
  simp only [signAt, hsome]

theorem signAt_perm {labels' : List Label} (h : labels.Perm labels') (i : Nat) :
    signAt lies labels i = signAt lies labels' i := by
  simp only [signAt, h.mem_iff]

theorem signAt_eq_blank : signAt lies labels i = ' ' ↔
    ∀ l ∈ labels, l.style = .primary ∨ l.style = .secondary → ¬ lies l.span i := by
  unfold signAt
  split
  · rename_i h
    obtain ⟨l, hl, hstyle, hlies⟩ := h
    constructor
    · intro h
      cases h
    · intro h
      exact absurd hlies (h l hl (.inl hstyle))
  · rename_i hprimary
    split
    · rename_i h
      obtain ⟨l, hl, hstyle, hlies⟩ := h
      constructor
      · intro h
        cases h
      · intro h
        exact absurd hlies (h l hl (.inr hstyle))
    · rename_i hsecondary
      refine ⟨fun _ l hl hstyle hlies => ?_, fun _ => rfl⟩
      rcases hstyle with hstyle | hstyle
      · exact hprimary ⟨l, hl, hstyle, hlies⟩
      · exact hsecondary ⟨l, hl, hstyle, hlies⟩

end Sign

theorem exists_mem_filter {p : Label → Prop} {style : Style} :
    (∃ l ∈ labels.filter (·.style = style), p l) ↔ ∃ l ∈ labels, l.style = style ∧ p l := by
  simp [List.mem_filter, and_assoc]

theorem length_row (width : Nat) (labels : List Label) : (Underline.row width labels).length = width + 1 := by
  rw [Underline.row, length_foldl_mark, length_foldl_mark, List.length_replicate]

/-- A row has at every place what belongs below the parts that are marked there. -/
theorem getElem?_row (hi : i ≤ width) : (Underline.row width labels)[i]? =
    some (signAt (fun s i => i ∈ places (width + 1) s) labels i) := by
  have hblank : (List.replicate (width + 1) ' ')[i]? = some ' ' := by
    rw [List.getElem?_replicate, if_pos (Nat.lt_succ_of_le hi)]
  rw [Underline.row, getElem?_foldl_mark, length_foldl_mark, getElem?_foldl_mark, List.length_replicate, hblank,
    Option.map_some, Option.map_some, signAt]
  simp only [exists_mem_filter, or_true, and_true, Bool.false_eq_true, false_or]
  -- a caret is no blank, so only where no primary part is marked can there be a tilde
  by_cases h : ∃ l ∈ labels, l.style = .primary ∧ i ∈ places (width + 1) l.span
  · rw [if_pos h, if_neg (by simp), if_pos h]
  · rw [if_neg h, if_neg h]
    simp only [and_true]

theorem row_eq (width : Nat) (labels : List Label) : Underline.row width labels =
    (List.range (width + 1)).map (signAt (fun s i => i ∈ places (width + 1) s) labels) := by
  apply List.ext_getElem?
  intro i
  by_cases hi : i ≤ width
  · rw [getElem?_row hi, List.getElem?_map, List.getElem?_range (by omega)]
    rfl
  · rw [List.getElem?_eq_none (by rw [length_row]; omega), List.getElem?_eq_none (by simp; omega)]

theorem row_perm {labels' : List Label} (h : labels.Perm labels') :
    Underline.row width labels' = Underline.row width labels := by
  rw [row_eq, row_eq]
  exact List.map_congr_left fun i _ => signAt_perm h.symm i

/-- Labels whose parts fit are marked at the places over which their parts lie. -/
theorem signAt_of_fits (hfits : ∀ l ∈ labels, Fits l.span) (hi : i ≤ width) :
    signAt (fun s i => i ∈ places (width + 1) s) labels i = signAt Over labels i :=
  signAt_congr fun l hl => (mem_places_of_fits (hfits l hl)).trans (and_iff_right (Nat.lt_succ_of_le hi))

/-! ## The row as it is shown -/

/-- Only blanks are cut off, and all that are at the end. -/
theorem trimmed_spec (row : List Char) :
    (∃ n, row = trimmed row ++ List.replicate n ' ') ∧ (trimmed row).getLast? ≠ some ' ' := by
  constructor
  · refine ⟨(row.reverse.takeWhile (· = ' ')).length, ?_⟩
    have hblank : (row.reverse.takeWhile (· = ' ')).reverse =
        List.replicate (row.reverse.takeWhile (· = ' ')).length ' ' := by
      rw [List.eq_replicate_iff]
      refine ⟨List.length_reverse, fun c hc => ?_⟩
      simpa using List.all_eq_true.1 List.all_takeWhile c (List.mem_reverse.1 hc)
    rw [← hblank, trimmed, ← List.reverse_append, List.takeWhile_append_dropWhile, List.reverse_reverse]
  · rw [trimmed, List.getLast?_reverse]
    intro h
    have := List.head?_dropWhile_not (· = ' ') row.reverse
    rw [h] at this
    simp at this

theorem trimmed_eq_nil : trimmed row = [] ↔ ∀ c ∈ row, c = ' ' := by
  rw [trimmed, List.reverse_eq_nil_iff, List.dropWhile_eq_nil_iff]
  simp

theorem text?_eq_none : text? width labels = none ↔ ∀ c ∈ Underline.row width labels, c = ' ' := by
  rw [← trimmed_eq_nil]
  unfold text?
  split <;> simp_all

theorem text?_eq_none_of_fits (hfits : ∀ l ∈ labels, Fits l.span) : text? width labels = none ↔
    ∀ i ≤ width, ∀ l ∈ labels, l.style = .primary ∨ l.style = .secondary → ¬ Over l.span i := by
  rw [text?_eq_none, row_eq]
  simp only [List.mem_map, List.mem_range, forall_exists_index, and_imp, forall_apply_eq_imp_iff₂, Nat.lt_succ_iff]
  exact forall₂_congr fun i hi => by rw [signAt_of_fits hfits hi, signAt_eq_blank]

theorem text?_eq_some {shown : String} (h : text? width labels = some shown) :
    shown = String.ofList (trimmed (Underline.row width labels)) ++
      (if (labels.map (·.text)).filter (· ≠ "") = [] then ""
       else " " ++ String.intercalate "; " ((labels.map (·.text)).filter (· ≠ ""))) := by
  unfold text? at h
  split at h
  · cases h
  · exact (Option.some.inj h).symm

/-- Whatever columns and offsets the labels of a line have, its row is one place longer than the line, marking
stays in the row, and the order of the labels does not matter. The row is left out exactly if it is blank;
otherwise it is shown up to its last mark, with the texts of the labels behind it as they come. If the parts
fit into the machine integers, then the row has at every place what belongs below the parts that lie over it,
and it is blank exactly if none does. -/
theorem row_closed_form (width : Nat) (labels : List Label) :
    (Underline.row width labels).length = width + 1 ∧
    (∀ l ∈ labels, ∀ i ∈ places (width + 1) l.span, i ≤ width) ∧
    (∀ labels', labels.Perm labels' → Underline.row width labels' = Underline.row width labels) ∧
    (text? width labels = none ↔ ∀ c ∈ Underline.row width labels, c = ' ') ∧
    (∀ shown, text? width labels = some shown → ∃ marks n,
      Underline.row width labels = marks ++ List.replicate n ' ' ∧ marks.getLast? ≠ some ' ' ∧
      shown = String.ofList marks ++ (if (labels.map (·.text)).filter (· ≠ "") = [] then ""
        else " " ++ String.intercalate "; " ((labels.map (·.text)).filter (· ≠ "")))) ∧
    ((∀ l ∈ labels, Fits l.span) →
      (∀ i ≤ width, (Underline.row width labels)[i]? = some (signAt Over labels i)) ∧
      (text? width labels = none ↔
        ∀ i ≤ width, ∀ l ∈ labels, l.style = .primary ∨ l.style = .secondary → ¬ Over l.span i)) := by
  refine ⟨length_row width labels, fun l _ i hi => Nat.le_of_lt_succ (lt_of_mem_places hi), fun _ => row_perm,
    text?_eq_none, fun shown h => ?_, fun hfits => ⟨fun i hi => ?_, text?_eq_none_of_fits hfits⟩⟩
  · obtain ⟨⟨n, hn⟩, hlast⟩ := trimmed_spec (Underline.row width labels)
    exact ⟨_, n, hn, hlast, text?_eq_some h⟩
  · rw [getElem?_row hi, signAt_of_fits hfits hi]

/-- Parts of one line: two that overlap, one that ends before it starts, one that starts before the line and
one far behind it. -/
def crossing : List Label :=
  [{ span := { line := 1, column := 3, start := 2, stop := 6 }, text := "here", style := .secondary },
   { span := { line := 1, column := 4, start := 3, stop := 5 }, text := "and here" },
   { span := { line := 1, column := 8, start := 7, stop := 2 }, style := .secondary },
   { span := { line := 1, column := -5, start := 0, stop := 1 } },
   { span := { line := 1, column := 400, start := 399, stop := 500 } }]

theorem row_closed_form_crossing : (∀ l ∈ crossing, Fits l.span) ∧
    Underline.row 9 crossing.reverse = Underline.row 9 crossing ∧
    (∀ i ≤ 9, (Underline.row 9 crossing)[i]? = some (signAt Over crossing i)) ∧
    (List.range 10).map (signAt Over crossing) = "^ ~^^~ ~  ".toList := by
  have hfits : ∀ l ∈ crossing, Fits l.span := by decide
  obtain ⟨-, -, hperm, -, -, hform⟩ := row_closed_form 9 crossing
  exact ⟨hfits, hperm _ (List.reverse_perm _).symm, (hform hfits).1, by decide⟩

/-- A part whose width is too large for a machine integer. -/
def endless : Label := { span := { line := 1, column := 3, start := -0x4000000000000000, stop := 0x4000000000000000 } }

/-- A part whose width is a machine integer, but not the place where it ends. -/
def farthest : Label := { span := { line := 1, column := 3, start := 0, stop := 0x7FFFFFFFFFFFFFFF } }

/-- Columns and offsets can be machine integers and their sums not. Then a part is not marked at the places over
which it lies, perhaps not even at the one where it starts. -/
theorem row_of_overflow :
    (signAt Over [endless] 3 = '^' ∧ Underline.row 8 [endless] = "  ^      ".toList) ∧
    (signAt Over [farthest] 2 = '^' ∧ Underline.row 8 [farthest] = "         ".toList ∧
      text? 8 [farthest] = none) := by
  decide

end SemFront.Underline
