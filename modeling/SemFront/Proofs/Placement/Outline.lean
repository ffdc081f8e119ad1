/-
Outlines that are well placed in a text: every node has a place in the text, its children lie inside of
it and apart from each other, and those from one list come in ascending order. Nodes are laid out between
two offsets; layouts that follow each other are put together, and a node may be added behind all others
into one of several lists.
-/
import Mathlib.Data.List.Induction
import SemFront.Proofs.Token.Place
import SemFront.Tree.Node

namespace SemFront

/-! ## Places in a text -/

/-- A span of a text: it starts in the text and stops between its start and the end, and its line and column
are those of its start. The line counts the line ends before it, the column the characters behind the last
of them, both from 1. -/
structure Span.LiesIn (cs : List Char) (s : Span) : Prop where
  nonneg : 0 ≤ s.start
  start_le : s.start ≤ s.stop
  stop_le : s.stop ≤ cs.length
  line : s.line = (cs.take s.start.toNat).count '\n' + 1
  column : s.column = ((cs.take s.start.toNat).reverse.takeWhile (· ≠ '\n')).length + 1

namespace Position

theorem after_concat (p : Position) (cs : List Char) (c : Char) : p.after (cs ++ [c]) = (p.after cs).next c := by
  unfold after
  rw [List.foldl_append, List.foldl_cons, List.foldl_nil]

theorem after_line (cs : List Char) : (after {} cs).line = cs.count '\n' + 1 := by
  induction cs using List.reverseRecOn with
  | nil => rfl
  | append_singleton cs c ih =>
    rw [after_concat, next, List.count_append, List.count_singleton]
    by_cases hc : c = '\n' <;> simp [hc, ih]

theorem after_column (cs : List Char) :
    (after {} cs).column = (cs.reverse.takeWhile (· ≠ '\n')).length + 1 := by
  induction cs using List.reverseRecOn with
  | nil => rfl
  | append_singleton cs c ih =>
    rw [after_concat, next, List.reverse_append, List.reverse_singleton, List.singleton_append, List.takeWhile_cons]
    by_cases hc : c = '\n' <;> simp [hc, ih]

end Position

/-- What is between two offsets of a text lies in it. -/
theorem Span.between_liesIn {cs : List Char} {file : String} {i j : Nat} (h : i ≤ j) (hj : j ≤ cs.length) :
    (Span.between file (.at cs i) (.at cs j)).LiesIn cs := by
  have hi := Position.at_offset (Nat.le_trans h hj)
  have hstart : (Span.between file (.at cs i) (.at cs j)).start = i := congrArg Int.ofNat hi
  have hstop : (Span.between file (.at cs i) (.at cs j)).stop = j := congrArg Int.ofNat (Position.at_offset hj)
  refine ⟨by omega, by omega, by omega, ?_, ?_⟩
  · rw [hstart, Int.toNat_natCast]
    exact congrArg Int.ofNat (Position.after_line _)
  · rw [hstart, Int.toNat_natCast]
    exact congrArg Int.ofNat (Position.after_column _)

theorem Token.Covers.liesIn {cs : List Char} {t : Token} {i j : Nat} (h : t.Covers cs i j) : t.span.LiesIn cs := by
  obtain ⟨file, hs⟩ := h.span
  rw [hs]
  exact Span.between_liesIn h.le h.le_length

/-- A span that stops somewhere else lies in the text all the same. -/
theorem Span.LiesIn.stopAt {cs : List Char} {s : Span} (h : s.LiesIn cs) {n : Int} (h1 : s.start ≤ n)
    (h2 : n ≤ cs.length) : Span.LiesIn cs { s with stop := n } :=
  ⟨h.nonneg, h1, h2, h.line, h.column⟩

/-! ## Outlines -/

namespace Outline

def node : Outline → Node
  | mk n _ => n

def span (o : Outline) : Span := o.node.span

/-- Siblings that do not overlap. If one constructor of `Node` makes both, as it does for all those from one list,
the first one comes before the other. -/
def Apart (a b : Outline) : Prop :=
  (a.span.stop ≤ b.span.start ∨ b.span.stop ≤ a.span.start) ∧
    (a.node.ctorIdx = b.node.ctorIdx → a.span.stop ≤ b.span.start)

/-- An outline all of whose nodes lie in a text, inside of their parents and apart from their siblings. -/
inductive WellPlaced (cs : List Char) : Outline → Prop where
  | mk {n : Node} {os : List Outline} (place : n.span.LiesIn cs)
      (inside : ∀ o ∈ os, n.span.start ≤ o.span.start ∧ o.span.stop ≤ n.span.stop) (apart : os.Pairwise Apart)
      (below : ∀ o ∈ os, o.WellPlaced cs) : WellPlaced cs (.mk n os)

theorem WellPlaced.liesIn {cs : List Char} : ∀ {o : Outline}, o.WellPlaced cs → o.span.LiesIn cs
  | _, .mk place _ _ _ => place

end Outline

/-- Outlines that lie between two offsets, well placed and apart from each other. -/
structure Laid (cs : List Char) (lo : Int) (os : List Outline) (hi : Int) : Prop where
  le : lo ≤ hi
  inside : ∀ o ∈ os, lo ≤ o.span.start ∧ o.span.stop ≤ hi
  apart : os.Pairwise Outline.Apart
  placed : ∀ o ∈ os, o.WellPlaced cs

namespace Laid

variable {cs : List Char} {lo hi lo' hi' : Int} {os os' : List Outline} {o : Outline} {n : Node}

theorem nil (h : lo ≤ hi) : Laid cs lo [] hi := ⟨h, nofun, .nil, nofun⟩

theorem single (h : o.WellPlaced cs) (h1 : lo ≤ o.span.start) (h2 : o.span.stop ≤ hi) : Laid cs lo [o] hi where
  le := Int.le_trans h1 (Int.le_trans h.liesIn.start_le h2)
  inside a ha := by
    obtain rfl := List.mem_singleton.1 ha
    exact ⟨h1, h2⟩
  apart := List.pairwise_singleton _ _
  placed a ha := by
    obtain rfl := List.mem_singleton.1 ha
    exact h

theorem mono (h : Laid cs lo os hi) (h1 : lo' ≤ lo) (h2 : hi ≤ hi') : Laid cs lo' os hi' where
  le := Int.le_trans h1 (Int.le_trans h.le h2)
  inside o ho := ⟨Int.le_trans h1 (h.inside o ho).1, Int.le_trans (h.inside o ho).2 h2⟩
  apart := h.apart
  placed := h.placed

/-- A new outline behind all others goes to the end of its list, with the lists of other sorts behind it. -/
theorem insert (h : Laid cs lo (os ++ os') hi) (ho : Laid cs hi [o] hi')
    (hsort : ∀ b ∈ os', b.node.ctorIdx ≠ o.node.ctorIdx) : Laid cs lo (os ++ o :: os') hi' where
  le := Int.le_trans h.le ho.le
  inside a ha := by
    have hle := ho.le
    obtain ⟨h1, h2⟩ := ho.inside o (List.mem_singleton_self o)
    rcases List.mem_append.1 ha with ha | ha
    · obtain ⟨h3, h4⟩ := h.inside a (List.mem_append_left _ ha)
      omega
    · rcases List.mem_cons.1 ha with rfl | ha
      · have := h.le
        omega
      · obtain ⟨h3, h4⟩ := h.inside a (List.mem_append_right _ ha)
        omega
  apart := by
    obtain ⟨h1, h2⟩ := ho.inside o (List.mem_singleton_self o)
    obtain ⟨hp, hp', hpp⟩ := List.pairwise_append.1 h.apart
    refine List.pairwise_append.2 ⟨hp, List.pairwise_cons.2 ⟨fun b hb => ?_, hp'⟩, fun a ha b hb => ?_⟩
    · have h3 := (h.inside b (List.mem_append_right _ hb)).2
      exact ⟨.inr (Int.le_trans h3 h1), fun e => absurd e.symm (hsort b hb)⟩
    · rcases List.mem_cons.1 hb with rfl | hb
      · have h3 := (h.inside a (List.mem_append_left _ ha)).2
        exact ⟨.inl (Int.le_trans h3 h1), fun _ => Int.le_trans h3 h1⟩
      · exact hpp a ha b hb
  placed a ha := by
    rcases List.mem_append.1 ha with ha | ha
    · exact h.placed a (List.mem_append_left _ ha)
    · rcases List.mem_cons.1 ha with rfl | ha
      · exact ho.placed a (List.mem_singleton_self a)
      · exact h.placed a (List.mem_append_right _ ha)

/-- Outlines followed by others. -/
theorem append (h : Laid cs lo os hi) (h' : Laid cs lo' os' hi') (hle : hi ≤ lo') : Laid cs lo (os ++ os') hi' where
  le := Int.le_trans h.le (Int.le_trans hle h'.le)
  inside a ha := by
    have h1 := h.le
    have h2 := h'.le
    rcases List.mem_append.1 ha with ha | ha
    · obtain ⟨h3, h4⟩ := h.inside a ha
      omega
    · obtain ⟨h3, h4⟩ := h'.inside a ha
      omega
  apart := by
    refine List.pairwise_append.2 ⟨h.apart, h'.apart, fun a ha b hb => ?_⟩
    have h1 := (h.inside a ha).2
    have h2 := (h'.inside b hb).1
    exact ⟨.inl (by omega), fun _ => by omega⟩
  placed a ha := (List.mem_append.1 ha).elim (h.placed a) (h'.placed a)

section Push

variable {α : Type} {f : α → Outline} {xs : Array α} {x : α}

/-- One more member of a list. -/
theorem push (h : Laid cs lo (xs.toList.map f) hi) (hx : Laid cs lo' [f x] hi') (hle : hi ≤ lo') :
    Laid cs lo ((xs.push x).toList.map f) hi' := by
  rw [Array.toList_push, List.map_append, List.map_singleton]
  exact h.append hx hle

/-- One more member of a list that has others on both sides, those behind it of other sorts. -/
theorem pushAmid (os : List Outline) (h : Laid cs lo (os ++ (xs.toList.map f ++ os')) hi) (hx : Laid cs hi [f x] hi')
    (hsort : ∀ b ∈ os', b.node.ctorIdx ≠ (f x).node.ctorIdx) :
    Laid cs lo (os ++ ((xs.push x).toList.map f ++ os')) hi' := by
  rw [Array.toList_push, List.map_append, List.map_singleton, List.append_assoc, List.singleton_append,
    ← List.append_assoc]
  rw [← List.append_assoc] at h
  exact h.insert hx hsort

end Push

/-- A node around what is laid out inside of its span. -/
theorem wellPlaced (hn : n.span.LiesIn cs) (h : Laid cs n.span.start os n.span.stop) :
    (Outline.mk n os).WellPlaced cs := .mk hn h.inside h.apart h.placed

end Laid
end SemFront
