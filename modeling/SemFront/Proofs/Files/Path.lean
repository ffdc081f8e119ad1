/-
Shortest paths. What is left of a path while its names are taken one by one is settled: proper names, and
below them steps up if the path does not start at the root. Taking the names of a settled path changes
nothing, so the shortest form of a path is its own shortest form, and a path below another one has the same
shortest form whether the other one is shortened first or not.
-/
import SemFront.Files.Path
import SemFront.Proofs.Text.Lines

namespace SemFront

namespace Path

/-! ## Names -/

/-- A name of an entry: it leads neither nowhere nor up, and is one name. -/
structure Proper (n : String) : Prop where
  ne_empty : n ≠ ""
  ne_dot : n ≠ "."
  ne_up : n ≠ ".."
  noSlash : '/' ∉ n.toList

instance (n : String) : Decidable (Proper n) :=
  decidable_of_iff (n ≠ "" ∧ n ≠ "." ∧ n ≠ ".." ∧ '/' ∉ n.toList)
    ⟨fun h => ⟨h.1, h.2.1, h.2.2.1, h.2.2.2⟩, fun h => ⟨h.ne_empty, h.ne_dot, h.ne_up, h.noSlash⟩⟩

theorem names_append (p q : String) : names (p ++ "/" ++ q) = names p ++ names q := by
  unfold names
  have h : (p ++ "/" ++ q).toList = p.toList ++ '/' :: q.toList := by simp
  rw [h, List.splitOn_append_cons_self, List.map_append]

theorem names_of_noSlash {n : String} (h : '/' ∉ n.toList) : names n = [n] := by
  unfold names
  rw [List.splitOn_eq_singleton h, List.map_singleton, String.ofList_toList]

theorem names_ne_nil (p : String) : names p ≠ [] := by
  simp [names, List.splitOn_ne_nil]

theorem names_rooted (q : String) : names ("/" ++ q) = "" :: names q := by
  have h := names_append "" q
  rwa [String.empty_append, names_of_noSlash (n := "") (by decide)] at h

theorem noSlash_of_mem_names {p n : String} (h : n ∈ names p) : '/' ∉ n.toList := by
  obtain ⟨l, hl, rfl⟩ := List.mem_map.1 h
  rw [String.toList_ofList]
  exact Text.not_mem_of_mem_splitOn l hl

theorem exists_name_of_mem {p : String} {c : Char} (h : c ∈ p.toList) (hc : c ≠ '/') :
    ∃ n ∈ names p, c ∈ n.toList := by
  obtain ⟨l, hl, hcl⟩ := Text.exists_mem_splitOn h hc
  refine ⟨String.ofList l, List.mem_map_of_mem hl, ?_⟩
  rwa [String.toList_ofList]

theorem names_intercalate {ns : List String} (hns : ns ≠ []) (h : ∀ n ∈ ns, '/' ∉ n.toList) :
    names (String.intercalate "/" ns) = ns := by
  induction ns with
  | nil => exact absurd rfl hns
  | cons n ns ih =>
    obtain ⟨hn, h⟩ := List.forall_mem_cons.1 h
    cases ns with
    | nil => exact names_of_noSlash hn
    | cons m ns =>
      rw [String.intercalate_cons_cons, names_append, names_of_noSlash hn, ih (List.cons_ne_nil m ns) h]
      rfl

theorem isRooted_append {p : String} (hp : p ≠ "") (q : String) : isRooted (p ++ q) = isRooted p := by
  unfold isRooted
  obtain ⟨c, cs, hcs⟩ := List.exists_cons_of_ne_nil fun h => hp (String.toList_eq_nil_iff.1 h)
  rw [String.toList_append, hcs]
  rfl

/-! ## Settled names -/

/-- Names, the last one first, of a shortest path: proper names, and steps up only at its start and only where it
does not start at the root. -/
inductive Settled (rooted : Bool) : List String → Prop
  | nil : Settled rooted []
  | name {n : String} {done : List String} (hn : Proper n) (h : Settled rooted done) : Settled rooted (n :: done)
  | up {done : List String} (hr : rooted = false) (h : ∀ n ∈ done, n = "..") : Settled rooted (".." :: done)

variable {rooted : Bool} {done ns : List String} {n p : String}

theorem Settled.noSlash (h : Settled rooted done) : ∀ n ∈ done, n ≠ "" ∧ '/' ∉ n.toList := by
  induction h with
  | nil => exact fun n hn => absurd hn List.not_mem_nil
  | name hn _ ih => exact List.forall_mem_cons.2 ⟨⟨hn.ne_empty, hn.noSlash⟩, ih⟩
  | up _ h =>
    refine List.forall_mem_cons.2 ⟨by decide, fun n hn => ?_⟩
    rw [h n hn]
    decide

theorem push_skip (hn : n = "" ∨ n = ".") : push rooted done n = done := by
  unfold push
  rw [if_pos (by simpa using hn)]

theorem push_name (hn : Proper n) : push rooted done n = n :: done := by
  unfold push
  rw [if_neg (by simp [hn.ne_empty, hn.ne_dot]), if_neg hn.ne_up]

theorem Settled.push (h : Settled rooted done) (hn : '/' ∉ n.toList) : Settled rooted (push rooted done n) := by
  by_cases hskip : n = "" ∨ n = "."
  · rw [push_skip hskip]
    exact h
  · obtain ⟨hempty, hdot⟩ := not_or.1 hskip
    by_cases hup : n = ".."
    · subst hup
      unfold Path.push
      rw [if_neg (by decide), if_pos rfl]
      cases h with
      | nil =>
        cases rooted with
        | true => exact .nil
        | false => exact .up rfl fun _ hm => absurd hm List.not_mem_nil
      | name hm h =>
        dsimp only
        rw [if_neg hm.ne_up]
        exact h
      | up hr h => exact .up hr (List.forall_mem_cons.2 ⟨rfl, h⟩)
    · have hname : Proper n := ⟨hempty, hdot, hup, hn⟩
      rw [push_name hname]
      exact .name hname h

/-- Taking settled names one by one keeps them all. -/
theorem Settled.foldl_push (h : Settled rooted done) : done.reverse.foldl (Path.push rooted) [] = done := by
  induction h with
  | nil => rfl
  | name hn _ ih => rw [List.reverse_cons, List.foldl_append, ih, List.foldl_cons, List.foldl_nil, push_name hn]
  | @up done hr h =>
    subst hr
    -- the steps up below are settled too
    induction done with
    | nil => rfl
    | cons m done ih =>
      obtain ⟨rfl, hdone⟩ := List.forall_mem_cons.1 h
      rw [List.reverse_cons, List.foldl_append, ih hdone]
      rfl

theorem settled_shortest (p : String) : Settled (isRooted p) (shortest p).reverse := by
  unfold shortest
  rw [List.reverse_reverse]
  exact List.foldlRecOn _ _ (motive := Settled (isRooted p)) .nil fun _ h n hn => h.push (noSlash_of_mem_names hn)

/-! ## Shortest paths -/

theorem intercalate_cons (n : String) (ns : List String) : ∃ s, String.intercalate "/" (n :: ns) = n ++ s :=
  ⟨String.intercalate "/" ("" :: ns), by rw [← String.intercalate_cons_append, String.append_empty]⟩

theorem isRooted_of_noSlash (h : '/' ∉ n.toList) : isRooted n = false := by
  refine decide_eq_false fun hhead => h ?_
  exact List.mem_of_mem_head? hhead

theorem ofNames_ne_empty (h : Settled rooted ns.reverse) : ofNames rooted ns ≠ "" := by
  unfold ofNames
  split
  · simp
  · cases ns with
    | nil => decide
    | cons n ns =>
      obtain ⟨s, hs⟩ := intercalate_cons n ns
      have hn := (h.noSlash n (by simp)).1
      rw [if_neg (List.cons_ne_nil n ns), hs]
      simp [hn]

theorem isRooted_ofNames (h : Settled rooted ns.reverse) : isRooted (ofNames rooted ns) = rooted := by
  unfold ofNames
  cases rooted with
  | true => rw [if_pos rfl, isRooted_append (by decide)]; rfl
  | false =>
    rw [if_neg Bool.false_ne_true]
    cases ns with
    | nil => rfl
    | cons n ns =>
      obtain ⟨s, hs⟩ := intercalate_cons n ns
      obtain ⟨hempty, hslash⟩ := h.noSlash n (by simp)
      rw [if_neg (List.cons_ne_nil n ns), hs, isRooted_append hempty, isRooted_of_noSlash hslash]

/-- The names of a path that is made of settled ones are these, perhaps behind names that lead nowhere. -/
theorem names_ofNames (h : Settled rooted ns.reverse) :
    ∃ skipped, names (ofNames rooted ns) = skipped ++ ns ∧ ∀ n ∈ skipped, n = "" ∨ n = "." := by
  have hjoined (hns : ns ≠ []) : names (String.intercalate "/" ns) = ns :=
    names_intercalate hns fun k hk => (h.noSlash k (List.mem_reverse.2 hk)).2
  unfold ofNames
  cases rooted with
  | true =>
    rw [if_pos rfl, names_rooted]
    by_cases hns : ns = []
    · subst hns
      exact ⟨["", ""], by decide, by simp⟩
    · rw [hjoined hns]
      exact ⟨[""], rfl, by simp⟩
  | false =>
    rw [if_neg Bool.false_ne_true]
    by_cases hns : ns = []
    · subst hns
      exact ⟨["."], by decide, by simp⟩
    · rw [if_neg hns, hjoined hns]
      exact ⟨[], rfl, by simp⟩

theorem shortest_ofNames (h : Settled rooted ns.reverse) : shortest (ofNames rooted ns) = ns := by
  obtain ⟨skipped, hnames, hskipped⟩ := names_ofNames h
  have hskip : skipped.foldl (push rooted) [] = [] :=
    List.foldlRecOn _ _ (motive := (· = [])) rfl fun _ hdone n hn => (push_skip (hskipped n hn)).trans hdone
  have hpush := h.foldl_push
  rw [List.reverse_reverse] at hpush
  unfold shortest
  rw [isRooted_ofNames h, hnames, List.foldl_append, hskip, hpush, List.reverse_reverse]

theorem isRooted_clean (p : String) : isRooted (clean p) = isRooted p := isRooted_ofNames (settled_shortest p)

theorem shortest_clean (p : String) : shortest (clean p) = shortest p := shortest_ofNames (settled_shortest p)

theorem clean_ne_empty (p : String) : clean p ≠ "" := ofNames_ne_empty (settled_shortest p)

theorem join_ne_empty (p n : String) : join p n ≠ "" := clean_ne_empty _

/-- The shortest form of a path is its own shortest form. -/
theorem clean_clean (p : String) : clean (clean p) = clean p := by
  rw [clean, isRooted_clean, shortest_clean, clean]

/-- The shortest form of a path with proper names behind it. -/
theorem clean_below (hp : p ≠ "") (hns : ns ≠ []) (h : ∀ n ∈ ns, Proper n) :
    clean (p ++ "/" ++ String.intercalate "/" ns) = ofNames (isRooted p) (shortest p ++ ns) := by
  have hpush : ∀ done, ns.foldl (push (isRooted p)) done = ns.reverse ++ done := by
    clear hns
    induction ns with
    | nil => exact fun _ => rfl
    | cons n ns ih =>
      intro done
      obtain ⟨hn, hns⟩ := List.forall_mem_cons.1 h
      rw [List.foldl_cons, push_name hn, ih hns, List.reverse_cons, List.append_assoc]
      rfl
  have hrooted : isRooted (p ++ "/" ++ String.intercalate "/" ns) = isRooted p := by
    rw [String.append_assoc, isRooted_append hp]
  unfold clean shortest
  rw [hrooted, names_append, names_intercalate hns fun n hn => (h n hn).noSlash, List.foldl_append, hpush,
    List.reverse_append, List.reverse_reverse]

/-- Below a path it does not matter whether the path is shortened. -/
theorem clean_join (hp : p ≠ "") (hn : Proper n) (hns : ns ≠ []) (h : ∀ n ∈ ns, Proper n) :
    clean (join p n ++ "/" ++ String.intercalate "/" ns) = clean (p ++ "/" ++ String.intercalate "/" (n :: ns)) := by
  have hone : join p n = ofNames (isRooted p) (shortest p ++ [n]) := by
    rw [← clean_below hp (List.cons_ne_nil n []) fun k hk => List.mem_singleton.1 hk ▸ hn,
      String.intercalate_singleton, join]
  have hsettled : Settled (isRooted p) (shortest p ++ [n]).reverse := by
    rw [List.reverse_append]
    exact .name hn (settled_shortest p)
  rw [clean_below (join_ne_empty p n) hns h, clean_below hp (List.cons_ne_nil n ns)
    (List.forall_mem_cons.2 ⟨hn, h⟩), hone, isRooted_ofNames hsettled, shortest_ofNames hsettled, List.append_assoc]
  rfl

end Path
end SemFront
