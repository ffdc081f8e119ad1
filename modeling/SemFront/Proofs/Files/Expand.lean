/-
The sources that paths stand for. The files below a directory are listed by their names, in the order of these
names; so what a directory stands for is told without walking it. Whatever the paths, whatever their
spelling and however the directories overlap, each source is listed once, in its shortest form and where it
comes first; and it is a file, so the list stands for itself.
-/
import Mathlib.Data.List.Forall2
import SemFront.Files.Expand
import SemFront.Proofs.Files.Plain
import SemFront.Proofs.Parsed.Schedule

namespace SemFront

open SemFront.Path (Proper)

/-! ## First occurrences -/

/-- The elements of a list, each once, in the order in which they first occur. -/
structure IsFirsts [DecidableEq α] (xs firsts : List α) : Prop where
  mem_iff : ∀ x, x ∈ firsts ↔ x ∈ xs
  ordered : firsts.Pairwise fun x y => xs.idxOf x < xs.idxOf y

section Firsts

variable [DecidableEq α] {xs firsts : List α}

theorem IsFirsts.nodup (h : IsFirsts xs firsts) : firsts.Nodup := by
  refine List.nodup_iff_pairwise_ne.2 (h.ordered.imp fun {x y} hlt heq => ?_)
  rw [heq] at hlt
  exact Nat.lt_irrefl _ hlt

/-- Leaving elements out keeps the order in which the others first occur. -/
theorem idxOf_lt_of_filter {p : α → Bool} {x y : α} (hx : p x = true) (hy : p y = true) : ∀ {xs : List α},
    (xs.filter p).idxOf x < (xs.filter p).idxOf y → xs.idxOf x < xs.idxOf y
  | [], h => by cases h
  | z :: xs, h => by
    by_cases hzx : z = x
    · subst hzx
      rw [List.filter_cons_of_pos hx, List.idxOf_cons_self] at h
      by_cases hzy : z = y
      · subst hzy
        rw [List.idxOf_cons_self] at h
        cases h
      · rw [List.idxOf_cons_self, List.idxOf_cons_ne _ hzy]
        exact Nat.succ_pos _
    · by_cases hzy : z = y
      · subst hzy
        rw [List.filter_cons_of_pos hy, List.idxOf_cons_self] at h
        cases h
      · rw [List.idxOf_cons_ne _ hzx, List.idxOf_cons_ne _ hzy]
        refine Nat.succ_lt_succ (idxOf_lt_of_filter hx hy ?_)
        by_cases hz : p z = true
        · rw [List.filter_cons_of_pos hz, List.idxOf_cons_ne _ hzx, List.idxOf_cons_ne _ hzy] at h
          exact Nat.lt_of_succ_lt_succ h
        · rwa [List.filter_cons_of_neg hz] at h

theorem isFirsts_eraseDups (xs : List α) : IsFirsts xs xs.eraseDups := by
  refine ⟨fun x => List.mem_eraseDups, ?_⟩
  match xs with
  | [] => exact .nil
  | x :: xs =>
    rw [List.eraseDups_cons]
    refine List.pairwise_cons.2 ⟨fun y hy => ?_, ?_⟩
    · have hne : y ≠ x := by simpa using (List.mem_filter.1 (List.mem_eraseDups.1 hy)).2
      rw [List.idxOf_cons_self, List.idxOf_cons_ne _ hne.symm]
      exact Nat.succ_pos _
    · refine (isFirsts_eraseDups (xs.filter fun y => !y == x)).ordered.imp_of_mem fun {y z} hy hz hlt => ?_
      have hy := (List.mem_filter.1 (List.mem_eraseDups.1 hy)).2
      have hz := (List.mem_filter.1 (List.mem_eraseDups.1 hz)).2
      have hyx : x ≠ y := fun h => by simp [h] at hy
      have hzx : x ≠ z := fun h => by simp [h] at hz
      rw [List.idxOf_cons_ne _ hyx, List.idxOf_cons_ne _ hzx]
      exact Nat.succ_lt_succ (idxOf_lt_of_filter (p := fun y => !y == x) hy hz hlt)
termination_by xs.length
decreasing_by exact Nat.lt_succ_of_le (List.length_filter_le _ _)

theorem eraseDups_of_nodup {xs : List α} (h : xs.Nodup) : xs.eraseDups = xs := by
  induction h with
  | nil => rfl
  | @cons x xs hx _ ih =>
    have hfilter : xs.filter (fun y => !y == x) = xs :=
      List.filter_eq_self.2 fun y hy => by simpa using (hx y hy).symm
    rw [List.eraseDups_cons, hfilter, ih]

end Firsts

/-! ## Names that are asked for -/

/-- Whether a pattern, as it is spelled, matches a name. -/
def Pattern.fits (p name : String) : Bool := (ofString? p).any (·.accepts name)

namespace NameFilter

/-- All patterns are well-formed. -/
def WF (f : NameFilter) : Prop := ∀ p ∈ f.included ++ f.excluded, (Pattern.ofString? p).isSome = true

/-- Some included pattern matches a name and no excluded one does. -/
def wants (f : NameFilter) (name : String) : Bool :=
  f.included.any (Pattern.fits · name) && !f.excluded.any (Pattern.fits · name)

theorem anyMatch_eq {name : String} : ∀ {ps : List String}, (∀ p ∈ ps, (Pattern.ofString? p).isSome = true) →
    anyMatch name ps = .ok (ps.any (Pattern.fits · name))
  | [], _ => rfl
  | p :: ps, h => by
    obtain ⟨hp, hps⟩ := List.forall_mem_cons.1 h
    obtain ⟨pattern, hpattern⟩ := Option.isSome_iff_exists.1 hp
    rw [anyMatch, List.any_cons, Pattern.fits, hpattern, anyMatch_eq hps]
    dsimp only
    rw [Option.any_some]
    cases pattern.accepts name <;> rfl

theorem accepts_eq {f : NameFilter} (hf : f.WF) (name : String) : f.accepts name = .ok (f.wants name) := by
  obtain ⟨hin, hex⟩ := List.forall_mem_append.1 hf
  unfold accepts wants
  rw [anyMatch_eq hin, anyMatch_eq hex]
  cases f.excluded.any (Pattern.fits · name) with
  | true => rw [Bool.not_true, Bool.and_false]; rfl
  | false => rw [Bool.not_false, Bool.and_true]; rfl

theorem select_eq {f : NameFilter} (hf : f.WF) : ∀ files : List (String × String),
    f.select files = .ok ((files.filter (f.wants ·.2)).map (·.1))
  | [] => rfl
  | (path, name) :: files => by
    rw [select, accepts_eq hf, select_eq hf files, List.filter_cons]
    dsimp only
    cases f.wants name <;> rfl

end NameFilter

/-! ## Files below a directory -/

namespace FileTree

mutual

/-- The names that lead to the files of a tree. -/
def leaves : FileTree → List (List String)
  | .file _ => [[]]
  | .directory es => leavesOfEntries es

def leavesOfEntries : List (String × FileTree) → List (List String)
  | [] => []
  | (n, t) :: es => (leaves t).map (n :: ·) ++ leavesOfEntries es

end

theorem mem_leavesOfEntries {ns : List String} {es : List (String × FileTree)} :
    ns ∈ leavesOfEntries es ↔ ∃ n t ms, (n, t) ∈ es ∧ ms ∈ leaves t ∧ n :: ms = ns := by
  induction es with
  | nil => simp [leavesOfEntries]
  | cons e es ih =>
    obtain ⟨n, t⟩ := e
    rw [leavesOfEntries, List.mem_append, ih, List.mem_map]
    constructor
    · rintro (⟨ms, hms, rfl⟩ | ⟨m, s, ms, hmem, hms, rfl⟩)
      · exact ⟨n, t, ms, List.mem_cons_self, hms, rfl⟩
      · exact ⟨m, s, ms, List.mem_cons_of_mem _ hmem, hms, rfl⟩
    · rintro ⟨m, s, ms, hmem, hms, rfl⟩
      rcases List.mem_cons.1 hmem with heq | hmem
      · cases heq
        exact .inl ⟨ms, hms, rfl⟩
      · exact .inr ⟨m, s, ms, hmem, hms, rfl⟩

theorem mem_leaves : ∀ {ns : List String} {t : FileTree}, ns ∈ leaves t ↔ FileAt ns t
  | [], .file _ => by simp [leaves, FileAt]
  | _ :: _, .file _ => by simp [leaves, FileAt]
  | [], .directory es => by simp [leaves, FileAt, mem_leavesOfEntries]
  | n :: ns, .directory es => by
    rw [leaves, mem_leavesOfEntries, FileAt]
    constructor
    · rintro ⟨m, t, ms, hmem, hms, heq⟩
      cases heq
      exact ⟨t, hmem, mem_leaves.1 hms⟩
    · rintro ⟨t, hmem, hfile⟩
      exact ⟨n, t, ns, hmem, mem_leaves.2 hfile, rfl⟩

/-- The files of a tree are in the order of their names. -/
theorem WF.leaves_sorted {t : FileTree} (h : t.WF) : (leaves t).Pairwise (· < ·) := by
  induction h with
  | file content => exact List.pairwise_singleton _ _
  | @directory es sorted named below ih =>
    rw [leaves]
    clear named below
    induction es with
    | nil => exact .nil
    | cons e es ihes =>
      obtain ⟨n, t⟩ := e
      obtain ⟨hfirst, hsorted⟩ := List.pairwise_cons.1 sorted
      obtain ⟨ht, hes⟩ := List.forall_mem_cons.1 ih
      rw [leavesOfEntries]
      refine List.pairwise_append.2 ⟨List.pairwise_map.2 (ht.imp fun hlt => ?_), ihes hsorted hes, ?_⟩
      · exact List.cons_lt_cons_iff.2 (.inr ⟨rfl, hlt⟩)
      · -- the names of different entries differ first in these entries
        intro a ha b hb
        obtain ⟨as, -, rfl⟩ := List.mem_map.1 ha
        obtain ⟨m, s, bs, hmem, -, rfl⟩ := mem_leavesOfEntries.1 hb
        exact List.cons_lt_cons_iff.2 (.inl (hfirst _ hmem))

/-- A file below a path: the path of the file, and its own name. -/
def pathBelow (path : String) (ns : List String) : String × String :=
  (Path.clean (path ++ "/" ++ String.intercalate "/" ns), ns.getLastD "")

theorem filesOfEntries_of {es : List (String × FileTree)} {path : String}
    (h : ∀ e ∈ es, files (Path.join path e.1) e.1 e.2 = (leaves e.2).map fun ns => pathBelow path (e.1 :: ns)) :
    filesOfEntries path es = (leavesOfEntries es).map (pathBelow path) := by
  induction es with
  | nil => rfl
  | cons e es ih =>
    obtain ⟨n, t⟩ := e
    obtain ⟨ht, hes⟩ := List.forall_mem_cons.1 h
    rw [filesOfEntries, ht, ih hes, leavesOfEntries, List.map_append, List.map_map]
    rfl

/-- The files of an entry of a directory are listed with the paths that their names make behind the path of the
directory. -/
theorem WF.files_eq {t : FileTree} (h : t.WF) : ∀ {path n : String}, path ≠ "" → Proper n →
    files (Path.join path n) n t = (leaves t).map fun ns => pathBelow path (n :: ns) := by
  induction h with
  | file content =>
    intro path n _ _
    rw [files, leaves, List.map_singleton, pathBelow, String.intercalate_singleton, Path.join]
    rfl
  | @directory es sorted named below ih =>
    intro path n hpath hn
    rw [files, leaves, filesOfEntries_of fun e he => ih e he (Path.join_ne_empty path n) (named e he).1]
    refine List.map_congr_left fun ns hns => ?_
    have hfile : FileAt ns (.directory es) := mem_leaves.1 (by rwa [leaves])
    have hproper := (WF.directory sorted named below).names_of_fileAt hfile
    cases ns with
    | nil => cases hfile
    | cons m ns =>
      unfold pathBelow
      rw [Path.clean_join hpath hn (List.cons_ne_nil m ns) hproper]
      rfl

theorem WF.filesOfEntries_eq {es : List (String × FileTree)} (h : WF (.directory es)) {path : String}
    (hpath : path ≠ "") : filesOfEntries path es = (leaves (.directory es)).map (pathBelow path) := by
  obtain _ | ⟨sorted, named, below⟩ := h
  rw [leaves]
  exact filesOfEntries_of fun e he => (below e he).files_eq hpath (named e he).1

end FileTree

/-! ## Sources -/

namespace Disk

/-- The sources that a path stands for: a file for itself; a directory for the files below it whose own names
are asked for, in the order of the names that lead to them. -/
inductive Stands (d : Disk) (f : NameFilter) (path : String) : List String → Prop
  | file {content : String} (found : d.find path = .ok (.file content)) : Stands d f path [Path.clean path]
  | directory {es : List (String × FileTree)} {below : List (List String)} (found : d.find path = .ok (.directory es))
    (sorted : below.Pairwise (· < ·))
    (mem_iff : ∀ ns, ns ∈ below ↔ FileTree.FileAt ns (.directory es) ∧ f.wants (ns.getLastD "") = true) :
    Stands d f path (below.map fun ns => Path.clean (path ++ "/" ++ String.intercalate "/" ns))

variable {d : Disk} {start : Bool → Location} {f : NameFilter} {path : String} {out : List String}

theorem Plain.exists_stands (hd : d.Plain start) (hf : f.WF) {t : FileTree} (h : d.find path = .ok t) :
    ∃ out, d.sourcesAt f path = .ok out ∧ d.Stands f path out := by
  have hwf := hd.wf_of_find h
  obtain ⟨hpath, -⟩ := (hd.find_iff path t).1 h
  unfold sourcesAt stat
  rw [h]
  cases t with
  | file content => exact ⟨_, rfl, .file h⟩
  | directory es =>
    dsimp only
    rw [hwf.filesOfEntries_eq hpath, NameFilter.select_eq hf, List.filter_map, List.map_map]
    refine ⟨_, rfl, .directory h (hwf.leaves_sorted.filter _) fun ns => ?_⟩
    rw [List.mem_filter, FileTree.mem_leaves]
    rfl

/-- A source is a file, found at its shortest path. -/
theorem Plain.find_of_stands (hd : d.Plain start) (h : d.Stands f path out) :
    ∀ p ∈ out, Path.clean p = p ∧ ∃ c, d.find p = .ok (.file c) := by
  cases h with
  | @file content found =>
    intro p hp
    obtain rfl := List.mem_singleton.1 hp
    exact ⟨Path.clean_clean path, content, hd.find_clean found⟩
  | directory found _ mem_iff =>
    intro p hp
    obtain ⟨ns, hns, rfl⟩ := List.mem_map.1 hp
    obtain ⟨hfile, -⟩ := (mem_iff ns).1 hns
    refine ⟨Path.clean_clean _, hd.find_below found ?_ hfile⟩
    rintro rfl
    cases hfile

/-- Files in their shortest form stand for themselves, whatever names are asked for. -/
theorem expand_files {paths : List String} (hnodup : paths.Nodup)
    (h : ∀ p ∈ paths, Path.clean p = p ∧ ∃ c, d.find p = .ok (.file c)) (g : NameFilter) :
    d.expand g paths = .ok paths := by
  have hmap : paths.mapM (d.sourcesAt g) = .ok (paths.map fun p => [p]) := by
    refine mapM_eq_ok.2 ?_
    rw [List.map_map]
    refine List.map_congr_left fun p hp => ?_
    obtain ⟨hclean, c, hc⟩ := h p hp
    unfold sourcesAt stat
    rw [hc]
    dsimp only [Function.comp_apply]
    rw [hclean]
  have hflat : (paths.map fun p => [p]).flatten = paths := by
    rw [← List.flatMap_def, List.flatMap_singleton']
  unfold expand
  rw [hmap]
  show Except.ok _ = _
  rw [hflat, eraseDups_of_nodup hnodup]

theorem forall₂_of_map_eq_ok {f : β → Except ε α} {R : β → α → Prop} {xs : List β} {ys : List α}
    (h : xs.map f = ys.map .ok) (hR : ∀ x ∈ xs, ∀ y, f x = .ok y → R x y) : List.Forall₂ R xs ys := by
  induction xs generalizing ys with
  | nil =>
    obtain rfl := List.map_eq_nil_iff.1 h.symm
    exact .nil
  | cons x xs ih =>
    cases ys with
    | nil => cases h
    | cons y ys =>
      obtain ⟨hx, hxs⟩ := List.cons.inj h
      obtain ⟨hRx, hRxs⟩ := List.forall_mem_cons.1 hR
      exact .cons (hRx y hx) (ih hxs hRxs)

/-- A directory with a source, another file and a directory of three sources. -/
def project : FileTree :=
  .directory [("a.sem", .file ""), ("lib", .directory [("_b.sem", .file ""), ("b.sem", .file ""), ("c.sem", .file "")]),
    ("todo.txt", .file "")]

theorem project_wf : project.WF := by
  refine .directory (by decide) (by decide) (List.forall_mem_cons.2 ⟨.file "", List.forall_mem_cons.2 ⟨?_, ?_⟩⟩)
  · exact .directory (by decide) (by decide) (by simp [FileTree.WF.file])
  · simp [FileTree.WF.file]

/-- Names of sources, but for those that start with an underscore. -/
def sourceNames : NameFilter := { included := ["*.sem"], excluded := ["_*"] }

end Disk

end SemFront
