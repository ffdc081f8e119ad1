/-
Files that were written are found. A file is put below the shortest names of its path, while what is at a path
is found by following all its names; the directories on the way are the same ones before and after, so the
names that lead to the directory of the file still do.
-/
import SemFront.Proofs.Files.Plain

namespace SemFront

open SemFront.Path (Proper)

/-! ## Trees with a leaf more -/

namespace FileTree

/-- Some names lead to a directory of the tree. -/
def DirectoryAt : List String → FileTree → Prop
  | [], t => t.isDirectory = true
  | n :: ns, t => ∃ s, t.entries.lookup n = some s ∧ DirectoryAt ns s

variable {t u : FileTree} {c : String} {ps ts : List String}

theorem lookup_cons (m n : String) (t : FileTree) (es : List (String × FileTree)) :
    ((n, t) :: es).lookup m = if m = n then some t else es.lookup m := by
  rw [List.lookup_cons]
  by_cases h : m = n
  · rw [if_pos h, beq_iff_eq.2 h]
  · rw [if_neg h, beq_eq_false_iff_ne.2 h]

theorem lookup_putEntry (m n : String) (t : FileTree) (es : List (String × FileTree)) :
    (putEntry n t es).lookup m = if m = n then some t else es.lookup m := by
  induction es with
  | nil => rw [putEntry, lookup_cons]
  | cons e es ih =>
    obtain ⟨other, s⟩ := e
    rw [putEntry]
    by_cases hn : n = other
    · subst hn
      rw [if_pos rfl, lookup_cons, lookup_cons]
      split <;> rfl
    · rw [if_neg hn]
      split
      · rw [lookup_cons]
      · rw [lookup_cons, ih, lookup_cons]
        by_cases h : m = n
        · rw [if_pos h, if_pos h, if_neg (h ▸ hn)]
        · rw [if_neg h, if_neg h]

theorem DirectoryAt.isDirectory (h : DirectoryAt ps t) : t.isDirectory = true := by
  cases ps with
  | nil => exact h
  | cons p ps =>
    obtain ⟨s, hs, -⟩ := h
    cases t with
    | file c => cases hs
    | directory es => rfl

/-- A file that takes the place of no directory leaves all directories where they are. -/
theorem DirectoryAt.putAt (h : DirectoryAt ps t) (hts : ¬ DirectoryAt ts t) :
    DirectoryAt ps (putAt (.file c) ts t) := by
  induction ps generalizing t ts with
  | nil =>
    cases ts with
    | nil => exact absurd h hts
    | cons n ns => rfl
  | cons p ps ih =>
    cases ts with
    | nil => exact absurd h.isDirectory hts
    | cons n ns =>
      obtain ⟨s, hs, h⟩ := h
      by_cases hp : p = n
      · subst hp
        refine ⟨FileTree.putAt (.file c) ns s, ?_, ih h fun hns => hts ⟨s, hs, hns⟩⟩
        rw [FileTree.putAt, entries, lookup_putEntry, if_pos rfl, hs, Option.getD_some]
      · refine ⟨s, ?_, h⟩
        rw [FileTree.putAt, entries, lookup_putEntry, if_neg hp, hs]

end FileTree

/-! ## Places in them -/

namespace Location

variable {l m k k' : Location} {t u : FileTree} {d n : String} {ns ps done : List String}

theorem Leads.unique (h : l.Leads ns m) (h' : l.Leads ns k) : m = k := Except.ok.inj (h.symm.trans h')

theorem step_isDirectory (h : l.step n = .ok m) : l.tree.isDirectory = true := by
  obtain ⟨es, hes, -⟩ := step_cases h
  rw [hes]
  rfl

theorem Leads.isDirectory (h : l.Leads ns m) (hm : m.tree.isDirectory = true) : l.tree.isDirectory = true := by
  cases ns with
  | nil =>
    obtain rfl := leads_nil.1 h
    exact hm
  | cons n ns =>
    obtain ⟨k, hstep, -⟩ := leads_cons.1 h
    exact step_isDirectory hstep

theorem step_of_lookup (hn : Proper n) (ht : l.tree.entries.lookup n = some t) :
    l.step n = .ok { tree := t, above := l.tree :: l.above } := by
  cases hl : l.tree with
  | file c => rw [hl] at ht; cases ht
  | directory es =>
    rw [hl] at ht
    rw [← hl]
    exact step_entry hl hn ht

theorem leads_directoryAt (hps : ∀ n ∈ ps, Proper n) (h : FileTree.DirectoryAt ps l.tree) :
    ∃ m, l.Leads ps m ∧ m.tree.isDirectory = true := by
  induction ps generalizing l with
  | nil => exact ⟨l, leads_nil.2 rfl, h⟩
  | cons n ns ih =>
    obtain ⟨hn, hns⟩ := List.forall_mem_cons.1 hps
    obtain ⟨s, hs, h⟩ := h
    obtain ⟨m, hm, hdir⟩ := @ih { tree := s, above := l.tree :: l.above } hns h
    exact ⟨m, leads_cons.2 ⟨_, step_of_lookup hn hs, hm⟩, hdir⟩

theorem Leads.directoryAt (hps : ∀ n ∈ ps, Proper n) (h : l.Leads ps m) (hm : m.tree.isDirectory = true) :
    FileTree.DirectoryAt ps l.tree := by
  induction ps generalizing l with
  | nil =>
    obtain rfl := leads_nil.1 h
    exact hm
  | cons n ns ih =>
    obtain ⟨hn, hns⟩ := List.forall_mem_cons.1 hps
    obtain ⟨k, hstep, h⟩ := leads_cons.1 h
    exact ⟨k.tree, (step_proper hn hstep).1, ih hns h⟩

/-- The names under which a file was put lead to it. -/
theorem leads_putAt {leaf : FileTree} (hps : ∀ n ∈ ps, Proper n) (h : l.tree = FileTree.putAt leaf ps t) :
    ∃ m, l.Leads ps m ∧ m.tree = leaf := by
  induction ps generalizing l t with
  | nil => exact ⟨l, leads_nil.2 rfl, h⟩
  | cons n ns ih =>
    obtain ⟨hn, hns⟩ := List.forall_mem_cons.1 hps
    have hlookup : l.tree.entries.lookup n =
        some (FileTree.putAt leaf ns ((t.entries.lookup n).getD FileTree.empty)) := by
      rw [h, FileTree.putAt, FileTree.entries, FileTree.lookup_putEntry, if_pos rfl]
    obtain ⟨m, hm, hleaf⟩ := @ih { tree := _, above := l.tree :: l.above } _ hns rfl
    exact ⟨m, leads_cons.2 ⟨_, step_of_lookup hn hlookup, hm⟩, hleaf⟩

/-- From a directory, a step up leads back to where the step down came from. -/
theorem step_up (hd : Proper d) (h : l.step d = .ok k) (hk : k.tree.isDirectory = true) : k.step ".." = .ok l := by
  unfold step
  cases hes : k.tree with
  | file c => rw [hes] at hk; cases hk
  | directory es =>
    dsimp only
    rw [if_neg (by decide), if_pos rfl, (step_proper hd h).2]

/-- If one tree has all the directories of another, then names that lead to a directory in the other lead to one in
it, and both are below the same proper names. -/
theorem Leads.carry (hsub : ∀ ps, FileTree.DirectoryAt ps t → FileTree.DirectoryAt ps u) :
    k.Leads ns l → l.tree.isDirectory = true → (∀ n ∈ ns, '/' ∉ n.toList) → (∀ n ∈ done, Proper n) →
    Leads { tree := t } done.reverse k → Leads { tree := u } done.reverse k' →
    ∃ l', k'.Leads ns l' ∧ (∀ n ∈ ns.foldl (Path.push false) done, Proper n) ∧
      Leads { tree := t } (ns.foldl (Path.push false) done).reverse l ∧
      Leads { tree := u } (ns.foldl (Path.push false) done).reverse l' := by
  intro h hl hslash hproper hk hk'
  have hrev {ps : List String} (h : ∀ n ∈ ps, Proper n) : ∀ n ∈ ps.reverse, Proper n :=
    fun n hn => h n (List.mem_reverse.1 hn)
  induction ns generalizing k k' done with
  | nil =>
    obtain rfl := leads_nil.1 h
    exact ⟨k', leads_nil.2 rfl, hproper, hk, hk'⟩
  | cons n ns ih =>
    obtain ⟨m, hstep, h⟩ := leads_cons.1 h
    obtain ⟨hn, hns⟩ := List.forall_mem_cons.1 hslash
    have hdir' : k'.tree.isDirectory = true := by
      obtain ⟨j, hj, hdir⟩ := leads_directoryAt (l := { tree := u }) (hrev hproper)
        (hsub _ (hk.directoryAt (hrev hproper) (step_isDirectory hstep)))
      rwa [hk'.unique hj]
    -- one name leads to the same names in both trees, and the rest follows from there
    suffices hone : ∃ m', k'.step n = .ok m' ∧ (∀ p ∈ Path.push false done n, Proper p) ∧
        Leads { tree := t } (Path.push false done n).reverse m ∧
        Leads { tree := u } (Path.push false done n).reverse m' by
      obtain ⟨m', hstep', hproper, hm, hm'⟩ := hone
      obtain ⟨l', hl', hrest⟩ := ih h hns hproper hm hm'
      exact ⟨l', leads_cons.2 ⟨m', hstep', hl'⟩, hrest⟩
    obtain ⟨es, -, ⟨hskip, rfl⟩ | ⟨rfl, habove⟩ | ⟨hempty, hdot, hup, -, -⟩⟩ := step_cases hstep
    · rw [Path.push_skip hskip]
      cases hes : k'.tree with
      | file c => rw [hes] at hdir'; cases hdir'
      | directory es' => exact ⟨k', step_skip hes hskip, hproper, hk, hk'⟩
    · cases done with
      | nil =>
        obtain rfl := leads_nil.1 hk
        cases habove
      | cons d done =>
        obtain ⟨hd, hdone⟩ := List.forall_mem_cons.1 hproper
        rw [List.reverse_cons] at hk hk'
        obtain ⟨j, hj, hjk⟩ := leads_concat.1 hk
        obtain ⟨j', hj', hjk'⟩ := leads_concat.1 hk'
        have hpush : Path.push false (d :: done) ".." = done := by
          unfold Path.push
          rw [if_neg (by decide), if_pos rfl]
          exact if_neg hd.ne_up
        rw [hpush, eq_of_step_up hd hjk hstep]
        exact ⟨j', step_up hd hjk' hdir', hdone, hj, hj'⟩
    · have hn : Proper n := ⟨hempty, hdot, hup, hn⟩
      have hproper' : ∀ p ∈ n :: done, Proper p := List.forall_mem_cons.2 ⟨hn, hproper⟩
      have hm : Leads { tree := t } (n :: done).reverse m := by
        rw [List.reverse_cons]
        exact leads_concat.2 ⟨k, hk, hstep⟩
      obtain ⟨m', hm', -⟩ := leads_directoryAt (l := { tree := u }) (hrev hproper')
        (hsub _ (hm.directoryAt (hrev hproper') (h.isDirectory hl)))
      rw [Path.push_name hn]
      refine ⟨m', ?_, hproper', hm, hm'⟩
      rw [List.reverse_cons] at hm'
      obtain ⟨j', hj', hstep'⟩ := leads_concat.1 hm'
      rwa [hk'.unique hj']

end Location

/-! ## Written files -/

namespace FileTree

variable {t u : FileTree} {path c name : String} {before : List String} {place : Location}

/-- The place for a file: the names before the last lead to a directory, which has no directory under the last
name. -/
structure Slot (t : FileTree) (path : String) (before : List String) (name : String) (place : Location) : Prop where
  names : Path.names path = before ++ [name]
  leads : Location.Leads { tree := t } before place
  isDirectory : place.tree.isDirectory = true
  proper : Proper name
  free : ∀ s, place.tree.entries.lookup name = some s → s.isDirectory = false

/-- A file can be written at a path. -/
def TakesFile (t : FileTree) (path : String) : Prop :=
  '\x00' ∉ path.toList ∧ path ≠ "" ∧ Path.isRooted path = false ∧ ∃ before name place, t.Slot path before name place

/-- A file can be written exactly where there is a place for it, and then it is put there. -/
theorem writeFile_eq_ok : t.writeFile path c = .ok u ↔ t.TakesFile path ∧ u = t.write path c := by
  have hnames := List.dropLast_concat_getLast (Path.names_ne_nil path)
  have hslash : '/' ∉ ((Path.names path).getLast (Path.names_ne_nil path)).toList :=
    Path.noSlash_of_mem_names (List.getLast_mem _)
  unfold writeFile TakesFile
  rw [List.getLastD_eq_getLast?, List.getLast?_eq_some_getLast (Path.names_ne_nil path), Option.getD_some]
  generalize (Path.names path).dropLast = before at hnames
  generalize (Path.names path).getLast (Path.names_ne_nil path) = name at hnames hslash
  constructor
  · intro h
    split at h
    · cases h
    rename_i hnul
    split at h
    · cases h
    rename_i hstart
    obtain ⟨hempty, hrooted⟩ : path ≠ "" ∧ Path.isRooted path = false := by simpa using hstart
    obtain ⟨place, hplace, h⟩ := bind_eq_ok.1 h
    dsimp only at h
    split at h
    · cases h
    rename_i es hes
    split at h
    · cases h
    rename_i hname
    simp only [Bool.or_eq_true, decide_eq_true_eq, not_or] at hname
    split at h
    · cases h
    rename_i hnone
    refine ⟨⟨by simpa using hnul, hempty, hrooted, before, name, place, hnames.symm, hplace, by rw [hes]; rfl,
      ⟨hname.1.1, hname.1.2, hname.2, hslash⟩, ?_⟩, (Except.ok.inj h).symm⟩
    rw [hes]
    rintro (_ | below) hbelow
    · rfl
    · exact absurd hbelow (hnone below)
  · rintro ⟨⟨hnul, hempty, hrooted, before', name', place, slot⟩, rfl⟩
    obtain ⟨rfl, hlast⟩ := List.append_inj' (hnames.trans slot.names) rfl
    obtain rfl := List.singleton_inj.1 hlast
    rw [if_neg (by simpa using hnul), if_neg (by simp [hempty, hrooted])]
    refine bind_eq_ok.2 ⟨place, slot.leads, ?_⟩
    have hdir := slot.isDirectory
    have hfree := slot.free
    dsimp only
    split
    · rename_i hes
      rw [hes] at hdir
      cases hdir
    · rename_i es hes
      rw [hes] at hfree
      rw [if_neg (by simp [slot.proper.ne_empty, slot.proper.ne_dot, slot.proper.ne_up])]
      split
      · rename_i hbelow
        cases hfree _ hbelow
      · rfl

namespace Slot

theorem noSlash (h : t.Slot path before name place) : ∀ n ∈ before, '/' ∉ n.toList := fun _ hn =>
  Path.noSlash_of_mem_names (h.names ▸ List.mem_append_left _ hn)

/-- The shortest names of the path lead to the same directory, and are proper. -/
theorem shortest (h : t.Slot path before name place) (hrooted : Path.isRooted path = false) :
    ∃ done, Path.shortest path = done.reverse ++ [name] ∧ done = before.foldl (Path.push false) [] ∧
      (∀ n ∈ done.reverse ++ [name], Proper n) ∧ Location.Leads { tree := t } done.reverse place := by
  obtain ⟨-, -, hproper, hleads, -⟩ := h.leads.carry (fun _ => id) h.isDirectory h.noSlash
    (fun _ hn => absurd hn List.not_mem_nil) (Location.leads_nil.2 rfl) (Location.leads_nil.2 rfl)
  refine ⟨_, ?_, rfl, fun n hn => ?_, hleads⟩
  · rw [Path.shortest, hrooted, h.names, List.foldl_append, List.foldl_cons, List.foldl_nil,
      Path.push_name h.proper, List.reverse_cons]
  · rcases List.mem_append.1 hn with hn | hn
    · exact hproper n (List.mem_reverse.1 hn)
    · exact List.mem_singleton.1 hn ▸ h.proper

theorem not_directoryAt (h : t.Slot path before name place) {ps : List String}
    (hleads : Location.Leads { tree := t } ps place) (hproper : ∀ n ∈ ps ++ [name], Proper n) :
    ¬ DirectoryAt (ps ++ [name]) t := by
  intro hat
  obtain ⟨m, hm, hdir⟩ := Location.leads_directoryAt (l := { tree := t }) hproper hat
  obtain ⟨k, hk, hstep⟩ := Location.leads_concat.1 hm
  obtain rfl := hleads.unique hk
  rw [h.free m.tree (Location.step_proper h.proper hstep).1] at hdir
  cases hdir

end Slot

/-- A file that could be written is where it was written. -/
theorem find_writeFile (h : t.writeFile path c = .ok u) : u.find path = .ok (.file c) := by
  obtain ⟨⟨hnul, hempty, hrooted, before, name, place, slot⟩, rfl⟩ := writeFile_eq_ok.1 h
  obtain ⟨done, hshort, hdone, hproper, hleads⟩ := slot.shortest hrooted
  have hsub : ∀ ps, DirectoryAt ps t → DirectoryAt ps (t.write path c) := by
    intro ps hps
    rw [write, hshort]
    exact hps.putAt (slot.not_directoryAt hleads hproper)
  -- all names but the last lead to the directory of the file, and there the last one leads to it
  obtain ⟨l, hl, -, -, hl'⟩ := slot.leads.carry hsub slot.isDirectory slot.noSlash
    (fun _ hn => absurd hn List.not_mem_nil) (Location.leads_nil.2 rfl) (Location.leads_nil.2 rfl)
  obtain ⟨m, hm, hfile⟩ := Location.leads_putAt (l := { tree := t.write path c }) (t := t) hproper
    (by rw [write, hshort])
  obtain ⟨k, hk, hstep⟩ := Location.leads_concat.1 hm
  rw [← hdone] at hl'
  obtain rfl := hl'.unique hk
  refine find_eq_ok.2 ⟨hnul, hempty, hrooted, m, ?_, hfile⟩
  rw [slot.names]
  exact Location.leads_concat.2 ⟨l, hl, hstep⟩

theorem read_writeFile (h : t.writeFile path c = .ok u) : u.disk.read path = .ok c := by
  have hfind : u.disk.find path = .ok (.file c) := find_writeFile h
  rw [Disk.read, hfind]

end FileTree

end SemFront
