/-
Disks without symbolic links. What is at a path is found by following its names one by one through a tree of
files, from the top for a rooted path and from some directory else. A step up leads back to where the step
down came from, so a path leads to the same place as its shortest form; and every file below a directory
is found at the path that its names make.
-/
import SemFront.Files.Disk
import SemFront.Proofs.Files.Path

namespace SemFront

open SemFront.Path (Proper Settled)

theorem bind_eq_ok {ε α β : Type} {x : Except ε α} {f : α → Except ε β} {b : β} :
    (x >>= f) = .ok b ↔ ∃ a, x = .ok a ∧ f a = .ok b := by
  cases x with
  | error e =>
    constructor
    · exact fun h => by cases h
    · rintro ⟨_, ⟨⟩, -⟩
  | ok a =>
    constructor
    · exact fun h => ⟨a, rfl, h⟩
    · rintro ⟨_, ⟨⟩, h⟩
      exact h

/-! ## Trees -/

namespace FileTree

/-- A tree as directories hold it: the entries are in the order of their names, which are proper. -/
inductive WF : FileTree → Prop
  | file (content : String) : WF (.file content)
  | directory {es : List (String × FileTree)} (sorted : es.Pairwise fun a b => a.1 < b.1)
    (named : ∀ e ∈ es, Proper e.1 ∧ '\x00' ∉ e.1.toList) (below : ∀ e ∈ es, WF e.2) : WF (.directory es)

/-- Some names lead to a file of the tree. -/
def FileAt : List String → FileTree → Prop
  | [], .file _ => True
  | n :: ns, .directory es => ∃ t, (n, t) ∈ es ∧ FileAt ns t
  | _, _ => False

variable {t : FileTree} {es : List (String × FileTree)} {n : String} {ns : List String}

theorem lookup_eq_some (h : es.Pairwise fun a b => a.1 < b.1) : es.lookup n = some t ↔ (n, t) ∈ es := by
  rw [List.lookup_eq_some_iff]
  constructor
  · rintro ⟨as, bs, rfl, -⟩
    exact List.mem_append_right _ List.mem_cons_self
  · intro hmem
    obtain ⟨as, bs, rfl⟩ := List.append_of_mem hmem
    refine ⟨as, bs, rfl, fun a ha => bne_iff_ne.2 fun heq => ?_⟩
    -- an entry before this one has a smaller name
    have hlt := (List.pairwise_append.1 h).2.2 a ha (n, t) List.mem_cons_self
    rw [← heq] at hlt
    exact String.lt_irrefl _ hlt

theorem WF.names_of_fileAt : ∀ {ns : List String} {t : FileTree}, t.WF → FileAt ns t → ∀ n ∈ ns, Proper n
  | [], _, _, _, _, hn => absurd hn List.not_mem_nil
  | n :: ns, .directory es, .directory _ named below, ⟨s, hs, hfile⟩, k, hk => by
    rcases List.mem_cons.1 hk with rfl | hk
    · exact (named _ hs).1
    · exact (below _ hs).names_of_fileAt hfile k hk

end FileTree

/-! ## Places -/

namespace Location

variable {l m k : Location} {n : String} {ns ms : List String}

/-- Some names lead from one place to another. -/
def Leads (l : Location) (ns : List String) (m : Location) : Prop := ns.foldlM Location.step l = .ok m

@[simp] theorem leads_nil : l.Leads [] m ↔ l = m := by
  unfold Leads
  rw [List.foldlM_nil]
  exact ⟨fun h => by cases h; rfl, fun h => by rw [h]; rfl⟩

@[simp] theorem leads_cons : l.Leads (n :: ns) m ↔ ∃ k, l.step n = .ok k ∧ k.Leads ns m := by
  unfold Leads
  rw [List.foldlM_cons, bind_eq_ok]

theorem leads_append : l.Leads (ns ++ ms) m ↔ ∃ k, l.Leads ns k ∧ k.Leads ms m := by
  unfold Leads
  rw [List.foldlM_append, bind_eq_ok]

theorem leads_concat : l.Leads (ns ++ [n]) m ↔ ∃ k, l.Leads ns k ∧ k.step n = .ok m := by
  simp [leads_append]

/-- What one name can lead to: the same directory, the one above it, or an entry of it. -/
theorem step_cases (h : l.step n = .ok m) : ∃ es, l.tree = .directory es ∧
    ((n = "" ∨ n = ".") ∧ m = l ∨
     n = ".." ∧ l.above = m.tree :: m.above ∨
     n ≠ "" ∧ n ≠ "." ∧ n ≠ ".." ∧ es.lookup n = some m.tree ∧ m.above = l.tree :: l.above) := by
  unfold step at h
  split at h
  · cases h
  · rename_i es hes
    refine ⟨es, hes, ?_⟩
    by_cases hskip : n = "" ∨ n = "."
    · rw [if_pos (by simpa using hskip)] at h
      cases h
      exact .inl ⟨hskip, rfl⟩
    · rw [if_neg (by simpa using hskip)] at h
      obtain ⟨hempty, hdot⟩ := not_or.1 hskip
      by_cases hup : n = ".."
      · rw [if_pos hup] at h
        split at h
        · cases h
        · rename_i habove
          cases h
          exact .inr (.inl ⟨hup, habove⟩)
      · rw [if_neg hup] at h
        split at h
        · rename_i hlookup
          cases h
          exact .inr (.inr ⟨hempty, hdot, hup, hlookup, rfl⟩)
        · cases h

/-- By a proper name, a step goes down to the entry of that name. -/
theorem step_proper (hn : Proper n) (h : l.step n = .ok m) :
    l.tree.entries.lookup n = some m.tree ∧ m.above = l.tree :: l.above := by
  obtain ⟨es, hes, ⟨hskip, -⟩ | ⟨rfl, -⟩ | ⟨-, -, -, hlookup, habove⟩⟩ := step_cases h
  · exact absurd hskip (not_or.2 ⟨hn.ne_empty, hn.ne_dot⟩)
  · exact absurd rfl hn.ne_up
  · refine ⟨?_, habove⟩
    rw [hes]
    exact hlookup

theorem step_skip {es : List (String × FileTree)} (hl : l.tree = .directory es) (hn : n = "" ∨ n = ".") :
    l.step n = .ok l := by
  unfold step
  rw [hl]
  exact if_pos (by simpa using hn)

theorem step_entry {es : List (String × FileTree)} {t : FileTree} (hl : l.tree = .directory es) (hn : Proper n)
    (ht : es.lookup n = some t) : l.step n = .ok { tree := t, above := l.tree :: l.above } := by
  unfold step
  rw [hl]
  dsimp only
  rw [if_neg (by simp [hn.ne_empty, hn.ne_dot]), if_neg hn.ne_up, ht]

/-- A step up takes back the step down before it. -/
theorem eq_of_step_up (hn : Proper n) (hdown : l.step n = .ok k) (hup : k.step ".." = .ok m) : m = l := by
  obtain ⟨-, hbelow⟩ := step_proper hn hdown
  obtain ⟨-, -, ⟨hskip, -⟩ | ⟨-, habove⟩ | ⟨-, -, hne, -⟩⟩ := step_cases hup
  · exact absurd hskip (by decide)
  · rw [habove] at hbelow
    obtain ⟨htree, habove⟩ := List.cons.inj hbelow
    cases m
    cases l
    cases htree
    cases habove
    rfl
  · exact absurd rfl hne

/-! ### Shortest paths -/

/-- A name more leads from where the settled names lead to where the settled names with it lead. -/
theorem Leads.push {rooted : Bool} {done : List String} (hdone : Settled rooted done)
    (htop : rooted = true → l.above = []) (h : l.Leads done.reverse k) (hstep : k.step n = .ok m) :
    l.Leads (Path.push rooted done n).reverse m := by
  obtain ⟨es, -, hcase⟩ := step_cases hstep
  rcases hcase with ⟨hskip, rfl⟩ | ⟨rfl, habove⟩ | ⟨hempty, hdot, hup, -, -⟩
  · rwa [Path.push_skip hskip]
  · unfold Path.push
    rw [if_neg (by decide), if_pos rfl]
    cases hdone with
    | nil =>
      obtain rfl := leads_nil.1 h
      cases rooted with
      | true =>
        rw [htop rfl] at habove
        cases habove
      | false => exact leads_cons.2 ⟨m, hstep, leads_nil.2 rfl⟩
    | name hn _ =>
      dsimp only
      rw [if_neg hn.ne_up]
      rw [List.reverse_cons] at h
      obtain ⟨j, hj, hjk⟩ := leads_concat.1 h
      rwa [eq_of_step_up hn hjk hstep]
    | up _ _ =>
      dsimp only
      rw [if_pos rfl, List.reverse_cons]
      exact leads_concat.2 ⟨k, h, hstep⟩
  · have hpush : Path.push rooted done n = n :: done := by
      unfold Path.push
      rw [if_neg (by simp [hempty, hdot]), if_neg hup]
    rw [hpush, List.reverse_cons]
    exact leads_concat.2 ⟨k, h, hstep⟩

theorem Leads.foldl_push {rooted : Bool} (htop : rooted = true → l.above = []) : ∀ {ns done : List String}
    {k : Location}, k.Leads ns m → (∀ n ∈ ns, '/' ∉ n.toList) → Settled rooted done → l.Leads done.reverse k →
    l.Leads (ns.foldl (Path.push rooted) done).reverse m
  | [], _, _, h, _, _, hk => by
    obtain rfl := leads_nil.1 h
    exact hk
  | n :: ns, done, k, h, hns, hdone, hk => by
    obtain ⟨j, hstep, h⟩ := leads_cons.1 h
    obtain ⟨hn, hns⟩ := List.forall_mem_cons.1 hns
    exact h.foldl_push htop hns (hdone.push hn) (hk.push hdone htop hstep)

/-- A path leads to the same place as its shortest form. -/
theorem Leads.clean {p : String} (htop : Path.isRooted p = true → l.above = []) (h : l.Leads (Path.names p) m) :
    l.Leads (Path.names (Path.clean p)) m := by
  have hshort : l.Leads (Path.shortest p) m :=
    h.foldl_push htop (fun _ => Path.noSlash_of_mem_names) .nil (leads_nil.2 rfl)
  -- any path leads on from a directory, and only such a place is left by names that lead nowhere
  obtain ⟨n, ns, hns⟩ := List.exists_cons_of_ne_nil (Path.names_ne_nil p)
  rw [hns] at h
  obtain ⟨k, hstep, -⟩ := leads_cons.1 h
  obtain ⟨es, hes, -⟩ := step_cases hstep
  obtain ⟨skipped, hnames, hskipped⟩ := Path.names_ofNames (Path.settled_shortest p)
  have hstay : ∀ {ms : List String}, (∀ n ∈ ms, n = "" ∨ n = ".") → l.Leads ms l := by
    intro ms hms
    induction ms with
    | nil => exact leads_nil.2 rfl
    | cons n ms ih =>
      obtain ⟨hn, hms⟩ := List.forall_mem_cons.1 hms
      exact leads_cons.2 ⟨l, step_skip hes hn, ih hms⟩
  rw [Path.clean, hnames]
  exact leads_append.2 ⟨l, hstay hskipped, hshort⟩

/-! ### Well-formed places -/

/-- All directories at a place and above it are well-formed. -/
def WF (l : Location) : Prop := l.tree.WF ∧ ∀ t ∈ l.above, t.WF

theorem WF.step (hl : l.WF) (h : l.step n = .ok m) : m.WF ∧ '\x00' ∉ n.toList := by
  obtain ⟨htree, habove⟩ := hl
  obtain ⟨es, hes, hcase⟩ := step_cases h
  rcases hcase with ⟨hskip, rfl⟩ | ⟨rfl, hup⟩ | ⟨-, -, -, hlookup, hdown⟩
  · refine ⟨⟨htree, habove⟩, ?_⟩
    rcases hskip with rfl | rfl <;> decide
  · rw [hup] at habove
    exact ⟨⟨habove _ List.mem_cons_self, fun t ht => habove t (List.mem_cons_of_mem _ ht)⟩, by decide⟩
  · rw [hes] at htree
    obtain _ | ⟨sorted, named, below⟩ := htree
    have hmem := (FileTree.lookup_eq_some sorted).1 hlookup
    refine ⟨⟨below _ hmem, ?_⟩, (named _ hmem).2⟩
    rw [hdown, hes]
    exact List.forall_mem_cons.2 ⟨.directory sorted named below, habove⟩

theorem Leads.wf : ∀ {ns : List String} {l : Location}, l.Leads ns m → l.WF →
    m.WF ∧ ∀ n ∈ ns, '\x00' ∉ n.toList
  | [], l, h, hl => by
    obtain rfl := leads_nil.1 h
    exact ⟨hl, fun n hn => absurd hn List.not_mem_nil⟩
  | n :: ns, l, h, hl => by
    obtain ⟨k, hstep, h⟩ := leads_cons.1 h
    obtain ⟨hk, hn⟩ := hl.step hstep
    obtain ⟨hm, hns⟩ := h.wf hk
    exact ⟨hm, List.forall_mem_cons.2 ⟨hn, hns⟩⟩

/-- The names of a file below a place lead there. -/
theorem leads_fileAt : ∀ {ns : List String} {l : Location}, l.tree.WF → FileTree.FileAt ns l.tree →
    ∃ m c, l.Leads ns m ∧ m.tree = .file c
  | [], ⟨.file c, above⟩, _, _ => ⟨_, c, leads_nil.2 rfl, rfl⟩
  | n :: ns, ⟨.directory es, above⟩, .directory sorted named below, ⟨t, ht, hfile⟩ => by
    have hstep := step_entry (l := ⟨.directory es, above⟩) rfl (named _ ht).1
      ((FileTree.lookup_eq_some sorted).2 ht)
    obtain ⟨m, c, hm, hc⟩ := leads_fileAt (l := ⟨t, .directory es :: above⟩) (below _ ht) hfile
    exact ⟨m, c, leads_cons.2 ⟨_, hstep, hm⟩, hc⟩

end Location

/-! ## Disks -/

/-- A disk without symbolic links: what is at a path is what its names lead to, one by one, from one place for
rooted paths, which has nothing above it, and from another one for all others. -/
structure Disk.Plain (d : Disk) (start : Bool → Location) : Prop where
  wf : ∀ rooted, (start rooted).WF
  top : (start true).above = []
  find_iff : ∀ p t, d.find p = .ok t ↔
    p ≠ "" ∧ ∃ l, (start (Path.isRooted p)).Leads (Path.names p) l ∧ l.tree = t

namespace Disk.Plain

variable {d : Disk} {start : Bool → Location} {p : String} {t : FileTree} {ns : List String}

theorem wf_of_find (hd : d.Plain start) (h : d.find p = .ok t) : t.WF := by
  obtain ⟨-, l, hl, rfl⟩ := (hd.find_iff p t).1 h
  exact (hl.wf (hd.wf _)).1.1

theorem find_clean (hd : d.Plain start) (h : d.find p = .ok t) : d.find (Path.clean p) = .ok t := by
  obtain ⟨-, l, hl, ht⟩ := (hd.find_iff p t).1 h
  refine (hd.find_iff _ t).2 ⟨Path.clean_ne_empty p, l, ?_, ht⟩
  rw [Path.isRooted_clean]
  refine hl.clean fun hrooted => ?_
  rw [hrooted]
  exact hd.top

/-- The files below a path are found at the paths that their names make behind it. -/
theorem find_below (hd : d.Plain start) (h : d.find p = .ok t) (hns : ns ≠ []) (hfile : FileTree.FileAt ns t) :
    ∃ c, d.find (Path.clean (p ++ "/" ++ String.intercalate "/" ns)) = .ok (.file c) := by
  have hnamed := (hd.wf_of_find h).names_of_fileAt hfile
  obtain ⟨hp, l, hl, rfl⟩ := (hd.find_iff p t).1 h
  obtain ⟨m, c, hm, hc⟩ := Location.leads_fileAt (hl.wf (hd.wf _)).1.1 hfile
  refine ⟨c, hd.find_clean ((hd.find_iff _ _).2 ⟨by simp [hp], m, ?_, hc⟩)⟩
  rw [String.append_assoc, Path.isRooted_append hp, ← String.append_assoc, Path.names_append,
    Path.names_intercalate hns fun n hn => (hnamed n hn).noSlash]
  exact Location.leads_append.2 ⟨l, hl, hm⟩

end Disk.Plain

/-- What is found in a tree is what the names of a path lead to from its top. -/
theorem FileTree.find_eq_ok {t s : FileTree} {p : String} : t.find p = .ok s ↔
    '\x00' ∉ p.toList ∧ p ≠ "" ∧ Path.isRooted p = false ∧
      ∃ l, Location.Leads { tree := t } (Path.names p) l ∧ l.tree = s := by
  unfold find
  split
  · rename_i hnul
    exact ⟨fun h => (by cases h), fun h => absurd (List.contains_iff_mem.1 hnul) h.1⟩
  · rename_i hnul
    have hnul : '\x00' ∉ p.toList := fun h => hnul (List.contains_iff_mem.2 h)
    split
    · rename_i hstart
      constructor
      · exact fun h => by cases h
      · rintro ⟨-, hempty, hrooted, -⟩
        simp [hempty, hrooted] at hstart
    · rename_i hstart
      obtain ⟨hempty, hrooted⟩ : p ≠ "" ∧ Path.isRooted p = false := by simpa using hstart
      unfold Location.Leads
      cases (Path.names p).foldlM Location.step { tree := t } with
      | error e => simp [Except.map]
      | ok l => simp [Except.map, hnul, hempty, hrooted]

/-- The disk that holds one tree has no symbolic links; nothing is found at rooted paths. -/
theorem FileTree.disk_plain {t : FileTree} (ht : t.WF) :
    t.disk.Plain fun rooted => { tree := if rooted then .file "" else t } where
  wf rooted := by
    refine ⟨?_, fun s hs => absurd hs List.not_mem_nil⟩
    cases rooted with
    | true => exact .file ""
    | false => exact ht
  top := rfl
  find_iff p s := by
    refine FileTree.find_eq_ok.trans ?_
    cases hrooted : Path.isRooted p with
    | true =>
      constructor
      · rintro ⟨-, -, ⟨⟩, -⟩
      · -- a rooted path has a name, and a file leads nowhere
        rintro ⟨-, l, hl, -⟩
        obtain ⟨n, ns, hns⟩ := List.exists_cons_of_ne_nil (Path.names_ne_nil p)
        rw [hns] at hl
        obtain ⟨k, hstep, -⟩ := Location.leads_cons.1 hl
        cases hstep
    | false =>
      constructor
      · rintro ⟨-, hempty, -, h⟩
        exact ⟨hempty, h⟩
      · rintro ⟨hempty, l, hl, hs⟩
        refine ⟨fun hnul => ?_, hempty, rfl, l, hl, hs⟩
        -- no name of a tree holds such a character
        obtain ⟨n, hn, hmem⟩ := Path.exists_name_of_mem hnul (by decide)
        exact (hl.wf ⟨ht, fun s hs => absurd hs List.not_mem_nil⟩).2 n hn hmem

end SemFront
