/-
The order in which members and declarations are written. A class keeps its properties and its
methods apart, and a program its classes and its functions; both are written in the order of the
source, which their starts give back: what was read in turn is written in turn, and of what is
written each list keeps its own order. So the text of a program, and the program itself up to
spans, depend only on what is written and in which order.
-/
import Mathlib.Data.List.Sort
import SemFront.Proofs.Tree.Erase
import SemFront.Proofs.Tree.Lexemes

namespace SemFront

/-! ## Sorting by keys -/

/-- The order in which elements come by their keys. -/
theorem stableSort_eq_insertionSort [LinearOrder κ] (key : α → κ) (xs : List α) :
    stableSort (fun a b => key a < key b) xs = xs.insertionSort (fun a b => key a ≤ key b) := by
  have hinsert : ∀ (x : α) (ys : List α), insertBy (fun a b => key a < key b) x ys =
      ys.orderedInsert (fun a b => key a ≤ key b) x := by
    intro x ys
    induction ys with
    | nil => rfl
    | cons y ys ih =>
      rw [insertBy, List.orderedInsert_cons, ih]
      by_cases h : key y < key x
      · rw [if_pos (by simpa using h), if_neg (not_le.2 h)]
      · rw [if_neg (by simpa using h), if_pos (not_lt.1 h)]
  induction xs with
  | nil => rfl
  | cons x xs ih => rw [stableSort, ih, hinsert, List.insertionSort_cons]

section Sorting

variable [LinearOrder κ] (key : α → κ)

theorem stableSort_perm (xs : List α) : (stableSort (fun a b => key a < key b) xs).Perm xs := by
  rw [stableSort_eq_insertionSort]
  exact List.perm_insertionSort _ _

theorem stableSort_ascending (xs : List α) :
    (stableSort (fun a b => key a < key b) xs).Pairwise fun a b => key a ≤ key b := by
  have : IsTrans α fun a b => key a ≤ key b := ⟨fun _ _ _ => le_trans⟩
  have : Std.Total fun a b : α => key a ≤ key b := ⟨fun _ _ => le_total _ _⟩
  rw [stableSort_eq_insertionSort]
  exact List.pairwise_insertionSort _ _

variable {xs : List α}

theorem mem_stableSort {x : α} : x ∈ stableSort (fun a b => key a < key b) xs ↔ x ∈ xs :=
  (stableSort_perm key xs).mem_iff

/-- Sorting brings elements into the order of their keys, if these are all different. -/
theorem stableSort_eq_of_perm {ys : List α} (h : xs.Perm ys) (hy : ys.Pairwise fun a b => key a < key b) :
    stableSort (fun a b => key a < key b) xs = ys := by
  have hperm := (stableSort_perm key xs).trans h
  refine hperm.eq_of_pairwise ?_ (stableSort_ascending key xs) (hy.imp le_of_lt)
  intro a b ha hb hab hba
  have hkeys : (ys.map key).Nodup := List.pairwise_map.2 (hy.imp ne_of_lt)
  exact List.inj_on_of_nodup_map hkeys (hperm.mem_iff.1 ha) hb (le_antisymm hab hba)

/-- What comes with ascending keys is not reordered by sorting. -/
theorem sublist_stableSort {ys : List α} (hy : ys.Pairwise fun a b => key a ≤ key b) (hsub : ys.Sublist xs) :
    ys.Sublist (stableSort (fun a b => key a < key b) xs) := by
  rw [stableSort_eq_insertionSort]
  exact List.sublist_insertionSort hy hsub

theorem filter_stableSort {p : α → Bool} (h : (xs.filter p).Pairwise fun a b => key a ≤ key b) :
    (stableSort (fun a b => key a < key b) xs).filter p = xs.filter p := by
  have hs := (sublist_stableSort key h List.filter_sublist).filter p
  have hlen := ((stableSort_perm key xs).filter p).length_eq
  rw [List.filter_filter] at hs
  simp only [Bool.and_self] at hs
  exact (hs.eq_of_length hlen.symm).symm

theorem filterMap_stableSort {f : β → α} {f? : α → Option β} (hf : ∀ b, f? (f b) = some b) {bs : List β}
    (hsub : (bs.map f).Sublist xs) (hx : xs.filterMap f? = bs)
    (hb : bs.Pairwise fun a b => key (f a) ≤ key (f b)) :
    (stableSort (fun a b => key a < key b) xs).filterMap f? = bs := by
  have hmap : (bs.map f).filterMap f? = bs := by
    rw [List.filterMap_map]
    exact (List.filterMap_congr fun b _ => hf b).trans List.filterMap_some
  have hs := (sublist_stableSort key (List.pairwise_map.2 hb) hsub).filterMap f?
  have hlen := ((stableSort_perm key xs).filterMap f?).length_eq
  rw [hmap] at hs
  rw [hx] at hlen
  exact (hs.eq_of_length hlen.symm).symm

end Sorting

/-! ## Sorting two lists into one -/

/-- A type made of two others. -/
structure Mix (f : β → α) (g : γ → α) (f? : α → Option β) (g? : α → Option γ) : Prop where
  left : ∀ b, f? (f b) = some b ∧ g? (f b) = none
  right : ∀ c, f? (g c) = none ∧ g? (g c) = some c
  cases : ∀ a, (∃ b, a = f b) ∨ ∃ c, a = g c

namespace Mix

variable {f : β → α} {g : γ → α} {f? : α → Option β} {g? : α → Option γ} (h : Mix f g f? g?) (key : α → Int)
include h

theorem filterMap_left (bs : List β) (cs : List γ) : (bs.map f ++ cs.map g).filterMap f? = bs := by
  have h1 : (bs.map f).filterMap f? = bs := by
    rw [List.filterMap_map]
    exact (List.filterMap_congr fun b _ => (h.left b).1).trans (List.filterMap_some)
  have h2 : (cs.map g).filterMap f? = [] := by
    rw [List.filterMap_eq_nil_iff]
    simp [(h.right _).1]
  rw [List.filterMap_append, h1, h2, List.append_nil]

theorem filterMap_right (bs : List β) (cs : List γ) : (bs.map f ++ cs.map g).filterMap g? = cs := by
  have h1 : (bs.map f).filterMap g? = [] := by
    rw [List.filterMap_eq_nil_iff]
    simp [(h.left _).2]
  have h2 : (cs.map g).filterMap g? = cs := by
    rw [List.filterMap_map]
    exact (List.filterMap_congr fun c _ => (h.right c).2).trans (List.filterMap_some)
  rw [List.filterMap_append, h1, h2, List.nil_append]

theorem eq_left {a : α} {b : β} (e : f? a = some b) : a = f b := by
  obtain ⟨b', rfl⟩ | ⟨c, rfl⟩ := h.cases a
  · rw [(h.left b').1, Option.some.injEq] at e
    rw [e]
  · rw [(h.right c).1] at e
    cases e

theorem eq_right {a : α} {c : γ} (e : g? a = some c) : a = g c := by
  obtain ⟨b, rfl⟩ | ⟨c', rfl⟩ := h.cases a
  · rw [(h.left b).2] at e
    cases e
  · rw [(h.right c').2, Option.some.injEq] at e
    rw [e]

theorem mem_left {b : β} {xs : List α} : b ∈ xs.filterMap f? ↔ f b ∈ xs := by
  rw [List.mem_filterMap]
  constructor
  · rintro ⟨a, ha, e⟩
    rwa [← h.eq_left e]
  · exact fun hb => ⟨f b, hb, (h.left b).1⟩

theorem mem_right {c : γ} {xs : List α} : c ∈ xs.filterMap g? ↔ g c ∈ xs := by
  rw [List.mem_filterMap]
  constructor
  · rintro ⟨a, ha, e⟩
    rwa [← h.eq_right e]
  · exact fun hc => ⟨g c, hc, (h.right c).2⟩

theorem perm (xs : List α) : ((xs.filterMap f?).map f ++ (xs.filterMap g?).map g).Perm xs := by
  induction xs with
  | nil => simp
  | cons x xs ih =>
    obtain ⟨b, rfl⟩ | ⟨c, rfl⟩ := h.cases x
    · simp only [List.filterMap_cons, h.left b, List.map_cons, List.cons_append]
      exact ih.cons _
    · simp only [List.filterMap_cons, h.right c, List.map_cons]
      exact List.perm_middle.trans (ih.cons _)

/-- Elements that came with ascending keys come back in their order. -/
theorem stableSort_eq {xs : List α} (hx : xs.Pairwise fun a b => key a < key b) :
    stableSort (fun a b => key a < key b) ((xs.filterMap f?).map f ++ (xs.filterMap g?).map g) = xs :=
  stableSort_eq_of_perm key (h.perm xs) hx

/-- Elements that came with ascending keys are kept with ascending keys. -/
theorem pairwise_filterMap {xs : List α} (hx : xs.Pairwise fun a b => key a < key b) :
    (xs.filterMap f?).Pairwise (fun a b => key (f a) ≤ key (f b)) ∧
      (xs.filterMap g?).Pairwise fun a b => key (g a) ≤ key (g b) := by
  constructor
  · rw [List.pairwise_filterMap]
    refine hx.imp fun hab b hb b' hb' => ?_
    rw [← h.eq_left hb, ← h.eq_left hb']
    exact Int.le_of_lt hab
  · rw [List.pairwise_filterMap]
    refine hx.imp fun hab c hc c' hc' => ?_
    rw [← h.eq_right hc, ← h.eq_right hc']
    exact Int.le_of_lt hab

/-- Neither of two lists with ascending keys is reordered. -/
theorem filterMap_stableSort {bs : List β} {cs : List γ} (hb : bs.Pairwise fun a b => key (f a) ≤ key (f b))
    (hc : cs.Pairwise fun a b => key (g a) ≤ key (g b)) :
    (stableSort (fun a b => key a < key b) (bs.map f ++ cs.map g)).filterMap f? = bs ∧
      (stableSort (fun a b => key a < key b) (bs.map f ++ cs.map g)).filterMap g? = cs :=
  ⟨SemFront.filterMap_stableSort key (fun b => (h.left b).1) (List.sublist_append_left _ _) (h.filterMap_left bs cs) hb,
    SemFront.filterMap_stableSort key (fun c => (h.right c).2) (List.sublist_append_right _ _) (h.filterMap_right bs cs)
      hc⟩

end Mix

/-! ## Members and declarations in order -/

namespace Member

def property? : Member → Option PropertyDecl
  | .property p => some p
  | .method _ => none

def method? : Member → Option FunctionDecl
  | .property _ => none
  | .method m => some m

theorem mix : Mix property method property? method? where
  left _ := ⟨rfl, rfl⟩
  right _ := ⟨rfl, rfl⟩
  cases m := by
    cases m with
    | property p => exact .inl ⟨p, rfl⟩
    | method m => exact .inr ⟨m, rfl⟩

def Canonical : Member → Prop
  | .property p => p.Canonical
  | .method m => m.Canonical

def erase : Member → Member
  | .property p => .property p.erase
  | .method m => .method m.erase

theorem text_erase (n : Nat) (m : Member) : m.erase.text n = m.text n := by
  cases m with
  | property p => exact p.text_erase
  | method m => exact m.text_erase n

end Member

namespace Decl

def classDef? : Decl → Option ClassDef
  | .classDef c => some c
  | .function _ => none

def function? : Decl → Option FunctionDecl
  | .classDef _ => none
  | .function f => some f

theorem mix : Mix classDef function classDef? function? where
  left _ := ⟨rfl, rfl⟩
  right _ := ⟨rfl, rfl⟩
  cases d := by
    cases d with
    | classDef c => exact .inl ⟨c, rfl⟩
    | function f => exact .inr ⟨f, rfl⟩

def Canonical : Decl → Prop
  | .classDef c => c.Canonical
  | .function f => f.Canonical

end Decl

/-- Members read in turn are the members of the class that keeps them. -/
theorem ClassDef.members_eq {c : ClassDef} {ms : List Member} (hm : ms.Pairwise fun a b => a.span.start < b.span.start)
    (hp : c.properties = ms.filterMap Member.property?) (hf : c.methods = ms.filterMap Member.method?) :
    c.members = ms := by
  unfold ClassDef.members
  rw [hp, hf]
  exact Member.mix.stableSort_eq (·.span.start) hm

theorem Program.decls_eq {p : Program} {ds : List Decl} (hd : ds.Pairwise fun a b => a.span.start < b.span.start)
    (hc : p.classes = ds.filterMap Decl.classDef?) (hf : p.functions = ds.filterMap Decl.function?) :
    p.decls = ds := by
  unfold Program.decls
  rw [hc, hf]
  exact Decl.mix.stableSort_eq (·.span.start) hd

theorem ascending_map {f : α → Span} {xs : List α} :
    Ascending (xs.map f) ↔ xs.Pairwise fun a b => (f a).start ≤ (f b).start := by
  rw [Ascending, List.pairwise_map]

theorem ClassDef.Canonical.filterMap_members {c : ClassDef} (hc : c.Canonical) :
    c.members.filterMap Member.property? = c.properties ∧ c.members.filterMap Member.method? = c.methods :=
  Member.mix.filterMap_stableSort (·.span.start) (ascending_map.1 hc.propertiesAscend)
    (ascending_map.1 hc.methodsAscend)

theorem Program.Canonical.filterMap_decls {p : Program} (hp : p.Canonical) :
    p.decls.filterMap Decl.classDef? = p.classes ∧ p.decls.filterMap Decl.function? = p.functions :=
  Decl.mix.filterMap_stableSort (·.span.start) (ascending_map.1 hp.classesAscend) (ascending_map.1 hp.functionsAscend)

theorem ClassDef.mem_members {c : ClassDef} {m : Member} : m ∈ c.members ↔
    (∃ p ∈ c.properties, Member.property p = m) ∨ ∃ f ∈ c.methods, Member.method f = m := by
  rw [ClassDef.members, mem_stableSort fun m : Member => m.span.start, List.mem_append, List.mem_map, List.mem_map]

theorem Program.mem_decls {p : Program} {d : Decl} : d ∈ p.decls ↔
    (∃ c ∈ p.classes, Decl.classDef c = d) ∨ ∃ f ∈ p.functions, Decl.function f = d := by
  rw [Program.decls, mem_stableSort fun d : Decl => d.span.start, List.mem_append, List.mem_map, List.mem_map]

theorem ClassDef.Canonical.members {c : ClassDef} (hc : c.Canonical) : ∀ m ∈ c.members, m.Canonical := by
  intro m hm
  rcases ClassDef.mem_members.1 hm with ⟨p, hp, rfl⟩ | ⟨f, hf, rfl⟩
  · exact hc.properties p hp
  · exact hc.methods f hf

theorem Program.Canonical.decls {p : Program} (hp : p.Canonical) : ∀ d ∈ p.decls, d.Canonical := by
  intro d hd
  rcases Program.mem_decls.1 hd with ⟨c, hc, rfl⟩ | ⟨f, hf, rfl⟩
  · exact hp.classes c hc
  · exact hp.functions f hf

/-! ## Programs written alike -/

/-- What is written of a declaration: its name and its members in their order, or the function. -/
def Decl.shape : Decl → (Option Ident × List Member) ⊕ FunctionDecl
  | .classDef c => .inl (c.name.map Ident.erase, c.members.map Member.erase)
  | .function f => .inr f.erase

theorem Decl.text_of_shape {d e : Decl} (h : d.shape = e.shape) : d.text = e.text := by
  cases d with
  | classDef c =>
    cases e with
    | classDef d =>
      obtain ⟨hn, hm⟩ := Prod.mk.inj (Sum.inl.inj h)
      have hlines : ∀ c : ClassDef, (c.members.map fun m => newline 1 ++ m.text 1) =
          (c.members.map Member.erase).map fun m => newline 1 ++ m.text 1 := by
        intro c
        rw [List.map_map]
        exact List.map_congr_left fun m _ => by rw [Function.comp_apply, m.text_erase]
      unfold Decl.text ClassDef.text
      dsimp only
      rw [← Ident.text?_erase c.name, ← Ident.text?_erase d.name, hn, hlines c, hlines d, hm]
    | function g => exact absurd h Sum.inl_ne_inr
  | function f =>
    cases e with
    | classDef d => exact absurd h Sum.inr_ne_inl
    | function g =>
      have hfg : f.erase = g.erase := Sum.inr.inj h
      unfold Decl.text
      dsimp only
      rw [← f.text_erase, ← g.text_erase, hfg]

theorem ClassDef.Canonical.erase_eq {c d : ClassDef} (hc : c.Canonical) (hd : d.Canonical)
    (h : (Decl.classDef c).shape = (Decl.classDef d).shape) : c.erase = d.erase := by
  obtain ⟨hn, hm⟩ := Prod.mk.inj (Sum.inl.inj h)
  have hprop : ∀ c : ClassDef, c.Canonical →
      c.properties.map PropertyDecl.erase = (c.members.map Member.erase).filterMap Member.property? := by
    intro c hc
    rw [← hc.filterMap_members.1, List.map_filterMap, List.filterMap_map]
    exact List.filterMap_congr fun m _ => by cases m <;> rfl
  have hmeth : ∀ c : ClassDef, c.Canonical →
      c.methods.map FunctionDecl.erase = (c.members.map Member.erase).filterMap Member.method? := by
    intro c hc
    rw [← hc.filterMap_members.2, List.map_filterMap, List.filterMap_map]
    exact List.filterMap_congr fun m _ => by cases m <;> rfl
  unfold ClassDef.erase
  rw [hprop c hc, hprop d hd, hmeth c hc, hmeth d hd, hn, hm, hc.bad, hd.bad]

/-- Two programs that are written alike: the same imports and aliases, and declarations of the same
shapes in the same order. -/
structure Program.Alike (p q : Program) : Prop where
  imports : p.imports.map ModuleImport.erase = q.imports.map ModuleImport.erase
  aliases : p.aliases.map Alias.erase = q.aliases.map Alias.erase
  decls : p.decls.map Decl.shape = q.decls.map Decl.shape

theorem map_eq_of_map_eq {f : α → β} {g : α → γ} (h : ∀ {a b}, g a = g b → f a = f b) :
    ∀ {xs ys : List α}, xs.map g = ys.map g → xs.map f = ys.map f
  | [], [], _ => rfl
  | x :: xs, y :: ys, e => by
    obtain ⟨h1, h2⟩ := List.cons.inj e
    rw [List.map_cons, List.map_cons, h h1, map_eq_of_map_eq h h2]

theorem Program.Alike.text {p q : Program} (h : p.Alike q) : p.text = q.text := by
  have hi : p.imports.map ModuleImport.text = q.imports.map ModuleImport.text :=
    map_eq_of_map_eq (fun {i j} e => by rw [← i.text_erase, ← j.text_erase, e]) h.imports
  have ha : p.aliases.map Alias.text = q.aliases.map Alias.text :=
    map_eq_of_map_eq (fun {a b} e => by rw [← a.text_erase, ← b.text_erase, e]) h.aliases
  have hd : p.decls.map Decl.text = q.decls.map Decl.text := map_eq_of_map_eq Decl.text_of_shape h.decls
  unfold Program.text
  rw [hi, ha, hd]

theorem erase_of_shape {ds es : List Decl} (hd : ∀ d ∈ ds, d.Canonical) (he : ∀ e ∈ es, e.Canonical)
    (h : ds.map Decl.shape = es.map Decl.shape) :
    (ds.filterMap Decl.classDef?).map ClassDef.erase = (es.filterMap Decl.classDef?).map ClassDef.erase ∧
      (ds.filterMap Decl.function?).map FunctionDecl.erase =
        (es.filterMap Decl.function?).map FunctionDecl.erase := by
  induction ds generalizing es with
  | nil =>
    obtain rfl : es = [] := List.map_eq_nil_iff.1 h.symm
    exact ⟨rfl, rfl⟩
  | cons d ds ih =>
    obtain ⟨e, es, rfl, h1, h2⟩ := List.map_eq_cons_iff.1 h.symm
    obtain ⟨ih1, ih2⟩ := ih (fun d hd' => hd d (List.mem_cons_of_mem _ hd'))
      (fun e he' => he e (List.mem_cons_of_mem _ he')) h2.symm
    have hdc := hd d List.mem_cons_self
    have hec := he e List.mem_cons_self
    cases d with
    | classDef c =>
      cases e with
      | classDef c' =>
        have hcc : c.erase = c'.erase := ClassDef.Canonical.erase_eq hdc hec h1.symm
        simp only [List.filterMap_cons, Decl.classDef?, Decl.function?, List.map_cons, hcc, ih1, ih2, and_self]
      | function g => exact absurd h1 Sum.inr_ne_inl
    | function f =>
      cases e with
      | classDef c' => exact absurd h1 Sum.inl_ne_inr
      | function g =>
        have hfg : f.erase = g.erase := Sum.inr.inj h1.symm
        simp only [List.filterMap_cons, Decl.classDef?, Decl.function?, List.map_cons, hfg, ih1, ih2, and_self]

/-- Canonical programs that are written alike are equal up to spans. -/
theorem Program.Alike.erase {p q : Program} (h : p.Alike q) (hp : p.Canonical) (hq : q.Canonical) :
    p.erase = q.erase := by
  obtain ⟨hc, hf⟩ := erase_of_shape hp.decls hq.decls h.decls
  rw [hp.filterMap_decls.1, hq.filterMap_decls.1] at hc
  rw [hp.filterMap_decls.2, hq.filterMap_decls.2] at hf
  unfold Program.erase
  rw [h.imports, h.aliases, hc, hf, hp.bad, hq.bad]

/-! ## Scanning classes and programs -/

variable {L : Losses}

def Member.Written (L : Losses) : Member → Prop
  | .property p => p.Canonical
  | .method f => f.Written L

def Decl.Written (L : Losses) : Decl → Prop
  | .classDef c => c.Written L
  | .function f => f.Written L

theorem ClassDef.Written.members {c : ClassDef} (hc : c.Written L) : ∀ m ∈ c.members, m.Written L := by
  intro m hm
  rcases ClassDef.mem_members.1 hm with ⟨p, hp, rfl⟩ | ⟨f, hf, rfl⟩
  · exact hc.properties p hp
  · exact hc.methods f hf

theorem Program.Written.decls {p : Program} (hp : p.Written L) : ∀ d ∈ p.decls, d.Written L := by
  intro d hd
  rcases Program.mem_decls.1 hd with ⟨c, hc, rfl⟩ | ⟨f, hf, rfl⟩
  · exact hp.classes c hc
  · exact hp.functions f hf

theorem Member.Written.scans {m : Member} (hm : m.Written L) {n : Nat} {k : List Char} {ls : List Lexeme}
    (h : Scans k ls) : Scans ((m.text n).toList ++ k) (m.lexemes ++ ls) := by
  cases m with
  | property p => exact PropertyDecl.Canonical.scans hm h
  | method f => exact FunctionDecl.Written.scans hm h

theorem ClassDef.Written.scans {c : ClassDef} (hc : c.Written L) {n : Nat} {k : List Char} {ls : List Lexeme}
    (h : Scans k ls) : Scans ((c.text n).toList ++ k) (c.lexemes ++ ls) := by
  obtain ⟨i, hi, hic⟩ := hc.name
  simp only [ClassDef.text, ClassDef.lexemes, hi, Ident.text?, Ident.lexemes?, String.toList_append,
    String.reduceToList, List.cons_append, List.nil_append, List.append_assoc]
  refine Scans.keyword .classWord (.of_head rfl) (.blank rfl (.ident hic (.of_head rfl) (.blank rfl ?_)))
  refine .single rfl (fun _ _ => rfl) (scans_lines _ _ (fun m hm _ _ h => (hc.members m hm).scans h) ?_)
  exact .newline (.single rfl (fun _ _ => rfl) h)

theorem Decl.Written.scans {d : Decl} (hd : d.Written L) {k : List Char} {ls : List Lexeme} (h : Scans k ls) :
    Scans (d.text.toList ++ k) (d.lexemes ++ ls) := by
  cases d with
  | classDef c => exact ClassDef.Written.scans hd h
  | function f => exact FunctionDecl.Written.scans hd h

/-- Texts on lines of their own, each scanned whatever follows it. -/
theorem scans_joined_newline : ∀ {xs : List (String × List Lexeme)},
    (∀ x ∈ xs, ∀ {k ls}, Scans k ls → Scans (x.1.toList ++ k) (x.2 ++ ls)) →
    Scans (String.intercalate "\n" (xs.map Prod.fst)).toList (xs.flatMap Prod.snd)
  | [], _ => .nil
  | [x], h => by
    have := h x List.mem_cons_self .nil
    simpa [String.intercalate_singleton] using this
  | x :: y :: xs, h => by
    have ih := @scans_joined_newline (y :: xs) fun z hz => h z (List.mem_cons_of_mem _ hz)
    have := h x List.mem_cons_self (.blank (c := '\n') rfl ih)
    simpa [String.intercalate_cons_cons] using this

/-- The text of a program that was read scans to its lexemes, with a mark for each part that could not be read
and is written. -/
theorem Program.Written.scans {p : Program} (hp : p.Written L) : Scans p.text.toList p.lexemes := by
  have h := @scans_joined_newline (p.imports.map (fun i => (i.text, i.lexemes)) ++
    p.aliases.map (fun a => (a.text, a.lexemes)) ++ p.decls.map fun d => (d.text, d.lexemes)) ?_
  · simpa [Program.text, Program.lexemes, List.flatMap_map, Function.comp_def] using h
  · intro x hx k ls hs
    simp only [List.mem_append, List.mem_map] at hx
    rcases hx with (⟨i, hi, rfl⟩ | ⟨a, ha, rfl⟩) | ⟨d, hd, rfl⟩
    · exact ModuleImport.scans (hp.imports i hi) hs
    · exact (hp.aliases a ha).scans hs
    · exact (hp.decls d hd).scans hs

theorem Program.Canonical.scans {p : Program} (hp : p.Canonical) : Scans p.text.toList p.lexemes :=
  (hp.written (L := ⟨fun _ => True, fun _ => True, fun _ => True, fun _ => True⟩)).scans

end SemFront
