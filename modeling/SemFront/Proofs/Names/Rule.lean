/-
Identifiers of tokens and of trees. The identifiers that a visit of a tree meets are those of the tokens
that the tree was read from: a rule gathers the identifiers of its tokens if what it reads without
reports has them all, each once. This passes from items to lists of them and to items read in turn.
-/
import SemFront.Proofs.Grammar.InTurn
import SemFront.Proofs.Grammar.Name
import SemFront.Proofs.Tree.Outline

namespace SemFront

/-! ## Identifiers of a tree -/

/-- The identifier that a node is. -/
def Node.ident? : Node → Option Ident
  | .ident i => some i
  | _ => none

/-- The identifiers that a visit meets. -/
def Outline.names (o : Outline) : List Ident := o.nodes.filterMap Node.ident?

@[simp] theorem Outline.names_mk {n : Node} {os : List Outline} :
    (mk n os).names = n.ident?.toList ++ os.flatMap names := by
  unfold names
  rw [nodes_mk, List.filterMap_cons, List.filterMap_flatMap]
  cases n.ident? <;> rfl

@[simp] theorem Outline.names_leaf {n : Node} : (leaf n).names = n.ident?.toList := by simp [leaf]

/-! ## Identifiers of tokens -/

/-- The tokens `a` before `c` whose kinds are of `K` are the identifiers `is`, in some order. -/
def Names (K : Kind → Bool) (a : List Token) (is : List Ident) (c : List Token) : Prop :=
  ∃ us, a = us ++ c ∧ ((us.filter fun t => K t.kind).map Token.ident).Perm is

section Names

variable {K : Kind → Bool} {a b c : List Token} {is js : List Ident}

theorem Names.nil : Names K a [] a := ⟨[], rfl, .nil⟩

theorem Names.append (h : Names K a is b) (h' : Names K b js c) : Names K a (is ++ js) c := by
  obtain ⟨us, rfl, hu⟩ := h
  obtain ⟨vs, rfl, hv⟩ := h'
  refine ⟨us ++ vs, by rw [List.append_assoc], ?_⟩
  rw [List.filter_append, List.map_append]
  exact hu.append hv

theorem Names.perm (h : Names K a is c) (hp : is.Perm js) : Names K a js c := by
  obtain ⟨us, hus, hu⟩ := h
  exact ⟨us, hus, hu.trans hp⟩

namespace Reader.WF

variable {r : Reader}

/-- A token that is an identifier comes first. -/
theorem names_word (hr : r.WF) (hk : K r.current.kind = true) (hne : r.current.kind ≠ .eof)
    (h : Names K r.advance.rest is c) : Names K r.rest (r.current.ident.outline.names ++ is) c := by
  obtain ⟨us, hus, hu⟩ := h
  refine ⟨r.current :: us, by rw [hr.rest_eq hne, hus]; rfl, ?_⟩
  rw [List.filter_cons_of_pos (by simpa using hk), Ident.outline, Outline.names_leaf]
  exact hu.cons _

/-- Any other token is passed. -/
theorem names_pass (hr : r.WF) {k : Kind} (hk : r.current.kind = k) (hK : K k = false) (hne : k ≠ .eof)
    (h : Names K r.advance.rest is c) : Names K r.rest is c := by
  obtain ⟨us, hus, hu⟩ := h
  refine ⟨r.current :: us, by rw [hr.rest_eq (by rwa [hk]), hus]; rfl, ?_⟩
  rwa [List.filter_cons_of_neg (by simp [hk, hK])]

end Reader.WF
end Names

/-- Whether a kind is that of identifiers. -/
def Kind.isIdent : Kind → Bool
  | .ident => true
  | _ => false

namespace Reader.WF

variable {r : Reader} {is : List Ident} {c : List Token}

theorem names_ident (hr : r.WF) (hk : r.current.kind = .ident) (h : Names Kind.isIdent r.advance.rest is c) :
    Names Kind.isIdent r.rest (r.current.ident.outline.names ++ is) c :=
  hr.names_word (by rw [hk]; rfl) (by simp [hk]) h

theorem names_punct (hr : r.WF) {p : Punct} (hk : r.current.kind = .punct p) (h : Names Kind.isIdent r.advance.rest is c) :
    Names Kind.isIdent r.rest is c :=
  hr.names_pass hk rfl (by simp) h

theorem names_keyword (hr : r.WF) {w : Keyword} (hk : r.current.kind = .keyword w)
    (h : Names Kind.isIdent r.advance.rest is c) : Names Kind.isIdent r.rest is c :=
  hr.names_pass hk rfl (by simp) h

end Reader.WF

/-! ## Rules that gather identifiers -/

namespace Rule

/-- What a rule reads without reports has the identifiers of the tokens read. -/
def Gathers (x : Rule α) (names : α → List Ident) : Prop :=
  ∀ ⦃r a s⦄, r.WF → x.Reads r a s → Names Kind.isIdent r.rest (names a) s.advance.rest

section Items

variable {item : Rule α} [Honest item] {names : α → List Ident} {closing : Punct} {what : Wanted}

theorem Gathers.items (hitem : item.Gathers names) (hcl : closing ≠ .comma) :
    (items closing what item).Gathers fun xs => xs.flatMap names := by
  intro r xs s hr h
  refine Reads.of_loop (reads_items.1 h) hr.budget
    (P := fun ys m => m.WF ∧ Names Kind.isIdent r.rest (ys.toList.flatMap names) m.rest)
    (Q := fun ys m => Names Kind.isIdent r.rest (ys.toList.flatMap names) m.advance.rest) ⟨hr, .nil⟩ ?_ ?_
  · rintro ys q zs m ⟨hq, hn⟩ h
    obtain ⟨x, m, hx, hc, -, rfl, rfl⟩ := reads_itemRound_again.1 h
    have hm := hx.leads.wf hq
    refine ⟨⟨hm.advance.advance, ?_⟩, ?_⟩
    · simp only [Array.toList_push, List.flatMap_append, List.flatMap_cons, List.flatMap_nil]
      exact hn.append ((hitem hq hx).append (hm.advance.names_punct hc .nil))
    · have h1 := hm.advance.length_advance (by simp [hc])
      have h2 := (Reader.Leads.advance m).length_le
      have h3 := hx.leads.length_le
      omega
  · rintro ys q zs m ⟨hq, hn⟩ h
    obtain ⟨x, m, hx, hc, rfl, rfl⟩ := (reads_itemRound_stop hcl).1 h
    have hm := hx.leads.wf hq
    simp only [Array.toList_push, List.flatMap_append, List.flatMap_cons, List.flatMap_nil]
    exact hn.append ((hitem hq hx).append (hm.advance.names_punct hc .nil))

theorem Gathers.someItems (hitem : item.Gathers names) (hcl : closing ≠ .comma) :
    (someItems closing what item).Gathers fun xs => xs.flatMap names :=
  fun _ _ _ hr h => hitem.items hcl hr (reads_someItems.1 h).2

theorem Gathers.manyItems (hitem : item.Gathers names) (hcl : closing ≠ .comma) :
    (manyItems closing what item).Gathers fun xs => xs.flatMap names := by
  intro r xs s hr h
  have h := reads_manyItems.1 h
  split at h
  · rename_i hk
    obtain ⟨rfl, rfl⟩ := h
    exact hr.names_punct hk .nil
  · exact hitem.items hcl hr h

end Items

/-- Items that gather their identifiers do so in turn. -/
theorem InTurn.names {R : Reader → α → Reader → Prop} {names : α → List Ident} (hR : Steps R)
    (hx : ∀ ⦃r x s⦄, r.WF → R r x s → Names Kind.isIdent r.rest (names x) s.advance.rest) {r s : Reader} {xs : List α}
    (h : InTurn R r xs s) (hr : r.WF) : Names Kind.isIdent r.rest (xs.flatMap names) s.rest := by
  induction h with
  | nil => exact .nil
  | cons h' _ ih =>
    rw [List.flatMap_cons]
    exact (hx hr h').append (ih (hR.wf hr h'))

/-! ## Dotted names -/

/-- Segments behind dots give their identifiers. -/
theorem Segments.names {segment : Rule Unit} {S : Kind → Prop} {f : String → Lexeme} {P : Ident → Prop}
    (h : Segments segment S f P) {K : Kind → Bool} (hS : ∀ {k}, S k → K k = true) (hdot : K (.punct .dot) = false)
    {xs ys : Array Ident} {r s : Reader} (hr : r.WF) (hl : (loop (segmentRound segment) xs).Reads r ys s) :
    ∃ is : List Ident, ys = xs ++ is.toArray ∧
      Names K r.advance.rest (is.flatMap fun i => i.outline.names) s.advance.rest := by
  have := h.honest
  refine Reads.of_loop hl hr.budget
    (P := fun zs m => m.WF ∧ ∃ is : List Ident, zs = xs ++ is.toArray ∧
      Names K r.advance.rest (is.flatMap fun i => i.outline.names) m.advance.rest)
    (Q := fun zs m => ∃ is : List Ident, zs = xs ++ is.toArray ∧
      Names K r.advance.rest (is.flatMap fun i => i.outline.names) m.advance.rest)
    ⟨hr, [], by simp, .nil⟩ ?_ ?_
  · rintro zs m ws n ⟨hm, is, rfl, hn⟩ ha
    obtain ⟨hd, hK, rfl, rfl⟩ := h.reads_again.1 ha
    have hne : m.advance.advance.current.kind ≠ .eof := fun e => h.notEof (e ▸ hK)
    refine ⟨⟨hm.advance.advance, is ++ [m.advance.advance.current.ident], by simp, ?_⟩, ?_⟩
    · simp only [List.flatMap_append, List.flatMap_cons, List.flatMap_nil]
      exact hn.append (hm.advance.names_pass hd hdot (by simp) (hm.advance.advance.names_word (hS hK) hne .nil))
    · have h1 := hm.advance.length_advance (by simp [hd])
      have h2 := (Reader.Leads.advance m).length_le
      omega
  · rintro zs m ws n ⟨hm, is, rfl, hn⟩ ha
    obtain ⟨-, rfl, rfl⟩ := h.reads_stop.1 ha
    exact ⟨is, rfl, hn⟩

theorem gathers_dottedName : dottedName.Gathers fun n => n.outline.names := by
  intro r n s hr h
  obtain ⟨hk, parts, hl, rfl⟩ := reads_dottedName.1 h
  obtain ⟨is, rfl, hn⟩ := segments_ident.names (K := Kind.isIdent) (by rintro _ rfl; rfl) rfl hr hl
  simpa [Name.outline, List.flatMap_map, Node.ident?] using hr.names_ident hk hn

end Rule
end SemFront
