/-
Readers on tokens of a scan, and what stretches of tokens spell. A rule is sound if what it reads
without reports spells what the tokens say, and complete if it reads whatever is spelled in front of
a token that may follow; both pass from items to lists of them.
-/
import SemFront.Proofs.Grammar.Reads
import SemFront.Proofs.Tree.Lexemes

namespace SemFront

/-! ## Readers on tokens of a scan -/

/-- The tokens left come from a scan, and the budget is enough to read them. -/
structure Reader.WF (r : Reader) : Prop where
  eof : r.eof.kind = .eof
  tokens : ∀ t ∈ r.rest, t.WF
  ordered : Ordered r.rest
  budget : r.rest.length ≤ r.budget

/-- The kind of the first token left, or of the end. -/
def headKind : List Token → Kind
  | [] => .eof
  | t :: _ => t.kind

namespace Reader

variable {r s : Reader}

theorem Leads.wf (h : r.Leads s) (hr : r.WF) : s.WF where
  eof := by rw [h.eof, hr.eof]
  tokens t ht := hr.tokens t (h.rest.subset ht)
  ordered := List.Pairwise.sublist h.rest.sublist hr.ordered
  budget := by
    rw [h.budget]
    exact Nat.le_trans h.rest.length_le hr.budget

theorem Leads.length_le (h : r.Leads s) : s.rest.length ≤ r.rest.length := h.rest.length_le

theorem peek_eq (r : Reader) : r.peek = r.advance.current := by
  unfold peek ahead current advance
  rw [Nat.zero_add, List.drop_one]

theorem ahead_zero (r : Reader) : r.ahead 0 = r.advance.current := r.peek_eq

theorem ahead_succ (r : Reader) (n : Nat) : r.ahead (n + 1) = r.advance.ahead n := by
  unfold ahead advance
  rw [← List.drop_one, List.drop_drop, Nat.add_comm 1 (n + 1)]

namespace WF

theorem advance (hr : r.WF) : r.advance.WF := (Leads.advance r).wf hr

theorem look (hr : r.WF) (n : Nat) : (r.look n).WF := (Leads.look r n).wf hr

theorem current_kind (hr : r.WF) : r.current.kind = headKind r.rest := by
  unfold current
  cases r.rest with
  | nil => exact hr.eof
  | cons t ts => rfl

theorem rest_eq (hr : r.WF) (h : r.current.kind ≠ .eof) : r.rest = r.current :: r.advance.rest := by
  rw [hr.current_kind] at h
  unfold current Reader.advance
  cases hr' : r.rest with
  | nil => rw [hr'] at h; exact absurd rfl h
  | cons t ts => rfl

theorem rest_eq_nil (hr : r.WF) (h : r.current.kind = .eof) : r.rest = [] := by
  rw [hr.current_kind] at h
  cases hr' : r.rest with
  | nil => rfl
  | cons t ts =>
    rw [hr'] at h
    exact absurd h (hr.tokens t (by rw [hr']; exact List.mem_cons_self)).notEof

theorem length_advance (hr : r.WF) (h : r.current.kind ≠ .eof) : r.advance.rest.length < r.rest.length := by
  rw [hr.rest_eq h]
  exact Nat.lt_succ_self _

theorem current_wf (hr : r.WF) (h : r.current.kind ≠ .eof) : r.current.WF :=
  hr.tokens _ (by rw [hr.rest_eq h]; exact List.mem_cons_self)

end WF
end Reader

/-- A reader that stands where another one does. -/
structure Reader.Looked (r s : Reader) : Prop where
  rest : s.rest = r.rest
  eof : s.eof = r.eof

namespace Reader.Looked

variable {r s : Reader}

theorem refl (r : Reader) : r.Looked r := ⟨rfl, rfl⟩

theorem look (r : Reader) (n : Nat) : r.Looked (r.look n) := ⟨rfl, rfl⟩

theorem trans {t : Reader} (h : r.Looked s) (k : s.Looked t) : r.Looked t := ⟨k.rest.trans h.rest, k.eof.trans h.eof⟩

theorem advance (h : r.Looked s) : r.advance.Looked s.advance := ⟨congrArg List.tail h.rest, h.eof⟩

theorem current (h : r.Looked s) : s.current = r.current := by
  unfold Reader.current
  rw [h.rest, h.eof]

end Reader.Looked

/-- A rule that only looks ahead, with what it finds. -/
def Rule.Looks (x : Rule α) (f : Reader → α) : Prop := ∀ r, ∃ s, x.Reads r (f r) s ∧ r.Looked s

theorem Rule.Looks.eq {x : Rule α} {f : Reader → α} (hx : x.Looks f) {r s : Reader} {a : α} (h : x.Reads r a s) :
    a = f r ∧ r.Looked s := by
  obtain ⟨m, hm, hl⟩ := hx r
  cases h.1.symm.trans hm.1
  exact ⟨rfl, hl⟩

theorem Rule.Looks.reads {x : Rule α} {f : Reader → α} (hx : x.Looks f) {r : Reader} {a : α} (h : f r = a) :
    ∃ s, x.Reads r a s ∧ r.Looked s := by
  subst h
  exact hx r

/-! ## What tokens spell -/

/-- The tokens `a` spell the lexemes `ls` and leave the tokens `c`. -/
def Spells (a : List Token) (ls : List Lexeme) (c : List Token) : Prop := ∃ us, a = us ++ c ∧ us.map Token.lexeme = ls

theorem spells_nil {a c : List Token} : Spells a [] c ↔ a = c := by
  constructor
  · rintro ⟨us, rfl, h⟩
    cases us with
    | nil => rfl
    | cons u us => cases h
  · rintro rfl
    exact ⟨[], rfl, rfl⟩

theorem spells_cons {a c : List Token} {l : Lexeme} {ls : List Lexeme} :
    Spells a (l :: ls) c ↔ ∃ t b, a = t :: b ∧ t.lexeme = l ∧ Spells b ls c := by
  constructor
  · rintro ⟨us, rfl, h⟩
    cases us with
    | nil => cases h
    | cons u us =>
      obtain ⟨hu, hus⟩ := List.cons.inj h
      exact ⟨u, us ++ c, rfl, hu, us, rfl, hus⟩
  · rintro ⟨t, b, rfl, rfl, us, rfl, rfl⟩
    exact ⟨t :: us, rfl, rfl⟩

theorem spells_append {a c : List Token} {ls ms : List Lexeme} :
    Spells a (ls ++ ms) c ↔ ∃ b, Spells a ls b ∧ Spells b ms c := by
  constructor
  · rintro ⟨us, rfl, h⟩
    obtain ⟨vs, ws, rfl, rfl, rfl⟩ := List.map_eq_append_iff.1 h
    exact ⟨ws ++ c, ⟨vs, by rw [List.append_assoc], rfl⟩, ws, rfl, rfl⟩
  · rintro ⟨b, ⟨us, rfl, rfl⟩, vs, rfl, rfl⟩
    exact ⟨us ++ vs, by rw [List.append_assoc], List.map_append⟩

theorem Spells.append {a b c : List Token} {ls ms : List Lexeme} (h : Spells a ls b) (k : Spells b ms c) :
    Spells a (ls ++ ms) c :=
  spells_append.2 ⟨b, h, k⟩

theorem Spells.length {a c : List Token} {ls : List Lexeme} (h : Spells a ls c) : a.length = ls.length + c.length := by
  obtain ⟨us, rfl, rfl⟩ := h
  simp

theorem Spells.headKind {a c : List Token} {l : Lexeme} {ls : List Lexeme} (h : Spells a (l :: ls) c) :
    headKind a = l.kind := by
  obtain ⟨t, b, rfl, rfl, -⟩ := spells_cons.1 h
  rfl

namespace Reader.WF

variable {r : Reader} {ls : List Lexeme} {c : List Token}

theorem spells_current (hr : r.WF) (hk : r.current.kind ≠ .eof) (h : Spells r.advance.rest ls c) :
    Spells r.rest (r.current.lexeme :: ls) c :=
  spells_cons.2 ⟨r.current, r.advance.rest, hr.rest_eq hk, rfl, h⟩

theorem spells_punct (hr : r.WF) {p : Punct} (hk : r.current.kind = .punct p) (h : Spells r.advance.rest ls c) :
    Spells r.rest (.punct p :: ls) c := by
  have hne : r.current.kind ≠ .eof := by rw [hk]; exact nofun
  rw [← (hr.current_wf hne).valid.punct hk]
  exact hr.spells_current hne h

theorem spells_keyword (hr : r.WF) {k : Keyword} (hk : r.current.kind = .keyword k)
    (h : Spells r.advance.rest ls c) : Spells r.rest (.keyword k :: ls) c := by
  have hne : r.current.kind ≠ .eof := by rw [hk]; exact nofun
  rw [← (hr.current_wf hne).valid.keyword hk]
  exact hr.spells_current hne h

end Reader.WF

/-- What follows a lexeme that is spelled at the current token is spelled at the next one. -/
theorem Reader.of_spells_cons {r : Reader} {l : Lexeme} {ls : List Lexeme} {c : List Token}
    (h : Spells r.rest (l :: ls) c) : r.current.lexeme = l ∧ Spells r.advance.rest ls c := by
  obtain ⟨t, b, hr, hl, hb⟩ := spells_cons.1 h
  unfold Reader.current Reader.advance
  rw [hr]
  exact ⟨hl, hb⟩

/-! ## Sound and complete rules -/

namespace Rule

variable {α γ : Type}

/-- What a rule reads without reports has the property `P` and spells the tokens read. -/
def Sound (x : Rule α) (lexemes : α → List Lexeme) (P : α → Prop) : Prop :=
  ∀ ⦃r a s⦄, r.WF → x.Reads r a s → P a ∧ Spells r.rest (lexemes a) s.advance.rest

/-- A rule reads without reports, up to what `erase` leaves out, whatever has the property `P` and is
spelled in front of a token that may follow it. -/
def Complete (x : Rule α) (lexemes : α → List Lexeme) (P : α → Prop) (follows : α → Kind → Prop) (erase : α → γ) :
    Prop :=
  ∀ ⦃r a c⦄, r.WF → P a → Spells r.rest (lexemes a) c → follows a (headKind c) →
    ∃ b s, x.Reads r b s ∧ erase b = erase a ∧ s.advance.rest = c

/-! ## Lists of items -/

theorem joined_concat (l : Lexeme) (ms : List Lexeme) :
    ∀ ls : List (List Lexeme), Lexeme.joined l (ls ++ [ms]) = ls.flatMap (· ++ [l]) ++ ms
  | [] => rfl
  | [m] => by simp [Lexeme.joined]
  | m :: n :: ls => by
    have ih := joined_concat l ms (n :: ls)
    simp only [List.cons_append] at ih
    simp [Lexeme.joined, ih]

theorem joined_cons (l m : Lexeme) (ms : List Lexeme) :
    ∀ ls : List (List Lexeme), ∃ ns, Lexeme.joined l ((m :: ms) :: ls) = m :: ns
  | [] => ⟨ms, rfl⟩
  | n :: ls => ⟨ms ++ l :: Lexeme.joined l (n :: ls), rfl⟩

section Items

variable {item : Rule α} [Honest item] {lexemes : α → List Lexeme} {P : α → Prop} {closing : Punct} {what : Wanted}

theorem reads_itemRound_again {xs ys : Array α} {r s : Reader} :
    (itemRound closing what item xs).Reads r (.again ys) s ↔ ∃ x m, item.Reads r x m ∧
      m.advance.current.kind = .punct .comma ∧ m.advance.advance.current.kind ≠ .punct closing ∧
      ys = xs.push x ∧ s = m.advance.advance := by
  unfold itemRound
  simp only [reads_bind, reads_peek, reads_ite, reads_advance, reads_current, exists_eq_and_eq, exists_unit_eq,
    not_reads_refuse, reads_pure, Reader.peek_eq]
  constructor
  · rintro ⟨x, m, h, hm⟩
    split at hm
    · rename_i hc
      split at hm
      · exact hm.elim
      · rename_i hne
        cases hm.1
        exact ⟨x, m, h, hc, hne, rfl, hm.2⟩
    · split at hm
      · cases hm.1
      · exact hm.elim
  · rintro ⟨x, m, h, hc, hne, rfl, rfl⟩
    refine ⟨x, m, h, ?_⟩
    rw [if_pos hc, if_neg hne]
    exact ⟨rfl, rfl⟩

theorem reads_itemRound_stop {xs ys : Array α} {r s : Reader} (hcl : closing ≠ .comma) :
    (itemRound closing what item xs).Reads r (.stop ys) s ↔ ∃ x m, item.Reads r x m ∧
      m.advance.current.kind = .punct closing ∧ ys = xs.push x ∧ s = m.advance := by
  unfold itemRound
  simp only [reads_bind, reads_peek, reads_ite, reads_advance, reads_current, exists_eq_and_eq, exists_unit_eq,
    not_reads_refuse, reads_pure, Reader.peek_eq]
  constructor
  · rintro ⟨x, m, h, hm⟩
    split at hm
    · split at hm
      · exact hm.elim
      · cases hm.1
    · split at hm
      · rename_i hc
        cases hm.1
        exact ⟨x, m, h, hc, rfl, hm.2⟩
      · exact hm.elim
  · rintro ⟨x, m, h, hc, rfl, rfl⟩
    refine ⟨x, m, h, ?_⟩
    rw [if_neg (by rw [hc]; exact fun e => hcl (Kind.punct.inj e)), if_pos hc]
    exact ⟨rfl, rfl⟩

theorem reads_items {xs : List α} {r s : Reader} : (items closing what item).Reads r xs s ↔
    (loop (itemRound closing what item) #[]).Reads r xs.toArray s := by
  unfold items
  rw [reads_bind]
  constructor
  · rintro ⟨ys, m, h, hm⟩
    obtain ⟨rfl, rfl⟩ := reads_pure.1 hm
    exact h
  · intro h
    exact ⟨_, _, h, reads_pure.2 ⟨rfl, rfl⟩⟩

/-- Items that spell what is read make a list that does. -/
theorem Sound.items (hitem : item.Sound lexemes P) (hcl : closing ≠ .comma) {r s : Reader} {xs : List α}
    (hr : r.WF) (h : (items closing what item).Reads r xs s) :
    xs ≠ [] ∧ (∀ x ∈ xs, P x) ∧
      Spells r.rest (Lexeme.joined (.punct .comma) (xs.map lexemes) ++ [Lexeme.punct closing]) s.advance.rest := by
  -- what has been read is followed by commas until the last item is
  refine Reads.of_loop (reads_items.1 h) hr.budget
    (P := fun ys m => m.WF ∧ (∀ y ∈ ys.toList, P y) ∧
      Spells r.rest (ys.toList.flatMap fun y => lexemes y ++ [Lexeme.punct .comma]) m.rest)
    (Q := fun ys m => ys.toList ≠ [] ∧ (∀ y ∈ ys.toList, P y) ∧
      Spells r.rest (Lexeme.joined (.punct .comma) (ys.toList.map lexemes) ++ [Lexeme.punct closing]) m.advance.rest)
    ⟨hr, by simp, spells_nil.2 rfl⟩ ?_ ?_
  · rintro ys q zs m ⟨hq, hP, hs⟩ h
    obtain ⟨x, m, hx, hc, -, rfl, rfl⟩ := reads_itemRound_again.1 h
    obtain ⟨hPx, hsx⟩ := hitem hq hx
    have hm := hx.leads.wf hq
    refine ⟨⟨hm.advance.advance, ?_, ?_⟩, ?_⟩
    · simp only [Array.toList_push, List.mem_append, List.mem_singleton]
      rintro y (hy | rfl)
      · exact hP y hy
      · exact hPx
    · simp only [Array.toList_push, List.flatMap_append, List.flatMap_cons, List.flatMap_nil, List.append_nil]
      exact hs.append (hsx.append (hm.advance.spells_punct hc (spells_nil.2 rfl)))
    · have h1 := hm.advance.length_advance (by rw [hc]; exact nofun)
      have h2 := (Reader.Leads.advance m).length_le
      have h3 := hx.leads.length_le
      omega
  · rintro ys q zs m ⟨hq, hP, hs⟩ h
    obtain ⟨x, m, hx, hc, rfl, rfl⟩ := (reads_itemRound_stop hcl).1 h
    obtain ⟨hPx, hsx⟩ := hitem hq hx
    have hm := hx.leads.wf hq
    refine ⟨by simp, ?_, ?_⟩
    · simp only [Array.toList_push, List.mem_append, List.mem_singleton]
      rintro y (hy | rfl)
      · exact hP y hy
      · exact hPx
    · simp only [Array.toList_push, List.map_append, List.map_cons, List.map_nil, joined_concat, List.flatMap_map,
        List.append_assoc]
      exact hs.append (hsx.append (hm.advance.spells_punct hc (spells_nil.2 rfl)))

variable (what) in
/-- Items that are read where they are spelled make a list that is. -/
theorem Complete.items {follows : α → Kind → Prop} {erase : α → γ} (hitem : item.Complete lexemes P follows erase)
    (hcl : closing ≠ .comma) (hcomma : ∀ x, P x → follows x (.punct .comma))
    (hclosing : ∀ x, P x → follows x (.punct closing))
    (hhead : ∀ x, P x → ∃ l ls, lexemes x = l :: ls ∧ l.kind ≠ .punct closing)
    {xs : List α} (hne : xs ≠ []) (hP : ∀ x ∈ xs, P x) {r : Reader} {c : List Token} (hr : r.WF)
    (h : Spells r.rest (Lexeme.joined (.punct .comma) (xs.map lexemes) ++ [Lexeme.punct closing]) c) :
    ∃ ys s, (items closing what item).Reads r ys s ∧ ys.map erase = xs.map erase ∧ s.advance.rest = c := by
  have key : ∀ (xs : List α), xs ≠ [] → (∀ x ∈ xs, P x) → ∀ (acc : Array α) (r : Reader), r.WF →
      Spells r.rest (Lexeme.joined (.punct .comma) (xs.map lexemes) ++ [Lexeme.punct closing]) c →
      ∃ (ys : List α) (s : Reader), Loops (itemRound closing what item) acc r (acc ++ ys.toArray) s ∧ ys.map erase = xs.map erase ∧
        s.advance.rest = c := by
    intro xs
    induction xs with
    | nil => intro h; exact absurd rfl h
    | cons x xs ih =>
      intro _ hP acc r hr h
      have hPx := hP x (by simp)
      cases xs with
      | nil =>
        obtain ⟨b, h1, h2⟩ := spells_append.1 h
        have hb : headKind b = .punct closing := h2.headKind
        obtain ⟨y, m, hy, he, rfl⟩ := hitem hr hPx h1 (by rw [hb]; exact hclosing x hPx)
        have hm := hy.leads.wf hr
        refine ⟨[y], m.advance, .stop ((reads_itemRound_stop hcl).2 ⟨y, m, hy, ?_, by simp, rfl⟩), by simp [he], ?_⟩
        · rw [hm.advance.current_kind, hb]
        · exact spells_nil.1 (Reader.of_spells_cons h2).2
      | cons x' xs =>
        simp only [List.map_cons, Lexeme.joined, List.append_assoc, List.cons_append] at h
        obtain ⟨b, h1, h2⟩ := spells_append.1 h
        have hb : headKind b = .punct .comma := h2.headKind
        obtain ⟨y, m, hy, he, rfl⟩ := hitem hr hPx h1 (by rw [hb]; exact hcomma x hPx)
        have hm := hy.leads.wf hr
        obtain ⟨hc, h3⟩ := Reader.of_spells_cons h2
        have hck : m.advance.current.kind = .punct .comma := by rw [hm.advance.current_kind, hb]
        obtain ⟨ys, s, hl, hes, hs⟩ := ih (by simp) (fun z hz => hP z (List.mem_cons_of_mem _ hz)) (acc.push y)
          m.advance.advance hm.advance.advance h3
        refine ⟨y :: ys, s, .again (reads_itemRound_again.2 ⟨y, m, hy, hck, ?_, rfl, rfl⟩) ?_ ?_, ?_, hs⟩
        · obtain ⟨l, ls, hl, hk⟩ := hhead x' (hP x' (by simp))
          obtain ⟨ms, hms⟩ := joined_cons (.punct .comma) l ls (xs.map lexemes)
          rw [hl, hms] at h3
          rw [hm.advance.advance.current_kind, h3.headKind]
          exact hk
        · have h1 := hm.advance.length_advance (by simp [hck])
          have h2 := (Reader.Leads.advance m).length_le
          have h3 := hy.leads.length_le
          omega
        · simpa using hl
        · simp [he, hes]
  obtain ⟨ys, s, hl, he, hs⟩ := key xs hne hP #[] r hr h
  refine ⟨ys, s, reads_items.2 (Loops.reads ?_ hr.budget), he, hs⟩
  simpa using hl

theorem reads_someItems {xs : List α} {r s : Reader} : (someItems closing what item).Reads r xs s ↔
    r.current.kind ≠ .punct closing ∧ (items closing what item).Reads r xs s := by
  unfold someItems
  simp only [reads_bind, reads_current, exists_eq_and_eq, reads_ite, not_reads_refuse]
  split <;> simp_all

theorem reads_manyItems {xs : List α} {r s : Reader} : (manyItems closing what item).Reads r xs s ↔
    if r.current.kind = .punct closing then xs = [] ∧ s = r else (items closing what item).Reads r xs s := by
  unfold manyItems
  simp only [reads_bind, reads_current, exists_eq_and_eq, reads_ite, reads_pure]

theorem Sound.manyItems (hitem : item.Sound lexemes P) (hcl : closing ≠ .comma) {r s : Reader} {xs : List α}
    (hr : r.WF) (h : (manyItems closing what item).Reads r xs s) :
    (∀ x ∈ xs, P x) ∧
      Spells r.rest (Lexeme.joined (.punct .comma) (xs.map lexemes) ++ [Lexeme.punct closing]) s.advance.rest := by
  rw [reads_manyItems] at h
  split at h
  · rename_i hc
    obtain ⟨rfl, rfl⟩ := h
    exact ⟨by simp, hr.spells_punct hc (spells_nil.2 rfl)⟩
  · exact (hitem.items hcl hr h).2

/-- A list that is spelled does not start with what closes it. -/
theorem ne_closing_of_spells (hhead : ∀ x, P x → ∃ l ls, lexemes x = l :: ls ∧ l.kind ≠ .punct closing) {xs : List α}
    (hne : xs ≠ []) (hP : ∀ x ∈ xs, P x) {r : Reader} {c : List Token} (hr : r.WF)
    (h : Spells r.rest (Lexeme.joined (.punct .comma) (xs.map lexemes) ++ [Lexeme.punct closing]) c) :
    r.current.kind ≠ .punct closing := by
  obtain ⟨x, xs, rfl⟩ := List.exists_cons_of_ne_nil hne
  obtain ⟨l, ls, hl, hk⟩ := hhead x (hP x List.mem_cons_self)
  obtain ⟨ms, hms⟩ := joined_cons (.punct .comma) l ls (xs.map lexemes)
  rw [List.map_cons, hl, hms] at h
  rw [hr.current_kind, h.headKind]
  exact hk

variable (what) in
theorem Complete.someItems {follows : α → Kind → Prop} {erase : α → γ}
    (hitem : item.Complete lexemes P follows erase) (hcl : closing ≠ .comma)
    (hcomma : ∀ x, P x → follows x (.punct .comma)) (hclosing : ∀ x, P x → follows x (.punct closing))
    (hhead : ∀ x, P x → ∃ l ls, lexemes x = l :: ls ∧ l.kind ≠ .punct closing)
    {xs : List α} (hne : xs ≠ []) (hP : ∀ x ∈ xs, P x) {r : Reader} {c : List Token} (hr : r.WF)
    (h : Spells r.rest (Lexeme.joined (.punct .comma) (xs.map lexemes) ++ [Lexeme.punct closing]) c) :
    ∃ ys s, (someItems closing what item).Reads r ys s ∧ ys.map erase = xs.map erase ∧ s.advance.rest = c := by
  obtain ⟨ys, s, hy, he, hs⟩ := hitem.items what hcl hcomma hclosing hhead hne hP hr h
  exact ⟨ys, s, reads_someItems.2 ⟨ne_closing_of_spells hhead hne hP hr h, hy⟩, he, hs⟩

variable (what) in
theorem Complete.manyItems {follows : α → Kind → Prop} {erase : α → γ}
    (hitem : item.Complete lexemes P follows erase) (hcl : closing ≠ .comma)
    (hcomma : ∀ x, P x → follows x (.punct .comma)) (hclosing : ∀ x, P x → follows x (.punct closing))
    (hhead : ∀ x, P x → ∃ l ls, lexemes x = l :: ls ∧ l.kind ≠ .punct closing)
    {xs : List α} (hP : ∀ x ∈ xs, P x) {r : Reader} {c : List Token} (hr : r.WF)
    (h : Spells r.rest (Lexeme.joined (.punct .comma) (xs.map lexemes) ++ [Lexeme.punct closing]) c) :
    ∃ ys s, (manyItems closing what item).Reads r ys s ∧ ys.map erase = xs.map erase ∧ s.advance.rest = c := by
  by_cases hne : xs = []
  · subst hne
    obtain ⟨hc, h1⟩ := Reader.of_spells_cons h
    have hk : r.current.kind = .punct closing := congrArg Lexeme.kind hc
    refine ⟨[], r, reads_manyItems.2 ?_, rfl, spells_nil.1 h1⟩
    rw [if_pos hk]
    exact ⟨rfl, rfl⟩
  · obtain ⟨ys, s, hy, he, hs⟩ := hitem.items what hcl hcomma hclosing hhead hne hP hr h
    refine ⟨ys, s, reads_manyItems.2 ?_, he, hs⟩
    rw [if_neg (ne_closing_of_spells hhead hne hP hr h)]
    exact hy

end Items

end Rule
end SemFront
