/-
What is given up, and which tokens the span of a placeholder covers. A unit is given up from its first
token to the one that reading resumes at, and its placeholder covers exactly these tokens where recovery
skips some behind those that the attempt took. Where it skips none, the placeholder of a statement, a
member or a declaration covers the first token only, and that of a parameter also the token behind it.
-/
import SemFront.Proofs.Placement.Program
import SemFront.Proofs.Tree.Written

namespace SemFront

/-- A span covers some tokens: it begins with the first of them and stops with the last one. -/
def Span.Covers (span : Span) (ts : List Token) : Prop :=
  ∃ t u, ts.head? = some t ∧ ts.getLast? = some u ∧ span = { t.span with stop := u.span.stop }

theorem Span.covers_singleton (t : Token) : t.span.Covers [t] := ⟨t, t, rfl, rfl, rfl⟩

namespace Rule

variable {cs : List Char} {m n o : Reader}

/-- Of what was passed from a reader on, no token stops behind the last one. -/
theorem stop_le_last (hm : m.Placed cs) {ts : List Token} {u : Token} {us : List Token}
    (h : m.rest = ts ++ [u] ++ us) : ∀ t ∈ ts, t.span.stop ≤ u.span.stop := by
  intro t ht
  have hord := hm.wf.ordered
  have hu := hm.wf.tokens u (by rw [h]; simp)
  rw [h, List.append_assoc] at hord
  have hle : t.span.stop ≤ u.span.start := (List.pairwise_append.1 hord).2.2 t ht u (by simp)
  exact Int.le_trans hle (Int.le_of_lt hu.nonempty)

/-- Passing some tokens begins with the current one, and that does not stop behind the last of them. -/
theorem current_of_passed (hm : m.Placed cs) {ts : List Token} {u : Token} {us : List Token}
    (h : m.rest = ts ++ [u] ++ us) : (ts ++ [u]).head? = some m.current ∧ m.current.span.stop ≤ u.span.stop := by
  have hle := stop_le_last hm h
  unfold Reader.current
  rw [h]
  cases ts with
  | nil => exact ⟨rfl, Int.le_refl _⟩
  | cons t ts => exact ⟨rfl, hle t List.mem_cons_self⟩

/-- A span extended over tokens that do not stop behind the last of them stops with that one. -/
theorem over_concat {span : Span} {ts : List Token} {u : Token} (hspan : span.stop ≤ u.span.stop)
    (hts : ∀ t ∈ ts, t.span.stop ≤ u.span.stop) : span.over (ts ++ [u]) = { span with stop := u.span.stop } := by
  obtain ⟨k, he, -, hk⟩ := over_eq hspan hts
  have hthrough : span.over (ts ++ [u]) = (span.over ts).through u.span := by simp [Span.over]
  rw [hthrough, he]
  show { span with stop := max k u.span.stop } = _
  rw [Int.max_eq_right hk]

/-! ## Statements, members and declarations -/

/-- A unit that begins at `m` cannot be read past `n`, and is given up: reading resumes at `o`, and `span`
stands for it. -/
structure Abandons (unit : SyncUnit) (m n o : Reader) (span : Span) : Prop where
  reaches : m.Leads n
  recovers : recover unit m.current n = .ok span o
  covers : ∃ given, given ≠ [] ∧ m.rest = given ++ o.rest ∧
    span.Covers (if o.rest = n.rest then given.take 1 else given)

/-- What the span covers once it is known which tokens recovery skips, behind those that were taken. -/
theorem covers_over {taken skipped : List Token} (hm : m.Placed cs) (h : m.rest = taken ++ skipped ++ o.rest)
    (hne : taken ++ skipped ≠ []) : (m.current.span.over skipped).Covers
      (if skipped = [] then (taken ++ skipped).take 1 else taken ++ skipped) := by
  split
  · rename_i hnone
    obtain ⟨t, ts, hts⟩ := List.exists_cons_of_ne_nil hne
    have hcur : m.current = t := by
      unfold Reader.current
      rw [h, hts]
      rfl
    rw [hts, hnone, hcur]
    exact Span.covers_singleton t
  · rename_i hsome
    obtain ⟨us, u, rfl⟩ := (List.eq_nil_or_concat' skipped).resolve_left hsome
    rw [← List.append_assoc] at h ⊢
    obtain ⟨hhead, hstop⟩ := current_of_passed hm h
    have hlast := stop_le_last hm h
    exact ⟨m.current, u, hhead, by simp, over_concat hstop fun t ht => hlast t (List.mem_append_right _ ht)⟩

theorem recover_abandons {unit : SyncUnit} {F : Reader → Prop} (hm : m.Placed cs) (hk : m.current.kind ≠ .eof)
    (hn : m.Leads n) : (recover unit m.current).Ensures n (fun span o => Abandons unit m n o span) F := by
  obtain ⟨span, o, he, hspan, hrest⟩ : ∃ span o, recover unit m.current n = .ok span o ∧
      span = m.current.span.over (n.rest.take (skipOf unit m.current n).count) ∧
      o.rest = n.rest.drop (skipOf unit m.current n).count :=
    (ensures_recover fun _ _ e => ⟨rfl, e⟩).exists_ok
  have hlt : o.rest.length < m.rest.length := (recover_length_lt (F := F) hm.wf hk hn).ok he
  refine .of_ok he ⟨hn, he, ?_⟩
  generalize (skipOf unit m.current n).count = k at hspan hrest
  obtain ⟨taken, htaken⟩ := hn.rest
  have hall : m.rest = taken ++ n.rest.take k ++ o.rest := by
    rw [hrest, List.append_assoc, List.take_append_drop, htaken]
  have hne : taken ++ n.rest.take k ≠ [] := by
    intro e
    rw [e] at hall
    exact absurd hlt (by rw [hall]; exact Nat.lt_irrefl _)
  refine ⟨taken ++ n.rest.take k, hne, hall, ?_⟩
  have hskips : o.rest = n.rest ↔ n.rest.take k = [] := by
    have hsplit : n.rest.take k ++ o.rest = n.rest := by rw [hrest, List.take_append_drop]
    constructor
    · intro e
      rw [e] at hsplit
      exact List.append_left_eq_self.1 hsplit
    · intro e
      rw [e] at hsplit
      exact hsplit
  rw [hspan]
  simp only [hskips]
  exact covers_over hm hall hne

/-! ## Parameters -/

/-- A parameter that begins at `m` cannot be read past `n`, and is given up: the list goes on at `o`, and `span`
stands for the parameter. -/
structure AbandonsParam (m n o : Reader) (span : Span) : Prop where
  reaches : m.Leads n
  skips : skipParamFrom m.current n = .ok span o
  covers : ∃ given, m.rest = given ++ o.rest ∧
    span.Covers (if o.rest = n.rest ∨ given.length ≤ 1 then given ++ [o.current] else given)

/-- The span from a token to one that does not stop before it. -/
theorem through_eq {span : Span} {u : Token} (h : span.stop ≤ u.span.stop) :
    span.through u.span = { span with stop := u.span.stop } := by
  show { span with stop := max span.stop u.span.stop } = _
  rw [Int.max_eq_right h]

/-- What is covered where `skipped` was skipped behind the tokens `taken`. -/
theorem covers_through {taken skipped : List Token} {last : Token} (hm : m.Placed cs) (ho : m.Leads o)
    (h : m.rest = taken ++ skipped ++ o.rest) (hlast : last = skipped.getLastD o.current) :
    (m.current.span.through last.span).Covers
      (if skipped = [] then taken ++ skipped ++ [o.current] else taken ++ skipped) := by
  split
  · rename_i hnone
    rw [hnone] at h hlast ⊢
    rw [List.append_nil] at h ⊢
    rw [hlast, List.getLastD_nil]
    refine ⟨m.current, o.current, ?_, by simp, through_eq (hm.stop_mono ho)⟩
    cases taken with
    | nil => exact congrArg some (ho.current_of_length (by rw [h]; exact Nat.le_refl _))
    | cons t ts =>
      unfold Reader.current
      rw [h]
      rfl
  · rename_i hsome
    obtain ⟨us, u, rfl⟩ := (List.eq_nil_or_concat' skipped).resolve_left hsome
    rw [List.getLastD_concat] at hlast
    rw [← List.append_assoc] at h ⊢
    obtain ⟨hhead, hstop⟩ := current_of_passed hm h
    rw [hlast]
    exact ⟨m.current, u, hhead, by simp, through_eq hstop⟩

/-- What is covered where skipping begins at `k`, behind the tokens `taken`. -/
theorem skipParam_covers {k : Reader} {taken : List Token} {F : Reader → Prop} (hm : m.Placed cs) (hk : m.Leads k)
    (h : m.rest = taken ++ k.rest) : skipParam.Ensures k (fun last o => ∃ skipped, k.rest = skipped ++ o.rest ∧
      skipped = k.rest.take (paramLength 0 k.rest) ∧ (m.current.span.through last.span).Covers
        (if skipped = [] then taken ++ skipped ++ [o.current] else taken ++ skipped)) F := by
  have ho : k.Leads (k.advanceBy (paramLength 0 k.rest)) := .advanceBy _ k
  have hrest : k.rest = k.rest.take (paramLength 0 k.rest) ++ (k.advanceBy (paramLength 0 k.rest)).rest := by
    rw [Reader.advanceBy_rest, List.take_append_drop]
  refine .of_ok rfl ⟨k.rest.take (paramLength 0 k.rest), hrest, rfl, ?_⟩
  refine covers_through hm (hk.trans ho) (by rw [List.append_assoc, ← hrest, h]) ?_
  cases hs : k.rest.take (paramLength 0 k.rest) with
  | nil =>
    rw [hs, List.nil_append] at hrest
    exact (ho.current_of_length (by rw [← hrest])).symm
  | cons t ts => rfl

/-- Nothing is skipped from the end of a parameter on. -/
theorem skips_none (h : n.current.kind = .punct .rparen ∨ n.current.kind = .punct .comma) :
    n.rest.take (paramLength 0 n.rest) = [] := by
  unfold Reader.current at h
  cases hr : n.rest with
  | nil => rfl
  | cons t ts =>
    rw [hr, List.headD_cons] at h
    rcases h with h | h <;> simp [paramLength, h]

/-- Where the attempt has not moved on, the first token of the parameter goes in any case. -/
theorem skipParam_covers_first {F : Reader → Prop} (hm : m.Placed cs) (hn : m.Leads n) (hstay : n.rest = m.rest) :
    skipParam.Ensures n.advance (fun last o => ∃ given, m.rest = given ++ o.rest ∧
      (m.current.span.through last.span).Covers
        (if o.rest = n.rest ∨ given.length ≤ 1 then given ++ [o.current] else given)) F := by
  have hfirst : m.rest = m.rest.take 1 ++ n.advance.rest := by
    show m.rest = m.rest.take 1 ++ n.rest.tail
    rw [hstay, ← List.drop_one, List.take_append_drop]
  refine (skipParam_covers hm (hn.trans (.advance n)) hfirst).mono (fun last o hlast => ?_) (fun _ h => h)
  obtain ⟨skipped, hrest, -, hcovers⟩ := hlast
  refine ⟨m.rest.take 1 ++ skipped, by rw [List.append_assoc, ← hrest, ← hfirst], ?_⟩
  have hlength : n.rest.length - 1 = skipped.length + o.rest.length := by
    rw [← List.length_append, ← hrest]
    exact List.length_tail.symm
  have hiff : skipped = [] ↔ o.rest = n.rest ∨ (m.rest.take 1 ++ skipped).length ≤ 1 := by
    rw [List.length_append, List.length_take, ← hstay, ← List.length_eq_zero_iff]
    constructor
    · intro h
      exact .inr (by omega)
    · rintro (h | h)
      · rw [h] at hlength
        omega
      · omega
  simp only [← hiff]
  exact hcovers

/-- Where the attempt has taken some tokens, or is at the end of an empty parameter, only what is skipped goes. -/
theorem skipParam_covers_taken {taken : List Token} {F : Reader → Prop} (hm : m.Placed cs) (hn : m.Leads n)
    (htaken : taken ++ n.rest = m.rest)
    (hmoved : taken ≠ [] ∨ n.current.kind = .punct .rparen ∨ n.current.kind = .punct .comma) :
    skipParam.Ensures n (fun last o => ∃ given, m.rest = given ++ o.rest ∧
      (m.current.span.through last.span).Covers
        (if o.rest = n.rest ∨ given.length ≤ 1 then given ++ [o.current] else given)) F := by
  refine (skipParam_covers hm hn htaken.symm).mono (fun last o hlast => ?_) (fun _ h => h)
  obtain ⟨skipped, hrest, hlen, hcovers⟩ := hlast
  refine ⟨taken ++ skipped, by rw [List.append_assoc, ← hrest, htaken], ?_⟩
  have hlength := congrArg List.length hrest
  rw [List.length_append] at hlength
  have hiff : skipped = [] ↔ o.rest = n.rest ∨ (taken ++ skipped).length ≤ 1 := by
    constructor
    · rintro rfl
      exact .inl hrest.symm
    · rintro (h | h)
      · rw [h] at hlength
        exact List.length_eq_zero_iff.1 (by omega)
      · rw [List.length_append] at h
        rcases hmoved with hne | hend
        · have := List.length_pos_iff.2 hne
          exact List.length_eq_zero_iff.1 (by omega)
        · exact hlen.trans (skips_none hend)
  simp only [← hiff]
  exact hcovers

theorem skipParamFrom_covers {F : Reader → Prop} (hm : m.Placed cs) (hn : m.Leads n) :
    (skipParamFrom m.current).Ensures n (fun span o => ∃ given, m.rest = given ++ o.rest ∧
      span.Covers (if o.rest = n.rest ∨ given.length ≤ 1 then given ++ [o.current] else given)) F := by
  obtain ⟨taken, htaken⟩ := hn.rest
  -- the attempt has not moved on, or the current token is another one
  have hmoved : n.rest = m.rest ∧ n.current = m.current ∨ taken ≠ [] ∧ n.current.isSame m.current = false := by
    cases taken with
    | nil => exact .inl ⟨htaken, hn.current_of_length (by rw [← htaken]; exact Nat.le_refl _)⟩
    | cons t ts =>
      refine .inr ⟨List.cons_ne_nil _ _, isSame_of_length_lt hm.wf hn ?_⟩
      rw [← htaken, List.length_append, List.length_cons]
      omega
  unfold skipParamFrom
  simp only [ensures_bind, ensures_current, ensures_ite, ensures_advance, ensures_pure]
  rcases hmoved with ⟨hstay, hcur⟩ | ⟨hne, hother⟩
  · split
    · exact skipParam_covers_first hm hn hstay
    · rename_i hsame
      refine skipParam_covers_taken hm hn htaken (.inr ?_)
      by_contra hno
      rw [not_or] at hno
      simp [hcur, Token.isSame] at hsame hno
      exact hno.2 (hsame hno.1)
  · rw [if_neg (by simp [hother])]
    exact skipParam_covers_taken hm hn htaken (.inl hne)

theorem skipParamFrom_abandons (hm : m.Placed cs) (hn : m.Leads n) :
    (skipParamFrom m.current).Ensures n (fun span o => AbandonsParam m n o span) fun _ => True :=
  (Ensures.self.and (skipParamFrom_covers hm hn)).mono (fun _ _ h => ⟨hn, h.1, h.2⟩) (fun _ h => h.2)

/-! ## Losses of a source -/

/-- What is known of the spans that stand for parts of a source, when all of it is read from `r` on: each is left
by a round that reading takes at some token, where the attempt fails. -/
def losses (r : Reader) : Losses where
  stmt span := ∃ depth stmts m n o, r.Leads m ∧ stmt (blockAt depth) m = .fail n ∧
    stmtRound (blockAt depth) stmts m = .ok (.again (stmts.push (.bad span))) o ∧ Abandons .statement m n o span
  param span := ∃ m n o, r.Leads m ∧ param m = .fail n ∧ paramOrBad m = .ok (.bad span) o ∧ AbandonsParam m n o span
  member span := ∃ body m n o, r.Leads m ∧ member m = .fail n ∧
    memberRound body m = .ok (.again { body with bad := body.bad.push span, last := span }) o ∧
    Abandons .member m n o span
  decl span := ∃ before after m n o, r.Leads m ∧ declRound before m = .ok (.again after) o ∧
    after.bad = before.bad.push span ∧ Abandons .declaration m n o span

end Rule
end SemFront
