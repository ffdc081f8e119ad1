/-
A broken parameter does not end its list. The tokens between the parentheses of a function head fall into
items at the commas outside of all parentheses and brackets. Reading a parameter stays inside its item,
and what is left of the item is skipped up to the comma or the parenthesis behind it, so that one
parameter comes of every item and the list ends on its own parenthesis. Skipping counts parentheses only,
and only those that it meets itself: where reading has stopped inside of parentheses, or a comma inside
of brackets is still to come, it stops too early.
-/
import SemFront.Proofs.Grammar.ClassBody
import SemFront.Proofs.Grammar.Fences

namespace SemFront

/-! ## Parentheses and items -/

/-- How many parentheses are open behind a token. -/
def Kind.inParens : Kind → Nat → Nat
  | .punct .lparen, d => d + 1
  | .punct .rparen, d => d - 1
  | _, d => d

/-- How many parentheses are open behind some tokens, if each one that is closed was open. -/
def parenDepth : Nat → List Token → Option Nat
  | d, [] => some d
  | d, t :: ts => if t.kind = .punct .rparen ∧ d = 0 then none else parenDepth (t.kind.inParens d) ts

/-- Whether every comma stands inside of parentheses, `d` of which are open before. -/
def commasInParens : Nat → List Token → Bool
  | _, [] => true
  | d, t :: ts => (t.kind ≠ .punct .comma || d ≠ 0) && commasInParens (t.kind.inParens d) ts

/-- The items of a list, cut at the commas outside of everything that is open, each with the tokens behind it. -/
def itemsFrom : Fences → List Token → List (List Token × List Token)
  | _, [] => [([], [])]
  | o, t :: ts =>
    if t.kind = .punct .comma ∧ o = {} then ([], t :: ts) :: itemsFrom {} ts
    else (itemsFrom (o.move t.kind) ts).modifyHead fun item => (t :: item.1, item.2)

section Depth

variable {t c : Token} {ts us vs : List Token} {d e : Nat} {o : Fences}

theorem parenDepth_append (d : Nat) (us vs : List Token) :
    parenDepth d (us ++ vs) = (parenDepth d us).bind (parenDepth · vs) := by
  induction us generalizing d with
  | nil => rfl
  | cons t us ih =>
    simp only [List.cons_append, parenDepth]
    split
    · rfl
    · exact ih _

theorem Fences.parens_move (o : Fences) (k : Kind) : (o.move k).parens = k.inParens o.parens := by
  unfold Fences.move Kind.inParens
  split <;> simp_all

/-- Where everything closed was open, the parentheses are counted as all the rest is. -/
theorem parens_after (h : parenDepth o.parens us = some d) : (o.after us).parens = d := by
  induction us generalizing o with
  | nil => exact Option.some.inj h
  | cons t us ih =>
    rw [parenDepth] at h
    split at h
    · cases h
    · apply ih (o := o.move t.kind)
      rwa [Fences.parens_move]

/-- What belongs to what is open closes no parentheses around it. -/
theorem parenDepth_of_holds (h : o.Holds us) : parenDepth o.parens us = some (o.after us).parens := by
  induction us generalizing o with
  | nil => rfl
  | cons t us ih =>
    have ih := ih h.2
    rw [Fences.parens_move] at ih
    rw [parenDepth, if_neg, ih]
    · rfl
    · rintro ⟨hk, hd⟩
      have ha := h.1
      rw [hk, Fences.admits, hd] at ha
      cases ha

/-- Skipping ends with an item that closes its parentheses and has its commas inside of them. -/
theorem paramLength_append (hd : parenDepth d ts = some 0) (hcommas : commasInParens d ts = true)
    (hplain : ∀ t ∈ ts, t.kind ≠ .punct .lbrace ∧ t.kind ≠ .punct .semicolon)
    (hc : c.kind = .punct .comma ∨ c.kind = .punct .rparen) : paramLength d (ts ++ c :: us) = ts.length := by
  induction ts generalizing d with
  | nil =>
    obtain rfl : d = 0 := Option.some.inj hd
    rcases hc with hc | hc <;> simp [paramLength, hc]
  | cons t ts ih =>
    obtain ⟨h1, h2⟩ := hplain t List.mem_cons_self
    rw [parenDepth] at hd
    rw [commasInParens, Bool.and_eq_true_iff] at hcommas
    split at hd
    · cases hd
    · rename_i hopen
      have ih : paramLength (t.kind.inParens d) (ts ++ c :: us) = ts.length :=
        ih hd hcommas.2 fun u hu => hplain u (List.mem_cons_of_mem t hu)
      have hcomma : t.kind = .punct .comma → d ≠ 0 := by simpa [Decidable.imp_iff_not_or] using hcommas.1
      rw [List.cons_append, List.length_cons, ← ih, paramLength.eq_def]
      unfold Kind.inParens
      dsimp only
      split
      · simp_all
      · rename_i hk
        cases d with
        | zero => exact absurd ⟨hk, rfl⟩ hopen
        | succ d => simp_all
      · contradiction
      · contradiction
      · rename_i hk
        rw [if_neg (hcomma hk), hk]
      · split <;> simp_all

/-- Items are cut one by one: there is one only, or one in front of a comma outside of everything. -/
theorem itemsFrom_cases (o : Fences) (ts : List Token) :
    itemsFrom o ts = [(ts, [])] ∨ ∃ (item : List Token) (c : Token) (us : List Token), ts = item ++ c :: us ∧
      c.kind = .punct .comma ∧ o.after item = {} ∧ itemsFrom o ts = (item, c :: us) :: itemsFrom {} us := by
  induction ts generalizing o with
  | nil => exact .inl rfl
  | cons t ts ih =>
    rw [itemsFrom]
    split
    · rename_i hcut
      exact .inr ⟨[], t, ts, rfl, hcut.1, hcut.2, rfl⟩
    · rcases ih (o.move t.kind) with h | ⟨item, c, us, rfl, hc, ho, h⟩
      · rw [h]
        exact .inl rfl
      · rw [h]
        exact .inr ⟨t :: item, c, us, rfl, hc, ho, rfl⟩

/-- An item that is not empty does not start with a comma. -/
theorem ne_comma_of_mem_itemsFrom (h : (t :: us, vs) ∈ (itemsFrom {} ts).head?) : t.kind ≠ .punct .comma := by
  intro hk
  cases ts with
  | nil => simp [itemsFrom] at h
  | cons u ts =>
    rw [itemsFrom] at h
    split at h
    · simp at h
    · rename_i hcut
      rw [List.head?_modifyHead] at h
      obtain ⟨item, -, heq⟩ := Option.map_eq_some_iff.1 h
      obtain ⟨rfl, -⟩ : u = t ∧ item.1 = us := by simpa using congrArg Prod.fst heq
      exact hcut ⟨hk, rfl⟩

/-- Tokens that close their parentheses start with no closing one. -/
theorem ne_rparen_of_parenDepth (h : parenDepth 0 (t :: ts) = some e) : t.kind ≠ .punct .rparen := by
  intro hk
  rw [parenDepth, if_pos ⟨hk, rfl⟩] at h
  cases h

end Depth

/-- Whether a rule ended in failure. -/
def Reply.failed : Reply α → Bool
  | .ok _ _ => false
  | .fail _ => true

namespace Rule

variable {r m : Reader} {item more ts rest : List Token} {sep closed : Token}

/-! ## One parameter -/

/-- The tokens of a parameter that are read, or given up, before the end of the parameter is looked for. -/
def paramTaken (r : Reader) : List Token :=
  match param r with
  | .ok _ s => r.rest.take (r.rest.length - s.advance.rest.length)
  | .fail s => r.rest.take (max 1 (r.rest.length - s.rest.length))

/-- A parameter that cannot be read breaks outside of parentheses, and those commas of its item that are still to
come stand inside of parentheses. -/
structure BreaksOutside (r : Reader) (item : List Token) : Prop where
  closed : (param r).failed = true → parenDepth 0 (paramTaken r) = some 0
  commas : commasInParens 0 (item.drop (paramTaken r).length) = true

instance : Decidable (BreaksOutside r item) :=
  decidable_of_iff (_ ∧ _) ⟨fun h => ⟨h.1, h.2⟩, fun h => ⟨h.closed, h.commas⟩⟩

/-- A parameter that was read from the beginning of an item, or that stands for an item that could not be read. -/
def ComesOf (r : Reader) (item : List Token) (p : Param) : Prop :=
  paramTaken r <+: item ∧ match param r with
    | .ok q _ => p = q
    | .fail _ => ∃ span, p = .bad span ∧ span.start = r.current.span.start

theorem paramTaken_eq {q : Reader} (h : q.SameInput r) : paramTaken q = paramTaken r := by
  have hsame := Unlogged.same param h
  unfold paramTaken
  generalize param q = y, param r = z at hsame ⊢
  cases hsame with
  | ok hs => simp only [h.rest, (Reader.sameInput_bond.advance hs).rest]
  | fail hs => simp only [h.rest, hs.rest]

theorem BreaksOutside.of_same {q : Reader} (hq : BreaksOutside q item) (h : q.SameInput r) : BreaksOutside r item := by
  obtain ⟨hclosed, hcommas⟩ := hq
  rw [paramTaken_eq h] at hclosed hcommas
  refine ⟨?_, hcommas⟩
  have hsame := Unlogged.same param h
  generalize param q = y, param r = z at hsame hclosed ⊢
  cases hsame with
  | ok hs => exact hclosed
  | fail hs => exact hclosed

theorem ComesOf.of_same {q : Reader} {p : Param} (hp : ComesOf r item p) (h : q.SameInput r) : ComesOf q item p := by
  obtain ⟨htaken, hp⟩ := hp
  refine ⟨by rwa [paramTaken_eq h], ?_⟩
  have hsame := Unlogged.same param h
  rw [Reader.sameInput_bond.current h]
  generalize param q = y, param r = z at hsame hp ⊢
  cases hsame with
  | ok hs => exact hp
  | fail hs => exact hp

/-- Tokens that belong together end with the item whose end does not belong to it. -/
theorem prefix_of_holds {us vs : List Token} (h : item ++ sep :: more = us ++ vs) (hus : Fences.Holds {} us)
    (hsep : (Fences.after {} item).admits sep.kind = false) : us <+: item := by
  rcases List.append_eq_append_iff.1 h with ⟨ws, rfl, hws⟩ | ⟨ws, rfl, -⟩
  · cases ws with
    | nil => simp
    | cons w ws =>
      obtain ⟨rfl, -⟩ := List.cons.inj hws
      rw [(Fences.holds_append.1 hus).2.1] at hsep
      cases hsep
  · exact List.prefix_append us ws

/-- A parameter that can be read is read from the beginning of its item. -/
theorem param_ok (hm : m.WF) (hrest : m.rest = item ++ sep :: more)
    (hsep : (Fences.after {} item).admits sep.kind = false) {p : Param} {s : Reader} (h : param m = .ok p s) :
    ∃ left, item = paramTaken m ++ left ∧ s.advance.rest = left ++ sep :: more := by
  obtain ⟨us, hus, hholds, -⟩ := ((nested_param.nests hm).ok h).nests.tokens
  have htaken : paramTaken m = us := by
    unfold paramTaken
    rw [h]
    simp [hus]
  obtain ⟨left, rfl⟩ := prefix_of_holds (hrest.symm.trans hus) hholds hsep
  refine ⟨left, by rw [htaken], ?_⟩
  rw [hrest, List.append_assoc] at hus
  exact (List.append_cancel_left hus).symm

/-- A parameter that cannot be read is given up from the beginning of its item: what was passed, or at least one
token. -/
theorem param_fail (hm : m.WF) (hrest : m.rest = item ++ sep :: more) (hne : item ≠ [])
    (hsep : (Fences.after {} item).admits sep.kind = false) {s : Reader} (h : param m = .fail s) :
    ∃ left, item = paramTaken m ++ left ∧
      (if s.rest.length < m.rest.length then s.rest else s.rest.tail) = left ++ sep :: more := by
  obtain ⟨o, hs⟩ := (nested_param.nests hm).fail h
  obtain ⟨us, hus, hholds, -⟩ := hs.tokens
  have htaken : paramTaken m = m.rest.take (max 1 us.length) := by
    unfold paramTaken
    rw [h]
    simp [hus]
  cases us with
  | nil =>
    obtain ⟨t, left, rfl⟩ := List.exists_cons_of_ne_nil hne
    have hrest' : s.rest = t :: (left ++ sep :: more) := hus.symm.trans hrest
    refine ⟨left, by simp [htaken, hrest], ?_⟩
    rw [if_neg (by simp [hus]), hrest']
    rfl
  | cons u us =>
    obtain ⟨left, rfl⟩ := prefix_of_holds (hrest.symm.trans hus) hholds hsep
    refine ⟨left, by simp [htaken, hrest], ?_⟩
    have hlt : s.rest.length < m.rest.length := by
      rw [hus, List.length_append, List.length_cons]
      omega
    rw [if_pos hlt]
    rw [hrest, List.append_assoc] at hus
    exact (List.append_cancel_left hus).symm

/-- What can be read closes its parentheses, and so does what is given up if it breaks outside of them. -/
theorem BreaksOutside.depth (hm : m.WF) (h : BreaksOutside m item) : parenDepth 0 (paramTaken m) = some 0 := by
  have hclosed := h.closed
  cases hp : param m with
  | ok p s =>
    obtain ⟨us, hus, hholds, hafter⟩ := ((nested_param.nests hm).ok hp).nests.tokens
    have htaken : paramTaken m = us := by
      unfold paramTaken
      rw [hp]
      simp [hus]
    rw [htaken, parenDepth_of_holds hholds, hafter]
  | fail s =>
    rw [hp] at hclosed
    exact hclosed rfl

section Item

variable (hm : m.WF) (hrest : m.rest = item ++ sep :: more) (hne : item ≠ [])
  (hsep : (Fences.after {} item).admits sep.kind = false) (hkind : sep.kind = .punct .comma ∨ sep.kind = .punct .rparen)
  (hitem : parenDepth 0 item = some 0) (hplain : ∀ t ∈ item, t.kind ≠ .punct .lbrace ∧ t.kind ≠ .punct .semicolon)
  (hbreak : BreaksOutside m item)

include hm hkind hitem hplain hbreak in
/-- What is left of an item is skipped, and nothing else. -/
theorem skipParam_left {s : Reader} {left : List Token} (hleft : item = paramTaken m ++ left)
    (hs : s.rest = left ++ sep :: more) {Q : Token → Reader → Prop}
    (hQ : ∀ t n, s.Leads n → n.rest = sep :: more → Q t n) : skipParam.Ensures s Q (fun _ => False) := by
  have hdepth : parenDepth 0 left = some 0 := by
    rw [hleft, parenDepth_append, hbreak.depth hm] at hitem
    exact hitem
  have hcommas : commasInParens 0 left = true := by
    have h := hbreak.commas
    rw [hleft, List.drop_left] at h
    exact h
  have hlength : paramLength 0 s.rest = left.length := by
    rw [hs]
    refine paramLength_append hdepth hcommas (fun t ht => hplain t ?_) hkind
    rw [hleft]
    exact List.mem_append_right _ ht
  refine .of_ok rfl (hQ _ _ (.advanceBy _ s) ?_)
  rw [Reader.advanceBy_rest, hlength, hs, List.drop_left]

include hm hrest hne hsep hkind hitem hplain hbreak in
/-- Whether it can be read or not, one parameter comes of an item, and reading stops behind the item. -/
theorem paramOrBad_item (hcomma : ∀ t ∈ item.head?, t.kind ≠ .punct .comma) : paramOrBad.Ensures m
    (fun p s => m.Leads s ∧ s.rest = sep :: more ∧ ComesOf m item p) (fun _ => False) := by
  have hcur : ∀ {s : Reader} {t : Token} {us : List Token}, s.rest = t :: us → s.current = t := by
    intro s t us h
    unfold Reader.current
    rw [h]
    rfl
  unfold paramOrBad
  simp only [ensures_bind, ensures_current, ensures_attempt]
  cases hp : param m with
  | ok p s =>
    have hlead : m.Leads s := ((nested_param.nests hm).ok hp).leads
    refine .of_ok hp ?_
    obtain ⟨left, hleft, hs⟩ := param_ok hm hrest hsep hp
    have hcomes : ComesOf m item p := ⟨⟨left, hleft.symm⟩, by rw [hp]⟩
    simp only [ensures_bind, ensures_peek, ensures_ite, ensures_advance, ensures_report, ensures_pure]
    cases left with
    | nil =>
      have hk : (s.advance.current.kind = .punct .comma || s.advance.current.kind = .punct .rparen) = true := by
        rw [hcur hs]
        simpa using hkind
      rw [if_pos hk]
      exact ⟨hlead.trans (.advance s), hs, hcomes⟩
    | cons t left =>
      -- behind the parameter, what is left starts neither with a comma nor with a closing parenthesis
      have h1 : t.kind ≠ .punct .comma := by
        have h := hbreak.commas
        rw [hleft, List.drop_left, commasInParens] at h
        intro hk
        simp [hk] at h
      have h2 : t.kind ≠ .punct .rparen := by
        rw [hleft, parenDepth_append, hbreak.depth hm] at hitem
        exact ne_rparen_of_parenDepth hitem
      rw [if_neg (by rw [hcur hs]; simp [h1, h2])]
      refine skipParam_left (s := (s.report _).advance) hm hkind hitem hplain hbreak hleft hs fun _ n hn hrest => ?_
      exact ⟨hlead.trans (((Reader.Leads.report s _).trans (.advance _)).trans hn), hrest, hcomes⟩
  | fail s =>
    obtain ⟨-, hlead, -⟩ := (nested_param.nests hm).fail hp
    refine .of_fail hp ?_
    obtain ⟨left, hleft, hs⟩ := param_fail hm hrest hne hsep hp
    have hcomes : ∀ span : Span, span.start = m.current.span.start → ComesOf m item (.bad span) := fun span h =>
      ⟨⟨left, hleft.symm⟩, by rw [hp]; exact ⟨span, rfl, h⟩⟩
    have hskip : ∀ {n : Reader}, s.Leads n → n.rest = left ++ sep :: more → skipParam.Ensures n
        (fun last k => m.Leads k ∧ k.rest = sep :: more ∧ ComesOf m item (.bad (m.current.span.through last.span)))
        (fun _ => False) := fun hn hnr =>
      skipParam_left hm hkind hitem hplain hbreak hleft hnr fun _ k hk hkr =>
        ⟨hlead.trans (hn.trans hk), hkr, hcomes _ rfl⟩
    unfold skipParamFrom
    simp only [ensures_bind, ensures_current, ensures_ite, ensures_advance, ensures_pure]
    by_cases hlt : s.rest.length < m.rest.length
    · rw [if_pos hlt] at hs
      rw [if_neg (by simp [isSame_of_length_lt hm hlead hlt])]
      exact hskip (.refl s) hs
    · rw [if_neg hlt] at hs
      obtain ⟨t, us, rfl⟩ := List.exists_cons_of_ne_nil hne
      have hcurrent : s.current = m.current := hlead.current_of_length (Nat.le_of_not_lt hlt)
      have ht : m.current = t := hcur hrest
      have hgo : (s.current.isSame m.current && s.current.kind ≠ .punct .rparen &&
          s.current.kind ≠ .punct .comma) = true := by
        rw [hcurrent, ht]
        simp [Token.isSame, ne_rparen_of_parenDepth hitem, hcomma t (by simp)]
      rw [if_pos hgo]
      exact hskip (.advance s) hs

end Item

/-! ## All parameters -/

/-- A reader on an item of a list that `r` is in front of, with `tail` behind the list. -/
def atItem (r : Reader) (tail : List Token) (item : List Token × List Token) : Reader :=
  r.afresh (item.1 ++ (item.2 ++ tail))

/-- A reader in front of the last items of a list, `todo`; the items before them are `done`. -/
structure Remains (r : Reader) (ts tail : List Token) (m : Reader) (done : List (List Token × List Token))
    (todo : List Token) : Prop where
  leads : r.Leads m
  rest : m.rest = todo ++ tail
  items : itemsFrom {} ts = done ++ itemsFrom {} todo
  depth : parenDepth 0 todo = some 0
  plain : ∀ t ∈ todo, t.kind ≠ .punct .lbrace ∧ t.kind ≠ .punct .semicolon

/-- The parameters of some items, in the same order. -/
def ComeOf (r : Reader) (tail : List Token) (items : List (List Token × List Token)) (ps : List Param) : Prop :=
  List.Forall₂ (fun item p => ComesOf (atItem r tail item) item.1 p) items ps

section Round

variable {done : List (List Token × List Token)} {todo : List Token} {ps : Array Param} (hr : r.WF)
  (hclosed : closed.kind = .punct .rparen) (hitems : ∀ item ∈ itemsFrom {} ts, item.1 ≠ [])
  (hbreaks : ∀ item ∈ itemsFrom {} ts, BreaksOutside (atItem r (closed :: rest) item) item.1)
  (h : Remains r ts (closed :: rest) m done todo) (hps : ComeOf r (closed :: rest) done ps.toList)
include hr hclosed hitems hbreaks h hps

omit hclosed in
/-- One more parameter comes of the next item, whatever separates it from what follows. -/
theorem paramOrBad_next {after : List Token} {items : List (List Token × List Token)}
    (htodo : m.rest = item ++ sep :: more) (hafter : sep :: more = after ++ closed :: rest)
    (hhead : itemsFrom {} todo = (item, after) :: items) (hsep : (Fences.after {} item).admits sep.kind = false)
    (hkind : sep.kind = .punct .comma ∨ sep.kind = .punct .rparen) (hdepth : parenDepth 0 item = some 0)
    (hplain : ∀ t ∈ item, t.kind ≠ .punct .lbrace ∧ t.kind ≠ .punct .semicolon) : paramOrBad.Ensures m
      (fun p s => r.Leads s ∧ s.rest = sep :: more ∧
        ComeOf r (closed :: rest) (done ++ [(item, after)]) (ps.push p).toList) (fun _ => False) := by
  have hmem : (item, after) ∈ itemsFrom {} ts := by
    rw [h.items, hhead]
    simp
  have hsame : (atItem r (closed :: rest) (item, after)).SameInput m :=
    ⟨by rw [htodo, hafter]; rfl, h.leads.eof.symm, h.leads.budget.symm⟩
  have hcomma : ∀ t ∈ item.head?, t.kind ≠ .punct .comma := by
    intro t ht
    obtain ⟨us, rfl⟩ : ∃ us, item = t :: us := ⟨_, List.eq_cons_of_mem_head? ht⟩
    have hfirst : (t :: us, after) ∈ (itemsFrom {} todo).head? := by
      rw [hhead]
      rfl
    exact ne_comma_of_mem_itemsFrom hfirst
  have hbreak : BreaksOutside m item := (hbreaks _ hmem).of_same hsame
  refine (paramOrBad_item (h.leads.wf hr) htodo (hitems _ hmem) hsep hkind hdepth hplain hbreak hcomma).mono
    (fun p s hs => ?_) (fun _ hs => hs)
  obtain ⟨hl, hrest, hcomes⟩ := hs
  refine ⟨h.leads.trans hl, hrest, ?_⟩
  rw [Array.toList_push]
  exact List.rel_append hps (.cons (hcomes.of_same hsame) .nil)

theorem paramRound_next : (paramRound ps).Ensures m
    (ofRound
      (fun qs s => ∃ done todo, Remains r ts (closed :: rest) s done todo ∧ ComeOf r (closed :: rest) done qs.toList)
      fun qs s => s.rest = closed :: rest ∧ ComeOf r (closed :: rest) (itemsFrom {} ts) qs.toList)
    (fun _ => False) := by
  unfold paramRound paramEnd
  simp only [ensures_bind, ensures_current, ensures_ite, ensures_advance, ensures_report, ensures_pure, ensures_fail]
  rcases itemsFrom_cases {} todo with hlast | ⟨item, c, us, rfl, hc, ho, hcut⟩
  · -- the last item ends with the parenthesis that closes the list
    have hsep : (Fences.after {} todo).admits closed.kind = false := by
      rw [hclosed, Fences.admits, parens_after (o := {}) h.depth]
      rfl
    refine (paramOrBad_next hr hitems hbreaks h hps h.rest rfl hlast hsep (.inr hclosed) h.depth h.plain).mono
      (fun p s hs => ?_) (fun _ hs => hs)
    obtain ⟨-, hrest, hcome⟩ := hs
    have hcur : s.current.kind = .punct .rparen := by
      unfold Reader.current
      rw [hrest]
      exact hclosed
    rw [if_pos hcur, ofRound, h.items, hlast]
    exact ⟨hrest, hcome⟩
  · have hdepth := h.depth
    rw [parenDepth_append] at hdepth
    obtain ⟨d, hd, hdepth⟩ := Option.bind_eq_some_iff.1 hdepth
    obtain rfl : 0 = d := by
      rw [← parens_after (o := {}) hd, ho]
    have hus : parenDepth 0 us = some 0 := by
      rw [parenDepth, if_neg (by simp [hc]), hc] at hdepth
      exact hdepth
    have hsep : (Fences.after {} item).admits c.kind = false := by
      rw [ho, hc]
      rfl
    refine (paramOrBad_next hr hitems hbreaks h hps (by rw [h.rest, List.append_assoc]; rfl) rfl hcut hsep
      (.inl hc) hd fun t ht => h.plain t (List.mem_append_left _ ht)).mono (fun p s hs => ?_) (fun _ hs => hs)
    obtain ⟨hl, hrest, hcome⟩ := hs
    have hcur : s.current.kind = .punct .comma := by
      unfold Reader.current
      rw [hrest]
      exact hc
    have hitems' : itemsFrom {} ts = (done ++ [(item, c :: us)]) ++ itemsFrom {} us := by
      rw [h.items, hcut, List.append_assoc]
      rfl
    -- the next item is not empty, and does not start with a closing parenthesis
    have hnext : s.advance.current.kind ≠ .punct .rparen := by
      cases us with
      | nil => exact absurd rfl (hitems ([], []) (by rw [hitems']; simp [itemsFrom]))
      | cons t us =>
        unfold Reader.current Reader.advance
        rw [hrest]
        exact ne_rparen_of_parenDepth hus
    rw [if_neg (by simp [hcur]), if_pos hcur, if_neg hnext]
    refine ⟨_, us, ⟨hl.trans (.advance s), ?_, hitems', hus, fun t ht => h.plain t (by simp [ht])⟩, hcome⟩
    unfold Reader.advance
    rw [hrest]
    rfl

end Round

/-- One parameter comes of every item of a list, in order, and the list ends on the parenthesis that closes it, unless
a parameter breaks inside of parentheses or in front of a comma inside of brackets. -/
theorem params_one_per_item {r : Reader} (hr : r.WF) {ts rest : List Token} {closed : Token}
    (hrest : r.rest = ts ++ closed :: rest) (hclosed : closed.kind = .punct .rparen) (hts : parenDepth 0 ts = some 0)
    (hplain : ∀ t ∈ ts, t.kind ∉ [.punct .lbrace, .punct .rbrace, .punct .semicolon])
    (hitems : ∀ item ∈ itemsFrom {} ts, item.1 ≠ [])
    (hbreaks : ∀ item ∈ itemsFrom {} ts, BreaksOutside (atItem r (closed :: rest) item) item.1) :
    ∃ ps s, params r = .ok ps s ∧ s.current = closed ∧ s.rest = closed :: rest ∧
      ps.length = (itemsFrom {} ts).length ∧
      List.Forall₂ (fun item p => ComesOf (atItem r (closed :: rest) item) item.1 p) (itemsFrom {} ts) ps := by
  have hparams : params.Ensures r (fun ps s => s.rest = closed :: rest ∧
      ComeOf r (closed :: rest) (itemsFrom {} ts) ps) (fun _ => False) := by
    unfold params
    simp only [ensures_bind, ensures_current, ensures_ite, ensures_pure]
    have hne : r.current.kind ≠ .punct .rparen := by
      cases ts with
      | nil => exact absurd rfl (hitems ([], []) (by simp [itemsFrom]))
      | cons t ts =>
        unfold Reader.current
        rw [hrest]
        exact ne_rparen_of_parenDepth hts
    rw [if_neg hne]
    have hstart : Remains r ts (closed :: rest) r [] ts := ⟨.refl r, hrest, rfl, hts, fun t ht => by
      have := hplain t ht
      simp_all⟩
    refine Ensures.loop (P := fun (qs : Array Param) m => ∃ done todo, Remains r ts (closed :: rest) m done todo ∧
      ComeOf r (closed :: rest) done qs.toList) (fun qs m _ hm => ?_) hr ⟨[], ts, hstart, List.Forall₂.nil⟩
    obtain ⟨done, todo, hrem, hqs⟩ := hm
    exact paramRound_next hr hclosed hitems hbreaks hrem hqs
  obtain ⟨ps, s, hps, hsrest, hcome⟩ := hparams.exists_ok
  refine ⟨ps, s, hps, ?_, hsrest, hcome.length_eq.symm, hcome⟩
  unfold Reader.current
  rw [hsrest]
  rfl

/-- Parameters that cannot be read, one that can be with more behind it, and a list in a constraint. -/
def brokenParams : Reader :=
  .ofSource "a.sem" "5 (6, 7), a, b: T | g(1, [2, 3]) (c, d), e: T | [1, h(2), 3], : T): R"

theorem params_one_per_item_broken :
    parenDepth 0 (brokenParams.rest.take 46) = some 0 ∧
    (itemsFrom {} (brokenParams.rest.take 46)).map (·.1.length) = [6, 1, 19, 14, 2] ∧
    (∀ item ∈ itemsFrom {} (brokenParams.rest.take 46),
      BreaksOutside (atItem brokenParams (brokenParams.ahead 45 :: brokenParams.rest.drop 47) item) item.1) ∧
    ∃ ps s, params brokenParams = .ok ps s ∧ s.rest = brokenParams.ahead 45 :: brokenParams.rest.drop 47 ∧
      ps.length = 5 := by
  have h : brokenParams.rest = brokenParams.rest.take 46 ++ brokenParams.ahead 45 :: brokenParams.rest.drop 47 ∧
      (brokenParams.ahead 45).kind = .punct .rparen ∧ parenDepth 0 (brokenParams.rest.take 46) = some 0 ∧
      (∀ t ∈ brokenParams.rest.take 46, t.kind ∉ [.punct .lbrace, .punct .rbrace, .punct .semicolon]) ∧
      (∀ item ∈ itemsFrom {} (brokenParams.rest.take 46), item.1 ≠ []) ∧
      (itemsFrom {} (brokenParams.rest.take 46)).map (·.1.length) = [6, 1, 19, 14, 2] ∧
      ∀ item ∈ itemsFrom {} (brokenParams.rest.take 46),
        BreaksOutside (atItem brokenParams (brokenParams.ahead 45 :: brokenParams.rest.drop 47) item) item.1 := by
    decide +kernel
  obtain ⟨hrest, hclosed, hts, hplain, hitems, hlengths, hbreaks⟩ := h
  obtain ⟨ps, s, hps, -, hs, hlength, -⟩ :=
    params_one_per_item (Reader.ofSource_wf _ _ _) hrest hclosed hts hplain hitems hbreaks
  refine ⟨hts, hlengths, hbreaks, ps, s, hps, hs, ?_⟩
  have := congrArg List.length hlengths
  rw [List.length_map] at this
  rw [hlength, this]
  rfl

/-- A parameter that breaks inside of the parentheses of a call, with another one behind it. -/
def brokenCall : Reader := .ofSource "a.sem" "a: T | g(1 2), b: T): R"

/-- A parameter with a list behind it that it cannot have. -/
def strayList : Reader := .ofSource "a.sem" "a: T [5, 6]): R"

/-- How many parameters were read, and what is left behind them. -/
def paramsRead (r : Reader) : Option (Nat × List Token) :=
  match params r with
  | .ok ps s => some (ps.length, s.rest)
  | .fail _ => none

theorem exists_of_paramsRead {n : Nat} (h : paramsRead r = some (n, ts)) :
    ∃ ps s, params r = .ok ps s ∧ ps.length = n ∧ s.rest = ts := by
  unfold paramsRead at h
  split at h
  · rename_i ps s e
    cases h
    exact ⟨ps, s, e, rfl, rfl⟩
  · cases h

/-- Skipping starts to count where reading has stopped: the parenthesis of a call ends the list, and with it the
first of two parameters, and a comma inside of brackets makes two parameters of one. -/
theorem params_miss_items :
    (parenDepth 0 (brokenCall.rest.take 13) = some 0 ∧ (brokenCall.ahead 12).kind = .punct .rparen ∧
      (itemsFrom {} (brokenCall.rest.take 13)).map (·.1.length) = [9, 3] ∧
      ∃ ps s, params brokenCall = .ok ps s ∧ ps.length = 1 ∧ s.rest = brokenCall.rest.drop 8) ∧
    parenDepth 0 (strayList.rest.take 8) = some 0 ∧ (strayList.ahead 7).kind = .punct .rparen ∧
      (itemsFrom {} (strayList.rest.take 8)).map (·.1.length) = [8] ∧
      ∃ ps s, params strayList = .ok ps s ∧ ps.length = 2 ∧ s.rest = strayList.rest.drop 8 := by
  have hcall : parenDepth 0 (brokenCall.rest.take 13) = some 0 ∧ (brokenCall.ahead 12).kind = .punct .rparen ∧
      (itemsFrom {} (brokenCall.rest.take 13)).map (·.1.length) = [9, 3] ∧
      paramsRead brokenCall = some (1, brokenCall.rest.drop 8) := by decide +kernel
  have hlist : parenDepth 0 (strayList.rest.take 8) = some 0 ∧ (strayList.ahead 7).kind = .punct .rparen ∧
      (itemsFrom {} (strayList.rest.take 8)).map (·.1.length) = [8] ∧
      paramsRead strayList = some (2, strayList.rest.drop 8) := by decide +kernel
  exact ⟨⟨hcall.1, hcall.2.1, hcall.2.2.1, exists_of_paramsRead hcall.2.2.2⟩,
    hlist.1, hlist.2.1, hlist.2.2.1, exists_of_paramsRead hlist.2.2.2⟩

end Rule
end SemFront
