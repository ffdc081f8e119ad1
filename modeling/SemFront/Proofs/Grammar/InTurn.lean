/-
Items read in turn: statements of a block, members of a class, declarations of a program. A
repetition reads items in turn up to a place where it stops; what items spell, what is read of them
where they are spelled, and that they start one behind the other, passes from one item to all.
-/
import SemFront.Proofs.Grammar.Edit

namespace SemFront.Rule

/-- Items are read one after the other, each from the token behind the one before it. -/
inductive InTurn (R : Reader → α → Reader → Prop) : Reader → List α → Reader → Prop
  | nil {r : Reader} : InTurn R r [] r
  | cons {r m s : Reader} {x : α} {xs : List α} : R r x m → InTurn R m.advance xs s → InTurn R r (x :: xs) s

/-- Reading an item moves on from a token that is not the end. -/
structure Steps (R : Reader → α → Reader → Prop) : Prop where
  leads : ∀ {r x s}, R r x s → r.Leads s
  notEof : ∀ {r x s}, R r x s → r.current.kind ≠ .eof

variable {R : Reader → α → Reader → Prop} {r s m : Reader} {x : α} {xs : List α}

theorem Steps.length_lt (hR : Steps R) (hr : r.WF) (h : R r x s) : s.advance.rest.length < r.rest.length := by
  have h1 := (hR.leads h).length_le
  have h2 := hr.length_advance (hR.notEof h)
  change s.rest.tail.length < _
  rw [List.length_tail]
  omega

theorem Steps.wf (hR : Steps R) (hr : r.WF) (h : R r x s) : s.advance.WF := ((hR.leads h).wf hr).advance

namespace InTurn

theorem concat (h : InTurn R r xs m) (k : R m x s) : InTurn R r (xs ++ [x]) s.advance := by
  induction h with
  | nil => exact .cons k .nil
  | cons h' _ ih => exact .cons h' (ih k)

theorem leads (hR : Steps R) (h : InTurn R r xs s) : r.Leads s := by
  induction h with
  | nil => exact .refl _
  | cons h' _ ih => exact ((hR.leads h').trans (.advance _)).trans ih

/-- Items that spell what is read, edits included, do so in turn. -/
theorem sound {lexemes : α → List Lexeme} {P : α → Prop} {B L : α → List Int} (hR : Steps R)
    (hx : ∀ ⦃r x s⦄, r.WF → R r x s → P x ∧ Edit r.rest (lexemes x) s.advance.rest (B x) (L x))
    (h : InTurn R r xs s) (hr : r.WF) :
    (∀ x ∈ xs, P x) ∧ Edit r.rest (xs.flatMap lexemes) s.rest (xs.flatMap B) (xs.flatMap L) := by
  induction h with
  | nil => exact ⟨nofun, .nil⟩
  | cons h' _ ih =>
    obtain ⟨hP, he⟩ := hx hr h'
    obtain ⟨hPs, hes⟩ := ih (hR.wf hr h')
    refine ⟨?_, ?_⟩
    · intro y hy
      rcases List.mem_cons.1 hy with rfl | hy
      · exact hP
      · exact hPs y hy
    · simp only [List.flatMap_cons]
      exact he.append hes

theorem flatMap_nil (xs : List α) : xs.flatMap (fun _ => ([] : List Int)) = [] := by simp

/-- Items that spell what is read, without edits, do so in turn. -/
theorem sound_of_spells {lexemes : α → List Lexeme} {P : α → Prop} (hR : Steps R)
    (hx : ∀ ⦃r x s⦄, r.WF → R r x s → P x ∧ Spells r.rest (lexemes x) s.advance.rest)
    (h : InTurn R r xs s) (hr : r.WF) : (∀ x ∈ xs, P x) ∧ Edit r.rest (xs.flatMap lexemes) s.rest [] [] := by
  have := h.sound hR (fun _ _ _ hr h => (hx hr h).imp_right Spells.toEdit) hr
  rwa [flatMap_nil] at this

/-- Items that are read where they are spelled are read in turn. -/
theorem complete {lexemes : α → List Lexeme} {P : α → Prop} {erase : α → γ} (hR : Steps R)
    (hx : ∀ ⦃r x c⦄, r.WF → P x → Spells r.rest (lexemes x) c →
      ∃ y s, R r y s ∧ erase y = erase x ∧ s.advance.rest = c) {c : List Token} :
    ∀ (xs : List α), (∀ x ∈ xs, P x) → ∀ r : Reader, r.WF → Spells r.rest (xs.flatMap lexemes) c →
      ∃ ys s, InTurn R r ys s ∧ ys.map erase = xs.map erase ∧ s.rest = c
  | [], _, r, _, hs => ⟨[], r, .nil, rfl, spells_nil.1 hs⟩
  | x :: xs, hP, r, hr, hs => by
    rw [List.flatMap_cons] at hs
    obtain ⟨b, h1, h2⟩ := spells_append.1 hs
    obtain ⟨y, m, hy, he, rfl⟩ := hx hr (hP x List.mem_cons_self) h1
    obtain ⟨ys, s, hys, hes, hc⟩ := complete hR hx xs (fun z hz => hP z (List.mem_cons_of_mem _ hz)) m.advance
      (hR.wf hr hy) h2
    exact ⟨y :: ys, s, .cons hy hys, by rw [List.map_cons, List.map_cons, he, hes], hc⟩

/-- Items that start with the first token they are read from start one behind the other. -/
theorem ascending {start : α → Int} (hR : Steps R)
    (hx : ∀ ⦃r x s⦄, r.WF → R r x s → start x = r.current.span.start) (h : InTurn R r xs s) (hr : r.WF) :
    xs.Pairwise (fun x y => start x < start y) ∧ ∀ x ∈ xs, ∃ t ∈ r.rest, start x = t.span.start := by
  induction h with
  | nil => exact ⟨.nil, nofun⟩
  | @cons r m s x xs h' _ ih =>
    obtain ⟨ih1, ih2⟩ := ih (hR.wf hr h')
    have hrest := hr.rest_eq (hR.notEof h')
    have hsuff : ∀ t ∈ m.advance.rest, t ∈ r.advance.rest := by
      intro t ht
      have h1 : m.advance.rest <:+ r.advance.rest := by
        have h2 : m.advance.rest <:+ r.rest := (List.tail_suffix _).trans (hR.leads h').rest
        have h3 := hR.length_lt hr h'
        rw [hrest] at h2 h3
        exact (List.suffix_cons_iff.1 h2).resolve_left fun e => by rw [e] at h3; exact Nat.lt_irrefl _ h3
      exact h1.subset ht
    refine ⟨List.pairwise_cons.2 ⟨fun y hy => ?_, ih1⟩, fun y hy => ?_⟩
    · obtain ⟨t, ht, e⟩ := ih2 y hy
      have ho := hr.ordered
      rw [hrest] at ho
      have h1 := (List.pairwise_cons.1 ho).1 t (hsuff t ht)
      have h2 := (hr.current_wf (hR.notEof h')).nonempty
      rw [hx hr h', e]
      omega
    · rcases List.mem_cons.1 hy with rfl | hy
      · exact ⟨r.current, by rw [hrest]; exact List.mem_cons_self, hx hr h'⟩
      · obtain ⟨t, ht, e⟩ := ih2 y hy
        exact ⟨t, by rw [hrest]; exact List.mem_cons_of_mem _ (hsuff t ht), e⟩

end InTurn

/-! ## Repetitions -/

section Loop

variable {round : σ → Rule (Round σ)} [∀ x, Honest (round x)] (view : σ → τ) (push : τ → α → τ)
  (stops : Reader → Prop) (hR : Steps R)
include hR

/-- A repetition whose rounds add one item each, and whose last round adds none, reads items in turn.
Of its state, `view` is what the items make. -/
theorem InTurn.of_loop
    (hagain : ∀ {x r y m}, (round x).Reads r (.again y) m →
      ∃ a n, R r a n ∧ view y = push (view x) a ∧ m = n.advance)
    (hstop : ∀ {x r y m}, (round x).Reads r (.stop y) m → stops r ∧ y = x ∧ m = r)
    {x y : σ} (hr : r.WF) (h : (loop round x).Reads r y s) :
    ∃ xs, InTurn R r xs s ∧ stops s ∧ view y = xs.foldl push (view x) := by
  refine Reads.of_loop h hr.budget
    (P := fun z m => m.WF ∧ ∃ xs, InTurn R r xs m ∧ view z = xs.foldl push (view x))
    (Q := fun z m => ∃ xs, InTurn R r xs m ∧ stops m ∧ view z = xs.foldl push (view x))
    ⟨hr, [], .nil, rfl⟩ ?_ ?_
  · rintro z m w n ⟨hm, xs, hxs, hz⟩ h
    obtain ⟨a, q, ha, hw, rfl⟩ := hagain h
    refine ⟨⟨hR.wf hm ha, xs ++ [a], hxs.concat ha, ?_⟩, hR.length_lt hm ha⟩
    rw [hw, hz, List.foldl_append, List.foldl_cons, List.foldl_nil]
  · rintro z m w n ⟨hm, xs, hxs, hz⟩ h
    obtain ⟨hst, rfl, rfl⟩ := hstop h
    exact ⟨xs, hxs, hst, hz⟩

/-- Items in turn up to a place where it stops are read by such a repetition. -/
theorem InTurn.reads_loop
    (hagain : ∀ x {r a n}, R r a n → ∃ y, (round x).Reads r (.again y) n.advance ∧ view y = push (view x) a)
    (hstop : ∀ x {r}, stops r → (round x).Reads r (.stop x) r) (hst : stops s) (x : σ) (h : InTurn R r xs s)
    (hr : r.WF) : ∃ y, (loop round x).Reads r y s ∧ view y = xs.foldl push (view x) := by
  have key : ∃ y, Loops round x r y s ∧ view y = xs.foldl push (view x) := by
    induction h generalizing x with
    | nil => exact ⟨x, .stop (hstop x hst), rfl⟩
    | cons h' _ ih =>
      obtain ⟨y, hy, hv⟩ := hagain x h'
      obtain ⟨z, hz, hw⟩ := ih hst y (hR.wf hr h')
      exact ⟨z, .again hy (hR.length_lt hr h') hz, by rw [hw, hv, List.foldl_cons]⟩
  obtain ⟨y, hy, hv⟩ := key
  exact ⟨y, hy.reads hr.budget, hv⟩

omit [∀ x, Honest (round x)] in
/-- Items in turn are rounds of a repetition, whatever comes behind them, if they keep what its state
must have for them to be read. -/
theorem InTurn.loops (add : σ → α → σ) {I : σ → Prop} (hI : ∀ {x a}, I x → I (add x a))
    (hagain : ∀ {x r a n}, r.WF → I x → R r a n → (round x).Reads r (.again (add x a)) n.advance) {x z : σ}
    (h : InTurn R r xs m) (hr : r.WF) (hx : I x) (k : I (xs.foldl add x) → Loops round (xs.foldl add x) m z s) :
    Loops round x r z s := by
  induction h generalizing x with
  | nil => exact k hx
  | cons h' _ ih => exact .again (hagain hr hx h') (hR.length_lt hr h') (ih (hR.wf hr h') (hI hx) k)

end Loop

end SemFront.Rule
