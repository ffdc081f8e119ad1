/-
Crews in every order of their moves. A move takes one task one phase on and leaves the others as they
are, so what is known of a task in each phase stays known: only a task that failed by itself can be the
first to hand in an error, since the crew is called off after an error was kept. So no order changes what
is given out: all results in their places, or an error of a task that fails by itself. Every order comes
to an end, and until then some move is possible.
-/
import Mathlib.Algebra.Ring.Nat
import SemFront.Parsed.Basic

namespace SemFront

/-- The most moves that a task takes from a phase on. -/
def Phase.movesLeft : Phase ε α → Nat
  | .waiting => Crew.movesPerTask
  | .started => 5
  | .working => 4
  | .failed _ => 3
  | .finished _ | .kept => 2
  | .leaving => 1
  | .done => 0

namespace Crew

variable {job : β → Except ε α} {xs : List β} {workers : Nat} {c c' : Crew ε α}

/-! ## What a move does -/

/-- Task `i` has come to phase `q`, and other tasks are as they were: their phases and results, an error that
was kept, and that the crew was called off. -/
structure Turn (c c' : Crew ε α) (i : Nat) (q : Phase ε α) : Prop where
  phases : c'.phases = c.phases.set i q
  length : c'.results.length = c.results.length
  results : ∀ j, j ≠ i → c'.results[j]? = c.results[j]?
  error : c.error.isSome = true → c'.error = c.error
  calledOff : c.calledOff = true → c'.calledOff = true
  outcome : c'.outcome = c.outcome

/-- What is known of a task by its phase. One that leaves has its result in place, or an error was kept. -/
def Fits (result : Except ε α) (c : Crew ε α) (i : Nat) : Phase ε α → Prop
  | .waiting | .started | .working => True
  | .finished a => result = .ok a
  | .failed .calledOff => c.calledOff = true
  | .failed (.own e) => result = .error e
  | .kept => c.error.isSome = true
  | .leaving | .done => c.error.isSome = true ∨ ∃ a, result = .ok a ∧ c.results[i]? = some (some a)

theorem Turn.put (c : Crew ε α) (i : Nat) (q : Phase ε α) : Turn c (c.put i q) i q :=
  ⟨rfl, rfl, fun _ _ => rfl, fun _ => rfl, id, rfl⟩

/-- What is known of the other tasks stays known. -/
theorem Fits.turn {result : Except ε α} {i j : Nat} {p q : Phase ε α} (h : c.Fits result j p) (ht : Turn c c' i q)
    (hj : j ≠ i) : c'.Fits result j p := by
  have herror : c.error.isSome = true → c'.error.isSome = true := fun h => (ht.error h).symm ▸ h
  have hleft : (c.error.isSome = true ∨ ∃ a, result = .ok a ∧ c.results[j]? = some (some a)) →
      c'.error.isSome = true ∨ ∃ a, result = .ok a ∧ c'.results[j]? = some (some a) := by
    rw [ht.results j hj]
    exact Or.imp_left herror
  cases p with
  | waiting | started | working => trivial
  | finished a => exact h
  | failed e =>
    cases e with
    | calledOff => exact ht.calledOff h
    | own e => exact h
  | kept => exact herror h
  | leaving | done => exact hleft h

/-- An error is kept of a task that failed by itself, and the crew is called off only after that. -/
structure Honest (P : TaskError ε → Prop) (c : Crew ε α) : Prop where
  error : ∀ e, c.error = some e → P e
  calledOff : c.calledOff = true → c.error.isSome = true

/-- A task goes one phase on, and what its new phase says of it is so. -/
theorem goOn_turn {result : Except ε α} {P : TaskError ε → Prop} {i : Nat} {p : Phase ε α}
    (h : c.goOn result i p = some c') (hc : c.Honest P) (hp : c.Fits result i p) (hi : i < c.results.length)
    (hP : ∀ e, result = .error e → P (.own e)) :
    ∃ q, Turn c c' i q ∧ c'.Fits result i q ∧ c'.Honest P ∧ q.movesLeft < p.movesLeft := by
  cases p with
  | waiting | done => simp [goOn] at h
  | started =>
    obtain rfl := Option.some.inj h
    refine ⟨_, .put c i _, ?_, ⟨hc.error, hc.calledOff⟩, ?_⟩
    · split
      · assumption
      · trivial
    · split <;> simp [Phase.movesLeft]
  | working =>
    obtain rfl := Option.some.inj h
    refine ⟨_, .put c i _, ?_, ⟨hc.error, hc.calledOff⟩, ?_⟩
    · cases result <;> rfl
    · cases result <;> simp [Phase.movesLeft]
  | finished a =>
    obtain rfl := Option.some.inj h
    refine ⟨.leaving, ⟨rfl, by simp, fun j hj => ?_, fun _ => rfl, id, rfl⟩, .inr ⟨a, hp, ?_⟩,
      ⟨hc.error, hc.calledOff⟩, by simp [Phase.movesLeft]⟩
    · exact List.getElem?_set_ne hj.symm
    · exact List.getElem?_set_self hi
  | failed e =>
    simp only [goOn] at h
    split at h
    · rename_i hsome
      obtain rfl := Option.some.inj h
      exact ⟨.leaving, .put c i _, .inl hsome, ⟨hc.error, hc.calledOff⟩, by simp [Phase.movesLeft]⟩
    · rename_i hnone
      obtain rfl := Option.some.inj h
      refine ⟨.kept, ⟨rfl, rfl, fun _ _ => rfl, fun hsome => absurd hsome hnone, id, rfl⟩, rfl, ⟨?_, fun _ => rfl⟩,
        by simp [Phase.movesLeft]⟩
      -- a task that was called off comes after an error that was kept
      cases e with
      | calledOff => exact absurd (hc.calledOff hp) hnone
      | own e =>
        intro e' he'
        obtain rfl := Option.some.inj he'
        exact hP e hp
  | kept =>
    obtain rfl := Option.some.inj h
    exact ⟨.leaving, ⟨rfl, rfl, fun _ _ => rfl, fun _ => rfl, fun _ => rfl, rfl⟩, .inl hp,
      ⟨hc.error, fun _ => hp⟩, by simp [Phase.movesLeft]⟩
  | leaving =>
    obtain rfl := Option.some.inj h
    exact ⟨.done, .put c i _, hp, ⟨hc.error, hc.calledOff⟩, by simp [Phase.movesLeft]⟩

theorem Phase.eq_done {p : Phase ε α} (h : p.isDone = true) : p = .done := by
  cases p <;> first | rfl | cases h

theorem Phase.eq_waiting {p : Phase ε α} (h : p.isWaiting = true) : p = .waiting := by
  cases p <;> first | rfl | cases h

/-- What a move does: it starts a task that waits, takes a task on, or gives out what there is when all tasks
are done. -/
theorem step_cases {m : CrewMove} (h : c.step workers job xs m = some c') :
    (∃ i : Nat, c.phases[i]? = some .waiting ∧ c' = c.put i .started) ∨
    (∃ (i : Nat) (x : β) (p : Phase ε α), xs[i]? = some x ∧ c.phases[i]? = some p ∧ c.goOn (job x) i p = some c') ∨
    (c.outcome = none ∧ (∀ p ∈ c.phases, p = .done) ∧ c' = { c with outcome := some c.answer }) := by
  cases m with
  | start =>
    simp only [step] at h
    split at h
    · obtain ⟨i, hi, rfl⟩ := Option.map_eq_some_iff.1 h
      obtain ⟨hlt, hw, -⟩ := List.findIdx?_eq_some_iff_getElem.1 hi
      exact .inl ⟨i, by rw [List.getElem?_eq_getElem hlt, Phase.eq_waiting hw], rfl⟩
    · cases h
  | task i =>
    simp only [step] at h
    split at h
    · rename_i x p hx hp
      exact .inr (.inl ⟨i, x, p, hx, hp, h⟩)
    · cases h
  | giveOut =>
    simp only [step] at h
    split at h
    · rename_i hall
      obtain ⟨hnone, hdone⟩ := Bool.and_eq_true_iff.1 hall
      refine .inr (.inr ⟨Option.isNone_iff_eq_none.1 hnone, fun p hp => ?_, (Option.some.inj h).symm⟩)
      exact Phase.eq_done (List.all_eq_true.1 hdone p hp)
    · cases h

/-! ## What holds in every order -/

/-- The error of a task that fails by itself. -/
def Genuine (job : β → Except ε α) (xs : List β) (e : TaskError ε) : Prop :=
  ∃ x ∈ xs, ∃ e', job x = .error e' ∧ e = .own e'

/-- A crew in which every task fits its phase, and which gave out what there was when all tasks were done. -/
structure Sound (job : β → Except ε α) (xs : List β) (c : Crew ε α) : Prop where
  phases : c.phases.length = xs.length
  results : c.results.length = xs.length
  fits : ∀ (i : Nat) (x : β) (p : Phase ε α), xs[i]? = some x → c.phases[i]? = some p → c.Fits (job x) i p
  honest : c.Honest (Genuine job xs)
  outcome : ∀ r, c.outcome = some r → (∀ p ∈ c.phases, p = .done) ∧ r = c.answer

/-- The most moves that a crew has left. -/
def movesLeft (c : Crew ε α) : Nat := (c.phases.map Phase.movesLeft).sum + if c.outcome.isNone then 1 else 0

theorem sound_ofTasks (job : β → Except ε α) (xs : List β) : Sound job xs (ofTasks xs.length) where
  phases := List.length_replicate
  results := List.length_replicate
  fits i x p _ hp := by
    obtain rfl := (List.mem_replicate.1 (List.mem_of_getElem? hp)).2
    trivial
  honest := ⟨fun _ he => (by cases he), fun h => (by cases h)⟩
  outcome r hr := by cases hr

theorem movesLeft_ofTasks (n : Nat) : (ofTasks n : Crew ε α).movesLeft = movesPerTask * n + 1 := by
  simp [movesLeft, ofTasks, Phase.movesLeft, Nat.mul_comm]

theorem sum_map_set_lt {f : γ → Nat} {ys : List γ} {i : Nat} {p q : γ} (hp : ys[i]? = some p) (hlt : f q < f p) :
    ((ys.set i q).map f).sum < (ys.map f).sum := by
  induction ys generalizing i with
  | nil => cases hp
  | cons y ys ih =>
    cases i with
    | zero =>
      obtain rfl := Option.some.inj hp
      simpa using hlt
    | succ i =>
      rw [List.getElem?_cons_succ] at hp
      simpa using ih hp

/-- A task that goes on keeps the crew sound. -/
theorem Sound.turn (hc : c.Sound job xs) {i : Nat} {x : β} {p q : Phase ε α} (hx : xs[i]? = some x)
    (hp : c.phases[i]? = some p) (ht : Turn c c' i q) (hq : c'.Fits (job x) i q)
    (hh : c'.Honest (Genuine job xs)) (hlt : q.movesLeft < p.movesLeft) :
    c'.Sound job xs ∧ c'.movesLeft < c.movesLeft := by
  have hnone : c.outcome = none := by
    rw [Option.eq_none_iff_forall_ne_some]
    intro r hr
    obtain rfl := (hc.outcome r hr).1 p (List.mem_of_getElem? hp)
    exact Nat.not_lt_zero _ hlt
  refine ⟨⟨?_, ht.length.trans hc.results, ?_, hh, ?_⟩, ?_⟩
  · rw [ht.phases, List.length_set]
    exact hc.phases
  · intro j y r hy hr
    by_cases hj : j = i
    · subst hj
      rw [ht.phases, List.getElem?_set_self (List.getElem?_eq_some_iff.1 hp).1] at hr
      obtain rfl := Option.some.inj hr
      obtain rfl := Option.some.inj (hx.symm.trans hy)
      exact hq
    · rw [ht.phases, List.getElem?_set_ne (Ne.symm hj)] at hr
      exact (hc.fits j y r hy hr).turn ht hj
  · intro r hr
    rw [ht.outcome, hnone] at hr
    cases hr
  · unfold movesLeft
    rw [ht.outcome, ht.phases]
    exact Nat.add_lt_add_right (sum_map_set_lt hp hlt) _

theorem Sound.step (hc : c.Sound job xs) {m : CrewMove} (h : c.step workers job xs m = some c') :
    c'.Sound job xs ∧ c'.movesLeft < c.movesLeft := by
  rcases step_cases h with ⟨i, hi, rfl⟩ | ⟨i, x, p, hx, hp, hgo⟩ | ⟨hnone, hdone, rfl⟩
  · have hlt : i < xs.length := hc.phases ▸ (List.getElem?_eq_some_iff.1 hi).1
    exact hc.turn (List.getElem?_eq_getElem hlt) hi (.put c i _) trivial ⟨hc.honest.error, hc.honest.calledOff⟩
      (by simp [Phase.movesLeft, movesPerTask])
  · have hlt : i < c.results.length := hc.results ▸ (List.getElem?_eq_some_iff.1 hx).1
    have hgenuine : ∀ e, job x = .error e → Genuine job xs (.own e) := fun e he =>
      ⟨x, List.mem_of_getElem? hx, e, he, rfl⟩
    obtain ⟨q, ht, hq, hh, hlt⟩ := goOn_turn hgo hc.honest (hc.fits i x p hx hp) hlt hgenuine
    exact hc.turn hx hp ht hq hh hlt
  · refine ⟨⟨hc.phases, hc.results, hc.fits, ⟨hc.honest.error, hc.honest.calledOff⟩, ?_⟩, ?_⟩
    · rintro r hr
      exact ⟨hdone, (Option.some.inj hr).symm⟩
    · simp [movesLeft, hnone]

/-- Moves in any order keep a crew sound, and there are no more of them than were left. -/
theorem Sound.run (hc : c.Sound job xs) {ms : List CrewMove} (h : c.run workers job xs ms = some c') :
    c'.Sound job xs ∧ ms.length + c'.movesLeft ≤ c.movesLeft := by
  induction ms generalizing c with
  | nil =>
    obtain rfl := Option.some.inj h
    exact ⟨hc, by simp⟩
  | cons m ms ih =>
    obtain ⟨d, hd, hrest⟩ := Option.bind_eq_some_iff.1 h
    obtain ⟨hsound, hlt⟩ := hc.step hd
    obtain ⟨hsound, hle⟩ := ih hsound hrest
    refine ⟨hsound, ?_⟩
    rw [List.length_cons]
    omega

theorem goOn_isSome {result : Except ε α} {i : Nat} {p : Phase ε α} (h : p.isBusy = true) :
    (c.goOn result i p).isSome = true := by
  cases p with
  | waiting | done => cases h
  | failed e =>
    simp only [goOn]
    split <;> rfl
  | started | working | finished | kept | leaving => rfl

/-- Until all is given out, the next move in order is possible. -/
theorem Sound.step_nextMove (hc : c.Sound job xs) (h : c.outcome = none) (workers : Nat) :
    (c.step workers job xs c.nextMove).isSome = true := by
  unfold nextMove
  cases hbusy : c.phases.findIdx? (·.isBusy) with
  | some i =>
    obtain ⟨hlt, hp, -⟩ := List.findIdx?_eq_some_iff_getElem.1 hbusy
    have hx : i < xs.length := hc.phases ▸ hlt
    simp only [Crew.step, List.getElem?_eq_getElem hlt, List.getElem?_eq_getElem hx]
    exact goOn_isSome hp
  | none =>
    have hidle : ∀ p ∈ c.phases, p.isBusy = false := List.findIdx?_eq_none_iff.1 hbusy
    dsimp only
    split
    · rename_i hany
      have hzero : c.busy = 0 := List.countP_eq_zero.2 fun p hp => by simp [hidle p hp]
      have hfree : c.busy < max 1 workers := by omega
      simp only [Crew.step, if_pos hfree, Option.isSome_map]
      rwa [List.findIdx?_isSome]
    · rename_i hany
      have hdone : c.phases.all (·.isDone) = true := by
        rw [List.all_eq_true]
        intro p hp
        have hwaiting : p.isWaiting = false := by
          simpa using fun hw => hany (List.any_eq_true.2 ⟨p, hp, hw⟩)
        simpa [Phase.isBusy, hwaiting] using hidle p hp
      simp only [Crew.step, h, hdone]
      rfl

/-! ## What is given out -/

/-- When all tasks are done, an error was kept or all results are in their places. -/
theorem Sound.of_done (hc : c.Sound job xs) (hdone : ∀ p ∈ c.phases, p = .done) {i : Nat} {x : β}
    (hx : xs[i]? = some x) : c.error.isSome = true ∨ ∃ a, job x = .ok a ∧ c.results[i]? = some (some a) := by
  have hlt : i < c.phases.length := hc.phases ▸ (List.getElem?_eq_some_iff.1 hx).1
  have hp := hc.fits i x _ hx (List.getElem?_eq_getElem hlt)
  rwa [hdone _ (List.getElem_mem hlt)] at hp

/-- If no task fails by itself, all results are given out, each in its place. -/
theorem Sound.outcome_ok (hc : c.Sound job xs) {r : Except (TaskError ε) (List (Option α))} (hr : c.outcome = some r)
    {as : List α} (has : xs.map job = as.map .ok) : r = .ok (as.map some) := by
  obtain ⟨hdone, rfl⟩ := hc.outcome r hr
  have hjob : ∀ (i : Nat) (x : β), xs[i]? = some x → ∃ a, job x = .ok a ∧ as[i]? = some a := by
    intro i x hx
    have hi := congrArg (·[i]?) has
    simp only [List.getElem?_map, hx, Option.map_some] at hi
    obtain ⟨a, ha, hja⟩ := Option.map_eq_some_iff.1 hi.symm
    exact ⟨a, hja.symm, ha⟩
  have hnone : c.error = none := by
    rw [Option.eq_none_iff_forall_ne_some]
    intro e he
    obtain ⟨x, hx, e', he', -⟩ := hc.honest.error e he
    obtain ⟨i, hi⟩ := List.getElem?_of_mem hx
    obtain ⟨a, ha, -⟩ := hjob i x hi
    cases ha.symm.trans he'
  unfold answer
  rw [hnone]
  refine congrArg Except.ok (List.ext_getElem? fun i => ?_)
  rw [List.getElem?_map]
  cases hx : xs[i]? with
  | some x =>
    obtain ⟨a, ha, hasi⟩ := hjob i x hx
    rcases hc.of_done hdone hx with herror | ⟨b, hb, hresult⟩
    · rw [hnone] at herror
      cases herror
    · rw [hresult, hasi]
      cases ha.symm.trans hb
      rfl
  | none =>
    have hlen : as.length = xs.length := by simpa using (congrArg List.length has).symm
    have hge := List.getElem?_eq_none_iff.1 hx
    rw [List.getElem?_eq_none (hc.results.symm ▸ hge), List.getElem?_eq_none (hlen.symm ▸ hge)]
    rfl

/-- If some task fails by itself, such an error is given out. -/
theorem Sound.outcome_error (hc : c.Sound job xs) {r : Except (TaskError ε) (List (Option α))}
    (hr : c.outcome = some r) {x : β} {e : ε} (hx : x ∈ xs) (he : job x = .error e) :
    ∃ y ∈ xs, ∃ e', job y = .error e' ∧ r = .error (.own e') := by
  obtain ⟨hdone, rfl⟩ := hc.outcome r hr
  obtain ⟨i, hi⟩ := List.getElem?_of_mem hx
  rcases hc.of_done hdone hi with herror | ⟨a, ha, -⟩
  · obtain ⟨kept, hkept⟩ := Option.isSome_iff_exists.1 herror
    obtain ⟨y, hy, e', he', rfl⟩ := hc.honest.error kept hkept
    refine ⟨y, hy, e', he', ?_⟩
    unfold answer
    rw [hkept]
  · cases ha.symm.trans he

/-! ## Working in order -/

/-- Working in order is one of the orders, and it ends only when all is given out or no move is left to do. -/
theorem Sound.goOnInOrder_run (hc : c.Sound job xs) (workers n : Nat) : ∃ ms : List CrewMove,
    c.run workers job xs ms = some (goOnInOrder workers job xs n c) ∧
      ((goOnInOrder workers job xs n c).outcome = none → ms.length = n) := by
  induction n generalizing c with
  | zero => exact ⟨[], rfl, fun _ => rfl⟩
  | succ n ih =>
    unfold goOnInOrder
    cases hstep : c.step workers job xs c.nextMove with
    | none =>
      refine ⟨[], rfl, fun hnone => ?_⟩
      have hsome := hc.step_nextMove hnone workers
      rw [hstep] at hsome
      cases hsome
    | some d =>
      obtain ⟨ms, hms, hlen⟩ := ih (hc.step hstep).1
      refine ⟨c.nextMove :: ms, ?_, fun hnone => ?_⟩
      · exact Option.bind_eq_some_iff.2 ⟨d, hstep, hms⟩
      · rw [List.length_cons, hlen hnone]

/-- Working in order comes to an end. -/
theorem goOnInOrder_outcome (workers : Nat) (job : β → Except ε α) (xs : List β) : ∃ c : Crew ε α, ∃ r,
    goOnInOrder workers job xs (movesPerTask * xs.length + 1) (ofTasks xs.length) = c ∧ c.Sound job xs ∧
      c.outcome = some r := by
  obtain ⟨ms, hms, hlen⟩ := (sound_ofTasks job xs).goOnInOrder_run workers (movesPerTask * xs.length + 1)
  obtain ⟨hsound, hle⟩ := (sound_ofTasks job xs).run hms
  generalize goOnInOrder workers job xs (movesPerTask * xs.length + 1) (ofTasks xs.length) = c at hlen hsound hle ⊢
  cases hr : c.outcome with
  | some r => exact ⟨c, r, rfl, hsound, hr⟩
  | none =>
    -- the move that gives out what there is would be left
    have hleft : 0 < c.movesLeft := by simp [movesLeft, hr]
    rw [movesLeft_ofTasks, hlen hr] at hle
    omega

theorem workInOrder_ok {as : List α} (workers : Nat) (has : xs.map job = as.map .ok) :
    workInOrder workers job xs = .ok as := by
  obtain ⟨c, r, hc, hsound, hr⟩ := goOnInOrder_outcome workers job xs
  unfold workInOrder
  rw [hc, hr, hsound.outcome_ok hr has]
  simp

theorem workInOrder_error {x : β} {e : ε} (workers : Nat) (hx : x ∈ xs) (he : job x = .error e) :
    ∃ y ∈ xs, ∃ e', job y = .error e' ∧ workInOrder workers job xs = .error (.own e') := by
  obtain ⟨c, r, hc, hsound, hr⟩ := goOnInOrder_outcome workers job xs
  obtain ⟨y, hy, e', he', rfl⟩ := hsound.outcome_error hr hx he
  refine ⟨y, hy, e', he', ?_⟩
  unfold workInOrder
  rw [hc, hr]

end Crew

/-! ## Parsing files -/

/-- A list is worked through without an error if each of its elements is. -/
theorem mapM_eq_ok {f : β → Except ε α} {xs : List β} {ys : List α} :
    xs.mapM f = .ok ys ↔ xs.map f = ys.map .ok := by
  induction xs generalizing ys with
  | nil => cases ys <;> simp [pure, Except.pure]
  | cons x xs ih =>
    rw [List.mapM_cons]
    cases hx : f x with
    | error e => cases ys <;> simp [hx, bind, Except.bind]
    | ok a =>
      cases hxs : xs.mapM f with
      | error e =>
        cases ys with
        | nil => simp [bind, Except.bind]
        | cons y ys => simp [hx, ← ih, hxs, bind, Except.bind]
      | ok as =>
        cases ys with
        | nil => simp [bind, Except.bind, pure, Except.pure]
        | cons y ys => simp [hx, ← ih, hxs, bind, Except.bind, pure, Except.pure]

theorem exists_map_eq_ok {f : β → Except ε α} {xs : List β} (h : ∀ x ∈ xs, ∃ a, f x = .ok a) :
    ∃ as : List α, xs.map f = as.map .ok := by
  induction xs with
  | nil => exact ⟨[], rfl⟩
  | cons x xs ih =>
    obtain ⟨a, ha⟩ := h x List.mem_cons_self
    obtain ⟨as, has⟩ := ih fun y hy => h y (List.mem_cons_of_mem _ hy)
    exact ⟨a :: as, by rw [List.map_cons, ha, has, List.map_cons]⟩

namespace Parsed

variable {o : ParseOptions} {d : Disk} {paths : List String}

theorem ofFile_ok {path text : String} (h : d.read path = .ok text) : ofFile o d path = .ok (ofText o path text) := by
  unfold ofFile
  rw [h]
  rfl

theorem ofFile_error {path : String} {e : FileError} : ofFile o d path = .error e ↔ d.read path = .error e := by
  unfold ofFile
  cases d.read path <;> simp [Except.map]

/-- A crew parses files as one after the other are parsed. -/
theorem ofFilesBy_ok {ps : List Parsed} (workers : Nat) (h : ofFiles o d paths = .ok ps) :
    ofFilesBy workers o d paths = .ok ps :=
  Crew.workInOrder_ok workers (mapM_eq_ok.1 h)

theorem ofFilesBy_error {path : String} {e : FileError} (workers : Nat) (hpath : path ∈ paths)
    (he : d.read path = .error e) :
    ∃ path' ∈ paths, ∃ e', d.read path' = .error e' ∧ ofFilesBy workers o d paths = .error (.own e') := by
  obtain ⟨path', hpath', e', he', hwork⟩ := Crew.workInOrder_error workers hpath (ofFile_error.2 he)
  exact ⟨path', hpath', e', ofFile_error.1 he', hwork⟩

/-- Whatever the paths, the number of workers and the order of the moves: the moves come to an end, until all is
given out some move is possible, and then what is given out are the parsed files in the order of the paths, or,
if some file cannot be read, the error of reading such a file. -/
theorem ofFiles_any_order {workers : Nat} {ms : List CrewMove} {c : Crew FileError Parsed}
    (h : Crew.run workers (ofFile o d) paths (.ofTasks paths.length) ms = some c) :
    ms.length ≤ 6 * paths.length + 1 ∧
    (c.outcome = none → ∃ m, (c.step workers (ofFile o d) paths m).isSome = true) ∧
    ∀ r, c.outcome = some r →
      ((∀ path ∈ paths, ∃ text, d.read path = .ok text) →
        ∃ ps : List Parsed, r = .ok (ps.map some) ∧ ofFiles o d paths = .ok ps ∧ ps.length = paths.length ∧
          ∀ (i : Nat) (path text : String), paths[i]? = some path → d.read path = .ok text →
            ps[i]? = some (ofText o path text)) ∧
      ((∃ path ∈ paths, ∃ e, d.read path = .error e) →
        ∃ path ∈ paths, ∃ e, d.read path = .error e ∧ r = .error (.own e)) := by
  obtain ⟨hsound, hle⟩ := (Crew.sound_ofTasks (ofFile o d) paths).run h
  rw [Crew.movesLeft_ofTasks] at hle
  refine ⟨Nat.le_trans (Nat.le_add_right _ _) hle, fun hnone => ⟨_, hsound.step_nextMove hnone workers⟩, ?_⟩
  refine fun r hr => ⟨fun hread => ?_, ?_⟩
  · have hok : ∀ path ∈ paths, ∃ p, ofFile o d path = .ok p := by
      intro path hpath
      obtain ⟨text, htext⟩ := hread path hpath
      exact ⟨_, ofFile_ok htext⟩
    obtain ⟨ps, hps⟩ := exists_map_eq_ok hok
    refine ⟨ps, hsound.outcome_ok hr hps, mapM_eq_ok.2 hps, ?_, fun i path text hpath htext => ?_⟩
    · simpa using (congrArg List.length hps).symm
    · have hi := congrArg (·[i]?) hps
      simp only [List.getElem?_map, hpath, Option.map_some, ofFile_ok htext] at hi
      obtain ⟨p, hp, hpt⟩ := Option.map_eq_some_iff.1 hi.symm
      rw [hp, Except.ok.inj hpt]
  · rintro ⟨path, hpath, e, he⟩
    obtain ⟨path', hpath', e', he', hout⟩ := hsound.outcome_error hr hpath (ofFile_error.2 he)
    exact ⟨path', hpath', e', ofFile_error.1 he', hout⟩

/-- A disk on which all files are empty and one is missing. -/
def oneMissing : Disk := ⟨fun path => if path = "b.sem" then .error .missing else .ok (.file "")⟩

def threePaths : List String := ["a.sem", "b.sem", "c.sem"]

/-- The second file is found missing while the first one is parsed; the third task is started after the crew was
called off, and is done before the first. -/
def overtaking : List CrewMove :=
  [.start, .start, .task 1, .task 1, .task 0, .task 1, .task 0, .task 1, .task 1, .start, .task 2, .task 2, .task 2,
    .task 0, .task 0, .giveOut]

theorem ofFiles_any_order_overtaking : ∃ (c : Crew FileError Parsed) (r : Except (TaskError FileError) _),
    Crew.run 2 (ofFile {} oneMissing) threePaths (.ofTasks threePaths.length) overtaking = some c ∧
    c.calledOff = true ∧ c.outcome = some r ∧
    ∃ path ∈ threePaths, ∃ e, oneMissing.read path = .error e ∧ r = .error (.own e) := by
  have hran : ((Crew.run 2 (ofFile {} oneMissing) threePaths (.ofTasks threePaths.length) overtaking).any
      fun c => c.calledOff && c.outcome.isSome) = true := by decide +kernel
  obtain ⟨c, hc⟩ : ∃ c, Crew.run 2 (ofFile {} oneMissing) threePaths (.ofTasks threePaths.length) overtaking = some c :=
    Option.isSome_iff_exists.1 (Option.isSome_of_any hran)
  rw [hc, Option.any_some, Bool.and_eq_true] at hran
  obtain ⟨r, hr⟩ := Option.isSome_iff_exists.1 hran.2
  refine ⟨c, r, hc, hran.1, hr, ((ofFiles_any_order hc).2.2 r hr).2 ⟨"b.sem", by simp [threePaths], ?_⟩⟩
  exact ⟨⟨.opening, "b.sem", .missing⟩, rfl⟩

end Parsed
end SemFront
