/-
Rules place what they read. From a reader whose tokens cover a text in order, a rule that reads a node
from one token to another gives it the span from the start of the first to the end of the second, and
lays out its parts between them. Here for the general rules, for names and for IRIs.
-/
import SemFront.Proofs.Grammar.Progress
import SemFront.Proofs.Grammar.Reading
import SemFront.Proofs.Placement.Outline

namespace SemFront

variable {cs : List Char} {r m s : Reader}

/-! ## Readers of a text -/

/-- Where the current token starts. -/
def Reader.start (r : Reader) : Int := r.current.span.start

/-- Where the current token stops. -/
def Reader.stop (r : Reader) : Int := r.current.span.stop

/-- The span from the current token of one reader to that of another. -/
def Reader.spanTo (r s : Reader) : Span := r.current.span.upTo s.current.span

/-- A reader whose tokens cover a text, the end standing behind all of it. -/
structure Reader.Placed (cs : List Char) (r : Reader) : Prop where
  wf : r.WF
  covers : ∀ t ∈ r.rest, ∃ i j, t.Covers cs i j
  eof : ∃ j, r.eof.Covers cs cs.length j

namespace Reader

theorem Leads.of_advance (h : r.advance.Leads s) : r.Leads s := (advance r).trans h

theorem Leads.placed (h : r.Leads s) (hr : r.Placed cs) : s.Placed cs where
  wf := h.wf hr.wf
  covers t ht := hr.covers t (h.rest.mem ht)
  eof := by
    rw [h.eof]
    exact hr.eof

theorem ofSource_placed (file source : String) (limit : Nat) : (ofSource file source limit).Placed source.toList := by
  obtain ⟨ts, e, ht, he, hwf, hord⟩ := tokenize_ordered file source
  have hek : e.kind = .eof := congrArg Lexeme.kind he
  have hr := ofSource_wf file source limit
  have hcovers : ∀ t ∈ ts ++ [e], ∃ i j, t.Covers source.toList i j ∧ (t.kind = .eof → i = source.toList.length) :=
    fun t h => tokenize_covers (ht ▸ h)
  unfold ofSource at hr ⊢
  rw [ht, ofTokens_eq limit hek hwf] at hr ⊢
  refine ⟨hr, fun t h => ?_, ?_⟩
  · obtain ⟨i, j, hc, -⟩ := hcovers t (List.mem_append_left _ (List.mem_filter.1 h).1)
    exact ⟨i, j, hc⟩
  · obtain ⟨i, j, hc, hi⟩ := hcovers e (List.mem_append_right _ (List.mem_singleton_self e))
    obtain rfl := hi hek
    exact ⟨j, hc⟩

namespace Placed

theorem advance (hr : r.Placed cs) : r.advance.Placed cs := (Leads.advance r).placed hr

theorem current (hr : r.Placed cs) : ∃ i j, r.current.Covers cs i j := by
  obtain ⟨j, heof⟩ := hr.eof
  have hcovers := hr.covers
  unfold Reader.current
  cases hrest : r.rest with
  | nil => exact ⟨_, j, heof⟩
  | cons t ts => exact hcovers t (hrest ▸ List.mem_cons_self)

theorem liesIn (hr : r.Placed cs) : r.current.span.LiesIn cs := by
  obtain ⟨i, j, h⟩ := hr.current
  exact h.liesIn

theorem start_le (hr : r.Placed cs) : r.start ≤ r.stop := hr.liesIn.start_le

/-- The tokens in front of a reader stop before its current one starts. -/
theorem stop_le_of_mem (hr : r.Placed cs) (h : r.Leads s) {ts : List Token} (hts : r.rest = ts ++ s.rest) {t : Token}
    (ht : t ∈ ts) : t.span.stop ≤ s.start := by
  have hord := hr.wf.ordered
  unfold start Reader.current
  cases hrest : s.rest with
  | nil =>
    obtain ⟨i, j, hc⟩ := hr.covers t (hts ▸ List.mem_append_left _ ht)
    obtain ⟨k, heof⟩ := hr.eof
    rw [List.headD_nil, h.eof, hc.stop, heof.start]
    exact Int.ofNat_le.2 hc.le_length
  | cons u us =>
    rw [hts, hrest] at hord
    exact (List.pairwise_append.1 hord).2.2 t ht u List.mem_cons_self

/-- A token that was passed stops before the current one starts. -/
theorem stop_le (hr : r.Placed cs) (h : r.Leads s) (hlt : s.rest.length < r.rest.length) : r.stop ≤ s.start := by
  obtain ⟨ts, hts⟩ := h.rest
  refine hr.stop_le_of_mem h hts.symm ?_
  cases ts with
  | nil =>
    rw [← hts] at hlt
    exact absurd hlt (Nat.lt_irrefl _)
  | cons t ts =>
    unfold Reader.current
    rw [← hts]
    exact List.mem_cons_self

theorem start_mono (hr : r.Placed cs) (h : r.Leads s) : r.start ≤ s.start := by
  by_cases hlt : s.rest.length < r.rest.length
  · exact Int.le_trans hr.start_le (hr.stop_le h hlt)
  · unfold start
    rw [h.current_of_length (Nat.le_of_not_lt hlt)]

theorem stop_mono (hr : r.Placed cs) (h : r.Leads s) : r.stop ≤ s.stop := by
  by_cases hlt : s.rest.length < r.rest.length
  · exact Int.le_trans (hr.stop_le h hlt) (h.placed hr).start_le
  · unfold stop
    rw [h.current_of_length (Nat.le_of_not_lt hlt)]

/-- Behind the current token everything starts after it. -/
theorem stop_le_next (hr : r.Placed cs) (h : r.advance.Leads s) : r.stop ≤ s.start := by
  by_cases hk : r.current.kind = .eof
  · -- the end is empty, and nothing follows it
    have hrest := hr.wf.rest_eq_nil hk
    have hcur : s.current = r.current := by
      refine h.of_advance.current_of_length ?_
      rw [hrest]
      exact Nat.zero_le _
    obtain ⟨j, heof⟩ := hr.eof
    have hcur' : r.current = r.eof := by
      unfold Reader.current
      rw [hrest]
      rfl
    unfold stop start
    rw [hcur, hcur', heof.stop, heof.start]
    exact Int.ofNat_le.2 heof.le_length
  · have h1 := hr.wf.length_advance hk
    exact hr.stop_le h.of_advance (Nat.lt_of_le_of_lt h.length_le h1)

/-! ## Spans and nodes -/

theorem spanTo (hr : r.Placed cs) (h : r.Leads s) : (r.spanTo s).LiesIn cs :=
  hr.liesIn.stopAt (Int.le_trans hr.start_le (hr.stop_mono h)) (h.placed hr).liesIn.stop_le

/-- A span that ends on the way goes through to where another one ends. -/
theorem through (hr : r.Placed cs) (h : r.Leads m) (h' : m.Leads s) {t : Span} (ht : t.stop = s.stop) :
    (r.spanTo m).through t = r.spanTo s := by
  have hle : m.stop ≤ s.stop := (h.placed hr).stop_mono h'
  unfold Span.through
  rw [ht, show (r.spanTo m).stop = m.stop from rfl, Int.max_eq_right hle]
  rfl

theorem through_current (hr : r.Placed cs) (h : r.Leads s) : r.current.span.through s.current.span = r.spanTo s :=
  hr.through (.refl r) h rfl

theorem ident (hr : r.Placed cs) : Laid cs r.start [r.current.ident.outline] r.stop :=
  .single (.mk hr.liesIn nofun .nil nofun) (Int.le_refl _) (Int.le_refl _)

end Placed
end Reader

/-- What was read from one token to another: its span goes from the first to the second, and its outlines are
laid out between them. -/
structure Extent (cs : List Char) (r s : Reader) (span : Span) (os : List Outline) : Prop where
  leads : r.Leads s
  span : span = r.spanTo s
  laid : Laid cs r.start os s.stop

theorem Extent.stop {span : Span} {os : List Outline} (h : Extent cs r s span os) : span.stop = s.stop := by
  rw [h.span]
  rfl

/-- A node around its parts. -/
theorem Extent.node {span : Span} {n : Node} {os : List Outline} (hr : r.Placed cs) (h : r.Leads s)
    (hspan : span = r.spanTo s) (hos : Laid cs r.start os s.stop) (hn : n.span = span) :
    Extent cs r s span [.mk n os] := by
  subst hspan
  refine ⟨h, rfl, .single (Laid.wellPlaced ?_ ?_) ?_ ?_⟩
  · rw [hn]
    exact hr.spanTo h
  · rw [hn]
    exact hos
  · show r.start ≤ n.span.start
    rw [hn]
    exact Int.le_refl _
  · show n.span.stop ≤ s.stop
    rw [hn]
    exact Int.le_refl _

namespace Rule

/-- A rule that gives what it reads its span, and lays out its parts. -/
def Places (cs : List Char) (x : Rule α) (span : α → Span) (outline : α → List Outline) : Prop :=
  ∀ r, r.Placed cs → x.Ensures r (fun a s => Extent cs r s (span a) (outline a)) fun _ => True

/-- What the rounds of a repetition keep on the readers of a text holds at its end. -/
theorem Ensures.loop_placed {round : σ → Rule (Round σ)} [∀ x, Honest (round x)] [Progresses round]
    {P Q : σ → Reader → Prop} (hround : ∀ x m, m.Placed cs → P x m → (round x).Ensures m (ofRound P Q) fun _ => True)
    {x : σ} (hr : r.Placed cs) (hx : P x r) : (Rule.loop round x).Ensures r (fun y s => r.Leads s ∧ Q y s) fun _ => True := by
  have hloop := Ensures.loop (P := fun y m => m.Placed cs ∧ P y m) (Q := Q) (F := fun _ => True)
    (fun y m _ hm => (hround y m hm.1 hm.2).leads.mono ?_ fun _ _ => trivial) hr.wf ⟨hr, hx⟩
  · exact hloop.leads.mono (fun _ _ h => h) fun _ _ => trivial
  · rintro (z | z) s ⟨hs, hz⟩
    · exact ⟨hs.placed hm.1, hz⟩
    · exact hz

/-! ## Lists -/

section Items

variable {item : Rule α} [Honest item] {span : α → Span} {outline : α → List Outline} {closing : Punct} {what : Wanted}

/-- Items lie one after the other in front of the closing token. -/
theorem Places.items (h : item.Places cs span outline) (hr : r.Placed cs) : (items closing what item).Ensures r
    (fun xs s => r.Leads s ∧ Laid cs r.start (xs.flatMap outline) s.start) fun _ => True := by
  unfold Rule.items
  simp only [ensures_bind, ensures_pure]
  refine Ensures.loop_placed (P := fun xs m => Laid cs r.start (xs.toList.flatMap outline) m.start)
    (fun xs m hm hxs => ?_) hr (.nil (Int.le_refl _))
  unfold itemRound
  simp only [ensures_bind, ensures_peek, ensures_ite, ensures_advance, ensures_current, ensures_pure, ensures_refuse]
  refine (h m hm).mono (fun x n hx => ?_) (fun _ h => h)
  have hpush : ∀ {s : Reader}, n.advance.Leads s →
      Laid cs r.start ((xs.push x).toList.flatMap outline) s.start := by
    intro s hs
    rw [Array.toList_push, List.flatMap_append, List.flatMap_singleton]
    exact (hxs.append hx.laid (Int.le_refl _)).mono (Int.le_refl _) ((hx.leads.placed hm).stop_le_next hs)
  split
  · split
    · trivial
    · exact hpush (.advance _)
  · split
    · exact hpush (.refl _)
    · trivial

theorem Places.someItems (h : item.Places cs span outline) (hr : r.Placed cs) :
    (someItems closing what item).Ensures r
      (fun xs s => r.Leads s ∧ Laid cs r.start (xs.flatMap outline) s.start) fun _ => True := by
  unfold Rule.someItems
  simp only [ensures_bind, ensures_current, ensures_ite, ensures_refuse]
  split
  · trivial
  · exact h.items hr

theorem Places.manyItems (h : item.Places cs span outline) (hr : r.Placed cs) :
    (manyItems closing what item).Ensures r
      (fun xs s => r.Leads s ∧ Laid cs r.start (xs.flatMap outline) s.start) fun _ => True := by
  unfold Rule.manyItems
  simp only [ensures_bind, ensures_current, ensures_ite, ensures_pure]
  split
  · exact ⟨.refl r, .nil (Int.le_refl _)⟩
  · exact h.items hr

end Items

/-! ## Recovery -/

/-- A span extended over tokens starts where it did, and stops where the last of them stops or earlier. -/
theorem over_eq {b : Int} : ∀ {ts : List Token} {span : Span}, span.stop ≤ b → (∀ t ∈ ts, t.span.stop ≤ b) →
    ∃ n, span.over ts = { span with stop := n } ∧ span.stop ≤ n ∧ n ≤ b
  | [], span, hb, _ => ⟨span.stop, rfl, Int.le_refl _, hb⟩
  | t :: ts, span, hb, hts => by
    have ht := hts t List.mem_cons_self
    have hthrough : (span.through t.span).stop ≤ b := Int.max_le.2 ⟨hb, ht⟩
    obtain ⟨n, he, h1, h2⟩ := over_eq hthrough fun u hu => hts u (List.mem_cons_of_mem _ hu)
    exact ⟨n, he, Int.le_trans (Int.le_max_left _ _) h1, h2⟩

/-- What is given up from a token on has its place there, in front of the token that reading resumes at. -/
theorem ensures_recover_laid {unit : SyncUnit} {F : Reader → Prop} (hr : r.Placed cs) (hk : r.current.kind ≠ .eof)
    (hm : r.Leads m) : (recover unit r.current).Ensures m
      (fun span s => ∀ n : Node, n.span = span → Laid cs r.start [.mk n []] s.start) F := by
  refine ((recover_length_lt hr.wf hk hm (F := F)).and (ensures_recover (F := F) (Q := fun span s => m.Leads s ∧
    ∃ ts, span = r.current.span.over ts ∧ m.rest = ts ++ s.rest) fun s hs e => ⟨hs, _, rfl, ?_⟩)).mono ?_
    (fun _ h => h.1)
  · rw [e, List.take_append_drop]
  · rintro span s ⟨hlt, hs, ts, rfl, hts⟩
    have hrs := hm.trans hs
    have hpassed := hr.stop_le hrs hlt
    obtain ⟨n, he, h1, h2⟩ := over_eq hpassed fun t ht => (hm.placed hr).stop_le_of_mem hs hts ht
    intro node hn
    have hstart : r.start ≤ n := Int.le_trans hr.start_le h1
    have hend : n ≤ cs.length := by
      have hsp := hrs.placed hr
      exact Int.le_trans h2 (Int.le_trans hsp.start_le hsp.liesIn.stop_le)
    rw [he] at hn
    refine .single (.mk ?_ nofun .nil nofun) ?_ ?_
    · rw [hn]
      exact hr.liesIn.stopAt hstart hend
    · show r.start ≤ node.span.start
      rw [hn]
      exact Int.le_refl _
    · show node.span.stop ≤ s.start
      rw [hn]
      exact h2

/-! ## Names -/

/-- Segments behind a dot lie behind those before them. -/
theorem ensures_segments {segment : Rule Unit} [Honest segment] (hr : r.Placed cs)
    (hsegment : ∀ {m : Reader}, m.Placed cs → segment.Ensures m (fun _ s => m.advance.Leads s) fun _ => True)
    {xs : Array Ident} {lo : Int} (hxs : Laid cs lo (xs.toList.map Ident.outline) r.stop) :
    (loop (segmentRound segment) xs).Ensures r
      (fun ys s => r.Leads s ∧ Laid cs lo (ys.toList.map Ident.outline) s.stop) fun _ => True := by
  refine Ensures.loop_placed (P := fun ys m => Laid cs lo (ys.toList.map Ident.outline) m.stop)
    (fun ys m hm hys => ?_) hr hxs
  unfold segmentRound
  simp only [ensures_bind, ensures_peek, ensures_ite, ensures_advance, ensures_pure, ensures_currentIdent]
  split
  · refine (hsegment hm.advance).mono (fun _ s hs => ?_) (fun _ h => h)
    have hms : m.advance.Leads s := hs.of_advance
    exact hys.push (hms.placed hm.advance).ident (hm.stop_le_next hms)
  · exact hys

theorem ensures_expect_advance {k : Kind} :
    (expect k).Ensures r (fun _ s => r.advance.Leads s) fun _ => True := by
  rw [ensures_expect]
  split
  · exact .refl _
  · trivial

theorem ensures_expectWord_advance {w : Wanted} :
    (expectWord w).Ensures r (fun _ s => r.advance.Leads s) fun _ => True := by
  rw [ensures_expectWord]
  split
  · exact .refl _
  · trivial

theorem places_dottedName : dottedName.Places cs Name.span fun n => [n.outline] := by
  intro r hr
  unfold dottedName
  simp only [ensures_bind, ensures_current, ensures_ite, ensures_refuse, ensures_pure]
  split
  · trivial
  · refine (ensures_segments hr (fun _ => ensures_expect_advance) hr.ident).mono (fun parts s hs => ?_) (fun _ h => h)
    exact .node hr hs.1 (hr.through_current hs.1) hs.2 rfl

/-! ## IRIs -/

theorem ensures_iriDomain (hr : r.Placed cs) : iriDomain.Ensures r
    (fun domain s => r.advance.Leads s ∧ Laid cs r.advance.start (domain.map Ident.outline) s.stop) fun _ => True := by
  unfold iriDomain
  simp only [ensures_bind, ensures_expectWord, ensures_currentIdent, ensures_pure]
  split
  · exact ensures_segments hr.advance (fun _ => ensures_expectWord_advance) hr.advance.ident
  · trivial

theorem ensures_iriPath (hr : r.Placed cs) : iriPath.Ensures r
    (fun path s => r.Leads s ∧ Laid cs r.stop (path.1.map Ident.outline) s.stop) fun _ => True := by
  unfold iriPath
  simp only [ensures_bind, ensures_pure]
  refine Ensures.loop_placed (P := fun path m => Laid cs r.stop (path.1.toList.map Ident.outline) m.stop)
    (fun path m hm hpath => ?_) hr (.nil (Int.le_refl _))
  unfold pathRound
  simp only [ensures_bind, ensures_peek, ensures_ite, ensures_advance, ensures_pure, ensures_currentIdent]
  split
  · split
    · exact hpath.push hm.advance.advance.ident (hm.stop_le_next (.advance _))
    · exact hpath.mono (Int.le_refl _) (hm.stop_mono (.advance m))
  · exact hpath

/-- Behind a hash the next column of the same line begins. -/
theorem liesIn_behind_hash (hr : r.Placed cs) (hk : r.current.kind = .punct .hash) :
    Span.LiesIn cs { r.current.span with start := r.current.span.stop, column := r.current.span.column + 1 } := by
  obtain ⟨i, j, hc⟩ := hr.current
  have hraw : (cs.drop i).take (j - i) = ['#'] := by
    have hl := (hr.wf.current_wf (by rw [hk]; exact nofun)).valid.punct hk
    rw [← hc.raw, show r.current.raw = "#" from congrArg Lexeme.raw hl]
    rfl
  have hat : Position.at cs j = (Position.at cs i).next '#' := by
    have h : (Position.at cs i).after ((cs.drop i).take (j - i)) = .at cs (i + (j - i)) := Position.after_at _
    rw [hraw, Nat.add_sub_cancel' hc.le] at h
    exact h.symm
  obtain ⟨file, hs⟩ := hc.span
  have hbehind : { r.current.span with start := r.current.span.stop, column := r.current.span.column + 1 } =
      Span.between file (.at cs j) (.at cs j) := by
    rw [hs]
    unfold Span.between
    rw [hat]
    rfl
  rw [hbehind]
  exact Span.between_liesIn (Nat.le_refl j) hc.le_length

theorem ensures_iriFragment (hr : r.Placed cs) : iriFragment.Ensures r
    (fun fragment s => r.Leads s ∧ Laid cs r.stop (Ident.outline? fragment) s.stop) fun _ => True := by
  have hadv : r.stop ≤ r.advance.start := hr.stop_le_next (.refl _)
  unfold iriFragment
  simp only [ensures_bind, ensures_peek, ensures_ite, ensures_advance, ensures_pure, ensures_current,
    ensures_currentIdent]
  split
  · rename_i hk
    split
    · refine ⟨.of_advance (.advance _), ?_⟩
      exact hr.advance.advance.ident.mono (hr.stop_le_next (.advance _)) (Int.le_refl _)
    · -- an empty fragment stands right behind the hash
      refine ⟨.advance r, .single (.mk (liesIn_behind_hash hr.advance hk) (by simp) .nil (by simp)) ?_ (Int.le_refl _)⟩
      exact Int.le_trans hadv hr.advance.start_le
  · exact ⟨.refl r, .nil (Int.le_refl _)⟩

theorem ensures_absoluteIri (hr : r.Placed cs) (hm : r.advance.Leads m) : (absoluteIri r.current).Ensures m
    (fun a s => Extent cs r s a.span [(Iri.absolute a).outline]) fun _ => True := by
  have hrm : r.Leads m := hm.of_advance
  have hmp := hrm.placed hr
  unfold absoluteIri
  simp only [ensures_bind, ensures_advance, ensures_current, ensures_pure]
  refine (ensures_iriDomain hmp.advance.advance).mono (fun domain n hn => ?_) (fun _ h => h)
  have hmn : m.advance.Leads n := hn.1.of_advance.of_advance
  have hrn : r.Leads n := hrm.trans hmn.of_advance
  refine (ensures_iriPath (hrn.placed hr)).mono (fun path k hk => ?_) (fun _ h => h)
  refine (ensures_iriFragment ((hrn.trans hk.1).placed hr)).mono (fun fragment s hs => ?_) (fun _ h => h)
  have hrs := hrn.trans (hk.1.trans hs.1)
  refine .node hr hrs (hr.through_current hrs) ?_ rfl
  refine ((hr.ident.append hn.2 ?_).append hk.2 (Int.le_refl _)).append hs.2 (Int.le_refl _)
  exact hr.stop_le_next (hm.trans (.of_advance (.of_advance (.advance _))))

/-- A qualified name goes on from its scope, or from the colon that it begins with. -/
theorem ensures_qName {scope : Option Ident} (hr : r.Placed cs) (hm : r.Leads m)
    (hscope : Laid cs r.start (Ident.outline? scope) m.stop) : (qName r.current scope).Ensures m
      (fun q s => Extent cs r s q.span [(Iri.qualified q).outline]) fun _ => True := by
  have hmp := hm.placed hr
  unfold qName
  simp only [ensures_bind, ensures_expectWord, ensures_current, ensures_pure]
  split
  · have hrs := hm.trans (.advance m)
    exact .node hr hrs (hr.through_current hrs) (hscope.append hmp.advance.ident (hmp.stop_le_next (.refl _))) rfl
  · trivial

theorem places_iri : iri.Places cs Iri.span fun i => [i.outline] := by
  intro r hr
  unfold iri
  rw [ensures_bind, ensures_current]
  split
  · simp only [ensures_bind, ensures_pure]
    exact ensures_qName hr (.refl r) (.nil hr.start_le)
  · split
    · simp only [ensures_bind, ensures_expect]
      split
      · refine (Honest.ensures (x := opensHost)).mono (fun host m hm => ?_) (fun _ _ => trivial)
        have hrm : r.Leads m := hm.of_advance
        split
        · simp only [ensures_bind, ensures_pure]
          exact ensures_absoluteIri hr hm
        · simp only [ensures_bind, ensures_pure]
          exact ensures_qName hr hrm (hr.ident.mono (Int.le_refl _) (hr.stop_mono hrm))
      · trivial
    · trivial

end Rule
end SemFront
