/-
How the tokens of a source become those of canonical text. Both have the same tokens in the same
order but for two places: canonical text has a semicolon behind every body, and writes a `>=` that
closes a list type and begins an initializer as two tokens. `amended` makes these edits given where
bodies and list types stop; `Edit` makes them while the tokens are read.
-/
import SemFront.Proofs.Grammar.Spells

namespace SemFront

/-- The lexemes of some tokens, with a semicolon behind each brace that closes one of the bodies, if
none follows it, and with a `>` and a `=` for each `>=` that closes one of the list types. Bodies and
list types are given by where they stop. -/
def amended (bodies lists : List Int) : List Token → List Lexeme
  | [] => []
  | t :: ts =>
    if t.kind = .punct .greaterEqual ∧ t.span.start + 1 ∈ lists then
      .punct .greater :: .punct .assign :: amended bodies lists ts
    else if t.kind = .punct .rbrace ∧ t.span.stop ∈ bodies ∧ headKind ts ≠ .punct .semicolon then
      t.lexeme :: .punct .semicolon :: amended bodies lists ts
    else t.lexeme :: amended bodies lists ts

/-- The tokens `a` up to `c` are edited to some lexemes; on the way the bodies and the list types stop
where the lists of positions say. -/
inductive Edit : (a : List Token) → List Lexeme → (c : List Token) → (bodies lists : List Int) → Prop
  | nil {a : List Token} : Edit a [] a [] []
  | keep {a c : List Token} {ls : List Lexeme} {B L : List Int} (t : Token) : Edit a ls c B L →
      Edit (t :: a) (t.lexeme :: ls) c B L
  | list {a c : List Token} {ls : List Lexeme} {B L : List Int} {t : Token} : t.kind = .punct .greater →
      Edit a ls c B L → Edit (t :: a) (t.lexeme :: ls) c B ((t.span.start + 1) :: L)
  | split {a c : List Token} {ls : List Lexeme} {B L : List Int} {t : Token} : t.kind = .punct .greaterEqual →
      Edit a ls c B L → Edit (t :: a) (.punct .greater :: .punct .assign :: ls) c B ((t.span.start + 1) :: L)
  | body {a c : List Token} {ls : List Lexeme} {B L : List Int} {t : Token} : t.kind = .punct .rbrace →
      headKind a = .punct .semicolon → Edit a ls c B L → Edit (t :: a) (t.lexeme :: ls) c (t.span.stop :: B) L
  | close {a c : List Token} {ls : List Lexeme} {B L : List Int} {t : Token} : t.kind = .punct .rbrace →
      headKind a ≠ .punct .semicolon → Edit a ls c B L →
      Edit (t :: a) (t.lexeme :: .punct .semicolon :: ls) c (t.span.stop :: B) L

namespace Edit

variable {a b c : List Token} {ls ms : List Lexeme} {B B' L L' : List Int}

theorem append (h : Edit a ls b B L) (k : Edit b ms c B' L') : Edit a (ls ++ ms) c (B ++ B') (L ++ L') := by
  induction h with
  | nil => exact k
  | keep t _ ih => exact .keep t (ih k)
  | list hk _ ih => exact .list hk (ih k)
  | split hk _ ih => exact .split hk (ih k)
  | body hk hn _ ih => exact .body hk hn (ih k)
  | close hk hn _ ih => exact .close hk hn (ih k)

/-- Bodies stop with a brace of the stretch, and list types with the first character of a `>` or a `>=`
of it. -/
theorem positions (h : Edit a ls c B L) : (∀ x ∈ B, ∃ t ∈ a, t.kind = .punct .rbrace ∧ t.span.stop = x) ∧
    ∀ x ∈ L, ∃ t ∈ a, (t.kind = .punct .greater ∨ t.kind = .punct .greaterEqual) ∧ t.span.start + 1 = x := by
  -- what holds of a token of the tail holds of one of the stretch
  have later : ∀ {t : Token} {a : List Token} {P : Token → Prop}, (∃ u ∈ a, P u) → ∃ u ∈ t :: a, P u :=
    fun ⟨u, hu, h⟩ => ⟨u, List.mem_cons_of_mem _ hu, h⟩
  induction h with
  | nil => exact ⟨nofun, nofun⟩
  | keep t _ ih => exact ⟨fun x hx => later (ih.1 x hx), fun x hx => later (ih.2 x hx)⟩
  | list hk _ ih =>
    refine ⟨fun x hx => later (ih.1 x hx), List.forall_mem_cons.2 ⟨?_, fun x hx => later (ih.2 x hx)⟩⟩
    exact ⟨_, List.mem_cons_self, .inl hk, rfl⟩
  | split hk _ ih =>
    refine ⟨fun x hx => later (ih.1 x hx), List.forall_mem_cons.2 ⟨?_, fun x hx => later (ih.2 x hx)⟩⟩
    exact ⟨_, List.mem_cons_self, .inr hk, rfl⟩
  | body hk _ _ ih | close hk _ _ ih =>
    refine ⟨List.forall_mem_cons.2 ⟨?_, fun x hx => later (ih.1 x hx)⟩, fun x hx => later (ih.2 x hx)⟩
    exact ⟨_, List.mem_cons_self, hk, rfl⟩

end Edit

theorem Spells.edit {a b c : List Token} {ls ms : List Lexeme} {B L : List Int} (h : Spells a ls b)
    (k : Edit b ms c B L) : Edit a (ls ++ ms) c B L := by
  obtain ⟨us, rfl, rfl⟩ := h
  induction us with
  | nil => exact k
  | cons u us ih => exact .keep u ih

theorem Edit.spells {a b c : List Token} {ls ms : List Lexeme} {B L : List Int} (h : Edit a ls b B L)
    (k : Spells b ms c) : Edit a (ls ++ ms) c B L := by
  induction h with
  | nil => simpa using k.edit .nil
  | keep t _ ih => exact .keep t (ih k)
  | list hk _ ih => exact .list hk (ih k)
  | split hk _ ih => exact .split hk (ih k)
  | body hk hn _ ih => exact .body hk hn (ih k)
  | close hk hn _ ih => exact .close hk hn (ih k)

theorem Spells.toEdit {a c : List Token} {ls : List Lexeme} (h : Spells a ls c) : Edit a ls c [] [] := by
  simpa using h.edit .nil

/-- A token behind another one starts where that one has stopped. -/
theorem Reader.WF.stop_le {r m : Reader} (hr : r.WF) (hk : r.current.kind ≠ .eof) (h : r.advance.Leads m)
    (hm : m.current.kind ≠ .eof) : r.current.span.stop ≤ m.current.span.start := by
  have ho := hr.ordered
  have hwf := h.wf hr.advance
  have hmem : m.current ∈ r.advance.rest := h.rest.subset (by rw [hwf.rest_eq hm]; exact List.mem_cons_self)
  rw [hr.rest_eq hk] at ho
  exact (List.pairwise_cons.1 ho).1 _ hmem

/-- Two lists of positions agree on some tokens, each with its position. -/
def Agree (position : Token → Int) (ts : List Token) (X Y : List Int) : Prop :=
  ∀ t ∈ ts, position t ∈ X ↔ position t ∈ Y

namespace Agree

variable {position : Token → Int} {t : Token} {a : List Token} {X Y : List Int}

theorem tail (h : Agree position (t :: a) X Y) : Agree position a X Y := fun u hu => h u (List.mem_cons_of_mem _ hu)

/-- The position of the first token tells nothing about tokens that have others. -/
theorem of_cons (h : Agree position (t :: a) X (position t :: Y)) (hne : ∀ u ∈ a, position t < position u) :
    Agree position a X Y := by
  intro u hu
  rw [h u (List.mem_cons_of_mem _ hu), List.mem_cons]
  exact or_iff_right fun e => absurd (hne u hu) (by rw [e]; exact Int.lt_irrefl _)

end Agree

/-- In order, one position belongs to one token, so the edits made along the tokens are those made from
the positions. -/
theorem Edit.amended {a c : List Token} {ls : List Lexeme} {B L : List Int} (h : Edit a ls c B L) (hc : c = [])
    {e : Token} (he : e.kind = .eof) (ho : Ordered a) (hwf : ∀ t ∈ a, t.WF) {bodies lists : List Int}
    (hB : Agree (·.span.stop) a bodies B) (hL : Agree (·.span.start + 1) a lists L) :
    amended bodies lists (a ++ [e]) = ls ++ [e.lexeme] := by
  have hhead : ∀ a, headKind (a ++ [e]) = .punct .semicolon ↔ headKind a = .punct .semicolon := by
    intro a
    cases a with
    | nil => simp [headKind, he]
    | cons t a => rfl
  have hlater : ∀ {t : Token} {a : List Token}, Ordered (t :: a) → (∀ u ∈ t :: a, u.WF) →
      (∀ u ∈ a, t.span.stop < u.span.stop) ∧ ∀ u ∈ a, t.span.start + 1 < u.span.start + 1 := by
    intro t a ho hwf
    have h1 := (List.pairwise_cons.1 ho).1
    have h2 := (hwf t List.mem_cons_self).nonempty
    refine ⟨fun u hu => ?_, fun u hu => ?_⟩
    · have := h1 u hu
      have := (hwf u (List.mem_cons_of_mem _ hu)).nonempty
      omega
    · have := h1 u hu
      omega
  induction h with
  | nil =>
    subst hc
    simp [SemFront.amended, he]
  | @keep a c ls B L t h ih =>
    obtain ⟨hb, hl⟩ := hlater ho hwf
    -- the positions are those of tokens behind this one
    have hbodies : t.span.stop ∉ bodies := by
      intro hm
      obtain ⟨u, hu, -, hp⟩ := h.positions.1 t.span.stop ((hB t List.mem_cons_self).1 hm)
      have := hb u hu
      omega
    have hlists : t.span.start + 1 ∉ lists := by
      intro hm
      obtain ⟨u, hu, -, hp⟩ := h.positions.2 (t.span.start + 1) ((hL t List.mem_cons_self).1 hm)
      have := hl u hu
      omega
    have ih := ih hc ho.of_cons (fun u hu => hwf u (List.mem_cons_of_mem _ hu)) hB.tail hL.tail
    rw [List.cons_append, SemFront.amended, if_neg (fun h => hlists h.2), if_neg (fun h => hbodies h.2.1), ih,
      List.cons_append]
  | @list a c ls B L t hk h ih =>
    have ih := ih hc ho.of_cons (fun u hu => hwf u (List.mem_cons_of_mem _ hu)) hB.tail
      (hL.of_cons (hlater ho hwf).2)
    rw [List.cons_append, SemFront.amended, if_neg (by simp [hk]), if_neg (by simp [hk]), ih, List.cons_append]
  | @split a c ls B L t hk h ih =>
    have ih := ih hc ho.of_cons (fun u hu => hwf u (List.mem_cons_of_mem _ hu)) hB.tail
      (hL.of_cons (hlater ho hwf).2)
    rw [List.cons_append, SemFront.amended, if_pos ⟨hk, (hL t List.mem_cons_self).2 List.mem_cons_self⟩, ih,
      List.cons_append, List.cons_append]
  | @body a c ls B L t hk hn h ih =>
    have ih := ih hc ho.of_cons (fun u hu => hwf u (List.mem_cons_of_mem _ hu)) (hB.of_cons (hlater ho hwf).1)
      hL.tail
    rw [List.cons_append, SemFront.amended, if_neg (by simp [hk]), if_neg (fun h => h.2.2 ((hhead a).2 hn)), ih,
      List.cons_append]
  | @close a c ls B L t hk hn h ih =>
    have ih := ih hc ho.of_cons (fun u hu => hwf u (List.mem_cons_of_mem _ hu)) (hB.of_cons (hlater ho hwf).1)
      hL.tail
    rw [List.cons_append, SemFront.amended, if_neg (by simp [hk]),
      if_pos ⟨hk, (hB t List.mem_cons_self).2 List.mem_cons_self, fun h => hn ((hhead a).1 h)⟩, ih, List.cons_append,
      List.cons_append]

end SemFront
