/-
The placeholders that the text of a tree shows. Each is written as a mark that a walk along the lexemes
does not pass, with two exceptions: declarations and members that were given up are not written at all,
and the mark of an operand in a cast is read as a comparison where a minus sign follows it. Here these
are counted, and a walk is taken along expressions.
-/
import SemFront.Proofs.Marks.Angles
import SemFront.Proofs.Tree.Order
import SemFront.Proofs.Tree.Outline

namespace SemFront

open Place

/-! ## Placeholders that are shown -/

def Expr.isBad : Expr → Bool
  | .bad _ => true
  | _ => false

/-- Whether the text of an expression ends in a cast of a placeholder, `(T) <bad>`. -/
def Expr.endsInHole : Expr → Bool
  | .binary _ _ r _ => r.endsInHole
  | .not e _ => e.endsInHole
  | .neg e _ => e.endsInHole
  | .cast _ e _ => e.isBad || e.endsInHole
  | _ => false

/-- Whether a placeholder is not to be seen in the text because of this node: one that is not written, or the
last one of what a minus sign follows. -/
def Node.hides : Node → Bool
  | .badDecl _ => true
  | .expr (.binary .sub l _ _) => l.endsInHole
  | _ => false

/-- What a node adds to the placeholders that can be seen. -/
def Node.visible : Node → Int
  | .param (.bad _) => 1
  | .stmt (.bad _) => 1
  | .expr (.bad _) => 1
  | .typeRef (.bad _) => 1
  | .expr (.binary .sub l _ _) => if l.endsInHole then -1 else 0
  | _ => 0

theorem Node.visible_eq (n : Node) :
    n.visible = (if n.isPlaceholder then 1 else 0) - (if n.hides then 1 else 0) := by
  cases n with
  | param p => cases p <;> rfl
  | stmt s => cases s <;> rfl
  | typeRef t => cases t <;> rfl
  | expr e =>
    cases e with
    | binary op l r s =>
      cases op with
      | sub =>
        show (if l.endsInHole then -1 else 0) = 0 - if l.endsInHole then 1 else (0 : Int)
        split <;> rfl
      | _ => rfl
    | _ => rfl
  | _ => rfl

@[simp] theorem visible_idents (is : List Ident) : total Node.visible (is.map Ident.outline) = 0 := by
  refine total_eq_zero fun o ho => ?_
  obtain ⟨i, -, rfl⟩ := List.mem_map.1 ho
  rfl

@[simp] theorem visible_ident? (i : Option Ident) : total Node.visible (Ident.outline? i) = 0 := by
  cases i <;> rfl

@[simp] theorem visible_name? (n : Option Name) : total Node.visible (Name.outline? n) = 0 := by
  cases n with
  | none => rfl
  | some n => simp [Name.outline?, Name.outline, Node.visible]

namespace Place

/-! ## Lists of parts -/

/-- Parts with a token between neighbours. -/
theorem Shows.joined {xs : List α} {f : α → List Lexeme} {g : α → List Outline} {sep : Lexeme}
    (hsep : isPlain sep.kind = true) (hfree : behind sep.kind = .free)
    (h : ∀ x ∈ xs, Shows (f x) (total Node.visible (g x))) :
    Shows (Lexeme.joined sep (xs.map f)) (total Node.visible (xs.flatMap g)) := by
  induction xs with
  | nil => exact shows_nil
  | cons x xs ih =>
    have hx := h x List.mem_cons_self
    have ih := ih fun y hy => h y (List.mem_cons_of_mem _ hy)
    cases xs with
    | nil => simpa [Lexeme.joined] using hx
    | cons y ys =>
      have hclose : Closed (f x ++ [sep]) (total Node.visible (g x)) :=
        hx.close hsep fun ms => by rw [hfree, List.nil_append]
      rw [List.flatMap_cons, total_append]
      simpa [Lexeme.joined] using hclose.append_shows ih

theorem Closed.flatMap {xs : List α} {f : α → List Lexeme} {g : α → List Outline}
    (h : ∀ x ∈ xs, Closed (f x) (total Node.visible (g x))) :
    Closed (xs.flatMap f) (total Node.visible (xs.flatMap g)) := by
  induction xs with
  | nil => exact .of_walk fun _ => rfl
  | cons x xs ih =>
    rw [List.flatMap_cons, List.flatMap_cons, total_append]
    exact (h x List.mem_cons_self).append (ih fun y hy => h y (List.mem_cons_of_mem _ hy))

/-- A name is an operand, whatever follows it. -/
theorem along_name {p : Place} (hp : p.Opens) {n : Name} (hn : n.Canonical) (ls : List Lexeme) :
    p.along (n.lexemes ++ ls) = operand.along ls := by
  have hparts : ∀ (is : List Ident) (i : Ident) (p : Place), p.Opens →
      p.along (Lexeme.joined (.punct .dot) ((i :: is).map fun i => [Lexeme.ident i.name]) ++ ls) = operand.along ls := by
    intro is
    induction is with
    | nil =>
      intro i p hp
      exact along_cons (step_of_startsExpr hp rfl)
    | cons j is ih =>
      intro i p hp
      have hi : p.step (Lexeme.ident i.name).kind = some .operand := step_of_startsExpr hp rfl
      simp only [List.map_cons, Lexeme.joined, List.cons_append, List.nil_append] at ih ⊢
      rw [along_cons hi, along_cons (q := .free) rfl]
      exact ih j .free (.inl rfl)
  obtain ⟨i, is, h⟩ := List.exists_cons_of_ne_nil hn.nonempty
  unfold Name.lexemes
  rw [h]
  exact hparts is i p hp

theorem shows_name {n : Name} (hn : n.Canonical) : Shows n.lexemes 0 := by
  refine ⟨Int.le_refl 0, fun l ms hl => ?_⟩
  rw [along_name (.inl rfl) hn, along_cons (step_of_plain (.inr (.inl rfl)) hl), if_pos rfl]

end Place

/-! ## Expressions -/

/-- The mark that an expression ends in, if it is one that can still be hidden. -/
def Expr.carry (e : Expr) : Int := if e.endsInHole then 1 else 0

/-- What a walk along an expression passes last. -/
def Expr.place (e : Expr) : Place := if e.endsInHole then .operator else .operand

/-- A walk passes an expression if it shows no marks but for one that it ends in. -/
structure Expr.Marked (e : Expr) : Prop where
  le : e.carry ≤ total Node.visible e.outline
  walk : ∀ (p : Place) (ls : List Lexeme), p = .free ∨ p = .operator →
    p.along (e.lexemes ++ ls) = if total Node.visible e.outline = e.carry then e.place.along ls else none

namespace Expr.Marked

variable {e l r : Expr}

theorem of_operand (hend : e.endsInHole = false) (hnonneg : 0 ≤ total Node.visible e.outline)
    (hwalk : ∀ (p : Place) (ls : List Lexeme), p.Opens →
      p.along (e.lexemes ++ ls) = if total Node.visible e.outline = 0 then operand.along ls else none) :
    e.Marked := by
  have hcarry : e.carry = 0 := by simp [Expr.carry, hend]
  have hplace : e.place = .operand := by simp [Expr.place, hend]
  refine ⟨by rw [hcarry]; exact hnonneg, fun p ls hp => ?_⟩
  rw [hcarry, hplace]
  exact hwalk p ls (hp.imp id .inr)

/-- Ended by another token, an expression shows the mark that it ends in too. -/
theorem shows (h : e.Marked) : Shows e.lexemes (total Node.visible e.outline) := by
  have hle := h.le
  unfold Expr.carry at hle
  cases hend : e.endsInHole with
  | false =>
    have hcarry : e.carry = 0 := by simp [Expr.carry, hend]
    have hplace : e.place = .operand := by simp [Expr.place, hend]
    refine ⟨by rwa [hend] at hle, fun l ms hl => ?_⟩
    rw [h.walk _ _ (.inl rfl), hcarry, hplace, along_cons (step_of_plain (.inr (.inl rfl)) hl)]
  | true =>
    have hplace : e.place = .operator := by simp [Expr.place, hend]
    rw [hend, if_pos rfl] at hle
    refine ⟨by omega, fun l ms hl => ?_⟩
    rw [h.walk _ _ (.inl rfl), hplace, along_cons_none (step_operator_of_plain hl), ite_self, if_neg (by omega)]

end Expr.Marked

theorem Initializer.shows {i : Initializer} (hn : ∃ x, i.name = some x ∧ x.Canonical) (hv : i.value.Marked) :
    Shows i.lexemes (total Node.visible [i.outline]) := by
  obtain ⟨n, v, s⟩ := i
  obtain ⟨x, hx, -⟩ := hn
  cases hx
  have hhead : Closed [.ident x.name, .punct .assign] 0 := .of_walk fun _ => rfl
  have h := hhead.append_shows hv.shows
  simpa [Initializer.lexemes, Ident.lexemes?, Initializer.outline, Initializer.value, Node.visible] using h

theorem Expr.Written.starts {e : Expr} (he : e.Written) (hbad : e.isBad = false) (hbinary : e.isBinary = false) :
    ∃ l ls, e.lexemes = l :: ls ∧ l.kind.startsExpr = true := by
  have hname : ∀ {n : Name}, n.Canonical → ∃ l ls, n.lexemes = l :: ls ∧ l.kind.startsExpr = true := by
    intro n hn
    obtain ⟨i, is, h⟩ := List.exists_cons_of_ne_nil hn.nonempty
    unfold Name.lexemes
    rw [h]
    cases is with
    | nil => exact ⟨_, _, rfl, rfl⟩
    | cons j is => exact ⟨_, _, rfl, rfl⟩
  cases he with
  | bad => cases hbad
  | binary => cases hbinary
  | @bool v s => cases v <;> exact ⟨_, _, rfl, rfl⟩
  | varRef hn => exact hname hn
  | call hn _ =>
    obtain ⟨l, ls, h, hl⟩ := hname hn
    simp only [Expr.lexemes, Name.lexemes?, h, List.cons_append]
    exact ⟨l, _, rfl, hl⟩
  | _ => exact ⟨_, _, rfl, rfl⟩

namespace Expr.Marked

variable {e f l r : Expr}

theorem carry_eq (h : e.endsInHole = f.endsInHole) : e.carry = f.carry ∧ e.place = f.place := by
  unfold Expr.carry Expr.place
  rw [h]
  exact ⟨rfl, rfl⟩

/-- What stands between an opening and a closing bracket shows all of its marks. -/
theorem enclosed (head : List Lexeme) {inner : List Lexeme} (close : Punct) {n : Int} (h : Shows inner n)
    (hvisible : total Node.visible e.outline = n) (hlex : e.lexemes = head ++ inner ++ [Lexeme.punct close])
    (hend : e.endsInHole = false)
    (hhead : ∀ (p : Place) (ls : List Lexeme), p.Opens → p.along (head ++ ls) = free.along ls)
    (hclose : isPlain (.punct close) = true ∧ behind (.punct close) = .operand) : e.Marked := by
  refine .of_operand hend (by rw [hvisible]; exact h.nonneg) fun p ls hp => ?_
  have hwalk : free.along (inner ++ Lexeme.punct close :: ls) = if n = 0 then operand.along ls else none := by
    rw [← hclose.2]
    exact h.walk (.punct close) ls hclose.1
  rw [hlex, List.append_assoc, List.append_assoc, hhead p _ hp, List.singleton_append, hwalk, hvisible]

/-- A sign in front of an operand. -/
theorem signed {sign : Lexeme} (h : e.Marked) (hlex : f.lexemes = sign :: e.lexemes)
    (hsign : sign.kind.startsExpr = true ∧ behind sign.kind = .free) (hend : f.endsInHole = e.endsInHole)
    (hvisible : total Node.visible f.outline = total Node.visible e.outline) : f.Marked := by
  obtain ⟨hcarry, hplace⟩ := carry_eq hend
  refine ⟨by rw [hcarry, hvisible]; exact h.le, fun p ls hp => ?_⟩
  have hstep : p.step sign.kind = some .free := by
    rw [step_of_startsExpr (hp.imp id .inr) hsign.1, hsign.2]
  rw [hlex, List.cons_append, along_cons hstep, h.walk _ _ (.inl rfl), hcarry, hplace, hvisible]

theorem binary {op : BinaryOp} {s : Span} (hop : op ≠ .unknown) (hl : l.Marked) (hr : r.Marked) :
    (Expr.binary op l r s).Marked := by
  obtain ⟨hcarry, hplace⟩ : (Expr.binary op l r s).carry = r.carry ∧ (Expr.binary op l r s).place = r.place :=
    carry_eq rfl
  obtain ⟨q, hq⟩ : ∃ q, op.punct? = some q := by
    cases op with
    | unknown => exact absurd rfl hop
    | _ => exact ⟨_, rfl⟩
  have hlex : ∀ ls, (Expr.binary op l r s).lexemes ++ ls = l.lexemes ++ Lexeme.punct q :: (r.lexemes ++ ls) := by
    simp [Expr.lexemes, BinaryOp.lexemes, hq]
  have hll := hl.le
  have hrl := hr.le
  cases hend : l.endsInHole with
  | false =>
    -- An operand stands in front of the operator.
    have hlc : l.carry = 0 := by simp [Expr.carry, hend]
    have hlp : l.place = .operand := by simp [Expr.place, hend]
    have hvisible : total Node.visible (Expr.binary op l r s).outline =
        total Node.visible l.outline + total Node.visible r.outline := by
      cases op <;> simp [Expr.outline, Node.visible, hend]
    have hstep : ∃ x, operand.step (.punct q) = some x ∧ (x = .free ∨ x = .operator) := by
      cases op <;> cases hq <;> first | exact ⟨_, rfl, .inl rfl⟩ | exact ⟨_, rfl, .inr rfl⟩
    obtain ⟨x, hx, hplaces⟩ := hstep
    rw [hlc] at hll
    refine ⟨by omega, fun p ls hp => ?_⟩
    rw [hlex, hl.walk p _ hp, hlp, along_cons hx, hr.walk x ls hplaces, hlc, ite_ite_none hll hrl, hvisible, hcarry,
      hplace, Int.zero_add]
  | true =>
    have hlc : l.carry = 1 := by simp [Expr.carry, hend]
    have hlp : l.place = .operator := by simp [Expr.place, hend]
    rw [hlc] at hll
    by_cases hsub : op = .sub
    · -- The minus sign is taken for the start of an operand.
      subst hsub
      cases hq
      have hvisible : total Node.visible (Expr.binary .sub l r s).outline =
          -1 + (total Node.visible l.outline + total Node.visible r.outline) := by
        simp [Expr.outline, Node.visible, hend]
      refine ⟨by omega, fun p ls hp => ?_⟩
      rw [hlex, hl.walk p _ hp, hlp, along_cons (q := .free) rfl, hr.walk .free ls (.inl rfl), hlc,
        ite_ite_none hll hrl, hvisible, hcarry, hplace]
      congr 1
      exact propext (by omega)
    · have hvisible : total Node.visible (Expr.binary op l r s).outline =
          total Node.visible l.outline + total Node.visible r.outline := by
        cases op <;> first | exact absurd rfl hsub | simp [Expr.outline, Node.visible]
      have hstep : operator.step (.punct q) = none := by
        cases op <;> cases hq <;> first | exact absurd rfl hsub | rfl
      refine ⟨by omega, fun p ls hp => ?_⟩
      rw [hlex, hl.walk p _ hp, hlp, along_cons_none hstep, ite_self, if_neg (by omega)]

theorem cast {t : Ident} {s : Span} (he : e.Marked) (hw : e.Written) (hb : e.isBinary = false) :
    (Expr.cast (some t) e s).Marked := by
  have hhead : ∀ (p : Place) (ls : List Lexeme), p = .free ∨ p = .operator →
      p.along (.punct .lparen :: .ident t.name :: .punct .rparen :: ls) = operand.along ls := by
    intro p ls hp
    rw [along_cons (step_of_startsExpr (hp.imp id .inr) rfl)]
    rfl
  have hvisible : total Node.visible (Expr.cast (some t) e s).outline = total Node.visible e.outline := by
    simp [Expr.outline, Node.visible]
  cases hbad : e.isBad with
  | true =>
    -- The mark is read as a comparison that an expression has to follow.
    obtain ⟨u, rfl⟩ : ∃ u, e = .bad u := by
      cases e with
      | bad u => exact ⟨u, rfl⟩
      | _ => cases hbad
    have hbad : total Node.visible (Expr.bad u).outline = 1 := rfl
    refine ⟨by rw [hvisible]; exact Int.le_refl 1, fun p ls hp => ?_⟩
    rw [hvisible]
    exact hhead p _ hp
  | false =>
    obtain ⟨l, ls, hls, hl⟩ := hw.starts hbad hb
    obtain ⟨hcarry, hplace⟩ : (Expr.cast (some t) e s).carry = e.carry ∧ (Expr.cast (some t) e s).place = e.place :=
      carry_eq (by simp [Expr.endsInHole, hbad])
    refine ⟨by rw [hcarry, hvisible]; exact he.le, fun p ms hp => ?_⟩
    have hfree : operand.along (e.lexemes ++ ms) = free.along (e.lexemes ++ ms) := by
      rw [hls, List.cons_append, along_cons (step_of_startsExpr (.inr (.inl rfl)) hl),
        along_cons (step_of_startsExpr (.inl rfl) hl)]
    rw [hcarry, hplace, hvisible, ← he.walk _ ms (.inl rfl), ← hfree]
    exact hhead p _ hp

end Expr.Marked

theorem shows_exprs {es : List Expr} (h : ∀ e ∈ es, e.Marked) :
    Shows (Lexeme.joined (.punct .comma) (es.map Expr.lexemes)) (total Node.visible (es.flatMap Expr.outline)) :=
  Shows.joined rfl rfl fun e he => (h e he).shows

theorem Expr.Written.marked {e : Expr} (he : e.Written) : e.Marked := by
  induction he with
  | bad =>
    refine ⟨Int.zero_le_ofNat 1, fun p ls hp => ?_⟩
    rcases hp with rfl | rfl <;> rfl
  | @bool v s =>
    refine .of_operand rfl (Int.le_refl 0) fun p ls hp => ?_
    cases v <;> exact along_cons (step_of_startsExpr hp rfl)
  | int _ | float _ | string _ _ =>
    exact .of_operand rfl (Int.le_refl 0) fun p ls hp => along_cons (step_of_startsExpr hp rfl)
  | varRef hn =>
    refine .of_operand rfl (by simp [Expr.outline, Node.visible]) fun p ls hp => ?_
    simpa [Expr.lexemes, Name.lexemes?, Expr.outline, Node.visible] using along_name hp hn ls
  | @list es s _ ih =>
    refine .enclosed [.punct .lbracket] .rbracket (shows_exprs ih) ?_ (by simp [Expr.lexemes]) rfl ?_ ⟨rfl, rfl⟩
    · simp [Expr.outline, Node.visible, Expr.outlines_eq]
    · exact fun p ls hp => along_cons (step_of_startsExpr hp rfl)
  | @comprehension x y z g s c _ _ _ _ ih =>
    refine .enclosed [.punct .lbracket, .ident x.name, .punct .pipe, .ident y.name, .punct .leftArrow, .ident z.name,
      .punct .comma] .rbracket ih.shows ?_ (by simp [Expr.lexemes, Ident.lexemes?, Generator.lexemes]) rfl ?_ ⟨rfl, rfl⟩
    · simp [Expr.outline, Generator.outline, Node.visible]
    · exact fun p ls hp => along_cons (step_of_startsExpr hp rfl)
  | not _ ih => exact ih.signed rfl ⟨rfl, rfl⟩ rfl (by simp [Expr.outline, Node.visible])
  | neg _ ih => exact ih.signed rfl ⟨rfl, rfl⟩ rfl (by simp [Expr.outline, Node.visible])
  | binary hop _ _ ihl ihr => exact .binary hop ihl ihr
  | @call n es s hn _ ih =>
    refine .enclosed (n.lexemes ++ [Lexeme.punct .lparen]) .rparen (shows_exprs ih) ?_
      (by simp [Expr.lexemes, Name.lexemes?]) rfl ?_ ⟨rfl, rfl⟩
    · simp [Expr.outline, Node.visible, Expr.outlines_eq]
    · intro p ls hp
      rw [List.append_assoc, along_name hp hn]
      rfl
  | @paren e s _ ih =>
    refine .enclosed [.punct .lparen] .rparen ih.shows ?_ (by simp [Expr.lexemes]) rfl ?_ ⟨rfl, rfl⟩
    · simp [Expr.outline, Node.visible]
    · exact fun p ls hp => along_cons (step_of_startsExpr hp rfl)
  | cast _ hw hb ih => exact .cast ih hw hb
  | @construct t is s _ hn _ ih =>
    have his : Shows (Lexeme.joined (.punct .comma) (is.map Initializer.lexemes))
        (total Node.visible (is.flatMap fun i => [i.outline])) :=
      Shows.joined rfl rfl fun i hi => Initializer.shows (hn i hi) (ih i hi)
    refine .enclosed [.keyword .new, .ident t.name, .punct .lparen] .rparen his ?_
      (by simp [Expr.lexemes, Ident.lexemes?]) rfl ?_ ⟨rfl, rfl⟩
    · simp [Expr.outline, Node.visible, Initializer.outlines_eq, List.map_eq_flatMap]
    · exact fun p ls hp => along_cons (step_of_startsExpr hp rfl)

end SemFront
