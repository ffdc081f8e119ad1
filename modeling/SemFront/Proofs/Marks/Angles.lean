/-
Where `<` and `>` may stand: between an operand and an expression, or around the element of a list type.
A walk along the lexemes of a text ends early where they stand elsewhere. So it does not pass the mark of
a placeholder, unless an operand comes before the mark and an expression behind it.
-/
import SemFront.Proofs.Grammar.Edit
import SemFront.Proofs.Tree.Lexemes

namespace SemFront

/-- What a walk has passed last. -/
inductive Place where
  | free
  | operand
  | operator
  | list
  | listOpen
  | listName
deriving DecidableEq, Repr

namespace Place

/-- What is passed last behind a token. -/
def behind : Kind → Place
  | .ident | .int | .float | .string | .keyword .true | .keyword .false => .operand
  | .punct .rparen | .punct .rbracket => .operand
  | .keyword .list => .list
  | _ => .free

/-- Whether a token is `<` or `>`. -/
def isAngle (k : Kind) : Bool := k = .punct .less || k = .punct .greater

/-- One token on, if it may stand there. -/
def step (p : Place) (k : Kind) : Option Place :=
  match p with
  | .free => if isAngle k then none else some (behind k)
  | .operand => if isAngle k then some .operator else some (behind k)
  | .operator => if k.startsExpr then some (behind k) else none
  | .list => if k = .punct .less then some .listOpen else if k = .punct .greater then none else some (behind k)
  | .listOpen => if k = .ident then some .listName else none
  | .listName => if k = .punct .greater ∨ k = .punct .greaterEqual then some .free else none

/-- A walk along some lexemes. -/
def along (p : Place) : List Lexeme → Option Place
  | [] => some p
  | l :: ls => (p.step l.kind).bind fun q => q.along ls

variable {p q : Place} {k : Kind} {l : Lexeme} {ls ms : List Lexeme}

theorem along_cons (h : p.step l.kind = some q) : p.along (l :: ls) = q.along ls := by
  rw [along, h]
  rfl

theorem along_cons_none (h : p.step l.kind = none) : p.along (l :: ls) = none := by
  rw [along, h]
  rfl

theorem isAngle_of_startsExpr (h : k.startsExpr = true) : isAngle k = false := by
  unfold isAngle
  simp only [Bool.or_eq_false_iff, decide_eq_false_iff_not]
  constructor <;> (rintro rfl; cases h)

/-- An expression may start at the beginning, behind an operand and behind an operator. -/
def Opens (p : Place) : Prop := p = .free ∨ p = .operand ∨ p = .operator

theorem step_of_startsExpr (hp : p.Opens) (hk : k.startsExpr = true) : p.step k = some (behind k) := by
  have ha := isAngle_of_startsExpr hk
  rcases hp with rfl | rfl | rfl
  · simp [step, ha]
  · simp [step, ha]
  · simp [step, hk]

/-- Whether a token ends any expression before it. -/
def isPlain (k : Kind) : Bool := !k.startsExpr && !isAngle k

theorem step_of_plain (hp : p = .free ∨ p = .operand ∨ p = .list) (hk : isPlain k = true) :
    p.step k = some (behind k) := by
  simp only [isPlain, Bool.and_eq_true, Bool.not_eq_true'] at hk
  rcases hp with rfl | rfl | rfl
  · simp [step, hk.2]
  · simp [step, hk.2]
  · have h := hk.2
    simp only [isAngle, Bool.or_eq_false_iff, decide_eq_false_iff_not] at h
    simp [step, h]

theorem step_operator_of_plain (hk : isPlain k = true) : operator.step k = none := by
  simp only [isPlain, Bool.and_eq_true, Bool.not_eq_true'] at hk
  simp [step, hk.1]

/-! ## Edited tokens -/

theorem exists_step (h : p.along (l :: ls) = some q) : ∃ m, p.step l.kind = some m ∧ m.along ls = some q := by
  rw [along] at h
  exact Option.bind_eq_some_iff.1 h

/-- Nothing matters of what comes before a closing brace. -/
theorem step_rbrace (h : p.step (.punct .rbrace) = some q) : q = .free := by
  cases p <;> simp [step, isAngle, behind, Kind.startsExpr] at h <;> exact h.symm

/-- A `>` in front of a `=` closes a list type. -/
theorem step_greater_assign (h : p.along (.punct .greater :: .punct .assign :: ls) = some q) :
    p = .listName ∧ free.along ls = some q := by
  obtain ⟨m, hm, hassign⟩ := exists_step h
  cases p <;> simp [step, isAngle, Lexeme.punct, Kind.startsExpr] at hm
  · subst hm
    rw [along_cons_none rfl] at hassign
    cases hassign
  · subst hm
    rw [along_cons (q := .free) rfl] at hassign
    exact ⟨rfl, hassign⟩

/-- A walk along edited tokens is one along the tokens as they are: a semicolon behind a body changes nothing, and
the `>=` that a list type ends with does as well as a `>` and a `=`. -/
theorem along_of_edit {a c : List Token} {B L : List Int} (h : Edit a ls c B L) (hc : c = []) :
    ∀ p q : Place, p.along ls = some q → p.along (a.map Token.lexeme) = some q := by
  have hkeep : ∀ (t : Token) {a : List Token} {ls : List Lexeme},
      (∀ p q : Place, p.along ls = some q → p.along (a.map Token.lexeme) = some q) →
      ∀ p q : Place, p.along (t.lexeme :: ls) = some q → p.along ((t :: a).map Token.lexeme) = some q := by
    intro t a ls ih p q hq
    obtain ⟨m, hm, hls⟩ := exists_step hq
    rw [List.map_cons, along_cons hm]
    exact ih m q hls
  induction h with
  | nil =>
    intro p q hq
    rw [hc]
    exact hq
  | keep t _ ih => exact hkeep t (ih hc)
  | list _ _ ih => exact hkeep _ (ih hc)
  | body _ _ _ ih => exact hkeep _ (ih hc)
  | split hk _ ih =>
    intro p q hq
    obtain ⟨rfl, hls⟩ := step_greater_assign hq
    rw [List.map_cons, along_cons (q := .free) (by simp [step, hk])]
    exact ih hc _ q hls
  | close hk _ _ ih =>
    intro p q hq
    obtain ⟨m, hm, hsemi⟩ := exists_step hq
    obtain rfl := step_rbrace (by rwa [Token.lexeme_kind, hk] at hm)
    rw [along_cons (q := .free) rfl] at hsemi
    rw [List.map_cons, along_cons hm]
    exact ih hc _ q hsemi

/-! ## Parts of a text -/

/-- A part that shows `n` placeholders: if there are none, a walk passes it and is free behind it. -/
structure Closed (ls : List Lexeme) (n : Int) : Prop where
  nonneg : 0 ≤ n
  walk : ∀ ms, free.along (ls ++ ms) = if n = 0 then free.along ms else none

/-- A part that shows `n` placeholders, if a token follows it that ends any expression. -/
structure Shows (ls : List Lexeme) (n : Int) : Prop where
  nonneg : 0 ≤ n
  walk : ∀ l ms, isPlain l.kind = true → free.along (ls ++ l :: ms) = if n = 0 then (behind l.kind).along ms else none

variable {as bs mid : List Lexeme} {m n : Int}

theorem Closed.of_walk (h : ∀ ms, free.along (ls ++ ms) = free.along ms) : Closed ls 0 :=
  ⟨Int.le_refl 0, fun ms => by rw [if_pos rfl, h]⟩

/-- Two parts show no more than they have to if both of them do. -/
theorem ite_ite_none {x : Option Place} {a b : Int} (hm : a ≤ m) (hn : b ≤ n) :
    (if m = a then if n = b then x else none else none) = if m + n = a + b then x else none := by
  by_cases h : m = a
  · subst h
    simp only [if_true, Int.add_right_inj]
  · rw [if_neg h, if_neg (by omega)]

theorem Closed.append (ha : Closed as m) (hb : Closed bs n) : Closed (as ++ bs) (m + n) := by
  refine ⟨Int.add_nonneg ha.nonneg hb.nonneg, fun ms => ?_⟩
  rw [List.append_assoc, ha.walk, hb.walk, ite_ite_none ha.nonneg hb.nonneg, Int.add_zero]

theorem Closed.append_shows (ha : Closed as m) (hb : Shows bs n) : Shows (as ++ bs) (m + n) := by
  refine ⟨Int.add_nonneg ha.nonneg hb.nonneg, fun l ms hl => ?_⟩
  rw [List.append_assoc, ha.walk, hb.walk l ms hl, ite_ite_none ha.nonneg hb.nonneg, Int.add_zero]

theorem shows_nil : Shows [] 0 := by
  refine ⟨Int.le_refl 0, fun l ms hl => ?_⟩
  rw [List.nil_append, along_cons (step_of_plain (.inl rfl) hl), if_pos rfl]

theorem Closed.shows (ha : Closed as m) : Shows as m := by
  simpa using ha.append_shows shows_nil

/-- A part with the tokens that end it. -/
theorem Shows.close (ha : Shows as n) (hl : isPlain l.kind = true)
    (hmid : ∀ ms, (behind l.kind).along (mid ++ ms) = free.along ms) : Closed (as ++ l :: mid) n := by
  refine ⟨ha.nonneg, fun ms => ?_⟩
  rw [List.append_assoc, List.cons_append, ha.walk l _ hl, hmid]

/-- The mark of a placeholder is never passed where nothing comes before it. -/
theorem shows_hole : Shows holeLexemes 1 := by
  refine ⟨by omega, fun l ms _ => ?_⟩
  rw [if_neg (by omega)]
  exact along_cons_none rfl

theorem shows_single (hk : free.step l.kind = some p) (hp : p = .free ∨ p = .operand ∨ p = .list) : Shows [l] 0 := by
  refine ⟨Int.le_refl 0, fun l' ms hl => ?_⟩
  rw [if_pos rfl, List.cons_append, List.nil_append, along_cons hk, along_cons (step_of_plain hp hl)]

theorem shows_ident (w : String) : Shows [.ident w] 0 := shows_single rfl (.inr (.inl rfl))

/-- Reserved words are segments of IRIs like any other word. -/
theorem shows_word (w : String) : Shows [.word w] 0 := by
  have hw : (Lexeme.word w).kind.isWord = true := Lexeme.word_isWord w
  cases hk : (Lexeme.word w).kind with
  | ident => exact shows_single (by rw [hk]; rfl) (.inr (.inl rfl))
  | keyword k =>
    rw [hk] at hw
    cases k <;> exact shows_single (by rw [hk]; rfl) (by decide)
  | _ =>
    rw [hk] at hw
    cases hw

end Place
end SemFront
