/-
Two layouts of the same tokens. A pairing puts the tokens of two sources side by side: the kinds and the
texts agree, the places do not. Values read from the two sources match if they differ in places only,
and if the places that reading depends on, those of tokens, names, expressions and declarations, start
and stop at tokens of the same index.
-/
import Mathlib.Data.List.Forall2
import Mathlib.Data.List.Pairwise
import SemFront.Grammar.Decl
import SemFront.Proofs.Token.Place
import SemFront.Proofs.Tree.Erase

namespace SemFront

/-! ## Pairs of tokens -/

/-- A token that starts before another one, and does not stop behind it. -/
def Token.Before (t u : Token) : Prop := t.span.start < u.span.start ∧ t.span.stop ≤ u.span.stop

/-- The significant tokens of two sources, side by side. -/
structure Pairing where
  tokens : List (Token × Token)
  eof : Token × Token
  lexemes : ∀ p ∈ tokens ++ [eof], p.1.lexeme = p.2.lexeme
  ordered : (tokens ++ [eof]).Pairwise fun p q => p.1.Before q.1 ∧ p.2.Before q.2

namespace Pairing

def all (P : Pairing) : List (Token × Token) := P.tokens ++ [P.eof]

/-- Tokens of different indices come in the same order in both layouts. -/
theorem eq_or_before (P : Pairing) {p q : Token × Token} (hp : p ∈ P.all) (hq : q ∈ P.all) :
    p = q ∨ (p.1.Before q.1 ∧ p.2.Before q.2) ∨ (q.1.Before p.1 ∧ q.2.Before p.2) := by
  refine List.Pairwise.forall_of_forall_of_flip (R := fun p q => p = q ∨ (p.1.Before q.1 ∧ p.2.Before q.2) ∨
    (q.1.Before p.1 ∧ q.2.Before p.2)) (fun _ _ => .inl rfl) (P.ordered.imp fun h => .inr (.inl h))
    (P.ordered.imp fun h => .inr (.inr h)) hp hq

end Pairing

/-! ## Values that match -/

/-- When values read from two layouts of the same tokens match. -/
class Matching (α : Type) where
  Matches : Pairing → α → α → Prop

open Matching (Matches)
open Rule (Section)

/-- Two values that match. -/
class Matched [Matching α] (P : Pairing) (a b : α) : Prop where
  matches_ : Matches P a b

/-- A pair of values that match, as one value: what holds for all such pairs is then found as an instance. -/
structure MatchedPair (P : Pairing) (α : Type) [Matching α] where
  left : α
  right : α
  matches_ : Matches P left right

variable {P : Pairing}

instance [Matching α] (p : MatchedPair P α) : Matched P p.left p.right := ⟨p.matches_⟩

/-- Values without places match if they are equal. -/
@[reducible] def Matching.equal : Matching α := ⟨fun _ a b => a = b⟩

instance : Matching Unit := .equal
instance : Matching Bool := .equal
instance : Matching String := .equal
instance : Matching Kind := .equal
instance : Matching Enclosure := .equal
instance : Matching Section := .equal

instance {u v : Unit} : Matched P u v := ⟨rfl⟩
instance {b : Bool} : Matched P b b := ⟨rfl⟩
instance {s : String} : Matched P s s := ⟨rfl⟩
instance {e : Enclosure} : Matched P e e := ⟨rfl⟩
instance {s : Section} : Matched P s s := ⟨rfl⟩

instance {n m : String} [h : Matched P n m] : Matched P (Enclosure.classBody n) (.classBody m) :=
  ⟨congrArg Enclosure.classBody h.matches_⟩

/-! ## Conditions -/

instance : Matching Prop := ⟨fun _ c d => c ↔ d⟩

section Conditions

variable {c d c' d' : Prop} {a b a' b' : Bool}

instance : Matched P c c := ⟨Iff.rfl⟩

instance [h : Matched P c d] : Matched P (¬ c) (¬ d) := ⟨not_congr h.matches_⟩

instance [h : Matched P a b] : Matched P (a = true) (b = true) := ⟨Iff.of_eq (congrArg (· = true) h.matches_)⟩

instance [Decidable c] [Decidable d] [h : Matched P c d] : Matched P (decide c) (decide d) :=
  ⟨decide_eq_decide.2 h.matches_⟩

instance [h : Matched P a b] : Matched P (!a) (!b) := ⟨congrArg Bool.not h.matches_⟩

instance [h : Matched P a b] [h' : Matched P a' b'] : Matched P (a && a') (b && b') :=
  ⟨congrArg₂ Bool.and h.matches_ h'.matches_⟩

instance [h : Matched P a b] [h' : Matched P a' b'] : Matched P (a || a') (b || b') :=
  ⟨congrArg₂ Bool.or h.matches_ h'.matches_⟩

instance {k l m : Kind} [h : Matched P k l] : Matched P (k = m) (l = m) := ⟨Iff.of_eq (congrArg (· = m) h.matches_)⟩

instance {k l m : Kind} [h : Matched P k l] : Matched P (k ≠ m) (l ≠ m) := ⟨Iff.of_eq (congrArg (· ≠ m) h.matches_)⟩

instance {k l : Kind} [h : Matched P k l] : Matched P k.isWord l.isWord := ⟨congrArg Kind.isWord h.matches_⟩

instance {k l : Kind} [h : Matched P k l] : Matched P k.startsExpr l.startsExpr := ⟨congrArg Kind.startsExpr h.matches_⟩

instance {k l : Kind} [h : Matched P k l] : Matched P k.startsDecl l.startsDecl := ⟨congrArg Kind.startsDecl h.matches_⟩

instance {s t u : Section} [h : Matched P s t] : Matched P (s = u) (t = u) := ⟨Iff.of_eq (congrArg (· = u) h.matches_)⟩

instance {s t u : Section} [h : Matched P s t] : Matched P (s ≠ u) (t ≠ u) := ⟨Iff.of_eq (congrArg (· ≠ u) h.matches_)⟩

instance ite [Matching α] [Decidable c] [Decidable d] {x y x' y' : α} [h : Matched P c d] [hx : Matched P x y]
    [hx' : Matched P x' y'] : Matched P (if c then x else x') (if d then y else y') := by
  by_cases hc : c
  · rw [if_pos hc, if_pos (h.matches_.1 hc)]
    exact hx
  · rw [if_neg hc, if_neg fun hd => hc (h.matches_.2 hd)]
    exact hx'

end Conditions

/-! ## Containers -/

section Containers

variable [Matching α] [Matching β] {a b : α} {c d : β}

instance : Matching (α × β) := ⟨fun P x y => Matches P x.1 y.1 ∧ Matches P x.2 y.2⟩

instance [h : Matched P a b] [h' : Matched P c d] : Matched P (a, c) (b, d) := ⟨h.matches_, h'.matches_⟩

instance {x y : α × β} [h : Matched P x y] : Matched P x.1 y.1 := ⟨h.matches_.1⟩

instance {x y : α × β} [h : Matched P x y] : Matched P x.2 y.2 := ⟨h.matches_.2⟩

instance : Matching (Option α) := ⟨fun P => Option.Rel (Matches P)⟩

instance : Matched P (none : Option α) none := ⟨.none⟩

instance [h : Matched P a b] : Matched P (some a) (some b) := ⟨.some h.matches_⟩

instance {x y : Option α} [h : Matched P x y] [h' : Matched P a b] : Matched P (x.getD a) (y.getD b) := by
  have hxy := h.matches_
  cases hxy with
  | some hab => exact ⟨hab⟩
  | none => exact h'

instance : Matching (α ⊕ β) := ⟨fun P => Sum.LiftRel (Matches P) (Matches P)⟩

instance [h : Matched P a b] : Matched P (.inl a : α ⊕ β) (.inl b) := ⟨.inl h.matches_⟩

instance [h : Matched P c d] : Matched P (.inr c : α ⊕ β) (.inr d) := ⟨.inr h.matches_⟩

instance : Matching (List α) := ⟨fun P => List.Forall₂ (Matches P)⟩

instance : Matched P ([] : List α) [] := ⟨.nil⟩

instance : Matching (Array α) := ⟨fun P xs ys => Matches P xs.toList ys.toList⟩

instance : Matched P (#[] : Array α) #[] := ⟨.nil⟩

instance [h : Matched P a b] : Matched P #[a] #[b] := ⟨.cons h.matches_ .nil⟩

instance {xs ys : Array α} [h : Matched P xs ys] : Matched P xs.toList ys.toList := ⟨h.matches_⟩

instance {xs ys : Array α} [h : Matched P xs ys] [h' : Matched P a b] : Matched P (xs.push a) (ys.push b) := by
  constructor
  show List.Forall₂ _ (xs.push a).toList (ys.push b).toList
  rw [Array.toList_push, Array.toList_push]
  exact List.rel_append h.matches_ (.cons h'.matches_ .nil)

/-- What values that match have in common, lists of them have in common. -/
theorem Matched.map_eq {f : α → γ} (hf : ∀ {a b : α}, Matches P a b → f a = f b) :
    ∀ {xs ys : List α}, Matches P xs ys → xs.map f = ys.map f
  | [], [], .nil => rfl
  | x :: xs, y :: ys, .cons h hs => by rw [List.map_cons, List.map_cons, hf h, Matched.map_eq hf hs]

theorem Matched.option_map_eq {f : α → γ} (hf : ∀ {a b : α}, Matches P a b → f a = f b) :
    ∀ {x y : Option α}, Matches P x y → x.map f = y.map f
  | none, none, .none => rfl
  | some a, some b, .some h => by rw [Option.map_some, Option.map_some, hf h]

end Containers

/-! ## Tokens and spans -/

instance : Matching Token := ⟨fun P t u => (t, u) ∈ P.all⟩

instance : Matching Span :=
  ⟨fun P s t => ∃ p ∈ P.all, ∃ q ∈ P.all, s = p.1.span.upTo q.1.span ∧ t = p.2.span.upTo q.2.span⟩

section Tokens

variable {t u t' u' : Token}

theorem Matched.lexeme [h : Matched P t u] : t.lexeme = u.lexeme := P.lexemes _ h.matches_

theorem Matched.kind [Matched P t u] : t.kind = u.kind := congrArg Lexeme.kind (Matched.lexeme (P := P))

instance [Matched P t u] : Matched P t.kind u.kind := ⟨Matched.kind (P := P)⟩

instance [Matched P t u] : Matched P t.raw u.raw := ⟨congrArg Lexeme.raw (Matched.lexeme (P := P))⟩

instance [Matched P t u] : Matched P t.literal u.literal := by
  refine ⟨?_⟩
  unfold Token.literal
  rw [Matched.kind (P := P) (u := u), show t.raw = u.raw from congrArg Lexeme.raw (Matched.lexeme (P := P))]
  rfl

/-- Whether two tokens are the same one does not depend on the layout. -/
theorem Matched.isSame (h : Matches P t u) (h' : Matches P t' u') : t.isSame t' = u.isSame u' := by
  unfold Token.isSame
  rcases P.eq_or_before h h' with e | ⟨h1, h2⟩ | ⟨h1, h2⟩
  · cases e
    simp
  · have h1 := Int.ne_of_lt h1.1
    have h2 := Int.ne_of_lt h2.1
    dsimp only at h1 h2
    simp [h1, h2]
  · have h1 := Int.ne_of_gt h1.1
    have h2 := Int.ne_of_gt h2.1
    dsimp only at h1 h2
    simp [h1, h2]

instance [h : Matched P t u] : Matched P t.span u.span := ⟨(t, u), h.matches_, (t, u), h.matches_, rfl, rfl⟩

end Tokens

section Spans

variable {s t s' t' : Span}

instance [h : Matched P s t] [h' : Matched P s' t'] : Matched P (s.through s') (t.through t') := by
  obtain ⟨p, hp, q, hq, rfl, rfl⟩ := h.matches_
  obtain ⟨p', _, q', hq', rfl, rfl⟩ := h'.matches_
  -- the later of the two tokens at the end is the later one in both layouts
  have hle : q.1.span.stop ≤ q'.1.span.stop ∧ q.2.span.stop ≤ q'.2.span.stop ∨
      q'.1.span.stop ≤ q.1.span.stop ∧ q'.2.span.stop ≤ q.2.span.stop := by
    rcases P.eq_or_before hq hq' with rfl | ⟨h1, h2⟩ | ⟨h1, h2⟩
    · exact .inl ⟨Int.le_refl _, Int.le_refl _⟩
    · exact .inl ⟨h1.2, h2.2⟩
    · exact .inr ⟨h1.2, h2.2⟩
  rcases hle with ⟨h1, h2⟩ | ⟨h1, h2⟩
  · refine ⟨p, hp, q', hq', ?_, ?_⟩ <;> simp only [Span.through, Span.upTo, Int.max_eq_right h1, Int.max_eq_right h2]
  · refine ⟨p, hp, q, hq, ?_, ?_⟩ <;> simp only [Span.through, Span.upTo, Int.max_eq_left h1, Int.max_eq_left h2]

/-- The order in which spans start does not depend on the layout. -/
theorem Matched.start_lt (h : Matches P s t) (h' : Matches P s' t') : s.start < s'.start ↔ t.start < t'.start := by
  obtain ⟨p, hp, q, hq, rfl, rfl⟩ := h
  obtain ⟨p', hp', q', hq', rfl, rfl⟩ := h'
  change p.1.span.start < p'.1.span.start ↔ p.2.span.start < p'.2.span.start
  rcases P.eq_or_before hp hp' with rfl | ⟨h1, h2⟩ | ⟨h1, h2⟩
  · exact iff_of_false (Int.lt_irrefl _) (Int.lt_irrefl _)
  · exact iff_of_true h1.1 h2.1
  · exact iff_of_false (Int.lt_asymm h1.1) (Int.lt_asymm h2.1)

theorem Matched.start_eq (h : Matches P s t) (h' : Matches P s' t') : s.start = s'.start ↔ t.start = t'.start := by
  have h1 := Matched.start_lt h h'
  have h2 := Matched.start_lt h' h
  omega

end Spans

/-! ## Trees -/

section Names

variable {i j : Ident}

/-- Identifiers match if they are written alike. -/
instance : Matching Ident := ⟨fun _ i j => i.name = j.name⟩

instance [h : Matched P i j] : Matched P i.name j.name := ⟨h.matches_⟩

instance {n m : String} {s t : Span} [h : Matched P n m] : Matched P (Ident.mk n s) (.mk m t) := ⟨h.matches_⟩

instance {t u : Token} [Matched P t u] : Matched P t.ident u.ident :=
  ⟨(inferInstance : Matched P t.literal u.literal).matches_⟩

theorem Matched.erase_ident (h : Matches P i j) : i.erase = j.erase := Ident.erase_eq h

/-- Names match if they are written alike and cover the same tokens. -/
instance : Matching Name := ⟨fun P n m => Matches P n.parts m.parts ∧ Matches P n.span m.span⟩

instance {is js : List Ident} {s t : Span} [h : Matched P is js] [h' : Matched P s t] :
    Matched P (Name.mk is s) (.mk js t) := ⟨h.matches_, h'.matches_⟩

instance {n m : Name} [h : Matched P n m] : Matched P n.span m.span := ⟨h.matches_.2⟩

theorem Matched.erase_name {n m : Name} (h : Matches P n m) : n.erase = m.erase := by
  unfold Name.erase
  rw [Matched.map_eq Matched.erase_ident h.1]

/-- Of IRIs with a host only the written form is used, and of other ones only the place. -/
instance : Matching AbsoluteIri := ⟨fun _ a b => a.erase = b.erase⟩

instance {i j k l : Option Ident} {is js ks ls : List Ident} {b c : Bool} {s t : Span} [hs : Matched P i j]
    [hd : Matched P is js] [hp : Matched P ks ls] [ht : Matched P b c] [hf : Matched P k l] :
    Matched P (AbsoluteIri.mk i is ks b k s) (.mk j js ls c l t) := by
  constructor
  show AbsoluteIri.erase _ = AbsoluteIri.erase _
  unfold AbsoluteIri.erase
  rw [Matched.option_map_eq Matched.erase_ident hs.matches_, Matched.map_eq Matched.erase_ident hd.matches_,
    Matched.map_eq Matched.erase_ident hp.matches_, show b = c from ht.matches_,
    Matched.option_map_eq Matched.erase_ident hf.matches_]

instance : Matching QName := ⟨fun P q q' => Matches P q.span q'.span⟩

instance {i j k l : Option Ident} {s t : Span} [h : Matched P s t] : Matched P (QName.mk i j s) (.mk k l t) :=
  ⟨h.matches_⟩

instance {q q' : QName} [h : Matched P q q'] : Matched P q.span q'.span := ⟨h.matches_⟩

inductive Iri.Matches (P : Pairing) : Iri → Iri → Prop where
  | qualified {q q' : QName} : Matching.Matches P q q' → Iri.Matches P (.qualified q) (.qualified q')
  | absolute {a b : AbsoluteIri} : Matching.Matches P a b → Iri.Matches P (.absolute a) (.absolute b)

instance : Matching Iri := ⟨Iri.Matches⟩

instance {q q' : QName} [h : Matched P q q'] : Matched P (Iri.qualified q) (.qualified q') := ⟨.qualified h.matches_⟩

instance {a b : AbsoluteIri} [h : Matched P a b] : Matched P (Iri.absolute a) (.absolute b) := ⟨.absolute h.matches_⟩

instance : Matching Generator := ⟨fun P g h => g.erase = h.erase ∧ Matches P g.span h.span⟩

instance {i j k l : Option Ident} {s t : Span} [hi : Matched P i j] [hk : Matched P k l] [h : Matched P s t] :
    Matched P (Generator.mk i k s) (.mk j l t) := by
  refine ⟨?_, h.matches_⟩
  unfold Generator.erase
  rw [Matched.option_map_eq Matched.erase_ident hi.matches_, Matched.option_map_eq Matched.erase_ident hk.matches_]

instance {g h : Generator} [m : Matched P g h] : Matched P g.span h.span := ⟨m.matches_.2⟩

end Names

/-! Expressions match if they are equal up to places and cover the same tokens. -/

instance : Matching Expr := ⟨fun P e f => e.erase = f.erase ∧ Matches P e.span f.span⟩

/-- Initializers match if they are equal up to places. -/
instance : Matching Initializer := ⟨fun _ i j => i.erase = j.erase⟩

section Expr

variable {e f e' f' : Expr} {i j : Option Ident} {n m : Option Name} {es fs : List Expr} {s t : Span}
  [hs : Matched P s t] [he : Matched P e f] [he' : Matched P e' f'] [hi : Matched P i j] [hn : Matched P n m]
  [hes : Matched P es fs]

instance : Matched P e.span f.span := ⟨he.matches_.2⟩

instance : Matched P (Expr.bad s) (.bad t) := ⟨rfl, hs.matches_⟩

instance {b : Bool} : Matched P (Expr.bool b s) (.bool b t) := ⟨rfl, hs.matches_⟩

instance {v w : String} [h : Matched P v w] : Matched P (Expr.int v s) (.int w t) :=
  ⟨congrArg (Expr.int · {}) h.matches_, hs.matches_⟩

instance {v w : String} [h : Matched P v w] : Matched P (Expr.float v s) (.float w t) :=
  ⟨congrArg (Expr.float · {}) h.matches_, hs.matches_⟩

instance {v w : String} {x y : Token} [h : Matched P v w] [h' : Matched P x y] :
    Matched P (Expr.string v x.raw.toList.head? s) (.string w y.raw.toList.head? t) :=
  ⟨congrArg₂ (fun v (r : String) => Expr.string v r.toList.head? {}) h.matches_
    (inferInstance : Matched P x.raw y.raw).matches_, hs.matches_⟩

instance : Matched P (Expr.list es s) (.list fs t) := by
  refine ⟨?_, hs.matches_⟩
  rw [Expr.erase, Expr.erase, Expr.eraseAll_eq, Expr.eraseAll_eq, Matched.map_eq And.left hes.matches_]

instance {g h : Option Generator} [hg : Matched P g h] :
    Matched P (Expr.comprehension i g e s) (.comprehension j h f t) := by
  refine ⟨?_, hs.matches_⟩
  rw [Expr.erase, Expr.erase, Matched.option_map_eq Matched.erase_ident hi.matches_,
    Matched.option_map_eq And.left hg.matches_, he.matches_.1]

instance : Matched P (Expr.varRef n s) (.varRef m t) := by
  refine ⟨?_, hs.matches_⟩
  rw [Expr.erase, Expr.erase, Matched.option_map_eq Matched.erase_name hn.matches_]

instance : Matched P (Expr.not e s) (.not f t) := ⟨congrArg (Expr.not · {}) he.matches_.1, hs.matches_⟩

instance : Matched P (Expr.neg e s) (.neg f t) := ⟨congrArg (Expr.neg · {}) he.matches_.1, hs.matches_⟩

instance : Matched P (Expr.paren e s) (.paren f t) := ⟨congrArg (Expr.paren · {}) he.matches_.1, hs.matches_⟩

instance {op : BinaryOp} : Matched P (Expr.binary op e e' s) (.binary op f f' t) :=
  ⟨congrArg₂ (Expr.binary op · · {}) he.matches_.1 he'.matches_.1, hs.matches_⟩

instance : Matched P (Expr.call n es s) (.call m fs t) := by
  refine ⟨?_, hs.matches_⟩
  rw [Expr.erase, Expr.erase, Expr.eraseAll_eq, Expr.eraseAll_eq, Matched.map_eq And.left hes.matches_,
    Matched.option_map_eq Matched.erase_name hn.matches_]

instance : Matched P (Expr.cast i e s) (.cast j f t) := by
  refine ⟨?_, hs.matches_⟩
  rw [Expr.erase, Expr.erase, Matched.option_map_eq Matched.erase_ident hi.matches_, he.matches_.1]

instance {is js : List Initializer} [h : Matched P is js] : Matched P (Expr.construct i is s) (.construct j js t) := by
  refine ⟨?_, hs.matches_⟩
  rw [Expr.erase, Expr.erase, Initializer.eraseAll_eq, Initializer.eraseAll_eq,
    Matched.option_map_eq Matched.erase_ident hi.matches_, Matched.map_eq id h.matches_]

omit hs in
instance : Matched P (Initializer.mk i e s) (.mk j f t) := by
  constructor
  show Initializer.erase _ = Initializer.erase _
  rw [Initializer.erase, Initializer.erase, Matched.option_map_eq Matched.erase_ident hi.matches_, he.matches_.1]

end Expr

/-! Statements, parameters, imports and aliases match if they are equal up to places. -/

instance : Matching TypeRef := ⟨fun _ a b => a.erase = b.erase⟩
instance : Matching Stmt := ⟨fun _ a b => a.erase = b.erase⟩
instance : Matching Block := ⟨fun _ a b => a.erase = b.erase⟩
instance : Matching Binding := ⟨fun _ a b => a.erase = b.erase⟩
instance : Matching Param := ⟨fun _ a b => a.erase = b.erase⟩
instance : Matching ModuleImport := ⟨fun _ a b => a.erase = b.erase⟩
instance : Matching Alias := ⟨fun _ a b => a.erase = b.erase⟩

section Stmt

variable {e f : Expr} {i j i' j' : Option Ident} {n m : Option Name} {b c b' c' : Block} {bs cs : List Binding}
  {s t : Span} [he : Matched P e f] [hi : Matched P i j] [hi' : Matched P i' j'] [hn : Matched P n m]
  [hb : Matched P b c] [hb' : Matched P b' c'] [hbs : Matched P bs cs]

instance {l k : Bool} [hl : Matched P l k] : Matched P (TypeRef.named i l s) (.named j k t) := by
  constructor
  show TypeRef.erase _ = TypeRef.erase _
  rw [TypeRef.erase, TypeRef.erase, Matched.option_map_eq Matched.erase_ident hi.matches_, show l = k from hl.matches_]

instance : Matched P (TypeRef.bad s) (.bad t) := ⟨rfl⟩

instance : Matched P (Stmt.ifElse e b b' s) (.ifElse f c c' t) := by
  constructor
  show Stmt.erase _ = Stmt.erase _
  rw [Stmt.erase, Stmt.erase, he.matches_.1, show b.erase = c.erase from hb.matches_,
    show b'.erase = c'.erase from hb'.matches_]

instance : Matched P (Stmt.whileLoop e b s) (.whileLoop f c t) := by
  constructor
  show Stmt.erase _ = Stmt.erase _
  rw [Stmt.erase, Stmt.erase, he.matches_.1, show b.erase = c.erase from hb.matches_]

instance : Matched P (Stmt.withBlock e b s) (.withBlock f c t) := by
  constructor
  show Stmt.erase _ = Stmt.erase _
  rw [Stmt.erase, Stmt.erase, he.matches_.1, show b.erase = c.erase from hb.matches_]

section VarDecl

variable {x y : Option TypeRef} [hx : Matched P x y]

instance : Matched P (Stmt.varDecl i x e s) (.varDecl j y f t) := by
  constructor
  show Stmt.erase _ = Stmt.erase _
  rw [Stmt.erase, Stmt.erase, Matched.option_map_eq Matched.erase_ident hi.matches_,
    Matched.option_map_eq id hx.matches_, he.matches_.1]

instance : Matched P (Stmt.varDecl i x .absent s) (.varDecl j y .absent t) := by
  constructor
  show Stmt.erase _ = Stmt.erase _
  rw [Stmt.erase, Stmt.erase, Matched.option_map_eq Matched.erase_ident hi.matches_,
    Matched.option_map_eq id hx.matches_]

end VarDecl

instance : Matched P (Stmt.assign n e s) (.assign m f t) := by
  constructor
  show Stmt.erase _ = Stmt.erase _
  rw [Stmt.erase, Stmt.erase, Matched.option_map_eq Matched.erase_name hn.matches_, he.matches_.1]

instance : Matched P (Stmt.ret e s) (.ret f t) := ⟨congrArg (Stmt.ret · {}) he.matches_.1⟩

instance : Matched P (Stmt.expr e s) (.expr f t) := ⟨congrArg (Stmt.expr · {}) he.matches_.1⟩

instance : Matched P (Stmt.bad s) (.bad t) := ⟨rfl⟩

instance : Matched P Block.absent .absent := ⟨rfl⟩

instance {ss ts : List Stmt} [h : Matched P ss ts] : Matched P (Block.mk ss s) (.mk ts t) := by
  constructor
  show Block.erase _ = Block.erase _
  rw [Block.erase, Block.erase, Stmt.eraseAll_eq, Stmt.eraseAll_eq, Matched.map_eq id h.matches_]

instance : Matched P (Binding.leaf i i' e s) (.leaf j j' f t) := by
  constructor
  show Binding.erase _ = Binding.erase _
  rw [Binding.erase, Binding.erase, Matched.option_map_eq Matched.erase_ident hi.matches_,
    Matched.option_map_eq Matched.erase_ident hi'.matches_, he.matches_.1]

instance : Matched P (Binding.leaf i i' .absent s) (.leaf j j' .absent t) := by
  constructor
  show Binding.erase _ = Binding.erase _
  rw [Binding.erase, Binding.erase, Matched.option_map_eq Matched.erase_ident hi.matches_,
    Matched.option_map_eq Matched.erase_ident hi'.matches_]

instance : Matched P (Binding.nested i i' .absent bs s) (.nested j j' .absent cs t) := by
  constructor
  show Binding.erase _ = Binding.erase _
  rw [Binding.erase, Binding.erase, Matched.option_map_eq Matched.erase_ident hi.matches_,
    Matched.option_map_eq Matched.erase_ident hi'.matches_, Binding.eraseAll_eq, Binding.eraseAll_eq,
    Matched.map_eq id hbs.matches_]

instance : Matched P (Param.simple i n e s) (.simple j m f t) := by
  constructor
  show Param.erase _ = Param.erase _
  rw [Param.erase, Param.erase, Matched.option_map_eq Matched.erase_ident hi.matches_,
    Matched.option_map_eq Matched.erase_name hn.matches_, he.matches_.1]

instance : Matched P (Param.simple i n .absent s) (.simple j m .absent t) := by
  constructor
  show Param.erase _ = Param.erase _
  rw [Param.erase, Param.erase, Matched.option_map_eq Matched.erase_ident hi.matches_,
    Matched.option_map_eq Matched.erase_name hn.matches_]

instance : Matched P (Param.destructuring i n bs s) (.destructuring j m cs t) := by
  constructor
  show Param.erase _ = Param.erase _
  rw [Param.erase, Param.erase, Matched.option_map_eq Matched.erase_ident hi.matches_,
    Matched.option_map_eq Matched.erase_name hn.matches_, Binding.eraseAll_eq, Binding.eraseAll_eq,
    Matched.map_eq id hbs.matches_]

instance : Matched P (Param.bad s) (.bad t) := ⟨rfl⟩

instance {is js : List Ident} [h : Matched P is js] : Matched P (ModuleImport.mk is s) (.mk js t) := by
  constructor
  show ModuleImport.erase _ = ModuleImport.erase _
  unfold ModuleImport.erase
  rw [Matched.map_eq Matched.erase_ident h.matches_]

instance {a b : Option AbsoluteIri} [h : Matched P a b] : Matched P (Alias.mk i a s) (.mk j b t) := by
  constructor
  show Alias.erase _ = Alias.erase _
  unfold Alias.erase
  rw [Matched.option_map_eq Matched.erase_ident hi.matches_, Matched.option_map_eq id h.matches_]

end Stmt

/-! Declarations are sorted by their places, so these have to match too. -/

instance : Matching PropertyDecl := ⟨fun P p q => p.erase = q.erase ∧ Matches P p.span q.span⟩

instance {i j k l : Option Ident} {s t : Span} [hi : Matched P i j] [hk : Matched P k l] [h : Matched P s t] :
    Matched P (PropertyDecl.mk i k s) (.mk j l t) := by
  refine ⟨?_, h.matches_⟩
  unfold PropertyDecl.erase
  rw [Matched.option_map_eq Matched.erase_ident hi.matches_, Matched.option_map_eq Matched.erase_ident hk.matches_]

instance : Matching FunctionDecl := ⟨fun P f g => f.erase = g.erase ∧ Matches P f.span g.span⟩

instance {n m : Option Name} {ps qs : List Param} {i j : Option Ident} {b c : Block} {s t : Span} [hn : Matched P n m]
    [hp : Matched P ps qs] [hi : Matched P i j] [hb : Matched P b c] [h : Matched P s t] :
    Matched P (FunctionDecl.mk n ps i b s) (.mk m qs j c t) := by
  refine ⟨?_, h.matches_⟩
  unfold FunctionDecl.erase
  rw [Matched.option_map_eq Matched.erase_name hn.matches_, Matched.map_eq id hp.matches_,
    Matched.option_map_eq Matched.erase_ident hi.matches_, show b.erase = c.erase from hb.matches_]

instance : Matching ClassDef where
  Matches P c d := Matches P c.name d.name ∧ Matches P c.properties d.properties ∧ Matches P c.methods d.methods ∧
    Matches P c.bad d.bad ∧ Matches P c.span d.span

instance {i j : Option Ident} {ps qs : List PropertyDecl} {fs gs : List FunctionDecl} {bs cs : List Span} {s t : Span}
    [hi : Matched P i j] [hp : Matched P ps qs] [hf : Matched P fs gs] [hb : Matched P bs cs] [h : Matched P s t] :
    Matched P (ClassDef.mk i ps fs bs s) (.mk j qs gs cs t) :=
  ⟨hi.matches_, hp.matches_, hf.matches_, hb.matches_, h.matches_⟩

theorem Matched.erase_class {c d : ClassDef} (h : Matches P c d) : c.erase = d.erase := by
  obtain ⟨hi, hp, hf, hb, -⟩ := h
  unfold ClassDef.erase
  rw [Matched.option_map_eq Matched.erase_ident hi, Matched.map_eq And.left hp, Matched.map_eq And.left hf,
    Matched.map_eq (fun _ => rfl) hb]

instance : Matching Program where
  Matches P p q := Matches P p.imports q.imports ∧ Matches P p.aliases q.aliases ∧ Matches P p.classes q.classes ∧
    Matches P p.functions q.functions ∧ Matches P p.bad q.bad

instance {is js : List ModuleImport} {as bs : List Alias} {cs ds : List ClassDef} {fs gs : List FunctionDecl}
    {xs ys : List Span} {s t : Span} [hi : Matched P is js] [ha : Matched P as bs] [hc : Matched P cs ds]
    [hf : Matched P fs gs] [hx : Matched P xs ys] : Matched P (Program.mk is as cs fs xs s) (.mk js bs ds gs ys t) :=
  ⟨hi.matches_, ha.matches_, hc.matches_, hf.matches_, hx.matches_⟩

theorem Matched.erase_program {p q : Program} (h : Matches P p q) : p.erase = q.erase := by
  obtain ⟨hi, ha, hc, hf, hb⟩ := h
  unfold Program.erase
  rw [Matched.map_eq id hi, Matched.map_eq id ha, Matched.map_eq Matched.erase_class hc, Matched.map_eq And.left hf,
    Matched.map_eq (fun _ => rfl) hb]

end SemFront
