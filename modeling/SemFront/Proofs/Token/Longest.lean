/-
The next token is the longest one. Patterns tell what tokens look like: the spellings of punctuation,
names, whole numbers, numbers with a fraction, and strings. Where a text behind the white space matches a
pattern, scanning takes the longest text that does, with the kind of its pattern. Where none does, one
character is refused, or, from an opening quote on, all that is left.
-/
import SemFront.Proofs.Token.Scan

namespace SemFront

open Munch

/-! ## Patterns -/

/-- A letter or an underscore, then letters, digits and underscores. -/
def IsName (w : String) : Prop :=
  ∃ c cs, w.toList = c :: cs ∧ startsName c = true ∧ ∀ d ∈ cs, continuesName d = true

/-- What a token may look like. -/
inductive TokenPattern where
  | punct (p : Punct)
  | name
  | int
  | float
  | string

namespace TokenPattern

def Matches : TokenPattern → String → Prop
  | .punct p, w => w = p.text
  | .name, w => IsName w
  | .int, w => IsInt w
  | .float, w => IsFloat w
  | .string, w => IsString w

/-- The kind of a token whose text matches a pattern. Of the names, the lone underscore is punctuation
and a reserved word is a keyword. -/
def kind : TokenPattern → String → Kind
  | .punct p, _ => .punct p
  | .name, w => if w = "_" then .punct .underscore else .ofWord w
  | .int, _ => .int
  | .float, _ => .float
  | .string, _ => .string

theorem kind_legal (p : TokenPattern) (w : String) : p.kind w ≠ .illegal ∧ p.kind w ≠ .eof := by
  cases p with
  | name =>
    unfold kind Kind.ofWord
    dsimp only
    split
    · exact ⟨nofun, nofun⟩
    · split <;> exact ⟨nofun, nofun⟩
  | _ => exact ⟨nofun, nofun⟩

end TokenPattern

theorem isWord_of_isName {w : String} (h : IsName w) (hu : w ≠ "_") : IsWord w := by
  obtain ⟨c, cs, hw, hc, hcs⟩ := h
  refine ⟨c, cs, hw, hc, hcs, ?_⟩
  rintro ⟨rfl, rfl⟩
  exact hu (String.toList_inj.1 hw)

theorem isName_of_isWord {w : String} (h : IsWord w) : IsName w := by
  obtain ⟨c, cs, hw, hc, hcs, -⟩ := h
  exact ⟨c, cs, hw, hc, hcs⟩

namespace TokenPattern

variable {p : TokenPattern} {w : String}

/-- A text that matches a pattern is a valid lexeme of its kind. -/
theorem Matches.valid (h : p.Matches w) : Lexeme.Valid ⟨p.kind w, w⟩ := by
  cases p with
  | name =>
    unfold kind
    dsimp only
    split
    · rename_i hu
      exact hu
    · rename_i hu
      have hw := isWord_of_isName h hu
      unfold Kind.ofWord
      split
      · rename_i k hk
        exact (Keyword.text_of_ofText? hk).symm
      · rename_i hk
        exact ⟨hw, hk⟩
  | _ => exact h

/-- The text of a valid lexeme matches a pattern. -/
theorem exists_of_valid {l : Lexeme} (hl : l.Valid) (hi : l.kind ≠ .illegal) (he : l.kind ≠ .eof) :
    ∃ p : TokenPattern, p.Matches l.raw := by
  obtain ⟨kind, raw⟩ := l
  cases kind with
  | illegal => exact absurd rfl hi
  | eof => exact absurd rfl he
  | ident => exact ⟨.name, isName_of_isWord hl.1⟩
  | int => exact ⟨.int, hl⟩
  | float => exact ⟨.float, hl⟩
  | string => exact ⟨.string, hl⟩
  | punct p => exact ⟨.punct p, hl⟩
  | keyword k =>
    have hr : raw = k.text := hl
    subst hr
    exact ⟨.name, isName_of_isWord k.isWord_text⟩

theorem Matches.exists_cons (h : p.Matches w) : ∃ c cs, w.toList = c :: cs :=
  h.valid.exists_cons (p.kind_legal w).1 (p.kind_legal w).2

/-- All patterns that a text matches give it the same kind. -/
theorem Matches.kind_eq {l : Lexeme} (h : p.Matches l.raw) (hl : l.Valid) (hi : l.kind ≠ .illegal) :
    l.kind = p.kind l.raw := by
  -- scanning the text on its own gives either kind
  obtain ⟨c, cs, hr⟩ := h.exists_cons
  have h1 := first_of_valid hl hi hr (k := []) (by simp)
  have h2 := first_of_valid h.valid (p.kind_legal l.raw).1 hr (k := []) (by simp)
  exact congrArg Munch.kind (h1.symm.trans h2)

end TokenPattern

/-! ## No match is longer than the first token -/

/-- A munch that is a token and takes at least `n` characters. -/
def Munch.Reaches (m : Munch) (n : Nat) : Prop := m.kind ≠ .illegal ∧ n ≤ m.length

theorem length_le_digits {ds : List Char} (h : ∀ c ∈ ds, isDigit c = true) (k : List Char) :
    ds.length ≤ digits (ds ++ k) := by
  unfold digits
  rw [List.takeWhile_append_of_pos h, List.length_append]
  exact Nat.le_add_right _ _

theorem length_le_exponent {e : List Char} (he : IsExponent e) (k : List Char) : e.length ≤ exponent (e ++ k) := by
  rcases he with rfl | ⟨e, s, ds, rfl, he, hs, hds⟩
  · exact Nat.zero_le _
  · have h1 := length_le_digits hds.2 k
    have h2 := digits_pos (k := k) hds
    have h3 : (decide (e = 'e') || decide (e = 'E')) = true := by simpa using he
    have h4 : (decide (s = '+') || decide (s = '-')) = true := by simpa using hs
    simp only [List.cons_append, exponent, h3, h4, h2, decide_true, Bool.and_true, if_true, List.length_cons]
    omega

/-- Behind a point, the digits end where the exponent starts; without an exponent there may be more of them. -/
theorem length_le_fraction {fs e : List Char} (hfs : IsDigits fs) (he : IsExponent e) (k : List Char) :
    1 + fs.length + e.length ≤ fraction ('.' :: (fs ++ (e ++ k))) := by
  have hp := digits_pos (k := e ++ k) hfs
  change _ ≤ (if 0 < digits _ then 1 + digits _ + exponent (List.drop (digits _) _) else 0)
  rw [if_pos hp]
  rcases he with rfl | he
  · have := length_le_digits hfs.2 ([] ++ k)
    rw [List.length_nil]
    omega
  · have hd : digits (fs ++ (e ++ k)) = fs.length := by
      refine digits_append hfs.2 fun c hc => ?_
      obtain ⟨x, s, ds, rfl, hx, -, -⟩ := he
      obtain rfl : x = c := by simpa using hc
      rcases hx with rfl | rfl <;> decide
    have := length_le_exponent (.inr he) k
    rw [hd, List.drop_left]
    omega

theorem number_legal (sign : Nat) (cs : List Char) : (number sign cs).kind ≠ .illegal := by
  unfold number
  dsimp only
  split <;> exact nofun

theorem number_reaches_int {ds : List Char} (sign : Nat) (hds : IsDigits ds) (k : List Char) :
    (number sign (ds ++ k)).Reaches (sign + ds.length) := by
  refine ⟨number_legal _ _, ?_⟩
  have := length_le_digits hds.2 k
  unfold number
  dsimp only
  omega

theorem number_reaches_float {ds fs e : List Char} (sign : Nat) (hds : IsDigits ds) (hfs : IsDigits fs)
    (he : IsExponent e) (k : List Char) :
    (number sign (ds ++ '.' :: (fs ++ (e ++ k)))).Reaches (sign + (ds ++ '.' :: fs ++ e).length) := by
  refine ⟨number_legal _ _, ?_⟩
  have hd : digits (ds ++ '.' :: (fs ++ (e ++ k))) = ds.length := digits_append hds.2 fun c hc => by
    obtain rfl : '.' = c := by simpa using hc
    decide
  have := length_le_fraction hfs he k
  unfold number
  simp only [hd, List.drop_left, List.length_append, List.length_cons]
  omega

theorem word_reaches {c : Char} {cs : List Char} (h : ∀ d ∈ cs, continuesName d = true) (k : List Char) :
    (word c (cs ++ k)).Reaches (cs.length + 1) := by
  have hle : cs.length ≤ ((cs ++ k).takeWhile continuesName).length := by
    rw [List.takeWhile_append_of_pos h, List.length_append]
    exact Nat.le_add_right _ _
  unfold word
  dsimp only
  generalize (cs ++ k).takeWhile continuesName = tail at hle ⊢
  split
  · rename_i hu
    obtain ⟨-, rfl⟩ : c = '_' ∧ tail = [] := by simpa using hu
    exact ⟨nofun, Nat.succ_le_succ hle⟩
  · refine ⟨?_, by dsimp only; omega⟩
    unfold Kind.ofWord
    dsimp only
    split <;> exact nofun

/-- Where a punctuation mark of one character stands, no character is refused: a number, two characters or
the mark itself is taken. -/
theorem first_reaches_single {c : Char} {p : Punct} (h : single? c = some p) (cs : List Char) :
    (first c cs).Reaches 1 := by
  refine ⟨?_, (first_fits c cs).pos⟩
  unfold first
  split
  · exact number_legal _ _
  · unfold punct?
    cases cs.head?.bind (double? c) with
    | some q => exact nofun
    | none =>
      rw [h]
      exact nofun

theorem first_reaches_name {w : String} {k : List Char} {c : Char} {cs : List Char} (h : IsName w)
    (e : w.toList ++ k = c :: cs) : (first c cs).Reaches w.toList.length := by
  obtain ⟨d, ds, hw, hd, hds⟩ := h
  rw [hw, List.cons_append] at e
  obtain ⟨rfl, rfl⟩ := List.cons.inj e
  rw [first_of_continuesName (by simp [continuesName, hd]), if_pos hd, hw]
  exact word_reaches hds k

/-- A text at the start that matches a pattern is no longer than the first token. -/
theorem TokenPattern.Matches.first_reaches {p : TokenPattern} {w : String} {k : List Char} {c : Char} {cs : List Char}
    (h : p.Matches w) (e : w.toList ++ k = c :: cs) : (first c cs).Reaches w.toList.length := by
  cases p with
  | punct p =>
    have hw : w = p.text := h
    subst hw
    obtain ⟨c', hp, hs⟩ | ⟨c', d, hp, hd⟩ | rfl := p.text_cases
    · rw [hp] at e ⊢
      cases e
      exact first_reaches_single hs k
    · rw [hp] at e ⊢
      cases e
      change (first c (d :: k)).Reaches 2
      rw [first_double hd]
      exact ⟨nofun, Nat.le_refl 2⟩
    · -- an underscore may be the start of a longer name
      exact first_reaches_name ⟨'_', [], rfl, by decide, nofun⟩ e
  | name => exact first_reaches_name h e
  | int =>
    obtain ⟨sign, ds, hw, hs, hds⟩ : IsInt w := h
    rw [hw, List.append_assoc] at e
    rw [first_number hs hds e, hw, List.length_append]
    exact number_reaches_int sign.length hds k
  | float =>
    obtain ⟨sign, ds, fs, ex, hw, hs, hds, hfs, hex⟩ : IsFloat w := h
    have e' : sign ++ (ds ++ '.' :: (fs ++ (ex ++ k))) = c :: cs := by
      rw [← e, hw]
      simp
    have hlen : w.toList.length = sign.length + (ds ++ '.' :: fs ++ ex).length := by
      rw [hw, ← List.length_append]
      simp
    rw [first_number hs hds e', hlen]
    exact number_reaches_float sign.length hds hfs hex k
  | string =>
    obtain ⟨q, bs, hw, hq, hbs⟩ : IsString w := h
    rw [hw] at e ⊢
    simp only [List.cons_append, List.append_assoc, List.nil_append] at e
    obtain ⟨rfl, rfl⟩ := List.cons.inj e
    rw [first_string hq hbs]
    exact ⟨nofun, by simp⟩

/-! ## The longest match -/

/-- A text at the start of `cs` that matches a pattern, none longer does. -/
structure IsLongestMatch (cs : List Char) (w : String) : Prop where
  atStart : w.toList <+: cs
  matched : ∃ p : TokenPattern, p.Matches w
  longest : ∀ (p : TokenPattern) (v : String), v.toList <+: cs → p.Matches v → v.toList.length ≤ w.toList.length

/-- Some text at the start of `cs` matches a pattern. -/
def Matchable (cs : List Char) : Prop := ∃ (p : TokenPattern) (w : String), w.toList <+: cs ∧ p.Matches w

section First

variable {c : Char} {cs : List Char}

theorem matchable_iff : Matchable (c :: cs) ↔ (first c cs).kind ≠ .illegal := by
  constructor
  · rintro ⟨p, w, ⟨k, e⟩, h⟩
    exact (h.first_reaches e).1
  · intro hi
    have hfit := first_fits c cs
    obtain ⟨p, hp⟩ := TokenPattern.exists_of_valid hfit.valid hi hfit.kind
    refine ⟨p, _, ?_, hp⟩
    rw [String.toList_ofList]
    exact List.take_prefix _ _

/-- The first token is the longest match, with the kind of each pattern that it matches. -/
theorem first_longest (h : Matchable (c :: cs)) :
    IsLongestMatch (c :: cs) (String.ofList ((c :: cs).take (first c cs).length)) ∧
      ∀ p : TokenPattern, p.Matches (String.ofList ((c :: cs).take (first c cs).length)) →
        (first c cs).kind = p.kind (String.ofList ((c :: cs).take (first c cs).length)) := by
  have hi := matchable_iff.1 h
  have hfit := first_fits c cs
  refine ⟨⟨?_, TokenPattern.exists_of_valid hfit.valid hi hfit.kind, ?_⟩, fun p hp => hp.kind_eq hfit.valid hi⟩
  · rw [String.toList_ofList]
    exact List.take_prefix _ _
  · rintro p v ⟨k, e⟩ hv
    rw [String.toList_ofList, List.length_take, Nat.min_eq_left hfit.le]
    exact (hv.first_reaches e).2

theorem punct?_legal {m : Munch} (h : punct? c cs = some m) : m.kind ≠ .illegal := by
  unfold punct? at h
  split at h
  · cases h
    exact nofun
  · obtain ⟨p, -, rfl⟩ := Option.map_eq_some_iff.1 h
    exact nofun

theorem string_illegal {q : Char} : (string q cs).kind = .illegal → (string q cs).length = cs.length + 1 := by
  have hle : (cs.takeWhile (· ≠ q)).length ≤ cs.length := (List.takeWhile_prefix _).length_le
  unfold string
  dsimp only
  split
  · exact nofun
  · rename_i hb
    intro _
    dsimp only
    omega

/-- What is refused: from a quote on all that is left, otherwise one character. -/
theorem first_illegal : (first c cs).kind = .illegal →
    (IsQuote c → (first c cs).length = cs.length + 1) ∧ (¬ IsQuote c → (first c cs).length = 1) := by
  unfold first
  split
  · exact fun h => absurd h (number_legal _ _)
  · split
    · rename_i m hm
      exact fun h => absurd h (punct?_legal hm)
    · by_cases hq : IsQuote c
      · rw [if_pos (by simpa [IsQuote] using hq)]
        exact fun h => ⟨fun _ => string_illegal h, fun hn => absurd hq hn⟩
      · rw [if_neg (by simpa [IsQuote] using hq)]
        split
        · exact fun h => absurd h (@word_reaches c [] (List.forall_mem_nil _) cs).1
        · split
          · exact fun h => absurd h (number_legal _ _)
          · exact fun _ => ⟨fun h => absurd h hq, fun _ => rfl⟩

end First

/-! ## The next token -/

/-- A scanner records the error of the token that it passes. -/
theorem Scanner.next_errors (s : Scanner) : s.next.2.errors = s.errors ++ s.next.1.error?.toList := by
  unfold Scanner.next
  generalize hs : s.skipBlanks = s'
  have he : s'.errors = s.errors := by rw [← hs]; rfl
  dsimp only
  split
  · rw [Token.error?_of_eof (t := s'.tokenOf .eof 0) rfl, Option.toList_none, List.append_nil]
    exact he
  · rw [he]

namespace Scanner

/-- The next token is the longest match behind the white space. -/
structure Takes (s : Scanner) : Prop where
  longest : IsLongestMatch s.skipBlanks.rest s.next.1.raw
  kind : ∀ p : TokenPattern, p.Matches s.next.1.raw → s.next.1.kind = p.kind s.next.1.raw
  rest : s.next.1.raw.toList ++ s.next.2.rest = s.skipBlanks.rest
  errors : s.next.2.errors = s.errors

/-- The text behind the white space is refused: from a quote on all of it, and that is fatal, otherwise
its first character. -/
structure Refuses (s : Scanner) : Prop where
  kind : s.next.1.kind = .illegal
  rest : s.next.1.raw.toList ++ s.next.2.rest = s.skipBlanks.rest
  errors : ∃ e, s.next.2.errors = s.errors ++ [e]
  unterminated : ∀ q ∈ s.skipBlanks.rest.head?, IsQuote q →
    s.next.1.raw.toList = s.skipBlanks.rest ∧ s.next.2.isFatal = true
  single : ∀ c ∈ s.skipBlanks.rest.head?, ¬ IsQuote c →
    s.next.1.raw.toList = [c] ∧ s.next.2.isFatal = s.isFatal

variable (s : Scanner)

theorem next_first {c : Char} {cs : List Char} (h : s.skipBlanks.rest = c :: cs) :
    s.next.1.kind = (first c cs).kind ∧ s.next.1.raw = String.ofList ((c :: cs).take (first c cs).length) ∧
      s.next.1.raw.toList ++ s.next.2.rest = s.skipBlanks.rest := by
  rw [skipBlanks_rest] at h ⊢
  obtain ⟨hd, -⟩ | ⟨c', cs', hd, -, hl, hr, -⟩ := s.next_cases
  · cases h.symm.trans hd
  · obtain ⟨rfl, rfl⟩ := List.cons.inj (h.symm.trans hd)
    have hraw : s.next.1.raw = String.ofList ((c :: cs).take (first c cs).length) := congrArg Lexeme.raw hl
    refine ⟨congrArg Lexeme.kind hl, hraw, ?_⟩
    rw [hraw, String.toList_ofList, hr, List.take_append_drop, h]

theorem takes_of_matchable (h : Matchable s.skipBlanks.rest) : s.Takes := by
  cases hs : s.skipBlanks.rest with
  | nil =>
    rw [hs] at h
    obtain ⟨p, w, hw, hp⟩ := h
    obtain ⟨c, cs, hc⟩ := hp.exists_cons
    rw [hc, List.prefix_nil] at hw
    cases hw
  | cons c cs =>
    obtain ⟨hk, hraw, hrest⟩ := s.next_first hs
    rw [hs] at h
    obtain ⟨hlong, hkind⟩ := first_longest h
    rw [← hraw] at hlong hkind
    refine ⟨hs ▸ hlong, fun p hp => hk.trans (hkind p hp), hrest, ?_⟩
    rw [s.next_errors, Token.error?_of_legal (hk ▸ matchable_iff.1 h), Option.toList_none, List.append_nil]

theorem refuses_of_not_matchable (h : ¬ Matchable s.skipBlanks.rest) (hne : s.skipBlanks.rest ≠ []) : s.Refuses := by
  obtain ⟨c, cs, hs⟩ := List.exists_cons_of_ne_nil hne
  obtain ⟨hk, hraw, hrest⟩ := s.next_first hs
  rw [hs, matchable_iff, Decidable.not_not] at h
  rw [h] at hk
  obtain ⟨hquote, hsingle⟩ := first_illegal h
  obtain ⟨e, he, -, hfault⟩ := Token.error?_of_illegal hk
  have herr : s.next.2.errors = s.errors ++ [e] := by rw [s.next_errors, he, Option.toList_some]
  have hfatal : s.next.2.isFatal = (s.isFatal || decide (e.fault = .unterminatedString)) := by
    unfold isFatal
    rw [herr]
    simp
  have hhead : s.next.1.raw.toList.head? = some c := by
    obtain ⟨n, hn⟩ := Nat.exists_eq_succ_of_ne_zero (Nat.ne_of_gt (first_fits c cs).pos)
    rw [hraw, String.toList_ofList, hn]
    rfl
  refine ⟨hk, hrest, ⟨e, herr⟩, fun q hq hqq => ?_, fun d hd hdq => ?_⟩
  · rw [hs] at hq ⊢
    cases hq
    rw [hraw, String.toList_ofList, hquote hqq, hfatal, decide_eq_true (hfault.2 ⟨c, hhead, hqq⟩), Bool.or_true]
    exact ⟨List.take_length (l := c :: cs), rfl⟩
  · rw [hs] at hd
    cases hd
    have hnot : ¬ e.fault = .unterminatedString := by
      rw [hfault]
      rintro ⟨q, hq, hqq⟩
      rw [hhead] at hq
      cases hq
      exact hdq hqq
    rw [hraw, String.toList_ofList, hsingle hdq, hfatal, decide_eq_false hnot, Bool.or_false]
    exact ⟨rfl, rfl⟩

theorem refuses_of_illegal (h : s.next.1.kind = .illegal) : s.Refuses := by
  refine s.refuses_of_not_matchable (fun hm => ?_) (fun hs => ?_)
  · have htakes := s.takes_of_matchable hm
    obtain ⟨p, hp⟩ := htakes.longest.matched
    exact (p.kind_legal _).1 ((htakes.kind p hp).symm.trans h)
  · rw [skipBlanks_rest] at hs
    obtain ⟨-, hl⟩ | ⟨c, cs, hd, -⟩ := s.next_cases
    · cases h.symm.trans (congrArg Lexeme.kind hl)
    · cases hs.symm.trans hd

/-- Wherever a scanner stands, it takes the longest match behind the white space if there is one, and
refuses the text there if it is not at the end. -/
theorem next_longest : (Matchable s.skipBlanks.rest → s.Takes) ∧
    (¬ Matchable s.skipBlanks.rest → s.skipBlanks.rest ≠ [] → s.Refuses) :=
  ⟨s.takes_of_matchable, s.refuses_of_not_matchable⟩

/-- An exponent without digits is left behind a number, and a string without its second quote is refused. -/
theorem next_longest_broken :
    Matchable (ofText "\t1.5e+x").skipBlanks.rest ∧ (ofText "\t1.5e+x").Takes ∧
      ¬ Matchable (ofText " 'a\n;").skipBlanks.rest ∧ (ofText " 'a\n;").Refuses :=
  have h : Matchable (ofText "\t1.5e+x").skipBlanks.rest :=
    (@matchable_iff '1' ".5e+x".toList).2 (by decide)
  have h' : ¬ Matchable (ofText " 'a\n;").skipBlanks.rest :=
    fun hm => (@matchable_iff '\'' "a\n;".toList).1 hm (by decide)
  ⟨h, (next_longest _).1 h, h', (next_longest _).2 h' (by decide)⟩

end Scanner

end SemFront
