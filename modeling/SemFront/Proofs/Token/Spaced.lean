/-
Tokens written apart are scanned as they were. Every token was cut off in front of what followed it in its
source; written alone or in front of a space it is cut off in the same way, a character that no token starts
with included. Only an unterminated string would take what follows along, and nothing ever follows it. So
the texts of all tokens of a source, with one space between each two, are cut into the same tokens again,
with the same errors.
-/
import SemFront.Proofs.Token.Partition

namespace SemFront

open Munch

/-! ## In front of a space -/

/-- No token goes on with a space. -/
theorem Kind.meets_space (k : Kind) : k.meets ' ' = false := by
  have hname : continuesName ' ' = false := by decide
  cases k with
  | punct p => cases p <;> decide
  | keyword k => exact hname
  | _ => decide

theorem Kind.ends_space (k : Kind) {cs : List Char} (h : ∀ c ∈ cs.head?, c = ' ') : k.Ends cs := by
  intro c hc
  rw [h c hc]
  exact k.meets_space

theorem double?_of_single? {c : Char} (h : single? c = none) (d : Char) : double? c d = none := by
  unfold double?
  split <;> first | rfl | cases h

/-- A character that no token starts with is refused wherever it stands. -/
theorem first_of_refused {c : Char} {cs : List Char} (h : (first c cs).kind = .illegal) (hq : ¬ IsQuote c)
    (k : List Char) : first c k = ⟨.illegal, 1⟩ := by
  have hsingle : single? c = none := by
    cases hs : single? c with
    | none => rfl
    | some p => exact absurd h (first_reaches_single hs cs).1
  have hname : continuesName c = false := by
    by_contra hc
    have hc : continuesName c = true := by simpa using hc
    rw [first_of_continuesName hc] at h
    split at h
    · exact (@word_reaches c [] (List.forall_mem_nil _) cs).1 h
    · exact number_legal _ _ h
  have hminus : c ≠ '-' := by
    rintro rfl
    cases hsingle
  have hpunct : punct? c k = none := by
    unfold punct?
    cases k with
    | nil => simp [hsingle]
    | cons d k => simp [hsingle, double?_of_single? hsingle d]
  obtain ⟨hstart, hdigit⟩ : startsName c = false ∧ isDigit c = false := by
    simpa [continuesName] using hname
  unfold first
  rw [if_neg (by simp [startsNegative, hminus]), hpunct]
  dsimp only
  rw [if_neg (by simpa [IsQuote] using hq), hstart, hdigit]
  rfl

/-- A lexeme is cut off in front of a text. -/
def Lexeme.CutOff (l : Lexeme) (k : List Char) : Prop :=
  ∃ c cs, l.raw.toList = c :: cs ∧ Text.isBlank c = false ∧ first c (cs ++ k) = ⟨l.kind, l.raw.toList.length⟩

theorem Lexeme.CutOff.cuts {l : Lexeme} {k : List Char} {ls : List Lexeme} (hl : l.CutOff k) (h : Cuts k ls) :
    Cuts (l.raw.toList ++ k) (l :: ls) := by
  obtain ⟨c, cs, hr, hb, hf⟩ := hl
  have hdrop : (c :: (cs ++ k)).drop (first c (cs ++ k)).length = k := by
    rw [hf, ← List.cons_append, ← hr]
    exact List.drop_left
  have htake : (c :: (cs ++ k)).take (first c (cs ++ k)).length = l.raw.toList := by
    rw [hf, ← List.cons_append, ← hr]
    exact List.take_left
  have := @Cuts.token c (cs ++ k) ls hb (by rw [hdrop]; exact h)
  rw [htake, hf, String.ofList_toList] at this
  rw [hr]
  exact this

/-- What was cut off at the start of a text is cut off in the same way where nothing or a space follows it. An
unterminated string is alone. -/
theorem cutOff_first {c : Char} {cs k : List Char} (hb : Text.isBlank c = false) (hk : ∀ d ∈ k.head?, d = ' ')
    (hlast : (first c cs).kind = .illegal → IsQuote c → k = []) :
    Lexeme.CutOff ⟨(first c cs).kind, String.ofList ((c :: cs).take (first c cs).length)⟩ k := by
  have hfit := first_fits c cs
  obtain ⟨n, hn⟩ : ∃ n, (first c cs).length = n + 1 := Nat.exists_eq_succ_of_ne_zero (Nat.ne_of_gt hfit.pos)
  have hraw : (String.ofList ((c :: cs).take (first c cs).length)).toList = c :: cs.take n := by
    rw [String.toList_ofList, hn]
    rfl
  refine ⟨c, cs.take n, hraw, hb, ?_⟩
  by_cases hi : (first c cs).kind = .illegal
  · obtain ⟨hquote, hsingle⟩ := first_illegal hi
    by_cases hq : IsQuote c
    · obtain rfl : n = cs.length := Nat.succ.inj (hn.symm.trans (hquote hq))
      rw [hraw, hlast hi hq, List.append_nil, List.take_length]
      exact congrArg (Munch.mk _) hn
    · obtain rfl : n = 0 := Nat.succ.inj (hn.symm.trans (hsingle hq))
      rw [first_of_refused hi hq, hraw]
      exact congrArg (Munch.mk · 1) hi.symm
  · exact first_of_valid hfit.valid hi hraw (Kind.ends_space _ hk)

/-! ## Spaced lexemes -/

/-- The texts of some lexemes with a space between each two. -/
def Lexeme.spaced (ls : List Lexeme) : List Char := [' '].intercalate (ls.map fun l => l.raw.toList)

theorem Cuts.exists_of_text (cs : List Char) : ∃ ls, Cuts cs ls := by
  induction h : cs.length using Nat.strongRecOn generalizing cs with
  | ind n ih =>
    subst h
    cases cs with
    | nil => exact ⟨[], .nil⟩
    | cons c cs =>
      cases hb : Text.isBlank c with
      | true =>
        obtain ⟨ls, hls⟩ := ih cs.length (Nat.lt_succ_self _) cs rfl
        exact ⟨ls, .blank hb hls⟩
      | false =>
        have hpos := (first_fits c cs).pos
        have hlt : ((c :: cs).drop (first c cs).length).length < (c :: cs).length := by
          rw [List.length_drop, List.length_cons]
          omega
        obtain ⟨ls, hls⟩ := ih _ hlt _ rfl
        exact ⟨_ :: ls, .token hb hls⟩

theorem Cuts.not_eof {cs : List Char} {ls : List Lexeme} (h : Cuts cs ls) : ∀ l ∈ ls, l.kind ≠ .eof := by
  induction h with
  | nil => simp
  | blank _ _ ih => exact ih
  | @token c cs ls _ _ ih => exact List.forall_mem_cons.2 ⟨(first_fits c cs).kind, ih⟩

/-- The lexemes that a text is cut into are cut off again when they stand apart. -/
theorem Cuts.spaced {cs : List Char} {ls : List Lexeme} (h : Cuts cs ls) : Cuts (Lexeme.spaced ls) ls := by
  induction h with
  | nil => exact .nil
  | blank _ _ ih => exact ih
  | @token c cs ls hb h ih =>
    cases ls with
    | nil =>
      have hone := (@cutOff_first c cs [] hb (by simp) fun _ _ => rfl).cuts .nil
      rw [List.append_nil] at hone
      unfold Lexeme.spaced
      rwa [List.map_singleton, List.intercalate_singleton]
    | cons l ls =>
      -- an unterminated string would have left nothing to cut `l` from
      have hlegal : (first c cs).kind = .illegal → ¬ IsQuote c := by
        intro hi hq
        rw [(first_illegal hi).1 hq, ← List.length_cons (a := c), List.drop_length] at h
        cases h
      have hcut := @cutOff_first c cs (' ' :: Lexeme.spaced (l :: ls)) hb (by simp)
        fun hi hq => absurd hq (hlegal hi)
      have hmore := hcut.cuts (.blank (by decide) ih)
      unfold Lexeme.spaced at hmore ⊢
      rw [List.map_cons, List.map_cons, List.intercalate_cons_cons, List.append_assoc]
      exact hmore

/-! ## Spaced tokens -/

/-- The texts of some tokens with a space between each two. -/
def Token.spaced (ts : List Token) : String := " ".intercalate (ts.map Token.raw)

theorem Token.spaced_toList (ts : List Token) :
    (Token.spaced ts).toList = Lexeme.spaced (ts.map Token.lexeme) := by
  unfold Token.spaced Lexeme.spaced
  rw [String.toList_intercalate, List.map_map, List.map_map]
  rfl

/-- The scanner of a source behind its last token. -/
def Scanner.spent (file source : String) : Scanner :=
  (Scanner.ofSource file source).past (tokenize file source).length

theorem Scanner.spent_errors (file source : String) :
    (Scanner.spent file source).errors = lexicalErrors (tokenize file source) := by
  unfold Scanner.spent
  rw [tokenize_eq, Scanner.past_errors]
  rfl

/-- What is wrong with a token does not depend on its place. -/
theorem lexicalErrors_of_lexemes {ts us : List Token} (h : ts.map Token.lexeme = us.map Token.lexeme) :
    (lexicalErrors ts).map (fun e => (e.fault, e.message)) = (lexicalErrors us).map (fun e => (e.fault, e.message)) := by
  have key : ∀ vs : List Token, (lexicalErrors vs).map (fun e => (e.fault, e.message)) =
      (vs.map Token.lexeme).filterMap fun l =>
        (Token.error? ⟨l.kind, l.raw, {}⟩).map fun e => (e.fault, e.message) := by
    intro vs
    unfold lexicalErrors
    rw [List.map_filterMap, List.filterMap_map]
    congr 1
    funext t
    unfold Token.error? Token.lexeme
    dsimp only [Function.comp]
    split
    · rfl
    · split <;> rfl
  rw [key, key, h]

/-- Scanning the texts of the tokens of a source again, with one space between each two, gives the same kinds,
values and texts, the same errors but for their places, and the same answer to whether the rest was
swallowed. -/
theorem tokenize_spaced (file source file' : String) :
    let tokens := tokenize file source
    let apart := Token.spaced (tokens.takeWhile (·.kind ≠ .eof))
    (tokenize file' apart).map (fun t => (t.kind, t.literal, t.raw)) =
        tokens.map (fun t => (t.kind, t.literal, t.raw)) ∧
      (Scanner.spent file' apart).errors.map (fun e => (e.fault, e.message)) =
        (Scanner.spent file source).errors.map (fun e => (e.fault, e.message)) ∧
      (Scanner.spent file' apart).isFatal = (Scanner.spent file source).isFatal := by
  intro tokens apart
  obtain ⟨ls, hls⟩ := Cuts.exists_of_text source.toList
  have htokens : tokens.map Token.lexeme = ls ++ [Lexeme.eof] := hls.lexemes_tokenize
  have hbefore : (tokens.takeWhile (·.kind ≠ .eof)).map Token.lexeme = ls := by
    have hmap : (tokens.map Token.lexeme).takeWhile (·.kind ≠ .eof) = ls := by
      rw [htokens, List.takeWhile_append_of_pos fun l hl => by simpa using hls.not_eof l hl]
      exact List.append_nil ls
    rwa [List.takeWhile_map] at hmap
  have hcuts : Cuts apart.toList ls := by
    rw [Token.spaced_toList, hbefore]
    exact hls.spaced
  have hsame : (tokenize file' apart).map Token.lexeme = tokens.map Token.lexeme :=
    hcuts.lexemes_tokenize.trans htokens.symm
  have herrors := lexicalErrors_of_lexemes hsame
  rw [← Scanner.spent_errors, ← Scanner.spent_errors] at herrors
  refine ⟨?_, herrors, ?_⟩
  · have hview : (fun t : Token => (t.kind, t.literal, t.raw)) =
        (fun l : Lexeme => (l.kind, Token.literal ⟨l.kind, l.raw, {}⟩, l.raw)) ∘ Token.lexeme := rfl
    rw [hview, ← List.map_map, ← List.map_map, hsame]
  · have hfatal : ∀ s : Scanner, s.isFatal =
        (s.errors.map fun e => (e.fault, e.message)).any (·.1 = .unterminatedString) := by
      intro s
      rw [List.any_map]
      rfl
    rw [hfatal, hfatal, herrors]

end SemFront
