/-
The first token of a text. Two results: a valid lexeme is found again at the start of a text if the
character behind it does not go on with it, and what is found at the start of any text is a valid
lexeme of at least one character.
-/
import SemFront.Proofs.Token.Lexeme

namespace SemFront

open Munch

/-! ## Characters that go on with a token -/

/-- Whether a character directly behind a punctuation mark makes another token of the two. -/
def Punct.meets : Punct → Char → Bool
  | .ampersand, c => c = '&'
  | .pipe, c => c = '|'
  | .bang, c => c = '='
  | .greater, c => c = '='
  | .assign, c => c = '=' || c = '>'
  | .less, c => c = '-' || c = '='
  | .minus, c => isDigit c
  | .underscore, c => continuesName c
  | _, _ => false

/-- Whether a character directly behind a token of a kind may become part of it. -/
def Kind.meets : Kind → Char → Bool
  | .ident, c | .keyword _, c => continuesName c
  | .int, c | .float, c => continuesName c || c = '.'
  | .punct p, c => p.meets c
  | _, _ => false

/-- A text does not go on with a token of a kind. -/
def Kind.Ends (k : Kind) (cs : List Char) : Prop := ∀ c ∈ cs.head?, k.meets c = false

@[simp] theorem Kind.ends_nil (k : Kind) : k.Ends [] := by simp [Kind.Ends]

@[simp] theorem Kind.ends_cons (k : Kind) (c : Char) (cs : List Char) : k.Ends (c :: cs) ↔ k.meets c = false := by
  simp [Kind.Ends]

theorem Kind.Ends.of_head {k : Kind} {c : Char} {cs : List Char} (h : k.meets c = false) : k.Ends (c :: cs) :=
  (Kind.ends_cons k c cs).2 h

/-! ## Runs of characters -/

/-- The run of a class of characters ends with a text all of whose characters are in it if the text
behind it starts with none of them. -/
theorem takeWhile_append_of_ends {p : Char → Bool} {cs k : List Char} (hcs : ∀ c ∈ cs, p c = true)
    (hk : ∀ c ∈ k.head?, p c = false) : (cs ++ k).takeWhile p = cs := by
  rw [List.takeWhile_append_of_pos hcs]
  cases k with
  | nil => simp
  | cons c k =>
    have := hk c (by simp)
    simp [this]

theorem digits_append {ds k : List Char} (hds : ∀ c ∈ ds, isDigit c = true)
    (hk : ∀ c ∈ k.head?, isDigit c = false) : digits (ds ++ k) = ds.length := by
  unfold digits
  rw [takeWhile_append_of_ends hds hk]

theorem digits_pos {ds k : List Char} (hds : IsDigits ds) : 0 < digits (ds ++ k) := by
  obtain ⟨hne, hall⟩ := hds
  cases ds with
  | nil => exact absurd rfl hne
  | cons d ds =>
    have := hall d (by simp)
    simp [digits, this]

theorem isDigits_take_digits {cs : List Char} (h : 0 < digits cs) : IsDigits (cs.take (digits cs)) := by
  have e : cs.take (digits cs) = cs.takeWhile isDigit := (List.prefix_iff_eq_take.1 (List.takeWhile_prefix _)).symm
  rw [e]
  refine ⟨fun h0 => ?_, List.all_eq_true.1 List.all_takeWhile⟩
  unfold digits at h
  rw [h0] at h
  cases h

/-! ## Numbers -/

theorem continuesName_of_isDigit {c : Char} (h : isDigit c = true) : continuesName c = true := by
  unfold continuesName
  rw [h, Bool.or_true]

theorem isDigit_of_not_continuesName {c : Char} (h : continuesName c = false) : isDigit c = false := by
  cases hd : isDigit c
  · rfl
  · rw [continuesName_of_isDigit hd] at h; cases h

theorem exponent_of_ends {k : List Char} (hk : Kind.float.Ends k) : exponent k = 0 := by
  match k with
  | [] => rfl
  | [_] => rfl
  | e :: s :: k =>
    simp only [Kind.ends_cons, Kind.meets, Bool.or_eq_false_iff] at hk
    have he : e ≠ 'e' ∧ e ≠ 'E' := by
      constructor <;> (rintro rfl; revert hk; decide)
    simp [exponent, he.1, he.2]

theorem exponent_append {e k : List Char} (he : IsExponent e) (hk : Kind.float.Ends k) :
    exponent (e ++ k) = e.length := by
  rcases he with rfl | ⟨e, s, ds, rfl, he, hs, hds⟩
  · exact exponent_of_ends hk
  · have h1 : digits (ds ++ k) = ds.length := digits_append hds.2 fun c hc => by
      have := hk c hc
      simp only [Kind.meets, Bool.or_eq_false_iff] at this
      exact isDigit_of_not_continuesName this.1
    have h2 := digits_pos (k := k) hds
    have h3 : (decide (e = 'e') || decide (e = 'E')) = true := by simpa using he
    have h4 : (decide (s = '+') || decide (s = '-')) = true := by simpa using hs
    simp only [List.cons_append, exponent, h3, h4, h1] at h2 ⊢
    simp only [decide_true, Bool.and_true, h2, if_true, List.length_cons]
    omega

theorem fraction_of_ends {k : List Char} (hk : Kind.int.Ends k) : fraction k = 0 := by
  match k with
  | [] => rfl
  | c :: k =>
    simp only [Kind.ends_cons, Kind.meets, Bool.or_eq_false_iff, decide_eq_false_iff_not] at hk
    unfold fraction
    split
    · rename_i h
      exact absurd (List.cons.inj h).1 hk.2
    · rfl

theorem fraction_append {fs e k : List Char} (hfs : IsDigits fs) (he : IsExponent e)
    (hk : Kind.float.Ends k) : fraction ('.' :: (fs ++ (e ++ k))) = 1 + fs.length + e.length := by
  have hd : digits (fs ++ (e ++ k)) = fs.length := by
    refine digits_append hfs.2 fun c hc => ?_
    rcases he with rfl | ⟨x, s, ds, rfl, hx, -, -⟩
    · have := hk c hc
      simp only [Kind.meets, Bool.or_eq_false_iff] at this
      exact isDigit_of_not_continuesName this.1
    · obtain rfl : x = c := by simpa using hc
      rcases hx with rfl | rfl <;> decide
  have hp := digits_pos (k := e ++ k) hfs
  change (if 0 < digits _ then 1 + digits _ + exponent (List.drop (digits _) _) else 0) = _
  rw [if_pos hp, hd, List.drop_left, exponent_append he hk]

/-! ## Classes of first characters -/

theorem punct?_of_continuesName {c : Char} (h : continuesName c = true) (cs : List Char) : punct? c cs = none := by
  have h1 : single? c = none := by
    unfold single?
    split <;> first | rfl | (exfalso; revert h; decide)
  have h2 : ∀ d, double? c d = none := by
    intro d
    unfold double?
    split <;> first | rfl | (exfalso; revert h; decide)
  unfold punct?
  cases cs with
  | nil => simp [h1]
  | cons d cs => simp [h1, h2]

theorem ne_of_continuesName {c : Char} (h : continuesName c = true) : c ≠ '-' ∧ c ≠ '"' ∧ c ≠ '\'' := by
  refine ⟨?_, ?_, ?_⟩ <;> (rintro rfl; revert h; decide)

/-- A character of a word is looked at as a word or as a number, never as a sign, punctuation or a
quote. -/
theorem first_of_continuesName {c : Char} (h : continuesName c = true) (cs : List Char) :
    first c cs = if startsName c then word c cs else number 0 (c :: cs) := by
  obtain ⟨h1, h2, h3⟩ := ne_of_continuesName h
  unfold first
  rw [if_neg (by simp [startsNegative, h1]), punct?_of_continuesName h]
  simp only [h2, h3, decide_false, Bool.or_self, Bool.false_eq_true, if_false]
  split
  · rfl
  · rename_i hn
    have hd : isDigit c = true := by simpa [continuesName, hn] using h
    rw [if_pos hd]

theorem isAlpha_iff_toNat {c : Char} :
    c.isAlpha = true ↔ 65 ≤ c.toNat ∧ c.toNat ≤ 90 ∨ 97 ≤ c.toNat ∧ c.toNat ≤ 122 := by
  delta Char.isAlpha Char.isUpper Char.isLower
  simp [UInt32.le_iff_toNat_le, ← Char.toNat_val]

theorem startsName_of_isDigit {c : Char} (h : isDigit c = true) : startsName c = false := by
  simp only [isDigit, Bool.and_eq_true, decide_eq_true_eq] at h
  have h1 : c.toNat ≤ 57 := h.2
  have h2 : 48 ≤ c.toNat := h.1
  have h3 : c.isAlpha = false := by
    rw [Bool.eq_false_iff, Ne, isAlpha_iff_toNat]
    omega
  have h4 : c ≠ '_' := by rintro rfl; revert h1; decide
  unfold startsName Text.isLetter
  rw [if_pos (by omega), h3]
  simpa using h4

/-! ## Valid lexemes are found again -/

theorem first_word {c : Char} {cs k : List Char} (hc : startsName c = true)
    (hcs : ∀ d ∈ cs, continuesName d = true) (hu : ¬ (c = '_' ∧ cs = []))
    (hk : ∀ d ∈ k.head?, continuesName d = false) :
    first c (cs ++ k) = ⟨.ofWord (String.ofList (c :: cs)), (c :: cs).length⟩ := by
  have hcc : continuesName c = true := by simp [continuesName, hc]
  have ht := takeWhile_append_of_ends hcs hk
  rw [first_of_continuesName hcc, if_pos hc]
  unfold word
  rw [ht, if_neg (by simpa using hu)]
  simp [Nat.add_comm]

theorem number_int {ds k : List Char} (sign : Nat) (hds : IsDigits ds) (hk : Kind.int.Ends k) :
    number sign (ds ++ k) = ⟨.int, sign + ds.length⟩ := by
  have hd : digits (ds ++ k) = ds.length := digits_append hds.2 fun c hc => by
    have := hk c hc
    simp only [Kind.meets, Bool.or_eq_false_iff] at this
    exact isDigit_of_not_continuesName this.1
  unfold number
  simp only [hd, List.drop_left, fraction_of_ends hk, if_true, Nat.add_zero]

theorem number_float {ds fs e k : List Char} (sign : Nat) (hds : IsDigits ds) (hfs : IsDigits fs)
    (he : IsExponent e) (hk : Kind.float.Ends k) :
    number sign (ds ++ '.' :: (fs ++ (e ++ k))) = ⟨.float, sign + (ds ++ '.' :: fs ++ e).length⟩ := by
  have hd : digits (ds ++ '.' :: (fs ++ (e ++ k))) = ds.length := digits_append hds.2 fun c hc => by
    obtain rfl : '.' = c := by simpa using hc
    decide
  unfold number
  simp only [hd, List.drop_left, fraction_append hfs he hk]
  rw [if_neg (by omega)]
  simp only [List.length_append, List.length_cons]
  congr 1
  omega

/-- Digits behind an optional sign are looked at as a number. -/
theorem first_number {sign ds k : List Char} {c : Char} {cs : List Char} (hs : IsSign sign) (hds : IsDigits ds)
    (h : sign ++ (ds ++ k) = c :: cs) : first c cs = number sign.length (ds ++ k) := by
  rcases hs with rfl | rfl
  · obtain ⟨hne, hall⟩ := hds
    cases ds with
    | nil => exact absurd rfl hne
    | cons d ds =>
      obtain ⟨rfl, rfl⟩ : d = c ∧ ds ++ k = cs := by simpa using h
      have hd := hall d (by simp)
      rw [first_of_continuesName (continuesName_of_isDigit hd), startsName_of_isDigit hd]
      rfl
  · obtain ⟨rfl, rfl⟩ : '-' = c ∧ ds ++ k = cs := by simpa using h
    unfold first
    rw [if_pos (by simp [startsNegative, digits_pos hds])]
    rfl

theorem first_string {q : Char} {cs k : List Char} (hq : IsQuote q) (hcs : q ∉ cs) :
    first q (cs ++ q :: k) = ⟨.string, cs.length + 2⟩ := by
  have hp : punct? q (cs ++ q :: k) = none := by
    have h2 : ∀ d, double? q d = none := by
      intro d
      rcases hq with rfl | rfl <;> rfl
    have h1 : single? q = none := by rcases hq with rfl | rfl <;> rfl
    unfold punct?
    cases h : (cs ++ q :: k).head? with
    | none => simp [h1]
    | some d => simp [h1, h2]
  have ht : (cs ++ q :: k).takeWhile (· ≠ q) = cs :=
    takeWhile_append_of_ends (fun c hc => by simpa using ne_of_mem_of_not_mem hc hcs) (by simp)
  unfold first
  rw [if_neg (by rcases hq with rfl | rfl <;> simp [startsNegative]), hp]
  simp only
  rw [if_pos (by rcases hq with rfl | rfl <;> rfl)]
  unfold string
  rw [ht]
  simp

/-- Punctuation is one character, two, or the underscore. -/
theorem Punct.text_cases (p : Punct) :
    (∃ c, p.text.toList = [c] ∧ single? c = some p) ∨
      (∃ c d, p.text.toList = [c, d] ∧ double? c d = some p) ∨ p = .underscore := by
  cases p <;> first
    | exact .inl ⟨_, rfl, rfl⟩
    | exact .inr (.inl ⟨_, _, rfl, rfl⟩)
    | exact .inr (.inr rfl)

theorem Punct.not_double_of_meets {p : Punct} {c d : Char} (h : single? c = some p) (hd : p.meets d = false) :
    double? c d = none ∧ (c = '-' → isDigit d = false) := by
  unfold single? at h
  split at h <;> cases h <;> simp only [Punct.meets, Bool.or_eq_false_iff, decide_eq_false_iff_not] at hd
  all_goals
    refine ⟨?_, by first | exact fun _ => hd | exact fun e => absurd e (by decide)⟩
    unfold double?
    split <;> first | rfl | simp_all

theorem first_single {p : Punct} {c : Char} {k : List Char} (h : single? c = some p)
    (hk : (Kind.punct p).Ends k) : first c k = ⟨.punct p, 1⟩ := by
  cases k with
  | nil => simp [first, startsNegative, digits, punct?, h]
  | cons d k =>
    obtain ⟨h2, hm⟩ := Punct.not_double_of_meets h ((Kind.ends_cons _ d k).1 hk)
    have hn : startsNegative c (d :: k) = false := by
      by_cases hc : c = '-'
      · simp [startsNegative, digits, hm hc]
      · simp [startsNegative, hc]
    simp [first, hn, punct?, h2, h]

theorem first_double {p : Punct} {c d : Char} {k : List Char} (h : double? c d = some p) :
    first c (d :: k) = ⟨.punct p, 2⟩ := by
  have hn : startsNegative c (d :: k) = false := by
    have hc : c ≠ '-' := by rintro rfl; simp [double?] at h
    simp [startsNegative, hc]
  simp [first, hn, punct?, h]

theorem first_punct {p : Punct} {c : Char} {cs k : List Char} (h : p.text.toList = c :: cs)
    (hk : (Kind.punct p).Ends k) : first c (cs ++ k) = ⟨.punct p, (c :: cs).length⟩ := by
  obtain ⟨c', hp, hs⟩ | ⟨c', d, hp, hd⟩ | rfl := p.text_cases
  · rw [hp] at h
    cases h
    exact first_single hs hk
  · rw [hp] at h
    cases h
    exact first_double hd
  · cases h.symm.trans (show Punct.underscore.text.toList = ['_'] by decide)
    have ht : k.takeWhile continuesName = [] := @takeWhile_append_of_ends _ [] k (by simp) hk
    rw [List.nil_append, first_of_continuesName (by decide), if_pos (by decide)]
    simp [word, ht]

/-- A valid lexeme that a text starts with, and that what follows does not go on with, is the first
token of the text. -/
theorem first_of_valid {l : Lexeme} {c : Char} {cs k : List Char} (hl : l.Valid) (hi : l.kind ≠ .illegal)
    (h : l.raw.toList = c :: cs) (hk : l.kind.Ends k) : first c (cs ++ k) = ⟨l.kind, l.raw.toList.length⟩ := by
  obtain ⟨kind, raw⟩ := l
  simp only at h hk hi ⊢
  rw [h]
  cases kind with
  | illegal => exact absurd rfl hi
  | eof =>
    have hr : raw = "" := hl
    rw [hr] at h
    cases h
  | ident =>
    obtain ⟨⟨c', cs', h', hc, hcs, hu⟩, hkw⟩ : IsIdent raw := hl
    cases h.symm.trans h'
    rw [first_word hc hcs hu hk, ← h, String.ofList_toList, Kind.ofWord, hkw]
  | keyword kw =>
    have hr : raw = kw.text := hl
    obtain ⟨c', cs', h', hc, hcs, hu⟩ := kw.isWord_text
    rw [← hr] at h'
    cases h.symm.trans h'
    rw [first_word hc hcs hu hk, ← h, String.ofList_toList, Kind.ofWord, hr, Keyword.ofText?_text]
  | int =>
    obtain ⟨sign, ds, h', hs, hds⟩ : IsInt raw := hl
    have e := h.symm.trans h'
    rw [first_number hs hds (k := k) (by rw [← List.append_assoc, ← e]; rfl), number_int _ hds hk,
      ← List.length_append, ← e]
  | float =>
    obtain ⟨sign, ds, fs, ex, h', hs, hds, hfs, hex⟩ : IsFloat raw := hl
    have e := h.symm.trans h'
    rw [first_number hs hds (k := '.' :: (fs ++ (ex ++ k))) (by change _ = c :: cs ++ k; rw [e]; simp),
      number_float _ hds hfs hex hk, ← List.length_append, e]
    simp
  | string =>
    obtain ⟨q, bs, h', hq, hbs⟩ : IsString raw := hl
    obtain ⟨rfl, rfl⟩ := List.cons.inj (h.symm.trans h')
    change first c (bs ++ [c] ++ k) = _
    rw [List.append_assoc, List.singleton_append, first_string hq hbs]
    simp
  | punct p =>
    have hr : raw = p.text := hl
    rw [hr] at h
    exact first_punct h hk

/-! ## What is found is valid -/

/-- A munch of a text is valid: it takes at least one character and no more than there are, is not
the end of the input, and is a valid lexeme. -/
structure Munch.Fits (m : Munch) (cs : List Char) : Prop where
  pos : 0 < m.length
  le : m.length ≤ cs.length
  kind : m.kind ≠ .eof
  valid : Lexeme.Valid ⟨m.kind, String.ofList (cs.take m.length)⟩

theorem punct?_fits {c : Char} {cs : List Char} {m : Munch} (h : punct? c cs = some m) : m.Fits (c :: cs) := by
  have h1 : ∀ {c p}, single? c = some p → p.text = String.ofList [c] := by
    intro c p h
    unfold single? at h
    split at h <;> cases h <;> rfl
  have h2 : ∀ {c d p}, double? c d = some p → p.text = String.ofList [c, d] := by
    intro c d p h
    unfold double? at h
    split at h <;> cases h <;> rfl
  unfold punct? at h
  split at h
  · rename_i p hp
    cases h
    cases cs with
    | nil => cases hp
    | cons d cs => exact ⟨by simp, by simp, by simp, (h2 hp).symm⟩
  · obtain ⟨p, hp, rfl⟩ := Option.map_eq_some_iff.1 h
    exact ⟨by simp, by simp, by simp, (h1 hp).symm⟩

theorem digits_le (cs : List Char) : digits cs ≤ cs.length := (List.takeWhile_prefix _).length_le

theorem exponent_fits (cs : List Char) : exponent cs ≤ cs.length ∧ IsExponent (cs.take (exponent cs)) := by
  unfold exponent
  split
  · rename_i e s cs
    split
    · rename_i h
      simp only [Bool.and_eq_true, Bool.or_eq_true, decide_eq_true_eq] at h
      have := digits_le cs
      refine ⟨by simp; omega, .inr ⟨e, s, cs.take (digits cs), ?_, h.1.1, h.1.2, isDigits_take_digits h.2⟩⟩
      rw [Nat.add_comm]; rfl
    · exact ⟨by simp, .inl rfl⟩
  · exact ⟨by simp, .inl rfl⟩

/-- A fraction that is found is a point, digits and an exponent. -/
theorem fraction_fits {cs : List Char} (h : fraction cs ≠ 0) :
    fraction cs ≤ cs.length ∧ ∃ fs e, cs.take (fraction cs) = '.' :: fs ++ e ∧ IsDigits fs ∧ IsExponent e := by
  revert h
  unfold fraction
  split
  · rename_i cs
    split
    · rename_i hd
      intro _
      have hle := digits_le cs
      obtain ⟨h1, h2⟩ := exponent_fits (cs.drop (digits cs))
      rw [List.length_drop] at h1
      refine ⟨by simp; omega, cs.take (digits cs), (cs.drop (digits cs)).take (exponent (cs.drop (digits cs))),
        ?_, isDigits_take_digits hd, h2⟩
      rw [Nat.add_assoc, Nat.add_comm 1, List.take_succ_cons, List.take_add, List.cons_append]
    · exact fun h => absurd rfl h
  · exact fun h => absurd rfl h

theorem number_fits {sign cs : List Char} (hs : IsSign sign) (h : 0 < digits cs) :
    (number sign.length cs).Fits (sign ++ cs) := by
  have hle := digits_le cs
  by_cases hf : fraction (cs.drop (digits cs)) = 0
  · have e : number sign.length cs = ⟨.int, sign.length + digits cs⟩ := by simp [number, hf]
    rw [e]
    refine ⟨by simp; omega, by simpa using hle, by simp, sign, cs.take (digits cs), ?_, hs, isDigits_take_digits h⟩
    rw [String.toList_ofList, List.take_length_add_append]
  · obtain ⟨h1, fs, ex, h2, hfs, hex⟩ := fraction_fits hf
    rw [List.length_drop] at h1
    have e : number sign.length cs =
        ⟨.float, sign.length + (digits cs + fraction (cs.drop (digits cs)))⟩ := by
      simp [number, hf, Nat.add_assoc]
    rw [e]
    refine ⟨by simp; omega, by simp; omega, by simp,
      sign, cs.take (digits cs), fs, ex, ?_, hs, isDigits_take_digits h, hfs, hex⟩
    rw [String.toList_ofList, List.take_length_add_append, List.take_add, h2]
    simp

theorem exists_of_takeWhile_lt {p : Char → Bool} {cs : List Char} (h : (cs.takeWhile p).length < cs.length) :
    ∃ c k, cs = cs.takeWhile p ++ c :: k ∧ p c = false := by
  induction cs with
  | nil => cases h
  | cons c cs ih =>
    cases hc : p c with
    | false => exact ⟨c, cs, by simp [hc], hc⟩
    | true =>
      rw [List.takeWhile_cons_of_pos hc] at h ⊢
      obtain ⟨d, k, e, hd⟩ := ih (by simpa using h)
      exact ⟨d, k, by rw [List.cons_append, ← e], hd⟩

theorem string_fits {q : Char} {cs : List Char} (hq : IsQuote q) : (string q cs).Fits (q :: cs) := by
  have hq' : q ∉ cs.takeWhile (· ≠ q) := fun hm => by
    simpa using List.all_eq_true.1 (List.all_takeWhile (p := (· ≠ q)) (l := cs)) q hm
  have hle : (cs.takeWhile (· ≠ q)).length ≤ cs.length := (List.takeWhile_prefix _).length_le
  have hsplit := @exists_of_takeWhile_lt (· ≠ q) cs
  unfold string
  dsimp only
  generalize cs.takeWhile (· ≠ q) = body at hq' hle hsplit ⊢
  split
  · rename_i hlt
    obtain ⟨c, k, rfl, hc⟩ := hsplit hlt
    obtain rfl : c = q := by simpa using hc
    refine ⟨by simp, by simp, by simp, c, body, ?_, hq, hq'⟩
    rw [String.toList_ofList, List.take_succ_cons, List.take_length_add_append]
    rfl
  · exact ⟨by simp, by simpa using hle, by simp, trivial⟩

theorem word_fits {c : Char} {cs : List Char} (hc : startsName c = true) : (word c cs).Fits (c :: cs) := by
  have hall : ∀ d ∈ cs.takeWhile continuesName, continuesName d = true := List.all_eq_true.1 List.all_takeWhile
  have htake := List.prefix_iff_eq_take.1 (List.takeWhile_prefix continuesName (l := cs))
  have hle : (cs.takeWhile continuesName).length ≤ cs.length := (List.takeWhile_prefix _).length_le
  unfold word
  dsimp only
  generalize cs.takeWhile continuesName = tail at hall htake hle ⊢
  split
  · rename_i h
    simp only [Bool.and_eq_true, decide_eq_true_eq] at h
    obtain ⟨rfl, -⟩ := h
    exact ⟨by simp, by simp, by simp, rfl⟩
  · rename_i h
    have hw : IsWord (String.ofList (c :: tail)) := ⟨c, tail, by simp, hc, hall, by simpa using h⟩
    have hpos : 0 < 1 + tail.length := by omega
    have hfit : 1 + tail.length ≤ (c :: cs).length := by rw [List.length_cons]; omega
    refine ⟨hpos, hfit, ?_, ?_⟩
    · unfold Kind.ofWord
      dsimp only
      split <;> simp
    · rw [Nat.add_comm, List.take_succ_cons, ← htake]
      unfold Kind.ofWord Lexeme.Valid
      split
      all_goals rename_i heq; split at heq <;> cases heq
      · rename_i hk
        exact ⟨hw, hk⟩
      · rename_i hk
        exact (Keyword.text_of_ofText? hk).symm

/-- The first token of any text fits it. -/
theorem first_fits (c : Char) (cs : List Char) : (first c cs).Fits (c :: cs) := by
  unfold first
  split
  · rename_i h
    simp only [startsNegative, Bool.and_eq_true, decide_eq_true_eq] at h
    obtain ⟨rfl, hd⟩ := h
    exact @number_fits ['-'] cs (.inr rfl) hd
  · split
    · rename_i m hm
      exact punct?_fits hm
    · split
      · rename_i hq
        exact string_fits (by simpa [IsQuote] using hq)
      · split
        · rename_i hc
          exact word_fits hc
        · split
          · rename_i hd
            exact @number_fits [] (c :: cs) (.inl rfl) (by simp [digits, hd])
          · exact ⟨by simp, by simp, by simp, trivial⟩

end SemFront
