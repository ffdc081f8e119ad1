/-
Lexemes: tokens without their places, and the patterns that their texts follow. A lexeme is valid
if its text is one that its kind may have: a word, a number or a string that matches its pattern, or
the one spelling of a keyword or of punctuation.
-/
import SemFront.Token.Basic
import SemFront.Token.Munch

namespace SemFront

open Munch

/-- The kind and the text of a token. -/
structure Lexeme where
  kind : Kind
  raw : String
deriving DecidableEq, Repr

def Token.lexeme (t : Token) : Lexeme := { kind := t.kind, raw := t.raw }

@[simp] theorem Token.lexeme_kind (t : Token) : t.lexeme.kind = t.kind := rfl

@[simp] theorem Token.lexeme_raw (t : Token) : t.lexeme.raw = t.raw := rfl

namespace Lexeme

def punct (p : Punct) : Lexeme := { kind := .punct p, raw := p.text }

def keyword (k : Keyword) : Lexeme := { kind := .keyword k, raw := k.text }

def ident (name : String) : Lexeme := { kind := .ident, raw := name }

/-- An identifier or a keyword. -/
def word (w : String) : Lexeme := { kind := .ofWord w, raw := w }

def int (text : String) : Lexeme := { kind := .int, raw := text }

def float (text : String) : Lexeme := { kind := .float, raw := text }

def string (quote : Char) (value : String) : Lexeme :=
  { kind := .string, raw := quote.toString ++ value ++ quote.toString }

def eof : Lexeme := { kind := .eof, raw := "" }

end Lexeme

/-! ## Patterns -/

/-- A letter or an underscore, then letters, digits and underscores; the lone underscore is
punctuation. -/
def IsWord (w : String) : Prop :=
  ∃ c cs, w.toList = c :: cs ∧ startsName c = true ∧ (∀ d ∈ cs, continuesName d = true) ∧
    ¬ (c = '_' ∧ cs = [])

theorem isWord_iff {w : String} {c : Char} {cs : List Char} (h : w.toList = c :: cs) :
    IsWord w ↔ startsName c = true ∧ cs.all continuesName = true ∧ ¬ (c = '_' ∧ cs = []) := by
  rw [List.all_eq_true]
  constructor
  · rintro ⟨c', cs', h', hw⟩
    obtain ⟨rfl, rfl⟩ := List.cons.inj (h.symm.trans h')
    exact hw
  · exact fun hw => ⟨c, cs, h, hw⟩

instance (w : String) : Decidable (IsWord w) :=
  match h : w.toList with
  | [] => .isFalse fun ⟨_, _, h', _⟩ => List.cons_ne_nil _ _ (h'.symm.trans h)
  | _ :: _ => decidable_of_iff _ (isWord_iff h).symm

/-- A word that is not reserved. -/
def IsIdent (w : String) : Prop := IsWord w ∧ Keyword.ofText? w = none

instance (w : String) : Decidable (IsIdent w) := inferInstanceAs (Decidable (_ ∧ _))

/-- One or more digits. -/
def IsDigits (cs : List Char) : Prop := cs ≠ [] ∧ ∀ c ∈ cs, isDigit c = true

/-- A minus sign or nothing. -/
def IsSign (cs : List Char) : Prop := cs = [] ∨ cs = ['-']

/-- An optional sign and digits. -/
def IsInt (s : String) : Prop := ∃ sign ds, s.toList = sign ++ ds ∧ IsSign sign ∧ IsDigits ds

/-- An exponent with its sign and digits, or nothing. -/
def IsExponent (cs : List Char) : Prop :=
  cs = [] ∨ ∃ e sign ds, cs = e :: sign :: ds ∧ (e = 'e' ∨ e = 'E') ∧ (sign = '+' ∨ sign = '-') ∧ IsDigits ds

/-- An optional sign, digits, a point, digits and an optional exponent. -/
def IsFloat (s : String) : Prop :=
  ∃ sign whole frac exp, s.toList = sign ++ whole ++ '.' :: frac ++ exp ∧
    IsSign sign ∧ IsDigits whole ∧ IsDigits frac ∧ IsExponent exp

/-- One of the two quotes. -/
def IsQuote (q : Char) : Prop := q = '"' ∨ q = '\''

/-- A text between two equal quotes that do not occur in it. -/
def IsString (s : String) : Prop := ∃ q cs, s.toList = q :: cs ++ [q] ∧ IsQuote q ∧ q ∉ cs

/-- The text of a lexeme is one of its kind. Text that is no token has none to follow. -/
def Lexeme.Valid (l : Lexeme) : Prop :=
  match l.kind with
  | .illegal => True
  | .eof => l.raw = ""
  | .ident => IsIdent l.raw
  | .int => IsInt l.raw
  | .float => IsFloat l.raw
  | .string => IsString l.raw
  | .punct p => l.raw = p.text
  | .keyword k => l.raw = k.text

/-! ## Words and keywords -/

theorem Kind.ofWord_of_isIdent {w : String} (h : IsIdent w) : Kind.ofWord w = .ident := by
  unfold Kind.ofWord
  rw [h.2]

theorem Lexeme.word_of_isIdent {w : String} (h : IsIdent w) : Lexeme.word w = .ident w := by
  unfold Lexeme.word Lexeme.ident
  rw [Kind.ofWord_of_isIdent h]

theorem Keyword.ofText?_text (k : Keyword) : Keyword.ofText? k.text = some k := by
  cases k <;> decide

theorem Keyword.text_of_ofText? {w : String} {k : Keyword} (h : Keyword.ofText? w = some k) : k.text = w := by
  unfold Keyword.ofText? at h
  simpa using List.find?_some h

theorem Lexeme.word_keyword (k : Keyword) : Lexeme.word k.text = .keyword k := by
  unfold Lexeme.word Lexeme.keyword Kind.ofWord
  rw [Keyword.ofText?_text]

theorem Keyword.isWord_text (k : Keyword) : IsWord k.text := by
  cases k <;> exact (isWord_iff rfl).2 (by decide)

/-- A valid lexeme of the kind of a word is a word and spelled as one. -/
theorem Lexeme.Valid.word {l : Lexeme} (h : l.Valid) (hk : l.kind.isWord = true) :
    IsWord l.raw ∧ l = .word l.raw := by
  obtain ⟨kind, raw⟩ := l
  cases kind with
  | ident =>
    have h' : IsIdent raw := h
    exact ⟨h'.1, (word_of_isIdent h').symm⟩
  | keyword k =>
    have h' : raw = k.text := h
    subst h'
    exact ⟨k.isWord_text, (word_keyword k).symm⟩
  | illegal => cases hk
  | eof => cases hk
  | int => cases hk
  | float => cases hk
  | string => cases hk
  | punct p => cases hk

theorem Lexeme.word_isWord (w : String) : (Lexeme.word w).kind.isWord = true := by
  unfold Lexeme.word Kind.ofWord
  dsimp only
  split <;> rfl

theorem Lexeme.Valid.punct {l : Lexeme} {p : Punct} (h : l.Valid) (hk : l.kind = .punct p) : l = .punct p := by
  obtain ⟨kind, raw⟩ := l
  cases hk
  have h' : raw = p.text := h
  rw [h']; rfl

theorem Lexeme.Valid.keyword {l : Lexeme} {k : Keyword} (h : l.Valid) (hk : l.kind = .keyword k) :
    l = .keyword k := by
  obtain ⟨kind, raw⟩ := l
  cases hk
  have h' : raw = k.text := h
  rw [h']; rfl

theorem Lexeme.Valid.ident {l : Lexeme} (h : l.Valid) (hk : l.kind = .ident) :
    IsIdent l.raw ∧ l = .ident l.raw := by
  obtain ⟨kind, raw⟩ := l
  cases hk
  exact ⟨h, rfl⟩

theorem Lexeme.Valid.int {l : Lexeme} (h : l.Valid) (hk : l.kind = .int) : IsInt l.raw ∧ l = .int l.raw := by
  obtain ⟨kind, raw⟩ := l
  cases hk
  exact ⟨h, rfl⟩

theorem Lexeme.Valid.float {l : Lexeme} (h : l.Valid) (hk : l.kind = .float) :
    IsFloat l.raw ∧ l = .float l.raw := by
  obtain ⟨kind, raw⟩ := l
  cases hk
  exact ⟨h, rfl⟩

/-! ## Strings -/

theorem isString_string {q : Char} {v : String} (hq : IsQuote q) (hv : q ∉ v.toList) :
    IsString (Lexeme.string q v).raw := by
  refine ⟨q, v.toList, ?_, hq, hv⟩
  simp [Lexeme.string]

/-- The value of a string token with its quote is the token's text. -/
theorem Token.lexeme_string {t : Token} (h : t.lexeme.Valid) (hk : t.kind = .string) :
    ∃ q, t.raw.toList.head? = some q ∧ IsQuote q ∧ q ∉ t.literal.toList ∧ t.lexeme = .string q t.literal := by
  obtain ⟨kind, raw, span⟩ := t
  cases hk
  obtain ⟨q, cs, hr, hq, hcs⟩ : IsString raw := h
  have hl : (Token.literal ⟨.string, raw, span⟩).toList = cs := by
    simp [Token.literal, hr]
  refine ⟨q, by simp [hr], hq, by rw [hl]; exact hcs, ?_⟩
  unfold Token.lexeme Lexeme.string
  congr 1
  rw [← String.toList_inj]
  simp [hl, hr]

theorem Token.string_of_lexeme {t : Token} {q : Char} {v : String} (h : t.lexeme = .string q v) :
    t.kind = .string ∧ t.literal = v ∧ t.raw.toList.head? = some q := by
  have hk : t.kind = .string := congrArg Lexeme.kind h
  have hr : t.raw.toList = q :: (v.toList ++ [q]) := by
    rw [show t.raw = _ from congrArg Lexeme.raw h]
    simp [Lexeme.string]
  refine ⟨hk, ?_, by rw [hr]; rfl⟩
  rw [Token.literal, if_pos hk, hr, List.tail_cons, List.dropLast_concat, String.ofList_toList]

end SemFront
