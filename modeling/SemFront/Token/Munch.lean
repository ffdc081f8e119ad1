/-
The first token of a text that starts with no white space: its kind and its length. The longest
match wins; a keyword wins over an identifier of the same length, and so does the lone underscore.
-/
import SemFront.Text.Letter
import SemFront.Token.Kind

namespace SemFront

/-- A kind and the number of characters that make the token. -/
structure Munch where
  kind : Kind
  length : Nat
deriving DecidableEq, Repr

namespace Munch

/-! ## Character classes -/

/-- A digit; literals have ASCII digits only. -/
def isDigit (c : Char) : Bool := '0' ≤ c && c ≤ '9'

/-- A character that may start an identifier. -/
def startsName (c : Char) : Bool := Text.isLetter c || c = '_'

/-- A character that may stand in an identifier. -/
def continuesName (c : Char) : Bool := startsName c || isDigit c

/-! ## Numbers -/

/-- The number of digits at the start. -/
def digits (cs : List Char) : Nat := (cs.takeWhile isDigit).length

/-- The length of an exponent at the start, 0 if one of its parts is missing. -/
def exponent : List Char → Nat
  | e :: sign :: cs =>
    if (e = 'e' || e = 'E') && (sign = '+' || sign = '-') && 0 < digits cs then 2 + digits cs else 0
  | _ => 0

/-- The length of a point with digits and an optional exponent at the start, 0 without digits. -/
def fraction : List Char → Nat
  | '.' :: cs => if 0 < digits cs then 1 + digits cs + exponent (cs.drop (digits cs)) else 0
  | _ => 0

/-- A number whose digits start after `sign` characters. -/
def number (sign : Nat) (cs : List Char) : Munch :=
  let whole := digits cs
  let tail := fraction (cs.drop whole)
  { kind := if tail = 0 then .int else .float, length := sign + whole + tail }

/-! ## Strings, words and punctuation -/

/-- A string after its opening quote; without a closing quote all the rest is no token. -/
def string (quote : Char) (cs : List Char) : Munch :=
  let body := (cs.takeWhile (· ≠ quote)).length
  if body < cs.length then { kind := .string, length := body + 2 }
  else { kind := .illegal, length := body + 1 }

/-- A word that starts with the given character. -/
def word (c : Char) (cs : List Char) : Munch :=
  let tail := cs.takeWhile continuesName
  if c = '_' && tail = [] then { kind := .punct .underscore, length := 1 }
  else { kind := .ofWord (String.ofList (c :: tail)), length := 1 + tail.length }

/-- Punctuation of two characters. -/
def double? : Char → Char → Option Punct
  | '&', '&' => some .andAnd
  | '|', '|' => some .orOr
  | '!', '=' => some .notEqual
  | '>', '=' => some .greaterEqual
  | '=', '=' => some .equals
  | '=', '>' => some .fatArrow
  | '<', '-' => some .leftArrow
  | '<', '=' => some .lessEqual
  | _, _ => none

/-- Punctuation of one character, the underscore apart. -/
def single? : Char → Option Punct
  | '&' => some .ampersand
  | '|' => some .pipe
  | '!' => some .bang
  | '>' => some .greater
  | '=' => some .assign
  | '<' => some .less
  | '-' => some .minus
  | '}' => some .rbrace
  | ']' => some .rbracket
  | ')' => some .rparen
  | ':' => some .colon
  | ',' => some .comma
  | '/' => some .slash
  | '.' => some .dot
  | '#' => some .hash
  | '{' => some .lbrace
  | '[' => some .lbracket
  | '(' => some .lparen
  | '%' => some .percent
  | '+' => some .plus
  | '^' => some .caret
  | '?' => some .question
  | ';' => some .semicolon
  | '*' => some .asterisk
  | _ => none

/-- Punctuation at the start: two characters if they make one token, otherwise one. -/
def punct? (c : Char) (cs : List Char) : Option Munch :=
  match cs.head?.bind (double? c) with
  | some p => some { kind := .punct p, length := 2 }
  | none => (single? c).map fun p => { kind := .punct p, length := 1 }

/-! ## The first token -/

/-- Whether a number with a minus sign starts here. -/
def startsNegative (c : Char) (cs : List Char) : Bool := c = '-' && 0 < digits cs

/-- The first token of a text. -/
def first (c : Char) (cs : List Char) : Munch :=
  if startsNegative c cs then number 1 cs
  else match punct? c cs with
    | some m => m
    | none =>
      if c = '"' || c = '\'' then string c cs
      else if startsName c then word c cs
      else if isDigit c then number 0 (c :: cs)
      else { kind := .illegal, length := 1 }

end Munch
end SemFront
