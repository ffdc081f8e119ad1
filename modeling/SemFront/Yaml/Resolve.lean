/-
What scalars stand for. A plain scalar can be nothing, a truth value, a number or a date, by its
spelling; everything else is a text.
-/
import SemFront.Text.Timestamp
import SemFront.Yaml.Basic

namespace SemFront.Yaml

/-- What a scalar stands for. Of a fraction only the whole part matters; one without is too large or
no number. -/
inductive Meaning where
  | null
  | bool (b : Bool)
  | integer (n : Int)
  | fraction (whole : Option Int)
  | timestamp
  | merge
  | text
deriving DecidableEq, Repr

def Meaning.tag : Meaning → String
  | .null => "!!null"
  | .bool _ => "!!bool"
  | .integer _ => "!!int"
  | .fraction _ => "!!float"
  | .timestamp => "!!timestamp"
  | .merge => "!!merge"
  | .text => "!!str"

/-- The spellings with a meaning of their own. -/
def words : List (String × Meaning) :=
  (["", "~", "null", "Null", "NULL"].map fun s => (s, .null)) ++
  (["true", "True", "TRUE"].map fun s => (s, .bool true)) ++
  (["false", "False", "FALSE"].map fun s => (s, .bool false)) ++
  ([".nan", ".NaN", ".NAN", ".inf", ".Inf", ".INF", "+.inf", "+.Inf", "+.INF"].map fun s =>
    (s, .fraction none)) ++
  (["-.inf", "-.Inf", "-.INF"].map fun s => (s, .fraction (some (-(Text.Integer.signedLimit : Int)))))

/-- Words that are true where a truth value is expected. -/
def yesWords : List String := ["y", "Y", "yes", "Yes", "YES", "on", "On", "ON"]

/-- Words that are false where a truth value is expected. -/
def noWords : List String := ["n", "N", "no", "No", "NO", "off", "Off", "OFF"]

/-- A fraction, if it is not too large. -/
def fractionMeaning (s : String) : Meaning :=
  match (Text.Decimal.ofString? s).bind Text.Decimal.whole? with
  | some w => .fraction (some w)
  | none => .text

/-- The number behind `0b` or `0o`, which may have its sign there. -/
def behindBase : List Char → Option Int
  | '0' :: 'b' :: cs => (Text.Integer.inBase 2 cs).toOption
  | '0' :: 'o' :: cs => (Text.Integer.inBase 8 cs).toOption
  | _ => none

/-- A number that starts with a digit or a sign; underscores in it do not count. -/
def numberMeaning (s : String) : Meaning :=
  let plain := String.ofList (s.toList.filter (· ≠ '_'))
  match Text.Integer.based plain, Text.Integer.unsigned plain.toList, behindBase plain.toList with
  | .ok n, _, _ => .integer n
  | .error _, .ok n, _ => .integer n
  | .error _, .error _, some n => .integer n
  | .error _, .error _, none => fractionMeaning plain

/-- What a plain scalar stands for. -/
def meaningOfPlain (s : String) : Meaning :=
  match words.lookup s, s.toList with
  | some m, _ => m
  | none, c :: cs =>
    if c = '.' then
      if Text.Decimal.underscoresSeparate false cs then
        fractionMeaning (String.ofList ((c :: cs).filter (· ≠ '_')))
      else .text
    else if c = '+' || c = '-' || Text.Decimal.isDigit c then
      if Text.Timestamp.isTimestamp (c :: cs) then .timestamp else numberMeaning s
    else .text
  | none, [] => .null

/-- What a scalar stands for. -/
def meaning (quoted : Bool) (s : String) : Meaning :=
  if quoted then .text else if s = mergeSign then .merge else meaningOfPlain s

end SemFront.Yaml
