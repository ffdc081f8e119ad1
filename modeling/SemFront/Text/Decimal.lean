/-
Decimal fractions and the whole part of the nearest number with 53 binary digits.
-/
import SemFront.Text.Integer

namespace SemFront.Text

/-- The number `digits * 10 ^ exponent` with a sign. -/
structure Decimal where
  negative : Bool
  digits : Nat
  exponent : Int
deriving DecidableEq, Repr

namespace Decimal

def isDigit (c : Char) : Bool := '0' ≤ c && c ≤ '9'

/-- The number that decimal digits stand for. -/
def ofDigits (cs : List Char) : Nat := cs.foldl (fun n c => n * 10 + (c.toNat - '0'.toNat)) 0

/-- An exponent, or nothing at the end of the text. -/
def exponent? : List Char → Option Int
  | [] => some 0
  | c :: cs =>
    if c = 'e' || c = 'E' then
      let (negative, digits) := Integer.sign cs
      if digits ≠ [] && digits.all isDigit then
        some (if negative then -(ofDigits digits : Int) else ofDigits digits)
      else none
    else none

/-- A decimal fraction: digits, perhaps with a point among them, before or behind them, and perhaps
an exponent. -/
def ofString? (s : String) : Option Decimal :=
  let (negative, cs) := Integer.sign s.toList
  let whole := cs.takeWhile isDigit
  let rest := cs.dropWhile isDigit
  let fraction := if rest.head? = some '.' then (rest.drop 1).takeWhile isDigit else []
  let rest := if rest.head? = some '.' then (rest.drop 1).dropWhile isDigit else rest
  if whole = [] && fraction = [] then none
  else
    (exponent? rest).map fun e =>
      { negative, digits := ofDigits (whole ++ fraction), exponent := e - fraction.length }

/-- Whether every underscore stands between two digits; `before` tells whether a digit is in front. -/
def underscoresSeparate (before : Bool) : List Char → Bool
  | [] => true
  | c :: cs =>
    (c ≠ '_' || (before && cs.head?.any isDigit)) && underscoresSeparate (isDigit c) cs

/-- A power of two. -/
def binary (n : Nat) : Nat := Nat.pow 2 n

/-- A power of ten. -/
def decade (n : Nat) : Nat := Nat.pow 10 n

/-- A quotient rounded to the nearest whole number, from the middle to the even one. -/
def roundDiv (num den : Nat) : Nat :=
  let q := num / den
  let r := num % den
  if 2 * r < den then q else if den < 2 * r then q + 1 else if q % 2 = 0 then q else q + 1

/-- The whole part of the nearest binary number to `num / den`, where that has 53 digits. -/
def wholeOfNearest (num den : Nat) : Nat :=
  let guess : Int := (num.log2 : Int) - den.log2 - 52
  let scaled (e : Int) : Nat × Nat := (num * binary (-e).toNat, den * binary e.toNat)
  let (n, d) := scaled guess
  let e := if n / d < binary 52 then guess - 1 else guess
  let (n, d) := scaled e
  let m := roundDiv n d
  if 0 ≤ e then m * binary e.toNat else m / binary (-e).toNat

/-- The whole part of the nearest binary number; nothing if there is none that large. -/
def whole? (x : Decimal) : Option Int :=
  let size : Int := (toString x.digits).length + x.exponent
  if x.digits = 0 || size < -20 then some 0
  else if 310 < size then none
  else
    let w := wholeOfNearest (x.digits * decade x.exponent.toNat) (decade (-x.exponent).toNat)
    if binary 1024 ≤ w then none else some (if x.negative then -(w : Int) else w)

end Decimal
end SemFront.Text
