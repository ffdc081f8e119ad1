/-
Whole numbers from texts, within 64 bits. In plain decimal there are a sign and digits only. With a
base, a leading zero, `0o`, `0b` or `0x` chooses it, and an underscore may stand between digits.
-/
namespace SemFront.Text

/-- Why a text is no number. -/
inductive IntegerFault where
  | malformed
  | outOfRange
deriving DecidableEq, Repr

def IntegerFault.message : IntegerFault → String
  | .malformed => "invalid syntax"
  | .outOfRange => "value out of range"

namespace Integer

/-- The first number that is too large for 64 bits with a sign. -/
def signedLimit : Nat := 0x8000000000000000

/-- The first number that is too large for 64 bits without a sign. -/
def unsignedLimit : Nat := 0x10000000000000000

/-- The value of a digit or letter. -/
def digit? (c : Char) : Option Nat :=
  if '0' ≤ c && c ≤ '9' then some (c.toNat - '0'.toNat)
  else if 'a' ≤ c && c ≤ 'z' then some (c.toNat - 'a'.toNat + 10)
  else if 'A' ≤ c && c ≤ 'Z' then some (c.toNat - 'A'.toNat + 10)
  else none

/-- The number that digits stand for behind others. It ends where the number leaves 64 bits. -/
def magnitude (base : Nat) (underscores : Bool) : Nat → List Char → Except IntegerFault Nat
  | n, [] => .ok n
  | n, c :: cs =>
    if underscores && c = '_' then magnitude base underscores n cs
    else
      match digit? c with
      | none => .error .malformed
      | some d =>
        if base ≤ d then .error .malformed
        else if unsignedLimit ≤ n * base + d then .error .outOfRange
        else magnitude base underscores (n * base + d) cs

/-- The sign of a number and what follows it. -/
def sign : List Char → Bool × List Char
  | '-' :: cs => (true, cs)
  | '+' :: cs => (false, cs)
  | cs => (false, cs)

/-- The signed number, if it has 64 bits. -/
def signed (negative : Bool) (n : Nat) : Except IntegerFault Int :=
  if negative then if signedLimit < n then .error .outOfRange else .ok (-(n : Int))
  else if signedLimit ≤ n then .error .outOfRange else .ok (n : Int)

/-- A number of digits in a base, perhaps with a sign. -/
def inBase (base : Nat) (cs : List Char) : Except IntegerFault Int :=
  match sign cs with
  | (_, []) => .error .malformed
  | (negative, digits) => do signed negative (← magnitude base false 0 digits)

/-- A number in decimal. -/
def decimal (s : String) : Except IntegerFault Int := inBase 10 s.toList

/-- The base of a number and its digits. -/
def base : List Char → Nat × List Char
  | '0' :: c :: d :: cs =>
    if c = 'b' || c = 'B' then (2, d :: cs)
    else if c = 'o' || c = 'O' then (8, d :: cs)
    else if c = 'x' || c = 'X' then (16, d :: cs)
    else (8, c :: d :: cs)
  | '0' :: cs => (8, cs)
  | cs => (10, cs)

/-- Whether every underscore stands between digits; `before` tells whether a digit, or what chooses
the base, is in front. -/
def underscoresSeparate (before : Bool) : List Char → Bool
  | [] => true
  | ['_'] => false
  | '_' :: '_' :: _ => false
  | '_' :: cs => before && underscoresSeparate false cs
  | _ :: cs => underscoresSeparate true cs

/-- The digits of a number without a sign that has a base. -/
def unsigned (digits : List Char) : Except IntegerFault Nat :=
  if digits = [] then .error .malformed
  else do
    let (b, ds) := base digits
    let n ← magnitude b true 0 ds
    if underscoresSeparate (ds ≠ digits) ds then .ok n else .error .malformed

/-- A number that may have a base. -/
def based (s : String) : Except IntegerFault Int :=
  let (negative, digits) := sign s.toList
  do signed negative (← unsigned digits)

end Integer
end SemFront.Text
