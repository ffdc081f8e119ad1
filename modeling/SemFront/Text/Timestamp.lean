/-
Dates and times in texts: a year, a month and a day, perhaps with a time of day and its offset.
-/
import SemFront.Text.Decimal

namespace SemFront.Text.Timestamp

open Decimal (isDigit ofDigits)

/-! ## Dates -/

/-- The number of days in a month. -/
def daysIn (year month : Nat) : Nat :=
  if month = 2 then
    if year % 4 = 0 && (year % 100 ≠ 0 || year % 400 = 0) then 29 else 28
  else if month = 4 || month = 6 || month = 9 || month = 11 then 30
  else 31

/-- A number of one or two digits, and what follows it. -/
def short (cs : List Char) : Option (Nat × List Char) :=
  match (cs.take 2).takeWhile isDigit with
  | [] => none
  | ds => some (ofDigits ds, cs.drop ds.length)

/-- What follows a character. -/
def behind (c : Char) : List Char → Option (List Char)
  | d :: cs => if c = d then some cs else none
  | [] => none

/-- What follows a date: a year of four digits, a month and a day. -/
def date (cs : List Char) : Option (List Char) := do
  let digits := cs.takeWhile isDigit
  if digits.length ≠ 4 then none
  else
    let (month, cs) ← short (← behind '-' (cs.drop 4))
    let (day, cs) ← short (← behind '-' cs)
    if 1 ≤ month && month ≤ 12 && 1 ≤ day && day ≤ daysIn (ofDigits digits) month then some cs
    else none

/-! ## Times of day -/

/-- What follows a fraction of a second, if there is one. -/
def fraction (cs : List Char) : List Char :=
  match cs with
  | c :: d :: ds => if (c = '.' || c = ',') && isDigit d then ds.dropWhile isDigit else cs
  | _ => cs

/-- What follows a time of day. -/
def clock (cs : List Char) : Option (List Char) := do
  let (hour, cs) ← short cs
  let (minute, cs) ← short (← behind ':' cs)
  let (second, cs) ← short (← behind ':' cs)
  if hour < 24 && minute < 60 && second < 60 then some (fraction cs) else none

/-- Whether a text is an offset from universal time, `Z` for none. -/
def isOffset : List Char → Bool
  | ['Z'] => true
  | [sign, h, h', ':', m, m'] =>
    (sign = '+' || sign = '-') && [h, h', m, m'].all isDigit && ofDigits [h, h'] ≤ 24 &&
      ofDigits [m, m'] ≤ 60
  | _ => false

/-- Whether a text is a date, or a date with a time of day: behind a `T` with an offset, behind
blanks without one. -/
def isTimestamp (cs : List Char) : Bool :=
  match date cs with
  | none => false
  | some [] => true
  | some (c :: cs) =>
    if c = 'T' || c = 't' then (clock cs).any isOffset
    else c = ' ' && clock (cs.dropWhile (· = ' ')) = some []

end SemFront.Text.Timestamp
