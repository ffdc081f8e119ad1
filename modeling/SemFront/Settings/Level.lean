/-
Log levels: numbers, most of which have names.
-/
import SemFront.Text.Integer

namespace SemFront

/-- How important an event has to be to be logged. -/
structure Level where
  number : Int
deriving DecidableEq, Repr

namespace Level

def info : Level := ⟨1⟩

/-- The named levels. -/
def named : List (String × Int) :=
  [("trace", -1), ("debug", 0), ("info", 1), ("warn", 2), ("error", 3), ("fatal", 4), ("panic", 5),
   ("disabled", 7)]

/-- A letter without regard to its case; the long s counts as an s. -/
def fold (c : Char) : Char := if c = 'ſ' then 's' else c.toLower

/-- The level with a name in any case, or with a number of 8 bits. -/
def ofString? (s : String) : Option Level :=
  match named.lookup (String.ofList (s.toList.map fold)) with
  | some n => some ⟨n⟩
  | none =>
    match Text.Integer.decimal s with
    | .ok n => if -128 ≤ n && n ≤ 127 then some ⟨n⟩ else none
    | .error _ => none

/-- The name of a level; level 6 has an empty one, and others their number. -/
def name (l : Level) : String :=
  match named.find? (·.2 = l.number) with
  | some (name, _) => name
  | none => if l.number = 6 then "" else toString l.number

end Level
end SemFront
