/-
Sets of characters given as closed ranges of code points.
-/
namespace SemFront.Text

/-- A set of code points as closed ranges `(first, last)`. -/
abbrev Ranges := List (Nat × Nat)

/-- Whether some range holds the code point. -/
def Ranges.holds (rs : Ranges) (n : Nat) : Bool :=
  rs.any fun r => r.1 ≤ n && n ≤ r.2

end SemFront.Text
