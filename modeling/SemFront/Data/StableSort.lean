/-
A stable sort: elements that compare equal keep their order.
-/
namespace SemFront

/-- Puts an element before the first one that is not less. -/
def insertBy (less : α → α → Bool) (x : α) : List α → List α
  | [] => [x]
  | y :: ys => if less y x then y :: insertBy less x ys else x :: y :: ys

/-- The list in ascending order, elements of which neither is less in their order of before. -/
def stableSort (less : α → α → Bool) : List α → List α
  | [] => []
  | x :: xs => insertBy less x (stableSort less xs)

end SemFront
