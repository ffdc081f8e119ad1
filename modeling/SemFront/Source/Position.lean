/-
Positions in a source text: line and column count from 1, the offset counts code points from 0.
Only a line feed ends a line.
-/
namespace SemFront

structure Position where
  line : Nat := 1
  column : Nat := 1
  offset : Nat := 0
deriving DecidableEq, Repr, Inhabited

/-- The position after one character. -/
def Position.next (p : Position) (c : Char) : Position :=
  if c = '\n' then { line := p.line + 1, column := 1, offset := p.offset + 1 }
  else { p with column := p.column + 1, offset := p.offset + 1 }

/-- The position after some characters. -/
def Position.after (p : Position) (cs : List Char) : Position :=
  cs.foldl Position.next p

end SemFront
