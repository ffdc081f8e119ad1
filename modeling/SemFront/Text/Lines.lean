/-
The lines of a text.
-/
namespace SemFront.Text

/-- The lines of a text, without the line feeds between them. -/
def lines (s : String) : List (List Char) := s.toList.splitOn '\n'

/-- A number with blanks before it up to a width. -/
def padLeft (width : Nat) (s : String) : String :=
  String.ofList (List.replicate (width - s.length) ' ') ++ s

/-- A text with blanks behind it up to a width. -/
def padRight (width : Nat) (s : String) : String :=
  s ++ String.ofList (List.replicate (width - s.length) ' ')

end SemFront.Text
