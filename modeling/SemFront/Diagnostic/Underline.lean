/-
The row below a source line that marks the labelled parts of it.
-/
import SemFront.Data.Word
import SemFront.Diagnostic.Basic

namespace SemFront.Underline

/-- The place in the row where a part starts. -/
def start (s : Span) : Int := max 0 (Word.wrap (s.column - 1))

/-- The place in a row of the given length where a part ends; every part is at least one place wide. -/
def stop (length : Nat) (s : Span) : Int :=
  min length (Word.wrap (start s + max 1 (Word.wrap (s.stop - s.start))))

/-- The places of a row from the start of a part to its end. -/
def places (length : Nat) (s : Span) : List Nat :=
  List.range' (start s).toNat (stop length s - start s).toNat

/-- Puts a mark at a place of a row. -/
def markAt (sign : Char) (overwrite : Bool) (row : List Char) (i : Nat) : List Char :=
  row.modify i fun c => if overwrite || c = ' ' then sign else c

/-- Marks a part in a row, one place after the other. -/
def mark (sign : Char) (overwrite : Bool) (row : List Char) (l : Label) : List Char :=
  (places row.length l.span).foldl (markAt sign overwrite) row

/-- The row for a line of the given width: primary parts are marked first and everywhere, secondary
parts where nothing else is. One more place than the line has is for its end. -/
def row (width : Nat) (labels : List Label) : List Char :=
  let blank := List.replicate (width + 1) ' '
  let row := (labels.filter (·.style = .primary)).foldl (mark '^' true) blank
  (labels.filter (·.style = .secondary)).foldl (mark '~' false) row

/-- A row without the blanks at its end. -/
def trimmed (row : List Char) : List Char := (row.reverse.dropWhile (· = ' ')).reverse

/-- The row as it is shown, with the texts of the labels behind it; nothing if it marks nothing. -/
def text? (width : Nat) (labels : List Label) : Option String :=
  match trimmed (row width labels) with
  | [] => none
  | marks =>
    let texts := (labels.map (·.text)).filter (· ≠ "")
    some (String.ofList marks ++ (if texts = [] then "" else " " ++ String.intercalate "; " texts))

end SemFront.Underline
