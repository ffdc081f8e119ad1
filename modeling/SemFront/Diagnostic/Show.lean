/-
Diagnostics as text: a header, the source lines around the labelled parts with the parts marked
below them, notes and help. Without the source only the place is shown.
-/
import SemFront.Diagnostic.Underline
import SemFront.Text.Lines

namespace SemFront.Diagnostic

/-- The parts to mark: the labels, or else the place of the diagnostic itself. -/
def marked (d : Diagnostic) : List Label :=
  if d.labels ≠ [] then d.labels
  else if d.span.isPlaced then [{ span := d.span }]
  else []

/-- Labels from top to bottom and left to right. -/
def sortLabels (ls : List Label) : List Label :=
  stableSort (fun a b =>
    if a.span.line = b.span.line then a.span.column < b.span.column
    else a.span.line < b.span.line) ls

/-- Severity, code and message. -/
def header (d : Diagnostic) : String :=
  let severity := if d.severity.name = "" then Severity.error.name else d.severity.name
  let code := if d.code = "" then "" else "[" ++ d.code ++ "]"
  severity ++ code ++ ": " ++ d.message ++ "\n"

/-- Notes and help. -/
def footer (d : Diagnostic) : String :=
  String.join (d.notes.map fun n => "  = note: " ++ n ++ "\n") ++
    (if d.help = "" then "" else "help: " ++ d.help ++ "\n")

/-- A source line with its number, and the marks below it. -/
def showLine (width number : Nat) (line : List Char) (labels : List Label) : String :=
  " " ++ Text.padLeft width (toString number) ++ " | " ++ String.ofList line ++ "\n" ++
    (match Underline.text? line.length labels with
      | some row => " " ++ Text.padLeft width "" ++ " | " ++ row ++ "\n"
      | none => "")

/-- The lines around the marked parts, one more above and below. Nothing is shown if no part lies
in the source. -/
def showLines (file : String) (lines : List (List Char)) (labels : List Label) : String :=
  let here (number : Nat) := labels.filter fun l => l.span.line = (number : Int)
  match labels.head?, labels.getLast? with
  | some first, some last =>
    if labels.all fun l => l.span.line < 1 || (lines.length : Int) < l.span.line then "" else
    let top := max 1 (Word.wrap (first.span.line - 1))
    let bottom := min (lines.length : Int) (Word.wrap (last.span.line + 1))
    let width := (toString bottom).length
    let bar := " " ++ Text.padLeft width "" ++ " |\n"
    let shown := (List.range (bottom - top + 1).toNat).map fun i => top.toNat + i
    "  --> " ++ file ++ ":" ++ toString first.span.line ++ ":" ++ toString first.span.column ++ "\n" ++
      bar ++
      String.join (shown.map fun n => showLine width n (lines.getD (n - 1) []) (here n)) ++
      bar
  | _, _ => ""

/-- The diagnostic without its source. -/
def showBare (d : Diagnostic) : String :=
  d.header ++ (if d.span.isPlaced then "  --> " ++ d.span.place ++ "\n" else "") ++ d.footer

/-- The diagnostic with the lines of its source. -/
def displayIn (lines : List (List Char)) (d : Diagnostic) : String :=
  match d.marked with
  | [] => d.showBare
  | l :: ls =>
    let file := if d.span.file = "" then "<input>" else d.span.file
    d.header ++ showLines file lines (sortLabels (l :: ls)) ++ d.footer

/-- The diagnostic with its source, if that is at hand. -/
def display (source : Option String) (d : Diagnostic) : String :=
  match source with
  | some text => d.displayIn (Text.lines text)
  | none => d.showBare

end SemFront.Diagnostic
