/-
Texts as YAML scalars: plain where that reads back as the same text, on lines of their own if they
have several lines, and quoted otherwise.
-/
import SemFront.Text.Quoted
import SemFront.Yaml.Cursor
import SemFront.Yaml.Resolve

namespace SemFront.Yaml

/-- Groups behind the first of a number in base 60. -/
def isSexagesimalTail : List (List Char) → Bool
  | [] => true
  | g :: gs =>
    (match g with
      | [d] => Text.Decimal.isDigit d
      | [c, d] => '0' ≤ c && c ≤ '5' && Text.Decimal.isDigit d
      | _ => false) && isSexagesimalTail gs

/-- Whether other readers take a text for a number in base 60. -/
def isSexagesimal (s : String) : Bool :=
  let (_, cs) := Text.Integer.sign s.toList
  let body := cs.takeWhile (· ≠ '.')
  let fraction := (cs.dropWhile (· ≠ '.')).drop 1
  let digitOrMark (c : Char) : Bool := Text.Decimal.isDigit c || c = '_'
  match body.splitOn ':' with
  | (d :: ds) :: g :: gs =>
    Text.Decimal.isDigit d && ds.all digitOrMark && isSexagesimalTail (g :: gs) &&
      fraction.all digitOrMark
  | _ => false

/-- Whether a plain scalar would be taken for something else than a text. -/
def needsQuotes (s : String) : Bool :=
  meaningOfPlain s ≠ .text || yesWords.contains s || noWords.contains s || isSexagesimal s

/-! ## Which forms a text can have -/

/-- The characters that are written as they are. -/
def isShown (c : Char) : Bool :=
  let n := c.toNat
  n = 0x0A || (0x20 ≤ n && n ≤ 0x7E) || (0xA0 ≤ n && n ≤ 0xFFFD && n ≠ 0xFEFF)

/-- Whether a character would end a plain scalar or start something else; `before` is the character
in front of it. -/
def breaksPlain : (before : Option Char) → List Char → Bool
  | _, [] => false
  | before, c :: cs =>
    let blankNext := cs.head?.all (· = ' ')
    let here := match before with
      | none =>
        "#,[]\x7b\x7d&*!|>'\"%@`".toList.contains c || ((c = '?' || c = ':' || c = '-') && blankNext)
      | some b => (c = ':' && blankNext) || (c = '#' && b = ' ')
    here || breaksPlain (some c) cs

/-- Whether a character of one kind stands right in front of one of another. -/
def hasPair (first second : Char → Bool) : List Char → Bool
  | c :: d :: cs => (first c && second d) || hasPair first second (d :: cs)
  | _ => false

/-- Whether a blank stands at the end of a line. -/
def hasTrailingBlank (cs : List Char) : Bool := hasPair (· = ' ') isBreak cs

/-- Whether a text can stand on lines of its own. -/
def canBeLiteral (cs : List Char) : Bool :=
  cs.all (fun c => isShown c || c = '\t') && cs.getLast? ≠ some ' ' && !hasTrailingBlank cs

/-- Whether a text can stand between single quotes. -/
def canBeSingleQuoted (cs : List Char) : Bool :=
  cs.all isShown && !hasTrailingBlank cs && !hasPair isBreak (· = ' ') cs

/-- Whether a text can stand as it is. -/
def canBePlain (cs : List Char) : Bool :=
  cs.all (fun c => isShown c && !isBreak c) && cs.head? ≠ some ' ' && cs.getLast? ≠ some ' ' &&
    !breaksPlain none cs && cs.take 3 ≠ ['-', '-', '-'] && cs.take 3 ≠ ['.', '.', '.']

/-! ## The forms -/

/-- How a character is written between double quotes. -/
def writtenEscape (c : Char) : String :=
  let n := c.toNat
  let digits (width : Nat) := (Text.Quoted.hex width n).map Char.toUpper
  match [('\x00', "0"), ('\x07', "a"), ('\x08', "b"), ('\t', "t"), ('\n', "n"), ('\x0b', "v"),
      ('\x0c', "f"), ('\r', "r"), ('\x1b', "e"), ('"', "\""), ('\\', "\\"), ('\u0085', "N"),
      ('\u00a0', "_"), ('\u2028', "L"), ('\u2029', "P")].lookup c with
  | some e => "\\" ++ e
  | none =>
    if n ≤ 0xFF then "\\x" ++ digits 2
    else if n ≤ 0xFFFF then "\\u" ++ digits 4
    else "\\U" ++ digits 8

/-- A text between double quotes. Behind a byte order mark at its start nothing is written as it is. -/
def doubleQuoted (s : String) : String :=
  let marked := s.toList.head? = some '\ufeff'
  let isPlain (c : Char) : Bool := !marked && isShown c && !isBreak c && c ≠ '"' && c ≠ '\\'
  "\"" ++ String.join (s.toList.map fun c => if isPlain c then c.toString else writtenEscape c) ++ "\""

/-- The characters of a text with blanks in front of the first one of each further line. -/
def indented (indent : Nat) (lineStarts : Bool) : List Char → List Char
  | [] => []
  | c :: cs =>
    if isBreak c then c :: indented indent true cs
    else (if lineStarts then List.replicate indent ' ' else []) ++ c :: indented indent false cs

/-- A text between single quotes. -/
def singleQuoted (indent : Nat) (s : String) : String :=
  let doubled := s.toList.flatMap fun c => if c = '\'' then [c, c] else [c]
  "'" ++ String.ofList (indented indent false doubled) ++ "'"

/-- The columns that a header counts for a text that starts with a blank or a line end. -/
def headerDepth : String := "4"

/-- What the header says about the line ends behind the last line. -/
def headerEnding (cs : List Char) : String :=
  match cs.reverse with
  | c :: d :: _ => if !isBreak c then "-" else if isBreak d then "+" else ""
  | [c] => if isBreak c then "+" else "-"
  | [] => "-"

/-- A text on lines of its own. A line end at its start ends the line of the header. -/
def literalLines (indent : Nat) (s : String) : String :=
  let cs := s.toList
  "|" ++ (if cs.head?.any fun c => c = ' ' || isBreak c then headerDepth else "") ++ headerEnding cs ++
    (if cs.head?.any isBreak then "" else "\n") ++ String.ofList (indented indent true cs)

/-- A text as a scalar that has its further lines at an indentation. -/
def written (indent : Nat) (s : String) : String :=
  let cs := s.toList
  if cs.contains '\n' then if canBeLiteral cs then literalLines indent s else doubleQuoted s
  else if needsQuotes s then doubleQuoted s
  else if canBePlain cs then s
  else if canBeSingleQuoted cs then singleQuoted indent s
  else doubleQuoted s

/-- A scalar with the end of its last line. -/
def writtenLine (indent : Nat) (s : String) : String :=
  let text := written indent s
  if text.toList.getLast?.any isBreak then text else text ++ "\n"

end SemFront.Yaml
