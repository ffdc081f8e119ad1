/-
Quoted texts for messages: between double quotes, with the quote, the backslash, control
characters and everything that does not print written as escapes.
-/
import SemFront.Text.Printable

namespace SemFront.Text.Quoted

/-- The lower-case hexadecimal digits of a number, padded with zeros to a width. -/
def hex (width n : Nat) : String :=
  let digits := Nat.toDigits 16 n
  String.ofList (List.replicate (width - digits.length) '0' ++ digits)

/-- How a quoted text shows one character. -/
def escape (c : Char) : String :=
  match c with
  | '"' => "\\\""
  | '\\' => "\\\\"
  | '\x07' => "\\a"
  | '\x08' => "\\b"
  | '\x0c' => "\\f"
  | '\n' => "\\n"
  | '\r' => "\\r"
  | '\t' => "\\t"
  | '\x0b' => "\\v"
  | c =>
    if isPrintable c then c.toString
    else if c.toNat < 0x20 || c.toNat = 0x7F then "\\x" ++ hex 2 c.toNat
    else if c.toNat < 0x10000 then "\\u" ++ hex 4 c.toNat
    else "\\U" ++ hex 8 c.toNat

end SemFront.Text.Quoted

namespace SemFront.Text

/-- The text between quotes. -/
def quoted (s : String) : String :=
  "\"" ++ String.join (s.toList.map Quoted.escape) ++ "\""

end SemFront.Text
