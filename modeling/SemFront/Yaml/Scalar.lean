/-
Scalars of a YAML text: plain ones, which blanks, comments and a colon end, and quoted ones. Lines
of one scalar are joined: a single line end is a blank, of several the first is dropped.
-/
import SemFront.Yaml.Cursor

namespace SemFront.Yaml

/-- What the line ends between two lines of a scalar stand for. -/
def folded : List Char → List Char
  | ['\n'] => [' ']
  | '\n' :: more => more
  | others => others

/-- Blanks and line ends in front of the next thing: the blanks in front of the first line end, if
no line ended before, and the line ends. A tab must not stand left of the column `least` on a new
line. -/
def gap (least : Nat) (lineEnded : Bool) (c : Cursor) : Option (List Char × List Char × Cursor) :=
  loop c.size lineEnded [] [] c
where
  loop : Nat → Bool → List Char → List Char → Cursor → Option (List Char × List Char × Cursor)
    | 0, _, blanks, breaks, c => some (blanks.reverse, breaks.reverse, c)
    | fuel + 1, lineEnded, blanks, breaks, c =>
      match c.rest with
      | x :: _ =>
        if isBreak x then loop fuel true [] (x :: breaks) c.next
        else if !isBlank x then some (blanks.reverse, breaks.reverse, c)
        else if !lineEnded then loop fuel false (x :: blanks) breaks c.next
        else if x = '\t' && c.column < least then none
        else loop fuel true blanks breaks c.next
      | [] => some (blanks.reverse, breaks.reverse, c)

/-- What stands between two runs of a scalar for the blanks or the line ends between them. -/
def joint (blanks breaks : List Char) : List Char := if breaks = [] then blanks else folded breaks

/-! ## Plain scalars -/

/-- Whether a plain scalar ends in front of a character; within brackets more characters end it. -/
def endsPlain (brackets : Bool) (c : Char) (cs : List Char) : Bool :=
  isBlank c || isBreak c || (c = ':' && endsWord cs) ||
    (brackets && ((",[]\x7b\x7d".toList.contains c) ||
      (c = '?' && (cs.head?.all fun d => d = ' ' || isBreak d))))

/-- The characters of a plain scalar up to the next blank. -/
def plainRun (brackets : Bool) : List Char → List Char
  | [] => []
  | c :: cs => if endsPlain brackets c cs then [] else c :: plainRun brackets cs

/-- Whether a plain scalar can start here. -/
def startsPlain (brackets : Bool) : List Char → Bool
  | [] => false
  | c :: cs =>
    if c = '-' then !endsWord cs
    else if c = '?' || c = ':' then !brackets && !endsWord cs
    else !isBlank c && !isBreak c && !("#,[]\x7b\x7d&*!|>'\"%@`".toList.contains c)

/-- The runs that follow in a plain scalar; at the end, also whether a line ended behind it. -/
def plainMore (brackets : Bool) (least : Nat) : Nat → List Char → Cursor →
    Option (String × Bool × Cursor)
  | 0, text, c => some (String.ofList text, false, c)
  | fuel + 1, text, c =>
    match gap least false c with
    | none => none
    | some (blanks, breaks, after) =>
      let ends := after.isAt '#' || after.isAtMarker || (!brackets && after.column < least)
      let run := plainRun brackets after.rest
      if ends || run = [] then some (String.ofList text, breaks ≠ [], after)
      else
        plainMore brackets least fuel (text ++ joint blanks breaks ++ run) (after.forward run.length)

/-- A plain scalar whose further lines start at the column `least` or right of it. -/
def plain (brackets : Bool) (least : Nat) (c : Cursor) : Option (String × Bool × Cursor) :=
  if startsPlain brackets c.rest then
    let run := plainRun brackets c.rest
    plainMore brackets least c.size run (c.forward run.length)
  else none

/-! ## Quoted scalars -/

/-- The character that a letter behind a backslash stands for. -/
def escaped? (c : Char) : Option Char :=
  [('0', '\x00'), ('a', '\x07'), ('b', '\x08'), ('t', '\t'), ('\t', '\t'), ('n', '\n'), ('v', '\x0b'),
   ('f', '\x0c'), ('r', '\r'), ('e', '\x1b'), (' ', ' '), ('"', '"'), ('\'', '\''), ('\\', '\\'),
   ('N', '\u0085'), ('_', '\u00a0'), ('L', '\u2028'), ('P', '\u2029')].lookup c

/-- The number of hexadecimal digits behind a letter behind a backslash. -/
def escapedDigits? (c : Char) : Option Nat := [('x', 2), ('u', 4), ('U', 8)].lookup c

/-- The value of a hexadecimal digit. -/
def hexDigit? (c : Char) : Option Nat :=
  if '0' ≤ c && c ≤ '9' then some (c.toNat - '0'.toNat)
  else if 'a' ≤ c && c ≤ 'f' then some (c.toNat - 'a'.toNat + 10)
  else if 'A' ≤ c && c ≤ 'F' then some (c.toNat - 'A'.toNat + 10)
  else none

/-- The character with a code in hexadecimal. -/
def coded? (width : Nat) (cs : List Char) : Option Char := do
  let digits ← (cs.take width).mapM hexDigit?
  let n := digits.foldl (fun n d => n * 16 + d) 0
  if digits.length = width && n.isValidChar then some (Char.ofNat n) else none

/-- What a backslash and what follows it stand for; a line end behind it stands for nothing, nor do
the blanks behind that. -/
def escape (c : Cursor) : Option (List Char × Cursor) :=
  match c.rest.drop 1 with
  | [] => none
  | y :: ys =>
    if isBreak y then (gap 0 true (c.forward 2)).map fun (_, breaks, after) => (breaks, after)
    else
      match escaped? y, escapedDigits? y with
      | some z, _ => some ([z], c.forward 2)
      | none, some width => (coded? width ys).map fun z => ([z], c.forward (2 + width))
      | none, none => none

/-- The rest of a quoted scalar, up to its quote. -/
def quotedMore (quote : Char) : Nat → List Char → Cursor → Option (String × Cursor)
  | 0, _, _ => none
  | fuel + 1, text, c =>
    match c.rest with
    | [] => none
    | x :: xs =>
      if c.isAtMarker then none
      else if isBlank x || isBreak x then
        match gap 0 false c with
        | none => none
        | some (blanks, breaks, after) =>
          quotedMore quote fuel ((joint blanks breaks).reverse ++ text) after
      else if x = quote then
        if quote = '\'' && xs.head? = some '\'' then quotedMore quote fuel ('\'' :: text) c.next.next
        else some (String.ofList text.reverse, c.next)
      else if quote = '"' && x = '\\' then
        match escape c with
        | none => none
        | some (zs, after) => quotedMore quote fuel (zs.reverse ++ text) after
      else quotedMore quote fuel (x :: text) c.next

/-- A quoted scalar. -/
def quoted (c : Cursor) : Option (String × Cursor) :=
  match c.rest with
  | q :: _ => quotedMore q c.size [] c.next
  | [] => none

end SemFront.Yaml
