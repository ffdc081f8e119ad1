/-
A place in a YAML text, and moving on from it over blanks, comments and line ends.
-/
namespace SemFront.Yaml

/-- What is left of a text, with the number of characters of the whole text and the line and column
where the rest starts. -/
structure Cursor where
  rest : List Char
  size : Nat
  line : Nat := 1
  column : Nat := 0

def isBlank (c : Char) : Bool := c = ' ' || c = '\t'

/-- Whether a character ends a line. -/
def isBreak (c : Char) : Bool := c = '\n' || c = '\u2028' || c = '\u2029'

/-- Whether a word ends in front of this. -/
def endsWord : List Char → Bool
  | [] => true
  | c :: _ => isBlank c || isBreak c

namespace Cursor

/-- The start of a text. -/
def ofText (cs : List Char) : Cursor := { rest := cs, size := cs.length }

/-- One character further on. -/
def next (c : Cursor) : Cursor :=
  match c.rest with
  | [] => c
  | x :: xs =>
    if isBreak x then { c with rest := xs, line := c.line + 1, column := 0 }
    else { c with rest := xs, column := c.column + 1 }

/-- Some characters further on. -/
def forward (c : Cursor) : Nat → Cursor
  | 0 => c
  | n + 1 => c.next.forward n

def skipWhile (p : Char → Bool) (c : Cursor) : Cursor := c.forward (c.rest.takeWhile p).length

def atEnd (c : Cursor) : Bool := c.rest.isEmpty

def isAt (c : Cursor) (x : Char) : Bool := c.rest.head? = some x

def isAtBreak (c : Cursor) : Bool := c.rest.head?.any isBreak

/-- At a line that separates documents. -/
def isAtMarker (c : Cursor) : Bool :=
  c.column = 0 && (c.rest.take 3 = ['-', '-', '-'] || c.rest.take 3 = ['.', '.', '.']) &&
    endsWord (c.rest.drop 3)

/-- How far apart two comments may be that belong together. -/
def commentReach : Nat := 512

/-- Behind a comment and those that belong to it: only blanks and line ends are between them. -/
def skipComments : Nat → Cursor → Cursor
  | 0, c => c
  | fuel + 1, c =>
    let c := c.skipWhile (!isBreak ·)
    let between := c.rest.takeWhile fun x => isBlank x || x = '\n'
    if between.length < commentReach && (c.rest.drop between.length).head? = some '#' then
      skipComments fuel (c.forward between.length)
    else c

/-- On to the next thing that is neither a blank, a comment nor a line end, with whether a key can
start there. A tab is a blank within brackets and where no key can start. -/
def content (brackets keyAllowed : Bool) (c : Cursor) : Cursor × Bool :=
  loop c.size keyAllowed c
where
  loop : Nat → Bool → Cursor → Cursor × Bool
    | fuel, keyAllowed, c =>
      let c := c.skipWhile fun x => x = ' ' || (x = '\t' && (brackets || !keyAllowed))
      let c := if c.isAt '#' then skipComments c.size c else c
      match fuel with
      | 0 => (c, keyAllowed)
      | fuel + 1 => if c.isAtBreak then loop fuel (keyAllowed || !brackets) c.next else (c, keyAllowed)

end Cursor
end SemFront.Yaml
