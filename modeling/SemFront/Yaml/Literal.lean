/-
Scalars of a YAML text that are indented lines below their header. Behind `|` the lines stay as they
are, behind `>` a line end between two of them is a blank.
-/
import SemFront.Yaml.Scalar

namespace SemFront.Yaml

/-- Which line ends behind the last line belong to the text. -/
inductive Ending where
  | bare
  | one
  | all
deriving DecidableEq, Repr

/-- What stands in front of the lines. The depth is the number of columns that the lines are indented
by, if it is given. -/
structure Header where
  folds : Bool
  ending : Ending := .one
  depth : Option Nat := none

namespace Literal

/-! ## Headers -/

def ending? (c : Char) : Option Ending := [('-', Ending.bare), ('+', Ending.all)].lookup c

def depth? (c : Char) : Option Nat := if '1' ≤ c && c ≤ '9' then some (c.toNat - '0'.toNat) else none

/-- The header with what is given behind its sign, in either order, and the number of characters
that give it. -/
def header (folds : Bool) : List Char → Header × Nat
  | c :: d :: _ =>
    match ending? c, depth? c with
    | some e, _ => ({ folds, ending := e, depth := depth? d }, if (depth? d).isSome then 2 else 1)
    | none, some n =>
      ({ folds, ending := (ending? d).getD .one, depth := some n }, if (ending? d).isSome then 2 else 1)
    | none, none => ({ folds }, 0)
  | [c] =>
    match ending? c, depth? c with
    | some e, _ => ({ folds, ending := e }, 1)
    | none, some n => ({ folds, depth := some n }, 1)
    | none, none => ({ folds }, 0)
  | [] => ({ folds }, 0)

/-- The line below a header; only a comment may follow the header on its line. -/
def below (c : Cursor) : Option Cursor :=
  let c := c.skipWhile isBlank
  let c := if c.isAt '#' then c.skipWhile (!isBreak ·) else c
  if c.atEnd || c.isAtBreak then some c.next else none

/-! ## Lines -/

/-- Over the indentation and over empty lines: their line ends, the widest indentation and the line
that is not empty. Without an indentation all blanks in front of a line count. -/
def emptyLines (indent : Option Nat) : Nat → List Char → Nat → Cursor →
    Option (List Char × Nat × Cursor)
  | fuel, breaks, widest, c =>
    let spaces := (c.rest.takeWhile (· = ' ')).length
    let c := c.forward (match indent with | some n => min spaces (n - c.column) | none => spaces)
    let widest := max widest c.column
    if c.isAt '\t' && indent.all (c.column < ·) then none
    else
      match fuel, c.rest with
      | fuel + 1, x :: _ =>
        if isBreak x then emptyLines indent fuel (x :: breaks) widest c.next
        else some (breaks.reverse, widest, c)
      | _, _ => some (breaks.reverse, widest, c)

/-- What stands for the end of a line in front of the next one. -/
def lineJoint (folds startedBlank startsBlank : Bool) (lineEnd empty : List Char) : List Char :=
  if folds && !startedBlank && !startsBlank && lineEnd = ['\n'] then
    (if empty = [] then [' '] else empty)
  else lineEnd ++ empty

/-- The lines at an indentation, behind those read so far; `lineEnd` ends the last one, `empty` are
the line ends of the empty lines behind it. -/
def lines (h : Header) (indent : Nat) : Nat → (text lineEnd empty : List Char) →
    (startedBlank : Bool) → Cursor → Option (String × Cursor)
  | fuel, text, lineEnd, empty, startedBlank, c =>
    match fuel, c.column = indent && !c.atEnd with
    | fuel + 1, true =>
      let startsBlank := c.rest.head?.any isBlank
      let line := c.rest.takeWhile (!isBreak ·)
      let text := text ++ lineJoint h.folds startedBlank startsBlank lineEnd empty ++ line
      let after := c.forward line.length
      match emptyLines (some indent) after.size [] 0 after.next with
      | none => none
      | some (empty, _, next) => lines h indent fuel text (after.rest.take 1) empty startsBlank next
    | _, _ =>
      let tail := match h.ending with
        | .bare => []
        | .one => lineEnd
        | .all => lineEnd ++ empty
      some (String.ofList (text ++ tail), c)

end Literal

/-- A scalar of lines, from its sign on. Its lines are indented to the column `least` or right of it,
and by one column at least. -/
def literal (least : Nat) (c : Cursor) : Option (String × Cursor) := do
  let (h, width) := Literal.header (c.isAt '>') (c.rest.drop 1)
  let c ← Literal.below (c.forward (1 + width))
  let given := h.depth.map (least - 1 + ·)
  let (empty, widest, c) ← Literal.emptyLines given c.size [] 0 c
  Literal.lines h (given.getD (max widest (max least 1))) c.size [] [] empty false c

end SemFront.Yaml
