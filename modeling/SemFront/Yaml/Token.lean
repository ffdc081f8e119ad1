/-
The tokens of a YAML text. Lists and records by indentation are opened and closed by tokens of their
own, and a token in front of a scalar or bracket marks it as a key once the colon behind it is found.
-/
import SemFront.Yaml.Literal

namespace SemFront.Yaml

inductive TokenKind where
  | textEnd
  | documentStart
  | documentEnd
  | listStart
  | recordStart
  | blockEnd
  | bracketOpen
  | bracketClose
  | braceOpen
  | braceClose
  | comma
  | item
  | key
  | value
  | scalar (quoted : Bool) (text : String)
deriving DecidableEq, Repr

structure Token where
  kind : TokenKind
  line : Nat
deriving DecidableEq, Repr

/-- A token that is a key if a colon follows it. -/
structure Candidate where
  /-- How many tokens come before it. -/
  number : Nat
  /-- Whether nothing but a key can stand there. -/
  required : Bool
  line : Nat
  column : Nat

/-- The longest distance between the start of a key and its colon. -/
def keyReach : Nat := 1024

/-- How deep lists and records can be within each other. -/
def deepest : Nat := 10000

/-- Whether it is too late for a colon. -/
def Candidate.isStale (k : Candidate) (c : Cursor) : Bool :=
  k.line < c.line || k.column + keyReach < c.column

/-- The tokens of a text that are not taken yet: those that are cut off already, and what is left of
the text. -/
structure Tokens where
  cursor : Cursor
  ready : List Token := []
  taken : Nat := 0
  /-- The columns of the open lists and records by indentation, the innermost first. -/
  columns : List Nat := []
  /-- The last token that may be a key. -/
  candidate : Option Candidate := none
  /-- The same outside of each open bracket, the innermost first. -/
  outside : List (Option Candidate) := []
  keyAllowed : Bool := true

namespace Tokens

def inBrackets (t : Tokens) : Bool := !t.outside.isEmpty

/-- The first column for further lines of a scalar. -/
def least (t : Tokens) : Nat := (t.columns.head?.map (· + 1)).getD 0

def push (t : Tokens) (kind : TokenKind) : Tokens :=
  { t with ready := t.ready ++ [{ kind, line := t.cursor.line }] }

/-- The token at the cursor, with so many characters. -/
def pushHere (t : Tokens) (kind : TokenKind) (width : Nat) : Tokens :=
  { t.push kind with cursor := t.cursor.forward width }

/-! ## Keys -/

/-- The last candidate is no key. -/
def dropCandidate (t : Tokens) : Option Tokens :=
  if t.candidate.any (·.required) then none else some { t with candidate := none }

/-- The next token may be a key. -/
def addCandidate (t : Tokens) : Option Tokens :=
  if t.keyAllowed then do
    let required := !t.inBrackets && t.columns.head? = some t.cursor.column
    let k : Candidate :=
      { number := t.taken + t.ready.length, required, line := t.cursor.line, column := t.cursor.column }
    some { ← t.dropCandidate with candidate := some k }
  else some t

/-! ## Lists and records by indentation -/

/-- Opens a list or record at a column if none is open there or right of it, in front of the ready
token with the given index. -/
def openBlock (t : Tokens) (kind : TokenKind) (column line index : Nat) : Option Tokens :=
  if t.inBrackets || t.columns.head?.any (column ≤ ·) then some t
  else if deepest ≤ t.columns.length then none
  else some { t with
    columns := column :: t.columns
    ready := t.ready.take index ++ { kind, line } :: t.ready.drop index }

/-- Opens a list or record at the cursor. -/
def openHere (t : Tokens) (kind : TokenKind) : Option Tokens :=
  t.openBlock kind t.cursor.column t.cursor.line t.ready.length

/-- Closes the lists and records at columns that meet a condition, down to the first that does not. -/
def closeBlocks (closes : Nat → Bool) (t : Tokens) : Tokens :=
  if t.inBrackets then t
  else
    let closed := t.columns.takeWhile closes
    { t with
      columns := t.columns.drop closed.length
      ready := t.ready ++ closed.map fun _ => { kind := .blockEnd, line := t.cursor.line } }

/-! ## Cutting off a token -/

/-- The end of the text, which is also the end of its last line. -/
def cutEnd (t : Tokens) : Option Tokens := do
  let t ← (t.closeBlocks fun _ => true).dropCandidate
  let c := t.cursor
  let c := if c.column = 0 then c else { c with line := c.line + 1, column := 0 }
  some ({ t with cursor := c, keyAllowed := false }.push .textEnd)

def cutMarker (t : Tokens) : Option Tokens := do
  let t ← (t.closeBlocks fun _ => true).dropCandidate
  let kind := if t.cursor.isAt '-' then TokenKind.documentStart else .documentEnd
  some { t.pushHere kind 3 with keyAllowed := false }

def cutOpen (kind : TokenKind) (t : Tokens) : Option Tokens := do
  let t ← t.addCandidate
  if deepest ≤ t.outside.length then none
  else
    let t := t.pushHere kind 1
    some { t with candidate := none, outside := t.candidate :: t.outside, keyAllowed := true }

def cutClose (kind : TokenKind) (t : Tokens) : Option Tokens := do
  let t ← t.dropCandidate
  let t := { t.pushHere kind 1 with keyAllowed := false }
  match t.outside with
  | k :: ks => some { t with candidate := k, outside := ks }
  | [] => some t

def cutComma (t : Tokens) : Option Tokens := do
  some { (← t.dropCandidate).pushHere .comma 1 with keyAllowed := true }

/-- A dash in front of an item. -/
def cutItem (t : Tokens) : Option Tokens := do
  if !t.inBrackets && !t.keyAllowed then none
  else
    let t ← (← t.openHere .listStart).dropCandidate
    some { t.pushHere .item 1 with keyAllowed := true }

/-- A question mark in front of a key. -/
def cutKey (t : Tokens) : Option Tokens := do
  if !t.inBrackets && !t.keyAllowed then none
  else
    let t ← (← t.openHere .recordStart).dropCandidate
    some { t.pushHere .key 1 with keyAllowed := !t.inBrackets }

/-- A colon behind the candidate, which is a key now. -/
def cutColonBehind (k : Candidate) (t : Tokens) : Option Tokens := do
  let index := k.number - t.taken
  let marked := t.ready.take index ++ { kind := .key, line := k.line } :: t.ready.drop index
  let t ← { t with ready := marked, candidate := none }.openBlock .recordStart k.column k.line index
  some { t.pushHere .value 1 with keyAllowed := false }

/-- A colon behind no key, or behind one with a question mark. -/
def cutColonAlone (t : Tokens) : Option Tokens := do
  if !t.inBrackets && !t.keyAllowed then none
  else
    let t ← t.openHere .recordStart
    some { t.pushHere .value 1 with keyAllowed := !t.inBrackets }

def cutColon (t : Tokens) : Option Tokens :=
  match t.candidate with
  | none => t.cutColonAlone
  | some k =>
    if !k.isStale t.cursor then t.cutColonBehind k
    else if k.required then none
    else { t with candidate := none }.cutColonAlone

def cutLiteral (t : Tokens) : Option Tokens := do
  let t ← t.dropCandidate
  let (text, c) ← literal t.least t.cursor
  some { t.push (.scalar true text) with cursor := c, keyAllowed := true }

def cutQuoted (t : Tokens) : Option Tokens := do
  let t ← t.addCandidate
  let (text, c) ← quoted t.cursor
  some { t.push (.scalar true text) with cursor := c, keyAllowed := false }

def cutPlain (t : Tokens) : Option Tokens := do
  let t ← t.addCandidate
  let (text, lineEnded, c) ← plain t.inBrackets t.least t.cursor
  some { t.push (.scalar false text) with cursor := c, keyAllowed := lineEnded }

/-- Cuts off the next token, and what the indentation in front of it closes. -/
def cut (t : Tokens) : Option Tokens :=
  let (c, keyAllowed) := t.cursor.content t.inBrackets t.keyAllowed
  let t := { t with cursor := c, keyAllowed }.closeBlocks (c.column < ·)
  match c.rest with
  | [] => t.cutEnd
  | x :: xs =>
    let alone := t.inBrackets || endsWord xs
    if c.isAtMarker then t.cutMarker
    else if x = '[' then t.cutOpen .bracketOpen
    else if x = '\x7b' then t.cutOpen .braceOpen
    else if x = ']' then t.cutClose .bracketClose
    else if x = '\x7d' then t.cutClose .braceClose
    else if x = ',' then t.cutComma
    else if x = '-' && endsWord xs then t.cutItem
    else if x = '?' && alone then t.cutKey
    else if x = ':' && alone then t.cutColon
    else if (x = '|' || x = '>') && !t.inBrackets then t.cutLiteral
    else if x = '\'' || x = '"' then t.cutQuoted
    else t.cutPlain

/-! ## Taking tokens -/

/-- Whether the next token is ready and surely known: two more are ready, and it is no candidate. A
required key without its colon is malformed. -/
def isSettled (t : Tokens) : Option Bool :=
  if t.ready.length < 3 then some false
  else
    match (t.candidate :: t.outside).findSome? (·.filter (·.number = t.taken)) with
    | none => some true
    | some k => if !k.isStale t.cursor then some false else if k.required then none else some true

/-- Cuts off tokens until the next one is settled. -/
def settle : Nat → Tokens → Option Tokens
  | 0, _ => none
  | fuel + 1, t => do if ← t.isSettled then some t else settle fuel (← t.cut)

/-- The next token; the tokens from it on. -/
def peek (t : Tokens) : Option (Token × Tokens) := do
  let t ← t.settle (t.cursor.size + 4)
  some (← t.ready.head?, t)

/-- The tokens behind the next one. -/
def rest (t : Tokens) : Tokens := { t with ready := t.ready.drop 1, taken := t.taken + 1 }

end Tokens
end SemFront.Yaml
