/-
Reading YAML texts: records and lists by indentation, lists and records in brackets, and scalars.
Anchors, tags and directives are not read.
-/
import SemFront.Yaml.Basic
import SemFront.Yaml.Token

namespace SemFront.Yaml

/-- The value of a key without one. -/
def nothing (line : Nat) : Yaml := .scalar line false ""

mutual

/-- The next value. A list or record by indentation can only start if `block` allows it, and a list
without an indentation of its own only below a key. -/
def node : Nat → (block belowKey : Bool) → Tokens → Option (Yaml × Tokens)
  | 0, _, _, _ => none
  | fuel + 1, block, belowKey, t => do
    let (tok, t) ← t.peek
    match tok.kind with
    | .scalar quoted text => some (.scalar tok.line quoted text, t.rest)
    | .item => if belowKey then listBelowKey fuel tok.line [] t else none
    | .bracketOpen => bracketList fuel tok.line [] t.rest
    | .braceOpen => braceRecord fuel tok.line [] t.rest
    | .listStart => if block then blockList fuel tok.line [] t.rest else none
    | .recordStart => if block then blockRecord fuel tok.line [] t.rest else none
    | _ => none

/-- A value by indentation, or nothing in front of some tokens. -/
def nodeUnless : Nat → (ends : List TokenKind) → (belowKey : Bool) → (line : Nat) → Tokens →
    Option (Yaml × Tokens)
  | 0, _, _, _, _ => none
  | fuel + 1, ends, belowKey, line, t => do
    let (tok, t) ← t.peek
    if ends.contains tok.kind then some (nothing line, t) else node fuel true belowKey t

/-- The members of a record by indentation. -/
def blockRecord : Nat → (line : Nat) → List (Yaml × Yaml) → Tokens → Option (Yaml × Tokens)
  | 0, _, _, _ => none
  | fuel + 1, line, members, t => do
    let (tok, t) ← t.peek
    match tok.kind with
    | .key =>
      let ends : List TokenKind := [.key, .value, .blockEnd]
      let (key, t) ← nodeUnless fuel ends true tok.line t.rest
      let (tok, t) ← t.peek
      let (value, t) ←
        if tok.kind = .value then nodeUnless fuel ends true tok.line t.rest
        else some (nothing tok.line, t)
      blockRecord fuel line ((key, value) :: members) t
    | .blockEnd => some (.record line members.reverse, t.rest)
    | _ => none

/-- The items of a list by indentation. -/
def blockList : Nat → (line : Nat) → List Yaml → Tokens → Option (Yaml × Tokens)
  | 0, _, _, _ => none
  | fuel + 1, line, items, t => do
    let (tok, t) ← t.peek
    match tok.kind with
    | .item =>
      let (v, t) ← nodeUnless fuel [.item, .blockEnd] false tok.line t.rest
      blockList fuel line (v :: items) t
    | .blockEnd => some (.list line items.reverse, t.rest)
    | _ => none

/-- The items of a list at the column of its key. -/
def listBelowKey : Nat → (line : Nat) → List Yaml → Tokens → Option (Yaml × Tokens)
  | 0, _, _, _ => none
  | fuel + 1, line, items, t => do
    let (tok, t) ← t.peek
    if tok.kind = .item then
      let (v, t) ← nodeUnless fuel [.item, .key, .value, .blockEnd] false tok.line t.rest
      listBelowKey fuel line (v :: items) t
    else some (.list line items.reverse, t)

/-- The items of a list in brackets. An item with a key is a record of one member. -/
def bracketList : Nat → (line : Nat) → List Yaml → Tokens → Option (Yaml × Tokens)
  | 0, _, _, _ => none
  | fuel + 1, line, items, t => do
    let (tok, t) ← t.peek
    if tok.kind = .bracketClose then some (.list line items.reverse, t.rest)
    else
      let (v, t) ← if tok.kind = .key then bracketMember fuel tok.line t.rest else node fuel false false t
      let (tok, t) ← t.peek
      if tok.kind = .comma then bracketList fuel line (v :: items) t.rest
      else if tok.kind = .bracketClose then some (.list line (v :: items).reverse, t.rest)
      else none

/-- A record of one member in a list in brackets. Without a key, the token that ends it is passed
over. -/
def bracketMember : Nat → (line : Nat) → Tokens → Option (Yaml × Tokens)
  | 0, _, _ => none
  | fuel + 1, line, t => do
    let (tok, t) ← t.peek
    let (key, t) ←
      if [TokenKind.value, .comma, .bracketClose].contains tok.kind then some (nothing tok.line, t.rest)
      else node fuel false false t
    let (value, t) ← bracketValue fuel .bracketClose t
    some (.record line [(key, value)], t)

/-- The value behind a colon within brackets, if there is one in front of a comma or what closes
them. -/
def bracketValue : Nat → (close : TokenKind) → Tokens → Option (Yaml × Tokens)
  | 0, _, _ => none
  | fuel + 1, close, t => do
    let (tok, t) ← t.peek
    if tok.kind = .value then
      let (tok, t) ← t.rest.peek
      if tok.kind = .comma || tok.kind = close then some (nothing tok.line, t)
      else node fuel false false t
    else some (nothing tok.line, t)

/-- The members of a record in braces. -/
def braceRecord : Nat → (line : Nat) → List (Yaml × Yaml) → Tokens → Option (Yaml × Tokens)
  | 0, _, _, _ => none
  | fuel + 1, line, members, t => do
    let (tok, t) ← t.peek
    if tok.kind = .braceClose then some (.record line members.reverse, t.rest)
    else
      let (member, t) ← braceMember fuel t
      let (tok, t) ← t.peek
      if tok.kind = .comma then braceRecord fuel line (member :: members) t.rest
      else if tok.kind = .braceClose then some (.record line (member :: members).reverse, t.rest)
      else none

/-- A member of a record in braces; a value without a colon is a key. -/
def braceMember : Nat → Tokens → Option ((Yaml × Yaml) × Tokens)
  | 0, _ => none
  | fuel + 1, t => do
    let (tok, t) ← t.peek
    if tok.kind = .key then
      let (tok, t) ← t.rest.peek
      let (key, t) ←
        if [TokenKind.value, .comma, .braceClose].contains tok.kind then some (nothing tok.line, t)
        else node fuel false false t
      let (value, t) ← bracketValue fuel .braceClose t
      some ((key, value), t)
    else
      let (key, t) ← node fuel false false t
      let (tok, t) ← t.peek
      some ((key, nothing tok.line), t)

end

/-! ## Documents -/

/-- The characters that a document may hold. -/
def isAllowed (c : Char) : Bool :=
  let n := c.toNat
  n = 0x09 || n = 0x0A || n = 0x0D || (0x20 ≤ n && n ≤ 0x7E) || n = 0x85 ||
    (0xA0 ≤ n && n ≤ 0xFFFD) || 0x10000 ≤ n

/-- The text with line feeds as its line ends. -/
def withLineFeeds : List Char → List Char
  | [] => []
  | '\r' :: '\n' :: cs => '\n' :: withLineFeeds cs
  | '\r' :: cs => '\n' :: withLineFeeds cs
  | '\u0085' :: cs => '\n' :: withLineFeeds cs
  | c :: cs => c :: withLineFeeds cs

/-- The first document of the tokens, nothing if there is none. What follows it does not matter, as
long as tokens can be cut off. -/
def document (fuel : Nat) (t : Tokens) : Option (Option Yaml) := do
  let (tok, t) ← t.peek
  if tok.kind = .textEnd then some none
  else
    let (v, t) ←
      if tok.kind = .documentStart then
        nodeUnless fuel [.documentStart, .documentEnd, .textEnd] false tok.line t.rest
      else node fuel true false t
    let _ ← t.peek
    some (some v)

/-- The first document of a text, `some none` if there is none, nothing if the text is malformed. -/
def read (text : String) : Option (Option Yaml) :=
  let chars := if text.toList.head? = some '\ufeff' then text.toList.drop 1 else text.toList
  if chars.all isAllowed then
    let start := Cursor.ofText (withLineFeeds chars)
    document (4 * start.size + 8) { cursor := start }
  else none

end SemFront.Yaml
