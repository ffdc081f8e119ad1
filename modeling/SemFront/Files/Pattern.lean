/-
File name patterns. A star stands for any run of bytes without a slash, a question mark for one
character but a slash, brackets for one character of a class, and a backslash makes the character
behind it stand for itself. Names are matched byte by byte; a byte that is not part of a character
counts as one.
-/
import SemFront.Text.Bytes

namespace SemFront

namespace Pattern

/-- What one step of a pattern matches. -/
inductive Step where
  | byte (b : UInt8)
  | any
  | choice (negated : Bool) (ranges : List (Nat × Nat))
deriving DecidableEq, Repr

/-- Steps that match one after the other, perhaps behind a star. -/
structure Chunk where
  star : Bool
  steps : List Step
deriving DecidableEq, Repr

end Pattern

/-- A pattern: its chunks in order. Only the last chunk can be a star alone. -/
structure Pattern where
  chunks : List Pattern.Chunk
deriving DecidableEq, Repr

namespace Pattern

def slash : UInt8 := 0x2F
def star : UInt8 := 0x2A
def query : UInt8 := 0x3F
def opening : UInt8 := 0x5B
def closing : UInt8 := 0x5D
def caret : UInt8 := 0x5E
def dash : UInt8 := 0x2D
def backslash : UInt8 := 0x5C

/-! ## Reading a pattern -/

/-- The bytes up to the next star outside brackets, and the rest. A backslash takes the byte behind
it along. -/
def cut (inBrackets : Bool) : List UInt8 → List UInt8 × List UInt8
  | [] => ([], [])
  | [b] => if b = star && !inBrackets then ([], [b]) else ([b], [])
  | b :: c :: bs =>
    if b = backslash then
      let (chunk, rest) := cut inBrackets bs
      (b :: c :: chunk, rest)
    else if b = star && !inBrackets then ([], b :: c :: bs)
    else
      let inside := if b = opening then true else if b = closing then false else inBrackets
      let (chunk, rest) := cut inside (c :: bs)
      (b :: chunk, rest)

/-- A character in brackets, which something has to follow. -/
def classChar? : List UInt8 → Option (Nat × List UInt8)
  | [] => none
  | b :: bs =>
    if b = dash || b = closing then none
    else
      let text := if b = backslash then bs else b :: bs
      match text with
      | [] => none
      | c :: cs =>
        let (char, size) := Text.Bytes.first c cs
        let rest := cs.drop (size - 1)
        if (char = Text.Bytes.replacement && size = 1) || rest.isEmpty then none
        else some (char.toNat, rest)

/-- The ranges of a class up to its closing bracket; there is at least one. -/
def ranges? : (fuel : Nat) → (found : List (Nat × Nat)) → List UInt8 →
    Option (List (Nat × Nat) × List UInt8)
  | 0, _, _ => none
  | fuel + 1, found, bs =>
    match bs with
    | b :: rest =>
      if b = closing && !found.isEmpty then some (found.reverse, rest)
      else
        match classChar? bs with
        | none => none
        | some (low, rest) =>
          match rest with
          | c :: cs =>
            if c = dash then
              match classChar? cs with
              | none => none
              | some (high, after) => ranges? fuel ((low, high) :: found) after
            else ranges? fuel ((low, low) :: found) rest
          | [] => none
    | [] => none

/-- The steps of a chunk; nothing if it is malformed. -/
def steps? : (fuel : Nat) → List UInt8 → Option (List Step)
  | _, [] => some []
  | 0, _ :: _ => none
  | fuel + 1, b :: bs =>
    if b = opening then
      let negated := bs.head? = some caret
      match ranges? (bs.length + 1) [] (if negated then bs.drop 1 else bs) with
      | none => none
      | some (ranges, rest) => (steps? fuel rest).map (Step.choice negated ranges :: ·)
    else if b = query then (steps? fuel bs).map (Step.any :: ·)
    else if b = backslash then
      match bs with
      | [] => none
      | c :: cs => (steps? fuel cs).map (Step.byte c :: ·)
    else (steps? fuel bs).map (Step.byte b :: ·)

/-- The chunks of a pattern; nothing if one is malformed. -/
def chunks? : (fuel : Nat) → List UInt8 → Option (List Chunk)
  | _, [] => some []
  | 0, _ :: _ => none
  | fuel + 1, b :: bs =>
    let body := (b :: bs).dropWhile (· = star)
    let (chunk, rest) := cut false body
    match steps? chunk.length chunk, chunks? fuel rest with
    | some steps, some chunks => some ({ star := b = star, steps } :: chunks)
    | _, _ => none

/-- The pattern with a spelling; nothing if it is malformed. -/
def ofString? (s : String) : Option Pattern :=
  let bytes := s.toUTF8.toList
  (chunks? bytes.length bytes).map Pattern.mk

/-! ## Matching -/

/-- What is left of a name behind one step. -/
def Step.rest? : Step → List UInt8 → Option (List UInt8)
  | _, [] => none
  | .byte b, c :: cs => if b = c then some cs else none
  | .any, c :: cs => if c = slash then none else some (cs.drop ((Text.Bytes.first c cs).2 - 1))
  | .choice negated ranges, c :: cs =>
    let (char, size) := Text.Bytes.first c cs
    let inside := ranges.any fun (low, high) => low ≤ char.toNat && char.toNat ≤ high
    if inside = negated then none else some (cs.drop (size - 1))

/-- What is left of a name behind some steps. -/
def rest? : List Step → List UInt8 → Option (List UInt8)
  | [], name => some name
  | s :: ss, name => (s.rest? name).bind (rest? ss)

/-- What is left behind the steps, which have to end the name if they are the last. -/
def fit? (steps : List Step) (last : Bool) (name : List UInt8) : Option (List UInt8) :=
  (rest? steps name).filter fun rest => !last || rest.isEmpty

/-- What is left behind the first place where the steps fit, with one byte or more before it and no
slash among them. -/
def search? (steps : List Step) (last : Bool) : List UInt8 → Option (List UInt8)
  | [] => none
  | c :: cs =>
    if c = slash then none
    else
      match fit? steps last cs with
      | some rest => some rest
      | none => search? steps last cs

/-- Whether chunks match a whole name. -/
def matchChunks : List Chunk → List UInt8 → Bool
  | [], name => name.isEmpty
  | chunk :: chunks, name =>
    if chunk.star && chunk.steps.isEmpty then !name.contains slash
    else
      match fit? chunk.steps chunks.isEmpty name with
      | some rest => matchChunks chunks rest
      | none =>
        if chunk.star then
          match search? chunk.steps chunks.isEmpty name with
          | some rest => matchChunks chunks rest
          | none => false
        else false

/-- Whether the pattern matches a name. -/
def accepts (p : Pattern) (name : String) : Bool := matchChunks p.chunks name.toUTF8.toList

end Pattern
end SemFront
