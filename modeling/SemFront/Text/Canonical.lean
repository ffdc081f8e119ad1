/-
The composed canonical form of a text: every character is decomposed, combining marks are put in
the order of their classes, and a mark is composed with the base before it where a composed
character exists and no mark in between blocks it. A run of more than thirty marks is cut by a
joiner, so that the work for one base is bounded.
-/
import SemFront.Text.Canonical.Table

namespace SemFront.Text.Canonical

/-! ## Looking characters up -/

/-- The combining class of a code point; a base has class 0. -/
def classOf (n : Nat) : Nat :=
  if n < 0x300 then 0
  else match classes.find? fun e => e.1 ≤ n && n ≤ e.2.1 with
    | some e => e.2.2
    | none => 0

/-- What a character that stands for one other character stands for. -/
def single? (n : Nat) : Option Nat :=
  singleRuns.findSome? fun run => if run.1 ≤ n then run.2[n - run.1]? else none

/-- The base and the mark of a composed character. -/
def pair? (n : Nat) : Option (Nat × Nat) :=
  let find (ps : List (Nat × Nat × Nat)) := ps.findSome? fun p => if p.1 = n then some p.2 else none
  find latinPairs <|> find greekPairs <|> find otherPairs <|> find pairsApart

/-- The composed character of a base and a mark. -/
def composed? (base mark : Nat) : Option Nat :=
  let find (ps : List (Nat × Nat × Nat)) :=
    ps.findSome? fun p => if p.2 = (base, mark) then some p.1 else none
  find latinPairs <|> find greekPairs <|> find otherPairs

/-! ## Hangul syllables

A syllable is numbered by its leading consonant, its vowel and its optional trailing consonant. -/

def syllableFirst : Nat := 0xAC00
def leadFirst : Nat := 0x1100
def vowelFirst : Nat := 0x1161
def trailFirst : Nat := 0x11A7
def leadCount : Nat := 19
def vowelCount : Nat := 21
def trailCount : Nat := 28

/-- The parts of a syllable. -/
def syllableParts? (n : Nat) : Option (List Nat) :=
  if syllableFirst ≤ n && n < syllableFirst + leadCount * vowelCount * trailCount then
    let i := n - syllableFirst
    let head := [leadFirst + i / (vowelCount * trailCount),
      vowelFirst + i % (vowelCount * trailCount) / trailCount]
    some (if i % trailCount = 0 then head else head ++ [trailFirst + i % trailCount])
  else none

/-- The syllable of a leading consonant and a vowel, or of such a syllable and a trailing
consonant. -/
def syllable? (a b : Nat) : Option Nat :=
  if leadFirst ≤ a && a < leadFirst + leadCount && vowelFirst ≤ b && b < vowelFirst + vowelCount then
    some (syllableFirst + ((a - leadFirst) * vowelCount + (b - vowelFirst)) * trailCount)
  else if syllableFirst ≤ a && a < syllableFirst + leadCount * vowelCount * trailCount &&
      (a - syllableFirst) % trailCount = 0 && trailFirst < b && b < trailFirst + trailCount then
    some (a + (b - trailFirst))
  else none

/-! ## The steps -/

/-- The full decomposition of a code point; mappings nest at most `depth` deep. -/
def decompose : (depth : Nat) → Nat → List Nat
  | 0, n => [n]
  | depth + 1, n =>
    if n < 0xC0 then [n]
    else match syllableParts? n with
      | some parts => parts
      | none => match single? n with
        | some m => decompose depth m
        | none => match pair? n with
          | some (base, mark) => decompose depth base ++ [mark]
          | none => [n]

/-- Whether a code point can join what is before it. -/
def joinsBefore (n : Nat) : Bool :=
  let second (ps : List (Nat × Nat × Nat)) := ps.any fun p => p.2.2 = n
  0x300 ≤ n && (classOf n ≠ 0 || (vowelFirst ≤ n && n < vowelFirst + vowelCount) ||
    (trailFirst < n && n < trailFirst + trailCount) || second latinPairs || second greekPairs ||
    second otherPairs)

/-- The joiner that cuts long runs of marks. -/
def joiner : Nat := 0x34F

/-- The most marks in a row. -/
def longestRun : Nat := 30

/-- The code points with a joiner before each mark that would make a run too long; `run` marks are in
front. -/
def separated : (run : Nat) → List Nat → List Nat
  | _, [] => []
  | run, n :: ns =>
    let parts := decompose 8 n
    let leading := (parts.takeWhile joinsBefore).length
    if leading = 0 then n :: separated (parts.reverse.takeWhile joinsBefore).length ns
    else if longestRun < run + leading then joiner :: n :: separated leading ns
    else n :: separated (run + leading) ns

/-- Puts a mark behind the marks of its class and before those of higher classes; the list holds
the newest character first, each with its class. -/
def place (m : Nat × Nat) : List (Nat × Nat) → List (Nat × Nat)
  | [] => [m]
  | p :: ps => if m.2 ≠ 0 && m.2 < p.2 then p :: place m ps else m :: p :: ps

/-- The code points with their classes, marks in the order of their classes. -/
def ordered (ns : List Nat) : List (Nat × Nat) :=
  (ns.foldl (fun done n => place (n, classOf n) done) []).reverse

/-- What has been composed so far: finished characters, newest first, the base that may still
take marks, and the marks after it that it did not take, newest first. -/
structure Composition where
  done : List Nat := []
  base : Option Nat := none
  marks : List (Nat × Nat) := []

/-- Gives up the base and its marks. -/
def Composition.flush (c : Composition) : List Nat :=
  c.marks.map (·.1) ++ c.base.toList ++ c.done

/-- Composes the next character with the base unless a mark in between blocks it. -/
def Composition.add (c : Composition) (m : Nat × Nat) : Composition :=
  let free := match c.marks with
    | [] => true
    | last :: _ => last.2 < m.2
  let joined := c.base.bind fun b => if free then syllable? b m.1 <|> composed? b m.1 else none
  match joined with
  | some n => { c with base := some n }
  | none =>
    if m.2 = 0 then { done := c.flush, base := some m.1 }
    else match c.base with
      | some _ => { c with marks := m :: c.marks }
      | none => { c with done := m.1 :: c.done }

/-- The composed form of a list of code points. -/
def compose (ns : List Nat) : List Nat :=
  ((ordered ((separated 0 ns).flatMap (decompose 8))).foldl Composition.add {}).flush.reverse

end SemFront.Text.Canonical

namespace SemFront.Text

/-- The composed canonical form of a text. -/
def canonical (s : String) : String :=
  if s.toList.all (·.toNat < 0xC0) then s
  else String.ofList ((Canonical.compose (s.toList.map Char.toNat)).map Char.ofNat)

end SemFront.Text
