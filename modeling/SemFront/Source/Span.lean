/-
Spans: the part of a source that a token, a node or a message is about.
-/
import SemFront.Source.Position

namespace SemFront

/-- A part of a source. `start` and `stop` are code point offsets, `stop` exclusive; `line` and
`column` are those of `start`; `file` is empty for a source without a name. -/
structure Span where
  file : String := ""
  line : Int := 0
  column : Int := 0
  start : Int := 0
  stop : Int := 0
deriving DecidableEq, Repr, Inhabited

namespace Span

/-- The part of a file from one position to another. -/
def between (file : String) (p q : Position) : Span :=
  { file, line := p.line, column := p.column, start := p.offset, stop := q.offset }

/-- Where the span starts, as `line:column`, after the file if it has a name. -/
def place (s : Span) : String :=
  let at_ := toString s.line ++ ":" ++ toString s.column
  if s.file = "" then at_ else s.file ++ ":" ++ at_

/-- The span from the start of one part to the end of another that does not end before it. -/
def through (s t : Span) : Span := { s with stop := max s.stop t.stop }

/-- Whether the span has a place in a source. -/
def isPlaced (s : Span) : Bool := 0 < s.line && 0 < s.column

end Span
end SemFront
