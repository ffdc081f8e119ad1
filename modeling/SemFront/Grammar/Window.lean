/-
Windows: the tokens of a source as they are fetched from a scanner. A window shows the current token and
the one after it. A look further ahead fetches more tokens, which wait until the window comes to them, so
that nothing is fetched before it is asked for. Text that is no token is dropped on the way.
-/
import SemFront.Token.Scanner

namespace SemFront

namespace Scanner

/-- The next token of the language, past at most `budget` texts that are no tokens. -/
def fetchWithin : (budget : Nat) → Scanner → Token × Scanner
  | 0, s => s.next
  | budget + 1, s => if s.next.1.kind = .illegal then fetchWithin budget s.next.2 else s.next

/-- The next token of the language; no more texts that are none can come before it than there are
characters. -/
def fetch (s : Scanner) : Token × Scanner := s.fetchWithin s.rest.length

end Scanner

/-- A window on the tokens of a scanner. The tokens that `waiting` holds come behind `peek`. -/
structure Window where
  scanner : Scanner
  current : Token := default
  peek : Token := default
  waiting : List Token := []

namespace Window

/-- Moves on to the next token. -/
def advance (w : Window) : Window :=
  match w.waiting with
  | t :: ts => { w with current := w.peek, peek := t, waiting := ts }
  | [] => { w with scanner := w.scanner.fetch.2, current := w.peek, peek := w.scanner.fetch.1 }

/-- The window on the first two tokens of a source. -/
def ofSource (file source : String) : Window :=
  ({ scanner := { Scanner.ofText source with file } } : Window).advance.advance

/-- Lets one more token wait. -/
def fetchOne (w : Window) : Window :=
  { w with scanner := w.scanner.fetch.2, waiting := w.waiting ++ [w.scanner.fetch.1] }

/-- Lets `n` more tokens wait, but none behind the end of the input. -/
def fill : (n : Nat) → Window → Window
  | 0, w => w
  | n + 1, w => if w.scanner.fetch.1.kind = .eof then w.fetchOne else fill n w.fetchOne

/-- The token `n` places after the next one, or the end of the input if it comes before that. -/
def ahead (w : Window) (n : Nat) : Token × Window :=
  let w := w.fill (n - w.waiting.length)
  ((w.peek :: w.waiting).getD (min n w.waiting.length) w.peek, w)

end Window
end SemFront
