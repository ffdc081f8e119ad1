/-
The errors that are kept of the problems found: a repetition of the error before it is left out, and
from a limit on, which counts the lexical errors met so far too, one last error stands for all that
follow.
-/
import SemFront.Grammar.Problem

namespace SemFront

/-- The number of lexical errors met on the way to the first `reach` significant tokens. -/
def faultsWithin : (reach : Nat) → List Token → Nat
  | 0, _ => 0
  | _, [] => 0
  | n + 1, t :: ts => if t.kind = .illegal then faultsWithin (n + 1) ts + 1 else faultsWithin n ts

/-- The problems kept, newest first, and whether the limit has been met. -/
structure Log where
  kept : List Problem := []
  isFull : Bool := false
deriving DecidableEq, Repr

/-- Adds a problem that was found after `lexical` lexical errors. A limit of 0 is none. -/
def Log.add (limit lexical : Nat) (log : Log) (p : Problem) : Log :=
  if log.isFull then log
  else if log.kept.head?.any (·.repeats p) then log
  else if 0 < limit && limit ≤ log.kept.length + lexical then
    { kept := .tooMany limit p.error.span :: log.kept, isFull := true }
  else { log with kept := p :: log.kept }

end SemFront
