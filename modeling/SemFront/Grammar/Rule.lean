/-
Rules: readings of a part of the grammar. A rule is entered on the first token of what it reads
and leaves the reader on the last one. It succeeds with a value or fails; a failed rule has
reported why, and keeps what it has read and reported.
-/
import SemFront.Grammar.Reader

namespace SemFront

/-- How a rule ends. -/
inductive Reply (α : Type) where
  | ok (value : α) (reader : Reader)
  | fail (reader : Reader)

/-- The reader after a rule, whether it succeeded or not. -/
def Reply.reader : Reply α → Reader
  | .ok _ r => r
  | .fail r => r

def Rule (α : Type) : Type := Reader → Reply α

namespace Rule

def pure (a : α) : Rule α := fun r => .ok a r

def bind (x : Rule α) (f : α → Rule β) : Rule β := fun r =>
  match x r with
  | .ok a r => f a r
  | .fail r => .fail r

instance : Monad Rule where
  pure := Rule.pure
  bind := Rule.bind

instance : Inhabited (Rule α) := ⟨fun r => .fail r⟩

def fail : Rule α := fun r => .fail r

/-- The result of a rule, or nothing if it fails. -/
def attempt (x : Rule α) : Rule (Option α) := fun r =>
  match x r with
  | .ok a r => .ok (some a) r
  | .fail r => .ok none r

def current : Rule Token := fun r => .ok r.current r

def peek : Rule Token := fun r => .ok r.peek r

/-- The token `n` places after the one that follows the current token. -/
def ahead (n : Nat) : Rule Token := fun r => .ok (r.ahead n) (r.look n)

/-- The token after the dotted name that starts at the current token. -/
def afterChain : Rule Token := fun r => .ok r.afterChain.1 r.afterChain.2

def advance : Rule Unit := fun r => .ok () r.advance

def report (p : Problem) : Rule Unit := fun r => .ok () (r.report p)

/-- Reports that something else was wanted than the token found, and fails. -/
def refuse (what : Wanted) (found : Token) : Rule α := do
  report (.expected what found)
  fail

/-- Moves on to the next token if it is of the given kind. -/
def expect (k : Kind) : Rule Unit := do
  let t ← peek
  if t.kind = k then advance else refuse (.token k) t

/-- Moves on to the next token if it is a word. -/
def expectWord (what : Wanted) : Rule Unit := do
  let t ← peek
  if t.kind.isWord then advance else refuse what t

/-- What one round of a repetition ends with. -/
inductive Round (σ : Type) where
  | again (state : σ)
  | stop (state : σ)

/-- At most `rounds` rounds of a repetition. -/
def rounds (round : σ → Rule (Round σ)) : (rounds : Nat) → σ → Rule σ
  | 0, s => Rule.pure s
  | n + 1, s => do
    match ← round s with
    | .again s => Rule.rounds round n s
    | .stop s => Rule.pure s

/-- Repeats a round until it stops. Every round but the last must consume a token. -/
def loop (round : σ → Rule (Round σ)) (s : σ) : Rule σ := fun r =>
  rounds round (r.budget + 1) s r

/-- One more item of a list, with the comma or the closing token behind it. A comma before the
closing token is refused. -/
def itemRound (closing : Punct) (what : Wanted) (item : Rule α) (xs : Array α) : Rule (Round (Array α)) := do
  let x ← item
  let t ← peek
  if t.kind = .punct .comma then
    advance
    advance
    let t ← current
    if t.kind = .punct closing then refuse what t else return .again (xs.push x)
  else if t.kind = .punct closing then
    advance
    return .stop (xs.push x)
  else refuse (.commaOr closing) t

/-- One or more items with commas between them, up to a closing token, from the first item on. -/
def items (closing : Punct) (what : Wanted) (item : Rule α) : Rule (List α) := do
  let xs ← loop (itemRound closing what item) #[]
  return xs.toList

/-- As `items`, refusing an empty list. -/
def someItems (closing : Punct) (what : Wanted) (item : Rule α) : Rule (List α) := do
  let t ← current
  if t.kind = .punct closing then refuse what t else items closing what item

/-- As `items`, or nothing before the closing token. -/
def manyItems (closing : Punct) (what : Wanted) (item : Rule α) : Rule (List α) := do
  let t ← current
  if t.kind = .punct closing then return [] else items closing what item

end Rule
end SemFront
