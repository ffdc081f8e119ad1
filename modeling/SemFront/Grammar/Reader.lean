/-
Readers: the tokens of a source as a rule of the grammar sees them. A reader stands on its current
token, may look ahead, and moves on one token at a time; after the last token it stands on the end
of the input for ever. Text that is no token does not appear. Along the way a reader notes the
problems found, each with how far the tokens had been looked at, and the recoveries made; of the
problems its log keeps as many as the limit of the reader allows.
-/
import SemFront.Grammar.Log
import SemFront.Token.Scanner

namespace SemFront

/-- What is given up as a whole when a part of it cannot be read. -/
inductive SyncUnit where
  | statement
  | member
  | declaration
deriving DecidableEq, Repr

def SyncUnit.name : SyncUnit → String
  | .statement => "statement"
  | .member => "class member"
  | .declaration => "declaration"

/-- A recovery: the unit given up, how many tokens were skipped, and the token reading resumed
at. -/
structure Recovery where
  unit : SyncUnit
  skipped : Nat
  resumed : Token
deriving DecidableEq, Repr

/-- A problem and the number of tokens that had been looked at when it was found. -/
structure Report where
  problem : Problem
  reach : Nat
deriving DecidableEq, Repr

/-- The state of reading. `rest` holds the tokens from the current one on, without the end `eof`;
`taken` tokens lie before them, and `reach` tokens have been looked at, the end counting as often
as it was met. `budget` is no less than the number of tokens left and bounds every repetition.
`tokens` are those of the whole source, with the texts that are none, and `limit` is the most errors
to be kept in `log`, where 0 is no limit. -/
structure Reader where
  rest : List Token
  eof : Token
  budget : Nat
  taken : Nat := 0
  reach : Nat := 2
  tokens : List Token
  limit : Nat := 0
  log : Log := {}
  reports : Array Report := #[]
  recoveries : Array Recovery := #[]

namespace Reader

/-- A reader on the first of some tokens, with a limit on errors. -/
def ofTokens (ts : List Token) (limit : Nat := 0) : Reader :=
  let significant := ts.filter (·.kind ≠ .illegal)
  { rest := significant.filter (·.kind ≠ .eof)
    eof := (significant.find? (·.kind = .eof)).getD { kind := .eof, raw := "", span := {} }
    budget := significant.length
    tokens := ts
    limit }

/-- The current token. -/
def current (r : Reader) : Token := r.rest.headD r.eof

/-- The token `n` places after the one that follows the current token. -/
def ahead (r : Reader) (n : Nat) : Token := (r.rest.drop (n + 1)).headD r.eof

/-- The token after the current one. -/
def peek (r : Reader) : Token := r.ahead 0

/-- Moves on to the next token. -/
def advance (r : Reader) : Reader :=
  { r with rest := r.rest.tail, taken := r.taken + 1, reach := max r.reach (r.taken + 3) }

/-- Moves on by a number of tokens. -/
def advanceBy : Nat → Reader → Reader
  | 0, r => r
  | n + 1, r => advanceBy n r.advance

/-- Notes that `ahead n` has been looked at. -/
def look (r : Reader) (n : Nat) : Reader := { r with reach := max r.reach (r.taken + 2 + n) }

/-- The number of lexical errors met so far. -/
def faults (r : Reader) : Nat := faultsWithin r.reach r.tokens

/-- Notes a problem, and keeps it in the log if that has room for it. -/
def report (r : Reader) (p : Problem) : Reader :=
  { r with
    log := r.log.add r.limit r.faults p
    reports := r.reports.push { problem := p, reach := r.reach } }

/-- Notes a recovery. -/
def recovered (r : Reader) (x : Recovery) : Reader := { r with recoveries := r.recoveries.push x }

end Reader

/-- The number of tokens that follow as pairs of a dot and an identifier. -/
def chainLength : List Token → Nat
  | dot :: name :: ts =>
    if dot.kind = .punct .dot && name.kind = .ident then chainLength ts + 2 else 0
  | _ => 0

/-- The token after the dotted name that starts at the current token. Whether the chain goes on is
only known after a look behind a last dot. -/
def Reader.afterChain (r : Reader) : Token × Reader :=
  let n := chainLength r.rest.tail
  let t := r.ahead n
  (t, r.look (if t.kind = .punct .dot then n + 1 else n))

end SemFront
