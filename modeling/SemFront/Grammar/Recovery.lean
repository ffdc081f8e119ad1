/-
Recovery: after a unit could not be read, tokens are given up to the start of the next one. Braces
are balanced on the way, so that a broken statement never takes the brace that closes its block.
-/
import SemFront.Grammar.Rule

namespace SemFront

/-- Whether a token starts a declaration by itself. -/
def Kind.startsDecl : Kind → Bool
  | .keyword .classWord | .keyword .use | .keyword .alias => true
  | _ => false

/-- Whether a token starts a statement by itself. -/
def Kind.startsStmt : Kind → Bool
  | .keyword .if | .keyword .while | .keyword .with | .keyword .return => true
  | _ => false

/-- Two tokens are the same one of a source. -/
def Token.isSame (s t : Token) : Bool :=
  s.kind = t.kind && s.span.start = t.span.start && s.span.stop = t.span.stop

/-- Whether a function head `a.b(` starts at a token. -/
def startsFunction (t : Token) (ts : List Token) : Bool :=
  t.kind = .ident && ((ts.drop (chainLength ts)).head?.map (·.kind)) = some (.punct .lparen)

/-- What makes a token outside of braces the start of the next unit. -/
inductive Boundary where
  | function
  | other
deriving DecidableEq, Repr

/-- Whether the next unit starts at a token. -/
def boundary? (unit : SyncUnit) (t : Token) (ts : List Token) : Option Boundary :=
  match unit with
  | .statement => if t.kind.startsStmt then some .other else none
  | .declaration =>
    if t.kind.startsDecl then some .other
    else if startsFunction t ts then some .function
    else none
  | .member =>
    if t.kind.startsDecl then some .other
    else if startsFunction t ts then some .function
    else if t.kind = .ident && (ts.head?.map (·.kind)) = some (.punct .colon) then some .other
    else none

/-- How many tokens are given up, and whether that ends in front of a function head. -/
structure Skip where
  count : Nat := 0
  atFunction : Bool := false
deriving DecidableEq, Repr

/-- One more token before the others. -/
def Skip.succ (s : Skip) : Skip := { s with count := s.count + 1 }

/-- The tokens given up inside `depth` braces. A semicolon ends the unit and goes with it, and so
does, other than for statements, a closing brace of the unit with a semicolon behind it. A closing
brace of what is around the unit ends it; a declaration takes it along as a stray one. -/
def skipFrom (unit : SyncUnit) : (depth : Nat) → List Token → Skip
  | _, [] => {}
  | depth, t :: ts =>
    if t.kind = .punct .lbrace then (skipFrom unit (depth + 1) ts).succ
    else if t.kind = .punct .rbrace then
      match depth with
      | 0 => if unit = .declaration then { count := 1 } else {}
      | depth + 1 =>
        if depth = 0 && unit ≠ .statement then
          if (ts.head?.map (·.kind)) = some (.punct .semicolon) then { count := 2 } else { count := 1 }
        else (skipFrom unit depth ts).succ
    else if depth ≠ 0 then (skipFrom unit depth ts).succ
    else if t.kind = .punct .semicolon then { count := 1 }
    else match boundary? unit t ts with
      | some b => { atFunction := b = .function }
      | none => (skipFrom unit 0 ts).succ

/-- The tokens given up when not even the first token of a unit could be read: that token goes in
any case. -/
def skipUnit (unit : SyncUnit) : List Token → Skip
  | [] => {}
  | t :: ts =>
    if t.kind = .punct .semicolon then { count := 1 }
    else if t.kind = .punct .rbrace && unit = .declaration then { count := 1 }
    else if t.kind = .punct .lbrace then (skipFrom unit 1 ts).succ
    else (skipFrom unit 0 ts).succ

/-- A span extended over some tokens. -/
def Span.over (s : Span) (ts : List Token) : Span := ts.foldl (fun s t => s.through t.span) s

/-- Gives up the rest of a unit that began at `start`. The current token is then the first of the
next unit, and the result covers what was given up. -/
def Rule.recover (unit : SyncUnit) (start : Token) : Rule Span := fun r =>
  let skip := if r.current.isSame start then skipUnit unit r.rest else skipFrom unit 0 r.rest
  let after := r.advanceBy skip.count
  let after := if skip.atFunction then after.afterChain.2 else after
  .ok (start.span.over (r.rest.take skip.count))
    (after.recovered { unit, skipped := skip.count, resumed := after.current })

end SemFront
