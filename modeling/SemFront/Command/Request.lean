/-
What a command line asks for. The first word that is neither a flag nor the value of one names the
command; a word that is close to the name of a command is answered with that name.
-/
import SemFront.Command.Flags

namespace SemFront

/-- What the program can do. -/
inductive Command where
  | tokens
  | parse
  | check
  | watch
deriving DecidableEq, Repr

def Command.name : Command → String
  | .tokens => "tokens"
  | .parse => "parse"
  | .check => "check"
  | .watch => "watch"

def Command.all : List Command := [.tokens, .parse, .check, .watch]

def Command.ofName? (s : String) : Option Command := all.find? (·.name = s)

/-- The number of arguments a command takes, if that is fixed. -/
def Command.arity? : Command → Option Nat
  | .tokens | .parse => some 1
  | .check | .watch => none

/-- A request to the program. -/
inductive Request where
  | help
  | version
  | command (name : Command) (flags : Flags) (args : List String)
deriving DecidableEq, Repr

/-- Why a command line asks for nothing. -/
inductive RequestError where
  | flag (e : FlagError)
  | unknownCommand (name : String)
  | arity (expected received : Nat)
deriving DecidableEq, Repr

namespace Request

/-- The words that name something to run, in the order in which they are proposed. -/
def topics : List String := Command.all.map Command.name ++ ["completion"]

/-- One row of the table of distances, for one more letter: `above` is the row before. -/
def distanceRow (c : Char) : (left : Nat) → (above : List Nat) → List Char → List Nat
  | left, a :: b :: above, d :: ds =>
    let here := if c = d then a else 1 + min (min left b) a
    here :: distanceRow c here (b :: above) ds
  | _, _, _ => []

/-- The least number of letters to insert, delete or exchange between two words. -/
def distance (s t : List Char) : Nat :=
  let rows := s.foldl (fun (row : List Nat) c =>
    let first := row.headD 0 + 1
    first :: distanceRow c first row t) (List.range (t.length + 1))
  rows.getLastD 0

/-- The topics that a word is close to: at most two letters away, or longer. -/
def proposals (word : String) : List String :=
  let lower := word.toList.map Char.toLower
  topics.filter fun t => distance lower t.toList ≤ 2 || lower.isPrefixOf t.toList

/-- Whether a word is a flag behind which its value stands. -/
def takesValue (s : String) : Bool :=
  let cs := s.toList
  cs.head? = some '-' && !cs.contains '=' &&
    (cs.take 2 = ['-', '-'] || s.utf8ByteSize = 2)

/-- The first word that is neither a flag nor the value of one. A flag with only its value behind it
ends the search. -/
def firstWord : List String → Option String
  | [] => none
  | s :: rest =>
    if s = "--" then none
    else if takesValue s then
      match rest with
      | [] | [_] => none
      | _ :: rest => firstWord rest
    else if s ≠ "" && s.toList.head? ≠ some '-' then some s
    else firstWord rest

/-- The words without the one that names the command. -/
def withoutWord (word : String) : List String → List String
  | [] => []
  | s :: rest =>
    if s = "--" then s :: rest
    else if takesValue s then
      match rest with
      | [] => [s]
      | value :: rest => s :: value :: withoutWord word rest
    else if s = word then rest
    else s :: withoutWord word rest

/-- What a command line asks for. -/
def ofArgs (args : List String) : Except RequestError Request :=
  match firstWord args with
  | none =>
    match Flags.read true {} [] args with
    | .error e => .error (.flag e)
    | .ok (f, _) => .ok (if f.version && !f.help then .version else .help)
  | some word =>
    match Command.ofName? word with
    | some c =>
      match Flags.read false {} [] (withoutWord word args) with
      | .error e => .error (.flag e)
      | .ok (f, rest) =>
        if f.help then .ok .help
        else
          match c.arity? with
          | none => .ok (.command c f rest)
          | some n =>
            if rest.length = n then .ok (.command c f rest)
            else .error (.arity n rest.length)
    | none => if word = "help" || word = "completion" then .ok .help else .error (.unknownCommand word)

end Request

def RequestError.message : RequestError → String
  | .flag e => e.message
  | .unknownCommand name =>
    let proposals := Request.proposals name
    "unknown command " ++ Text.quoted name ++ " for \"semlang\"" ++
      (if proposals = [] then ""
        else "\n\nDid you mean this?\n" ++ String.join (proposals.map fun p => "\t" ++ p ++ "\n"))
  | .arity expected received =>
    "accepts " ++ toString expected ++ " arg(s), received " ++ toString received

end SemFront
