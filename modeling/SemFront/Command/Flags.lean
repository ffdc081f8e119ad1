/-
Flags of the command line: `--name value`, `--name=value`, single letters behind one dash, and `--`,
behind which nothing is a flag. Flags and arguments may be mixed.
-/
import SemFront.Text.Integer
import SemFront.Text.Quoted

namespace SemFront

/-- What the flags say. An empty text or a negative number says nothing. -/
structure Flags where
  config : String := "semlang.yaml"
  format : String := ""
  logLevel : String := ""
  maxErrors : Int := -1
  help : Bool := false
  version : Bool := false
deriving DecidableEq, Repr

/-- Why flags could not be read. -/
inductive FlagError where
  | malformed (arg : String)
  | unknown (name : String)
  | unknownLetter (letter : Char) (letters : String)
  | valueMissing (name : String)
  | badNumber (value name : String) (fault : Text.IntegerFault)
  | badBool (value name : String)
deriving DecidableEq, Repr

/-- A character between single quotes. -/
def FlagError.quotedLetter (c : Char) : String :=
  "'" ++ (if c = '\'' then "\\'" else if c = '"' then "\"" else Text.Quoted.escape c) ++ "'"

def FlagError.message : FlagError → String
  | .malformed arg => "bad flag syntax: " ++ arg
  | .unknown name => "unknown flag: --" ++ name
  | .unknownLetter c letters =>
    "unknown shorthand flag: " ++ quotedLetter c ++ " in -" ++ letters
  | .valueMissing name => "flag needs an argument: --" ++ name
  | .badNumber value name fault =>
    "invalid argument " ++ Text.quoted value ++ " for \"" ++ name ++
      "\" flag: strconv.ParseInt: parsing " ++ Text.quoted value ++ ": " ++ fault.message
  | .badBool value name =>
    "invalid argument " ++ Text.quoted value ++ " for \"" ++ name ++
      "\" flag: strconv.ParseBool: parsing " ++ Text.quoted value ++ ": invalid syntax"

namespace Flags

/-- A truth value of a flag. -/
def bool? (s : String) : Option Bool :=
  if ["1", "t", "T", "TRUE", "true", "True"].contains s then some true
  else if ["0", "f", "F", "FALSE", "false", "False"].contains s then some false
  else none

/-- Sets a flag that takes a value; nothing if there is none with this name. -/
def setValue? (f : Flags) (name value : String) : Option (Except FlagError Flags) :=
  match name with
  | "config" => some (.ok { f with config := value })
  | "format" => some (.ok { f with format := value })
  | "log-level" => some (.ok { f with logLevel := value })
  | "max-errors" =>
    match Text.Integer.based value with
    | .ok n => some (.ok { f with maxErrors := n })
    | .error fault => some (.error (.badNumber value "--max-errors" fault))
  | _ => none

/-- Sets a flag that can stand without a value; nothing if there is none with this name. Only the
program itself, not one of its commands, can be asked for its version. -/
def setSwitch? (top : Bool) (f : Flags) (name value : String) : Option (Except FlagError Flags) :=
  let set (shown : String) (change : Bool → Flags) : Option (Except FlagError Flags) :=
    match bool? value with
    | some b => some (.ok (change b))
    | none => some (.error (.badBool value shown))
  match name, top with
  | "help", _ => set "-h, --help" fun b => { f with help := b }
  | "version", true => set "-v, --version" fun b => { f with version := b }
  | _, _ => none

/-- The name of the flag with a letter. -/
def letterName : Char → Option String
  | 'h' => some "help"
  | 'v' => some "version"
  | _ => none

/-- The first byte of some letters as a character. -/
def firstByte (letters : List Char) : Char :=
  Char.ofNat (((String.ofList letters).toUTF8.toList.head?.getD 0).toNat)

/-- Flags by letters behind one dash. -/
def setLetters (top : Bool) : Flags → List Char → Except FlagError Flags
  | f, [] => .ok f
  | f, c :: cs =>
    let unknown : Except FlagError Flags :=
      .error (.unknownLetter (firstByte (c :: cs)) (String.ofList (c :: cs)))
    match letterName c, cs with
    | none, _ => unknown
    | some name, '=' :: d :: ds => (setSwitch? top f name (String.ofList (d :: ds))).getD unknown
    | some name, _ =>
      match setSwitch? top f name "true" with
      | none => unknown
      | some (.error e) => .error e
      | some (.ok f) => setLetters top f cs

/-- The part of a flag before its first equals sign, and the part behind it. -/
def splitValue (cs : List Char) : String × Option String :=
  let name := String.ofList (cs.takeWhile (· ≠ '='))
  match cs.dropWhile (· ≠ '=') with
  | [] => (name, none)
  | _ :: value => (name, some (String.ofList value))

/-- Reads flags and arguments. -/
def read (top : Bool) (f : Flags) (args : List String) : List String →
    Except FlagError (Flags × List String)
  | [] => .ok (f, args.reverse)
  | s :: rest =>
    match s.toList with
    | ['-', '-'] => .ok (f, args.reverse ++ rest)
    | '-' :: '-' :: cs =>
      if cs.head? = some '-' || cs.head? = some '=' then .error (.malformed s)
      else
        match splitValue cs with
        | (name, some value) =>
          match f.setValue? name value, setSwitch? top f name value with
          | some (.ok f), _ | none, some (.ok f) => read top f args rest
          | some (.error e), _ | none, some (.error e) => .error e
          | none, none => .error (.unknown name)
        | (name, none) =>
          match setSwitch? top f name "true" with
          | some (.ok f) => read top f args rest
          | some (.error e) => .error e
          | none =>
            if (f.setValue? name "").isNone then .error (.unknown name)
            else
              match rest with
              | [] => .error (.valueMissing name)
              | value :: rest =>
                match f.setValue? name value with
                | some (.ok f) => read top f args rest
                | some (.error e) => .error e
                | none => .error (.unknown name)
    | '-' :: c :: cs =>
      match setLetters top f (c :: cs) with
      | .ok f => read top f args rest
      | .error e => .error e
    | _ => read top f (s :: args) rest

end Flags
end SemFront
