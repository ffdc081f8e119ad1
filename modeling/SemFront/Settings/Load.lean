/-
Loading and saving settings. They are loaded from a file if there is one, then from the environment.
Keys that are not known are passed over, and a key without a value leaves what it sets as it is, or
empties a list.
-/
import SemFront.Files.Disk
import SemFront.Settings.Setting
import SemFront.Text.Bytes
import SemFront.Text.Quoted
import SemFront.Yaml.Basic
import SemFront.Yaml.Resolve

namespace SemFront

namespace Settings

/-- What a value was expected to be. -/
inductive Expected where
  | string
  | int
  | bool
  | strings
  | settings
deriving DecidableEq, Repr

def Expected.name : Expected → String
  | .string => "string"
  | .int => "int"
  | .bool => "bool"
  | .strings => "[]string"
  | .settings => "config.Config"

/-- A value that does not fit, or a key that is there twice. -/
inductive Misfit where
  | scalar (line : Nat) (meaning : Yaml.Meaning) (text : String) (expected : Expected)
  | list (line : Nat) (expected : Expected)
  | record (line : Nat) (expected : Expected)
  | duplicate (line : Nat) (key : String) (first : Nat)
deriving DecidableEq, Repr

namespace Misfit

/-- A text of more than ten bytes is cut to seven. -/
def shortened (s : String) : String :=
  if 10 < s.utf8ByteSize then Text.Bytes.decode (s.toUTF8.toList.take 7) ++ "..." else s

def message : Misfit → String
  | .scalar line m text expected =>
    "line " ++ toString line ++ ": cannot unmarshal " ++ m.tag ++ " `" ++ shortened text ++
      "` into " ++ expected.name
  | .list line expected =>
    "line " ++ toString line ++ ": cannot unmarshal !!seq into " ++ expected.name
  | .record line expected =>
    "line " ++ toString line ++ ": cannot unmarshal !!map into " ++ expected.name
  | .duplicate line key first =>
    "line " ++ toString line ++ ": mapping key " ++ Text.quoted key ++ " already defined at line " ++
      toString first

end Misfit

/-- A value that was read, or nothing, and what did not fit. -/
abbrev Decoded (α : Type) := Option α × List Misfit

/-- The first whole number that is too large for a setting; its negative is the smallest. -/
def intLimit : Int := Text.Integer.signedLimit

/-- A whole number for a setting; one out of range becomes the smallest. -/
def clamped (n : Int) : Int := if n < -intLimit || intLimit ≤ n then -intLimit else n

/-- Keys that are there more than once, each with every earlier one. -/
def duplicates : List (Yaml × Yaml) → List Misfit
  | [] => []
  | (key, _) :: ms =>
    (ms.filterMap fun (other, _) =>
      if key.sameShape other && key.text = other.text then
        some (.duplicate other.line other.text key.line)
      else none) ++ duplicates ms

/-- What is wrong with a value that is no scalar where one is expected. -/
def unexpected (expected : Expected) : Yaml → List Misfit
  | .scalar line quoted text => [.scalar line (Yaml.meaning quoted text) text expected]
  | .list line _ => [.list line expected]
  | .record line ms =>
    match duplicates ms with
    | [] => [.record line expected]
    | ds => ds

def asString : Yaml → Decoded String
  | .scalar _ quoted text => if Yaml.meaning quoted text = .null then (none, []) else (some text, [])
  | v => (none, unexpected .string v)

def asInt (v : Yaml) : Decoded Int :=
  match v with
  | .scalar _ quoted text =>
    match Yaml.meaning quoted text with
    | .null => (none, [])
    | .integer n => if n < intLimit then (some n, []) else (none, unexpected .int v)
    | .fraction (some w) => if w ≤ intLimit then (some (clamped w), []) else (none, unexpected .int v)
    | _ => (none, unexpected .int v)
  | v => (none, unexpected .int v)

def asBool (v : Yaml) : Decoded Bool :=
  match v with
  | .scalar _ quoted text =>
    match Yaml.meaning quoted text with
    | .null => (none, [])
    | .bool b => (some b, [])
    | .text =>
      if Yaml.yesWords.contains text then (some true, [])
      else if Yaml.noWords.contains text then (some false, [])
      else (none, unexpected .bool v)
    | _ => (none, unexpected .bool v)
  | v => (none, unexpected .bool v)

/-- A list of texts; items without a value are left out. -/
def asStrings (v : Yaml) : Decoded (List String) :=
  match v with
  | .scalar _ quoted text =>
    if Yaml.meaning quoted text = .null then (some [], []) else (none, unexpected .strings v)
  | .list _ items =>
    let decoded := items.map asString
    (some (decoded.filterMap (·.1)), decoded.flatMap (·.2))
  | v => (none, unexpected .strings v)

/-- The setting of a key. -/
def settingOf (key : String) (v : Yaml) : Decoded Setting :=
  let as {α : Type} (f : α → Setting) (d : Decoded α) : Decoded Setting := (d.1.map f, d.2)
  match key with
  | "log_level" => as .logLevel (asString v)
  | "format" => as .format (asString v)
  | "max_errors" => as .maxErrors (asInt v)
  | "workers" => as .workers (asInt v)
  | "normalize" => as .normalize (asBool v)
  | "include" => as .included (asStrings v)
  | "exclude" => as .excluded (asStrings v)
  | _ => (none, [])

/-! ## Records -/

/-- The members of a record. -/
abbrev Members := List (Yaml × Yaml)

mutual

/-- The members of a record and of what is merged into it, which has to be a record or a list of
records. What is merged into a record with a key twice does not matter. -/
def layers : Members → Option (List Members)
  | ms => if duplicates ms = [] then (mergedInto ms).map (ms :: ·) else some [ms]
termination_by ms => (sizeOf ms, 1)

/-- What is merged into a record with some members. -/
def mergedInto : Members → Option (List Members)
  | [] => some []
  | (key, .record _ ms) :: rest => if key.isMergeKey then layers ms else mergedInto rest
  | (key, .list _ vs) :: rest => if key.isMergeKey then layersOfAll vs else mergedInto rest
  | (key, .scalar ..) :: rest => if key.isMergeKey then none else mergedInto rest
termination_by ms => (sizeOf ms, 0)

/-- The layers of records that are merged one behind the other. -/
def layersOfAll : List Yaml → Option (List Members)
  | [] => some []
  | .record _ ms :: vs => do some ((← layers ms) ++ (← layersOfAll vs))
  | _ :: _ => none
termination_by vs => (sizeOf vs, 0)

end

/-- What was read of a file: the keys that are set, the settings and what does not fit. -/
structure Progress where
  keys : List String := []
  settings : List Setting := []
  misfits : List Misfit := []

/-- Reads a member, unless its key is set already. -/
def Progress.readMember (p : Progress) (m : Yaml × Yaml) : Progress :=
  if m.1.isMergeKey then p
  else
    match asString m.1 with
    | (none, misfits) => { p with misfits := p.misfits ++ misfits }
    | (some key, _) =>
      if p.keys.contains key then p
      else
        let (setting, misfits) := settingOf key m.2
        { keys := key :: p.keys
          settings := p.settings ++ setting.toList
          misfits := p.misfits ++ misfits }

/-- Reads a record, unless it has a key twice. -/
def Progress.readLayer (p : Progress) (ms : Members) : Progress :=
  match duplicates ms with
  | [] => ms.foldl readMember p
  | ds => { p with misfits := p.misfits ++ ds }

/-- The settings that a document makes, or what does not fit in it; nothing if it merges what cannot
be merged. -/
def ofYaml (v : Yaml) : Option (Except (List Misfit) (List Setting)) :=
  match v with
  | .scalar _ quoted text =>
    some (if Yaml.meaning quoted text = .null then .ok [] else .error (unexpected .settings v))
  | .list .. => some (.error (unexpected .settings v))
  | .record _ ms =>
    (layers ms).map fun ls =>
      let p : Progress := ls.foldl Progress.readLayer {}
      if p.misfits = [] then .ok p.settings else .error p.misfits

end Settings

/-- Why settings could not be loaded. -/
inductive LoadError where
  | unreadable (e : FileError)
  | malformed (path : String)
  | misfits (path : String) (ms : List Settings.Misfit)

def LoadError.message : LoadError → String
  | .unreadable e => "read config " ++ e.path ++ ": " ++ e.message
  | .malformed path => "parse config " ++ path ++ ": yaml: malformed document"
  | .misfits path ms =>
    "parse config " ++ path ++ ": yaml: unmarshal errors:" ++
      String.join (ms.map fun m => "\n  " ++ m.message)

/-- A format of settings files: the value of a text, if it is well-formed and has one, and the text of
some settings. -/
structure SettingsFormat where
  read : String → Option (Option Yaml)
  write : List Setting → String

namespace Settings

/-- The settings that a text makes of the built-in ones. -/
def ofText (f : SettingsFormat) (path text : String) : Except LoadError Settings :=
  match f.read text with
  | none => .error (.malformed path)
  | some none => .ok {}
  | some (some v) =>
    match ofYaml v with
    | none => .error (.malformed path)
    | some (.ok ss) => .ok (ofSaved ss)
    | some (.error ms) => .error (.misfits path ms)

/-- The settings of a file, or the built-in ones if there is no file. -/
def ofFile (f : SettingsFormat) (d : Disk) (path : String) : Except LoadError Settings :=
  match d.read path with
  | .ok text => ofText f path text
  | .error e => if e.fault = .missing then .ok {} else .error (.unreadable e)

/-- The settings of a file with what the environment overrides. -/
def load (f : SettingsFormat) (d : Disk) (e : Environment) (path : String) : Except LoadError Settings :=
  (ofFile f d path).map e.override

/-- The text of the settings file. -/
def text (s : Settings) (f : SettingsFormat) : String := f.write s.saved

/-- The files with the settings at a path, if they can be written there. -/
def save (s : Settings) (f : SettingsFormat) (t : FileTree) (path : String) : Except FileError FileTree :=
  (t.writeFile path (s.text f)).mapError fun fault => { action := .opening, path, fault }

end Settings
end SemFront
