/-
Settings: what a run can be told, which values are usable, and what the environment overrides.
-/
import SemFront.Settings.Level
import SemFront.Text.Quoted

namespace SemFront

/-- The settings of a run, with the values they have if nothing else is said. -/
structure Settings where
  logLevel : String := "info"
  format : String := "text"
  maxErrors : Int := 0
  workers : Int := 4
  normalize : Bool := true
  included : List String := ["*.sem"]
  excluded : List String := []
deriving DecidableEq, Repr

/-- A value that is not usable. -/
inductive SettingsFault where
  | logLevel (value : String)
  | format (value : String)
  | maxErrors (value : Int)
  | workers (value : Int)
deriving DecidableEq, Repr

def SettingsFault.message : SettingsFault → String
  | .logLevel s =>
    "log_level " ++ Text.quoted s ++ " must be one of trace, debug, info, warn, error"
  | .format s => "format " ++ Text.quoted s ++ " must be text or json"
  | .maxErrors n => "max_errors must not be negative, got " ++ toString n
  | .workers n => "workers must be at least 1, got " ++ toString n

namespace Settings

/-- The level that is asked for, if there is such a level. -/
def level? (s : Settings) : Option Level :=
  if s.logLevel = "" then none else Level.ofString? s.logLevel

/-- The level that is used. -/
def level (s : Settings) : Level := s.level?.getD .info

/-- The first value that is not usable. -/
def fault? (s : Settings) : Option SettingsFault :=
  if s.level? = none then some (.logLevel s.logLevel)
  else if s.format ≠ "text" && s.format ≠ "json" then some (.format s.format)
  else if s.maxErrors < 0 then some (.maxErrors s.maxErrors)
  else if s.workers < 1 then some (.workers s.workers)
  else none

end Settings

/-- What the environment says; an empty text says nothing. -/
structure Environment where
  logLevel : String := ""
  format : String := ""
  maxErrors : String := ""
  workers : String := ""
deriving DecidableEq, Repr

namespace Environment

/-- A text, or what it was. -/
def textOr (value old : String) : String := if value = "" then old else value

/-- A number, or what it was if the text is no number. -/
def numberOr (value : String) (old : Int) : Int :=
  match Text.Integer.decimal value with
  | .ok n => n
  | .error _ => old

/-- The settings with what the environment overrides. -/
def override (e : Environment) (s : Settings) : Settings :=
  { s with
    logLevel := textOr e.logLevel s.logLevel
    format := textOr e.format s.format
    maxErrors := numberOr e.maxErrors s.maxErrors
    workers := numberOr e.workers s.workers }

end Environment
end SemFront
