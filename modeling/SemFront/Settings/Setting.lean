/-
Single settings, by which settings are saved and read back. A list without elements is not saved.
-/
import SemFront.Settings.Basic

namespace SemFront

/-- One setting with its value. -/
inductive Setting where
  | logLevel (value : String)
  | format (value : String)
  | maxErrors (value : Int)
  | workers (value : Int)
  | normalize (value : Bool)
  | included (value : List String)
  | excluded (value : List String)
deriving DecidableEq, Repr

namespace Setting

def key : Setting → String
  | .logLevel _ => "log_level"
  | .format _ => "format"
  | .maxErrors _ => "max_errors"
  | .workers _ => "workers"
  | .normalize _ => "normalize"
  | .included _ => "include"
  | .excluded _ => "exclude"

end Setting

namespace Settings

/-- The settings with one of them changed. -/
def set (s : Settings) : Setting → Settings
  | .logLevel v => { s with logLevel := v }
  | .format v => { s with format := v }
  | .maxErrors v => { s with maxErrors := v }
  | .workers v => { s with workers := v }
  | .normalize v => { s with normalize := v }
  | .included v => { s with included := v }
  | .excluded v => { s with excluded := v }

/-- The settings that are saved. -/
def saved (s : Settings) : List Setting :=
  [.logLevel s.logLevel, .format s.format, .maxErrors s.maxErrors, .workers s.workers,
   .normalize s.normalize] ++
  (if s.included = [] then [] else [.included s.included]) ++
  (if s.excluded = [] then [] else [.excluded s.excluded])

/-- The settings that some settings make of the built-in ones. -/
def ofSaved (ss : List Setting) : Settings := ss.foldl set {}

end Settings
end SemFront
