/-
Settings files in YAML: a record with a line for each setting, and the items of lists on lines of
their own.
-/
import SemFront.Settings.Load
import SemFront.Yaml.Read
import SemFront.Yaml.Write

namespace SemFront

namespace Setting

/-- A list below its key. -/
def writtenList (items : List String) : String :=
  "\n" ++ String.join (items.map fun s => "    - " ++ Yaml.writtenLine 6 s)

/-- The value behind a key, with the line ends. -/
def writtenValue : Setting → String
  | .logLevel s | .format s => " " ++ Yaml.writtenLine 4 s
  | .maxErrors n | .workers n => " " ++ toString n ++ "\n"
  | .normalize b => " " ++ toString b ++ "\n"
  | .included ps | .excluded ps => writtenList ps

def written (s : Setting) : String := s.key ++ ":" ++ s.writtenValue

end Setting

/-- The format of settings files. -/
def Settings.yaml : SettingsFormat where
  read := Yaml.read
  write ss := String.join (ss.map Setting.written)

end SemFront
