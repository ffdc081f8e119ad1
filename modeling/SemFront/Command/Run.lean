/-
Running commands on a disk: what is printed, what is logged, and how it ends.
-/
import SemFront.Command.Request
import SemFront.Files.Expand
import SemFront.Parsed.Show
import SemFront.Parsed.Watch
import SemFront.Settings.Yaml
import SemFront.Text.Canonical
import SemFront.Tree.Print

namespace SemFront

/-- Why a run fails: errors in the sources were printed, or something else went wrong. -/
inductive Failure where
  | diagnostics
  | message (text : String)
deriving DecidableEq, Repr

/-- What comes of a run. -/
structure Outcome where
  stdout : String := ""
  stderr : String := ""
  events : List Event := []
  failure : Option Failure := none

namespace Outcome

def failed (text : String) : Outcome := { failure := some (.message text) }

/-- One outcome and then another. -/
def append (a b : Outcome) : Outcome :=
  { stdout := a.stdout ++ b.stdout, stderr := a.stderr ++ b.stderr, events := a.events ++ b.events,
    failure := a.failure.or b.failure }

/-- What is written on the error output in the end. -/
def errorText (o : Outcome) : String :=
  match o.failure with
  | some (.message text) => o.stderr ++ text ++ "\n"
  | _ => o.stderr

def exitCode (o : Outcome) : Nat := if o.failure.isSome then 1 else 0

end Outcome

namespace Settings

/-- The settings with what the flags override. -/
def withFlags (s : Settings) (f : Flags) : Settings :=
  { s with
    format := if f.format = "" then s.format else f.format
    logLevel := if f.logLevel = "" then s.logLevel else f.logLevel
    maxErrors := if f.maxErrors < 0 then s.maxErrors else f.maxErrors }

/-- The settings of a run, if they can be had and used. -/
def ofRun (d : Disk) (e : Environment) (f : Flags) : Except String Settings :=
  match load yaml d e f.config with
  | .error e => .error ("failed to load config: " ++ e.message)
  | .ok s =>
    let s := s.withFlags f
    match s.fault? with
    | some fault => .error ("invalid config: " ++ fault.message)
    | none => .ok s

def parseOptions (s : Settings) : ParseOptions :=
  { limit := s.maxErrors.toNat, normalize := s.normalize, canonical := Text.canonical }

/-- Which file names are asked for. -/
def nameFilter (s : Settings) : NameFilter := { included := s.included, excluded := s.excluded }

/-- Diagnostics in the format of the settings. -/
def display (s : Settings) (d : Disk) (sources : Sources) (ds : List Diagnostic) : String :=
  if s.format = "json" then Diagnostic.jsonText ds else sources.displayAll d ds

/-- The diagnostics of parsed sources in the format of the settings. -/
def displayParsed (s : Settings) (d : Disk) (ps : List Parsed) : String :=
  s.display d (Sources.ofList (ps.map fun p => (p.path, p.text))) (ps.flatMap (·.diagnostics))

/-- The log in the format of the settings. -/
def logText (s : Settings) (es : List Event) : String :=
  String.join (es.map fun e => (if s.format = "json" then e.toJson.compact else e.line) ++ "\n")

/-- The events that are logged with the settings. -/
def logged (s : Settings) (es : List Event) : List Event := Event.atLeast s.level.number es

end Settings

/-- A token in a line: its place, kind and spelling. -/
def Token.row (t : Token) : String :=
  Text.padRight 8 (toString t.span.line ++ ":" ++ toString t.span.column) ++ " " ++
    Text.padRight 10 t.kind.name ++ " " ++ t.raw ++ "\n"

namespace Command

/-- Prints the tokens of a file. -/
def runTokens (s : Settings) (d : Disk) (path : String) : Outcome :=
  match d.read path with
  | .error e => .failed ("failed to read " ++ path ++ ": " ++ e.message)
  | .ok content =>
    let text := Parsed.textRead s.parseOptions content
    let tokens := tokenize path text
    let stdout := String.join (tokens.map Token.row)
    match lexicalErrors tokens with
    | [] => { stdout }
    | errors =>
      { stdout
        stderr := s.display d (Sources.add {} path text) (errors.map LexicalError.toDiagnostic)
        failure := some .diagnostics }

/-- Prints the program of a file. -/
def runParse (s : Settings) (d : Disk) (path : String) : Outcome :=
  match Parsed.ofFile s.parseOptions d path with
  | .error e => .failed (Parsed.failure e)
  | .ok p =>
    { stdout := p.program.text ++ "\n"
      stderr := if p.diagnostics = [] then "" else s.displayParsed d [p]
      events := s.logged p.events
      failure := if p.hasErrors then some .diagnostics else none }

/-- The paths that are meant by some arguments; without any it is the current directory. -/
def pathsOf (args : List String) : List String := if args = [] then ["."] else args

/-- Parses the sources that some arguments stand for. -/
def parseAll (s : Settings) (d : Disk) (args : List String) : Except String (List Parsed) :=
  match d.expand s.nameFilter (pathsOf args) with
  | .error e => .error e.message
  | .ok files =>
    match Parsed.ofFilesBy s.workers.toNat s.parseOptions d files with
    | .error e => .error (Parsed.crewFailure e)
    | .ok ps => .ok ps

/-- Prints the diagnostics of sources. -/
def runCheck (s : Settings) (d : Disk) (args : List String) : Outcome :=
  match parseAll s d args with
  | .error message => .failed message
  | .ok ps =>
    { stdout := s.displayParsed d ps
      events := s.logged (ps.flatMap Parsed.events ++ [.checked ps.length (Parsed.countDiagnostics ps)])
      failure := if Parsed.anyErrors ps then some .diagnostics else none }

end Command

/-- A run that goes on as files change. -/
structure Session where
  settings : Settings
  watcher : Watcher

namespace Session

/-- Prints the diagnostics of sources and starts to watch them. -/
def start (s : Settings) (d : Disk) (args : List String) : Outcome × Option Session :=
  match Command.parseAll s d args with
  | .error message => (.failed message, none)
  | .ok ps =>
    let stdout := s.displayParsed d ps
    let events := ps.flatMap Parsed.events
    match Watcher.start s.parseOptions d (ps.map (·.path)) with
    | .error fault =>
      ({ stdout, events := s.logged events,
         failure := some (.message ("failed to watch: " ++ fault.message)) }, none)
    | .ok watcher =>
      ({ stdout, events := s.logged (events ++ [.watching ps.length]) },
        some { settings := s, watcher })

/-- What comes of something new at a path. -/
def change (session : Session) (d : Disk) (path : String) : Outcome :=
  let s := session.settings
  let reaction := session.watcher.react d path
  let events := Watcher.events path reaction
  match reaction with
  | some (.ok p) =>
    { stdout := s.displayParsed d [p]
      events := s.logged (events ++ if p.hasErrors then [] else [.faultless p.path]) }
  | _ => { events := s.logged events }

/-- What comes of changes of a file tree, one after the other. -/
def follow (session : Session) : FileTree → List FileChange → Outcome
  | _, [] => {}
  | t, c :: cs =>
    let t' := c.apply t
    let now := if c.appears t then session.change t'.disk c.path else {}
    now.append (session.follow t' cs)

end Session

namespace Request

/-- A short help. -/
def helpText : String :=
  "semlang lexes and parses source files and reports diagnostics.\n\nCommands:\n" ++
    String.join (Command.all.map fun c => "  " ++ c.name ++ "\n")

/-- The settings of a request, if it has usable ones. -/
def settings? (r : Request) (d : Disk) (e : Environment) : Option Settings :=
  match r with
  | .command _ flags _ => (Settings.ofRun d e flags).toOption
  | _ => none

/-- The file of the settings. -/
def settingsFile? : Request → Option String
  | .command _ flags _ => some flags.config
  | _ => none

/-- The paths that a request is about. -/
def paths : Request → List String
  | .command name _ args => if name.arity?.isSome then args else Command.pathsOf args
  | _ => []

/-- The sources that a request reads. It takes a disk that has the settings and the names of files. -/
def sources (r : Request) (d : Disk) (e : Environment) : List String :=
  match r with
  | .command name _ args =>
    if name.arity?.isSome then args
    else
      match r.settings? d e with
      | none => []
      | some s => ((d.expand s.nameFilter r.paths).toOption).getD []
  | _ => []

/-- Runs a request on a disk. A command that watches goes on as a session. -/
def run (r : Request) (d : Disk) (e : Environment) : Outcome × Option Session :=
  match r with
  | .help => ({ stdout := helpText }, none)
  | .version => ({ stdout := "semlang version dev\n" }, none)
  | .command name flags args =>
    match Settings.ofRun d e flags with
    | .error message => (.failed message, none)
    | .ok s =>
      match name with
      | .tokens => (Command.runTokens s d (args.headD ""), none)
      | .parse => (Command.runParse s d (args.headD ""), none)
      | .check => (Command.runCheck s d args, none)
      | .watch => Session.start s d args

/-- Runs a command line on a disk. -/
def runArgs (args : List String) (d : Disk) (e : Environment) : Outcome × Option Session :=
  match ofArgs args with
  | .error e => (.failed e.message, none)
  | .ok r => r.run d e

end Request
end SemFront
