/-
The command line program: it looks at the files a request is about, runs the request on them, and
prints what comes of it. A request that watches goes on until it is stopped.
-/
import SemFront.Command.Run

namespace SemFront.CommandLine

/-- What an error of the system says about a path. -/
def faultOf : IO.Error → FileFault
  | .noFileOrDirectory .. => .missing
  | .inappropriateType .. => .notDirectory
  | e => .other (toString e)

/-- A file with its text. A directory is shown without its entries. -/
def readAt (path : String) : IO (Except FileFault FileTree) := do
  if path = "" then return .error .missing
  try
    let place := (← IO.currentDir) / path
    if (← place.metadata).type == .dir then return .ok .empty
    let bytes ← IO.FS.readBinFile place
    return .ok (.file (Text.Bytes.decode bytes.toList))
  catch e => return .error (faultOf e)

/-- The names of what is at a path and below it, the texts of files left empty. Links below it are
taken for files. -/
partial def namesAt (path : String) : IO (Except FileFault FileTree) := do
  if path = "" then return .error .missing
  try
    let place := (← IO.currentDir) / path
    if (← place.metadata).type != .dir then return .ok (.file "")
    let mut entries := []
    for entry in ← place.readDir do
      let linked := (← entry.path.symlinkMetadata).type == .symlink
      let found ← if linked then pure (.ok (.file "")) else namesAt (path ++ "/" ++ entry.fileName)
      match found with
      | .ok t => entries := FileTree.putEntry entry.fileName t entries
      | .error fault => return .error fault
    return .ok (.directory entries)
  catch e => return .error (faultOf e)

/-- What the environment says. -/
def environment : IO Environment := do
  let get (name : String) : IO String := return (← IO.getEnv name).getD ""
  return { logLevel := ← get "SEMLANG_LOG_LEVEL", format := ← get "SEMLANG_FORMAT",
           maxErrors := ← get "SEMLANG_MAX_ERRORS", workers := ← get "SEMLANG_WORKERS" }

/-- The disk that a request needs. -/
def diskFor (r : Request) (e : Environment) : IO Disk := do
  let settings ← r.settingsFile?.toList.mapM fun p => return (p, ← readAt p)
  let names ← r.paths.mapM fun p => return (p, ← namesAt p)
  let sources := r.sources (Disk.ofFound (settings ++ names)) e
  let texts ← sources.mapM fun p => return (p, ← readAt p)
  let directories ← sources.mapM fun p => return (Path.parent p, ← readAt (Path.parent p))
  return Disk.ofFound (settings ++ texts ++ names ++ directories)

/-- Prints what came of a run. -/
def emit (s : Settings) (o : Outcome) : IO Unit := do
  let out ← IO.getStdout
  out.putStr o.stdout
  out.flush
  (← IO.getStderr).putStr (s.logText o.events ++ o.errorText)

/-- When files were last changed; those that are not there have no time. -/
def timesOf (files : List String) : IO (List (String × Option IO.FS.SystemTime)) :=
  files.mapM fun (path : String) => do
    try return (path, some (← ((← IO.currentDir) / path).metadata).modified)
    catch _ => return (path, none)

/-- Looks for changed files again and again. -/
partial def follow (session : Session) (before : List (String × Option IO.FS.SystemTime)) :
    IO Unit := do
  IO.sleep 200
  let now ← timesOf session.watcher.files
  for (path, time) in now do
    if time.isSome && before.lookup path != some time then
      let d := Disk.ofFound [(path, ← readAt path)]
      emit session.settings (session.change d path)
  follow session now

/-- Runs a request. -/
def perform (r : Request) : IO UInt32 := do
  let e ← environment
  let d ← diskFor r e
  let (o, session) := r.run d e
  emit ((r.settings? d e).getD {}) o
  match session with
  | some s => follow s (← timesOf s.watcher.files)
  | none => pure ()
  return o.exitCode.toUInt32

end SemFront.CommandLine

def main (args : List String) : IO UInt32 := do
  match SemFront.Request.ofArgs args with
  | .ok r => SemFront.CommandLine.perform r
  | .error e =>
    (← IO.getStderr).putStr (e.message ++ "\n")
    return 1
