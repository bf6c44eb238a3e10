import DiagnosticRelay.CommandLine

/-!
# The program

Reads the configuration and the files that the command line names, runs the command line on them,
and prints how it ends. Everything else is decided in `CommandLine`.
-/

open DiagnosticRelay DiagnosticRelay.CommandLine

/-- What is found on disk under a path. -/
def bodyOnDisk (path : Path) : IO (Option Body) := do
  let place := System.mkFilePath [path.text]
  try
    return some (.bytes (← IO.FS.readBinFile place))
  catch e =>
    try
      let metadata ← place.metadata
      return some (if metadata.type == .dir then .directory else .unreadable e.toString)
    catch
      | .noFileOrDirectory .. => return none
      | e => return some (.hidden e.toString)

/-- The text of a file on disk. -/
def textOnDisk (path : Path) : IO (Except ReadFailure String) := do
  match ← bodyOnDisk path with
  | some body => return body.text
  | none => return .error .missing

/-- The absolute path of a file on disk, or the given one when there is none. A path that is not a
text is given in a spelling that names no file. -/
def realPathOnDisk (path : Path) : IO RealPath := do
  try
    let place ← IO.FS.realPath path.text
    return if ← place.pathExists then .text ⟨place.toString⟩ else .garbled ⟨place.toString⟩
  catch _ => return .text path

/-- The files of a request with their texts and absolute paths. -/
def filesOnDisk (paths : List Path) : IO FileSystem := do
  let texts ← paths.mapM fun p => return (p, ← textOnDisk p)
  let realPaths ← paths.mapM fun p => return (p, ← realPathOnDisk p)
  return ⟨fun p => (texts.lookup p).getD (.error .missing),
    fun p => (realPaths.lookup p).getD (.text p)⟩

def environment : IO Environment := do
  let configPath := ConfigFile.path? (← IO.getEnv "HOME")
  let config ← match configPath with
    | none => pure none
    | some path => bodyOnDisk path
  return ⟨configPath, config, ← IO.getEnv "RUST_LOG"⟩

def main (args : List String) : IO UInt32 := do
  let env ← environment
  let fs ← filesOnDisk (parse args).files
  let ending := run env fs args
  (← IO.getStdout).write ending.output
  match ending.error with
  | some message => IO.eprintln s!"Error: {message}"
  | none => pure ()
  return ending.status.toUInt32
