import SqlDialects.Command.Run
import Std.Time.DateTime.Timestamp

/-! The program: commands run on the real streams, files and clock. -/

namespace SqlDialects.Command

/-- The number by which the system tells a directory from a file on the way to one. -/
def isDirectoryCode : UInt32 := 21

/-- Why the system refused a path. -/
def faultOf : IO.Error → PathFault
  | .noFileOrDirectory .. => .missing
  | .inappropriateType _ code _ => if code = isDirectoryCode then .isDirectory else .notDirectory
  | e => .other (toString e)

def attempt {α : Type} (action path : String) (work : IO α) : IO (Except FileError α) := do
  try
    return .ok (← work)
  catch e =>
    let fault := faultOf e
    return .error ⟨if fault = .isDirectory then "read" else action, path, fault⟩

partial def readRest (stream : IO.FS.Stream) (before : String) : IO String := do
  let line ← stream.getLine
  if line.isEmpty then return before else readRest stream (before ++ line)

def openLog (settings : Log.Settings) : IO (Except Log.InitError Unit) := do
  if let some fault := settings.fault? then return .error (.settings fault)
  if settings.mode = "file" then
    let folder := folderOf settings.filePath
    match ← attempt "mkdir" folder (IO.FS.createDirAll folder) with
    | .ok _ => return .ok ()
    | .error e => return .error (.folder e)
  return .ok ()

instance : Shell IO where
  readLine := do (← IO.getStdin).getLine
  readAll := do readRest (← IO.getStdin) ""
  print text := IO.print text
  prompt text := IO.eprint text
  environment name := return (← IO.getEnv name).getD ""
  readFile path := attempt "open" path (IO.FS.readFile path)
  makeFolder path := attempt "mkdir" path (IO.FS.createDirAll path)
  writeFile path content := attempt "open" path (IO.FS.writeFile path content)
  now := return (← Std.Time.Timestamp.now).toSecondsSinceUnixEpoch.val
  salt := return (← IO.getRandomBytes 16).toList
  openLog := openLog

end SqlDialects.Command

/-- Runs the command that the arguments name. -/
def main (arguments : List String) : IO UInt32 := do
  match ← (SqlDialects.Command.execute arguments : SqlDialects.Command.Run IO Unit).run with
  | .ok _ => return 0
  | .error e =>
    IO.eprintln e.message
    return 1
