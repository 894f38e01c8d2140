import SqlDialects.Log.Logger

/-! What commands need of the world around them, and a world in memory. -/

namespace SqlDialects.Command

/-- The streams, variables, files and the clock that a command can use. -/
class Shell (m : Type → Type) where
  readLine : m String
  /-- The rest of the input. -/
  readAll : m String
  print : String → m Unit
  /-- Asks the user for a line. -/
  prompt : String → m Unit
  /-- The value of an environment variable; an unset one is empty. -/
  environment : String → m String
  readFile : String → m (Except FileError String)
  /-- Makes a directory and those on the way to it. -/
  makeFolder : String → m (Except FileError Unit)
  writeFile : String → String → m (Except FileError Unit)
  /-- Seconds since 1970. -/
  now : m Int
  /-- Sixteen bytes that nobody can guess. -/
  salt : m (List UInt8)
  openLog : Log.Settings → m (Except Log.InitError Unit)

/-- A world in memory. -/
structure Sandbox where
  input : String := ""
  printed : String := ""
  settings : List (String × String) := []
  directory : Directory := {}
  now : Int := 0
  salt : List UInt8 := []

namespace Sandbox

def cutLine (text : String) : String × String :=
  let line := text.toList.takeWhile (· != '\n')
  let rest := text.toList.drop line.length
  (String.ofList (line ++ rest.take 1), String.ofList (rest.drop 1))

def change (action : Directory → Except FileError Directory) :
    StateM Sandbox (Except FileError Unit) := do
  let s ← get
  match action s.directory with
  | .ok directory =>
    set { s with directory }
    return .ok ()
  | .error e => return .error e

def openLog (settings : Log.Settings) : StateM Sandbox (Except Log.InitError Unit) := do
  let s ← get
  let l : Log.Logger := { output := { directory := s.directory } }
  match l.init settings with
  | .ok l =>
    set { s with directory := l.output.directory }
    return .ok ()
  | .error e => return .error e

end Sandbox

instance : Shell (StateM Sandbox) where
  readLine := modifyGet fun s =>
    let (line, input) := Sandbox.cutLine s.input
    (line, { s with input })
  readAll := modifyGet fun s => (s.input, { s with input := "" })
  print text := modify fun s => { s with printed := s.printed ++ text }
  prompt _ := pure ()
  environment name := return ((← get).settings.lookup name).getD ""
  readFile path := return (← get).directory.read path
  makeFolder path := Sandbox.change (·.makeFolder (Directory.names path))
  writeFile path content := Sandbox.change fun d => .ok (d.write path content)
  now := return (← get).now
  salt := return (← get).salt
  openLog := Sandbox.openLog

end SqlDialects.Command
