import SqlDialects.Directory
import SqlDialects.Log.Record
import SqlDialects.Log.Ring
import SqlDialects.Log.Settings

/-! The logger of the program: a place where records go, an optional buffer of recent lines, and
everything that has been written. -/

namespace SqlDialects.Log

/-- How a record becomes a line. -/
inductive Format
  | text
  | json
deriving Repr, DecidableEq

def Format.ofText (name : String) : Format := if name = "json" then .json else .text

def Format.line : Format → Record → String
  | .text, r => r.textLine
  | .json, r => r.jsonLine

/-- Where records go. A database takes no more rows once it is closed; a file is opened again. -/
inductive Backend
  | nowhere
  | console (format : Format)
  | file (path : String) (format : Format)
  | database (path : String) (isOpen : Bool)
deriving Repr, DecidableEq

/-- What has been written: lines on the console, files, and rows in databases. -/
structure Output where
  console : List String := []
  directory : Directory := {}
  databases : List (String × List Row) := []

structure Logger where
  backend : Backend := .nowhere
  threshold : Level := .info
  buffer : Option Ring := none
  output : Output := {}

/-- Why a logger cannot be set up. -/
inductive InitError
  | settings (fault : SettingsFault)
  | folder (error : FileError)
  | cannotOpen
  | notDatabase
deriving Repr, DecidableEq

def InitError.message : InitError → String
  | .settings fault => fault.message
  | .folder error => "create log directory: " ++ error.message
  | .cannotOpen => "create logs table: unable to open database file: out of memory (14)"
  | .notDatabase => "create logs table: file is not a database (26)"

namespace Output

def rows (o : Output) (path : String) : List Row := (o.databases.lookup path).getD []

def setRows (o : Output) (path : String) (rows : List Row) : Output :=
  { o with databases := o.databases.filter (·.1 != path) ++ [(path, rows)] }

/-- Makes the directory of a log file. -/
def openFile (o : Output) (path : String) : Except InitError Output :=
  let folder := Directory.parent path
  if folder.isEmpty then .ok o
  else match o.directory.makeFolder folder with
    | .ok directory => .ok { o with directory }
    | .error e => .error (.folder e)

def openDatabase (o : Output) (path : String) : Except InitError Output :=
  let place := Directory.names path
  if o.directory.blocked place || o.directory.isFolder place ||
      !o.directory.isFolder place.dropLast then .error .cannotOpen
  else if (o.directory.files.lookup place).any (· != "") then .error .notDatabase
  else .ok (o.setRows path (o.rows path))

end Output

namespace Logger

/-- Exchanges the back end and the buffer. What was written stays. -/
def init (l : Logger) (s : Settings) : Except InitError Logger := do
  if let some fault := s.fault? then throw (.settings fault)
  let format := Format.ofText s.format
  let (backend, output) ← match s.mode with
    | "file" => do pure (Backend.file s.filePath format, ← l.output.openFile s.filePath)
    | "database" =>
      do pure (Backend.database s.databasePath true, ← l.output.openDatabase s.databasePath)
    | _ => pure (Backend.console format, l.output)
  return { backend, output, threshold := Level.ofText s.level,
           buffer := if s.bufferLines > 0 then some (.empty s.bufferLines) else none }

def close (l : Logger) : Logger :=
  match l.backend with
  | .database path _ => { l with backend := .database path false }
  | _ => l

/-- Writes a record to the back end. -/
def emit (l : Logger) (r : Record) : Output :=
  match l.backend with
  | .nowhere | .database _ false => l.output
  | .console format => { l.output with console := l.output.console ++ [format.line r] }
  | .file path format =>
    { l.output with directory := l.output.directory.append path (format.line r ++ "\n") }
  | .database path true => l.output.setRows path (l.output.rows path ++ [r.row])

def bufferLine (r : Record) : String := ({ r with group := "" } : Record).textLine

def log (l : Logger) (r : Record) : Logger :=
  { l with
    output := if l.threshold.passes r.level then l.emit r else l.output
    buffer := l.buffer.map (·.add (bufferLine r)) }

def lines? (l : Logger) (n : Int) : Option (List String) := l.buffer.map (·.lines n)

def total (l : Logger) : Nat := (l.buffer.map Ring.total).getD 0

def capacity (l : Logger) : Nat := (l.buffer.map Ring.capacity).getD 0

end Logger

end SqlDialects.Log
