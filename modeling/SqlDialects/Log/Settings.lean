import SqlDialects.Text.Quoted

/-! How the log is kept. -/

namespace SqlDialects.Log

/-- `mode` is the console, a file or a database; the console is also meant by no mode at all. -/
structure Settings where
  mode : String := "console"
  level : String := "info"
  format : String := "text"
  filePath : String := "sqlbridge.log"
  maxSizeMb : Int := 100
  maxAgeDays : Int := 7
  maxBackups : Int := 3
  databasePath : String := "sqlbridge-log.db"
  retentionDays : Int := 7
  bufferLines : Int := 500
deriving Repr, DecidableEq

inductive SettingsFault
  | mode (name : String)
  | format (name : String)
  | filePath
  | databasePath
deriving Repr, DecidableEq

def SettingsFault.message : SettingsFault → String
  | .mode name => "log: unknown mode " ++ Text.quote name
  | .format name => "log: unknown format " ++ Text.quote name
  | .filePath => "log: file mode needs file_path"
  | .databasePath => "log: database mode needs db_path"

/-- The first thing that is wrong with settings. -/
def Settings.fault? (s : Settings) : Option SettingsFault :=
  if !(["", "console", "file", "database"].contains s.mode) then some (.mode s.mode)
  else if !(["", "text", "json"].contains s.format) then some (.format s.format)
  else if s.mode = "file" && s.filePath = "" then some .filePath
  else if s.mode = "database" && s.databasePath = "" then some .databasePath
  else none

end SqlDialects.Log
