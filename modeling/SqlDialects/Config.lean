import SqlDialects.Duration
import SqlDialects.Log.Settings
import SqlDialects.Registry
import SqlDialects.Telemetry.Settings

/-! The settings of the program. -/

namespace SqlDialects

/-- The HTTP service. A secret makes every request to the interface need a token. -/
structure ServerConfig where
  addr : String := "localhost:8360"
  origins : List String := ["*"]
  cacheSize : Int := 1024
  maxBodyBytes : Int := 1048576
  readTimeout : Duration := .ofSeconds 15
  writeTimeout : Duration := .ofSeconds 15
  shutdownTimeout : Duration := .ofSeconds 10
  authSecret : String := ""
deriving Repr, DecidableEq

/-- The dialects and rules that hold where a request names none. -/
structure ConversionConfig where
  source : String := ""
  target : String := "doris"
  rulesFile : String := ""
  watchRules : Bool := false
deriving Repr, DecidableEq

/-- The service for database clients. -/
structure WireConfig where
  enabled : Bool := false
  addr : String := "localhost:5433"
  password : String := ""
deriving Repr, DecidableEq

structure StoreConfig where
  region : String := ""
  endpoint : String := ""
  accessKeyId : String := ""
  secretAccessKey : String := ""
  usePathStyle : Bool := false
deriving Repr, DecidableEq

structure Config where
  server : ServerConfig := {}
  conversion : ConversionConfig := {}
  wire : WireConfig := {}
  store : StoreConfig := {}
  log : Log.Settings := {}
  telemetry : Telemetry.Settings := {}

inductive ConfigFault
  | dialect (error : Error)
  | shortSecret
  | negativeCache
  | log (fault : Log.SettingsFault)
  | telemetry (fault : Telemetry.SettingsFault)

def ConfigFault.message : ConfigFault → String
  | .dialect error => "config: transpile: " ++ error.message
  | .shortSecret => "config: server.auth_secret must be at least 32 characters"
  | .negativeCache => "config: server.cache_size must not be negative"
  | .log fault => fault.message
  | .telemetry fault => fault.message

namespace Config

def secretLength : Nat := 32

def faults (registry : Registry) (c : Config) : List ConfigFault :=
  let dialect (name : String) : List ConfigFault :=
    if name = "" then []
    else match registry.lookup name with
      | .ok _ => []
      | .error e => [.dialect e]
  let secret := c.server.authSecret
  dialect c.conversion.source ++ dialect c.conversion.target ++
    (if secret ≠ "" && secret.utf8ByteSize < secretLength then [.shortSecret] else []) ++
    (if c.server.cacheSize < 0 then [.negativeCache] else []) ++
    (c.log.fault?.toList.map .log) ++
    (c.telemetry.fault?.toList.map .telemetry)

def faultText (faults : List ConfigFault) : String :=
  "\n".intercalate (faults.map ConfigFault.message)

end Config

end SqlDialects
