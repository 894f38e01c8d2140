import SqlDialects.Config
import SqlDialects.Directory
import SqlDialects.Text.Case
import SqlDialects.Toml.Reader

/-! Reading the configuration from a file. A key that means nothing is an error, so that a misspelt
one is not passed over. -/

namespace SqlDialects.Config

abbrev Setter := Toml.Value → Config → Option Config

def text (put : String → Config → Config) : Setter
  | .string s, c => some (put s c)
  | _, _ => none

def flag (put : Bool → Config → Config) : Setter
  | .bool b, c => some (put b c)
  | _, _ => none

def number (put : Int → Config → Config) : Setter
  | .integer n, c => some (put n c)
  | _, _ => none

def rate (put : Float → Config → Config) : Setter
  | .float x, c => some (put x c)
  | .integer n, c => some (put (Decimal.ofInt n).toFloat c)
  | _, _ => none

def duration (put : Duration → Config → Config) : Setter
  | .string s, c => (Duration.ofText s).toOption.map (put · c)
  | .integer n, c => (Duration.ofText n.repr).toOption.map (put · c)
  | _, _ => none

def texts (put : List String → Config → Config) : Setter
  | .array items, c => (items.mapM Toml.Value.text?).map (put · c)
  | _, _ => none

def serverKeys : List (String × Setter) :=
  let change (f : ServerConfig → ServerConfig) (c : Config) : Config := { c with server := f c.server }
  [("addr", text fun s => change ({ · with addr := s })),
   ("cors_origins", texts fun s => change ({ · with origins := s })),
   ("cache_size", number fun n => change ({ · with cacheSize := n })),
   ("max_body_bytes", number fun n => change ({ · with maxBodyBytes := n })),
   ("read_timeout", duration fun d => change ({ · with readTimeout := d })),
   ("write_timeout", duration fun d => change ({ · with writeTimeout := d })),
   ("shutdown_timeout", duration fun d => change ({ · with shutdownTimeout := d })),
   ("auth_secret", text fun s => change ({ · with authSecret := s }))]

def conversionKeys : List (String × Setter) :=
  let change (f : ConversionConfig → ConversionConfig) (c : Config) : Config :=
    { c with conversion := f c.conversion }
  [("from", text fun s => change ({ · with source := s })),
   ("to", text fun s => change ({ · with target := s })),
   ("rules_file", text fun s => change ({ · with rulesFile := s })),
   ("watch_rules", flag fun b => change ({ · with watchRules := b }))]

def wireKeys : List (String × Setter) :=
  let change (f : WireConfig → WireConfig) (c : Config) : Config := { c with wire := f c.wire }
  [("enabled", flag fun b => change ({ · with enabled := b })),
   ("addr", text fun s => change ({ · with addr := s })),
   ("password", text fun s => change ({ · with password := s }))]

def storeKeys : List (String × Setter) :=
  let change (f : StoreConfig → StoreConfig) (c : Config) : Config := { c with store := f c.store }
  [("region", text fun s => change ({ · with region := s })),
   ("endpoint", text fun s => change ({ · with endpoint := s })),
   ("access_key_id", text fun s => change ({ · with accessKeyId := s })),
   ("secret_access_key", text fun s => change ({ · with secretAccessKey := s })),
   ("use_path_style", flag fun b => change ({ · with usePathStyle := b }))]

def logKeys : List (String × Setter) :=
  let change (f : Log.Settings → Log.Settings) (c : Config) : Config := { c with log := f c.log }
  [("mode", text fun s => change ({ · with mode := s })),
   ("level", text fun s => change ({ · with level := s })),
   ("format", text fun s => change ({ · with format := s })),
   ("file_path", text fun s => change ({ · with filePath := s })),
   ("max_size_mb", number fun n => change ({ · with maxSizeMb := n })),
   ("max_age_days", number fun n => change ({ · with maxAgeDays := n })),
   ("max_backups", number fun n => change ({ · with maxBackups := n })),
   ("db_path", text fun s => change ({ · with databasePath := s })),
   ("retention_days", number fun n => change ({ · with retentionDays := n })),
   ("buffer_lines", number fun n => change ({ · with bufferLines := n }))]

def telemetryKeys : List (String × Setter) :=
  let change (f : Telemetry.Settings → Telemetry.Settings) (c : Config) : Config :=
    { c with telemetry := f c.telemetry }
  [("exporter", text fun s => change ({ · with exporter := s })),
   ("endpoint", text fun s => change ({ · with endpoint := s })),
   ("service_name", text fun s => change ({ · with serviceName := s })),
   ("sample_rate", rate fun x => change ({ · with sampleRate := x })),
   ("metrics", flag fun b => change ({ · with metrics := b })),
   ("traces", flag fun b => change ({ · with traces := b }))]

/-- The tables of a file and the keys of each. -/
def sections : List (String × List (String × Setter)) :=
  [("server", serverKeys), ("transpile", conversionKeys), ("pgwire", wireKeys), ("s3", storeKeys),
   ("log", logKeys), ("telemetry", telemetryKeys)]

/-- The value under a name; names agree up to case, an exact match comes first. -/
def named {α : Type} (name : String) (entries : List (String × α)) : Option α :=
  match entries.lookup name with
  | some a => some a
  | none => (entries.find? fun (key, _) => Text.equalFold key name).map Prod.snd

/-- Whether a key means something. -/
def known : List String → Bool
  | [table] => (named table sections).isSome
  | [table, name] => ((named table sections).bind (named name)).isSome
  | _ => false

def assignments (key : List String) : Toml.Value → List (List String × Toml.Value)
  | .table fields => fields.map fun (names, v) => (key ++ names, v)
  | v => [(key, v)]

def assign (c : Config) (key : List String) (v : Toml.Value) : Except (List String) Config :=
  match key with
  | [table, name] =>
    match (named table sections).bind (named name) with
    | some setter =>
      match setter v c with
      | some c => .ok c
      | none => .error key
    | none => .ok c
  | _ => .ok c

/-- Why no configuration can be read. -/
inductive LoadError
  | file (error : FileError)
  | format (fault : Toml.Fault)
  | value (key : List String)
  | unknownKeys (path : String) (keys : List (List String))
  | faults (all : List ConfigFault)

def LoadError.message : LoadError → String
  | .file error => "config: " ++ error.message
  | .format fault => "config: " ++ fault.message
  | .value key => "config: toml: incompatible value for key " ++ Toml.keyText key
  | .unknownKeys path keys =>
    "config: unknown keys in " ++ path ++ ": " ++ ", ".intercalate (keys.map Toml.keyText)
  | .faults all => faultText all

def ofItems (items : List Toml.Item) : Except LoadError Config :=
  let values := items.flatMap fun
    | .value key v => assignments key v
    | _ => []
  values.foldlM (fun c (key, v) =>
    match assign c key v with
    | .ok c => .ok c
    | .error key => .error (.value key)) ({} : Config)

def ofText (registry : Registry) (path text : String) : Except LoadError Config :=
  match Toml.read text with
  | .error fault => .error (.format fault)
  | .ok items => do
    let c ← ofItems items
    let unknown := (items.flatMap Toml.Item.keys).filter (!known ·)
    if !unknown.isEmpty then throw (.unknownKeys path unknown)
    match c.faults registry with
    | [] => return c
    | all => throw (.faults all)

def load (registry : Registry) (path : String) : Except FileError String → Except LoadError Config
  | .ok text => ofText registry path text
  | .error e => .error (.file e)

def loadOptional (registry : Registry) (path : String) (content : Except FileError String) :
    Except LoadError Config :=
  match content with
  | .error { fault := .missing, .. } => .ok {}
  | content => load registry path content

end SqlDialects.Config
