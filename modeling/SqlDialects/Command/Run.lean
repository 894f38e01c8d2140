import SqlDialects.AccessToken
import SqlDialects.Address
import SqlDialects.Command.Help
import SqlDialects.Command.Shell
import SqlDialects.Config.File
import SqlDialects.Location
import SqlDialects.PasswordHash
import SqlDialects.Rename.File
import SqlDialects.Service

/-! Running commands. -/

namespace SqlDialects.Command

/-- Why a command fails. -/
inductive RunError
  | use (error : UseError)
  | config (error : Config.LoadError)
  | faults (all : List ConfigFault)
  | noSource
  | location (error : LocationError)
  | unreadable (path : String) (error : FileError)
  | noStore (location : Location)
  | emptyInput
  | rulesFile (error : Rename.LoadError)
  | rules (error : Error)
  | conversion (error : Error)
  | noFolder (path : String) (error : FileError)
  | unwritable (path : String) (error : FileError)
  | noPassword
  | emptyPassword
  | otherPassword
  | hash (fault : PasswordHash.Fault)
  | noSecret
  | shortSecret
  | log (error : Log.InitError)
  | listen (fault : Address.Fault)
  | listenWire (address : String) (fault : Address.Fault)
  | noNetwork (address : String)
  | noScript (shell : String)

def conversionText (e : Error) : String :=
  e.kindName ++ ": " ++ match e.root with
    | .parse p => String.ofList (p.verbose.toList.reverse.dropWhile (· == '\n')).reverse
    | _ => e.message

def readText (path : String) (e : FileError) : String :=
  match e.fault with
  | .missing => "read " ++ path ++ ": not found"
  | .isDirectory => e.message
  | _ => "read " ++ path ++ ": " ++ e.message

def RunError.message : RunError → String
  | .use error => error.message
  | .config error => error.message
  | .faults all => Config.faultText all
  | .noSource => "no source dialect: pass --from or set transpile.from in the config"
  | .location error => error.message
  | .unreadable path error => "read input: " ++ readText path error
  | .noStore place => place.toText ++ ": the object store is not available"
  | .emptyInput => "no input: the SQL is empty"
  | .rulesFile error => error.message
  | .rules error => "rules: " ++ error.message
  | .conversion error => conversionText error
  | .noFolder path error => "write " ++ path ++ ": create directory: " ++ error.message
  | .unwritable path error => "write " ++ path ++ ": " ++ error.message
  | .noPassword => "failed to read password: EOF"
  | .emptyPassword => "password must not be empty"
  | .otherPassword => "passwords do not match"
  | .hash fault => "failed to hash password: " ++ fault.message
  | .noSecret => "no auth secret configured: set server.auth_secret or SQLBRIDGE_AUTH_SECRET"
  | .shortSecret => s!"auth secret must be at least {Config.secretLength} characters"
  | .log error => "failed to initialize logging: " ++ error.message
  | .listen fault => "listen tcp: " ++ fault.message
  | .listenWire address fault => "failed to listen on " ++ address ++ ": listen tcp: " ++ fault.message
  | .noNetwork address => "listen tcp " ++ address ++ ": the network is not available"
  | .noScript shell => "there is no completion script for " ++ shell

/-- Steps of a command, which may fail. -/
abbrev Run (m : Type → Type) := ExceptT RunError m

variable {m : Type → Type} [Monad m] [Shell m]

def orFail {ε α : Type} (reason : ε → RunError) (result : Except ε α) : Run m α :=
  match result with
  | .ok a => pure a
  | .error e => throw (reason e)

def print (text : String) : Run m Unit := ExceptT.lift (Shell.print text)

def registry : Registry := .standard

/-! Files. -/

/-- The file that is read if it is there and no other is named. -/
def usualConfig : String := "sqlbridge.toml"

/-- The configuration: of the file that a flag or the environment names, which must be there, or of
the usual file. -/
def loadConfig (p : Parsed) : Run m Config := do
  let named := p.text "config" ""
  let path ← if named = "" then ExceptT.lift (Shell.environment "SQLBRIDGE_CONFIG") else pure named
  if path = "" then
    let content ← ExceptT.lift (Shell.readFile usualConfig)
    orFail .config (Config.loadOptional registry usualConfig content)
  else
    let content ← ExceptT.lift (Shell.readFile path)
    orFail .config (Config.load registry path content)

def loadRules (path : String) : Run m (List Rule) := do
  let content ← ExceptT.lift (Shell.readFile path)
  orFail .rulesFile (Rename.load registry path content)

def read : Location → Run m String
  | .standard => ExceptT.lift Shell.readAll
  | .file path => do orFail (.unreadable path) (← ExceptT.lift (Shell.readFile path))
  | location => throw (.noStore location)

/-- The path of the directory that holds a file. -/
def folderOf (path : String) : String :=
  let before := (path.toList.reverse.dropWhile (· != '/')).reverse
  match before with
  | [] => "."
  | ['/'] => "/"
  | _ => String.ofList before.dropLast

/-- Writes a text to a location. The directories on the way to a file are made. -/
def write (text : String) : Location → Run m Unit
  | .standard => print text
  | .file path => do
    orFail (.noFolder path) (← ExceptT.lift (Shell.makeFolder (folderOf path)))
    orFail (.unwritable path) (← ExceptT.lift (Shell.writeFile path text))
  | location => throw (.noStore location)

/-! The commands. -/

def firstOf (texts : List String) : String := (texts.find? (· ≠ "")).getD ""

/-- Converts the text at a location. -/
def transpile (p : Parsed) : Run m Unit := do
  let config ← loadConfig p
  let source := firstOf [p.text "from" "", config.conversion.source]
  let target := firstOf [p.text "to" "", config.conversion.target]
  let rulesPath := firstOf [p.text "rules" "", config.conversion.rulesFile]
  if source = "" then throw .noSource
  let output ← orFail .location (Location.ofText (p.text "out" "-"))
  let input ← orFail .location (Location.ofText (p.arguments.headD ""))
  let sql := Text.trim (← read input)
  if sql = "" then throw .emptyInput
  let rules ← if rulesPath = "" then pure [] else loadRules rulesPath
  let t : Transpiler := { rules }
  let work := if p.switch "all" then
      (fun texts => String.join (texts.map (· ++ ";\n"))) <$> Transpiler.transpileAll sql source target
    else (· ++ "\n") <$> Transpiler.transpile sql source target
  match (work.run t).1 with
  | .ok text => write text output
  | .error failure => throw (.conversion failure.error)

def table (rows : List (String × String)) : String :=
  let width := (rows.map (·.1.length)).foldl max 0
  String.join (rows.map fun (a, b) => padTo (width + 2) a ++ b ++ "\n")

def dialects : Run m Unit :=
  let row := fun (e : Entry) =>
    (e.name, if e.dialect.aliases.isEmpty then "-" else ", ".intercalate e.dialect.aliases)
  print (table (("NAME", "ALIASES") :: registry.sorted.map row))

def checkRules (p : Parsed) : Run m Unit := do
  let rules ← loadRules (p.arguments.headD "")
  let t ← orFail .rules (({} : Transpiler).setRules rules)
  print (String.join (t.ruleNames.map (· ++ "\n")) ++ s!"{rules.length} rule(s) OK\n")

/-- A line of the input without its end. -/
def passwordLine (question : String) : Run m String := do
  ExceptT.lift (Shell.prompt question)
  let line ← ExceptT.lift Shell.readLine
  if line = "" then throw .noPassword
  let isEnd := fun c => c == '\r' || c == '\n'
  return String.ofList (line.toList.reverse.dropWhile isEnd).reverse

/-- Hashes a password that is given twice. -/
def passwd (p : Parsed) : Run m Unit := do
  let password ← passwordLine "Enter password: "
  if password = "" then throw .emptyPassword
  let again ← passwordLine "Confirm password: "
  if password ≠ again then throw .otherPassword
  let cost := (int (p.text "cost" "")).toOption.getD PasswordHash.usualCost
  let salt ← ExceptT.lift Shell.salt
  let hash ← orFail .hash (PasswordHash.make password cost salt)
  print (hash.toText ++ "\n")

/-- Issues a token for clients of the service. -/
def token (p : Parsed) : Run m Unit := do
  let config ← loadConfig p
  let given ← ExceptT.lift (Shell.environment "SQLBRIDGE_AUTH_SECRET")
  let secret := firstOf [given, config.server.authSecret]
  if secret = "" then throw .noSecret
  if secret.utf8ByteSize < Config.secretLength then throw .shortSecret
  let lifetime := (Duration.ofText (p.text "ttl" "720h")).toOption.getD (.ofSeconds 0)
  let now ← ExceptT.lift Shell.now
  print (AccessToken.issue secret (p.text "subject" "sqlbridge") lifetime now ++ "\n")

def serveConfig (p : Parsed) (c : Config) : Config :=
  let text (name old : String) := (p.given? name).getD old
  let switch (name : String) (old : Bool) := if (p.given? name).isSome then p.switch name else old
  { c with
    server := { c.server with
      addr := text "addr" c.server.addr
      cacheSize := ((p.given? "cache-size").bind (int · |>.toOption)).getD c.server.cacheSize }
    conversion := { c.conversion with
      source := text "from" c.conversion.source
      target := text "to" c.conversion.target
      rulesFile := text "rules" c.conversion.rulesFile
      watchRules := switch "watch-rules" c.conversion.watchRules }
    wire := { c.wire with
      enabled := switch "pgwire" c.wire.enabled
      addr := text "pgwire-addr" c.wire.addr }
    log := { c.log with level := text "log-level" c.log.level } }

/-- What is said when the service starts. -/
def banner (c : Config) : String :=
  let addr := c.server.addr
  "Starting sqlbridge on " ++ addr ++ "\n" ++
  "  Transpile API: http://" ++ addr ++ "/v1/transpile\n" ++
  "  Live editor:   ws://" ++ addr ++ "/v1/live\n" ++
  (if c.server.authSecret = "" then ""
   else "  Auth: bearer token required (see 'sqlbridge token')\n") ++
  (if c.conversion.source = "" then ""
   else "  Default pair: " ++ c.conversion.source ++ " -> " ++ c.conversion.target ++ "\n") ++
  (if c.wire.enabled then
    "  PostgreSQL wire: " ++ c.wire.addr ++ " (database name selects the source dialect)\n"
   else "")

/-- The address of the service; without one it is the usual one of the protocol. -/
def httpAddress (addr : String) : Except Address.Fault Address :=
  Address.ofText (if addr = "" then ":http" else addr)

/-- Prepares the service up to the point where it would listen. -/
def serve (p : Parsed) : Run m Unit := do
  let config := serveConfig p (← loadConfig p)
  match config.faults registry with
  | [] => pure ()
  | all => throw (.faults all)
  orFail .log (← ExceptT.lift (Shell.openLog config.log))
  let service := Service.ofConfig config {}
  let path := config.conversion.rulesFile
  if path ≠ "" then
    let rules ← loadRules path
    let _ ← orFail .rules (service.applyRules rules)
  print (banner config)
  let _ ← orFail .listen (httpAddress config.server.addr)
  if config.wire.enabled then
    let _ ← orFail (.listenWire config.wire.addr) (Address.ofText config.wire.addr)
  throw (.noNetwork config.server.addr)

/-- A word between backquotes, or between double quotes if it cannot stand between those. -/
def topic (word : String) : String :=
  let plain := word.toList.all fun c => (Text.isPrintable c || c == '\t') && c != '\x60'
  if plain then "\x60" ++ word ++ "\x60" else Text.quote word

def helpOn (words : List String) : Run m Unit :=
  match find words with
  | .ok (c, _) => print c.help
  | .error _ =>
    print ("Unknown help topic [" ++ " ".intercalate (words.map topic) ++ "]\n" ++
      Branch.top.usage)

def version : String := "dev"

/-- Does what a command is for. -/
def perform (c : Branch) (p : Parsed) : Run m Unit :=
  match c.spec.action with
  | .menu => print c.help
  | .transpile => transpile p
  | .dialects => dialects
  | .checkRules => checkRules p
  | .passwd => passwd p
  | .token => token p
  | .serve => serve p
  | .help => helpOn p.arguments
  | .completion => throw (.noScript c.spec.name)

/-- Finds a command among the arguments and runs it. -/
def execute (arguments : List String) : Run m Unit := do
  let (c, rest) ← orFail .use (find arguments)
  let p ← orFail (.use ∘ .flag) (readFlags c.allFlags rest.length {} rest)
  if p.switch "help" then print c.help
  else if c.parents.isEmpty && p.switch "version" then
    print (root.name ++ " version " ++ version ++ "\n")
  else if !c.spec.isRunnable then print c.help
  else
    orFail .use (c.checkArity p.arguments)
    perform c p

def runIn (s : Sandbox) (arguments : List String) : Except RunError Unit × Sandbox :=
  ((execute arguments : Run (StateM Sandbox) Unit).run).run s

end SqlDialects.Command
