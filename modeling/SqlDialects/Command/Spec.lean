import SqlDialects.Command.Flag
import SqlDialects.Text.Case

/-! The commands of the program: what they are called, which flags and arguments they take, and how
the command is found among the arguments. -/

namespace SqlDialects.Command

/-- What a command does. -/
inductive Action
  | menu
  | transpile
  | dialects
  | checkRules
  | passwd
  | token
  | serve
  | help
  | completion
deriving Repr, DecidableEq

/-- How many arguments a command takes. -/
inductive Arity
  | any
  | none
  | atMost (n : Nat)
  | exactly (n : Nat)
deriving Repr, DecidableEq

/-- A command; a menu only holds others. -/
structure Spec where
  name : String
  use : String
  short : String
  long : String := ""
  action : Action
  arity : Arity := .any
  flags : List Flag := []
deriving Repr

def Spec.isRunnable (s : Spec) : Bool := s.action != .menu

def configFlag : Flag :=
  { name := "config"
    usage := "Path to the TOML config file (default ./sqlbridge.toml when present)" }

def root : Spec :=
  { name := "sqlbridge"
    use := "sqlbridge"
    short := "Translate SQL between database dialects"
    long := "Parses SQL written for ClickHouse, Presto/Trino, Oracle, Hive/Spark, Teradata,\n" ++
      "Postgres, MySQL or Snowflake and regenerates it for another dialect, Doris by default."
    action := .menu }

def transpileSpec : Spec :=
  { name := "transpile"
    use := "transpile [location]"
    short := "Convert SQL from one dialect to another"
    long := "Reads SQL from a location and writes the converted SQL to stdout, or to\n" ++
      "--out. A location is a file path, \"-\" for stdin, or s3://bucket/key; S3\n" ++
      "access uses the [s3] config section and the default AWS credential chain.\n\n" ++
      "With --all the input may hold several statements separated by semicolons;\n" ++
      "each is converted and printed terminated by a semicolon."
    action := .transpile
    arity := .atMost 1
    flags := [
      { name := "from", short := some 'f', usage := "Source dialect (default from config)" },
      { name := "to", short := some 't',
        usage := "Target dialect (default from config, else doris)" },
      { name := "all", short := some 'a', kind := .switch, default := "false",
        usage := "Convert every statement in the input" },
      { name := "rules", usage := "Rename rules file (default from config)" },
      { name := "out", short := some 'o', default := "-", usage := "Output location" }] }

def dialectsSpec : Spec :=
  { name := "dialects", use := "dialects", short := "List supported dialects", action := .dialects }

def rulesSpec : Spec :=
  { name := "rules", use := "rules", short := "Inspect rename rules files", action := .menu }

def checkSpec : Spec :=
  { name := "check"
    use := "check <file>"
    short := "Validate a rules file"
    long := "Parses the rules file and registers its rules with a fresh transpiler, so\n" ++
      "that unknown dialects and conflicting overrides are reported before the file\n" ++
      "is deployed."
    action := .checkRules
    arity := .exactly 1 }

def passwdSpec : Spec :=
  { name := "passwd"
    use := "passwd"
    short := "Hash a password for pgwire.password"
    long := "Prompts for a password and prints its bcrypt hash. Put the hash in the\n" ++
      "[pgwire] password setting so the config file never holds the plain text."
    action := .passwd
    arity := .none
    flags := [{ name := "cost", kind := .int, default := "10", usage := "bcrypt cost factor" }] }

def tokenSpec : Spec :=
  { name := "token"
    use := "token"
    short := "Mint an API token for the HTTP server"
    long := "Signs a bearer token with server.auth_secret from the config file, or with\n" ++
      "SQLBRIDGE_AUTH_SECRET when set. Clients send it as \"Authorization: Bearer\n" ++
      "<token>\", or as the access_token query parameter on /v1/live."
    action := .token
    arity := .none
    flags := [
      { name := "subject", default := "sqlbridge",
        usage := "Subject (sub claim) recorded in the token" },
      { name := "ttl", kind := .duration, default := "720h0m0s",
        usage := "Token lifetime; 0 never expires" }] }

def serveSpec : Spec :=
  { name := "serve"
    use := "serve"
    short := "Start the transpile HTTP API"
    long := "Starts the HTTP server. POST /v1/transpile converts SQL; GET /v1/dialects,\n" ++
      "/v1/rules and /v1/logs describe the running instance."
    action := .serve
    flags := [
      { name := "addr", default := "localhost:8360", usage := "Address to listen on" },
      { name := "from", usage := "Default source dialect for requests that omit one" },
      { name := "to", default := "doris",
        usage := "Default target dialect for requests that omit one" },
      { name := "rules", usage := "Rename rules file" },
      { name := "watch-rules", kind := .switch, default := "false",
        usage := "Reload the rules file when it changes" },
      { name := "cache-size", kind := .int, default := "1024",
        usage := "Result cache entries (0 disables the cache)" },
      { name := "pgwire", kind := .switch, default := "false",
        usage := "Also accept PostgreSQL wire protocol clients" },
      { name := "pgwire-addr", default := "localhost:5433",
        usage := "Address for the PostgreSQL wire listener" },
      { name := "log-level", default := "info",
        usage := "Log level (debug, info, warn, error)" }] }

def helpSpec : Spec :=
  { name := "help"
    use := "help [command]"
    short := "Help about any command"
    long := "Help provides help for any command in the application.\n" ++
      "Simply type sqlbridge help [path to command] for full details."
    action := .help }

def completionSpec : Spec :=
  { name := "completion"
    use := "completion"
    short := "Generate the autocompletion script for the specified shell"
    long := "Generate the autocompletion script for sqlbridge for the specified shell.\n" ++
      "See each sub-command's help for details on how to use the generated script.\n"
    action := .menu }

def scriptSpec (shell : String) : Spec :=
  { name := shell
    use := shell
    short := "Generate the autocompletion script for " ++ shell
    action := .completion
    arity := .none }

/-- A command on its way from the program's name. -/
structure Branch where
  spec : Spec
  parents : List Spec := []
deriving Repr

namespace Branch

def top : Branch := ⟨root, []⟩

/-- The commands under a command, in the order of their names. -/
def children (c : Branch) : List Branch :=
  let specs :=
    if c.spec.name = root.name then
      [completionSpec, dialectsSpec, helpSpec, passwdSpec, rulesSpec, serveSpec, tokenSpec,
       transpileSpec]
    else if c.spec.name = rulesSpec.name then [checkSpec]
    else if c.spec.name = completionSpec.name then
      ["bash", "fish", "powershell", "zsh"].map scriptSpec
    else []
  specs.map fun s => ⟨s, c.parents ++ [c.spec]⟩

/-- The words that call a command. -/
def path (c : Branch) : String :=
  " ".intercalate ((c.parents ++ [c.spec]).map Spec.name)

/-- The flags that tell commands from their values when a command is looked for. -/
def declaredFlags (c : Branch) : List Flag := configFlag :: c.spec.flags

def helpFlag (c : Branch) : Flag :=
  { name := "help", short := some 'h', kind := .switch, default := "false",
    usage := "help for " ++ c.spec.name }

def versionFlag : Flag :=
  { name := "version", short := some 'v', kind := .switch, default := "false",
    usage := "version for " ++ root.name }

def ownFlags (c : Branch) : List Flag :=
  c.spec.flags ++ [c.helpFlag] ++ if c.parents.isEmpty then [configFlag, versionFlag] else []

def inheritedFlags (c : Branch) : List Flag := if c.parents.isEmpty then [] else [configFlag]

def allFlags (c : Branch) : List Flag := c.ownFlags ++ c.inheritedFlags

end Branch

/-! Finding the command. -/

/-- Whether a flag stands before its value as an argument of its own. A flag that is not known is
taken to. -/
def takesNext (flags : List Flag) (argument : String) : Bool :=
  let isSwitch (f? : Option Flag) := f?.any (·.kind == .switch)
  let cs := argument.toList
  if cs.contains '=' then false
  else match cs with
    | '-' :: '-' :: name => !isSwitch (flags.find? (·.name == String.ofList name))
    | ['-', c] => !isSwitch (flags.find? (·.short == some c))
    | _ => false

/-- The arguments that are neither flags nor their values. -/
def words (flags : List Flag) : List String → List String
  | [] => []
  | a :: rest =>
    if a = "--" then []
    else if takesNext flags a then
      match rest with
      | _ :: next :: more => words flags (next :: more)
      | _ => []
    else if a ≠ "" && !a.startsWith "-" then a :: words flags rest
    else words flags rest

def removeWord (flags : List Flag) (word : String) : List String → List String
  | [] => []
  | a :: rest =>
    if a = "--" then a :: rest
    else if takesNext flags a then
      match rest with
      | value :: more => a :: value :: removeWord flags word more
      | [] => [a]
    else if a = word then rest
    else a :: removeWord flags word rest

def descend : Nat → Branch → List String → Branch × List String
  | 0, c, arguments => (c, arguments)
  | depth + 1, c, arguments =>
    match words c.declaredFlags arguments with
    | [] => (c, arguments)
    | word :: _ =>
      match c.children.find? (·.spec.name == word) with
      | some child => descend depth child (removeWord c.declaredFlags word arguments)
      | none => (c, arguments)

/-! Suggestions. -/

/-- One more row of the table of distances between the beginnings of two texts. -/
def distanceRow (c : Char) (left above : Nat) : List Char → List Nat → List Nat
  | d :: ds, next :: row =>
    let best := min (min (left + 1) (next + 1)) (if c = d then above else above + 1)
    best :: distanceRow c best next ds row
  | _, _ => []

/-- How many letters have to be added, dropped or changed to turn one text into the other. -/
def distance (s t : List Char) : Nat :=
  let rows := s.foldl (fun row c =>
    match row with
    | above :: rest => (above + 1) :: distanceRow c (above + 1) above t rest
    | [] => []) (List.range (t.length + 1))
  rows.getLastD 0

/-- The commands that a misspelt word may have meant. -/
def suggestions (c : Branch) (word : String) : List String :=
  let word := (Text.lower word).toList
  let names := (c.children.filter (·.spec.action != .help)).map (·.spec.name)
  names.filter fun name => distance word name.toList ≤ 2 || word.isPrefixOf name.toList

/-! Errors in the use of a command. -/

inductive UseError
  | flag (error : FlagError)
  | unknownCommand (word path : String) (suggestions : List String)
  | tooMany (most given : Nat)
  | wrongCount (wanted given : Nat)
deriving Repr, DecidableEq

def UseError.message : UseError → String
  | .flag error => error.message
  | .unknownCommand word path suggestions =>
    "unknown command " ++ Text.quote word ++ " for " ++ Text.quote path ++
      (if suggestions.isEmpty then ""
       else "\n\nDid you mean this?\n" ++ String.join (suggestions.map fun s => "\t" ++ s ++ "\n"))
  | .tooMany most given => s!"accepts at most {most} arg(s), received {given}"
  | .wrongCount wanted given => s!"accepts {wanted} arg(s), received {given}"

/-- Finds the command and the arguments that are left for it. Only the program itself minds a word
that is no command. -/
def find (arguments : List String) : Except UseError (Branch × List String) :=
  let (c, rest) := descend 3 .top arguments
  match c.parents, words c.declaredFlags rest with
  | [], word :: _ => .error (.unknownCommand word c.path (suggestions c word))
  | _, _ => .ok (c, rest)

def Branch.checkArity (c : Branch) (arguments : List String) : Except UseError Unit :=
  match c.spec.arity, arguments with
  | .none, word :: _ => .error (.unknownCommand word c.path [])
  | .atMost n, arguments =>
    if arguments.length ≤ n then .ok () else .error (.tooMany n arguments.length)
  | .exactly n, arguments =>
    if arguments.length = n then .ok () else .error (.wrongCount n arguments.length)
  | _, _ => .ok ()

end SqlDialects.Command
