import SqlDialects.PasswordHash
import SqlDialects.Transpiler

/-! Sessions of database clients. The name of the database that a client asks for selects the
dialects; every query comes back as rows of converted statements. -/

namespace SqlDialects.Wire

/-- A password that is empty lets everybody in; `target` is the dialect where a client names only
the source. -/
structure Settings where
  password : String := ""
  target : String := ""
deriving Repr, DecidableEq

/-- The dialects between which a session converts. -/
structure Session where
  source : String
  target : String
deriving Repr, DecidableEq

/-- Why a client is turned away. -/
inductive Refusal
  | password
  | noDialect
  | dialect (error : Error)
deriving Repr, DecidableEq

def Refusal.message : Refusal → String
  | .password => "invalid username/password"
  | .noDialect =>
    "database name must be a source dialect, such as \"presto\" or \"presto:doris\""
  | .dialect error => error.message

/-- Whether a password is accepted. A text that starts like a hash is taken for one, and a malformed
hash matches nothing. -/
def accepts (wanted given : String) : Bool :=
  if wanted = "" then true
  else if wanted.startsWith "$2" then (PasswordHash.ofText? wanted).any (·.fits given)
  else wanted == given

def defaultTarget (s : Settings) : String := if s.target = "" then "doris" else s.target

def Session.ofDatabase (registry : Registry) (target database : String) :
    Except Refusal Session := do
  let source := database.toList.takeWhile (· != ':')
  let rest := database.toList.drop source.length
  let source := Text.trim (String.ofList source)
  let target := Text.trim (if rest.isEmpty then target else String.ofList (rest.drop 1))
  if source = "" then throw .noDialect
  let entry (name : String) : Except Refusal Entry :=
    match registry.lookup name with
    | .ok e => .ok e
    | .error e => .error (.dialect e)
  return { source := (← entry source).name, target := (← entry target).name }

def connect (registry : Registry) (s : Settings) (database password : String) :
    Except Refusal Session :=
  if accepts s.password password then Session.ofDatabase registry (defaultTarget s) database
  else .error .password

/-! Queries that clients send on their own. -/

def isBlank (c : Char) : Bool :=
  c == ' ' || c == '\t' || c == '\n' || c == '\r' || c == '\x0c'

def after? (word : String) (cs : List Char) : Option (List Char) :=
  if word.toList.isPrefixOf cs then some (cs.drop word.length) else none

/-- The rest after one or more blanks. -/
def blanks? (cs : List Char) : Option (List Char) :=
  if cs.head?.any isBlank then some (cs.dropWhile isBlank) else none

def asksVersion (query : List Char) : Bool :=
  let skip := fun cs : List Char => cs.dropWhile isBlank
  let rest := do
    let cs ← after? "SELECT" (skip query)
    let cs ← after? "VERSION" (← blanks? cs)
    let cs ← after? "(" (skip cs)
    after? ")" (skip cs)
  match rest with
  | none => false
  | some cs =>
    let cs := skip cs
    (skip ((after? ";" cs).getD cs)).isEmpty

def someSuffix (test : List Char → Bool) : List Char → Bool
  | [] => test []
  | c :: cs => test (c :: cs) || someSuffix test cs

def contains (word : String) (cs : List Char) : Bool := someSuffix (word.toList.isPrefixOf ·) cs

def readsCatalogue (query : List Char) : Bool :=
  let fromTable := fun cs => ((after? "FROM" cs).bind blanks?).any ("PG_".toList.isPrefixOf ·)
  contains "PG_CATALOG" query || contains "INFORMATION_SCHEMA" query ||
    someSuffix fromTable query

/-! Answers. -/

/-- Rows of one text each. -/
structure Table where
  columns : List String := []
  rows : List String := []
deriving Repr, DecidableEq

def Table.tag (t : Table) : String := s!"SELECT {t.rows.length}"

inductive Answer
  | nothing
  | table (t : Table)
  | failed (message : String)
deriving Repr, DecidableEq

def version : String := "sqlbridge, compatible with PostgreSQL 15.0"

/-- Answers a query. What clients ask about the catalogue is always empty. -/
def Session.answer (s : Session) (query : String) : StateM Transpiler Answer := do
  let query := Text.trim query
  let upper := (Text.upper query).toList
  if query = "" then return .nothing
  else if query = ";" then return .failed "no statement has been defined"
  else if asksVersion upper then return .table { columns := ["version"], rows := [version] }
  else if readsCatalogue upper then return .table {}
  else
    match ← (Transpiler.transpileAll query s.source s.target).run with
    | .ok rows => return .table { columns := ["sql"], rows }
    | .error { error, .. } => return .failed (error.kindName ++ ": " ++ error.message)

end SqlDialects.Wire
