import SqlDialects.Json.Value
import SqlDialects.Log.Level
import SqlDialects.Text.Blank

/-! Log records and the lines they are written as. Lines carry no time: whoever keeps them may put
one in front. -/

namespace SqlDialects.Log

inductive AttrValue
  | text (s : String)
  | int (n : Int)
  | flag (b : Bool)
  | nothing
deriving Repr, DecidableEq, Inhabited

structure Attr where
  key : String
  value : AttrValue
deriving Repr, DecidableEq, Inhabited

def Attr.ofText (key value : String) : Attr := ⟨key, .text value⟩

/-- `outer` attributes belong to the logger; the record's own may stand in a named group. -/
structure Record where
  level : Level
  message : String
  attrs : List Attr := []
  outer : List Attr := []
  group : String := ""
deriving Repr, DecidableEq

def AttrValue.toText : AttrValue → String
  | .text s => s
  | .int n => n.repr
  | .flag b => if b then "true" else "false"
  | .nothing => "<nil>"

def AttrValue.toJson : AttrValue → Json.Value
  | .text s => .string s
  | .int n => .int n
  | .flag b => .bool b
  | .nothing => .null

def Attr.isEmpty (a : Attr) : Bool := a.key == "" && a.value == .nothing

/-! Lines of words. -/

/-- Whether a character may stand in a word. -/
def isPlain (c : Char) : Bool :=
  if c.toNat < 0x80 then 0x20 < c.toNat && c != '=' && c != '\x22'
  else c != '\ufffd' && !Text.isBlank c && Text.isPrintable c

/-- Whether a text can stand as one word. -/
def isWord (s : String) : Bool := s != "" && s.toList.all isPlain

def word (s : String) : String := if isWord s then s else Text.quote s

def groupedKey (group key : String) : String :=
  if group = "" then word key
  else if isWord (group ++ ".") && isWord key then group ++ "." ++ key
  else Text.quote (group ++ "." ++ key)

def AttrValue.word : AttrValue → String
  | .text s => Log.word s
  | v => v.toText

def attrWords (group : String) (attrs : List Attr) : List String :=
  (attrs.filter (!·.isEmpty)).map fun a => groupedKey group a.key ++ "=" ++ a.value.word

/-- A line of words `key=value`. -/
def Record.textLine (r : Record) : String :=
  " ".intercalate (("level=" ++ r.level.name) :: ("msg=" ++ word r.message) ::
    attrWords "" r.outer ++ attrWords r.group r.attrs)

/-! Lines of JSON. -/

def attrFields (attrs : List Attr) : List (String × Json.Value) :=
  (attrs.filter (!·.isEmpty)).map fun a => (a.key, a.value.toJson)

/-- A line with one JSON object. A group without attributes is left out. -/
def Record.jsonLine (r : Record) : String :=
  let own := attrFields r.attrs
  let own := if r.group = "" || own.isEmpty then own else [(r.group, .object own)]
  (Json.Value.object ([("level", .string r.level.name), ("msg", .string r.message)] ++
    attrFields r.outer ++ own)).render .line

/-! Rows of a table. -/

/-- A row of the audit table; what has no column of its own is kept as JSON in `extra`. -/
structure Row where
  level : String
  message : String
  requestId : Option String := none
  source : Option String := none
  target : Option String := none
  errorKind : Option String := none
  extra : Option String := none
deriving Repr, DecidableEq

def lastValue? (attrs : List Attr) (key : String) : Option AttrValue :=
  (attrs.reverse.find? (·.key == key)).map Attr.value

def columns : List String := ["request_id", "from", "to", "error_kind"]

/-- Adds a field in the order of the keys, in place of an earlier one. -/
def insertField (key : String) (v : Json.Value) :
    List (String × Json.Value) → List (String × Json.Value)
  | [] => [(key, v)]
  | (k, w) :: rest =>
    if key = k then (key, v) :: rest
    else if key < k then (key, v) :: (k, w) :: rest
    else (k, w) :: insertField key v rest

def Record.row (r : Record) : Row :=
  let attrs := r.outer ++ r.attrs
  let column (key : String) := (lastValue? attrs key).map AttrValue.toText
  let extra := (attrs.filter fun a => !columns.contains a.key).foldl
    (fun fields a => insertField a.key a.value.toJson fields) []
  { level := r.level.name
    message := r.message
    requestId := column "request_id"
    source := column "from"
    target := column "to"
    errorKind := column "error_kind"
    extra := if extra.isEmpty then none else some ((Json.Value.object extra).render .page) }

end SqlDialects.Log
