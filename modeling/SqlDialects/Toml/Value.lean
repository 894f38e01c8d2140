import SqlDialects.Decimal.Shortest
import SqlDialects.Text.Quoted

/-! Settings files in the format of tables and keys. A file is a list of items in the order in which
they are written. -/

namespace SqlDialects.Toml

/-- A value. Dates keep their spelling. -/
inductive Value
  | string (s : String)
  | integer (n : Int)
  | float (x : Float)
  | bool (b : Bool)
  | date (text : String)
  | array (items : List Value)
  | table (fields : List (List String × Value))
deriving Inhabited

def Value.text? : Value → Option String
  | .string s => some s
  | _ => none

/-- A line of a file, with its full key: the head of a table, the head of an element of an array of
tables, or a key with its value. -/
inductive Item
  | table (key : List String)
  | element (key : List String)
  | value (key : List String) (v : Value)
deriving Inhabited

mutual

def Value.keys (key : List String) : Value → List (List String)
  | .array items => Value.keysOfItems key items
  | .table fields => Value.keysOfFields key fields
  | _ => []

def Value.keysOfItems (key : List String) : List Value → List (List String)
  | [] => []
  | v :: rest => v.keys key ++ Value.keysOfItems key rest

def Value.keysOfFields (key : List String) :
    List (List String × Value) → List (List String)
  | [] => []
  | (names, v) :: rest =>
    (key ++ names) :: v.keys (key ++ names) ++ Value.keysOfFields key rest

end

/-- The keys that an item sets. The head of a table counts as a key. -/
def Item.keys : Item → List (List String)
  | .table key | .element key => [key]
  | .value key v => key :: v.keys key

def isBare (c : Char) : Bool := c.isAlphanum || c == '_' || c == '-'

def escapeKey (c : Char) : List Char :=
  if c = '\x22' || c = '\\' then ['\\', c]
  else if c.toNat = 8 then ['\\', 'b']
  else if c = '\t' then ['\\', 't']
  else if c = '\n' then ['\\', 'n']
  else if c.toNat = 12 then ['\\', 'f']
  else if c = '\r' then ['\\', 'r']
  else if c.toNat < 0x20 || c.toNat = 0x7f then '\\' :: 'u' :: Text.hexDigits 4 c.toNat
  else [c]

def keyPart (name : String) : String :=
  if name ≠ "" && name.toList.all isBare then name
  else String.ofList ('\x22' :: name.toList.flatMap escapeKey ++ ['\x22'])

def keyText (key : List String) : String := ".".intercalate (key.map keyPart)

end SqlDialects.Toml
