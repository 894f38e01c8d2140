import SqlDialects.Text.Quoted

/-! JSON values and their compact text. -/

namespace SqlDialects.Json

/-- A number keeps its spelling; the fields of an object keep their order. -/
inductive Value
  | null
  | bool (b : Bool)
  | number (text : String)
  | string (s : String)
  | array (items : List Value)
  | object (fields : List (String × Value))
deriving Repr, Inhabited

/-- Which characters of a string are escaped besides the quote, the backslash and the control
characters. -/
structure Style where
  pages : Bool
  /-- Backspace and form feed have the short escapes. -/
  short : Bool
deriving Repr, DecidableEq

def Style.page : Style := ⟨true, true⟩

def Style.line : Style := ⟨false, false⟩

def unicodeEscape (c : Char) : List Char := '\\' :: 'u' :: Text.hexDigits 4 c.toNat

def escape (style : Style) (c : Char) : List Char :=
  if c = '\x22' || c = '\\' then ['\\', c]
  else if c = '\n' then ['\\', 'n']
  else if c = '\r' then ['\\', 'r']
  else if c = '\t' then ['\\', 't']
  else if style.short && c.toNat = 8 then ['\\', 'b']
  else if style.short && c.toNat = 12 then ['\\', 'f']
  else if c.toNat < 0x20 || c.toNat = 0x2028 || c.toNat = 0x2029 then unicodeEscape c
  else if style.pages && (c = '<' || c = '>' || c = '&') then unicodeEscape c
  else [c]

def quote (style : Style) (s : String) : String :=
  String.ofList ('\x22' :: s.toList.flatMap (escape style) ++ ['\x22'])

mutual

def Value.render (style : Style) : Value → String
  | .null => "null"
  | .bool b => if b then "true" else "false"
  | .number text => text
  | .string s => quote style s
  | .array items => "[" ++ ",".intercalate (Value.renderItems style items) ++ "]"
  | .object fields => "\x7b" ++ ",".intercalate (Value.renderFields style fields) ++ "\x7d"

def Value.renderItems (style : Style) : List Value → List String
  | [] => []
  | v :: rest => v.render style :: Value.renderItems style rest

def Value.renderFields (style : Style) : List (String × Value) → List String
  | [] => []
  | (key, v) :: rest => (quote style key ++ ":" ++ v.render style) :: Value.renderFields style rest

end

def Value.int (n : Int) : Value := .number n.repr

def Value.texts (items : List String) : Value := .array (items.map .string)

end SqlDialects.Json
