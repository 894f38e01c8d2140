import SqlDialects.Dialect

/-! Printing names, literals and types for a dialect. -/

namespace SqlDialects

/-- For whom and how to print. Native types are printed only for the dialect they come from, or
when no dialect is named as their source. In key position every name is quoted and function names
are lower-case. -/
structure Printer where
  dialect : Dialect
  source : Option String := none
  indent : String := "    "
  keyed : Bool := false

namespace Printer

/-- The failure of a construct that the target does not have. -/
def unsupported {α : Type} (p : Printer) (kind : String) (pos : Position) : Except Error α :=
  .error (.unsupported kind (p.source.getD "") p.dialect.name pos)

def paren (wanted : Bool) (text : String) : String := if wanted then "(" ++ text ++ ")" else text

def commas (texts : List String) : String := ", ".intercalate texts

/-! Names. -/

/-- Whether a name has to be quoted: it is empty or reserved, or it is neither a word nor the
number of a tuple element. -/
def needsQuotes (lexicon : Lexicon) (name : String) : Bool :=
  lexicon.isReserved (Text.upper name) ||
    match name.toList with
    | [] => true
    | c :: cs =>
      if c.isDigit then !cs.all Char.isDigit else !isIdentStart c || !cs.all isIdentChar

def doubled (mark : Char) (cs : List Char) : List Char :=
  cs.flatMap fun c => if c = mark then [mark, mark] else [c]

def quoteIdent (lexicon : Lexicon) (name : String) : String :=
  let mark := lexicon.identQuotes.headD '\x22'
  String.ofList (mark :: doubled mark name.toList ++ [mark])

/-- A name; placeholders stay as they are. -/
def ident (p : Printer) (id : Ident) : String :=
  if !id.quoted && id.name.startsWith "$\x7b" then id.name
  else if id.quoted || p.keyed || needsQuotes p.dialect.toLexicon id.name then
    quoteIdent p.dialect.toLexicon id.name
  else id.name

def path (p : Printer) (names : List Ident) : String := ".".intercalate (names.map p.ident)

def idents (p : Printer) (names : List Ident) : String := commas (names.map p.ident)

/-- Names in parentheses after a blank, or nothing if there are none. -/
def columnList (p : Printer) (names : List Ident) : String :=
  if names.isEmpty then "" else " (" ++ p.idents names ++ ")"

/-! Literals. -/

/-- Letters that keep their meaning after a backslash. -/
def escapeLetters : List Char := ['0', 'b', 'n', 'r', 't', 'Z', '%', '_']

/-- The inside of a string literal: quotes are doubled, and where backslashes escape, those that
start no escape are doubled too. -/
def stringBody (mark : Char) (escapes : Bool) : List Char → List Char
  | [] => []
  | [c] =>
    if c = mark then [mark, mark]
    else if c = '\\' && escapes then ['\\', '\\']
    else [c]
  | c :: next :: cs =>
    if c = mark then mark :: mark :: stringBody mark escapes (next :: cs)
    else if c = '\\' && escapes then
      if escapeLetters.contains next then '\\' :: next :: stringBody mark escapes cs
      else '\\' :: '\\' :: stringBody mark escapes (next :: cs)
    else c :: stringBody mark escapes (next :: cs)

def quoteString (lexicon : Lexicon) (s : String) : String :=
  let mark := lexicon.stringQuotes.headD '\x27'
  String.ofList (mark :: stringBody mark lexicon.backslashEscapes s.toList ++ [mark])

def string (p : Printer) (s : String) : String := quoteString p.dialect.toLexicon s

def literal (p : Printer) : LiteralKind → String → String
  | .string, value => p.string value
  | .null, _ => "NULL"
  | .boolean, value => Text.upper value
  | .number, value => value

/-- The dialect's spelling of a neutral function. -/
def functionName (p : Printer) (name : String) : String :=
  (p.dialect.spellings.find? name).getD name

/-! Types. -/

/-- Integer parameters in parentheses, or nothing if there are none. -/
def typeParams (params : List Int) : String :=
  if params.isEmpty then "" else "(" ++ commas (params.map Int.repr) ++ ")"

def typeArgs (p : Printer) (parts : List String) : String :=
  if p.dialect.hints.parenTypes then "(" ++ commas parts ++ ")" else "<" ++ commas parts ++ ">"

/-- A type without inner types. Parameters stay when the type keeps its name, or when the dialect
says so: a text of limited length that becomes an unlimited one loses its length. -/
def plainType (p : Printer) (name : String) (params : List Int) : String :=
  let native := (p.dialect.typeNames.find? name).getD ""
  if Text.equalFold native name || p.dialect.typeParams.contains name then
    native ++ typeParams params
  else native

def typeKind (name : String) : String := if name = "" then "TypeSpec" else "TypeSpec " ++ name

def printsNative (p : Printer) : Bool := p.source.all (· == p.dialect.name)

mutual

/-- A type in the dialect's spelling. -/
def typeSpec (p : Printer) : TypeSpec → Except Error String
  | ⟨pos, name, params, elems, fields, native⟩ =>
    if native then
      if p.printsNative then .ok (name ++ typeParams params)
      else p.unsupported (typeKind name) pos
    else if p.dialect.unsupportedTypes.contains name then p.unsupported (typeKind name) pos
    else if name = "ARRAY" && p.dialect.hints.arraySuffix then do
      return (← typeHead p elems) ++ "[]"
    else if name = "ARRAY" || name = "MAP" then do
      return (p.dialect.typeNames.find? name).getD "" ++ p.typeArgs (← typeElems p elems)
    else if name = "STRUCT" then do
      return (p.dialect.typeNames.find? name).getD "" ++ p.typeArgs (← typeFields p fields)
    else .ok (p.plainType name params)

/-- The type of an array's elements. -/
def typeHead (p : Printer) : List TypeSpec → Except Error String
  | [] => .ok ""
  | t :: _ => typeSpec p t

def typeElems (p : Printer) : List TypeSpec → Except Error (List String)
  | [] => .ok []
  | t :: ts => do
    let first ← typeSpec p t
    return first :: (← typeElems p ts)

def typeFields (p : Printer) : List TypeField → Except Error (List String)
  | [] => .ok []
  | ⟨name, t⟩ :: ts => do
    let separator := if p.dialect.hints.parenTypes then " " else ":"
    let first ← typeSpec p t
    return (p.ident ⟨name, false⟩ ++ separator ++ first) :: (← typeFields p ts)

end

end Printer

end SqlDialects
