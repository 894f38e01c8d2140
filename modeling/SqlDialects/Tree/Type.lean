import SqlDialects.Position

/-! Types. Every dialect reads its own spellings into one vocabulary of names and prints them from
it; a spelling that the vocabulary does not cover is kept as a native type of its dialect. -/

namespace SqlDialects

mutual

/-- A name of the vocabulary with its parameters, such as `VARCHAR(n)`, its element types, such as
those of `MAP<K, V>`, or its named fields. `native` marks a spelling of one dialect. -/
structure TypeSpec where
  pos : Position := {}
  name : String
  params : List Int := []
  elems : List TypeSpec := []
  fields : List TypeField := []
  native : Bool := false

structure TypeField where
  name : String
  type : TypeSpec

end

namespace TypeSpec

def vocabulary : List String :=
  ["TINYINT", "SMALLINT", "INT", "BIGINT", "LARGEINT", "DECIMAL", "FLOAT", "DOUBLE", "STRING",
   "VARCHAR", "CHAR", "BINARY", "DATE", "DATETIME", "TIME", "INTERVAL", "BOOLEAN", "ARRAY", "MAP",
   "STRUCT", "JSON", "JSONB", "BITMAP", "HLL", "IPV4", "IPV6", "UUID", "GEOMETRY"]

def isCanonicalName (name : String) : Bool := vocabulary.contains name

def named (name : String) (params : List Int := []) : TypeSpec := { name, params }

def arrayOf (elem : TypeSpec) : TypeSpec := { name := "ARRAY", elems := [elem] }

def mapOf (key value : TypeSpec) : TypeSpec := { name := "MAP", elems := [key, value] }

def is (t : TypeSpec) (name : String) : Bool := !t.native && t.name == name

def isTemporal (t : TypeSpec) : Bool := t.is "DATE" || t.is "DATETIME"

/-- Types that cannot serve as a key column of Doris. -/
def isComplex (t : TypeSpec) : Bool :=
  !t.native && ["ARRAY", "MAP", "STRUCT", "JSON", "JSONB", "BITMAP", "HLL"].contains t.name

def isText (t : TypeSpec) : Bool := t.is "STRING" || t.is "VARCHAR" || t.is "CHAR"

end TypeSpec

mutual

def TypeSpec.equal : TypeSpec → TypeSpec → Bool
  | ⟨_, name, params, elems, fields, native⟩, ⟨_, name', params', elems', fields', native'⟩ =>
    name == name' && native == native' && params == params' &&
      equalElems elems elems' && equalFields fields fields'

def equalElems : List TypeSpec → List TypeSpec → Bool
  | [], [] => true
  | t :: ts, u :: us => t.equal u && equalElems ts us
  | _, _ => false

def equalFields : List TypeField → List TypeField → Bool
  | [], [] => true
  | ⟨name, t⟩ :: ts, ⟨name', u⟩ :: us => name == name' && t.equal u && equalFields ts us
  | _, _ => false

end

mutual

/-- A copy of a type, made part by part. -/
def TypeSpec.clone : TypeSpec → TypeSpec
  | ⟨pos, name, params, elems, fields, native⟩ =>
    ⟨pos, name, params, cloneElems elems, cloneFields fields, native⟩

def cloneElems : List TypeSpec → List TypeSpec
  | [] => []
  | t :: ts => t.clone :: cloneElems ts

def cloneFields : List TypeField → List TypeField
  | [] => []
  | ⟨name, t⟩ :: ts => ⟨name, t.clone⟩ :: cloneFields ts

end

mutual

/-- The notation of the vocabulary. Fields are shown before elements and elements before
parameters. -/
def TypeSpec.toText : TypeSpec → String
  | ⟨_, name, params, elems, fields, _⟩ =>
    if !fields.isEmpty then name ++ "<" ++ ", ".intercalate (fieldTexts fields) ++ ">"
    else if !elems.isEmpty then name ++ "<" ++ ", ".intercalate (elemTexts elems) ++ ">"
    else if !params.isEmpty then name ++ "(" ++ ", ".intercalate (params.map Int.repr) ++ ")"
    else name

def elemTexts : List TypeSpec → List String
  | [] => []
  | t :: ts => t.toText :: elemTexts ts

def fieldTexts : List TypeField → List String
  | [] => []
  | ⟨name, t⟩ :: ts => (name ++ ":" ++ t.toText) :: fieldTexts ts

end

end SqlDialects
