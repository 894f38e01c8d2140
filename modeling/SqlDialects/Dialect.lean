import SqlDialects.Function.Basic
import SqlDialects.Lexicon
import SqlDialects.Precedence

/-! The description of a SQL dialect: its lexical rules, how it reads operators, functions and
types, and how it spells the neutral tree. -/

namespace SqlDialects

/-- How an infix operator reads: as the neutral operator `op`, or as a call of `function`. With
`jsonPath` the right operand is a JSON key, which becomes a path. -/
structure InfixOp where
  prec : Nat := 0
  op : String := ""
  function : String := ""
  jsonPath : Bool := false
deriving Repr, DecidableEq, Inhabited

/-- A type as spelled in the source: upper-case words, written parameters, nested types and named
fields. -/
structure NativeType where
  pos : Position
  name : String
  params : List String := []
  args : List TypeSpec := []
  fields : List TypeField := []
  unsigned : Bool := false

namespace NativeType

/-- The integer that a parameter starts with. It must fit 64 bits. -/
def leadingInt? (s : String) : Option Int :=
  let (sign, rest) := match s.toList with
    | '-' :: rest => (['-'], rest)
    | '+' :: rest => ([], rest)
    | rest => ([], rest)
  match Decimal.readInt? (sign ++ rest.takeWhile Char.isDigit) with
  | some n => if Decimal.fits 64 n then some n else none
  | none => none

/-- The numeric parameters; others are skipped. -/
def intParams (n : NativeType) : List Int := n.params.filterMap leadingInt?

end NativeType

/-- Reads one native spelling into the vocabulary. -/
abbrev TypeRule := NativeType → Except Error TypeSpec

inductive ArrayStyle
  | function
  | bracket
  | keyword
deriving Repr, DecidableEq

inductive MapStyle
  | function
  | arrays
  | braces
deriving Repr, DecidableEq

/-- How a dialect lays out what it prints. -/
structure Hints where
  arrays : ArrayStyle := .function
  maps : MapStyle := .function
  /-- `Array(T)` instead of `ARRAY<T>`. -/
  parenTypes : Bool := false
  arraySuffix : Bool := false
  namedStructs : Bool := false
  fetchFirst : Bool := false
  tryCast : Bool := false
  lateralViews : Bool := false
  scalarCtes : Bool := false
  finalModifier : Bool := false
  bareTableLabels : Bool := false
  hivePartitions : Bool := false
  keyModels : Bool := false
  sortKeys : Bool := false
  multilineTables : Bool := false
  tableOptions : Bool := false
  /-- Properties of every table that comes from another dialect. -/
  defaultProperties : List Property := []

structure Dialect extends Lexicon where
  name : String
  aliases : List String := []
  infixOps : Dictionary InfixOp := {}
  /-- Words that are calls without parentheses. -/
  niladic : Dictionary String := {}
  functions : Dictionary FunctionRule := {}
  types : Dictionary TypeRule := {}
  typeNames : Dictionary String := {}
  typeParams : List String := []
  unsupportedTypes : List String := []
  spellings : Dictionary String := {}
  /-- Neutral functions that cannot be spelled. -/
  unavailable : List String := []
  formats : DatePattern := .neutral
  /-- Whether an arrow introduces a lambda instead of JSON access. -/
  lambdas : Bool := false
  /-- Doris tables made from this dialect hash on the first key column only. -/
  leadingKeyHash : Bool := false
  hints : Hints := {}

namespace Dialect

def function? (d : Dialect) (name : String) : Option FunctionRule :=
  d.functions.find? (Text.lower name)

/-! The steps by which a dialect's description is put together. -/

def withFunction (d : Dialect) (rule : FunctionRule) (names : List String) : Dialect :=
  { d with functions := d.functions.insertEach rule (names.map Text.lower) }

/-- Reads native spellings as neutral functions. -/
def withRenames (d : Dialect) (pairs : List (String × String)) : Dialect :=
  pairs.foldl (fun d pair => d.withFunction (.rename pair.2) [pair.1]) d

/-- Reads native functions by a reshaping step. -/
def withShape (d : Dialect) (minArgs : Nat) (reshape : Reshape) (names : List String) : Dialect :=
  d.withFunction (.shape minArgs reshape) names

/-- Prints neutral functions under native spellings. -/
def withSpellings (d : Dialect) (pairs : List (String × String)) : Dialect :=
  { d with spellings := d.spellings.insertAll pairs }

/-- Reads native spellings as neutral functions and prints them back; the neutral name is first. -/
def withPairs (d : Dialect) (pairs : List (String × String)) : Dialect :=
  (pairs.foldl (fun d pair => d.withFunction (.rename pair.1) [pair.2]) d).withSpellings pairs

def withType (d : Dialect) (rule : TypeRule) (names : List String) : Dialect :=
  { d with types := d.types.insertEach rule (names.map Text.upper) }

def withTypeNames (d : Dialect) (pairs : List (String × String)) : Dialect :=
  { d with typeNames := d.typeNames.insertAll pairs }

def withoutTypes (d : Dialect) (names : List String) : Dialect :=
  { d with
    typeNames := names.foldl Dictionary.erase d.typeNames
    unsupportedTypes := d.unsupportedTypes ++ names }

def withReserved (d : Dialect) (words : List String) : Dialect :=
  { d with reserved := d.reserved ++ words }

def withKeywords (d : Dialect) (words : List String) : Dialect :=
  { d with keywords := d.keywords ++ words }

def withInfix (d : Dialect) (pairs : List (String × InfixOp)) : Dialect :=
  { d with infixOps := d.infixOps.insertAll pairs }

def withNiladic (d : Dialect) (pairs : List (String × String)) : Dialect :=
  { d with niladic := d.niladic.insertAll pairs }

end Dialect

end SqlDialects
