import SqlDialects.Dialect.ClickHouse
import SqlDialects.Dialect.Doris
import SqlDialects.Dialect.Hive
import SqlDialects.Dialect.MySql
import SqlDialects.Dialect.Oracle
import SqlDialects.Dialect.Postgres
import SqlDialects.Dialect.Presto
import SqlDialects.Dialect.Snowflake
import SqlDialects.Dialect.Teradata
import SqlDialects.Rule.Set

/-! The dialects that can be named, each with its rules in order. A profile is checked before it
enters the registry. -/

namespace SqlDialects

namespace Profile

def unmappableRules (d : Dialect) : List Rule :=
  (d.functions.current.filter (·.2.unmappable)).map fun (native, _) => .unmappable d.name native

def rules (p : Profile) : List Rule := p.inbound ++ p.outbound ++ unmappableRules p.dialect

/-- A mark that quotes both names and strings. -/
def sharedQuote? (d : Dialect) : Option Char :=
  d.identQuotes.find? d.stringQuotes.contains

def unspelledType? (d : Dialect) : Option String :=
  TypeSpec.vocabulary.find? fun name =>
    !d.typeNames.contains name && !d.unsupportedTypes.contains name

def functionFault? (d : Dialect) : Option DialectFault :=
  d.functions.current.findSome? fun (native, rule) =>
    if rule.name = "" && rule.reshape.isNone && !rule.unmappable then
      some (.emptyFunction d.name native)
    else if rule.name ≠ Text.upper rule.name then some (.functionNotUpper d.name rule.name)
    else none

def infixFault? (d : Dialect) : Option DialectFault :=
  if d.infixOps.current.any fun (_, op) => (op.op == "") == (op.function == "") then
    some (.infixMeaning d.name)
  else none

def spellingFault? (d : Dialect) : Option DialectFault :=
  d.spellings.current.findSome? fun (canonical, native) =>
    if native = "" || canonical ≠ Text.upper canonical then
      some (.badRendering d.name native canonical)
    else none

/-- What is wrong with the description of a dialect, its rules aside. -/
def fault? (d : Dialect) : Option DialectFault :=
  if d.name = "" then some .unnamed
  else if d.identQuotes.isEmpty || d.stringQuotes.isEmpty then some (.missingQuotes d.name)
  else (sharedQuote? d).map (.sharedQuote d.name)
    |>.orElse (fun _ => (unspelledType? d).map (.typeWithoutName d.name))
    |>.orElse (fun _ => functionFault? d)
    |>.orElse (fun _ => infixFault? d)
    |>.orElse (fun _ => spellingFault? d)

end Profile

/-- A profile with its rules in order. -/
structure Entry where
  profile : Profile
  rules : RuleSet

namespace Entry

def dialect (e : Entry) : Dialect := e.profile.dialect

def name (e : Entry) : String := e.dialect.name

def ofProfile (p : Profile) : Entry := ⟨p, .arrange p.rules⟩

def check (p : Profile) : Except DialectFault Entry :=
  match Profile.fault? p.dialect with
  | some fault => .error fault
  | none =>
    match RuleSet.ofList p.rules with
    | .ok rules => .ok ⟨p, rules⟩
    | .error fault => .error (.rules p.dialect.name fault)

def answersTo (e : Entry) (key : String) : Bool :=
  e.name == key || e.dialect.aliases.any fun other => Text.lower other == key

end Entry

structure Registry where
  entries : List Entry := []

namespace Registry

/-- Adds a profile after checking it. -/
def register (r : Registry) (p : Profile) : Except Error Registry :=
  match Entry.check p with
  | .ok entry => .ok ⟨entry :: r.entries⟩
  | .error fault => .error (.dialect fault)

def find? (r : Registry) (name : String) : Option Entry :=
  r.entries.find? (·.answersTo (Text.lower (Text.trim name)))

def lookup (r : Registry) (name : String) : Except Error Entry :=
  match r.find? name with
  | some entry => .ok entry
  | none => .error (.unknownDialect name)

def names (r : Registry) : List String := (r.entries.map Entry.name).mergeSort

def sorted (r : Registry) : List Entry := r.entries.mergeSort fun a b => a.name ≤ b.name

/-- The dialects of this library. -/
def standard : Registry where
  entries := [ClickHouse.profile, Doris.profile, Hive.profile, MySql.profile, Oracle.profile,
    Postgres.profile, Presto.profile, Snowflake.profile, Spark.profile, Teradata.profile,
    Presto.trino].map Entry.ofProfile

end Registry

end SqlDialects
