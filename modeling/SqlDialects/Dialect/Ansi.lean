import SqlDialects.Dialect

/-! The common ground that every dialect starts from. -/

namespace SqlDialects

namespace TypeRule

def keep (name : String) : TypeRule := fun n =>
  .ok { pos := n.pos, name, params := n.intParams, elems := n.args, fields := n.fields }

/-- Drops any parameters, such as display widths. -/
def plain (name : String) : TypeRule := fun n => .ok { pos := n.pos, name }

def varchar : TypeRule := fun n =>
  .ok { pos := n.pos, name := "VARCHAR", params := n.intParams.take 1 }

def fault (n : NativeType) (expected found : String) : Except Error TypeSpec :=
  .error (.parse { pos := n.pos, expected, found })

def array : TypeRule := fun n =>
  if n.args.length = 1 then .ok { pos := n.pos, name := "ARRAY", elems := n.args }
  else fault n "one array element type" s!"{n.args.length} types"

def map : TypeRule := fun n =>
  if n.args.length = 2 then .ok { pos := n.pos, name := "MAP", elems := n.args }
  else fault n "map key and value types" s!"{n.args.length} types"

/-- Named fields, then positional ones, which are called `col_1`, `col_2`, and so on. -/
def struct : TypeRule := fun n =>
  let positional := n.args.zipIdx.map fun (type, i) => (⟨s!"col_{i + 1}", type⟩ : TypeField)
  let fields := n.fields ++ positional
  if fields.isEmpty then fault n "struct fields" "none"
  else .ok { pos := n.pos, name := "STRUCT", fields }

end TypeRule

namespace Ansi

def reserved : List String :=
  ["ALL", "AND", "ANY", "AS", "ASC", "BETWEEN", "BY", "CASE", "CAST", "CREATE",
   "CROSS", "DELETE", "DESC", "DISTINCT", "DROP", "ELSE", "END", "EXCEPT",
   "EXISTS", "FALSE", "FETCH", "FOR", "FROM", "FULL", "GROUP", "HAVING", "IN",
   "INNER", "INSERT", "INTERSECT", "INTERVAL", "INTO", "IS", "JOIN", "LEFT",
   "LIKE", "LIMIT", "NOT", "NULL", "ON", "OR", "ORDER", "OUTER", "OVER",
   "PARTITION", "RIGHT", "SELECT", "SET", "TABLE", "THEN", "TO", "TRUE",
   "UNION", "UPDATE", "USING", "VALUES", "WHEN", "WHERE", "WITH"]

/-- Words with a meaning of their own that may still serve as names. -/
def keywords : List String :=
  ["ARRAY", "BOTH", "BUCKETS", "CLUSTERED", "COMMENT", "CURRENT", "DEFAULT",
   "DISTRIBUTED", "EXPLAIN", "EXTRACT", "FILTER", "FIRST", "FOLLOWING", "IF",
   "KEY", "LAST", "LATERAL", "LEADING", "MAP", "NULLS", "OFFSET", "PARTITIONED",
   "PRECEDING", "PRIMARY", "PROPERTIES", "RANGE", "REPLACE", "ROW", "ROWS",
   "STRUCT", "TEMPORARY", "TRAILING", "UNBOUNDED", "UNIQUE", "VIEW", "WITHIN"]

def operator (prec : Nat) (op : String) : InfixOp := { prec, op }

def function (prec : Nat) (name : String) : InfixOp := { prec, function := name }

def infixOps : List (String × InfixOp) := [
  ("OR", operator Prec.disjunction "OR"),
  ("AND", operator Prec.conjunction "AND"),
  ("=", operator Prec.comparison "="),
  ("<>", operator Prec.comparison "<>"),
  ("!=", operator Prec.comparison "<>"),
  ("<", operator Prec.comparison "<"),
  ("<=", operator Prec.comparison "<="),
  (">", operator Prec.comparison ">"),
  (">=", operator Prec.comparison ">="),
  ("LIKE", operator Prec.comparison "LIKE"),
  ("ILIKE", operator Prec.comparison "ILIKE"),
  ("RLIKE", operator Prec.comparison "REGEXP"),
  ("REGEXP", operator Prec.comparison "REGEXP"),
  ("|", function Prec.bitOr "BITOR"),
  ("^", function Prec.bitXor "BITXOR"),
  ("&", function Prec.bitAnd "BITAND"),
  ("<<", function Prec.shift "BIT_SHIFT_LEFT"),
  (">>", function Prec.shift "BIT_SHIFT_RIGHT"),
  ("+", operator Prec.sum "+"),
  ("-", operator Prec.sum "-"),
  ("||", function Prec.sum "CONCAT"),
  ("*", operator Prec.product "*"),
  ("/", operator Prec.product "/"),
  ("%", operator Prec.product "%")]

def types : List (String × TypeRule) := [
  ("TINYINT", .plain "TINYINT"),
  ("SMALLINT", .plain "SMALLINT"),
  ("INT", .plain "INT"),
  ("INTEGER", .plain "INT"),
  ("BIGINT", .plain "BIGINT"),
  ("LARGEINT", .plain "LARGEINT"),
  ("DECIMAL", .keep "DECIMAL"),
  ("NUMERIC", .keep "DECIMAL"),
  ("DEC", .keep "DECIMAL"),
  ("FLOAT", .plain "FLOAT"),
  ("REAL", .plain "FLOAT"),
  ("DOUBLE", .plain "DOUBLE"),
  ("DOUBLE PRECISION", .plain "DOUBLE"),
  ("STRING", .plain "STRING"),
  ("TEXT", .plain "STRING"),
  ("VARCHAR", .varchar),
  ("CHARACTER VARYING", .varchar),
  ("CHAR VARYING", .varchar),
  ("CHAR", .keep "CHAR"),
  ("CHARACTER", .keep "CHAR"),
  ("BINARY", .plain "BINARY"),
  ("VARBINARY", .plain "BINARY"),
  ("BLOB", .plain "BINARY"),
  ("DATE", .plain "DATE"),
  ("DATETIME", .keep "DATETIME"),
  ("TIMESTAMP", .keep "DATETIME"),
  ("TIMESTAMP WITH TIME ZONE", .keep "DATETIME"),
  ("TIMESTAMP WITHOUT TIME ZONE", .keep "DATETIME"),
  ("TIME", .plain "TIME"),
  ("TIME WITH TIME ZONE", .plain "TIME"),
  ("TIME WITHOUT TIME ZONE", .plain "TIME"),
  ("INTERVAL", .plain "INTERVAL"),
  ("BOOLEAN", .plain "BOOLEAN"),
  ("BOOL", .plain "BOOLEAN"),
  ("ARRAY", .array),
  ("MAP", .map),
  ("STRUCT", .struct),
  ("ROW", .struct),
  ("JSON", .plain "JSON"),
  ("JSONB", .plain "JSONB"),
  ("BITMAP", .plain "BITMAP"),
  ("HLL", .plain "HLL"),
  ("IPV4", .plain "IPV4"),
  ("IPV6", .plain "IPV6"),
  ("UUID", .plain "UUID"),
  ("GEOMETRY", .plain "GEOMETRY")]

def niladic : List (String × String) := [
  ("CURRENT_DATE", "CURRENT_DATE"), ("CURRENT_TIMESTAMP", "NOW"),
  ("CURRENT_TIME", "CURRENT_TIME"), ("LOCALTIMESTAMP", "NOW"), ("CURRENT_USER", "CURRENT_USER")]

def renames : List (String × String) := [
  ("substr", "SUBSTRING"), ("substring", "SUBSTRING"), ("ceiling", "CEIL"), ("lcase", "LOWER"),
  ("ucase", "UPPER"), ("pow", "POWER"), ("character_length", "CHAR_LENGTH"),
  ("char_length", "CHAR_LENGTH"), ("current_timestamp", "NOW"), ("localtimestamp", "NOW"),
  ("now", "NOW"), ("nvl", "IFNULL"), ("stddev_samp", "STDDEV_SAMP"), ("var_samp", "VAR_SAMP"),
  ("variance", "VARIANCE"), ("approx_distinct", "APPROX_COUNT_DISTINCT"), ("day", "DAYOFMONTH"),
  ("dayofmonth", "DAYOFMONTH"), ("dayofyear", "DAYOFYEAR")]

def dialect (name : String) : Dialect :=
  ({ name
     reserved
     keywords := reserved ++ keywords
     infixOps := .ofList infixOps
     niladic := .ofList niladic
     types := .ofList types
     typeNames := .ofList (TypeSpec.vocabulary.map fun type => (type, type)) } : Dialect)
  |>.withRenames renames
  |>.withShape 0 Reshape.arrayOf ["array"]
  |>.withShape 0 Reshape.mapOf ["map"]
  |>.withShape 0 Reshape.structOf ["struct", "row"]
  |>.withShape 2 Reshape.namedStruct ["named_struct"]
  |>.withShape 2 Reshape.truncUnit ["date_trunc"]

end Ansi

end SqlDialects
