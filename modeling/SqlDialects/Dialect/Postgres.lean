import SqlDialects.Dialect.Ansi
import SqlDialects.Function.Shared
import SqlDialects.Profile

/-! PostgreSQL, with the spellings of its relatives. -/

namespace SqlDialects.Postgres

def datePart : Reshape := fun f =>
  match f.args with
  | unit :: x :: _ =>
    match DateUnit.ofExpr? unit, unit with
    | some unit, _ => .ok (.extract f.pos unit x)
    | none, .literal _ .string value => .ok (.extract f.pos (Text.upper value) x)
    | none, e => Call.argumentError e.pos "date part" e.kind
  | _ => f.arityError "2 arguments"

def jsonExtractPath (name : String) : Reshape := fun f =>
  match f.args with
  | j :: first :: rest =>
    match Reshape.jsonSteps (first :: rest) with
    | some steps => .ok (f.become name [j, .literal first.pos .string ("$" ++ steps)])
    | none => .ok (f.become name f.args)
  | _ => f.arityError "2 arguments"

/-- Seconds since the epoch, or a reader of dates by a pattern. -/
def toTimestamp : Reshape := fun f =>
  match f.args with
  | [x] => .ok (f.become "FROM_UNIXTIME" [x])
  | _ => Reshape.formatArg "STR_TO_DATE" 1 .postgres f

/-- One argument means base ten. -/
def log : Reshape := fun f =>
  match f.args with
  | [x] => .ok (f.become "LOG10" [x])
  | _ => .ok (f.become "LOG" f.args)

/-- The key that an arrow takes for a path of one step: `'$.a'` gives `'a'` and `'$[0]'` gives
`0`. -/
def jsonKey? : Expr → Option Expr
  | .literal pos .string value =>
    match value.toList with
    | '$' :: '.' :: key =>
      if key.isEmpty || key.any ['.', '[', '\x22', '\x27', '*', ' '].contains then none
      else some (.literal pos .string (String.ofList key))
    | '$' :: '[' :: rest =>
      if rest.getLast? = some ']' && isIndex rest.dropLast then
        some (.literal pos .number (String.ofList rest.dropLast))
      else none
    | _ => none
  | _ => none

/-- Writes the reading of a JSON key as an arrow. -/
def arrow (canonical op : String) : Rule where
  name := "postgres:arrow:" ++ Text.lower canonical
  pattern := Rule.callPattern "postgres" canonical
  transform := some fun _ n =>
    match n with
    | .expr (.call f) =>
      match f.args with
      | [x, path] => .ok ((jsonKey? path).map fun key => .expr (.binary f.pos op x key))
      | _ => .ok none
    | _ => .ok none

def regexp : Rule where
  name := "postgres:regexp"
  pattern := { kind := "BinaryOp", name := "REGEXP", target := "postgres" }
  transform := some fun _ n =>
    match n with
    | .expr (.binary pos _ left right) => .ok (some (.expr (.binary pos "~" left right)))
    | _ => .ok none

def profile : Profile where
  dialect :=
    { Ansi.dialect "postgres" with
      aliases := ["postgresql", "pg", "redshift"]
      operators := ["::", "->>", "->", "#>>", "#>", "@>", "&&", "~~*", "~~", "<<", ">>"]
      formats := .postgres
      leadingKeyHash := true
      typeParams := ["DATETIME"]
      hints := { arrays := .keyword, arraySuffix := true } }
    |>.withInfix [
      ("->", { prec := Prec.access, function := "JSON_EXTRACT", jsonPath := true }),
      ("->>", { prec := Prec.access, function := "JSON_EXTRACT_STRING", jsonPath := true }),
      ("#>", { prec := Prec.access, function := "JSON_EXTRACT", jsonPath := true }),
      ("#>>", { prec := Prec.access, function := "JSON_EXTRACT_STRING", jsonPath := true }),
      ("@>", Ansi.function Prec.comparison "ARRAY_CONTAINS_ALL"),
      ("&&", Ansi.function Prec.comparison "ARRAYS_OVERLAP"),
      ("~", Ansi.operator Prec.comparison "REGEXP"),
      ("~~", Ansi.operator Prec.comparison "LIKE"),
      ("~~*", Ansi.operator Prec.comparison "ILIKE"),
      ("#", Ansi.function Prec.bitXor "BITXOR"),
      ("^", Ansi.function Prec.product "POWER")]
    |>.withReserved ["USER", "ANALYSE", "ANALYZE", "OFFSET", "LIMIT"]
    |>.withType (.plain "SMALLINT") ["INT2", "SMALLSERIAL", "SERIAL2"]
    |>.withType (.plain "INT") ["INT4", "SERIAL", "SERIAL4"]
    |>.withType (.plain "BIGINT") ["INT8", "BIGSERIAL", "SERIAL8"]
    |>.withType (.plain "FLOAT") ["FLOAT4"]
    |>.withType (.plain "DOUBLE") ["FLOAT8"]
    |>.withType (.keep "DECIMAL") ["FIXEDDECIMAL"]
    |>.withType (.keep "DATETIME") ["TIMESTAMPTZ"]
    |>.withType (.plain "TIME") ["TIMETZ"]
    |>.withType (.plain "BINARY") ["BYTEA"]
    |>.withType (.plain "BOOLEAN") ["BOOL"]
    |>.withType (.keep "CHAR") ["BPCHAR"]
    |>.withType (.plain "STRING")
      ["MONEY", "CIDR", "INET", "MACADDR", "MACADDR8", "BIT", "VARBIT", "BIT VARYING",
       "TSVECTOR", "TSQUERY", "XML", "NAME", "CITEXT"]
    |>.withType (.plain "GEOMETRY")
      ["POINT", "LINE", "LSEG", "BOX", "PATH", "POLYGON", "CIRCLE"]
    |>.withTypeNames [
      ("TINYINT", "SMALLINT"), ("LARGEINT", "NUMERIC"), ("DOUBLE", "DOUBLE PRECISION"),
      ("FLOAT", "REAL"), ("STRING", "TEXT"), ("BINARY", "BYTEA"), ("DATETIME", "TIMESTAMP"),
      ("IPV4", "INET"), ("IPV6", "INET")]
    |>.withoutTypes ["MAP", "STRUCT", "BITMAP", "HLL"]
    |>.withPairs [
      ("ARRAY_JOIN", "array_to_string"), ("ARRAY_PUSHBACK", "array_append"),
      ("ARRAY_CONCAT", "array_cat"), ("GROUP_BIT_AND", "bit_and"), ("GROUP_BIT_OR", "bit_or"),
      ("GROUP_BIT_XOR", "bit_xor"), ("GROUP_CONCAT", "string_agg"),
      ("COLLECT_LIST", "array_agg"), ("TRUNCATE", "trunc"), ("JSON_ARRAY", "json_build_array"),
      ("JSON_OBJECT", "json_build_object"), ("SPLIT_BY_STRING", "string_to_array"),
      ("RAND", "random"), ("UUID", "gen_random_uuid"), ("CHAR", "chr"),
      ("STDDEV_POP", "stddev_pop"), ("VARIANCE_POP", "var_pop")]
    |>.withRenames [
      ("json_agg", "COLLECT_LIST"), ("jsonb_agg", "COLLECT_LIST"),
      ("jsonb_build_array", "JSON_ARRAY"), ("jsonb_build_object", "JSON_OBJECT"),
      ("octet_length", "LENGTH"), ("array_upper", "ARRAY_SIZE"), ("initcap", "INITCAP"),
      ("split_part", "SPLIT_PART"), ("md5", "MD5"), ("uuid_generate_v4", "UUID"),
      ("stddev", "STDDEV_SAMP"), ("bool_and", "BOOLAND_AGG"), ("bool_or", "BOOLOR_AGG"),
      ("every", "BOOLAND_AGG"), ("jsonb_typeof", "JSON_TYPE"), ("json_typeof", "JSON_TYPE"),
      ("json_array_length", "JSON_LENGTH"), ("jsonb_array_length", "JSON_LENGTH")]
    |>.withShape 1 (Reshape.toChar .postgres) ["to_char"]
    |>.withShape 1 (Reshape.toDate .postgres) ["to_date"]
    |>.withShape 1 toTimestamp ["to_timestamp"]
    |>.withShape 2 datePart ["date_part"]
    |>.withShape 2 (Reshape.swapped "LOCATE") ["strpos"]
    |>.withShape 2 (Reshape.swapped "ARRAY_PUSHFRONT") ["array_prepend"]
    |>.withShape 1 (Reshape.firstArgs "ARRAY_SIZE" 1) ["array_length", "cardinality"]
    |>.withShape 2 (fun f => .ok (f.become "REGEXP_EXTRACT" (f.args.take 2 ++ [Expr.num "0"])))
      ["regexp_match"]
    |>.withShape 2 Reshape.regexpExtractAll ["regexp_matches"]
    |>.withShape 1 (fun f => .ok (f.become "LOWER" [f.become "HEX" (f.args.take 1)])) ["to_hex"]
    |>.withShape 1 log ["log"]
    |>.withShape 2 (jsonExtractPath "JSONB_EXTRACT") ["json_extract_path", "jsonb_extract_path"]
    |>.withShape 2 (jsonExtractPath "JSON_EXTRACT_STRING")
      ["json_extract_path_text", "jsonb_extract_path_text"]
    |>.withShape 2 (Reshape.operator "DIV") ["div"]
  outbound := [
    arrow "JSON_EXTRACT" "->",
    arrow "JSON_EXTRACT_STRING" "->>",
    regexp,
    .format "postgres" "DATE_FORMAT" "TO_CHAR" 1 .postgres,
    .format "postgres" "STR_TO_DATE" "TO_TIMESTAMP" 1 .postgres,
    .native "postgres" "LOCATE" "STRPOS" [1, 0],
    .native "postgres" "ARRAY_PUSHFRONT" "ARRAY_PREPEND" [1, 0]]

end SqlDialects.Postgres
