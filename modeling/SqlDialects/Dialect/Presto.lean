import SqlDialects.Dialect.Ansi
import SqlDialects.Dialect.Hive
import SqlDialects.Text.Blank

/-! Presto and Trino, which share their functions. -/

namespace SqlDialects.Presto

/-- A missing replacement removes every match. -/
def replaceEmpty : Reshape := fun f =>
  match f.args with
  | s :: old :: rest => .ok (f.become "REPLACE_EMPTY" [s, old, rest.head?.getD (.str "")])
  | _ => f.arityError "2 arguments"

/-- The cast to one character that the native function needs is dropped. -/
def codepoint : Reshape := fun f =>
  match f.args with
  | .cast pos x type tolerant :: _ =>
    .ok (f.become "ASCII" [if type.is "VARCHAR" then x else .cast pos x type tolerant])
  | x :: _ => .ok (f.become "ASCII" [x])
  | [] => f.arityError "1 argument"

def dropMode (mode : String) (path : List Char) : List Char :=
  let shown := path.take mode.length
  if shown.length < path.length && Text.equalAscii (String.ofList shown) mode then
    Text.trimBoth Text.isBlank (path.drop mode.length)
  else path

/-- `json_value(j, 'lax $.path')` without the mode of the path. -/
def jsonValue : Reshape := fun f =>
  match f.args with
  | j :: .literal pos .string value :: _ =>
    let path := dropMode "strict " (dropMode "lax " (Text.trimBoth Text.isBlank value.toList))
    .ok (f.become "JSON_EXTRACT_STRING" [j, .literal pos .string (String.ofList path)])
  | j :: path :: _ => .ok (f.become "JSON_EXTRACT_STRING" [j, path])
  | _ => f.arityError "2 arguments"

def stringified : Expr → Expr
  | .literal pos .number value => .literal pos .string (Text.lower value)
  | .literal pos .boolean value => .literal pos .string (Text.lower value)
  | e => e

/-- Java's letters, unless the pattern is a model of Oracle. -/
def dateFormat (name : String) : Reshape := fun f =>
  match f.args.drop 1 |>.head? with
  | some (.literal _ .string value) =>
    Reshape.formatArg name 1 (if DatePattern.isOracleModel value then .oracle else .java) f
  | _ => Reshape.formatArg name 1 .java f

def week : Reshape := fun f =>
  match f.args with
  | [x] => .ok (f.become "WEEK" [x, .num "3"])
  | _ => .ok (f.become "WEEK" f.args)

def jsonArrayContains : Reshape := fun f =>
  match f.args with
  | j :: value :: _ => .ok (f.become "JSON_CONTAINS" [j, stringified value])
  | _ => f.arityError "2 arguments"

def jsonArrayGet : Reshape := fun f =>
  match f.args with
  | j :: .literal pos .number value :: _ =>
    .ok (f.become "JSON_EXTRACT_STRING" [j, .literal pos .string ("$[" ++ value ++ "]")])
  | _ => .ok (f.become "JSON_EXTRACT_STRING" f.args)

def jsonExtractCast (name : String) : Rule where
  name := name ++ ":json-extract-cast"
  phase := .inbound
  pattern := { kind := "Cast", name := "VARCHAR", source := name }
  transform := some fun _ n =>
    match n with
    | .expr (.cast pos (.call f) type tolerant) =>
      if f.name = "JSON_EXTRACT" then
        .ok (some (.expr (.cast pos (.call { f with name := "JSON_EXTRACT_STRING" }) type tolerant)))
      else .ok none
    | _ => .ok none

/-- Regular expressions match through a function. -/
def regexpLike (name : String) : Rule where
  name := name ++ ":regexp-like"
  pattern := { kind := "BinaryOp", name := "REGEXP", target := name }
  transform := some fun _ n =>
    match n with
    | .expr (.binary pos _ left right) =>
      .ok (some (.expr (.call { pos, name := "REGEXP_LIKE", args := [left, right] })))
    | _ => .ok none

def dialect (name : String) (aliases : List String) : Dialect :=
  let d :=
    { Ansi.dialect name with
      aliases
      identQuotes := ['\x22', '\x60']
      operators := ["->"]
      lambdas := true
      formats := .java
      typeParams := ["DATETIME"]
      hints := { arrays := .keyword, maps := .arrays, parenTypes := true, tryCast := true } }
    |>.withType (.plain "STRING") ["IPADDRESS", "IPPREFIX"]
    |>.withType (.plain "HLL") ["HYPERLOGLOG", "P4HYPERLOGLOG"]
    |>.withTypeNames [
      ("DATETIME", "TIMESTAMP"), ("STRING", "VARCHAR"), ("BINARY", "VARBINARY"),
      ("FLOAT", "REAL"), ("LARGEINT", "DECIMAL"), ("JSONB", "JSON"), ("STRUCT", "ROW"),
      ("HLL", "HyperLogLog"), ("IPV4", "IPADDRESS"), ("IPV6", "IPADDRESS")]
    |>.withoutTypes ["BITMAP"]
    |>.withPairs [
      ("DAYOFWEEK_ISO", "day_of_week"), ("DAYOFYEAR", "day_of_year"),
      ("DAYOFMONTH", "day_of_month"), ("STR_TO_DATE", "date_parse"),
      ("DATE_FORMAT", "date_format"), ("ARRAY_SIZE", "cardinality"),
      ("ARRAY_CONTAINS", "contains"), ("ARRAY_REPEAT", "repeat"), ("ARRAY_SHUFFLE", "shuffle"),
      ("ARRAY_SLICE", "slice"), ("ARRAY_ZIP", "zip"), ("ARRAY_JOIN", "array_join"),
      ("ANY_VALUE", "arbitrary"), ("PERCENTILE_APPROX", "approx_percentile"),
      ("APPROX_COUNT_DISTINCT", "approx_distinct"), ("LAST_DAY", "last_day_of_month"),
      ("GROUP_BIT_AND", "bitwise_and_agg"), ("GROUP_BIT_OR", "bitwise_or_agg"),
      ("BITAND", "bitwise_and"), ("BITOR", "bitwise_or"), ("BITXOR", "bitwise_xor"),
      ("BITNOT", "bitwise_not"), ("BIT_SHIFT_LEFT", "bitwise_left_shift"),
      ("BIT_SHIFT_RIGHT", "bitwise_right_shift"), ("UNIX_TIMESTAMP", "to_unixtime"),
      ("JSON_EXTRACT_STRING", "json_extract_scalar"), ("JSON_LENGTH", "json_array_length"),
      ("JSON_CONTAINS", "json_array_contains"), ("REPLACE_EMPTY", "replace"),
      ("EXTRACT_URL_PARAMETER", "url_extract_parameter"), ("COLLECT_LIST", "array_agg"),
      ("MAP_KEYS", "map_keys"), ("MAP_VALUES", "map_values"),
      ("ARRAY_DISTINCT", "array_distinct"), ("STDDEV_POP", "stddev_pop"),
      ("VARIANCE_POP", "var_pop"), ("ASCII", "codepoint"), ("TO_BASE64", "to_base64"),
      ("FROM_BASE64", "from_base64"), ("LEVENSHTEIN", "levenshtein_distance")]
    |>.withRenames [
      ("dow", "DAYOFWEEK_ISO"), ("doy", "DAYOFYEAR"), ("json_size", "JSON_LENGTH"),
      ("json_parse", "JSON_PARSE"), ("json_format", "JSON_FORMAT"), ("strpos_utf8", "LOCATE"),
      ("bitwise_xor_agg", "GROUP_BIT_XOR"), ("split_part", "SPLIT_PART"),
      ("to_iso8601", "TO_ISO8601"), ("chr", "CHAR"), ("is_nan", "IS_NAN"), ("typeof", "TYPEOF"),
      ("array_max", "ARRAY_MAX"), ("array_min", "ARRAY_MIN"), ("array_sort", "ARRAY_SORT"),
      ("array_position", "ARRAY_POSITION"), ("array_remove", "ARRAY_REMOVE"),
      ("array_union", "ARRAY_UNION"), ("array_intersect", "ARRAY_INTERSECT"),
      ("array_except", "ARRAY_EXCEPT"), ("arrays_overlap", "ARRAYS_OVERLAP"),
      ("max_by", "MAX_BY"), ("min_by", "MIN_BY"), ("from_unixtime", "FROM_UNIXTIME"),
      ("json_object_keys", "JSON_KEYS")]
    |>.withShape 2 (dateFormat "STR_TO_DATE") ["parse_datetime"]
    |>.withShape 2 (dateFormat "DATE_FORMAT") ["format_datetime"]
    |>.withShape 2 (Reshape.formatArg "DATE_FORMAT" 1 .oracle) ["to_char", "to_date"]
    |>.withShape 3 Reshape.unitDiff ["date_diff"]
    |>.withShape 3 (Reshape.unitInterval "DATE_ADD") ["date_add"]
    |>.withShape 2 Reshape.truncUnit ["date_trunc"]
    |>.withShape 1 week ["week", "week_of_year"]
    |>.withShape 1 (Reshape.castTo (.named "DATETIME")) ["from_iso8601_timestamp"]
    |>.withShape 1 (Reshape.castTo (.named "DATE")) ["from_iso8601_date"]
    |>.withShape 2 replaceEmpty ["replace"]
    |>.withShape 2 (Reshape.swapped "LOCATE") ["strpos", "index"]
    |>.withShape 1 codepoint ["codepoint"]
    |>.withShape 2 Reshape.regexpExtract ["regexp_extract"]
    |>.withShape 2 Reshape.regexpExtractAll ["regexp_extract_all"]
    |>.withShape 2 (Reshape.operator "REGEXP") ["regexp_like"]
    |>.withShape 1 (Reshape.withArgs "SHA2" [.num "256"]) ["sha256"]
    |>.withShape 1 (Reshape.withArgs "SHA2" [.num "512"]) ["sha512"]
    |>.withShape 1 (Reshape.firstArgs "BIT_COUNT" 1) ["bit_count"]
  let d := ["host", "path", "protocol", "port", "query", "fragment"].foldl (fun d part =>
    d.withShape 1 (Reshape.withArgs "PARSE_URL" [.str (Text.upper part)]) ["url_extract_" ++ part]) d
  d |>.withShape 0 Reshape.mapOfArrays ["map"]
    |>.withShape 2 (Reshape.swapped "ARRAY_MAP") ["transform"]
    |>.withShape 2 (Reshape.swapped "ARRAY_FILTER") ["filter"]
    |>.withShape 2 (Reshape.swapped "ARRAY_EXISTS") ["any_match"]
    |>.withShape 2 Reshape.sequence ["sequence"]
    |>.withShape 2 Reshape.elementAt ["element_at"]
    |>.withShape 2 jsonArrayContains ["json_array_contains"]
    |>.withShape 2 jsonArrayGet ["json_array_get"]
    |>.withShape 2 jsonValue ["json_value", "json_extract_scalar"]
    |>.withShape 1 (Reshape.ifAggregate "COUNT") ["count_if"]
    |>.withShape 1 (Reshape.quantile "PERCENTILE_APPROX") ["approx_percentile"]
    |>.withSpellings [("STRUCT", "ROW")]

def profileOf (name : String) (aliases : List String) : Profile where
  dialect := dialect name aliases
  inbound := [jsonExtractCast name]
  outbound :=
    Rule.unitCalls name "DATE_DIFF" "DATE_ADD" .string ++ Rule.intervalCalls name "DATE_ADD" ++ [
      .native name "ARRAY_MAP" "TRANSFORM" [1, 0],
      .native name "ARRAY_FILTER" "FILTER" [1, 0],
      .native name "ARRAY_EXISTS" "ANY_MATCH" [1, 0],
      .native name "LOCATE" "STRPOS" [1, 0],
      .onCall name "ARRAY_RANGE" Spark.sequenceCall,
      regexpLike name]

def profile : Profile := profileOf "presto" ["athena"]

def trino : Profile := profileOf "trino" []

end SqlDialects.Presto
