import SqlDialects.Dialect.Oracle
import SqlDialects.Dialect.Presto

/-! Snowflake. -/

namespace SqlDialects.Snowflake

/-- The numeric arguments, which must be integers of 64 bits; others are ignored. -/
def precisions : List Expr → Except Error (List Int)
  | [] => .ok []
  | .literal pos .number value :: rest =>
    match Decimal.readInt? value.toList with
    | some n =>
      if Decimal.fits 64 n then do return n :: (← precisions rest)
      else Call.argumentError pos "integer precision" value
    | none => Call.argumentError pos "integer precision" value
  | _ :: rest => precisions rest

/-- `TO_NUMBER(x[, precision[, scale]])` as a cast. -/
def toNumber : Reshape := fun f =>
  match f.args with
  | x :: rest => do
    let params ← precisions rest
    let params := if params.isEmpty then [38, 0] else params
    return .cast f.pos x (.named "DECIMAL" params) false
  | [] => f.arityError "1 argument"

/-- A division that yields zero when the divisor is zero. The divisor stands in two places. -/
def div0 : Reshape := fun f =>
  match f.args with
  | x :: y :: _ =>
    .ok (f.become "IF" [.binary f.pos "=" (y.inPlace .first) (.num "0"), .num "0",
      .binary {} "/" x (y.inPlace .second)])
  | _ => f.arityError "2 arguments"

def profile : Profile where
  dialect :=
    { Ansi.dialect "snowflake" with
      formats := .oracle
      typeParams := ["DECIMAL", "DATETIME"]
      hints := { arrays := .bracket, maps := .braces } }
    |>.withReserved ["QUALIFY", "SAMPLE", "TABLESAMPLE", "ILIKE", "REGEXP", "RLIKE"]
    |>.withType Oracle.number ["NUMBER"]
    |>.withType (.plain "TINYINT") ["BYTEINT"]
    |>.withType (.plain "DOUBLE") ["FLOAT4", "FLOAT8", "DOUBLE", "REAL"]
    |>.withType (.keep "DATETIME")
      ["TIMESTAMP_NTZ", "TIMESTAMP_LTZ", "TIMESTAMP_TZ", "TIMESTAMPNTZ", "TIMESTAMPLTZ"]
    |>.withType (.plain "JSON") ["VARIANT", "OBJECT", "ARRAY"]
    |>.withType (.plain "GEOMETRY") ["GEOGRAPHY", "GEOMETRY"]
    |>.withTypeNames [
      ("TINYINT", "BYTEINT"), ("LARGEINT", "NUMBER"), ("DECIMAL", "NUMBER"),
      ("FLOAT", "FLOAT"), ("DOUBLE", "DOUBLE"), ("STRING", "VARCHAR"),
      ("DATETIME", "TIMESTAMP_NTZ"), ("JSON", "VARIANT"), ("JSONB", "VARIANT"),
      ("IPV4", "VARCHAR"), ("IPV6", "VARCHAR"), ("UUID", "VARCHAR"), ("INTERVAL", "VARCHAR"),
      ("GEOMETRY", "GEOMETRY")]
    |>.withoutTypes ["ARRAY", "MAP", "STRUCT", "BITMAP", "HLL"]
    |>.withPairs [
      ("GROUP_BIT_AND", "bitand_agg"), ("GROUP_BIT_OR", "bitor_agg"),
      ("GROUP_BIT_XOR", "bitxor_agg"), ("JSON_PARSE", "parse_json"),
      ("GROUP_CONCAT", "listagg"), ("COLLECT_LIST", "array_agg"), ("LOCATE", "charindex"),
      ("STARTS_WITH", "startswith"), ("ENDS_WITH", "endswith"), ("TO_BASE64", "base64_encode"),
      ("FROM_BASE64", "base64_decode_string"), ("DAYOFWEEK_ISO", "dayofweekiso"),
      ("UUID", "uuid_string"), ("APPROX_COUNT_DISTINCT", "approx_count_distinct"),
      ("MONTHS_ADD", "add_months"), ("ARRAY_SIZE", "array_size"),
      ("ARRAY_DISTINCT", "array_distinct"), ("ARRAYS_OVERLAP", "arrays_overlap"),
      ("BOOLAND_AGG", "booland_agg"), ("BOOLOR_AGG", "boolor_agg"),
      ("PERCENTILE_APPROX", "approx_percentile")]
    |>.withRenames [
      ("position", "LOCATE"), ("nvl", "IFNULL"), ("iff", "IF"), ("sysdate", "NOW"),
      ("getdate", "NOW"), ("len", "CHAR_LENGTH"), ("strtok", "SPLIT_PART"),
      ("stddev", "STDDEV_SAMP"), ("variance", "VARIANCE_SAMP"), ("array_cat", "ARRAY_CONCAT"),
      ("object_keys", "JSON_KEYS")]
    |>.withSpellings [("IF", "IFF")]
    |>.withShape 2 Reshape.truncUnit ["date_trunc"]
    |>.withShape 3 Reshape.unitDiff ["datediff", "timestampdiff", "timediff"]
    |>.withShape 3 Reshape.unitAdd ["dateadd", "timestampadd", "timeadd"]
    |>.withShape 1 (Reshape.toDate .oracle) ["to_date", "try_to_date"]
    |>.withShape 1 (Reshape.toDatetime .oracle)
      ["to_timestamp", "to_timestamp_ntz", "to_timestamp_ltz", "try_to_timestamp"]
    |>.withShape 1 (Reshape.toText .oracle) ["to_char", "to_varchar"]
    |>.withShape 1 toNumber ["to_number", "to_decimal", "to_numeric", "try_to_number"]
    |>.withShape 1 (Reshape.castTo (.named "DOUBLE")) ["to_double"]
    |>.withShape 1 (Reshape.castTo (.named "BOOLEAN")) ["to_boolean"]
    |>.withShape 2 (Reshape.swapped "ARRAY_CONTAINS") ["array_contains"]
    |>.withShape 0 Reshape.arrayOf ["array_construct"]
    |>.withShape 0 Reshape.mapOf ["object_construct"]
    |>.withShape 2 div0 ["div0"]
    |>.withShape 1 (Reshape.firstAnd "POWER" (.num "2")) ["square"]
    |>.withShape 2 (Reshape.operator "REGEXP") ["regexp_like", "rlike"]
    |>.withShape 2 Reshape.regexpExtract ["regexp_substr"]
    |>.withShape 1 (Reshape.ifAggregate "COUNT") ["count_if"]
    |>.withShape 3 Reshape.nvl2 ["nvl2"]
    |>.withShape 3 Reshape.decode ["decode"]
  outbound :=
    Rule.unitCalls "snowflake" "DATEDIFF" "DATEADD" .word ++
      Rule.intervalCalls "snowflake" "DATEADD" ++ [
      .format "snowflake" "DATE_FORMAT" "TO_CHAR" 1 .oracle,
      .format "snowflake" "STR_TO_DATE" "TO_TIMESTAMP" 1 .oracle,
      .native "snowflake" "DATE_TRUNC" "DATE_TRUNC" [1, 0],
      .native "snowflake" "ARRAY_CONTAINS" "ARRAY_CONTAINS" [1, 0],
      Presto.regexpLike "snowflake"]

end SqlDialects.Snowflake
