import SqlDialects.Dialect.Ansi
import SqlDialects.Function.Shared
import SqlDialects.Profile

/-! Hive, and Spark, which extends it. -/

namespace SqlDialects

namespace Hive

/-- Type names that are conversion functions too. -/
def casts : List (String × String) := [
  ("tinyint", "TINYINT"), ("smallint", "SMALLINT"), ("int", "INT"), ("bigint", "BIGINT"),
  ("float", "FLOAT"), ("double", "DOUBLE"), ("decimal", "DECIMAL"), ("string", "STRING"),
  ("boolean", "BOOLEAN"), ("binary", "BINARY"), ("date", "DATE"), ("timestamp", "DATETIME")]

/-- `from_utc_timestamp` and its opposite, which place the zone differently. -/
def convertZone (order : Expr → List Expr) : Reshape := fun f =>
  match f.args with
  | x :: zone :: _ => .ok (f.become "CONVERT_TZ" (x.asDatetime :: order zone))
  | _ => f.arityError "2 arguments"

/-- What Hive and Spark share. -/
def base (name : String) : Dialect :=
  let d := Ansi.dialect name
  let d := { d with
    identQuotes := ['\x60']
    stringQuotes := ['\x27', '\x22']
    backslashEscapes := true
    formats := .java
    typeParams := ["DATETIME"]
    hints := { namedStructs := true, lateralViews := true, hivePartitions := true } }
  let d := casts.foldl (fun d (spelling, type) =>
    d.withShape 1 (.castTo (.named type)) [spelling])
    (d.withInfix [("DIV", Ansi.operator Prec.product "DIV")]
      |>.withNiladic [("SYSDATE", "NOW")]
      |>.withReserved ["DATE", "TIMESTAMP", "FUNCTION", "MACRO", "CLUSTER", "DISTRIBUTE", "SORT"]
      |>.withType (.plain "STRING") ["VARCHAR2"]
      |>.withTypeNames [
        ("DATETIME", "TIMESTAMP"), ("LARGEINT", "DECIMAL"), ("TIME", "STRING"),
        ("INTERVAL", "STRING"), ("JSON", "STRING"), ("JSONB", "STRING"), ("IPV4", "STRING"),
        ("IPV6", "STRING"), ("UUID", "STRING")]
      |>.withoutTypes ["BITMAP", "HLL", "GEOMETRY"])
  d |>.withPairs [
      ("ARRAY_SIZE", "size"), ("ARRAY_SORT", "sort_array"), ("MONTHS_ADD", "add_months"),
      ("MONTHS_DIFF", "months_between"), ("DAYS_DIFF", "datediff"),
      ("JSON_EXTRACT_STRING", "get_json_object"), ("TO_BASE64", "base64"),
      ("FROM_BASE64", "unbase64"), ("SPLIT_BY_STRING", "split"),
      ("COLLECT_LIST", "collect_list"), ("COLLECT_SET", "collect_set")]
    |>.withRenames [
      ("position", "LOCATE"), ("octet_length", "LENGTH"), ("mean", "AVG"),
      ("std", "STDDEV_POP"), ("stddev", "STDDEV_POP"), ("var_pop", "VARIANCE_POP"),
      ("weekofyear", "WEEKOFYEAR"), ("nvl", "IFNULL")]
    |>.withShape 1 (Reshape.firstAnd "ROUND" (.num "0")) ["rint"]
    |>.withShape 1 Reshape.truncDateOrNumber ["trunc"]
    |>.withShape 3 Reshape.nvl2 ["nvl2"]
    |>.withShape 2 (Reshape.swapped "LOCATE") ["instr"]
    |>.withShape 2 (Reshape.daysInterval "DATE_ADD") ["date_add"]
    |>.withShape 2 (Reshape.daysInterval "DATE_SUB") ["date_sub"]
    |>.withShape 1 (Reshape.formatArg "FROM_UNIXTIME" 1 .java) ["from_unixtime", "from_timestamp"]
    |>.withShape 0 (Reshape.formatArg "UNIX_TIMESTAMP" 1 .java) ["unix_timestamp"]
    |>.withShape 2 (Reshape.formatArg "DATE_FORMAT" 1 .java) ["date_format"]
    |>.withShape 1 (Reshape.toDate .java) ["to_date"]
    |>.withShape 2 (convertZone fun zone => [.str "UTC", zone]) ["from_utc_timestamp"]
    |>.withShape 2 (convertZone fun zone => [zone, .str "UTC"]) ["to_utc_timestamp"]
    |>.withShape 1 (Reshape.quantile "PERCENTILE_APPROX") ["percentile_approx", "approx_percentile"]
    |>.withShape 1 Reshape.assertTrue ["assert_true"]
    |>.withSpellings [("TRUNCATE", "TRUNC")]

/-- Day arithmetic through functions that count days, and patterns in Java's letters. -/
def rules (target : String) : List Rule :=
  let dayCount (canonical : String) : Rule :=
    .onCall target canonical fun f =>
      match f.args with
      | x :: .interval _ value "DAY" :: _ => some (f.become f.name [x, value])
      | _ => none
  [.format target "DATE_FORMAT" "DATE_FORMAT" 1 .java,
   .format target "FROM_UNIXTIME" "FROM_UNIXTIME" 1 .java,
   .format target "UNIX_TIMESTAMP" "UNIX_TIMESTAMP" 1 .java,
   .sameArgs target "DAYS_ADD" "DATE_ADD",
   .sameArgs target "DAYS_SUB" "DATE_SUB",
   dayCount "DATE_ADD",
   dayCount "DATE_SUB"]

/-- Hive has no reader of dates by a pattern; it goes through seconds since the epoch. -/
def readDate : Rule :=
  .onCall "hive" "STR_TO_DATE" fun f =>
    match f.args with
    | [x, format] =>
      let format := match format with
        | .literal pos .string value =>
          .literal pos .string (DatePattern.java.fromCanonical value)
        | e => e
      some (f.become "FROM_UNIXTIME" [f.become "UNIX_TIMESTAMP" [x, format]])
    | _ => none

def profile : Profile where
  dialect := { base "hive" with aliases := ["impala"] }
  outbound := rules "hive" ++ [readDate]

end Hive

namespace Spark

/-- A range that includes its stop. -/
def sequenceCall (f : Call) : Option Expr :=
  match f.args with
  | first :: last :: rest => some (f.become "SEQUENCE" (first :: last.plus (-1) :: rest))
  | _ => none

def profile : Profile where
  dialect :=
    { Hive.base "spark" with
      aliases := ["spark2", "databricks"]
      operators := ["->"]
      lambdas := true }
    |>.withType (.plain "BIGINT") ["LONG"]
    |>.withType (.plain "SMALLINT") ["SHORT"]
    |>.withType (.plain "TINYINT") ["BYTE"]
    |>.withType (.keep "DATETIME") ["TIMESTAMP_NTZ", "TIMESTAMP_LTZ"]
    |>.withRenames [
      ("array_max", "ARRAY_MAX"), ("array_min", "ARRAY_MIN"), ("array_join", "ARRAY_JOIN"),
      ("any_value", "ANY_VALUE"), ("first", "ANY_VALUE"), ("bool_and", "BOOLAND_AGG"),
      ("bool_or", "BOOLOR_AGG"), ("count_if", "COUNT_IF"), ("date_diff", "DAYS_DIFF"),
      ("dayofweek", "DAYOFWEEK"), ("approx_count_distinct", "APPROX_COUNT_DISTINCT")]
    |>.withShape 2 (Reshape.swapped "ARRAY_MAP") ["transform"]
    |>.withShape 2 (Reshape.swapped "ARRAY_FILTER") ["filter"]
    |>.withShape 2 Reshape.sequence ["sequence"]
    |>.withShape 2 Reshape.elementAt ["element_at"]
    |>.withShape 1 (Reshape.toDatetime .java) ["to_timestamp"]
    |>.withShape 3 Reshape.unitDiff ["timestampdiff"]
    |>.withShape 3 Reshape.unitAdd ["timestampadd", "dateadd"]
    |>.withShape 1 (Reshape.ifAggregate "COUNT") ["count_if"]
  outbound := Hive.rules "spark" ++ [
    .format "spark" "STR_TO_DATE" "TO_TIMESTAMP" 1 .java,
    .native "spark" "ARRAY_MAP" "TRANSFORM" [1, 0],
    .native "spark" "ARRAY_FILTER" "FILTER" [1, 0],
    .onCall "spark" "ARRAY_RANGE" sequenceCall]

end Spark

end SqlDialects
