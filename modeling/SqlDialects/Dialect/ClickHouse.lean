import SqlDialects.Dialect.Ansi
import SqlDialects.Function.Shared
import SqlDialects.Parser.Type
import SqlDialects.Profile

/-! ClickHouse. Its function names are case-sensitive, so the neutral functions are printed with
the spellings given here. -/

namespace SqlDialects.ClickHouse

/-- Functions over blocks, dictionaries and aggregate states, which no other dialect has. -/
def unmappable : List String :=
  ["runningAccumulate", "runningDifference", "runningDifferenceStartingWithFirstValue",
   "finalizeAggregation", "sequenceMatch", "sequenceCount", "arrayFold",
   "dictGet", "dictGetOrDefault", "dictGetOrNull", "dictHas", "joinGet"]

def arraySpellings : List (String × String) := [
  ("ARRAY_SUM", "arraySum"), ("ARRAY_MIN", "arrayMin"), ("ARRAY_MAX", "arrayMax"),
  ("ARRAY_AVG", "arrayAvg"), ("ARRAY_SHUFFLE", "arrayShuffle"), ("ARRAY_FILTER", "arrayFilter"),
  ("ARRAY_CONCAT", "arrayConcat"), ("ARRAY_COUNT", "arrayCount"), ("ARRAY_SORT", "arraySort"),
  ("ARRAY_POPBACK", "arrayPopBack"), ("ARRAY_POPFRONT", "arrayPopFront"),
  ("ARRAY_PUSHBACK", "arrayPushBack"), ("ARRAY_PUSHFRONT", "arrayPushFront"),
  ("ARRAY_SLICE", "arraySlice"), ("ARRAY_COMPACT", "arrayCompact"),
  ("ARRAY_CUM_SUM", "arrayCumSum"), ("ARRAY_DIFFERENCE", "arrayDifference"),
  ("ARRAY_DISTINCT", "arrayDistinct"), ("ARRAY_EXISTS", "arrayExists"),
  ("ARRAY_FIRST", "arrayFirst"), ("ARRAY_FIRST_INDEX", "arrayFirstIndex"),
  ("ARRAY_INTERSECT", "arrayIntersect"), ("ARRAY_LAST", "arrayLast"),
  ("ARRAY_LAST_INDEX", "arrayLastIndex"), ("ARRAY_MAP", "arrayMap"),
  ("ARRAY_PRODUCT", "arrayProduct"), ("ARRAY_REVERSE_SORT", "arrayReverseSort"),
  ("ARRAY_ZIP", "arrayZip"), ("ARRAY_ENUMERATE", "arrayEnumerate"),
  ("ARRAY_ENUMERATE_UNIQ", "arrayEnumerateUniq"), ("ARRAY_CONTAINS", "has"),
  ("ARRAYS_OVERLAP", "hasAny"), ("ARRAY_RANGE", "range"), ("ELEMENT_AT", "arrayElement"),
  ("ARRAY_POSITION", "indexOf"), ("COLLECT_LIST", "groupArray"),
  ("COLLECT_SET", "groupUniqArray"), ("ARRAYJOIN", "arrayJoin")]

def bitmapSpellings : List (String × String) := [
  ("BITMAP_FROM_ARRAY", "bitmapBuild"), ("BITMAP_TO_ARRAY", "bitmapToArray"),
  ("BITMAP_COUNT", "bitmapCardinality"), ("BITMAP_AND_COUNT", "bitmapAndCardinality"),
  ("BITMAP_OR_COUNT", "bitmapOrCardinality"), ("BITMAP_XOR_COUNT", "bitmapXorCardinality"),
  ("BITMAP_AND_NOT_COUNT", "bitmapAndnotCardinality"), ("BITMAP_AND", "bitmapAnd"),
  ("BITMAP_OR", "bitmapOr"), ("BITMAP_XOR", "bitmapXor"), ("BITMAP_AND_NOT", "bitmapAndnot"),
  ("BITMAP_CONTAINS", "bitmapContains"), ("BITMAP_HAS_ANY", "bitmapHasAny"),
  ("BITMAP_HAS_ALL", "bitmapHasAll"), ("BITMAP_MIN", "bitmapMin"), ("BITMAP_MAX", "bitmapMax"),
  ("BITMAP_SUBSET_LIMIT", "bitmapSubsetLimit"),
  ("BITMAP_SUBSET_IN_RANGE", "bitmapSubsetInRange"), ("SUB_BITMAP", "subBitmap"),
  ("GROUP_BIT_AND", "groupBitAnd"), ("GROUP_BIT_OR", "groupBitOr"),
  ("GROUP_BIT_XOR", "groupBitXor"), ("BIT_SHIFT_LEFT", "bitShiftLeft"),
  ("BIT_SHIFT_RIGHT", "bitShiftRight"), ("BIT_COUNT", "bitCount")]

def networkSpellings : List (String × String) := [
  ("IPV4_STRING_TO_NUM", "IPv4StringToNum"),
  ("IPV4_STRING_TO_NUM_OR_NULL", "IPv4StringToNumOrNull"),
  ("IPV4_STRING_TO_NUM_OR_DEFAULT", "IPv4StringToNumOrDefault"),
  ("IPV4_NUM_TO_STRING", "IPv4NumToString"),
  ("IPV6_STRING_TO_NUM", "IPv6StringToNum"),
  ("IPV6_STRING_TO_NUM_OR_NULL", "IPv6StringToNumOrNull"),
  ("IPV6_STRING_TO_NUM_OR_DEFAULT", "IPv6StringToNumOrDefault"),
  ("IPV6_NUM_TO_STRING", "IPv6NumToString"),
  ("TO_IPV4", "toIPv4"), ("TO_IPV4_OR_NULL", "toIPv4OrNull"),
  ("TO_IPV4_OR_DEFAULT", "toIPv4OrDefault"), ("TO_IPV6", "toIPv6"),
  ("TO_IPV6_OR_NULL", "toIPv6OrNull"), ("TO_IPV6_OR_DEFAULT", "toIPv6OrDefault"),
  ("IS_IPV4_STRING", "isIPv4String"), ("IS_IPV6_STRING", "isIPv6String"),
  ("IPV4_CIDR_TO_RANGE", "IPv4CIDRToRange"), ("IPV6_CIDR_TO_RANGE", "IPv6CIDRToRange")]

def textSpellings : List (String × String) := [
  ("STARTS_WITH", "startsWith"), ("ENDS_WITH", "endsWith"),
  ("REGEXP_REPLACE_ONE", "replaceRegexpOne"), ("REGEXP_REPLACE", "replaceRegexpAll"),
  ("MULTI_MATCH_ANY", "multiMatchAny"),
  ("MULTI_SEARCH_ALL_POSITIONS", "multiSearchAllPositions"), ("NULL_OR_EMPTY", "empty"),
  ("NOT_NULL_OR_EMPTY", "notEmpty"), ("REPLACE", "replaceAll"), ("TO_BASE64", "base64Encode"),
  ("FROM_BASE64", "base64Decode"), ("SHA", "SHA1"), ("UUID", "generateUUIDv4"),
  ("CHAR_LENGTH", "lengthUTF8"), ("LENGTH", "length"), ("JSON_CONTAINS", "JSONHas"),
  ("JSON_LENGTH", "JSONLength"), ("JSON_VALID", "isValidJSON"),
  ("MAP_CONTAINS_KEY", "mapContains"), ("MAP_KEYS", "mapKeys"), ("MAP_VALUES", "mapValues")]

def dateSpellings : List (String × String) := [
  ("YEAR", "toYear"), ("QUARTER", "toQuarter"), ("MONTH", "toMonth"),
  ("DAYOFMONTH", "toDayOfMonth"), ("DAYOFYEAR", "toDayOfYear"),
  ("DAYOFWEEK_ISO", "toDayOfWeek"), ("HOUR", "toHour"), ("MINUTE", "toMinute"),
  ("SECOND", "toSecond"), ("WEEK", "toWeek"), ("UNIX_TIMESTAMP", "toUnixTimestamp"),
  ("LAST_DAY", "toLastDayOfMonth"), ("DATE_FORMAT", "formatDateTime"), ("TO_DATE", "toDate"),
  ("CURRENT_DATE", "today"), ("NOW", "now")]

def aggregateSpellings : List (String × String) := [
  ("MAX_BY", "argMax"), ("MIN_BY", "argMin"), ("STDDEV_POP", "stddevPop"),
  ("STDDEV_SAMP", "stddevSamp"), ("VAR_SAMP", "varSamp"), ("VARIANCE_POP", "varPop"),
  ("ANY_VALUE", "any"), ("RETENTION", "retention"), ("WINDOW_FUNNEL", "windowFunnel"),
  ("APPROX_COUNT_DISTINCT", "uniq"), ("COVAR_POP", "covarPop"), ("COVAR_SAMP", "covarSamp"),
  ("CORR", "corr")]

def renames : List (String × String) := [
  ("flatten", "ARRAY_CONCAT"), ("arrayFlatten", "ARRAY_CONCAT"),
  ("arrayReverse", "ARRAY_REVERSE_SORT"), ("bitmapAndnot", "BITMAP_AND_NOT"),
  ("lowerUTF8", "LOWER"), ("upperUTF8", "UPPER"), ("substringUTF8", "SUBSTRING"),
  ("reverseUTF8", "REVERSE"), ("trimLeft", "LTRIM"), ("trimRight", "RTRIM"),
  ("trimBoth", "TRIM"), ("replace", "REPLACE"), ("IsIPv4String", "IS_IPV4_STRING"),
  ("IsIPv6String", "IS_IPV6_STRING"), ("anyLast", "ANY_VALUE"),
  ("uniqHLL12", "APPROX_COUNT_DISTINCT"), ("concatWithSeparator", "CONCAT_WS")]

/-! Types. -/

/-- Storage wrappers such as `Nullable(T)` read as what they wrap. -/
def unwrap : TypeRule := fun n =>
  match n.args with
  | [t] => .ok t
  | _ => TypeRule.fault n "one wrapped type" s!"{n.args.length} types"

def decimalOf (precision : Int) : TypeRule := fun n =>
  .ok { pos := n.pos, name := "DECIMAL", params := [precision, n.intParams.head?.getD 0] }

def typeBase : Dialect :=
  { Ansi.dialect "clickhouse" with
    aliases := ["ch"]
    identQuotes := ['\x22', '\x60']
    backslashEscapes := true
    operators := ["->", "::"]
    lambdas := true
    hints := { arrays := .bracket, parenTypes := true, sortKeys := true, finalModifier := true,
               scalarCtes := true } }
  |>.withReserved ["FINAL", "PREWHERE", "SETTINGS", "FORMAT", "SAMPLE"]
  |>.withType (.plain "TINYINT") ["Int8"]
  |>.withType (.plain "SMALLINT") ["Int16", "UInt8"]
  |>.withType (.plain "INT") ["Int32", "UInt16"]
  |>.withType (.plain "BIGINT") ["Int64", "UInt32"]
  |>.withType (.plain "LARGEINT") ["Int128", "Int256", "UInt64", "UInt128", "UInt256"]
  |>.withType (.plain "FLOAT") ["Float32"]
  |>.withType (.plain "DOUBLE") ["Float64"]
  |>.withType (.plain "STRING") ["String"]
  |>.withType (.keep "CHAR") ["FixedString"]
  |>.withType (.plain "DATE") ["Date32"]
  |>.withType (.plain "DATETIME") ["DateTime", "DateTime32"]
  |>.withType (.keep "DATETIME") ["DateTime64"]
  |>.withType (.plain "JSON") ["Object"]
  |>.withType .struct ["Tuple", "Nested"]
  |>.withType unwrap ["Nullable", "LowCardinality"]
  |>.withType (decimalOf 9) ["Decimal32"]
  |>.withType (decimalOf 18) ["Decimal64"]
  |>.withType (decimalOf 38) ["Decimal128", "Decimal256"]
  |>.withTypeNames [
    ("TINYINT", "Int8"), ("SMALLINT", "Int16"), ("INT", "Int32"), ("BIGINT", "Int64"),
    ("LARGEINT", "Int128"), ("DECIMAL", "Decimal"), ("FLOAT", "Float32"),
    ("DOUBLE", "Float64"), ("STRING", "String"), ("VARCHAR", "String"), ("CHAR", "String"),
    ("BINARY", "String"), ("DATE", "Date"), ("DATETIME", "DateTime"), ("TIME", "String"),
    ("INTERVAL", "String"), ("BOOLEAN", "Bool"), ("ARRAY", "Array"), ("MAP", "Map"),
    ("STRUCT", "Tuple"), ("JSON", "JSON"), ("JSONB", "JSON"), ("IPV4", "IPv4"),
    ("IPV6", "IPv6"), ("UUID", "UUID")]
  |>.withoutTypes ["BITMAP", "HLL", "GEOMETRY"]

/-! Conversions. -/

/-- The families of conversion functions: the end of the name, the type, and what a failed
conversion yields in the `OrZero` form. -/
def castFamilies : List (String × String × Expr) := [
  ("Int8", "TINYINT", .num "0"), ("Int16", "SMALLINT", .num "0"), ("Int32", "INT", .num "0"),
  ("Int64", "BIGINT", .num "0"), ("Int128", "LARGEINT", .num "0"),
  ("UInt8", "SMALLINT", .num "0"), ("UInt16", "INT", .num "0"), ("UInt32", "BIGINT", .num "0"),
  ("UInt64", "LARGEINT", .num "0"), ("Float32", "FLOAT", .num "0"),
  ("Float64", "DOUBLE", .num "0"), ("Date32", "DATE", .num "0"),
  ("DateTime", "DATETIME", .str "1970-01-01 00:00:00"),
  ("DateTime64", "DATETIME", .str "1970-01-01 00:00:00"),
  ("Date", "DATE", .str "1970-01-01"), ("String", "STRING", .str "")]

/-- The zone of `toDate(x, zone)` is the one the value is read in. -/
def toDate : Reshape := fun f =>
  match f.args with
  | [x] => .ok (f.become "TO_DATE" [x])
  | [x, zone] =>
    .ok (f.become "TO_DATE" [f.become "CONVERT_TZ" [x, zone.inPlace .first, zone.inPlace .second]])
  | _ => f.arityError "1 or 2 arguments"

/-- A step with a value in place of `NULL`. -/
def orElse (reshape : Reshape) (zero : Expr) : Reshape := fun f => do
  return f.become "COALESCE" [← reshape f, zero]

def castOrDefault (type : TypeSpec) : Reshape := fun f =>
  match f.args with
  | [] => f.arityError "1 argument"
  | [x] => .ok (.cast f.pos x type false)
  | x :: other :: _ => .ok (f.become "COALESCE" [.cast f.pos x type false, other])

def typedCast (withDefault : Bool) : Reshape := fun f =>
  match f.args with
  | x :: .literal pos .string text :: rest => do
    let type ← Parser.parseType typeBase text
    let cast := .cast f.pos x { type with pos } false
    match withDefault, rest with
    | true, other :: _ => return f.become "COALESCE" [cast, other]
    | _, _ => return cast
  | _ :: e :: _ => Call.argumentError e.pos "type name string" e.kind
  | _ => f.arityError "2 arguments"

def withCasts (d : Dialect) : Dialect :=
  let family (d : Dialect) : String × String × Expr → Dialect := fun (suffix, typeName, zero) =>
    let name := "to" ++ suffix
    let cast := Reshape.castTo (.named typeName)
    let d :=
      if suffix = "Date" then
        d |>.withShape 1 toDate [name] |>.withShape 1 cast [name ++ "OrNull"]
      else if suffix = "DateTime" || suffix = "DateTime64" then d
      else d.withShape 1 cast [name, name ++ "OrNull"]
    d |>.withShape 1 (orElse cast zero) [name ++ "OrZero"]
      |>.withShape 1 (castOrDefault (.named typeName)) [name ++ "OrDefault"]
  let decimal (d : Dialect) : String × Int → Dialect := fun (bits, precision) =>
    let name := "toDecimal" ++ bits
    d |>.withShape 1 (Reshape.decimalCast precision) [name, name ++ "OrNull"]
      |>.withShape 1 (orElse (Reshape.decimalCast precision) (.num "0")) [name ++ "OrZero"]
  let d := castFamilies.foldl family d
  let d := [("32", 32), ("64", 38), ("128", 38), ("256", 38)].foldl decimal d
  d |>.withShape 1 (Reshape.castTo (.named "STRING")) ["toFixedString", "toStringCutToZero"]
    |>.withShape 2 (typedCast false) ["accurateCast", "accurateCastOrNull"]
    |>.withShape 3 (typedCast true) ["accurateCastOrDefault"]

/-! Dates. -/

def units : List String :=
  ["Year", "Quarter", "Month", "Week", "Day", "Hour", "Minute", "Second"]

/-- `toStartOfInterval(x, INTERVAL n unit)`. -/
def startOfInterval : Reshape := fun f =>
  match f.args with
  | x :: .interval _ n unit :: _ =>
    let (unit, n) := if unit = "QUARTER" then ("MONTH", n.scale 3) else (unit, n)
    .ok (f.become (unit ++ "_FLOOR") [x, n])
  | _ :: e :: _ => Call.argumentError e.pos "INTERVAL" e.kind
  | _ => f.arityError "2 arguments"

def quarters : Reshape := fun f =>
  match f.args with
  | n :: _ => .ok (.interval f.pos (n.scale 3) "MONTH")
  | [] => f.arityError "1 argument"

def withDates (d : Dialect) : Dialect :=
  let family (d : Dialect) (word : String) : Dialect :=
    let unit := Text.upper word
    let subtract : Reshape :=
      if ["WEEK", "DAY", "HOUR", "MINUTE"].contains unit then Reshape.intervalArith unit "DATE_SUB"
      else Reshape.unitArith unit "SUB"
    let interval : Reshape := if unit = "QUARTER" then quarters else Reshape.interval unit
    d |>.withShape 2 (Reshape.unitArith unit "ADD") ["add" ++ word ++ "s"]
      |>.withShape 2 subtract ["subtract" ++ word ++ "s"]
      |>.withShape 1 (Reshape.truncTo word) ["toStartOf" ++ word]
      |>.withShape 1 interval ["toInterval" ++ word]
  units.foldl family d
  |>.withShape 1 (Reshape.truncTo "Week") ["toMonday"]
  |>.withShape 1 (Reshape.fixedFormat "%Y%m") ["toYYYYMM"]
  |>.withShape 1 (Reshape.fixedFormat "%Y%m%d") ["toYYYYMMDD"]
  |>.withShape 1 (Reshape.fixedFormat "%Y%m%d%H%i%s") ["toYYYYMMDDhhmmss"]
  |>.withShape 2 startOfInterval ["toStartOfInterval"]
  |>.withShape 3 Reshape.unitDiff ["dateDiff", "date_diff", "timestampDiff"]
  |>.withShape 2 (Reshape.unitInterval "DATE_ADD")
    ["dateAdd", "date_add", "timestamp_add", "timestampAdd", "addDate"]
  |>.withShape 2 (Reshape.unitInterval "DATE_SUB")
    ["dateSub", "date_sub", "timestamp_sub", "timestampSub", "subDate"]
  |>.withShape 1 (Reshape.firstArgs "DAYOFWEEK" 1) ["toDayOfWeek"]
  |>.withShape 1 (Reshape.firstArgs "UNIX_TIMESTAMP" 1) ["toUnixTimestamp"]
  |>.withShape 2 (Reshape.firstArgs "DATE_FORMAT" 2) ["formatDateTime"]

/-! The rest. -/

/-- Division of integers as a cast of the quotient. -/
def intDiv : Reshape := fun f => do
  return .cast f.pos (← Reshape.operator "/" f) (.named "INT") false

def isNull (negated : Bool) : Reshape := fun f =>
  match f.args with
  | x :: _ => .ok (.isValue f.pos x negated "NULL")
  | [] => f.arityError "1 argument"

/-- The separator is empty when absent. -/
def arrayStringConcat : Reshape := fun f =>
  match f.args with
  | x :: rest => .ok (f.become "CONCAT_WS" [rest.head?.getD (.str ""), x])
  | [] => f.arityError "1 argument"

/-- `neighbor(x, offset[, default])` as `LAG` or `LEAD` over the whole result. -/
def neighbor : Reshape := fun f =>
  match f.args with
  | x :: offset :: rest =>
    let (name, offset) := match offset with
      | .unary _ "-" e => ("LAG", e)
      | .literal pos .number value =>
        match value.toList with
        | '-' :: digits => ("LAG", .literal pos .number (String.ofList digits))
        | _ => ("LEAD", .literal pos .number value)
      | e => ("LEAD", e)
    .ok (.window f.pos (f.become name [x, offset, rest.head?.getD (.num "0")]) [] [] none)
  | _ => f.arityError "2 arguments"

/-- `JSONExtract*(json, k1, k2, ...)` with one path. `JSONExtract` itself has a type last. -/
def jsonExtract : Reshape := fun f =>
  match f.args with
  | json :: first :: rest =>
    let keys := first :: rest
    let keys := if f.name = "JSONEXTRACT" && keys.length > 1 then keys.dropLast else keys
    match Reshape.jsonSteps keys with
    | some steps => .ok (f.become "JSON_EXTRACT" [json, .literal first.pos .string ("$" ++ steps)])
    | none => .ok (f.become "JSON_EXTRACT" f.args)
  | _ => f.arityError "2 arguments"

def powerOf (base : String) : Reshape := fun f =>
  .ok (f.become "POWER" (.num base :: f.args.take 1))

def withRest (d : Dialect) : Dialect :=
  let d := d
    |>.withShape 3 Reshape.multiIf ["multiIf"]
    |>.withShape 1 (Reshape.distinctAggregate "COUNT") ["countDistinct", "uniqExact"]
  let d := ["sum", "count", "avg", "min", "max", "any"].foldl (fun d word =>
    let name := if word = "any" then "ANY_VALUE" else Text.upper word
    d.withShape 1 (Reshape.ifAggregate name) [word ++ "If"]) d
  d |>.withShape 1 (Reshape.nested "HLL_CARDINALITY" "HLL_HASH") ["uniqCombined", "uniqCombined64"]
    |>.withShape 1 (Reshape.quantile "PERCENTILE_APPROX") ["quantile", "quantileTDigest", "median"]
    |>.withShape 1 (Reshape.quantile "PERCENTILE") ["quantileExact"]
    |>.withShape 2 (Reshape.operator "+") ["plus"]
    |>.withShape 2 (Reshape.operator "-") ["minus"]
    |>.withShape 2 (Reshape.operator "*") ["multiply"]
    |>.withShape 2 (Reshape.operator "/") ["divide"]
    |>.withShape 2 (Reshape.operator "%") ["modulo"]
    |>.withShape 2 (orElse (Reshape.operator "%") (.num "0")) ["moduloOrZero"]
    |>.withShape 2 intDiv ["intDiv"]
    |>.withShape 2 (orElse intDiv (.num "0")) ["intDivOrZero"]
    |>.withShape 1 (powerOf "2") ["exp2"]
    |>.withShape 1 (powerOf "10") ["exp10"]
    |>.withShape 2 (Reshape.swapped "LOCATE") ["position", "positionUTF8"]
    |>.withShape 2 (Reshape.swapped "ILOCATE")
      ["positionCaseInsensitive", "positionCaseInsensitiveUTF8"]
    |>.withShape 2 (Reshape.swapped "SPLIT_BY_STRING") ["splitByString"]
    |>.withShape 2 Reshape.regexpExtractAll ["extractAll"]
    |>.withShape 1 (Reshape.withArgs "SHA2" [.num "224"]) ["SHA224"]
    |>.withShape 1 (Reshape.withArgs "SHA2" [.num "256"]) ["SHA256"]
    |>.withShape 1 (Reshape.withArgs "SHA2" [.num "512"]) ["SHA512"]
    |>.withShape 3 (Reshape.skipArgs "AES_ENCRYPT" 1) ["aes_encrypt_mysql"]
    |>.withShape 3 (Reshape.skipArgs "AES_DECRYPT" 1) ["aes_decrypt_mysql"]
    |>.withShape 1 (isNull false) ["isNull"]
    |>.withShape 1 (isNull true) ["isNotNull"]
    |>.withShape 1 (Reshape.nested "ARRAY_SIZE" "ARRAY_DISTINCT") ["arrayUniq"]
    |>.withShape 1 arrayStringConcat ["arrayStringConcat"]
    |>.withShape 1 neighbor ["neighbor"]
    |>.withShape 1 (Reshape.nested "BITMAP_COUNT" "TO_BITMAP") ["groupBitmap"]
    |>.withShape 1 (Reshape.nested "BITMAP_UNION" "TO_BITMAP") ["groupBitmapState"]
    |>.withFunction (.rename "BITMAP_UNION") ["groupBitmapMergeState", "groupBitmapOrState"]
    |>.withShape 1 (fun f => .ok (f.become "IFNULL"
        [f.become "BITMAP_UNION" f.args, f.become "BITMAP_EMPTY" []]))
      ["groupBitmapOrStateOrDefault"]
    |>.withShape 2 jsonExtract
      ["JSONExtract", "JSONExtractString", "JSONExtractRaw", "JSONExtractInt",
       "JSONExtractUInt", "JSONExtractFloat", "JSONExtractBool"]

def dialect : Dialect :=
  typeBase
  |>.withPairs (arraySpellings ++ bitmapSpellings ++ networkSpellings ++ textSpellings ++
      dateSpellings ++ aggregateSpellings)
  |>.withRenames renames
  |>.withShape 1 (Reshape.castTo (.named "DATETIME"))
    ["toDateTime", "toDateTime64", "toDateTimeOrNull", "toDateTime64OrNull", "toDateTime32"]
  |> withCasts
  |> withDates
  |> withRest
  |>.withFunction .unmapped unmappable
  |>.withSpellings (unmappable.map fun name => (Text.upper name, name))
  |>.withSpellings [
    ("MAP", "map"), ("STRUCT", "tuple"), ("ARRAY_SIZE", "length"),
    ("CONCAT_WS", "concatWithSeparator"), ("IFNULL", "ifNull"), ("COALESCE", "coalesce"),
    ("LOWER", "lower"), ("UPPER", "upper"), ("SUBSTRING", "substring"),
    ("REVERSE", "reverse"), ("PERCENTILE_APPROX", "quantile")]

def itemName (index : Nat) (label : Option Ident) (e : Expr) : Ident :=
  match label, e with
  | some name, _ => name
  | none, .column _ path => ⟨(path.getLast?.map Ident.name).getD "", false⟩
  | none, _ => ⟨s!"col_{index + 1}", false⟩

def explodeItem (index : Nat) (item : SelectItem) : SelectItem × Option LateralView :=
  match item.expr with
  | .call f =>
    match f.name, f.args with
    | "ARRAYJOIN", [x] =>
      let name := itemName index item.label x
      ({ expr := .column f.pos [name], label := some name },
       some { pos := f.pos, function := f.moved "EXPLODE" [x], table := ⟨"tmp", false⟩,
              columns := [name] })
    | _, _ => (item, none)
  | _ => (item, none)

/-- Moves `arrayJoin(x) AS name` from the select list to a lateral view. -/
def arrayJoinItems : Rule where
  name := "clickhouse:array-join-items"
  phase := .inbound
  pattern := { kind := "Select", source := "clickhouse" }
  transform := some fun ctx n =>
    match n with
    | .statement (.query (.select s)) =>
      let exploded := s.items.zipIdx.map fun (item, i) => explodeItem i item
      let views := exploded.filterMap Prod.snd
      if ctx.isCross && !views.isEmpty then
        .ok (some (.statement (.query (.select
          { s with items := exploded.map Prod.fst, lateralViews := s.lateralViews ++ views }))))
      else .ok none
    | _ => .ok none

def profile : Profile where
  dialect := dialect
  inbound := [arrayJoinItems]

end SqlDialects.ClickHouse
