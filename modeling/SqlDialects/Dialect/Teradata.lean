import SqlDialects.Dialect.Oracle

/-! Teradata. -/

namespace SqlDialects.Teradata

/-- Comparison operators written as words. -/
def comparisons : List (String × String) := [
  ("EQ", "="), ("NE", "<>"), ("GT", ">"), ("GE", ">="), ("LT", "<"), ("LE", "<=")]

/-- A truncation to the day, or a reader of dates by a pattern. -/
def toDate : Reshape := Reshape.toDate .teradata

def profile : Profile where
  dialect :=
    { Ansi.dialect "teradata" with
      formats := .teradata
      leadingKeyHash := true
      operators := ["**", "^="]
      typeParams := ["DATETIME"]
      hints := { tableOptions := true } }
    |>.withReserved ["MOD", "SAMPLE", "QUALIFY", "TITLE", "FORMAT", "VOLATILE"]
    |>.withInfix [
      ("MOD", Ansi.operator Prec.product "%"),
      ("**", Ansi.function Prec.product "POWER"),
      ("^=", Ansi.operator Prec.comparison "<>")]
    |>.withInfix (comparisons.map fun (word, op) => (word, Ansi.operator Prec.comparison op))
    |>.withReserved (comparisons.map Prod.fst)
    |>.withType (.plain "SMALLINT") ["BYTEINT"]
    |>.withType Oracle.number ["NUMBER"]
    |>.withType (.plain "STRING")
      ["CLOB", "BLOB", "BYTE", "VARBYTE", "LONG VARCHAR", "GRAPHIC", "VARGRAPHIC", "XML"]
    |>.withType (.plain "GEOMETRY") ["ST_GEOMETRY", "MBR"]
    |>.withTypeNames [
      ("TINYINT", "BYTEINT"), ("BOOLEAN", "BYTEINT"), ("LARGEINT", "DECIMAL"),
      ("DOUBLE", "DOUBLE PRECISION"), ("STRING", "CLOB"), ("BINARY", "VARBYTE"),
      ("DATETIME", "TIMESTAMP"), ("INTERVAL", "INTERVAL DAY TO SECOND"), ("JSONB", "JSON"),
      ("IPV4", "VARCHAR"), ("IPV6", "VARCHAR"), ("UUID", "VARCHAR"), ("GEOMETRY", "ST_GEOMETRY")]
    |>.withoutTypes ["ARRAY", "MAP", "STRUCT", "BITMAP", "HLL"]
    |>.withPairs [
      ("MONTHS_ADD", "add_months"), ("REPLACE", "oreplace"), ("TRANSLATE", "otranslate"),
      ("CHAR_LENGTH", "character_length"), ("SPLIT_PART", "strtok"),
      ("DAYOFWEEK", "td_day_of_week"), ("DAYOFMONTH", "td_day_of_month"),
      ("DAYOFYEAR", "td_day_of_year"), ("WEEKOFYEAR", "td_week_of_year"),
      ("MONTH", "td_month_of_year"), ("QUARTER", "td_quarter_of_year"),
      ("YEAR", "td_year_of_calendar"), ("MONTHS_DIFF", "months_between")]
    |>.withRenames [
      ("characters", "CHAR_LENGTH"), ("chars", "CHAR_LENGTH"), ("nvl", "COALESCE"),
      ("regexp_substr", "REGEXP_EXTRACT")]
    |>.withShape 1 (Reshape.firstAnd "COALESCE" (.num "0")) ["zeroifnull"]
    |>.withShape 1 (Reshape.firstAnd "NULLIF" (.num "0")) ["nullifzero"]
    |>.withShape 1 (Reshape.firstArgs "LOG10" 1) ["log"]
    |>.withShape 2 (Reshape.swapped "LOCATE") ["index", "instr"]
    |>.withShape 3 Reshape.nvl2 ["nvl2"]
    |>.withShape 3 Reshape.decode ["decode"]
    |>.withShape 1 Reshape.truncDateOrNumber ["trunc"]
    |>.withShape 1 (Reshape.castTo (.named "DOUBLE")) ["to_number"]
    |>.withShape 1 toDate ["to_date", "to_timestamp"]
    |>.withShape 1 (Reshape.toText .teradata) ["to_char"]
    |>.withShape 2 (Reshape.operator "REGEXP") ["regexp_similar"]
    |>.withSpellings [("TRUNCATE", "TRUNC"), ("IFNULL", "COALESCE")]
  outbound := [
    .format "teradata" "DATE_FORMAT" "TO_CHAR" 1 .teradata,
    .format "teradata" "STR_TO_DATE" "TO_TIMESTAMP" 1 .teradata,
    .native "teradata" "LOCATE" "INDEX" [1, 0],
    .native "teradata" "LOG10" "LOG" [0]]

end SqlDialects.Teradata
