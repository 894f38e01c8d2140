import SqlDialects.Dialect.Ansi
import SqlDialects.Doris.Rules
import SqlDialects.Function.Shared
import SqlDialects.Profile

/-! Doris. Its functions and types are the neutral ones, so the description is mostly about
notation; `Doris.Rules` holds the rest. -/

namespace SqlDialects.Doris

/-- The property that every table from another dialect receives. -/
def replication : Property where
  group := .list
  clause := "PROPERTIES"
  key := "replication_allocation"
  value := some (.str "tag.location.default: 3")

def profile : Profile where
  dialect :=
    { Ansi.dialect "doris" with
      aliases := ["selectdb"]
      identQuotes := ['\x60']
      stringQuotes := ['\x27', '\x22']
      backslashEscapes := true
      hashComments := true
      operators := ["->", "<=>", "&&"]
      lambdas := true
      hints := { namedStructs := true, lateralViews := true, keyModels := true,
                 multilineTables := true, defaultProperties := [replication] } }
    |>.withReserved
      ["KEY", "DEFAULT", "INDEX", "RANGE", "DUPLICATE", "DISTRIBUTED", "BUCKETS", "PROPERTIES"]
    |>.withInfix [
      ("DIV", Ansi.operator Prec.product "DIV"),
      ("<=>", Ansi.operator Prec.comparison "<=>"),
      ("&&", Ansi.operator Prec.conjunction "AND")]
    |>.withInfix
      (["MATCH_ANY", "MATCH_ALL", "MATCH_PHRASE", "MATCH_PHRASE_PREFIX", "MATCH_REGEXP"].map
        fun op => (op, Ansi.operator Prec.comparison op))
    |>.withType (.keep "TINYINT") ["TINYINT"]
    |>.withType (.keep "SMALLINT") ["SMALLINT"]
    |>.withType (.keep "INT") ["INT", "INTEGER"]
    |>.withType (.keep "BIGINT") ["BIGINT"]
    |>.withType (.plain "DATE") ["DATEV2"]
    |>.withType (.keep "DATETIME") ["DATETIMEV2"]
    |>.withType (.keep "DECIMAL") ["DECIMALV3", "DECIMALV2"]
    |>.withType (.plain "JSON") ["VARIANT"]
    |>.withTypeNames [
      ("BINARY", "STRING"), ("TIME", "STRING"), ("INTERVAL", "STRING"), ("JSONB", "JSON"),
      ("UUID", "STRING")]
    |>.withoutTypes ["GEOMETRY"]
    |>.withRenames [
      ("curdate", "CURRENT_DATE"), ("size", "ARRAY_SIZE"), ("cardinality", "ARRAY_SIZE"),
      ("ndv", "APPROX_COUNT_DISTINCT"), ("strleft", "LEFT"), ("strright", "RIGHT"),
      ("variance_samp", "VAR_SAMP"), ("var_pop", "VARIANCE_POP"), ("stddev", "STDDEV_POP"),
      ("std", "STDDEV_POP")]
    |>.withSpellings [("ARRAY_SIZE", "SIZE")]
    |>.withShape 2 (Reshape.daysInterval "DATE_ADD") ["date_add", "adddate"]
    |>.withShape 2 (Reshape.daysInterval "DATE_SUB") ["date_sub", "subdate"]
  outbound := rules

end SqlDialects.Doris
