import SqlDialects.Dialect.Ansi
import SqlDialects.Function.Shared
import SqlDialects.Profile

/-! MySQL. -/

namespace SqlDialects.MySql

def maxPrecision : Int := 38

/-- Keeps the display width; an unsigned integer widens to the next type. -/
def int (signed unsigned : String) : TypeRule := fun n =>
  if n.unsigned then .ok { pos := n.pos, name := unsigned }
  else .ok { pos := n.pos, name := signed, params := n.intParams }

/-- An unsigned decimal gains a digit; past the widest precision it becomes a string. -/
def decimal : TypeRule := fun n =>
  match n.unsigned, n.intParams with
  | true, p :: rest =>
    if wrap64 (p + 1) > maxPrecision then .ok { pos := n.pos, name := "STRING" }
    else .ok { pos := n.pos, name := "DECIMAL", params := wrap64 (p + 1) :: rest }
  | _, params => .ok { pos := n.pos, name := "DECIMAL", params }

/-- One bit is a truth value; wider fields become strings. -/
def bit : TypeRule := fun n =>
  match n.intParams with
  | p :: _ => .ok { pos := n.pos, name := if p > 1 then "STRING" else "BOOLEAN" }
  | [] => .ok { pos := n.pos, name := "BOOLEAN" }

def profile : Profile where
  dialect :=
    { Ansi.dialect "mysql" with
      aliases := ["mariadb", "tidb"]
      identQuotes := ['\x60']
      stringQuotes := ['\x27', '\x22']
      backslashEscapes := true
      hashComments := true
      operators := ["<=>", "&&", "->>", "->"] }
    |>.withInfix [
      ("DIV", Ansi.operator Prec.product "DIV"),
      ("MOD", Ansi.operator Prec.product "%"),
      ("<=>", Ansi.operator Prec.comparison "<=>"),
      ("&&", Ansi.operator Prec.conjunction "AND"),
      ("||", Ansi.operator Prec.disjunction "OR"),
      ("XOR", Ansi.operator Prec.disjunction "XOR"),
      ("->", { prec := Prec.access, function := "JSON_EXTRACT", jsonPath := true }),
      ("->>", { prec := Prec.access, function := "JSON_EXTRACT_STRING", jsonPath := true })]
    |>.withReserved ["KEY", "INDEX", "DEFAULT", "RANGE", "DIV", "MOD", "XOR"]
    |>.withType (int "TINYINT" "SMALLINT") ["TINYINT"]
    |>.withType (int "SMALLINT" "INT") ["SMALLINT"]
    |>.withType (int "INT" "INT") ["MEDIUMINT"]
    |>.withType (int "INT" "BIGINT") ["INT", "INTEGER"]
    |>.withType (int "BIGINT" "LARGEINT") ["BIGINT"]
    |>.withType decimal ["DECIMAL", "NUMERIC", "DEC", "FIXED"]
    |>.withType (.plain "SMALLINT") ["YEAR"]
    |>.withType (.plain "STRING") ["TINYTEXT", "MEDIUMTEXT", "LONGTEXT", "SET", "ENUM"]
    |>.withType (.plain "BINARY") ["TINYBLOB", "MEDIUMBLOB", "LONGBLOB"]
    |>.withType bit ["BIT"]
    |>.withType (.plain "STRING") ["LONG VARCHAR"]
    |>.withType (.plain "GEOMETRY")
      ["POINT", "LINESTRING", "POLYGON", "MULTIPOINT", "MULTIPOLYGON", "GEOMETRYCOLLECTION"]
    |>.withTypeNames [
      ("STRING", "TEXT"), ("LARGEINT", "DECIMAL"), ("BINARY", "BLOB"), ("INTERVAL", "TEXT"),
      ("JSONB", "JSON"), ("IPV4", "TEXT"), ("IPV6", "TEXT"), ("UUID", "TEXT")]
    |>.withoutTypes ["ARRAY", "MAP", "STRUCT", "BITMAP", "HLL"]
    |>.withRenames [
      ("curdate", "CURRENT_DATE"), ("sysdate", "NOW"), ("mid", "SUBSTRING"),
      ("std", "STDDEV_POP"), ("stddev", "STDDEV_POP"), ("var_pop", "VARIANCE_POP"),
      ("json_array_contains", "JSON_CONTAINS"), ("json_unquote", "JSON_UNQUOTE"),
      ("json_arrayagg", "COLLECT_LIST"), ("octet_length", "LENGTH")]
    |>.withShape 3 Reshape.unitDiff ["timestampdiff"]
    |>.withShape 3 Reshape.unitAdd ["timestampadd"]
    |>.withShape 2 (Reshape.daysInterval "DATE_ADD") ["date_add", "adddate"]
    |>.withShape 2 (Reshape.daysInterval "DATE_SUB") ["date_sub", "subdate"]
    |>.withShape 2 (Reshape.operator "REGEXP") ["regexp_like"]
    |>.withShape 2 (Reshape.swapped "LOCATE") ["instr"]
  outbound := Rule.unitCalls "mysql" "TIMESTAMPDIFF" "TIMESTAMPADD" .word ++ [
    .onCall "mysql" "DAYOFWEEK_ISO" fun f =>
      match f.args with
      | [x] => some (.binary {} "+" (f.become "WEEKDAY" [x]) (.num "1"))
      | _ => none,
    .onCall "mysql" "ILOCATE" fun f =>
      match f.args with
      | x :: y :: rest =>
        some (f.become "LOCATE" (f.become "LOWER" [x] :: f.become "LOWER" [y] :: rest))
      | _ => none]

end SqlDialects.MySql
