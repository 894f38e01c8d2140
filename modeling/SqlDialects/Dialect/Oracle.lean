import SqlDialects.Dialect.Ansi
import SqlDialects.Function.Shared
import SqlDialects.Profile

/-! Oracle. -/

namespace SqlDialects.Oracle

/-- A number with its precision and scale. A negative scale, which rounds left of the point, is
dropped. -/
def number : TypeRule := fun n =>
  let params := match n.intParams with
    | [p, s] => if s < 0 then [p] else [p, s]
    | params => params
  .ok { pos := n.pos, name := "DECIMAL", params }

/-- A reader of dates; without a pattern it takes the default one. -/
def toDate : Reshape := fun f =>
  match f.args with
  | [x] => .ok (f.become "STR_TO_DATE" [x, .str "%Y-%m-%d %T"])
  | _ => Reshape.formatArg "STR_TO_DATE" 1 .oracle f

def truncCall (f : Call) : Option Expr :=
  match f.args with
  | [x, .literal _ _ value] => do
    let unit ← DateUnit.ofText? value
    let model ← Reshape.truncModels.lookup unit
    some (f.become "TRUNC" [x, .str model])
  | _ => none

def profile : Profile where
  dialect :=
    { Ansi.dialect "oracle" with
      formats := .oracle
      typeParams := ["DECIMAL", "VARCHAR", "DATETIME"]
      hints := { fetchFirst := true, bareTableLabels := true } }
    |>.withNiladic [("SYSDATE", "NOW"), ("SYSTIMESTAMP", "NOW")]
    |>.withReserved ["LEVEL", "ROWNUM", "ROWID", "START", "CONNECT", "MINUS"]
    |>.withType number ["NUMBER"]
    |>.withType (.plain "DECIMAL") ["FLOAT"]
    |>.withType (.plain "FLOAT") ["BINARY_FLOAT"]
    |>.withType (.plain "DOUBLE") ["BINARY_DOUBLE"]
    |>.withType .varchar ["VARCHAR2", "NVARCHAR2"]
    |>.withType (.keep "CHAR") ["NCHAR"]
    |>.withType (.keep "DATETIME") ["DATE"]
    |>.withType (.plain "STRING")
      ["CLOB", "NCLOB", "BLOB", "LONG", "RAW", "LONG RAW", "ROWID", "UROWID", "XMLTYPE"]
    |>.withType (.plain "GEOMETRY") ["SDO_GEOMETRY"]
    |>.withTypeNames [
      ("TINYINT", "NUMBER"), ("SMALLINT", "NUMBER"), ("INT", "NUMBER"), ("BIGINT", "NUMBER"),
      ("LARGEINT", "NUMBER"), ("DECIMAL", "NUMBER"), ("FLOAT", "BINARY_FLOAT"),
      ("DOUBLE", "BINARY_DOUBLE"), ("STRING", "CLOB"), ("VARCHAR", "VARCHAR2"),
      ("BINARY", "BLOB"), ("DATETIME", "TIMESTAMP"), ("TIME", "VARCHAR2"),
      ("INTERVAL", "INTERVAL DAY TO SECOND"), ("JSONB", "JSON"), ("IPV4", "VARCHAR2"),
      ("IPV6", "VARCHAR2"), ("UUID", "RAW"), ("GEOMETRY", "SDO_GEOMETRY")]
    |>.withoutTypes ["ARRAY", "MAP", "STRUCT", "BITMAP", "HLL"]
    |>.withPairs [
      ("MONTHS_ADD", "add_months"), ("MONTHS_BETWEEN", "months_between"),
      ("GROUP_CONCAT", "listagg"), ("LENGTH", "lengthb"), ("CHAR_LENGTH", "length"),
      ("UUID", "sys_guid"), ("TRUNCATE", "trunc")]
    |>.withRenames [
      ("nvl", "COALESCE"), ("wm_concat", "GROUP_CONCAT"), ("bitand", "BITAND"),
      ("initcap", "INITCAP"), ("regexp_count", "REGEXP_COUNT")]
    |>.withSpellings [("IFNULL", "COALESCE")]
    |>.withShape 1 Reshape.truncDateOrNumber ["trunc"]
    |>.withShape 1 toDate ["to_date", "to_timestamp"]
    |>.withShape 1 (Reshape.toChar .oracle) ["to_char"]
    |>.withShape 1 (Reshape.castTo (.named "DOUBLE")) ["to_number", "to_binary_double"]
    |>.withShape 3 Reshape.nvl2 ["nvl2"]
    |>.withShape 3 Reshape.decode ["decode"]
    |>.withShape 2 (Reshape.swapped "LOCATE") ["instr"]
    |>.withShape 2 (Reshape.operator "REGEXP") ["regexp_like"]
  outbound := [
    .format "oracle" "DATE_FORMAT" "TO_CHAR" 1 .oracle,
    .format "oracle" "STR_TO_DATE" "TO_DATE" 1 .oracle,
    .native "oracle" "LOCATE" "INSTR" [1, 0],
    .onCall "oracle" "DATE_TRUNC" truncCall]

end SqlDialects.Oracle
