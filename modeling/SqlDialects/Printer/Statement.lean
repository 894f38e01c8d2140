import SqlDialects.Printer.Expr
import SqlDialects.Tree.Statement

/-! Printing statements. The clauses of a table follow the target's conventions: engine, key,
comment, partitions, order, buckets, storage and options, then lists of properties. -/

namespace SqlDialects

namespace Printer

/-! Columns and constraints. -/

def comment (p : Printer) (text : Option String) : String :=
  clause " COMMENT " (text.map p.string)

def columnDef (p : Printer) (c : ColumnDef) : Except Error String := do
  let type ← p.typeSpec c.type
  let value ← match c.defaultValue with
    | none => pure ""
    | some e => do pure (" DEFAULT " ++ (← p.exprAt (Prec.comparison + 1) e))
  return p.ident c.name ++ " " ++ type ++ (if c.notNull then " NOT NULL" else "") ++
    (if c.autoIncrement then " AUTO_INCREMENT" else "") ++ value ++
    (if c.primaryKey then " PRIMARY KEY" else "") ++ (if c.unique then " UNIQUE" else "") ++
    p.comment c.comment

def keyConstraint (p : Printer) (words : String) (c : Constraint) : String :=
  let name := if c.name = "" then "" else "CONSTRAINT " ++ p.ident ⟨c.name, false⟩ ++ " "
  ", " ++ name ++ words ++ " (" ++ p.idents c.columns ++ ")"

/-- A constraint with the comma before it. Indexes whose columns are unknown are left out. -/
def constraint (p : Printer) (c : Constraint) : Except Error String := do
  match c.kind with
  | .primaryKey => return p.keyConstraint "PRIMARY KEY" c
  | .unique => return p.keyConstraint "UNIQUE" c
  | .foreignKey =>
    return ", FOREIGN KEY (" ++ p.idents c.columns ++ ") REFERENCES " ++ p.path c.references ++
      p.columnList c.refColumns
  | .check =>
    match c.condition with
    | none => return ""
    | some e => return ", CHECK (" ++ (← p.expr e) ++ ")"
  | .index =>
    return if c.columns.isEmpty then ""
      else ", INDEX " ++ p.ident ⟨c.name, false⟩ ++ " (" ++ p.idents c.columns ++ ")"

/-! Clauses of a table. -/

def inKey (p : Printer) : Printer := { p with keyed := p.dialect.hints.keyModels }

def partitionColumn (p : Printer) (c : ColumnDef) : Except Error String := do
  return p.ident c.name ++ " " ++ (← p.typeSpec c.type) ++ p.comment c.comment

def partitioning (p : Printer) (spec : Partitioning) : Except Error String := do
  if p.dialect.hints.hivePartitions then
    let columns ← spec.columns.mapM p.partitionColumn
    let exprs ← p.exprs spec.exprs
    return "PARTITIONED BY (" ++ commas (columns ++ exprs) ++ ")"
  let exprs := spec.exprs ++ spec.columns.map fun c => .column c.pos [c.name]
  let head := (if spec.auto then "AUTO " else "") ++ "PARTITION BY "
  if spec.method = "" then
    let texts ← p.exprs exprs
    return head ++ paren (texts.length != 1) (commas texts)
  let texts ← p.inKey.exprs exprs
  return head ++ spec.method ++ " (" ++ ",".intercalate texts ++ ") " ++
    (if spec.definitions = "" then "()" else spec.definitions)

def distribution (p : Printer) (separator : String) (spec : Distribution) : String :=
  if p.dialect.hints.keyModels then
    separator ++ "DISTRIBUTED BY " ++
      (if spec.random || spec.columns.isEmpty then "RANDOM"
        else "HASH(" ++ p.inKey.idents spec.columns ++ ")") ++
      " BUCKETS " ++ (if spec.buckets > 0 then spec.buckets.repr else "AUTO")
  else if p.dialect.hints.hivePartitions && !spec.columns.isEmpty && spec.buckets > 0 then
    separator ++ "CLUSTERED BY (" ++ p.idents spec.columns ++ ") INTO " ++ spec.buckets.repr ++
      " BUCKETS"
  else ""

/-- The order of the table's rows. -/
def sortKey (p : Printer) (separator : String) (exprs : List Expr) : Except Error String := do
  if exprs.isEmpty || !p.dialect.hints.sortKeys then return ""
  let texts ← p.exprs exprs
  return separator ++ "ORDER BY " ++ paren (texts.length != 1) (commas texts)

def rawProperties (separator keyword join : String) (group : PropertyGroup)
    (properties : List Property) : String :=
  let texts := (properties.filter fun x => x.group == group && x.raw != "").map Property.raw
  if texts.isEmpty then "" else separator ++ keyword ++ join.intercalate texts

/-- One property as a pair of quoted texts, or as it was written. -/
def keyValue (p : Printer) (x : Property) : String :=
  if p.dialect.hints.keyModels || x.raw = "" then Text.quote x.key ++ " = " ++ Text.quote x.valueText
  else x.raw

/-- The word that introduces a property's list. -/
def clauseOf (x : Property) : String := if x.clause = "" then "PROPERTIES" else x.clause

/-- The lists of properties, one for each introducing word in the order of their first property. -/
def propertyLists (p : Printer) (separator : String) (properties : List Property) : String :=
  let listed := properties.filter fun x => x.group == .list
  let clauses := (listed.map clauseOf).eraseDups
  let text (word : String) : String :=
    let pairs := (listed.filter fun x => clauseOf x == word).map p.keyValue
    let body := if p.dialect.hints.multilineTables then
        ",".intercalate (pairs.map fun pair => "\n" ++ p.indent ++ pair) ++ "\n"
      else commas pairs
    separator ++ word ++ " (" ++ body ++ ")"
  String.join (clauses.map text)

/-- A table's columns and constraints in parentheses. -/
def tableBody (p : Printer) (t : CreateTable) : Except Error String := do
  if t.columns.isEmpty then return ""
  let columns ← t.columns.mapM p.columnDef
  let constraints ← t.constraints.mapM p.constraint
  return " (" ++ commas columns ++ String.join constraints ++ ")"

/-- Whether nothing but a query says what the table is. -/
def isBareCopy (t : CreateTable) : Bool :=
  t.columns.isEmpty && t.keyModel.isNone && t.partitioning.isNone && t.distribution.isNone &&
    t.properties.isEmpty

/-- Everything up to the columns. -/
def tableHead (p : Printer) (t : CreateTable) : String :=
  let hints := p.dialect.hints
  let options := if hints.tableOptions then
      (t.properties.filter fun x => x.group == .leading).map fun x => ", " ++ x.raw
    else []
  "CREATE " ++ (if t.temporary then "TEMPORARY " else "") ++
    (if t.external && hints.hivePartitions then "EXTERNAL " else "") ++
    (if t.rowSemantics != "" && hints.tableOptions then t.rowSemantics ++ " " else "") ++
    "TABLE " ++ (if t.ifNotExists then "IF NOT EXISTS " else "") ++ p.path t.name ++
    String.join options

def keyModel (p : Printer) (separator : String) : Option KeyModel → String
  | none => ""
  | some model =>
    if p.dialect.hints.keyModels then
      separator ++ model.kind ++ " KEY(" ++ p.inKey.idents model.columns ++ ")"
    else ""

def tableClauses (p : Printer) (separator : String) (t : CreateTable) : Except Error String := do
  let partitions ← match t.partitioning with
    | none => pure ""
    | some spec => do pure (separator ++ (← p.partitioning spec))
  let sortKey ← p.sortKey separator t.sortKey
  let query ← match t.query with
    | none => pure ""
    | some q => do
      let separator := if isBareCopy t then " " else separator
      pure (separator ++ "AS " ++ (← p.queryText q))
  return rawProperties separator "" " " .engine t.properties ++ p.keyModel separator t.keyModel ++
    clause (separator ++ "COMMENT ") (t.comment.map p.string) ++ partitions ++ sortKey ++
    clause "" (t.distribution.map (p.distribution separator)) ++
    rawProperties separator "" separator .storage t.properties ++
    rawProperties separator "" " " .option t.properties ++
    rawProperties separator "" separator .other t.properties ++
    p.propertyLists separator t.properties ++
    rawProperties separator "SETTINGS " ", " .setting t.properties ++ query

def createTable (p : Printer) (t : CreateTable) : Except Error String := do
  if !t.like.isEmpty then return p.tableHead t ++ " LIKE " ++ p.path t.like
  let body ← p.tableBody t
  let separator := if p.dialect.hints.multilineTables then "\n" else " "
  return p.tableHead t ++ body ++ (← p.tableClauses separator t)

/-! Other statements. -/

def insert (p : Printer) (i : Insert) : Except Error String := do
  let head := (if i.overwrite then "INSERT OVERWRITE TABLE " else "INSERT INTO ") ++
    p.path i.table ++ p.columnList i.columns
  match i.query with
  | some q => return head ++ " " ++ (← p.queryText q)
  | none =>
    let rows ← i.rows.mapM fun row => do return "(" ++ commas (← p.exprs row) ++ ")"
    return head ++ " VALUES " ++ commas rows

def createView (p : Printer) (v : CreateView) : Except Error String := do
  return "CREATE " ++ (if v.orReplace then "OR REPLACE " else "") ++
    (if v.temporary then "TEMPORARY " else "") ++ "VIEW " ++
    (if v.ifNotExists then "IF NOT EXISTS " else "") ++ p.path v.name ++ p.columnList v.columns ++
    " AS " ++ (← p.queryText v.query)

def statement (p : Printer) : Statement → Except Error String
  | .query q => p.queryText q
  | .insert i => p.insert i
  | .createTable t => p.createTable t
  | .createView v => p.createView v
  | .drop _ object ifExists name =>
    .ok ("DROP " ++ object ++ " " ++ (if ifExists then "IF EXISTS " else "") ++ p.path name)
  | .explain _ mode s => do
    return "EXPLAIN " ++ (if mode = "" then "" else mode ++ " ") ++ (← p.statement s)
  | .expression _ e => p.expr e

end Printer

end SqlDialects
