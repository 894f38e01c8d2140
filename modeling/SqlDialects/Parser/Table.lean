import SqlDialects.Parser.Query
import SqlDialects.Tree.Statement

/-! Table definitions: columns, constraints and the clauses after them. What has a meaning in other
dialects is kept in a structured form, the rest as properties with their text. -/

namespace SqlDialects.Parser

def skipOptionalGroup : Parser Unit := do
  if ← curOp "(" then
    let _ ← skipGroup

def stringToken (what : String) : Parser String := do
  let t ← current
  if t.kind ≠ .string then expected what
  advance
  return t.text

/-! Constraints. -/

/-- Column names in parentheses, each with an optional length and direction. -/
def keyColumns : Parser (List Ident) := do
  expectOp "("
  let columns ← commaList do
    let column ← anyIdent
    skipOptionalGroup
    let _ ← acceptAny ["ASC", "DESC"]
    return column
  expectOp ")"
  return columns

def skipConstraintState : Parser Unit :=
  loop (fun () => do
    if ← acceptAny ["DISABLE", "ENABLE", "NOVALIDATE", "VALIDATE", "RELY", "NORELY", "USING",
        "BTREE", "HASH", "ENFORCED"] then return some ()
    if ← acceptSeq ["NOT", "ENFORCED"] then return some ()
    return none) ()

def skipReferentialActions : Parser Unit := do
  loop (fun () => do
    let c ← get
    if !(c.current.is "ON" && (c.peek.is "DELETE" || c.peek.is "UPDATE")) then return none
    advance
    advance
    if ← acceptSeq ["SET", "NULL"] then return some ()
    if ← acceptSeq ["SET", "DEFAULT"] then return some ()
    if ← acceptSeq ["NO", "ACTION"] then return some ()
    let _ ← acceptAny ["CASCADE", "RESTRICT"]
    return some ()) ()
  skipConstraintState

def typeFollows (d : Dialect) (c : Cursor) : Bool :=
  c.peek.isWord && d.types.contains c.peek.upper &&
    (!(c.ahead 2).isOp "(" || (c.ahead 3).kind == .number)

def endsElement (t : Token) : Bool := t.isOp "," || t.isOp ")"

def indexElement (pos : Position) (name : String) : Parser Constraint := do
  let _ ← acceptAny ["FULLTEXT", "SPATIAL"]
  let _ ← acceptAny ["KEY", "INDEX"]
  let name ← if ← curOp "(" then pure name else Ident.name <$> anyIdent
  skipGroupsUntil endsElement
  return { pos, kind := .index, name }

def foreignKey (d : Dialect) (pos : Position) (name : String) : Parser Constraint := do
  advance
  advance
  let columns ← identList
  expect "REFERENCES"
  let references ← qualifiedName d.toLexicon
  let refColumns ← if ← curOp "(" then identList else pure []
  skipReferentialActions
  return { pos, kind := .foreignKey, name, columns, references, refColumns }

def uniqueKey (pos : Position) (name : String) : Parser Constraint := do
  advance
  let _ ← acceptAny ["KEY", "INDEX"]
  let name ← do
    if ← curOp "(" then pure name
    else
      let own ← anyIdent
      pure (if name = "" then own.name else name)
  let columns ← keyColumns
  skipConstraintState
  return { pos, kind := .unique, name, columns }

def constraint? (d : Dialect) (g : Grammar) (pos : Position) (name : String) :
    Parser (Option Constraint) := do
  let c ← get
  let t := c.current
  let next := c.peek
  if t.is "PRIMARY" && next.is "KEY" then
    advance
    advance
    let columns ← keyColumns
    skipConstraintState
    return some { pos, kind := .primaryKey, name, columns }
  if t.is "UNIQUE" && (next.isOp "(" || next.is "KEY" || next.is "INDEX") then
    return some (← uniqueKey pos name)
  if t.is "FOREIGN" && next.is "KEY" then return some (← foreignKey d pos name)
  if t.is "CHECK" && next.isOp "(" then
    advance
    advance
    let condition ← g.value
    expectOp ")"
    return some { pos, kind := .check, name, condition := some condition }
  if ["KEY", "INDEX", "FULLTEXT", "SPATIAL"].any t.is && !typeFollows d c then
    return some (← indexElement pos name)
  return none

/-! Columns. -/

def aggregateFunctions : List String :=
  ["SUM", "MIN", "MAX", "REPLACE", "REPLACE_IF_NOT_NULL", "HLL_UNION", "BITMAP_UNION"]

/-- Whether the word at hand is the aggregate function of a column. -/
def isAggregateMark (c : Cursor) : Bool :=
  aggregateFunctions.any c.current.is &&
    (c.peek.isOp "," || c.peek.isOp ")" || ["NOT", "NULL", "DEFAULT", "COMMENT"].any c.peek.is)

def skipAttribute (d : Dialect) (g : Grammar) : Parser Bool := do
  let c ← get
  let t := c.current
  if ← acceptAny ["MATERIALIZED", "ALIAS", "EPHEMERAL"] then
    let _ ← g.expr Prec.comparison
    return true
  if ← accept "CODEC" then
    let _ ← skipGroup
    return true
  if ← acceptAny ["FORMAT", "TITLE"] then
    let _ ← stringToken "format string"
    return true
  if ← acceptAny ["CASESPECIFIC", "UPPERCASE"] then return true
  if ← acceptSeq ["NOT", "CASESPECIFIC"] then return true
  if ← accept "COMPRESS" then
    let value ← current
    if value.kind = .string || value.kind = .number then advance else skipOptionalGroup
    return true
  if ← acceptSeq ["CHARACTER", "SET"] then
    advance
    return true
  if ← acceptAny ["CHARSET", "COLLATE"] then
    advance
    return true
  if ← acceptSeq ["ON", "UPDATE"] then
    let _ ← g.expr Prec.comparison
    return true
  if ← accept "REFERENCES" then
    let _ ← qualifiedName d.toLexicon
    skipOptionalGroup
    skipReferentialActions
    return true
  if t.is "CHECK" && c.peek.isOp "(" then
    advance
    let _ ← skipGroup
    return true
  if t.is "GENERATED" then
    skipGroupsUntil endsElement
    return true
  if ← accept "CONSTRAINT" then
    let _ ← anyIdent
    return true
  if ← accept "KEY" then return true
  if isAggregateMark c then
    advance
    return true
  return false

def columnAttribute (d : Dialect) (g : Grammar) (column : ColumnDef) :
    Parser (Option ColumnDef) := do
  if ← acceptSeq ["NOT", "NULL"] then
    let disabled ← accept "DISABLE"
    let _ ← accept "ENABLE"
    return some { column with notNull := !disabled }
  if ← accept "NULL" then return some column
  if ← accept "DEFAULT" then
    let value ← g.expr Prec.comparison
    return some { column with defaultValue := some value }
  if ← acceptAny ["AUTO_INCREMENT", "AUTOINCREMENT", "IDENTITY"] then
    skipOptionalGroup
    return some { column with autoIncrement := true }
  if ← acceptSeq ["PRIMARY", "KEY"] then
    skipConstraintState
    return some { column with primaryKey := true }
  if ← accept "UNIQUE" then
    let _ ← accept "KEY"
    return some { column with unique := true }
  if ← accept "COMMENT" then
    let comment ← stringToken "comment string"
    return some { column with comment := some comment }
  if ← skipAttribute d g then return some column
  return none

/-- A name, a type and attributes in any order. -/
def columnDef (d : Dialect) (g : Grammar) : Parser ColumnDef := do
  let pos ← position
  let name ← anyIdent
  let type ← type d
  loop (columnAttribute d g) { pos, name, type }

/-- One entry of the column list. -/
def tableElement (d : Dialect) (g : Grammar) (table : CreateTable) : Parser CreateTable := do
  let pos ← position
  let name ← if ← accept "CONSTRAINT" then Ident.name <$> anyIdent else pure ""
  match ← constraint? d g pos name with
  | some constraint => return { table with constraints := table.constraints ++ [constraint] }
  | none =>
    let column ← columnDef d g
    return { table with columns := table.columns ++ [column] }

/-! Clauses after the columns. -/

def addProperty (table : CreateTable) (property : Property) : CreateTable :=
  { table with properties := table.properties ++ [property] }

def keepClause (table : CreateTable) (group : PropertyGroup) (key : String) (start : Nat)
    (value : Option Expr := none) : Parser CreateTable := do
  let raw ← rawFrom start
  return addProperty table { group, key, value, raw }

def keyExprs (g : Grammar) : Parser (List Expr) := do
  let more (first : Expr) : Parser (List Expr) := do
    if ← acceptOp "," then
      let rest ← g.values
      return first :: rest
    return [first]
  match ← g.value with
  | .struct pos names values => if names.isEmpty then return values else more (.struct pos names values)
  | .call f => if f.name = "TUPLE" then return f.args else more (.call f)
  | first => more first

/-- The unit of the last `EACH INTERVAL n unit` before the first closing parenthesis. -/
def eachUnit (tokens : List Token) : String :=
  let inner := tokens.takeWhile fun t => !t.isOp ")"
  let last := (inner.zipIdx.filter fun (t, _) => t.is "EACH").getLast?
  match last with
  | none => ""
  | some (_, i) =>
    if tokens[i + 1]?.any (·.is "INTERVAL") then (tokens[i + 3]?.map Token.upper).getD "" else ""

/-- `RANGE_N(column BETWEEN ... EACH ...)`, which partitions by its column. -/
def rangePartitions (auto : Bool) : Parser Partitioning := do
  advance
  let c ← get
  let column := c.peek
  let _ ← skipGroup
  if !column.isWord && !column.isQuoted then
    failAt column.pos "partition column" column.describe
  else
    return { auto, method := "RANGE", unit := eachUnit (c.current :: c.rest),
             exprs := [.column column.pos [⟨column.text, column.isQuoted⟩]] }

/-- `[AUTO] PARTITION BY`, over expressions or by ranges and lists of values. -/
def partitionBy (g : Grammar) : Parser Partitioning := do
  let auto ← accept "AUTO"
  advance
  advance
  let c ← get
  if c.current.is "RANGE_N" && c.peek.isOp "(" then return ← rangePartitions auto
  if ["RANGE", "LIST"].any c.current.is && c.peek.isOp "(" then
    advance
    let exprs ← g.group
    let definitions ← if ← curOp "(" then skipGroup else pure ""
    return { auto, method := c.current.upper, exprs, definitions }
  let exprs ← keyExprs g
  return { auto, exprs }

/-- One entry of `PARTITIONED BY`: a column with its type, or an expression. -/
def partitionedItem (d : Dialect) (g : Grammar) (p : Partitioning) : Parser Partitioning := do
  let c ← get
  if (c.current.isWord || c.current.isQuoted) && (c.peek.isWord || c.peek.isQuoted) then
    let column ← columnDef d g
    return { p with columns := p.columns ++ [column] }
  let e ← g.value
  return { p with exprs := p.exprs ++ [e] }

def commaFold {α : Type} (item : α → Parser α) (a : α) : Parser α := do
  let first ← item a
  loop (fun a => do
    if ← acceptOp "," then return some (← item a) else return none) first

def partitionedBy (d : Dialect) (g : Grammar) : Parser Partitioning := do
  expectOp "("
  let p ← commaFold (partitionedItem d g) {}
  expectOp ")"
  return p

def bucketCount : Parser Int := do
  let t ← current
  match if t.kind = .number then Decimal.readInt? t.text.toList else none with
  | some n =>
    if Decimal.fits 64 n then
      advance
      return n
    expected "bucket count"
  | none => expected "bucket count"

/-- `CLUSTERED BY (...) INTO n BUCKETS` and `DISTRIBUTED BY HASH(...)` or `RANDOM`. -/
def distributionBase : Parser Distribution := do
  let clustered ← curIs "CLUSTERED"
  advance
  advance
  if clustered then
    let columns ← identList
    if ← acceptSeq ["SORTED", "BY"] then
      let _ ← skipGroup
    expect "INTO"
    let buckets ← bucketCount
    expect "BUCKETS"
    return { columns, buckets }
  if ← accept "RANDOM" then return { random := true }
  expect "HASH"
  let columns ← identList
  return { columns }

def distribution : Parser Distribution := do
  let base ← distributionBase
  if !(← accept "BUCKETS") then return base
  if ← accept "AUTO" then return base
  let buckets ← bucketCount
  return { base with buckets }

/-- One `key [=] value` of a property list. -/
def propertyItem (d : Dialect) (g : Grammar) (group : PropertyGroup) (clause : String)
    (table : CreateTable) : Parser CreateTable := do
  let t ← current
  let key ← do
    if t.kind = .string || t.isQuoted then
      advance
      pure t.text
    else Ident.dotted <$> qualifiedName d.toLexicon
  let _ ← acceptOp "="
  let value ← g.value
  let raw ← rawFrom t.pos.offset
  return addProperty table { group, clause, key, value := some value, raw }

def propertyList (d : Dialect) (g : Grammar) (table : CreateTable) : Parser CreateTable := do
  let clause := (← current).upper
  advance
  if clause = "SETTINGS" then return ← commaFold (propertyItem d g .setting clause) table
  let group := if clause = "OPTIONS" then PropertyGroup.storage else .list
  expectOp "("
  let step := fun (state : CreateTable × Bool) => do
    if state.2 || (← curOp ")") then return none
    let table ← propertyItem d g group clause state.1
    return some (table, !(← acceptOp ","))
  let (table, _) ← loop step (table, false)
  expectOp ")"
  return table

def storageClause (table : CreateTable) (start : Nat) : Parser CreateTable := do
  if ← acceptSeq ["STORED", "AS"] then
    advance
    if ← accept "INPUTFORMAT" then
      advance
      if ← accept "OUTPUTFORMAT" then advance
    return ← keepClause table .storage "STORED AS" start
  if ← acceptSeq ["ROW", "FORMAT"] then
    skipGroupsUntil fun t =>
      t.isOp ";" || ["STORED", "LOCATION", "TBLPROPERTIES", "AS"].any t.is
    return ← keepClause table .storage "ROW FORMAT" start
  let word := (← current).upper
  advance
  advance
  keepClause table .storage word start

/-- `[DEFAULT] key [=] value`, where the key may be several words. -/
def optionClause (table : CreateTable) (start : Nat) : Parser CreateTable := do
  if !(← current).isWord then expected "table option"
  let _ ← accept "DEFAULT"
  let leading ← loop (fun words => do
    let c ← get
    if !(c.current.isWord && c.peek.isWord) then return none
    advance
    return some (c.current.upper :: words)) ([] : List String)
  let last ← current
  if !last.isWord then expected "table option"
  advance
  let _ ← acceptOp "="
  let t ← current
  let value? : Option Expr :=
    if t.kind = .number then some (.num t.text)
    else if t.kind = .string || t.isWord || t.isQuoted then some (.str t.text)
    else none
  if value?.isSome then advance
  keepClause table .option (" ".intercalate (last.upper :: leading).reverse) start value?

def primaryIndex (table : CreateTable) (start : Nat) : Parser CreateTable := do
  let _ ← accept "UNIQUE"
  advance
  expect "INDEX"
  if (← current).isWord then advance
  let columns ← identList
  keepClause { table with primaryIndex := columns } .other "PRIMARY INDEX" start

def engineClause (table : CreateTable) (start : Nat) : Parser CreateTable := do
  advance
  let _ ← acceptOp "="
  let engine ← anyIdent
  skipOptionalGroup
  keepClause table .engine "ENGINE" start (some (.str engine.name))

def layoutClause? (d : Dialect) (g : Grammar) (table : CreateTable) (start : Nat) :
    Parser (Option CreateTable) := do
  let c ← get
  let t := c.current
  let next := c.peek
  if t.is "ENGINE" then return some (← engineClause table start)
  if ← acceptSeq ["ORDER", "BY"] then
    let sortKey ← keyExprs g
    return some { table with sortKey }
  if ← acceptSeq ["SORTED", "BY"] then
    let _ ← skipGroup
    return some table
  if ← acceptSeq ["PRIMARY", "KEY"] then
    let _ ← keyExprs g
    return some (← keepClause table .other "PRIMARY KEY" start)
  if ← acceptSeq ["NO", "PRIMARY"] then
    expect "INDEX"
    return some (← keepClause table .other "NO PRIMARY INDEX" start)
  if (t.is "PRIMARY" && next.is "INDEX") || (t.is "UNIQUE" && next.is "PRIMARY") then
    return some (← primaryIndex table start)
  if (t.is "INDEX" && next.isOp "(") || (t.is "UNIQUE" && next.is "INDEX") then
    let _ ← accept "UNIQUE"
    advance
    let _ ← skipGroup
    return some (← keepClause table .other "INDEX" start)
  if ["DUPLICATE", "UNIQUE", "AGGREGATE"].any t.is && next.is "KEY" then
    advance
    advance
    let columns ← identList
    return some { table with keyModel := some ⟨t.upper, columns⟩ }
  if (t.is "AUTO" && next.is "PARTITION") || (t.is "PARTITION" && next.is "BY") then
    let p ← partitionBy g
    return some { table with partitioning := some p }
  if ← acceptSeq ["PARTITIONED", "BY"] then
    let p ← partitionedBy d g
    return some { table with partitioning := some p }
  if (t.is "CLUSTERED" || t.is "DISTRIBUTED") && next.is "BY" then
    let p ← distribution
    return some { table with distribution := some p }
  return none

def tableClause (d : Dialect) (g : Grammar) (table : CreateTable) : Parser CreateTable := do
  let start := (← position).offset
  if let some table ← layoutClause? d g table start then return table
  let c ← get
  let t := c.current
  if ← accept "COMMENT" then
    let _ ← acceptOp "="
    let comment ← stringToken "comment string"
    return { table with comment := some comment }
  if ["PROPERTIES", "TBLPROPERTIES", "WITH", "OPTIONS", "SETTINGS"].any t.is then
    return ← propertyList d g table
  if ← accept "TTL" then
    let _ ← g.values
    return ← keepClause table .other "TTL" start
  if (t.is "STORED" && c.peek.is "AS") || (t.is "ROW" && c.peek.is "FORMAT") ||
      t.is "LOCATION" || t.is "USING" then
    return ← storageClause table start
  optionClause table start

/-! The definition as a whole. -/

def skipDataClause : Parser Unit := do
  if !(← acceptSeq ["WITH", "DATA"]) then
    let _ ← acceptSeq ["WITH", "NO", "DATA"]

/-- Options between the name and the columns, each after a comma. -/
def leadingOptions (table : CreateTable) : Parser CreateTable :=
  loop (fun table => do
    if !(← acceptOp ",") then return none
    let start := (← position).offset
    skipWhile fun t => !t.isOp "," && !t.isOp "("
    let raw ← rawFrom start
    return some (addProperty table { group := .leading, raw })) table

/-- `AS source WITH [NO] DATA`, after its first word: a copy of a table or of its definition. -/
def copyOfTable (d : Dialect) (table : CreateTable) : Parser CreateTable := do
  let pos ← position
  let source ← qualifiedName d.toLexicon
  if ← acceptSeq ["WITH", "DATA"] then
    let query := Query.select
      { pos, items := [{ expr := .star pos [] }], source := some (.ref pos source none false) }
    return { table with query := some query }
  let _ ← acceptSeq ["WITH", "NO", "DATA"]
  return { table with like := source }

def clauseStep (d : Dialect) (g : Grammar) (state : CreateTable × Bool) :
    Parser (Option (CreateTable × Bool)) := do
  let (table, finished) := state
  let t ← current
  if finished || t.isFinish || t.isOp ";" then return none
  if ← accept "AS" then
    let query ← g.query
    skipDataClause
    return some ({ table with query := some query }, true)
  if t.isOp "(" then
    let query ← g.query
    return some ({ table with query := some query }, true)
  return some (← tableClause d g table, false)

def tableDefinition (d : Dialect) (g : Grammar) (flags : CreateTable) : Parser CreateTable := do
  let ifNotExists ← acceptSeq ["IF", "NOT", "EXISTS"]
  let name ← qualifiedName d.toLexicon
  if ← acceptSeq ["ON", "CLUSTER"] then
    let _ ← anyIdent
  let table ← leadingOptions { flags with ifNotExists, name }
  if ← accept "LIKE" then
    let like ← qualifiedName d.toLexicon
    return { table with like }
  let c ← get
  if c.current.is "AS" && !c.peek.is "SELECT" && !c.peek.is "WITH" && !c.peek.isOp "(" then
    advance
    return ← copyOfTable d table
  let table ← do
    if c.current.isOp "(" && !c.peek.is "SELECT" && !c.peek.is "WITH" then
      advance
      let table ← commaFold (tableElement d g) table
      expectOp ")"
      pure table
    else pure table
  let (table, _) ← loop (clauseStep d g) (table, false)
  return table

end SqlDialects.Parser
