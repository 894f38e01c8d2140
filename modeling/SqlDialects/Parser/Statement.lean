import SqlDialects.Parser.Table

/-! Statements and whole texts. -/

namespace SqlDialects

namespace Parser

def dropStatement (d : Dialect) : Parser Statement := do
  let pos ← position
  advance
  let object ← do
    if ← accept "TABLE" then pure "TABLE"
    else if ← accept "VIEW" then pure "VIEW"
    else expected "TABLE or VIEW"
  let ifExists ← acceptSeq ["IF", "EXISTS"]
  let name ← qualifiedName d.toLexicon
  return .drop pos object ifExists name

/-- An insertion of rows or of a query's result. A partition named for it is skipped: the target
derives partitions from the data. -/
def insertStatement (d : Dialect) (g : Grammar) : Parser Statement := do
  let pos ← position
  advance
  let overwrite ← accept "OVERWRITE"
  if !overwrite then
    if !(← accept "INTO") then expected "INTO or OVERWRITE"
  let _ ← accept "TABLE"
  let table ← qualifiedName d.toLexicon
  if ← accept "PARTITION" then
    let _ ← skipGroup
  let c ← get
  let columns ← do
    if c.current.isOp "(" && !c.peek.is "SELECT" && !c.peek.is "WITH" then identList else pure []
  if ← acceptAny ["VALUES", "VALUE"] then
    let rows ← commaList g.group
    return .insert { pos, overwrite, table, columns, rows }
  let query ← g.query
  return .insert { pos, overwrite, table, columns, query := some query }

def viewStatement (d : Dialect) (g : Grammar) (pos : Position) (orReplace temporary : Bool) :
    Parser Statement := do
  let ifNotExists ← acceptSeq ["IF", "NOT", "EXISTS"]
  let name ← qualifiedName d.toLexicon
  let columns ← if ← curOp "(" then identList else pure []
  expect "AS"
  let query ← g.query
  return .createView { pos, orReplace, temporary, ifNotExists, name, columns, query }

def createStatement (d : Dialect) (g : Grammar) : Parser Statement := do
  let pos ← position
  advance
  let orReplace ← acceptSeq ["OR", "REPLACE"]
  let _ ← acceptAny ["GLOBAL", "LOCAL"]
  let temporary ← acceptAny ["TEMPORARY", "TEMP", "VOLATILE"]
  let external ← accept "EXTERNAL"
  let t ← current
  let rowSemantics ← if ← acceptAny ["MULTISET", "SET"] then pure t.upper else pure ""
  if ← accept "VIEW" then return ← viewStatement d g pos orReplace temporary
  if ← accept "TABLE" then
    let flags := { pos, temporary, external, rowSemantics, name := [] }
    return .createTable (← tableDefinition d g flags)
  expected "TABLE or VIEW"

/-- Runs a parser; a fault of the grammar at the place where it started says that a statement was
expected there. -/
def expectingStatement {α : Type} (p : Parser α) : Parser α := fun c =>
  match p c with
  | .error (.parse e) =>
    .error (.parse (if e.pos = c.current.pos then { e with expected := "statement" } else e))
  | outcome => outcome

/-- A bare expression. One word with more input after it is no statement at all. -/
def expressionStatement (g : Grammar) : Parser Statement := do
  let first ← current
  if first.isFinish then expected "statement"
  let e ← expectingStatement g.value
  let t ← current
  if t.isFinish || t.isOp ";" then return .expression first.pos e
  match e with
  | .column _ [_] => failAt first.pos "statement" first.describe
  | _ => expected "end of statement"

/-- A statement that is neither `DROP` nor `EXPLAIN`. -/
def plainStatement (d : Dialect) (g : Grammar) : Parser Statement := do
  let c ← get
  let t := c.current
  if t.is "SELECT" || t.is "WITH" ||
      (t.isOp "(" && (c.peek.is "SELECT" || c.peek.is "WITH" || c.peek.isOp "(")) then
    return .query (← g.query)
  if t.is "INSERT" then return ← insertStatement d g
  if t.is "CREATE" then return ← createStatement d g
  expressionStatement g

def explainStatement (d : Dialect) (g : Grammar) : Parser Statement := do
  let pos ← position
  advance
  let mode ← loop (fun mode => do
    let t ← current
    if !t.isWord || ["SELECT", "WITH", "INSERT", "CREATE"].any t.is then return none
    advance
    return some (t.upper :: mode)) ([] : List String)
  let statement ← plainStatement d g
  return .explain pos (" ".intercalate mode.reverse) statement

def statement (d : Dialect) (g : Grammar) : Parser Statement := do
  if ← curIs "DROP" then return ← dropStatement d
  if ← curIs "EXPLAIN" then return ← explainStatement d g
  plainStatement d g

/-- Exactly one statement, with an optional semicolon. -/
def oneStatement (d : Dialect) (g : Grammar) : Parser Statement := do
  let s ← statement d g
  let _ ← acceptOp ";"
  if !(← atEnd) then expected "end of statement"
  return s

def script (d : Dialect) (g : Grammar) : Parser (List Statement) := do
  let statements ← loop (fun statements => do
    loop (fun () => do if ← acceptOp ";" then return some () else return none) ()
    if ← atEnd then return none
    let s ← statement d g
    if !(← curOp ";") && !(← atEnd) then expected "\";\""
    return some (s :: statements)) []
  return statements.reverse

def wholeExpression (g : Grammar) : Parser Expr := do
  let e ← g.value
  if !(← atEnd) then expected "end of expression"
  return e

/-- Runs a parser over the tokens of a text. -/
def run {α : Type} (d : Dialect) (p : Grammar → Parser α) (sql : String) : Except Error α := do
  let c ← Cursor.ofText d.toLexicon sql
  (p (grammarFor d c)).run' c

end Parser

namespace Statement

def parse (d : Dialect) (sql : String) : Except Error Statement :=
  Parser.run d (Parser.oneStatement d) sql

/-- Reads a script. -/
def parseAll (d : Dialect) (sql : String) : Except Error (List Statement) :=
  Parser.run d (Parser.script d) sql

end Statement

def Expr.parse (d : Dialect) (sql : String) : Except Error Expr :=
  Parser.run d Parser.wholeExpression sql

end SqlDialects
