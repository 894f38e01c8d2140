import SqlDialects.Parser.Expr

/-! Queries and the tables they read. -/

namespace SqlDialects.Parser

def clauseWords : List String := [
  "FROM", "WHERE", "GROUP", "HAVING", "ORDER", "LIMIT", "OFFSET", "UNION", "INTERSECT", "EXCEPT",
  "MINUS", "JOIN", "INNER", "LEFT", "RIGHT", "FULL", "CROSS", "OUTER", "SEMI", "ANTI", "ANY",
  "GLOBAL", "ON", "USING", "LATERAL", "WINDOW", "QUALIFY", "FINAL", "ARRAY", "SETTINGS", "FORMAT",
  "INTO", "VALUES", "AS", "WHEN", "THEN", "ELSE", "END", "AND", "OR", "NOT", "IS", "IN", "LIKE",
  "BETWEEN", "FETCH", "PARTITION", "SAMPLE", "PREWHERE"]

/-- Whether a token can name what stands before it without `AS`. -/
def startsLabel (lexicon : Lexicon) (t : Token) : Bool :=
  t.isQuoted || (t.isWord && isName lexicon t && !clauseWords.contains t.upper)

/-- `[AS] name`. After `AS` the name may be any word or a string. -/
def label? (lexicon : Lexicon) : Parser (Option Ident) := do
  if ← accept "AS" then
    let t ← current
    if t.kind = .string then
      advance
      return some ⟨t.text, true⟩
    return some (← anyIdent)
  if startsLabel lexicon (← current) then return some (← ident lexicon)
  return none

/-! Tables. -/

def joinKinds : List (String × String) := [
  ("INNER", ""), ("LEFT", "LEFT "), ("RIGHT", "RIGHT "), ("FULL", "FULL "), ("CROSS", "CROSS ")]

def joinWords : Parser String := do
  let _ ← accept "GLOBAL"
  let _ ← acceptAny ["ALL", "ANY"]
  let t ← current
  match if t.isWord then joinKinds.lookup t.upper else none with
  | none => return "JOIN"
  | some side =>
    advance
    let form ← do
      if ← accept "SEMI" then pure "SEMI JOIN"
      else if ← accept "ANTI" then pure "ANTI JOIN"
      else pure "JOIN"
    let _ ← accept "OUTER"
    return side ++ form

def joinKind? : Parser (Option String) := do
  let c ← get
  if c.current.is "ARRAY" || (c.current.is "LEFT" && c.peek.is "ARRAY") then return none
  let kind ← joinWords
  if ← accept "JOIN" then return some kind
  set c
  return none

def tableStep (d : Dialect) (g : Grammar) : Parser TableExpr := do
  let c ← get
  let pos := c.current.pos
  if c.current.isOp "(" then
    advance
    if c.peek.is "SELECT" || c.peek.is "WITH" || c.peek.isOp "(" then
      let query ← g.query
      expectOp ")"
      return .derived pos query (← label? d.toLexicon)
    let tables ← g.tables
    expectOp ")"
    return tables
  let name ← tableName d.toLexicon
  if ← curOp "(" then
    match ← functionCall d g pos (Ident.dotted name) with
    | .call call => return .function pos call (← label? d.toLexicon)
    | other => failAt pos "table function" other.kind
  else
    let before ← accept "FINAL"
    let label ← label? d.toLexicon
    let final ← if before then pure true else accept "FINAL"
    return .ref pos name label final

def joinStep (d : Dialect) (g : Grammar) (left : TableExpr) : Parser (Option TableExpr) := do
  let pos ← position
  if ← acceptOp "," then
    let right ← tableStep d g
    return some (.join pos "," left right none [])
  match ← joinKind? with
  | none => return none
  | some kind =>
    let right ← tableStep d g
    if ← accept "ON" then
      let condition ← g.value
      return some (.join pos kind left right (some condition) [])
    if ← accept "USING" then
      let shared ← identList
      return some (.join pos kind left right none shared)
    return some (.join pos kind left right none [])

def tablesStep (d : Dialect) (g : Grammar) : Parser TableExpr := do
  let first ← tableStep d g
  loop (joinStep d g) first

/-! Views that unfold an array beside each row. -/

/-- `LATERAL VIEW [OUTER] function(...) table [AS] columns`, after its first two words. -/
def lateralView (d : Dialect) (g : Grammar) (pos : Position) : Parser LateralView := do
  let outer ← accept "OUTER"
  match ← g.value with
  | .call function =>
    let table ← ident d.toLexicon
    let _ ← accept "AS"
    let columns ← commaList anyIdent
    return { pos, function, outer, table, columns }
  | other => failAt pos "table generating function" other.kind

def arrayJoinItem (d : Dialect) (g : Grammar) (outer : Bool) : Parser LateralView := do
  let pos ← position
  let e ← g.value
  let label ← label? d.toLexicon
  let column := label.getD <| match e with
    | .column _ path => ⟨(path.getLast?.map Ident.name).getD "", false⟩
    | _ => ⟨"col", false⟩
  return { pos, outer, function := { pos, name := "EXPLODE", args := [e] }, table := ⟨"tmp", false⟩,
           columns := [column] }

def lateralViews? (d : Dialect) (g : Grammar) : Parser (Option (List LateralView)) := do
  let pos ← position
  if ← acceptSeq ["LATERAL", "VIEW"] then return some [← lateralView d g pos]
  if ((← curIs "ARRAY") && (← peekIs "JOIN")) || ((← curIs "LEFT") && (← peekIs "ARRAY")) then
    let outer ← accept "LEFT"
    advance
    advance
    return some (← commaList (arrayJoinItem d g outer))
  return none

/-! Queries. -/

def selectItem (d : Dialect) (g : Grammar) : Parser SelectItem := do
  let pos ← position
  if ← acceptOp "*" then return { expr := .star pos [] }
  let expr ← g.value
  let label ← label? d.toLexicon
  return { expr, label }

def selectStep (d : Dialect) (g : Grammar) : Parser Select := do
  let pos ← position
  expect "SELECT"
  let distinct ← accept "DISTINCT"
  if !distinct then
    let _ ← accept "ALL"
  let limit ← if ← accept "TOP" then some <$> g.operand else pure none
  let items ← commaList (selectItem d g)
  let source ← if ← accept "FROM" then some <$> tablesStep d g else pure none
  let lateralViews ← loop (fun views => do
    match ← lateralViews? d g with
    | some more => return some (views ++ more)
    | none => return none) []
  let condition ← if ← acceptAny ["PREWHERE", "WHERE"] then some <$> g.value else pure none
  let groupBy ← do
    if ← accept "GROUP" then
      expect "BY"
      g.values
    else pure []
  let having ← if ← accept "HAVING" then some <$> g.value else pure none
  return { pos, distinct, items, source, lateralViews, condition, groupBy, having, limit }

def queryTerm (d : Dialect) (g : Grammar) : Parser Query := do
  if ← acceptOp "(" then
    let query ← g.query
    expectOp ")"
    return query
  return .select (← selectStep d g)

structure QueryTail where
  orderBy : List OrderItem := []
  limit : Option Expr := none
  offset : Option Expr := none

def limitClause (g : Grammar) (tail : QueryTail) : Parser QueryTail := do
  if !(← accept "LIMIT") then return tail
  let first ← g.value
  if ← acceptOp "," then
    let limit ← g.value
    return { tail with limit := some limit, offset := some first }
  return { tail with limit := some first }

def offsetClause (g : Grammar) (tail : QueryTail) : Parser QueryTail := do
  if !(← accept "OFFSET") then return tail
  let offset ← g.value
  let _ ← acceptAny ["ROW", "ROWS"]
  return { tail with offset := some offset }

/-- `FETCH FIRST n ROWS ONLY`. -/
def fetchClause (g : Grammar) (tail : QueryTail) : Parser QueryTail := do
  if !(← accept "FETCH") then return tail
  let _ ← acceptAny ["FIRST", "NEXT"]
  let limit ← g.value
  let _ ← acceptAny ["ROW", "ROWS"]
  expect "ONLY"
  return { tail with limit := some limit }

def queryTail (g : Grammar) : Parser QueryTail := do
  let orderBy ← if ← curIs "ORDER" then orderClause g else pure []
  fetchClause g (← offsetClause g (← limitClause g { orderBy }))

/-- A tail of a select replaces only the parts that it has; a tail of a set operation replaces
them all, and an offset has no place there. -/
def QueryTail.addTo (tail : QueryTail) : Query → Query
  | .select s => .select { s with
      orderBy := if tail.orderBy.isEmpty then s.orderBy else tail.orderBy
      limit := tail.limit.orElse fun _ => s.limit
      offset := tail.offset.orElse fun _ => s.offset }
  | .setOp pos op all left right _ _ => .setOp pos op all left right tail.orderBy tail.limit

def groupThenLabel (depth : Nat) : List Token → Bool
  | [] => false
  | t :: ts =>
    if t.isFinish then false
    else if t.isOp "(" then groupThenLabel (depth + 1) ts
    else if t.isOp ")" then
      if depth ≤ 1 then
        ts.head?.any (·.is "AS") && !(ts.drop 1).head?.any (·.isOp "(")
      else groupThenLabel (depth - 1) ts
    else groupThenLabel depth ts

/-- One entry of `WITH`: `name [(columns)] AS (query)` or `value AS name`. -/
def withEntry (d : Dialect) (g : Grammar) : Parser Cte := do
  let c ← get
  let named := isName d.toLexicon c.current &&
    ((c.peek.is "AS" && (c.ahead 2).isOp "(") || (c.peek.isOp "(" && !groupThenLabel 0 c.rest))
  if named then
    let name ← ident d.toLexicon
    let columns ← if ← curOp "(" then identList else pure []
    expect "AS"
    expectOp "("
    let query ← g.query
    expectOp ")"
    return { name, columns, body := .query query }
  let value ← g.value
  expect "AS"
  let name ← ident d.toLexicon
  return { name, body := .scalar value }

/-- The entries of a `WITH`, if there is one. -/
def withClause (d : Dialect) (g : Grammar) : Parser (List Cte) := do
  if !(← accept "WITH") then return []
  let _ ← accept "RECURSIVE"
  commaList (withEntry d g)

/-- Entries of a `WITH` belong to the leftmost select. -/
def addCtes (ctes : List Cte) : Query → Query
  | .select s => .select { s with ctes := ctes ++ s.ctes }
  | .setOp pos op all left right orderBy limit =>
    .setOp pos op all (addCtes ctes left) right orderBy limit

/-- One more term of a set operation, if there is one. -/
def setOpStep (d : Dialect) (g : Grammar) (left : Query) : Parser (Option Query) := do
  let t ← current
  if !(← acceptAny ["UNION", "INTERSECT", "EXCEPT", "MINUS"]) then return none
  let all ← accept "ALL"
  let _ ← accept "DISTINCT"
  let right ← queryTerm d g
  let op := if t.upper = "MINUS" then "EXCEPT" else t.upper
  return some (.setOp t.pos op all left right [] none)

/-- A query: an optional `WITH`, terms joined by set operations, and a tail. -/
def queryStep (d : Dialect) (g : Grammar) : Parser Query := do
  let ctes ← withClause d g
  let first ← queryTerm d g
  let query ← loop (setOpStep d g) first
  let tail ← queryTail g
  return addCtes ctes (tail.addTo query)

/-- The grammar for constructs nested at most `depth` deep. -/
def grammar (d : Dialect) : Nat → Grammar
  | 0 => { expr := fun _ => stall, operand := stall, query := stall, tables := stall }
  | depth + 1 =>
    let g := grammar d depth
    { expr := exprStep d g, operand := operandStep d g, query := queryStep d g,
      tables := tablesStep d g }

/-- The grammar for a text. Every level of nesting takes a token, so the tokens bound the depth. -/
def grammarFor (d : Dialect) (c : Cursor) : Grammar := grammar d (c.bound + 1)

end SqlDialects.Parser
