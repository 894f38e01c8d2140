import SqlDialects.Parser.Type

/-! Expressions. Operators are read by binding power: an expression at a level takes every operator
that binds tighter than the level. The grammar is given as steps over a record of parsers for the
parts, so that its recursion is tied in one place. -/

namespace SqlDialects.Parser

/-- Parsers for the parts that contain one another. -/
structure Grammar where
  expr : Nat → Parser Expr
  operand : Parser Expr
  query : Parser Query
  tables : Parser TableExpr

namespace Grammar

def value (g : Grammar) : Parser Expr := g.expr Prec.lowest

def values (g : Grammar) : Parser (List Expr) := commaList g.value

def group (g : Grammar) : Parser (List Expr) := do
  expectOp "("
  if ← acceptOp ")" then return []
  let list ← g.values
  expectOp ")"
  return list

end Grammar

/-- Operators that `NOT` may precede. -/
def negatable : List String := ["IN", "LIKE", "ILIKE", "RLIKE", "REGEXP", "BETWEEN"]

def infixOp? (d : Dialect) (t : Token) : Option InfixOp :=
  if t.kind = .operator then d.infixOps.find? t.text
  else if t.isWord then d.infixOps.find? t.upper
  else none

/-- How tightly the token at hand binds after an operand; the lowest level if it cannot follow. -/
def infixPrecedence (d : Dialect) (c : Cursor) : Nat :=
  let t := c.current
  let next := c.peek
  if t.isOp "[" || t.isOp "::" then Prec.access
  else if t.is "NOT" then
    if next.isWord && negatable.contains next.upper then Prec.comparison else Prec.lowest
  else if ["IS", "IN", "BETWEEN"].any t.is then Prec.comparison
  else if t.is "GLOBAL" && (next.is "IN" || next.is "NOT") then Prec.comparison
  else match infixOp? d t with
    | some op => op.prec
    | none => Prec.lowest

def pathSteps (value : String) : String :=
  let inner := Text.trimBoth (fun c => c == '\x7b' || c == '\x7d') value.toList
  let step (part : String) : String :=
    match Decimal.readInt? part.toList with
    | some n => if Decimal.fits 64 n then "[" ++ part ++ "]" else "." ++ part
    | none => "." ++ part
  String.join (((String.ofList inner).splitOn ",").map fun part => step (Text.trim part))

def jsonPath : Expr → Expr
  | .literal pos .number value => .literal pos .string ("$[" ++ value ++ "]")
  | .literal pos .string value =>
    if value.startsWith "\x7b" && value.endsWith "\x7d" then
      .literal pos .string ("$" ++ pathSteps value)
    else if value.startsWith "$" then .literal pos .string value
    else .literal pos .string ("$." ++ value)
  | e => e

/-- The call that an operator stands for. Further operands of a concatenation join its call. -/
def operatorCall (pos : Position) (op : InfixOp) (left right : Expr) : Expr :=
  let right := if op.jsonPath then jsonPath right else right
  let call := .call { pos, name := op.function, args := [left, right] }
  match left with
  | .call l =>
    if op.function = "CONCAT" && l.name = "CONCAT" && !l.distinct then
      .call { l with args := l.args ++ [right] }
    else call
  | _ => call

/-- `IN`, `BETWEEN` or an operator such as `LIKE`, after an optional `NOT`. -/
def negatableTail (d : Dialect) (g : Grammar) (left : Expr) (pos : Position) (negated : Bool) :
    Parser Expr := do
  if ← accept "IN" then
    expectOp "("
    if ← curAny ["SELECT", "WITH"] then
      let query ← g.query
      expectOp ")"
      return .inQuery pos left query negated
    let members ← g.values
    expectOp ")"
    return .inList pos left members negated
  if ← accept "BETWEEN" then
    let low ← g.expr Prec.comparison
    expect "AND"
    let high ← g.expr Prec.comparison
    return .between pos left low high negated
  match infixOp? d (← current) with
  | none => expected "IN, BETWEEN or LIKE"
  | some op =>
    advance
    let right ← g.expr Prec.comparison
    let e := Expr.binary pos op.op left right
    return if negated then .unary pos "NOT" e else e

/-- `IS [NOT] NULL` and its kin, and `IS [NOT] DISTINCT FROM`. -/
def isTail (g : Grammar) (left : Expr) : Parser Expr := do
  let pos ← position
  advance
  let negated ← accept "NOT"
  if ← accept "DISTINCT" then
    expect "FROM"
    let right ← g.expr Prec.comparison
    let same := Expr.binary pos "<=>" left right
    return if negated then same else .unary pos "NOT" same
  let t ← current
  if !(["NULL", "TRUE", "FALSE", "UNKNOWN"].any t.is) then expected "NULL, TRUE or FALSE"
  advance
  return .isValue pos left negated (if t.upper = "UNKNOWN" then "NULL" else t.upper)

/-- What follows an operand, from the token whose binding power is `prec`. -/
def infixTail (d : Dialect) (g : Grammar) (left : Expr) (prec : Nat) : Parser Expr := do
  let _ ← accept "GLOBAL"
  let pos ← position
  if ← acceptOp "[" then
    let index ← g.value
    expectOp "]"
    return .subscript pos left index
  if ← acceptOp "::" then
    let target ← type d
    return .cast pos left target false
  if ← curIs "IS" then return ← isTail g left
  if ← accept "NOT" then return ← negatableTail d g left pos true
  if ← curAny ["IN", "BETWEEN"] then return ← negatableTail d g left pos false
  let op := (infixOp? d (← current)).getD {}
  advance
  let right ← g.expr prec
  return if op.function = "" then .binary pos op.op left right else operatorCall pos op left right

/-- `NOT` before an operand; a negated `EXISTS` has a form of its own. -/
def negation (g : Grammar) (pos : Position) : Parser Expr := do
  match ← g.expr Prec.negation with
  | .existsQuery _ query negated => return .existsQuery pos query (!negated)
  | operand => return .unary pos "NOT" operand

def orderItems (g : Grammar) : Parser (List OrderItem) :=
  commaList do
    let expr ← g.value
    let descending ← accept "DESC"
    if !descending then
      let _ ← accept "ASC"
    if ← accept "NULLS" then
      let first ← curIs "FIRST"
      if !(← acceptAny ["FIRST", "LAST"]) then expected "FIRST or LAST"
      return { expr, descending, nullsFirst := some first }
    return { expr, descending }

def orderClause (g : Grammar) : Parser (List OrderItem) := do
  expect "ORDER"
  expect "BY"
  orderItems g

/-! Words with a syntax of their own. -/

def caseExpr (g : Grammar) : Parser Expr := do
  let pos ← position
  advance
  let operand ← if ← curIs "WHEN" then pure none else some <$> g.value
  let arms ← loop (fun arms => do
    if !(← accept "WHEN") then return none
    let condition ← g.value
    expect "THEN"
    let result ← g.value
    return some (⟨condition, result⟩ :: arms)) ([] : List When)
  if arms.isEmpty then expected "WHEN"
  let otherwise ← if ← accept "ELSE" then some <$> g.value else pure none
  expect "END"
  return .caseWhen pos operand arms.reverse otherwise

/-- `CAST(x AS type)`. With a format a conversion from or to a text names its pattern. -/
def castCall (d : Dialect) (g : Grammar) : Parser Expr := do
  let t ← current
  let tolerant := t.upper != "CAST"
  advance
  advance
  let operand ← g.value
  expect "AS"
  let target ← type d
  if !(← accept "FORMAT") then
    expectOp ")"
    return .cast t.pos operand target tolerant
  let format ← current
  if format.kind ≠ .string then expected "format string"
  advance
  expectOp ")"
  let args := [operand, .str (d.formats.toCanonical format.text)]
  if target.isTemporal then
    return .cast t.pos (.call { pos := t.pos, name := "STR_TO_DATE", args }) target tolerant
  if target.isText then return .call { pos := t.pos, name := "DATE_FORMAT", args }
  return .cast t.pos operand target tolerant

/-- A text of digits, points and dashes is a number. -/
def numberOrString (pos : Position) (s : String) : Expr :=
  let isNumeric := fun c : Char => c.isDigit || c == '.' || c == '-'
  .literal pos (if s != "" && s.toList.all isNumeric then .number else .string) s

def intervalExpr (g : Grammar) : Parser Expr := do
  let pos ← position
  advance
  let t ← current
  let unitAfter (value : Expr) : Parser Expr := do
    let word ← current
    match DateUnit.ofText? word.text with
    | some unit =>
      if word.isWord then
        advance
        return .interval pos value unit
      expected "interval unit"
    | none => expected "interval unit"
  if t.kind = .string then
    advance
    match Text.words t.text with
    | [value, word] =>
      match DateUnit.ofText? word with
      | some unit => return .interval pos (numberOrString t.pos value) unit
      | none => failAt t.pos "interval unit" word
    | [value] => unitAfter (numberOrString t.pos value)
    | _ => failAt t.pos "interval value" t.describe
  else unitAfter (← g.operand)

def extractCall (g : Grammar) : Parser Expr := do
  let pos ← position
  advance
  advance
  let t ← current
  if !t.isWord && t.kind ≠ .string then expected "date part"
  advance
  let part := Text.upper t.text
  expect "FROM"
  let operand ← g.value
  expectOp ")"
  return .extract pos ((DateUnit.ofText? part).getD part) operand

/-- `TRIM` in all its forms: the text first, then the characters to remove. -/
def trimCall (g : Grammar) : Parser Expr := do
  let pos ← position
  advance
  advance
  let name ← do
    if ← accept "LEADING" then pure "LTRIM"
    else if ← accept "TRAILING" then pure "RTRIM"
    else
      let _ ← accept "BOTH"
      pure "TRIM"
  let first ← if ← curIs "FROM" then pure none else some <$> g.value
  let args ← do
    if ← accept "FROM" then
      let text ← g.value
      pure (text :: first.toList)
    else if ← acceptOp "," then
      let chars ← g.value
      pure (first.toList ++ [chars])
    else pure first.toList
  expectOp ")"
  return .call { pos, name, args }

/-- `SUBSTRING(s FROM start [FOR length])`. -/
def substringFrom (g : Grammar) : Parser Expr := do
  let pos ← position
  advance
  advance
  let text ← g.value
  expect "FROM"
  let first ← g.value
  let length ← if ← accept "FOR" then some <$> g.value else pure none
  expectOp ")"
  return .call { pos, name := "SUBSTRING", args := text :: first :: length.toList }

def positionIn (g : Grammar) : Parser Expr := do
  let pos ← position
  advance
  advance
  let needle ← g.expr Prec.comparison
  expect "IN"
  let haystack ← g.value
  expectOp ")"
  return .call { pos, name := "LOCATE", args := [needle, haystack] }

def hasWordInGroup (word : String) (depth : Nat) : List Token → Bool
  | [] => false
  | t :: ts =>
    if t.isFinish then false
    else if t.isOp "(" then hasWordInGroup word (depth + 1) ts
    else if t.isOp ")" then if depth ≤ 1 then false else hasWordInGroup word (depth - 1) ts
    else if depth = 1 && t.is word then true
    else hasWordInGroup word depth ts

/-! Calls. -/

/-- The arguments of a call; a lone star is one. -/
def callArgs (g : Grammar) : Parser (List Expr) := do
  if ← curOp ")" then return []
  commaList do
    let c ← get
    if c.current.isOp "*" && (c.peek.isOp ")" || c.peek.isOp ",") then
      advance
      return .star c.current.pos []
    g.value

def resolveCall (d : Dialect) (f : Call) (spelling : String) : Parser Expr := do
  match d.function? spelling with
  | none => return .call f
  | some rule =>
    if rule.unmappable then return .call f
    if f.args.length < rule.minArgs then
      failAt f.pos (argumentCount rule.minArgs ++ " to " ++ spelling) (argumentCount f.args.length)
    else
      let f := if rule.name = "" then f else { f with name := rule.name }
      match rule.reshape with
      | none => return .call f
      | some reshape => within (reshape f)

def frameBound (g : Grammar) : Parser FrameBound := do
  if ← acceptSeq ["UNBOUNDED", "PRECEDING"] then return ⟨"UNBOUNDED PRECEDING", none⟩
  if ← acceptSeq ["UNBOUNDED", "FOLLOWING"] then return ⟨"UNBOUNDED FOLLOWING", none⟩
  if ← acceptSeq ["CURRENT", "ROW"] then return ⟨"CURRENT ROW", none⟩
  let offset ← g.expr Prec.comparison
  if ← accept "PRECEDING" then return ⟨"PRECEDING", some offset⟩
  if ← accept "FOLLOWING" then return ⟨"FOLLOWING", some offset⟩
  expected "PRECEDING or FOLLOWING"

def windowFrame (g : Grammar) : Parser Frame := do
  let unit := (← current).upper
  advance
  if ← accept "BETWEEN" then
    let first ← frameBound g
    expect "AND"
    let last ← frameBound g
    return { unit, first, last := some last }
  let first ← frameBound g
  return { unit, first, last := none }

/-- `OVER (...)` after a call. -/
def windowTail (g : Grammar) (function : Expr) : Parser Expr := do
  let pos ← position
  advance
  expectOp "("
  let partitionBy ← do
    if ← accept "PARTITION" then
      expect "BY"
      g.values
    else pure []
  let orderBy ← if ← curIs "ORDER" then orderClause g else pure []
  let frame ← if ← curAny ["ROWS", "RANGE"] then some <$> windowFrame g else pure none
  expectOp ")"
  return .window pos function partitionBy orderBy frame

/-- What may follow the arguments inside the parentheses of a call. -/
def argsTail (g : Grammar) (f : Call) : Parser Call := do
  let orderBy ← if ← curIs "ORDER" then orderClause g else pure []
  if ← accept "SEPARATOR" then
    let separator ← g.operand
    return { f with orderBy, args := f.args ++ [separator] }
  return { f with orderBy }

/-- The clauses after the parentheses of a call: a second list of arguments, which precedes the
first, the order of a group and a filter. -/
def callTail (g : Grammar) (f : Call) : Parser Call := do
  let mut f := f
  if ← acceptOp "(" then
    let args ← callArgs g
    expectOp ")"
    f := { f with args := args ++ f.args }
  if ← acceptSeq ["WITHIN", "GROUP"] then
    expectOp "("
    let orderBy ← orderClause g
    expectOp ")"
    f := { f with orderBy }
  if (← curIs "FILTER") && (← peekOp "(") then
    advance
    advance
    expect "WHERE"
    let condition ← g.value
    expectOp ")"
    f := { f with filter := some condition }
  if !(← acceptSeq ["IGNORE", "NULLS"]) then
    let _ ← acceptSeq ["RESPECT", "NULLS"]
  return f

def functionCall (d : Dialect) (g : Grammar) (pos : Position) (name : String) : Parser Expr := do
  expectOp "("
  let distinct ← accept "DISTINCT"
  let mut f : Call := { pos, name := Text.upper name, distinct }
  if !(← curOp ")") then
    let args ← callArgs g
    f ← argsTail g { f with args }
  expectOp ")"
  f ← callTail g f
  let e ← resolveCall d f name
  if ← curIs "OVER" then windowTail g e else return e

/-! Operands. -/

/-- One step of a column's path: a name, the number of an element, or a star that ends it. The
path is kept in reverse. -/
def pathStep (state : List Ident × Bool) : Parser (Option (List Ident × Bool)) := do
  let (path, starred) := state
  if starred then return none
  if ← acceptOp "." then
    if ← acceptOp "*" then return some (path, true)
    return some ((← anyIdent) :: path, false)
  let c ← get
  let t := c.current
  if t.kind = .number && t.text.startsWith "." && some t.pos.offset == c.previousStop then
    advance
    return some (⟨String.ofList (t.text.toList.drop 1), false⟩ :: path, false)
  return none

def columnExpr (d : Dialect) (g : Grammar) : Parser Expr := do
  let pos ← position
  let first ← anyIdent
  let (path, starred) ← loop pathStep ([first], false)
  let path := path.reverse
  if starred then return .star pos path
  if (← curOp "(") && path.length > 1 then return ← functionCall d g pos (Ident.dotted path)
  return .column pos path

def lambdaBody (g : Grammar) (pos : Position) (params : List Ident) : Parser Expr := do
  expectOp "->"
  let body ← g.value
  return .lambda pos params body

/-- Whether the tokens after an opening parenthesis are names up to a closing one and an arrow. -/
def startsLambda : List Token → Bool
  | t :: sep :: rest =>
    if t.isWord || t.isQuoted then
      if sep.isOp ")" then rest.head?.any (·.isOp "->")
      else if sep.isOp "," then startsLambda rest
      else false
    else false
  | _ => false

def parenthesized (d : Dialect) (g : Grammar) : Parser Expr := do
  let pos ← position
  let c ← get
  advance
  if c.peek.is "SELECT" || c.peek.is "WITH" then
    let query ← g.query
    expectOp ")"
    return .subquery pos query
  if d.lambdas && startsLambda c.rest then
    let params ← commaList anyIdent
    expectOp ")"
    return ← lambdaBody g pos params
  let values ← g.values
  expectOp ")"
  match values with
  | [e] => return e
  | _ => return .struct pos [] values

def arrayElems (g : Grammar) (pos : Position) : Parser Expr := do
  if ← acceptOp "]" then return .array pos []
  let elems ← g.values
  expectOp "]"
  return .array pos elems

def mapBraces (g : Grammar) : Parser Expr := do
  let pos ← position
  advance
  let step := fun (state : List (Expr × Expr) × Bool) => do
    if state.2 || (← curOp "\x7d") then return none
    let key ← g.value
    expectOp ":"
    let value ← g.value
    return some ((key, value) :: state.1, !(← acceptOp ","))
  let (pairs, _) ← loop step ([], false)
  expectOp "\x7d"
  return .map pos (pairs.reverse.map (·.1)) (pairs.reverse.map (·.2))

/-- A word that has a syntax of its own, if that syntax is there. -/
def specialWord (d : Dialect) (g : Grammar) : Parser (Option Expr) := do
  let c ← get
  let t := c.current
  let called := c.peek.isOp "("
  match t.upper with
  | "NULL" =>
    advance
    return some (.literal t.pos .null "NULL")
  | "TRUE" | "FALSE" =>
    advance
    return some (.literal t.pos .boolean t.upper)
  | "NOT" =>
    advance
    some <$> negation g t.pos
  | "CASE" => some <$> caseExpr g
  | "INTERVAL" => some <$> intervalExpr g
  | "CAST" | "TRY_CAST" | "SAFE_CAST" => if called then some <$> castCall d g else return none
  | "EXISTS" =>
    if !called then return none
    advance
    advance
    let query ← g.query
    expectOp ")"
    return some (.existsQuery t.pos query false)
  | "EXTRACT" => if called then some <$> extractCall g else return none
  | "ARRAY" =>
    if !c.peek.isOp "[" then return none
    advance
    advance
    some <$> arrayElems g t.pos
  | "TRIM" => if called then some <$> trimCall g else return none
  | "SUBSTRING" | "SUBSTR" =>
    if called && hasWordInGroup "FROM" 0 c.rest then some <$> substringFrom g else return none
  | "POSITION" =>
    if called && hasWordInGroup "IN" 0 c.rest then some <$> positionIn g else return none
  | _ => return none

def wordExpr (d : Dialect) (g : Grammar) : Parser Expr := do
  if let some e ← specialWord d g then return e
  let c ← get
  let t := c.current
  if c.peek.isOp "(" then
    advance
    return ← functionCall d g t.pos t.text
  if c.peek.kind = .string then
    if let some rule := d.types.find? t.upper then
      let target ← rule { pos := t.pos, name := t.upper }
      advance
      advance
      return .cast t.pos (.literal c.peek.pos .string c.peek.text) target false
  if let some name := d.niladic.find? t.upper then
    advance
    return .call { pos := t.pos, name }
  if d.lambdas && c.peek.isOp "->" then
    let param ← anyIdent
    return ← lambdaBody g t.pos [param]
  if !isName d.toLexicon t && !isSoftName c then expected "expression"
  columnExpr d g

def operandStep (d : Dialect) (g : Grammar) : Parser Expr := do
  let t ← current
  match t.kind with
  | .number =>
    advance
    return .literal t.pos .number t.text
  | .string =>
    advance
    return .literal t.pos .string t.text
  | .parameter =>
    advance
    return .param t.pos t.text
  | .quotedWord => columnExpr d g
  | .word | .keyword => wordExpr d g
  | _ =>
    if t.isOp "(" then parenthesized d g
    else if t.isOp "[" then
      advance
      arrayElems g t.pos
    else if t.isOp "\x7b" then mapBraces g
    else if t.isOp "-" then
      advance
      return .unary t.pos "-" (← g.expr Prec.sign)
    else if t.isOp "+" then
      advance
      g.expr Prec.sign
    else if t.isOp "~" then
      advance
      return .call { pos := t.pos, name := "BITNOT", args := [← g.expr Prec.sign] }
    else if t.isOp "!" then
      advance
      negation g t.pos
    else if t.isOp "*" then
      advance
      return .star t.pos []
    else expected "expression"

def exprStep (d : Dialect) (g : Grammar) (level : Nat) : Parser Expr := do
  let first ← operandStep d g
  loop (fun left => do
    let prec := infixPrecedence d (← get)
    if prec ≤ level then return none
    return some (← infixTail d g left prec)) first

end SqlDialects.Parser
