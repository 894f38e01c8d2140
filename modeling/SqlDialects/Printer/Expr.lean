import SqlDialects.Printer.Basic

/-! Printing expressions, queries and tables. An operand is put in parentheses exactly when it
binds looser than its place requires. -/

namespace SqlDialects

/-- The binding power of a neutral binary operator. -/
def binaryPrec (op : String) : Nat :=
  if op = "OR" then Prec.disjunction
  else if op = "AND" then Prec.conjunction
  else if op = "+" || op = "-" then Prec.sum
  else if op = "*" || op = "/" || op = "%" || op = "DIV" then Prec.product
  else Prec.comparison

/-- The level at which the left operand of an operator is printed. Operators of one level read
from left to right, but comparisons do not chain. -/
def leftLevel (op : String) : Nat :=
  if binaryPrec op = Prec.comparison then Prec.comparison + 1 else binaryPrec op

/-- The binding power at the root of an expression. -/
def Expr.prec : Expr → Nat
  | .binary _ op _ _ => binaryPrec op
  | .unary _ op _ => if op = "NOT" then Prec.negation else Prec.sign
  | .between .. | .inList .. | .inQuery .. | .isValue .. => Prec.comparison
  | .existsQuery _ _ negated => if negated then Prec.negation else Prec.access + 1
  | .lambda .. => Prec.lowest
  | .repeated _ operand => operand.prec
  | _ => Prec.access + 1

section

variable (pos : Position)

@[simp] theorem Expr.prec_column (path : List Ident) : (Expr.column pos path).prec = Prec.access + 1 := rfl

@[simp] theorem Expr.prec_literal (kind : LiteralKind) (value : String) :
    (Expr.literal pos kind value).prec = Prec.access + 1 := rfl

@[simp] theorem Expr.prec_binary (op : String) (left right : Expr) :
    (Expr.binary pos op left right).prec = binaryPrec op := rfl

@[simp] theorem Expr.prec_unary (op : String) (operand : Expr) :
    (Expr.unary pos op operand).prec = if op = "NOT" then Prec.negation else Prec.sign := rfl

@[simp] theorem Expr.prec_between (operand low high : Expr) (negated : Bool) :
    (Expr.between pos operand low high negated).prec = Prec.comparison := rfl

@[simp] theorem Expr.prec_inList (operand : Expr) (members : List Expr) (negated : Bool) :
    (Expr.inList pos operand members negated).prec = Prec.comparison := rfl

@[simp] theorem Expr.prec_isValue (operand : Expr) (negated : Bool) (value : String) :
    (Expr.isValue pos operand negated value).prec = Prec.comparison := rfl

end

def Expr.startsWithMinus : Expr → Bool
  | .unary _ op _ => op == "-"
  | .literal _ .number value => value.startsWith "-"
  | .repeated _ operand => operand.startsWithMinus
  | _ => false

def Expr.atLevel (e : Expr) (level : Nat) (text : String) : String :=
  Printer.paren (e.prec < level) text

def Query.needsParens (right : Bool) : Query → Bool
  | .select s => !s.orderBy.isEmpty || s.limit.isSome || !s.ctes.isEmpty
  | .setOp _ _ _ _ _ orderBy limit => right || !orderBy.isEmpty || limit.isSome

def TableExpr.needsParens : TableExpr → Bool
  | .join _ kind .. => kind != ","
  | _ => false

namespace Printer

def tableLabel (p : Printer) : Option Ident → String
  | none => ""
  | some label => (if p.dialect.hints.bareTableLabels then " " else " AS ") ++ p.ident label

def arrayText (p : Printer) (elems : List String) : String :=
  match p.dialect.hints.arrays with
  | .bracket => "[" ++ commas elems ++ "]"
  | .keyword => "ARRAY[" ++ commas elems ++ "]"
  | .function => p.functionName "ARRAY" ++ "(" ++ commas elems ++ ")"

def sequence {α : Type} : List (Except Error α) → Except Error (List α)
  | [] => .ok []
  | outcome :: rest => do
    let first ← outcome
    return first :: (← sequence rest)

/-- Keys and values in the dialect's constructor. The first failure in the order of the text
counts. -/
def mapText (p : Printer) (keys values : List (Except Error String)) : Except Error String := do
  let pairs (separator : String) : Except Error String := do
    return commas (← sequence ((keys.zip values).map fun (key, value) => do
      return (← key) ++ separator ++ (← value)))
  match p.dialect.hints.maps with
  | .arrays =>
    let keys ← sequence keys
    return "MAP(" ++ p.arrayText keys ++ ", " ++ p.arrayText (← sequence values) ++ ")"
  | .braces => return "\x7b" ++ (← pairs ": ") ++ "\x7d"
  | .function => return p.functionName "MAP" ++ "(" ++ (← pairs ", ") ++ ")"

def structText (p : Printer) (names values : List String) : String :=
  if !names.isEmpty && p.dialect.hints.namedStructs then
    let pairs := (names.zip values).map fun (name, value) => p.string name ++ ", " ++ value
    p.functionName "NAMED_STRUCT" ++ "(" ++ commas pairs ++ ")"
  else p.functionName "STRUCT" ++ "(" ++ commas values ++ ")"

def clause (keyword : String) : Option String → String
  | none => ""
  | some text => keyword ++ text

def listClause (keyword : String) (texts : List String) : String :=
  if texts.isEmpty then "" else keyword ++ commas texts

/-- The order of a query's tail and its first rows, in the dialect's words. -/
def tailText (p : Printer) (orderBy : List String) (limit offset : Option String) : String :=
  let order := listClause " ORDER BY " orderBy
  if p.dialect.hints.fetchFirst then
    order ++ clause " OFFSET " (offset.map (· ++ " ROWS")) ++
      clause " FETCH FIRST " (limit.map (· ++ " ROWS ONLY"))
  else order ++ clause " LIMIT " limit ++ clause " OFFSET " offset

mutual

/-- An expression without parentheses around it. -/
def expr (p : Printer) : Expr → Except Error String
  | .column _ path => .ok (p.path path)
  | .star _ table => .ok (if table.isEmpty then "*" else p.path table ++ ".*")
  | .literal _ kind value => .ok (p.literal kind value)
  | .param _ text => .ok text
  | .binary _ op left right => do
    let leftText := left.atLevel (leftLevel op) (← expr p left)
    let rightText := right.atLevel (binaryPrec op + 1) (← expr p right)
    return leftText ++ " " ++ op ++ " " ++ rightText
  | .unary _ op operand => do
    let text ← expr p operand
    if op = "NOT" then return "NOT " ++ operand.atLevel Prec.negation text
    if operand.startsWithMinus then return op ++ paren true text
    return op ++ operand.atLevel Prec.sign text
  | .call c => call p c
  | .window _ function partitionBy orderBy frame => do
    let functionText := function.atLevel Prec.access (← expr p function)
    let partitions := listClause "PARTITION BY " (← exprs p partitionBy)
    let order := listClause "ORDER BY " (← orderItems p orderBy)
    let frameText ← frameOption p frame
    let parts := [partitions, order, frameText].filter (· != "")
    return functionText ++ " OVER (" ++ " ".intercalate parts ++ ")"
  | .cast _ operand type tolerant => do
    let head := if tolerant && p.dialect.hints.tryCast then "TRY_CAST(" else "CAST("
    let text ← expr p operand
    return head ++ text ++ " AS " ++ (← p.typeSpec type) ++ ")"
  | .caseWhen _ operand arms otherwise => do
    let head := clause " " (← exprOption p operand)
    let body ← whens p arms
    let last := clause " ELSE " (← exprOption p otherwise)
    return "CASE" ++ head ++ body ++ last ++ " END"
  | .between _ operand low high negated => do
    let text := operand.atLevel (Prec.comparison + 1) (← expr p operand)
    let lowText := low.atLevel (Prec.comparison + 1) (← expr p low)
    let highText := high.atLevel (Prec.comparison + 1) (← expr p high)
    return text ++ (if negated then " NOT" else "") ++ " BETWEEN " ++ lowText ++ " AND " ++ highText
  | .inList _ operand members negated => do
    let text := operand.atLevel (Prec.comparison + 1) (← expr p operand)
    return text ++ (if negated then " NOT" else "") ++ " IN (" ++ commas (← exprs p members) ++ ")"
  | .inQuery _ operand query negated => do
    let text := operand.atLevel (Prec.comparison + 1) (← expr p operand)
    return text ++ (if negated then " NOT" else "") ++ " IN (" ++ (← queryText p query) ++ ")"
  | .isValue _ operand negated value => do
    let text := operand.atLevel (Prec.comparison + 1) (← expr p operand)
    return text ++ " IS " ++ (if negated then "NOT " else "") ++ value
  | .existsQuery _ query negated => do
    return (if negated then "NOT " else "") ++ "EXISTS (" ++ (← queryText p query) ++ ")"
  | .subquery _ query => do return "(" ++ (← queryText p query) ++ ")"
  | .interval _ value unit => do
    return "INTERVAL " ++ value.atLevel Prec.access (← expr p value) ++ " " ++ unit
  | .array _ elems => do return p.arrayText (← exprs p elems)
  | .map _ keys values => p.mapText (outcomes p keys) (outcomes p values)
  | .struct _ names values => do return p.structText names (← exprs p values)
  | .lambda pos params body => do
    if !p.dialect.lambdas then p.unsupported "Lambda" pos
    let head := match params with
      | [param] => p.ident param
      | _ => "(" ++ p.idents params ++ ")"
    return head ++ " -> " ++ (← expr p body)
  | .subscript _ operand index => do
    let text := operand.atLevel Prec.access (← expr p operand)
    return text ++ "[" ++ (← expr p index) ++ "]"
  | .extract _ unit operand => do return "EXTRACT(" ++ unit ++ " FROM " ++ (← expr p operand) ++ ")"
  | .repeated _ operand => expr p operand

/-- The texts of expressions that stand in places without requirements. -/
def exprs (p : Printer) : List Expr → Except Error (List String)
  | [] => .ok []
  | e :: es => do
    let first ← expr p e
    return first :: (← exprs p es)

def exprOption (p : Printer) : Option Expr → Except Error (Option String)
  | none => .ok none
  | some e => do return some (← expr p e)

def outcomes (p : Printer) : List Expr → List (Except Error String)
  | [] => []
  | e :: es => expr p e :: outcomes p es

def call (p : Printer) : Call → Except Error String
  | ⟨pos, name, args, distinct, orderBy, filter⟩ => do
    if p.dialect.unavailable.contains name then
      throw (.unmappable name (p.source.getD "") p.dialect.name pos)
    let native := p.functionName name
    let native := if p.keyed then Text.lower native else native
    let argTexts ← exprs p args
    let order := listClause " ORDER BY " (← orderItems p orderBy)
    let filterText := clause " FILTER (WHERE " ((← exprOption p filter).map (· ++ ")"))
    return native ++ "(" ++ (if distinct then "DISTINCT " else "") ++ commas argTexts ++ order ++
      ")" ++ filterText

def orderItems (p : Printer) : List OrderItem → Except Error (List String)
  | [] => .ok []
  | ⟨e, descending, nullsFirst⟩ :: items => do
    let text ← expr p e
    let nulls := match nullsFirst with
      | none => ""
      | some first => if first then " NULLS FIRST" else " NULLS LAST"
    return (text ++ (if descending then " DESC" else "") ++ nulls) :: (← orderItems p items)

def whens (p : Printer) : List When → Except Error String
  | [] => .ok ""
  | ⟨condition, result⟩ :: arms => do
    let conditionText ← expr p condition
    let resultText ← expr p result
    return " WHEN " ++ conditionText ++ " THEN " ++ resultText ++ (← whens p arms)

def frameOption (p : Printer) : Option Frame → Except Error String
  | none => .ok ""
  | some ⟨unit, first, last⟩ => do
    let start ← frameBound p first
    match ← boundOption p last with
    | none => return unit ++ " " ++ start
    | some stop => return unit ++ " BETWEEN " ++ start ++ " AND " ++ stop

def boundOption (p : Printer) : Option FrameBound → Except Error (Option String)
  | none => .ok none
  | some bound => do return some (← frameBound p bound)

def frameBound (p : Printer) : FrameBound → Except Error String
  | ⟨kind, none⟩ => .ok kind
  | ⟨kind, some e⟩ => do return e.atLevel (Prec.comparison + 1) (← expr p e) ++ " " ++ kind

def queryText (p : Printer) : Query → Except Error String
  | .select s => select p s
  | .setOp _ op all left right orderBy limit => do
    let leftText := paren (left.needsParens false) (← queryText p left)
    let rightText := paren (right.needsParens true) (← queryText p right)
    let order ← orderItems p orderBy
    let limitText ← exprOption p limit
    return leftText ++ " " ++ op ++ (if all then " ALL" else "") ++ " " ++ rightText ++
      p.tailText order limitText none

def select (p : Printer) : Select → Except Error String
  | ⟨_, ctes, distinct, items, source, lateralViews, condition, groupBy, having, orderBy, limit,
      offset⟩ => do
    let entries ← cteTexts p ctes
    let head := if entries.isEmpty then "" else "WITH " ++ commas entries ++ " "
    let itemTexts ← selectItems p items
    let from? ← tableOption p source
    let views ← views p lateralViews
    let conditionText ← exprOption p condition
    let groups ← exprs p groupBy
    let havingText ← exprOption p having
    let order ← orderItems p orderBy
    let tail ← do
      if p.dialect.hints.fetchFirst then
        let offsetText ← exprOption p offset
        let limitText ← exprOption p limit
        pure (p.tailText order limitText offsetText)
      else
        let limitText ← exprOption p limit
        let offsetText ← exprOption p offset
        pure (p.tailText order limitText offsetText)
    return head ++ "SELECT " ++ (if distinct then "DISTINCT " else "") ++ commas itemTexts ++
      clause " FROM " from? ++ views ++ clause " WHERE " conditionText ++
      listClause " GROUP BY " groups ++ clause " HAVING " havingText ++ tail

def cteTexts (p : Printer) : List Cte → Except Error (List String)
  | [] => .ok []
  | ⟨name, columns, body⟩ :: ctes => do
    let first ← cteText p name columns body
    return first :: (← cteTexts p ctes)

def cteText (p : Printer) (name : Ident) (columns : List Ident) : CteBody → Except Error String
  | .query q => do
    return p.ident name ++ p.columnList columns ++ " AS (" ++ (← queryText p q) ++ ")"
  | .scalar value => do
    if !p.dialect.hints.scalarCtes then
      p.unsupported (value.kind ++ " scalar WITH binding " ++ name.name) value.pos
    return (← expr p value) ++ " AS " ++ p.ident name

def selectItems (p : Printer) : List SelectItem → Except Error (List String)
  | [] => .ok []
  | ⟨e, label⟩ :: items => do
    let text ← expr p e
    return (text ++ clause " AS " (label.map p.ident)) :: (← selectItems p items)

def views (p : Printer) : List LateralView → Except Error String
  | [] => .ok ""
  | ⟨_, function, outer, table, columns⟩ :: rest => do
    if !p.dialect.hints.lateralViews then p.unsupported "FunctionCall LATERAL VIEW" function.pos
    let text ← call p function
    return " LATERAL VIEW " ++ (if outer then "OUTER " else "") ++ text ++ " " ++ p.ident table ++
      listClause " AS " (columns.map p.ident) ++ (← views p rest)

def tableOption (p : Printer) : Option TableExpr → Except Error (Option String)
  | none => .ok none
  | some t => do return some (← table p t)

def table (p : Printer) : TableExpr → Except Error String
  | .ref _ name label final =>
    .ok (p.path name ++ (if final && p.dialect.hints.finalModifier then " FINAL" else "") ++
      p.tableLabel label)
  | .derived _ query label => do return "(" ++ (← queryText p query) ++ ")" ++ p.tableLabel label
  | .function _ function label => do return (← call p function) ++ p.tableLabel label
  | .join _ kind left right condition shared => do
    let leftText ← table p left
    let rightText := paren right.needsParens (← table p right)
    let head := leftText ++ (if kind = "," then ", " else " " ++ kind ++ " ") ++ rightText
    match ← exprOption p condition with
    | some text => return head ++ " ON " ++ text
    | none => return if shared.isEmpty then head else head ++ " USING (" ++ p.idents shared ++ ")"

end

def exprAt (p : Printer) (level : Nat) (e : Expr) : Except Error String := do
  return e.atLevel level (← p.expr e)

/-! ### Equations of the operators -/

section

variable (p : Printer) (pos : Position)

theorem expr_column (path : List Ident) : p.expr (.column pos path) = .ok (p.path path) := rfl

theorem expr_literal (kind : LiteralKind) (value : String) :
    p.expr (.literal pos kind value) = .ok (p.literal kind value) :=
  rfl

theorem expr_binary (op : String) (left right : Expr) : p.expr (.binary pos op left right) = (do
    let leftText := left.atLevel (leftLevel op) (← p.expr left)
    let rightText := right.atLevel (binaryPrec op + 1) (← p.expr right)
    return leftText ++ " " ++ op ++ " " ++ rightText) := rfl

theorem expr_unary (op : String) (operand : Expr) : p.expr (.unary pos op operand) = (do
    let text ← p.expr operand
    if op = "NOT" then return "NOT " ++ operand.atLevel Prec.negation text
    if operand.startsWithMinus then return op ++ paren true text
    return op ++ operand.atLevel Prec.sign text) := rfl

theorem expr_between (operand low high : Expr) (negated : Bool) : p.expr (.between pos operand low high negated) = (do
    let text := operand.atLevel (Prec.comparison + 1) (← p.expr operand)
    let lowText := low.atLevel (Prec.comparison + 1) (← p.expr low)
    let highText := high.atLevel (Prec.comparison + 1) (← p.expr high)
    return text ++ (if negated then " NOT" else "") ++ " BETWEEN " ++ lowText ++ " AND " ++ highText) := rfl

theorem expr_inList (operand : Expr) (members : List Expr) (negated : Bool) :
    p.expr (.inList pos operand members negated) = (do
      let text := operand.atLevel (Prec.comparison + 1) (← p.expr operand)
      return text ++ (if negated then " NOT" else "") ++ " IN (" ++ commas (← p.exprs members) ++ ")") := rfl

theorem expr_isValue (operand : Expr) (negated : Bool) (value : String) :
    p.expr (.isValue pos operand negated value) = (do
      let text := operand.atLevel (Prec.comparison + 1) (← p.expr operand)
      return text ++ " IS " ++ (if negated then "NOT " else "") ++ value) := rfl

theorem expr_call (c : Call) : p.expr (.call c) = p.call c := rfl

theorem exprs_nil : p.exprs [] = .ok [] := rfl

theorem exprs_cons (e : Expr) (es : List Expr) : p.exprs (e :: es) = (do
    let first ← p.expr e
    return first :: (← p.exprs es)) := rfl

end

end Printer

end SqlDialects
