import SqlDialects.Tree.Type

/-! Expressions, queries and table expressions. They contain one another: a subquery is an
expression, and a query lists expressions over tables. Names of functions, operators and units are
the neutral ones; every dialect maps its own spellings onto them while reading. -/

namespace SqlDialects

/-- An identifier. `quoted` keeps the author's quoting. -/
structure Ident where
  name : String
  quoted : Bool := false
deriving Repr, DecidableEq, Inhabited

def Ident.dotted (path : List Ident) : String := ".".intercalate (path.map Ident.name)

inductive LiteralKind
  | string
  | number
  | boolean
  | null
deriving Repr, DecidableEq, Inhabited

/-- A value that a `SELECT` binds to a name, told by where the select begins and by the name in lower case. -/
structure Cell where
  select : Position
  name : String
deriving Repr, DecidableEq, Inhabited

inductive Place
  | first
  | second
  /-- One of the places of a name that a select has bound to a value. -/
  | bound (cell : Cell)
deriving Repr, DecidableEq, Inhabited

mutual

inductive Expr
  | column (pos : Position) (path : List Ident)
  /-- `*` or `t.*`. -/
  | star (pos : Position) (table : List Ident)
  | literal (pos : Position) (kind : LiteralKind) (value : String)
  /-- A placeholder, kept as written. -/
  | param (pos : Position) (text : String)
  | binary (pos : Position) (op : String) (left right : Expr)
  | unary (pos : Position) (op : String) (operand : Expr)
  | call (call : Call)
  | window (pos : Position) (function : Expr) (partitionBy : List Expr) (orderBy : List OrderItem)
      (frame : Option Frame)
  /-- A conversion; a tolerant one yields `NULL` where the other fails. -/
  | cast (pos : Position) (operand : Expr) (type : TypeSpec) (tolerant : Bool)
  | caseWhen (pos : Position) (operand : Option Expr) (arms : List When) (otherwise : Option Expr)
  | between (pos : Position) (operand low high : Expr) (negated : Bool)
  | inList (pos : Position) (operand : Expr) (members : List Expr) (negated : Bool)
  | inQuery (pos : Position) (operand : Expr) (query : Query) (negated : Bool)
  /-- `IS [NOT] NULL`, `TRUE` or `FALSE`. -/
  | isValue (pos : Position) (operand : Expr) (negated : Bool) (value : String)
  | existsQuery (pos : Position) (query : Query) (negated : Bool)
  | subquery (pos : Position) (query : Query)
  | interval (pos : Position) (value : Expr) (unit : String)
  | array (pos : Position) (elems : List Expr)
  | map (pos : Position) (keys values : List Expr)
  | struct (pos : Position) (names : List String) (values : List Expr)
  | lambda (pos : Position) (params : List Ident) (body : Expr)
  | subscript (pos : Position) (operand index : Expr)
  | extract (pos : Position) (unit : String) (operand : Expr)
  /-- One of the places of a repeated operand, such as the divisor `y` in `IF(y = 0, 0, x / y)` or the value of a name.
  It reads and prints as the operand itself; the mark tells that the places name one operand. -/
  | repeated (place : Place) (operand : Expr)

/-- A function call. `orderBy` is an `ORDER BY` inside the call or after `WITHIN GROUP`. -/
structure Call where
  pos : Position := {}
  name : String
  args : List Expr := []
  distinct : Bool := false
  orderBy : List OrderItem := []
  filter : Option Expr := none

structure OrderItem where
  expr : Expr
  descending : Bool := false
  nullsFirst : Option Bool := none

/-- One `WHEN condition THEN result`. -/
structure When where
  condition : Expr
  result : Expr

/-- A window frame; without `last` it has a single bound. -/
structure Frame where
  unit : String
  first : FrameBound
  last : Option FrameBound

structure FrameBound where
  kind : String
  offset : Option Expr

inductive Query
  | select (select : Select)
  | setOp (pos : Position) (op : String) (all : Bool) (left right : Query)
      (orderBy : List OrderItem) (limit : Option Expr)

structure Select where
  pos : Position := {}
  ctes : List Cte := []
  distinct : Bool := false
  items : List SelectItem := []
  source : Option TableExpr := none
  lateralViews : List LateralView := []
  condition : Option Expr := none
  groupBy : List Expr := []
  having : Option Expr := none
  orderBy : List OrderItem := []
  limit : Option Expr := none
  offset : Option Expr := none

/-- One entry of `WITH`. -/
structure Cte where
  name : Ident
  columns : List Ident := []
  body : CteBody

inductive CteBody
  | query (query : Query)
  | scalar (value : Expr)

structure SelectItem where
  expr : Expr
  label : Option Ident := none

structure LateralView where
  pos : Position := {}
  function : Call
  outer : Bool := false
  table : Ident
  columns : List Ident := []

inductive TableExpr
  | ref (pos : Position) (name : List Ident) (label : Option Ident) (final : Bool)
  | derived (pos : Position) (query : Query) (label : Option Ident)
  | function (pos : Position) (call : Call) (label : Option Ident)
  | join (pos : Position) (kind : String) (left right : TableExpr) (condition : Option Expr)
      (shared : List Ident)

end

instance : Inhabited Expr := ⟨.param {} ""⟩

namespace Expr

def str (value : String) : Expr := .literal {} .string value

def num (value : String) : Expr := .literal {} .number value

def null : Expr := .literal {} .null "NULL"

def col (name : String) : Expr := .column {} [⟨name, false⟩]

def fn (name : String) (args : List Expr) : Expr := .call { name, args }

def pos : Expr → Position
  | .column pos .. | .star pos .. | .literal pos .. | .param pos .. | .binary pos ..
  | .unary pos .. | .window pos .. | .cast pos .. | .caseWhen pos .. | .between pos ..
  | .inList pos .. | .inQuery pos .. | .isValue pos .. | .existsQuery pos .. | .subquery pos ..
  | .interval pos .. | .array pos .. | .map pos .. | .struct pos .. | .lambda pos ..
  | .subscript pos .. | .extract pos .. => pos
  | .call c => c.pos
  | .repeated _ operand => operand.pos

/-- The name of the node's kind. -/
def kind : Expr → String
  | .column .. => "Column"
  | .star .. => "Star"
  | .literal .. => "Literal"
  | .param .. => "Param"
  | .binary .. => "BinaryOp"
  | .unary .. => "UnaryOp"
  | .call .. => "FunctionCall"
  | .window .. => "Window"
  | .cast .. => "Cast"
  | .caseWhen .. => "Case"
  | .between .. => "Between"
  | .inList .. | .inQuery .. => "In"
  | .isValue .. => "Is"
  | .existsQuery .. => "Exists"
  | .subquery .. => "Subquery"
  | .interval .. => "Interval"
  | .array .. => "ArrayLiteral"
  | .map .. => "MapLiteral"
  | .struct .. => "StructLiteral"
  | .lambda .. => "Lambda"
  | .subscript .. => "Subscript"
  | .extract .. => "Extract"
  | .repeated _ operand => operand.kind

/-- The expression as the operand of one of its places. A leaf has no parts for the places to
share, so it needs no mark. -/
def inPlace (place : Place) : Expr → Expr
  | .column pos path => .column pos path
  | .star pos table => .star pos table
  | .literal pos kind value => .literal pos kind value
  | .param pos text => .param pos text
  | .repeated place operand => .repeated place operand
  | e => .repeated place e

def isRepeated : Expr → Bool
  | .repeated .. => true
  | _ => false

def operandsInPlace (place : Place) : Expr → Expr
  | .call c => .call { c with args := c.args.map (·.inPlace place) }
  | .binary pos op left right => .binary pos op (left.inPlace place) (right.inPlace place)
  | e => e

end Expr

namespace Query

def pos : Query → Position
  | .select s => s.pos
  | .setOp pos .. => pos

def kind : Query → String
  | .select _ => "Select"
  | .setOp .. => "SetOperation"

end Query

namespace TableExpr

def pos : TableExpr → Position
  | .ref pos .. | .derived pos .. | .function pos .. | .join pos .. => pos

def kind : TableExpr → String
  | .ref .. => "TableRef"
  | .derived .. => "DerivedTable"
  | .function .. => "TableFunc"
  | .join .. => "Join"

end TableExpr

end SqlDialects
