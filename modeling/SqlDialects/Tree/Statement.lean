import SqlDialects.Tree.Expr

/-! Statements: queries, inserts, table and view definitions, and bare expressions. -/

namespace SqlDialects

structure ColumnDef where
  pos : Position := {}
  name : Ident
  type : TypeSpec
  notNull : Bool := false
  defaultValue : Option Expr := none
  autoIncrement : Bool := false
  primaryKey : Bool := false
  unique : Bool := false
  comment : Option String := none

inductive ConstraintKind
  | primaryKey
  | unique
  | index
  | foreignKey
  | check
deriving Repr, DecidableEq

structure Constraint where
  pos : Position := {}
  kind : ConstraintKind
  name : String := ""
  columns : List Ident := []
  references : List Ident := []
  refColumns : List Ident := []
  condition : Option Expr := none

/-- Doris's table model: `DUPLICATE`, `UNIQUE` or `AGGREGATE` key. -/
structure KeyModel where
  kind : String
  columns : List Ident

/-- A partitioning clause: over expressions, over columns declared in the clause, or both.
`definitions` is an explicit list of partitions as written. -/
structure Partitioning where
  auto : Bool := false
  method : String := ""
  exprs : List Expr := []
  columns : List ColumnDef := []
  unit : String := ""
  definitions : String := ""

/-- A bucketing clause; zero buckets leave the number to the server. -/
structure Distribution where
  random : Bool := false
  columns : List Ident := []
  buckets : Int := 0

inductive PropertyGroup
  /-- A list after `PROPERTIES`, `TBLPROPERTIES` or `WITH`. -/
  | list
  | leading
  | engine
  | setting
  /-- A `key = value` option after the columns. -/
  | option
  | storage
  | other
deriving Repr, DecidableEq

/-- One table property: its text as written and, where it has that shape, its key and value. -/
structure Property where
  group : PropertyGroup
  clause : String := ""
  key : String := ""
  value : Option Expr := none
  raw : String := ""

def Property.valueText (p : Property) : String :=
  match p.value with
  | some (.literal _ _ value) => value
  | some (.column _ path) => Ident.dotted path
  | _ => ""

structure CreateTable where
  pos : Position := {}
  temporary : Bool := false
  external : Bool := false
  ifNotExists : Bool := false
  /-- Teradata's `SET` or `MULTISET`. -/
  rowSemantics : String := ""
  name : List Ident
  columns : List ColumnDef := []
  constraints : List Constraint := []
  primaryIndex : List Ident := []
  keyModel : Option KeyModel := none
  sortKey : List Expr := []
  partitioning : Option Partitioning := none
  distribution : Option Distribution := none
  comment : Option String := none
  like : List Ident := []
  query : Option Query := none
  properties : List Property := []

structure Insert where
  pos : Position := {}
  overwrite : Bool := false
  table : List Ident := []
  columns : List Ident := []
  rows : List (List Expr) := []
  query : Option Query := none

structure CreateView where
  pos : Position := {}
  orReplace : Bool := false
  temporary : Bool := false
  ifNotExists : Bool := false
  name : List Ident
  columns : List Ident := []
  query : Query

inductive Statement
  | query (query : Query)
  | insert (insert : Insert)
  | createTable (table : CreateTable)
  | createView (view : CreateView)
  | drop (pos : Position) (object : String) (ifExists : Bool) (name : List Ident)
  | explain (pos : Position) (mode : String) (statement : Statement)
  /-- A bare expression where a statement was expected. -/
  | expression (pos : Position) (expr : Expr)

namespace Statement

def pos : Statement → Position
  | .query q => q.pos
  | .insert i => i.pos
  | .createTable t => t.pos
  | .createView v => v.pos
  | .drop pos .. | .explain pos .. | .expression pos .. => pos

def kind : Statement → String
  | .query q => q.kind
  | .insert _ => "Insert"
  | .createTable _ => "CreateTable"
  | .createView _ => "CreateView"
  | .drop .. => "Drop"
  | .explain .. => "Explain"
  | .expression .. => "ExprStmt"

end Statement

/-- Anything that stands at a position of the tree. -/
inductive Node
  | expr (expr : Expr)
  | statement (statement : Statement)
  | table (table : TableExpr)
  | type (type : TypeSpec)

namespace Node

def pos : Node → Position
  | .expr e => e.pos
  | .statement s => s.pos
  | .table t => t.pos
  | .type t => t.pos

def kind : Node → String
  | .expr e => e.kind
  | .statement s => s.kind
  | .table t => t.kind
  | .type _ => "TypeSpec"

/-- The name that rule patterns compare with: of a function, a type, an operator or a unit. -/
def name : Node → String
  | .expr (.call c) => c.name
  | .expr (.binary _ op ..) => op
  | .expr (.unary _ op _) => op
  | .expr (.cast _ _ target _) => target.name
  | .expr (.interval _ _ unit) => unit
  | .expr (.extract _ unit _) => unit
  | .type t => t.name
  | _ => ""

end Node

end SqlDialects
