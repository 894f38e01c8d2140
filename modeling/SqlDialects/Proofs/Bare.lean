import SqlDialects.Token
import SqlDialects.Tree.Statement

/-! Tokens and trees without their places. Two trees that are equal without their places say the
same; where in a text they were read is all that sets them apart. -/

namespace SqlDialects

/-- The token without its place. -/
def Token.bare (t : Token) : Token := { t with pos := {}, stop := 0 }

mutual

/-- The type without its places. -/
def TypeSpec.bare : TypeSpec → TypeSpec
  | ⟨_, name, params, elems, fields, native⟩ =>
    ⟨{}, name, params, bareElems elems, bareFields fields, native⟩

def bareElems : List TypeSpec → List TypeSpec
  | [] => []
  | t :: ts => t.bare :: bareElems ts

def bareFields : List TypeField → List TypeField
  | [] => []
  | ⟨name, t⟩ :: ts => ⟨name, t.bare⟩ :: bareFields ts

end

mutual

/-- The expression without its places. -/
def Expr.bare : Expr → Expr
  | .column _ path => .column {} path
  | .star _ table => .star {} table
  | .literal _ kind value => .literal {} kind value
  | .param _ text => .param {} text
  | .binary _ op left right => .binary {} op left.bare right.bare
  | .unary _ op operand => .unary {} op operand.bare
  | .call c => .call c.bare
  | .window _ function partitionBy orderBy frame =>
    .window {} function.bare (bareExprs partitionBy) (bareOrder orderBy) (bareFrame frame)
  | .cast _ operand type tolerant => .cast {} operand.bare type.bare tolerant
  | .caseWhen _ operand arms otherwise =>
    .caseWhen {} (bareOption operand) (bareArms arms) (bareOption otherwise)
  | .between _ operand low high negated => .between {} operand.bare low.bare high.bare negated
  | .inList _ operand members negated => .inList {} operand.bare (bareExprs members) negated
  | .inQuery _ operand query negated => .inQuery {} operand.bare query.bare negated
  | .isValue _ operand negated value => .isValue {} operand.bare negated value
  | .existsQuery _ query negated => .existsQuery {} query.bare negated
  | .subquery _ query => .subquery {} query.bare
  | .interval _ value unit => .interval {} value.bare unit
  | .array _ elems => .array {} (bareExprs elems)
  | .map _ keys values => .map {} (bareExprs keys) (bareExprs values)
  | .struct _ names values => .struct {} names (bareExprs values)
  | .lambda _ params body => .lambda {} params body.bare
  | .subscript _ operand index => .subscript {} operand.bare index.bare
  | .extract _ unit operand => .extract {} unit operand.bare
  | .repeated place operand => .repeated place operand.bare

def Call.bare : Call → Call
  | ⟨_, name, args, distinct, orderBy, filter⟩ =>
    ⟨{}, name, bareExprs args, distinct, bareOrder orderBy, bareOption filter⟩

def bareExprs : List Expr → List Expr
  | [] => []
  | e :: es => e.bare :: bareExprs es

def bareOption : Option Expr → Option Expr
  | none => none
  | some e => some e.bare

def bareOrder : List OrderItem → List OrderItem
  | [] => []
  | ⟨e, descending, nullsFirst⟩ :: rest => ⟨e.bare, descending, nullsFirst⟩ :: bareOrder rest

def bareArms : List When → List When
  | [] => []
  | ⟨condition, result⟩ :: rest => ⟨condition.bare, result.bare⟩ :: bareArms rest

def bareFrame : Option Frame → Option Frame
  | none => none
  | some ⟨unit, first, last⟩ => some ⟨unit, first.bare, bareBound last⟩

def bareBound : Option FrameBound → Option FrameBound
  | none => none
  | some bound => some bound.bare

def FrameBound.bare : FrameBound → FrameBound
  | ⟨kind, offset⟩ => ⟨kind, bareOption offset⟩

/-- The query without its places. -/
def Query.bare : Query → Query
  | .select s => .select s.bare
  | .setOp _ op all left right orderBy limit =>
    .setOp {} op all left.bare right.bare (bareOrder orderBy) (bareOption limit)

def Select.bare : Select → Select
  | ⟨_, ctes, distinct, items, source, lateralViews, condition, groupBy, having, orderBy, limit,
      offset⟩ =>
    ⟨{}, bareCtes ctes, distinct, bareItems items, bareSource source, bareViews lateralViews,
      bareOption condition, bareExprs groupBy, bareOption having, bareOrder orderBy,
      bareOption limit, bareOption offset⟩

def bareCtes : List Cte → List Cte
  | [] => []
  | ⟨name, columns, body⟩ :: rest => ⟨name, columns, body.bare⟩ :: bareCtes rest

def CteBody.bare : CteBody → CteBody
  | .query q => .query q.bare
  | .scalar e => .scalar e.bare

def bareItems : List SelectItem → List SelectItem
  | [] => []
  | ⟨e, label⟩ :: rest => ⟨e.bare, label⟩ :: bareItems rest

def bareViews : List LateralView → List LateralView
  | [] => []
  | ⟨_, function, outer, table, columns⟩ :: rest =>
    ⟨{}, function.bare, outer, table, columns⟩ :: bareViews rest

def bareSource : Option TableExpr → Option TableExpr
  | none => none
  | some t => some t.bare

def TableExpr.bare : TableExpr → TableExpr
  | .ref _ name label final => .ref {} name label final
  | .derived _ query label => .derived {} query.bare label
  | .function _ call label => .function {} call.bare label
  | .join _ kind left right condition shared =>
    .join {} kind left.bare right.bare (bareOption condition) shared

end

/-! Statements. -/

def ColumnDef.bare (c : ColumnDef) : ColumnDef :=
  { c with pos := {}, type := c.type.bare, defaultValue := bareOption c.defaultValue }

def Constraint.bare (c : Constraint) : Constraint := { c with pos := {}, condition := bareOption c.condition }

def Partitioning.bare (keys : Partitioning) : Partitioning :=
  { keys with exprs := bareExprs keys.exprs, columns := keys.columns.map ColumnDef.bare }

def Property.bare (x : Property) : Property := { x with value := bareOption x.value }

def CreateTable.bare (t : CreateTable) : CreateTable :=
  { t with
    pos := {}
    columns := t.columns.map ColumnDef.bare
    constraints := t.constraints.map Constraint.bare
    sortKey := bareExprs t.sortKey
    partitioning := t.partitioning.map Partitioning.bare
    query := t.query.map Query.bare
    properties := t.properties.map Property.bare }

def Insert.bare (i : Insert) : Insert :=
  { i with pos := {}, rows := i.rows.map bareExprs, query := i.query.map Query.bare }

def CreateView.bare (v : CreateView) : CreateView := { v with pos := {}, query := v.query.bare }

/-- The statement without its places. -/
def Statement.bare : Statement → Statement
  | .query q => .query q.bare
  | .insert i => .insert i.bare
  | .createTable t => .createTable t.bare
  | .createView v => .createView v.bare
  | .drop _ object ifExists name => .drop {} object ifExists name
  | .explain _ mode s => .explain {} mode s.bare
  | .expression _ e => .expression {} e.bare

end SqlDialects
