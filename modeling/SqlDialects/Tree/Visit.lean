import SqlDialects.Tree.Statement

/-! The nodes of a tree, each before its parts and parts from left to right. A repeated operand has
its nodes in both of its places; the mark of a place is no node. -/

namespace SqlDialects

mutual

def TypeSpec.nodes : TypeSpec → List Node
  | ⟨pos, name, params, elems, fields, native⟩ =>
    .type ⟨pos, name, params, elems, fields, native⟩ :: (elemNodes elems ++ fieldNodes fields)

def elemNodes : List TypeSpec → List Node
  | [] => []
  | t :: ts => t.nodes ++ elemNodes ts

def fieldNodes : List TypeField → List Node
  | [] => []
  | ⟨_, t⟩ :: ts => t.nodes ++ fieldNodes ts

end

section

variable {n : Node}

mutual

theorem TypeSpec.type_of_mem : ∀ t : TypeSpec, n ∈ t.nodes → ∃ u, n = .type u
  | ⟨_, _, _, elems, fields, _⟩, member => by
    rw [TypeSpec.nodes, List.mem_cons, List.mem_append] at member
    obtain rfl | inside | inside := member
    · exact ⟨_, rfl⟩
    · exact type_of_mem_elems elems inside
    · exact type_of_mem_fields fields inside

theorem type_of_mem_elems : ∀ ts : List TypeSpec, n ∈ elemNodes ts → ∃ u, n = .type u
  | t :: ts, member => by
    rw [elemNodes, List.mem_append] at member
    exact member.elim t.type_of_mem (type_of_mem_elems ts)

theorem type_of_mem_fields : ∀ fields : List TypeField, n ∈ fieldNodes fields → ∃ u, n = .type u
  | ⟨_, t⟩ :: rest, member => by
    rw [fieldNodes, List.mem_append] at member
    exact member.elim t.type_of_mem (type_of_mem_fields rest)

end

end

theorem TypeSpec.filterMap_nodes {α : Type} {f : Node → Option α} (skips : ∀ u, f (.type u) = none) (t : TypeSpec) :
    t.nodes.filterMap f = [] := by
  refine List.filterMap_eq_nil_iff.mpr fun n member => ?_
  obtain ⟨u, rfl⟩ := t.type_of_mem member
  exact skips u

mutual

def Expr.nodes : Expr → List Node
  | .column pos path => [.expr (.column pos path)]
  | .star pos table => [.expr (.star pos table)]
  | .literal pos kind value => [.expr (.literal pos kind value)]
  | .param pos text => [.expr (.param pos text)]
  | .binary pos op left right => .expr (.binary pos op left right) :: left.nodes ++ right.nodes
  | .unary pos op operand => .expr (.unary pos op operand) :: operand.nodes
  | .call c => .expr (.call c) :: c.parts
  | .window pos function partitionBy orderBy frame =>
    .expr (.window pos function partitionBy orderBy frame) :: function.nodes ++
      exprNodes partitionBy ++ orderNodes orderBy ++ frameNodes frame
  | .cast pos operand type tolerant =>
    .expr (.cast pos operand type tolerant) :: operand.nodes ++ type.nodes
  | .caseWhen pos operand arms otherwise =>
    .expr (.caseWhen pos operand arms otherwise) :: optionNodes operand ++ armNodes arms ++
      optionNodes otherwise
  | .between pos operand low high negated =>
    .expr (.between pos operand low high negated) :: operand.nodes ++ low.nodes ++ high.nodes
  | .inList pos operand members negated =>
    .expr (.inList pos operand members negated) :: operand.nodes ++ exprNodes members
  | .inQuery pos operand query negated =>
    .expr (.inQuery pos operand query negated) :: operand.nodes ++ query.nodes
  | .isValue pos operand negated value =>
    .expr (.isValue pos operand negated value) :: operand.nodes
  | .existsQuery pos query negated => .expr (.existsQuery pos query negated) :: query.nodes
  | .subquery pos query => .expr (.subquery pos query) :: query.nodes
  | .interval pos value unit => .expr (.interval pos value unit) :: value.nodes
  | .array pos elems => .expr (.array pos elems) :: exprNodes elems
  | .map pos keys values => .expr (.map pos keys values) :: exprNodes keys ++ exprNodes values
  | .struct pos names values => .expr (.struct pos names values) :: exprNodes values
  | .lambda pos params body => .expr (.lambda pos params body) :: body.nodes
  | .subscript pos operand index =>
    .expr (.subscript pos operand index) :: operand.nodes ++ index.nodes
  | .extract pos unit operand => .expr (.extract pos unit operand) :: operand.nodes
  | .repeated _ operand => operand.nodes

def Call.parts : Call → List Node
  | ⟨_, _, args, _, orderBy, filter⟩ =>
    exprNodes args ++ orderNodes orderBy ++ optionNodes filter

def exprNodes : List Expr → List Node
  | [] => []
  | e :: es => e.nodes ++ exprNodes es

def optionNodes : Option Expr → List Node
  | none => []
  | some e => e.nodes

def orderNodes : List OrderItem → List Node
  | [] => []
  | ⟨e, _, _⟩ :: rest => e.nodes ++ orderNodes rest

def armNodes : List When → List Node
  | [] => []
  | ⟨condition, result⟩ :: rest => condition.nodes ++ result.nodes ++ armNodes rest

def frameNodes : Option Frame → List Node
  | none => []
  | some ⟨_, first, last⟩ => first.nodes ++ boundNodes last

def boundNodes : Option FrameBound → List Node
  | none => []
  | some bound => bound.nodes

def FrameBound.nodes : FrameBound → List Node
  | ⟨_, offset⟩ => optionNodes offset

def Query.nodes : Query → List Node
  | .select s => .statement (.query (.select s)) :: s.parts
  | .setOp pos op all left right orderBy limit =>
    .statement (.query (.setOp pos op all left right orderBy limit)) :: left.nodes ++
      right.nodes ++ orderNodes orderBy ++ optionNodes limit

def Select.parts : Select → List Node
  | ⟨_, ctes, _, items, source, lateralViews, condition, groupBy, having, orderBy, limit,
      offset⟩ =>
    cteNodes ctes ++ itemNodes items ++ sourceNodes source ++ viewNodes lateralViews ++
      optionNodes condition ++ exprNodes groupBy ++ optionNodes having ++ orderNodes orderBy ++
      optionNodes limit ++ optionNodes offset

def cteNodes : List Cte → List Node
  | [] => []
  | ⟨_, _, body⟩ :: rest => body.nodes ++ cteNodes rest

def CteBody.nodes : CteBody → List Node
  | .query q => q.nodes
  | .scalar e => e.nodes

def itemNodes : List SelectItem → List Node
  | [] => []
  | ⟨e, _⟩ :: rest => e.nodes ++ itemNodes rest

def viewNodes : List LateralView → List Node
  | [] => []
  | ⟨_, function, _, _, _⟩ :: rest => .expr (.call function) :: function.parts ++ viewNodes rest

def sourceNodes : Option TableExpr → List Node
  | none => []
  | some t => t.nodes

def TableExpr.nodes : TableExpr → List Node
  | .ref pos name label final => [.table (.ref pos name label final)]
  | .derived pos query label => .table (.derived pos query label) :: query.nodes
  | .function pos call label =>
    .table (.function pos call label) :: .expr (.call call) :: call.parts
  | .join pos kind left right condition shared =>
    .table (.join pos kind left right condition shared) :: left.nodes ++ right.nodes ++
      optionNodes condition

end

def ColumnDef.nodes (c : ColumnDef) : List Node := c.type.nodes ++ optionNodes c.defaultValue

def CreateTable.parts (t : CreateTable) : List Node :=
  t.columns.flatMap (·.nodes) ++ t.constraints.flatMap (optionNodes ·.condition) ++
    exprNodes t.sortKey ++
    (match t.partitioning with
      | some p => exprNodes p.exprs ++ p.columns.flatMap (·.nodes)
      | none => []) ++
    (t.query.map Query.nodes).getD []

def Statement.nodes : Statement → List Node
  | .query q => q.nodes
  | .insert i =>
    .statement (.insert i) :: i.rows.flatMap exprNodes ++ (i.query.map Query.nodes).getD []
  | .createTable t => .statement (.createTable t) :: t.parts
  | .createView v => .statement (.createView v) :: v.query.nodes
  | .drop pos object ifExists name => [.statement (.drop pos object ifExists name)]
  | .explain pos mode s => .statement (.explain pos mode s) :: s.nodes
  | .expression pos e => .statement (.expression pos e) :: e.nodes

def Expr.firstColumn? (e : Expr) : Option String :=
  e.nodes.findSome? fun
    | .expr (.column _ path) =>
      match path.getLast? with
      | some ident => if ident.name = "" then none else some ident.name
      | none => none
    | _ => none

end SqlDialects
