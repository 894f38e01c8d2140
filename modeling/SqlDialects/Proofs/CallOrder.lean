import SqlDialects.Tree.Visit

/-! The calls of a tree in the order in which a walk from the leaves up comes to them: what stands below a call
comes before it, and parts come from left to right. -/

namespace SqlDialects

/-! ### Calls from the leaves up -/

/-- A function that is called, and where. -/
structure Mention where
  name : String
  pos : Position
deriving Repr, DecidableEq

def Call.mention (c : Call) : Mention := ⟨c.name, c.pos⟩

mutual

def Expr.calls : Expr → List Mention
  | .column .. | .star .. | .literal .. | .param .. => []
  | .binary _ _ left right => left.calls ++ right.calls
  | .unary _ _ operand => operand.calls
  | .call c => c.inner ++ [c.mention]
  | .window _ function partitionBy orderBy frame =>
    function.calls ++ exprCalls partitionBy ++ orderCalls orderBy ++ frameCalls frame
  | .cast _ operand _ _ => operand.calls
  | .caseWhen _ operand arms otherwise => optionCalls operand ++ armCalls arms ++ optionCalls otherwise
  | .between _ operand low high _ => operand.calls ++ low.calls ++ high.calls
  | .inList _ operand members _ => operand.calls ++ exprCalls members
  | .inQuery _ operand query _ => operand.calls ++ query.calls
  | .isValue _ operand _ _ => operand.calls
  | .existsQuery _ query _ => query.calls
  | .subquery _ query => query.calls
  | .interval _ value _ => value.calls
  | .array _ elems => exprCalls elems
  | .map _ keys values => exprCalls keys ++ exprCalls values
  | .struct _ _ values => exprCalls values
  | .lambda _ _ body => body.calls
  | .subscript _ operand index => operand.calls ++ index.calls
  | .extract _ _ operand => operand.calls
  | .repeated _ operand => operand.calls

/-- The calls below a call. -/
def Call.inner : Call → List Mention
  | ⟨_, _, args, _, orderBy, filter⟩ => exprCalls args ++ orderCalls orderBy ++ optionCalls filter

def exprCalls : List Expr → List Mention
  | [] => []
  | e :: es => e.calls ++ exprCalls es

def optionCalls : Option Expr → List Mention
  | none => []
  | some e => e.calls

def orderCalls : List OrderItem → List Mention
  | [] => []
  | ⟨e, _, _⟩ :: rest => e.calls ++ orderCalls rest

def armCalls : List When → List Mention
  | [] => []
  | ⟨condition, result⟩ :: rest => condition.calls ++ result.calls ++ armCalls rest

def frameCalls : Option Frame → List Mention
  | none => []
  | some ⟨_, first, last⟩ => first.calls ++ boundCalls last

def boundCalls : Option FrameBound → List Mention
  | none => []
  | some bound => bound.calls

def FrameBound.calls : FrameBound → List Mention
  | ⟨_, offset⟩ => optionCalls offset

def Query.calls : Query → List Mention
  | .select s => s.calls
  | .setOp _ _ _ left right orderBy limit => left.calls ++ right.calls ++ orderCalls orderBy ++ optionCalls limit

def Select.calls : Select → List Mention
  | ⟨_, ctes, _, items, source, lateralViews, condition, groupBy, having, orderBy, limit, offset⟩ =>
    cteCalls ctes ++ itemCalls items ++ sourceCalls source ++ viewCalls lateralViews ++ optionCalls condition ++
      exprCalls groupBy ++ optionCalls having ++ orderCalls orderBy ++ optionCalls limit ++ optionCalls offset

def cteCalls : List Cte → List Mention
  | [] => []
  | ⟨_, _, body⟩ :: rest => body.calls ++ cteCalls rest

def CteBody.calls : CteBody → List Mention
  | .query q => q.calls
  | .scalar e => e.calls

def itemCalls : List SelectItem → List Mention
  | [] => []
  | ⟨e, _⟩ :: rest => e.calls ++ itemCalls rest

def viewCalls : List LateralView → List Mention
  | [] => []
  | ⟨_, function, _, _, _⟩ :: rest => function.inner ++ function.mention :: viewCalls rest

def sourceCalls : Option TableExpr → List Mention
  | none => []
  | some t => t.calls

def TableExpr.calls : TableExpr → List Mention
  | .ref .. => []
  | .derived _ query _ => query.calls
  | .function _ call _ => call.inner ++ [call.mention]
  | .join _ _ left right condition _ => left.calls ++ right.calls ++ optionCalls condition

end

def queryCalls (q : Option Query) : List Mention := (q.map Query.calls).getD []

def partitioningCalls : Option Partitioning → List Mention
  | none => []
  | some keys => exprCalls keys.exprs ++ keys.columns.flatMap (optionCalls ·.defaultValue)

/-- The calls below a `CREATE TABLE`; properties are not walked over. -/
def CreateTable.calls (t : CreateTable) : List Mention :=
  t.columns.flatMap (optionCalls ·.defaultValue) ++ t.constraints.flatMap (optionCalls ·.condition) ++
    exprCalls t.sortKey ++ partitioningCalls t.partitioning ++ queryCalls t.query

def Statement.calls : Statement → List Mention
  | .query q => q.calls
  | .insert i => i.rows.flatMap exprCalls ++ queryCalls i.query
  | .createTable t => t.calls
  | .createView v => v.query.calls
  | .drop .. => []
  | .explain _ _ s => s.calls
  | .expression _ e => e.calls

def Node.calls : Node → List Mention
  | .expr e => e.calls
  | .statement s => s.calls
  | .table t => t.calls
  | .type _ => []

/-! ### The call that an expression is itself -/

/-- The call that an expression is, if it is one. -/
def Expr.own : Expr → List Mention
  | .call c => [c.mention]
  | .repeated _ operand => operand.own
  | _ => []

/-- The calls below an expression. -/
def Expr.beneath : Expr → List Mention
  | .call c => c.inner
  | .repeated _ operand => operand.beneath
  | e => e.calls

theorem Expr.calls_eq : ∀ e : Expr, e.calls = e.beneath ++ e.own
  | .repeated _ operand => operand.calls_eq
  | .call _ => rfl
  | .column .. | .star .. | .literal .. | .param .. | .binary .. | .unary .. | .window .. | .cast .. | .caseWhen ..
  | .between .. | .inList .. | .inQuery .. | .isValue .. | .existsQuery .. | .subquery .. | .interval .. | .array ..
  | .map .. | .struct .. | .lambda .. | .subscript .. | .extract .. => (List.append_nil _).symm

/-! ### Calls among the nodes -/

@[simp] def Node.mention? : Node → Option Mention
  | .expr (.call c) => some c.mention
  | _ => none

/-- The calls among nodes. -/
def mentioned (ns : List Node) : List Mention := ns.filterMap Node.mention?

@[simp] theorem mentioned_append (ns others : List Node) :
    mentioned (ns ++ others) = mentioned ns ++ mentioned others :=
  List.filterMap_append

@[simp] theorem mentioned_cons (n : Node) (ns : List Node) :
    mentioned (n :: ns) = n.mention?.toList ++ mentioned ns := by
  rw [mentioned, List.filterMap_cons]
  cases n.mention? <;> rfl

@[simp] theorem mentioned_nil : mentioned [] = [] := rfl

private theorem TypeSpec.mentioned_nodes (t : TypeSpec) : mentioned t.nodes = [] := t.filterMap_nodes fun _ => rfl

section

variable {m : Mention}

mutual

theorem Expr.mem_calls : ∀ e : Expr, m ∈ e.calls ↔ m ∈ mentioned e.nodes
  | .column .. | .star .. | .literal .. | .param .. => by simp [Expr.calls, Expr.nodes]
  | .binary _ _ left right | .subscript _ left right => by
    simp [Expr.calls, Expr.nodes, left.mem_calls, right.mem_calls]
  | .unary _ _ e | .isValue _ e _ _ | .interval _ e _ | .lambda _ _ e | .extract _ _ e | .repeated _ e => by
    simp [Expr.calls, Expr.nodes, e.mem_calls]
  | .call c => by simp [Expr.calls, Expr.nodes, c.mem_inner, or_comm]
  | .window _ function partitionBy orderBy frame => by
    simp [Expr.calls, Expr.nodes, function.mem_calls, mem_exprCalls partitionBy, mem_orderCalls orderBy,
      mem_frameCalls frame]
  | .cast _ operand type _ => by simp [Expr.calls, Expr.nodes, operand.mem_calls, type.mentioned_nodes]
  | .caseWhen _ operand arms otherwise => by
    simp [Expr.calls, Expr.nodes, mem_optionCalls operand, mem_armCalls arms, mem_optionCalls otherwise]
  | .between _ operand low high _ => by
    simp [Expr.calls, Expr.nodes, operand.mem_calls, low.mem_calls, high.mem_calls]
  | .inList _ operand members _ => by simp [Expr.calls, Expr.nodes, operand.mem_calls, mem_exprCalls members]
  | .inQuery _ operand query _ => by simp [Expr.calls, Expr.nodes, operand.mem_calls, query.mem_calls]
  | .existsQuery _ query _ | .subquery _ query => by simp [Expr.calls, Expr.nodes, query.mem_calls]
  | .array _ es | .struct _ _ es => by simp [Expr.calls, Expr.nodes, mem_exprCalls es]
  | .map _ keys values => by simp [Expr.calls, Expr.nodes, mem_exprCalls keys, mem_exprCalls values]

theorem Call.mem_inner : ∀ c : Call, m ∈ c.inner ↔ m ∈ mentioned c.parts
  | ⟨_, _, args, _, orderBy, filter⟩ => by
    simp [Call.inner, Call.parts, mem_exprCalls args, mem_orderCalls orderBy, mem_optionCalls filter]

theorem mem_exprCalls : ∀ es : List Expr, m ∈ exprCalls es ↔ m ∈ mentioned (exprNodes es)
  | [] => .rfl
  | e :: es => by simp [exprCalls, exprNodes, e.mem_calls, mem_exprCalls es]

theorem mem_optionCalls : ∀ e : Option Expr, m ∈ optionCalls e ↔ m ∈ mentioned (optionNodes e)
  | none => .rfl
  | some e => by simp [optionCalls, optionNodes, e.mem_calls]

theorem mem_orderCalls : ∀ items : List OrderItem, m ∈ orderCalls items ↔ m ∈ mentioned (orderNodes items)
  | [] => .rfl
  | ⟨e, _, _⟩ :: rest => by simp [orderCalls, orderNodes, e.mem_calls, mem_orderCalls rest]

theorem mem_armCalls : ∀ arms : List When, m ∈ armCalls arms ↔ m ∈ mentioned (armNodes arms)
  | [] => .rfl
  | ⟨condition, result⟩ :: rest => by
    simp [armCalls, armNodes, condition.mem_calls, result.mem_calls, mem_armCalls rest]

theorem mem_frameCalls : ∀ frame : Option Frame, m ∈ frameCalls frame ↔ m ∈ mentioned (frameNodes frame)
  | none => .rfl
  | some ⟨_, first, last⟩ => by simp [frameCalls, frameNodes, first.mem_calls, mem_boundCalls last]

theorem mem_boundCalls : ∀ bound : Option FrameBound, m ∈ boundCalls bound ↔ m ∈ mentioned (boundNodes bound)
  | none => .rfl
  | some bound => by simp [boundCalls, boundNodes, bound.mem_calls]

theorem FrameBound.mem_calls : ∀ bound : FrameBound, m ∈ bound.calls ↔ m ∈ mentioned bound.nodes
  | ⟨_, offset⟩ => by simp [FrameBound.calls, FrameBound.nodes, mem_optionCalls offset]

theorem Query.mem_calls : ∀ q : Query, m ∈ q.calls ↔ m ∈ mentioned q.nodes
  | .select s => by simp [Query.calls, Query.nodes, s.mem_calls]
  | .setOp _ _ _ left right orderBy limit => by
    simp [Query.calls, Query.nodes, left.mem_calls, right.mem_calls, mem_orderCalls orderBy, mem_optionCalls limit]

theorem Select.mem_calls : ∀ s : Select, m ∈ s.calls ↔ m ∈ mentioned s.parts
  | ⟨_, ctes, _, items, source, lateralViews, condition, groupBy, having, orderBy, limit, offset⟩ => by
    simp [Select.calls, Select.parts, mem_cteCalls ctes, mem_itemCalls items, mem_sourceCalls source,
      mem_viewCalls lateralViews, mem_optionCalls condition, mem_exprCalls groupBy, mem_optionCalls having,
      mem_orderCalls orderBy, mem_optionCalls limit, mem_optionCalls offset]

theorem mem_cteCalls : ∀ ctes : List Cte, m ∈ cteCalls ctes ↔ m ∈ mentioned (cteNodes ctes)
  | [] => .rfl
  | ⟨_, _, body⟩ :: rest => by simp [cteCalls, cteNodes, body.mem_calls, mem_cteCalls rest]

theorem CteBody.mem_calls : ∀ body : CteBody, m ∈ body.calls ↔ m ∈ mentioned body.nodes
  | .query q => by simp [CteBody.calls, CteBody.nodes, q.mem_calls]
  | .scalar e => by simp [CteBody.calls, CteBody.nodes, e.mem_calls]

theorem mem_itemCalls : ∀ items : List SelectItem, m ∈ itemCalls items ↔ m ∈ mentioned (itemNodes items)
  | [] => .rfl
  | ⟨e, _⟩ :: rest => by simp [itemCalls, itemNodes, e.mem_calls, mem_itemCalls rest]

theorem mem_viewCalls : ∀ views : List LateralView, m ∈ viewCalls views ↔ m ∈ mentioned (viewNodes views)
  | [] => .rfl
  | ⟨_, function, _, _, _⟩ :: rest => by
    simp [viewCalls, viewNodes, function.mem_inner, mem_viewCalls rest, or_left_comm]

theorem mem_sourceCalls : ∀ source : Option TableExpr, m ∈ sourceCalls source ↔ m ∈ mentioned (sourceNodes source)
  | none => .rfl
  | some t => by simp [sourceCalls, sourceNodes, t.mem_calls]

theorem TableExpr.mem_calls : ∀ t : TableExpr, m ∈ t.calls ↔ m ∈ mentioned t.nodes
  | .ref .. => by simp [TableExpr.calls, TableExpr.nodes]
  | .derived _ query _ => by simp [TableExpr.calls, TableExpr.nodes, query.mem_calls]
  | .function _ call _ => by simp [TableExpr.calls, TableExpr.nodes, call.mem_inner, or_comm]
  | .join _ _ left right condition _ => by
    simp [TableExpr.calls, TableExpr.nodes, left.mem_calls, right.mem_calls, mem_optionCalls condition]

end

private theorem mem_flatMap_mentioned {α : Type} {nodes : α → List Node} {calls : α → List Mention}
    (each : ∀ x, m ∈ calls x ↔ m ∈ mentioned (nodes x)) (xs : List α) :
    m ∈ xs.flatMap calls ↔ m ∈ mentioned (xs.flatMap nodes) := by
  induction xs with
  | nil => rfl
  | cons x rest ih => simp [each, ih]

private theorem mem_queryCalls (q : Option Query) :
    m ∈ queryCalls q ↔ m ∈ mentioned ((q.map Query.nodes).getD []) := by
  cases q with
  | none => rfl
  | some q => exact q.mem_calls

private theorem ColumnDef.mem_calls (c : ColumnDef) : m ∈ optionCalls c.defaultValue ↔ m ∈ mentioned c.nodes := by
  simp [ColumnDef.nodes, mem_optionCalls, c.type.mentioned_nodes]

private theorem CreateTable.mem_calls (t : CreateTable) : m ∈ t.calls ↔ m ∈ mentioned t.parts := by
  have columns := mem_flatMap_mentioned (m := m) ColumnDef.mem_calls t.columns
  have constraints := mem_flatMap_mentioned (m := m) (fun c => mem_optionCalls c.condition) t.constraints
  cases partitioned : t.partitioning with
  | none =>
    simp only [CreateTable.calls, CreateTable.parts, partitioned, mentioned_append, List.mem_append, columns,
      constraints, mem_exprCalls, mem_queryCalls, partitioningCalls, mentioned_nil]
  | some keys =>
    have declared := mem_flatMap_mentioned (m := m) ColumnDef.mem_calls keys.columns
    simp only [CreateTable.calls, CreateTable.parts, partitioned, mentioned_append, List.mem_append, columns,
      constraints, mem_exprCalls, mem_queryCalls, partitioningCalls, declared]

theorem Statement.mem_calls (s : Statement) : m ∈ s.calls ↔ m ∈ mentioned s.nodes := by
  induction s with
  | query q => exact q.mem_calls
  | insert i =>
    have rows := mem_flatMap_mentioned (m := m) mem_exprCalls i.rows
    simp [Statement.calls, Statement.nodes, rows, mem_queryCalls]
  | createTable t => simpa [Statement.calls, Statement.nodes] using t.mem_calls
  | createView v => simp [Statement.calls, Statement.nodes, v.query.mem_calls]
  | drop => simp [Statement.calls, Statement.nodes]
  | explain _ _ s ih => simpa [Statement.calls, Statement.nodes] using ih
  | expression _ e => simp [Statement.calls, Statement.nodes, e.mem_calls]

end

end SqlDialects
