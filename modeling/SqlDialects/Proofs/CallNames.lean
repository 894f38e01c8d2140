import SqlDialects.Tree.Visit

/-! Trees with other names for the functions that they call. Their nodes are the nodes of the tree under the new names,
and a tree without calls to rename stays what it is. Hence renaming a tree twice is renaming it once, as long as no new
name is renamed in its turn. -/

namespace SqlDialects

/-! ### Renamed trees -/

/-- The call with another name for its function. -/
def Call.named (f : String → String) (c : Call) : Call := { c with name := f c.name }

theorem Call.named_eq {f : String → String} {c : Call} (same : f c.name = c.name) : c.named f = c := by
  cases c
  simp_all [Call.named]

mutual

/-- The expression with other names for the calls below it and, by `g`, for the call that it is itself. -/
def Expr.renameWith (f g : String → String) : Expr → Expr
  | .column pos path => .column pos path
  | .star pos table => .star pos table
  | .literal pos kind value => .literal pos kind value
  | .param pos text => .param pos text
  | .binary pos op left right => .binary pos op (left.renameWith f f) (right.renameWith f f)
  | .unary pos op operand => .unary pos op (operand.renameWith f f)
  | .call c => .call (c.renameWith f g)
  | .window pos function partitionBy orderBy frame =>
    .window pos (function.renameWith f f) (renameExprs f partitionBy) (renameOrder f orderBy) (renameFrame f frame)
  | .cast pos operand type tolerant => .cast pos (operand.renameWith f f) type tolerant
  | .caseWhen pos operand arms otherwise =>
    .caseWhen pos (renameOption f operand) (renameArms f arms) (renameOption f otherwise)
  | .between pos operand low high negated =>
    .between pos (operand.renameWith f f) (low.renameWith f f) (high.renameWith f f) negated
  | .inList pos operand members negated => .inList pos (operand.renameWith f f) (renameExprs f members) negated
  | .inQuery pos operand query negated => .inQuery pos (operand.renameWith f f) (query.rename f) negated
  | .isValue pos operand negated value => .isValue pos (operand.renameWith f f) negated value
  | .existsQuery pos query negated => .existsQuery pos (query.rename f) negated
  | .subquery pos query => .subquery pos (query.rename f)
  | .interval pos value unit => .interval pos (value.renameWith f f) unit
  | .array pos elems => .array pos (renameExprs f elems)
  | .map pos keys values => .map pos (renameExprs f keys) (renameExprs f values)
  | .struct pos names values => .struct pos names (renameExprs f values)
  | .lambda pos params body => .lambda pos params (body.renameWith f f)
  | .subscript pos operand index => .subscript pos (operand.renameWith f f) (index.renameWith f f)
  | .extract pos unit operand => .extract pos unit (operand.renameWith f f)
  | .repeated place operand => .repeated place (operand.renameWith f g)

def Call.renameWith (f g : String → String) : Call → Call
  | ⟨pos, name, args, distinct, orderBy, filter⟩ =>
    ⟨pos, g name, renameExprs f args, distinct, renameOrder f orderBy, renameOption f filter⟩

def renameExprs (f : String → String) : List Expr → List Expr
  | [] => []
  | e :: es => e.renameWith f f :: renameExprs f es

def renameOption (f : String → String) : Option Expr → Option Expr
  | none => none
  | some e => some (e.renameWith f f)

def renameOrder (f : String → String) : List OrderItem → List OrderItem
  | [] => []
  | ⟨e, descending, nullsFirst⟩ :: rest => ⟨e.renameWith f f, descending, nullsFirst⟩ :: renameOrder f rest

def renameArms (f : String → String) : List When → List When
  | [] => []
  | ⟨condition, result⟩ :: rest => ⟨condition.renameWith f f, result.renameWith f f⟩ :: renameArms f rest

def renameFrame (f : String → String) : Option Frame → Option Frame
  | none => none
  | some ⟨unit, first, last⟩ => some ⟨unit, first.rename f, renameBound f last⟩

def renameBound (f : String → String) : Option FrameBound → Option FrameBound
  | none => none
  | some bound => some (bound.rename f)

def FrameBound.rename (f : String → String) : FrameBound → FrameBound
  | ⟨kind, offset⟩ => ⟨kind, renameOption f offset⟩

/-- The query with other names for its calls. -/
def Query.rename (f : String → String) : Query → Query
  | .select s => .select (s.rename f)
  | .setOp pos op all left right orderBy limit =>
    .setOp pos op all (left.rename f) (right.rename f) (renameOrder f orderBy) (renameOption f limit)

def Select.rename (f : String → String) : Select → Select
  | ⟨pos, ctes, distinct, items, source, lateralViews, condition, groupBy, having, orderBy, limit, offset⟩ =>
    ⟨pos, renameCtes f ctes, distinct, renameItems f items, renameSource f source, renameViews f lateralViews,
      renameOption f condition, renameExprs f groupBy, renameOption f having, renameOrder f orderBy,
      renameOption f limit, renameOption f offset⟩

def renameCtes (f : String → String) : List Cte → List Cte
  | [] => []
  | ⟨name, columns, body⟩ :: rest => ⟨name, columns, body.rename f⟩ :: renameCtes f rest

def CteBody.rename (f : String → String) : CteBody → CteBody
  | .query q => .query (q.rename f)
  | .scalar e => .scalar (e.renameWith f f)

def renameItems (f : String → String) : List SelectItem → List SelectItem
  | [] => []
  | ⟨e, label⟩ :: rest => ⟨e.renameWith f f, label⟩ :: renameItems f rest

def renameViews (f : String → String) : List LateralView → List LateralView
  | [] => []
  | ⟨pos, function, outer, table, columns⟩ :: rest =>
    ⟨pos, function.renameWith f f, outer, table, columns⟩ :: renameViews f rest

def renameSource (f : String → String) : Option TableExpr → Option TableExpr
  | none => none
  | some t => some (t.rename f)

/-- The table expression with other names for its calls. -/
def TableExpr.rename (f : String → String) : TableExpr → TableExpr
  | .ref pos name label final => .ref pos name label final
  | .derived pos query label => .derived pos (query.rename f) label
  | .function pos call label => .function pos (call.renameWith f f) label
  | .join pos kind left right condition shared =>
    .join pos kind (left.rename f) (right.rename f) (renameOption f condition) shared

end

def ColumnDef.rename (f : String → String) (c : ColumnDef) : ColumnDef :=
  { c with defaultValue := renameOption f c.defaultValue }

def Constraint.rename (f : String → String) (c : Constraint) : Constraint :=
  { c with condition := renameOption f c.condition }

def Partitioning.rename (f : String → String) (keys : Partitioning) : Partitioning :=
  { keys with exprs := renameExprs f keys.exprs, columns := keys.columns.map (·.rename f) }

/-- Properties are kept as they are. -/
def CreateTable.rename (f : String → String) (t : CreateTable) : CreateTable :=
  { t with
    columns := t.columns.map (·.rename f)
    constraints := t.constraints.map (·.rename f)
    sortKey := renameExprs f t.sortKey
    partitioning := t.partitioning.map (·.rename f)
    query := t.query.map (·.rename f) }

/-- The statement with other names for the calls in it. -/
def Statement.rename (f : String → String) : Statement → Statement
  | .query q => .query (q.rename f)
  | .insert i => .insert { i with rows := i.rows.map (renameExprs f), query := i.query.map (·.rename f) }
  | .createTable t => .createTable (t.rename f)
  | .createView v => .createView { v with query := v.query.rename f }
  | .drop pos object ifExists name => .drop pos object ifExists name
  | .explain pos mode s => .explain pos mode (s.rename f)
  | .expression pos e => .expression pos (e.renameWith f f)

/-- The node with other names for the calls in it. -/
def Node.rename (f : String → String) : Node → Node
  | .expr e => .expr (e.renameWith f f)
  | .statement s => .statement (s.rename f)
  | .table t => .table (t.rename f)
  | .type t => .type t

theorem Node.rename_call {f : String → String} {n : Node} {c : Call} (renamed : n.rename f = .expr (.call c)) :
    ∃ name, c.name = f name := by
  cases n with
  | expr e =>
    cases e with
    | call d =>
      cases d
      cases renamed
      exact ⟨_, rfl⟩
    | _ => simp [Node.rename, Expr.renameWith] at renamed
  | _ => simp [Node.rename] at renamed

/-! ### The nodes of a renamed tree -/

theorem TypeSpec.map_nodes (f : String → String) (t : TypeSpec) : t.nodes.map (Node.rename f) = t.nodes := by
  refine (List.map_congr_left fun n member => ?_).trans (List.map_id _)
  obtain ⟨u, rfl⟩ := t.type_of_mem member
  rfl

mutual

theorem Expr.nodes_rename (f : String → String) :
    ∀ e : Expr, (e.renameWith f f).nodes = e.nodes.map (Node.rename f)
  | .column .. | .star .. | .literal .. | .param .. => by
    simp only [Expr.renameWith, Expr.nodes, List.map_cons, List.map_nil, Node.rename]
  | .binary _ _ left right => by
    simp only [Expr.renameWith, Expr.nodes, List.map_cons, List.map_append, Node.rename, left.nodes_rename f,
      right.nodes_rename f]
  | .unary _ _ operand | .isValue _ operand _ _ | .lambda _ _ operand | .extract _ _ operand
  | .interval _ operand _ => by
    simp only [Expr.renameWith, Expr.nodes, List.map_cons, Node.rename, operand.nodes_rename f]
  | .call c => by simp only [Expr.renameWith, Expr.nodes, List.map_cons, Node.rename, c.parts_rename f]
  | .window _ function partitionBy orderBy frame => by
    simp only [Expr.renameWith, Expr.nodes, List.map_cons, List.map_append, Node.rename, function.nodes_rename f,
      exprNodes_rename f partitionBy, orderNodes_rename f orderBy, frameNodes_rename f frame]
  | .cast _ operand type _ => by
    simp only [Expr.renameWith, Expr.nodes, List.map_cons, List.map_append, Node.rename, operand.nodes_rename f,
      type.map_nodes f]
  | .caseWhen _ operand arms otherwise => by
    simp only [Expr.renameWith, Expr.nodes, List.map_cons, List.map_append, Node.rename,
      optionNodes_rename f operand, armNodes_rename f arms, optionNodes_rename f otherwise]
  | .between _ operand low high _ => by
    simp only [Expr.renameWith, Expr.nodes, List.map_cons, List.map_append, Node.rename, operand.nodes_rename f,
      low.nodes_rename f, high.nodes_rename f]
  | .inList _ operand members _ => by
    simp only [Expr.renameWith, Expr.nodes, List.map_cons, List.map_append, Node.rename, operand.nodes_rename f,
      exprNodes_rename f members]
  | .inQuery _ operand query _ => by
    simp only [Expr.renameWith, Expr.nodes, List.map_cons, List.map_append, Node.rename, operand.nodes_rename f,
      query.nodes_rename f]
  | .existsQuery _ query _ | .subquery _ query => by
    simp only [Expr.renameWith, Expr.nodes, List.map_cons, Node.rename, query.nodes_rename f]
  | .array _ elems | .struct _ _ elems => by
    simp only [Expr.renameWith, Expr.nodes, List.map_cons, Node.rename, exprNodes_rename f elems]
  | .map _ keys values => by
    simp only [Expr.renameWith, Expr.nodes, List.map_cons, List.map_append, Node.rename, exprNodes_rename f keys,
      exprNodes_rename f values]
  | .subscript _ operand index => by
    simp only [Expr.renameWith, Expr.nodes, List.map_cons, List.map_append, Node.rename, operand.nodes_rename f,
      index.nodes_rename f]
  | .repeated _ operand => by simp only [Expr.renameWith, Expr.nodes, operand.nodes_rename f]

theorem Call.parts_rename (f : String → String) :
    ∀ c : Call, (c.renameWith f f).parts = c.parts.map (Node.rename f)
  | ⟨_, _, args, _, orderBy, filter⟩ => by
    simp only [Call.renameWith, Call.parts, List.map_append, exprNodes_rename f args, orderNodes_rename f orderBy,
      optionNodes_rename f filter]

theorem exprNodes_rename (f : String → String) :
    ∀ es : List Expr, exprNodes (renameExprs f es) = (exprNodes es).map (Node.rename f)
  | [] => rfl
  | e :: es => by simp only [renameExprs, exprNodes, List.map_append, e.nodes_rename f, exprNodes_rename f es]

theorem optionNodes_rename (f : String → String) :
    ∀ e : Option Expr, optionNodes (renameOption f e) = (optionNodes e).map (Node.rename f)
  | none => rfl
  | some e => by simp only [renameOption, optionNodes, e.nodes_rename f]

theorem orderNodes_rename (f : String → String) :
    ∀ items : List OrderItem, orderNodes (renameOrder f items) = (orderNodes items).map (Node.rename f)
  | [] => rfl
  | ⟨e, _, _⟩ :: rest => by
    simp only [renameOrder, orderNodes, List.map_append, e.nodes_rename f, orderNodes_rename f rest]

theorem armNodes_rename (f : String → String) :
    ∀ arms : List When, armNodes (renameArms f arms) = (armNodes arms).map (Node.rename f)
  | [] => rfl
  | ⟨condition, result⟩ :: rest => by
    simp only [renameArms, armNodes, List.map_append, condition.nodes_rename f, result.nodes_rename f,
      armNodes_rename f rest]

theorem frameNodes_rename (f : String → String) :
    ∀ frame : Option Frame, frameNodes (renameFrame f frame) = (frameNodes frame).map (Node.rename f)
  | none => rfl
  | some ⟨_, first, last⟩ => by
    simp only [renameFrame, frameNodes, List.map_append, first.nodes_rename f, boundNodes_rename f last]

theorem boundNodes_rename (f : String → String) :
    ∀ bound : Option FrameBound, boundNodes (renameBound f bound) = (boundNodes bound).map (Node.rename f)
  | none => rfl
  | some bound => by simp only [renameBound, boundNodes, bound.nodes_rename f]

theorem FrameBound.nodes_rename (f : String → String) :
    ∀ bound : FrameBound, (bound.rename f).nodes = bound.nodes.map (Node.rename f)
  | ⟨_, offset⟩ => by simp only [FrameBound.rename, FrameBound.nodes, optionNodes_rename f offset]

theorem Query.nodes_rename (f : String → String) :
    ∀ q : Query, (q.rename f).nodes = q.nodes.map (Node.rename f)
  | .select s => by simp only [Query.rename, Query.nodes, List.map_cons, Node.rename,
      Statement.rename, s.parts_rename f]
  | .setOp _ _ _ left right orderBy limit => by
    simp only [Query.rename, Query.nodes, List.map_cons, List.map_append, Node.rename, Statement.rename,
      left.nodes_rename f, right.nodes_rename f, orderNodes_rename f orderBy, optionNodes_rename f limit]

theorem Select.parts_rename (f : String → String) :
    ∀ s : Select, (s.rename f).parts = s.parts.map (Node.rename f)
  | ⟨_, ctes, _, items, source, lateralViews, condition, groupBy, having, orderBy, limit, offset⟩ => by
    simp only [Select.rename, Select.parts, List.map_append, cteNodes_rename f ctes, itemNodes_rename f items,
      sourceNodes_rename f source, viewNodes_rename f lateralViews, optionNodes_rename f condition,
      exprNodes_rename f groupBy, optionNodes_rename f having, orderNodes_rename f orderBy, optionNodes_rename f limit,
      optionNodes_rename f offset]

theorem cteNodes_rename (f : String → String) :
    ∀ ctes : List Cte, cteNodes (renameCtes f ctes) = (cteNodes ctes).map (Node.rename f)
  | [] => rfl
  | ⟨_, _, body⟩ :: rest => by
    simp only [renameCtes, cteNodes, List.map_append, body.nodes_rename f, cteNodes_rename f rest]

theorem CteBody.nodes_rename (f : String → String) :
    ∀ body : CteBody, (body.rename f).nodes = body.nodes.map (Node.rename f)
  | .query q => by simp only [CteBody.rename, CteBody.nodes, q.nodes_rename f]
  | .scalar e => by simp only [CteBody.rename, CteBody.nodes, e.nodes_rename f]

theorem itemNodes_rename (f : String → String) :
    ∀ items : List SelectItem, itemNodes (renameItems f items) = (itemNodes items).map (Node.rename f)
  | [] => rfl
  | ⟨e, _⟩ :: rest => by
    simp only [renameItems, itemNodes, List.map_append, e.nodes_rename f, itemNodes_rename f rest]

theorem viewNodes_rename (f : String → String) :
    ∀ views : List LateralView, viewNodes (renameViews f views) = (viewNodes views).map (Node.rename f)
  | [] => rfl
  | ⟨_, function, _, _, _⟩ :: rest => by
    simp only [renameViews, viewNodes, List.map_cons, List.map_append, Node.rename, Expr.renameWith,
      function.parts_rename f, viewNodes_rename f rest]

theorem sourceNodes_rename (f : String → String) :
    ∀ source : Option TableExpr, sourceNodes (renameSource f source) = (sourceNodes source).map (Node.rename f)
  | none => rfl
  | some t => by simp only [renameSource, sourceNodes, t.nodes_rename f]

theorem TableExpr.nodes_rename (f : String → String) :
    ∀ t : TableExpr, (t.rename f).nodes = t.nodes.map (Node.rename f)
  | .ref .. => by simp only [TableExpr.rename, TableExpr.nodes, List.map_cons, List.map_nil, Node.rename]
  | .derived _ query _ => by
    simp only [TableExpr.rename, TableExpr.nodes, List.map_cons, Node.rename, query.nodes_rename f]
  | .function _ call _ => by
    simp only [TableExpr.rename, TableExpr.nodes, List.map_cons, Node.rename, Expr.renameWith, call.parts_rename f]
  | .join _ _ left right condition _ => by
    simp only [TableExpr.rename, TableExpr.nodes, List.map_cons, List.map_append, Node.rename, left.nodes_rename f,
      right.nodes_rename f, optionNodes_rename f condition]

end

theorem ColumnDef.nodes_rename (f : String → String) (c : ColumnDef) :
    (c.rename f).nodes = c.nodes.map (Node.rename f) := by
  simp only [ColumnDef.rename, ColumnDef.nodes, List.map_append, c.type.map_nodes f, optionNodes_rename f]

private theorem flatMap_rename {α : Type} {f : String → String} {nodes : α → List Node} {renamed : α → α} {xs : List α}
    (each : ∀ x, nodes (renamed x) = (nodes x).map (Node.rename f)) :
    (xs.map renamed).flatMap nodes = (xs.flatMap nodes).map (Node.rename f) := by
  rw [List.flatMap_map, List.map_flatMap]
  simp only [each]

private theorem queryNodes_rename (f : String → String) (q : Option Query) :
    ((q.map (·.rename f)).map Query.nodes).getD [] = ((q.map Query.nodes).getD []).map (Node.rename f) := by
  cases q with
  | none => rfl
  | some q => exact q.nodes_rename f

theorem CreateTable.parts_rename (f : String → String) (t : CreateTable) :
    (t.rename f).parts = t.parts.map (Node.rename f) := by
  have columns (cs : List ColumnDef) :
      (cs.map (·.rename f)).flatMap (·.nodes) = (cs.flatMap (·.nodes)).map (Node.rename f) :=
    flatMap_rename (ColumnDef.nodes_rename f)
  have conditions : (t.constraints.map (·.rename f)).flatMap (optionNodes ·.condition) =
      (t.constraints.flatMap (optionNodes ·.condition)).map (Node.rename f) :=
    flatMap_rename fun c => optionNodes_rename f c.condition
  cases given : t.partitioning with
  | none =>
    simp only [CreateTable.rename, CreateTable.parts, given, Option.map_none, List.map_append, List.map_nil, columns,
      conditions, exprNodes_rename f, queryNodes_rename f]
  | some keys =>
    simp only [CreateTable.rename, CreateTable.parts, given, Option.map_some, Partitioning.rename, List.map_append,
      columns, conditions, exprNodes_rename f, queryNodes_rename f]

theorem Statement.nodes_rename (f : String → String) (s : Statement) :
    (s.rename f).nodes = s.nodes.map (Node.rename f) := by
  induction s with
  | query q => exact q.nodes_rename f
  | insert i =>
    simp only [Statement.rename, Statement.nodes, List.map_cons, List.map_append, Node.rename, queryNodes_rename f,
      flatMap_rename (exprNodes_rename f)]
  | createTable t => simp only [Statement.rename, Statement.nodes, List.map_cons, Node.rename, t.parts_rename f]
  | createView v => simp only [Statement.rename, Statement.nodes, List.map_cons, Node.rename, v.query.nodes_rename f]
  | drop => rfl
  | explain pos mode s ih => simp only [Statement.rename, Statement.nodes, List.map_cons, Node.rename, ih]
  | expression pos e => simp only [Statement.rename, Statement.nodes, List.map_cons, Node.rename, e.nodes_rename f]

/-! ### Trees without calls to rename -/

/-- A call under a name that is its own new name, or another node. -/
def Node.Keeps (f : String → String) (n : Node) : Prop := ∀ c, n = .expr (.call c) → f c.name = c.name

section

variable {f : String → String}

mutual

theorem Expr.rename_keeps : ∀ e : Expr, (∀ n ∈ e.nodes, n.Keeps f) → e.renameWith f f = e
  | .column .., _ | .star .., _ | .literal .., _ | .param .., _ => by simp only [Expr.renameWith]
  | .unary _ _ operand, keeps | .isValue _ operand _ _, keeps | .lambda _ _ operand, keeps
  | .extract _ _ operand, keeps | .interval _ operand _, keeps => by
    rw [Expr.renameWith, operand.rename_keeps (List.forall_mem_cons.mp keeps).2]
  | .binary _ _ left right, keeps | .subscript _ left right, keeps => by
    simp only [Expr.nodes, List.cons_append, List.forall_mem_cons, List.forall_mem_append] at keeps
    obtain ⟨-, first, second⟩ := keeps
    rw [Expr.renameWith, left.rename_keeps first, right.rename_keeps second]
  | .call c, keeps => by
    obtain ⟨name, parts⟩ := List.forall_mem_cons.mp keeps
    rw [Expr.renameWith, c.rename_keeps (name c rfl) parts]
  | .window _ function partitionBy orderBy frame, keeps => by
    simp only [Expr.nodes, List.cons_append, List.forall_mem_cons, List.forall_mem_append] at keeps
    obtain ⟨-, ⟨⟨called, partitioned⟩, sorted⟩, framed⟩ := keeps
    rw [Expr.renameWith, function.rename_keeps called, renameExprs_keeps partitionBy partitioned,
      renameOrder_keeps orderBy sorted, renameFrame_keeps frame framed]
  | .cast _ operand _ _, keeps => by
    simp only [Expr.nodes, List.cons_append, List.forall_mem_cons, List.forall_mem_append] at keeps
    rw [Expr.renameWith, operand.rename_keeps keeps.2.1]
  | .caseWhen _ operand arms otherwise, keeps => by
    simp only [Expr.nodes, List.cons_append, List.forall_mem_cons, List.forall_mem_append] at keeps
    obtain ⟨-, ⟨first, second⟩, third⟩ := keeps
    rw [Expr.renameWith, renameOption_keeps operand first, renameArms_keeps arms second,
      renameOption_keeps otherwise third]
  | .between _ operand low high _, keeps => by
    simp only [Expr.nodes, List.cons_append, List.forall_mem_cons, List.forall_mem_append] at keeps
    obtain ⟨-, ⟨first, second⟩, third⟩ := keeps
    rw [Expr.renameWith, operand.rename_keeps first, low.rename_keeps second, high.rename_keeps third]
  | .inList _ operand members _, keeps => by
    simp only [Expr.nodes, List.cons_append, List.forall_mem_cons, List.forall_mem_append] at keeps
    rw [Expr.renameWith, operand.rename_keeps keeps.2.1, renameExprs_keeps members keeps.2.2]
  | .inQuery _ operand query _, keeps => by
    simp only [Expr.nodes, List.cons_append, List.forall_mem_cons, List.forall_mem_append] at keeps
    rw [Expr.renameWith, operand.rename_keeps keeps.2.1, query.rename_keeps keeps.2.2]
  | .existsQuery _ query _, keeps | .subquery _ query, keeps => by
    rw [Expr.renameWith, query.rename_keeps (List.forall_mem_cons.mp keeps).2]
  | .array _ elems, keeps | .struct _ _ elems, keeps => by
    rw [Expr.renameWith, renameExprs_keeps elems (List.forall_mem_cons.mp keeps).2]
  | .map _ keys values, keeps => by
    simp only [Expr.nodes, List.cons_append, List.forall_mem_cons, List.forall_mem_append] at keeps
    rw [Expr.renameWith, renameExprs_keeps keys keeps.2.1, renameExprs_keeps values keeps.2.2]
  | .repeated _ operand, keeps => by rw [Expr.renameWith, operand.rename_keeps keeps]

theorem Call.rename_keeps : ∀ c : Call, f c.name = c.name → (∀ n ∈ c.parts, n.Keeps f) → c.renameWith f f = c
  | ⟨_, _, args, _, orderBy, filter⟩, name, keeps => by
    simp only [Call.parts, List.forall_mem_append] at keeps
    obtain ⟨⟨first, second⟩, third⟩ := keeps
    rw [Call.renameWith, name, renameExprs_keeps args first, renameOrder_keeps orderBy second,
      renameOption_keeps filter third]

theorem renameExprs_keeps : ∀ es : List Expr, (∀ n ∈ exprNodes es, n.Keeps f) → renameExprs f es = es
  | [], _ => rfl
  | e :: es, keeps => by
    obtain ⟨first, rest⟩ := List.forall_mem_append.mp keeps
    rw [renameExprs, e.rename_keeps first, renameExprs_keeps es rest]

theorem renameOption_keeps : ∀ e : Option Expr, (∀ n ∈ optionNodes e, n.Keeps f) → renameOption f e = e
  | none, _ => rfl
  | some e, keeps => by rw [renameOption, e.rename_keeps keeps]

theorem renameOrder_keeps : ∀ items : List OrderItem, (∀ n ∈ orderNodes items, n.Keeps f) → renameOrder f items = items
  | [], _ => rfl
  | ⟨e, _, _⟩ :: items, keeps => by
    obtain ⟨first, rest⟩ := List.forall_mem_append.mp keeps
    rw [renameOrder, e.rename_keeps first, renameOrder_keeps items rest]

theorem renameArms_keeps : ∀ arms : List When, (∀ n ∈ armNodes arms, n.Keeps f) → renameArms f arms = arms
  | [], _ => rfl
  | ⟨condition, result⟩ :: arms, keeps => by
    simp only [armNodes, List.forall_mem_append] at keeps
    obtain ⟨⟨first, second⟩, rest⟩ := keeps
    rw [renameArms, condition.rename_keeps first, result.rename_keeps second, renameArms_keeps arms rest]

theorem renameFrame_keeps : ∀ frame : Option Frame, (∀ n ∈ frameNodes frame, n.Keeps f) → renameFrame f frame = frame
  | none, _ => rfl
  | some ⟨_, first, last⟩, keeps => by
    obtain ⟨lower, upper⟩ := List.forall_mem_append.mp keeps
    rw [renameFrame, first.rename_keeps lower, renameBound_keeps last upper]

theorem renameBound_keeps :
    ∀ bound : Option FrameBound, (∀ n ∈ boundNodes bound, n.Keeps f) → renameBound f bound = bound
  | none, _ => rfl
  | some bound, keeps => by rw [renameBound, bound.rename_keeps keeps]

theorem FrameBound.rename_keeps : ∀ bound : FrameBound, (∀ n ∈ bound.nodes, n.Keeps f) → bound.rename f = bound
  | ⟨_, offset⟩, keeps => by rw [FrameBound.rename, renameOption_keeps offset keeps]

theorem Query.rename_keeps : ∀ q : Query, (∀ n ∈ q.nodes, n.Keeps f) → q.rename f = q
  | .select s, keeps => by rw [Query.rename, s.rename_keeps (List.forall_mem_cons.mp keeps).2]
  | .setOp _ _ _ left right orderBy limit, keeps => by
    simp only [Query.nodes, List.cons_append, List.forall_mem_cons, List.forall_mem_append] at keeps
    obtain ⟨-, ⟨⟨first, second⟩, sorted⟩, most⟩ := keeps
    rw [Query.rename, left.rename_keeps first, right.rename_keeps second, renameOrder_keeps orderBy sorted,
      renameOption_keeps limit most]

theorem Select.rename_keeps : ∀ s : Select, (∀ n ∈ s.parts, n.Keeps f) → s.rename f = s
  | ⟨_, ctes, _, items, source, lateralViews, condition, groupBy, having, orderBy, limit, offset⟩, keeps => by
    simp only [Select.parts, List.forall_mem_append, and_assoc] at keeps
    obtain ⟨named, listed, tables, views, filtered, grouped, filteredGroups, sorted, most, skipped⟩ := keeps
    rw [Select.rename, renameCtes_keeps ctes named, renameItems_keeps items listed, renameSource_keeps source tables,
      renameViews_keeps lateralViews views, renameOption_keeps condition filtered, renameExprs_keeps groupBy grouped,
      renameOption_keeps having filteredGroups, renameOrder_keeps orderBy sorted, renameOption_keeps limit most,
      renameOption_keeps offset skipped]

theorem renameCtes_keeps : ∀ ctes : List Cte, (∀ n ∈ cteNodes ctes, n.Keeps f) → renameCtes f ctes = ctes
  | [], _ => rfl
  | ⟨_, _, body⟩ :: ctes, keeps => by
    obtain ⟨first, rest⟩ := List.forall_mem_append.mp keeps
    rw [renameCtes, body.rename_keeps first, renameCtes_keeps ctes rest]

theorem CteBody.rename_keeps : ∀ body : CteBody, (∀ n ∈ body.nodes, n.Keeps f) → body.rename f = body
  | .query q, keeps => by rw [CteBody.rename, q.rename_keeps keeps]
  | .scalar e, keeps => by rw [CteBody.rename, e.rename_keeps keeps]

theorem renameItems_keeps : ∀ items : List SelectItem, (∀ n ∈ itemNodes items, n.Keeps f) → renameItems f items = items
  | [], _ => rfl
  | ⟨e, _⟩ :: items, keeps => by
    obtain ⟨first, rest⟩ := List.forall_mem_append.mp keeps
    rw [renameItems, e.rename_keeps first, renameItems_keeps items rest]

theorem renameViews_keeps : ∀ views : List LateralView, (∀ n ∈ viewNodes views, n.Keeps f) → renameViews f views = views
  | [], _ => rfl
  | ⟨_, function, _, _, _⟩ :: views, keeps => by
    simp only [viewNodes, List.cons_append, List.forall_mem_cons, List.forall_mem_append] at keeps
    obtain ⟨name, parts, rest⟩ := keeps
    rw [renameViews, function.rename_keeps (name function rfl) parts, renameViews_keeps views rest]

theorem renameSource_keeps :
    ∀ source : Option TableExpr, (∀ n ∈ sourceNodes source, n.Keeps f) → renameSource f source = source
  | none, _ => rfl
  | some t, keeps => by rw [renameSource, t.rename_keeps keeps]

theorem TableExpr.rename_keeps : ∀ t : TableExpr, (∀ n ∈ t.nodes, n.Keeps f) → t.rename f = t
  | .ref .., _ => by simp only [TableExpr.rename]
  | .derived _ query _, keeps => by rw [TableExpr.rename, query.rename_keeps (List.forall_mem_cons.mp keeps).2]
  | .function _ call _, keeps => by
    simp only [TableExpr.nodes, List.forall_mem_cons] at keeps
    obtain ⟨-, name, parts⟩ := keeps
    rw [TableExpr.rename, call.rename_keeps (name call rfl) parts]
  | .join _ _ left right condition _, keeps => by
    simp only [TableExpr.nodes, List.cons_append, List.forall_mem_cons, List.forall_mem_append] at keeps
    obtain ⟨-, ⟨first, second⟩, on⟩ := keeps
    rw [TableExpr.rename, left.rename_keeps first, right.rename_keeps second, renameOption_keeps condition on]

end

private theorem map_keeps {α : Type} {nodes : α → List Node} {renamed : α → α} {xs : List α}
    (each : ∀ x, (∀ n ∈ nodes x, n.Keeps f) → renamed x = x) (keeps : ∀ n ∈ xs.flatMap nodes, n.Keeps f) :
    xs.map renamed = xs := by
  have stays : ∀ x ∈ xs, renamed x = x := fun x member =>
    each x fun n held => keeps n (List.mem_flatMap.mpr ⟨x, member, held⟩)
  rw [List.map_congr_left stays, List.map_id']

private theorem renameQuery_keeps {q : Option Query} (keeps : ∀ n ∈ (q.map Query.nodes).getD [], n.Keeps f) :
    q.map (·.rename f) = q := by
  cases q with
  | none => rfl
  | some q => rw [Option.map_some, q.rename_keeps keeps]

private theorem ColumnDef.rename_keeps (c : ColumnDef) (keeps : ∀ n ∈ c.nodes, n.Keeps f) : c.rename f = c := by
  rw [ColumnDef.rename, renameOption_keeps _ (List.forall_mem_append.mp keeps).2]

private theorem CreateTable.rename_keeps (t : CreateTable) (keeps : ∀ n ∈ t.parts, n.Keeps f) : t.rename f = t := by
  simp only [CreateTable.parts, List.forall_mem_append] at keeps
  obtain ⟨⟨⟨⟨columns, constraints⟩, sorted⟩, partitions⟩, queried⟩ := keeps
  have keys : t.partitioning.map (·.rename f) = t.partitioning := by
    cases given : t.partitioning with
    | none => rfl
    | some keys =>
      rw [given] at partitions
      obtain ⟨exprs, inner⟩ := List.forall_mem_append.mp partitions
      rw [Option.map_some, Partitioning.rename, renameExprs_keeps _ exprs, map_keeps ColumnDef.rename_keeps inner]
  have checks : t.constraints.map (·.rename f) = t.constraints :=
    map_keeps (fun c keeps => by rw [Constraint.rename, renameOption_keeps _ keeps]) constraints
  rw [CreateTable.rename, map_keeps ColumnDef.rename_keeps columns, checks, renameExprs_keeps _ sorted, keys,
    renameQuery_keeps queried]

theorem Statement.rename_keeps (s : Statement) (keeps : ∀ n ∈ s.nodes, n.Keeps f) : s.rename f = s := by
  induction s with
  | query q => rw [Statement.rename, q.rename_keeps keeps]
  | insert i =>
    simp only [Statement.nodes, List.cons_append, List.forall_mem_cons, List.forall_mem_append] at keeps
    rw [Statement.rename, map_keeps renameExprs_keeps keeps.2.1, renameQuery_keeps keeps.2.2]
  | createTable t => rw [Statement.rename, t.rename_keeps (List.forall_mem_cons.mp keeps).2]
  | createView v => rw [Statement.rename, v.query.rename_keeps (List.forall_mem_cons.mp keeps).2]
  | drop => rfl
  | explain pos mode s ih => rw [Statement.rename, ih (List.forall_mem_cons.mp keeps).2]
  | expression pos e => rw [Statement.rename, e.rename_keeps (List.forall_mem_cons.mp keeps).2]

end

/-! ### Renaming twice -/

section

variable {f : String → String}

/-- The name of the root makes no difference below. -/
theorem Expr.tail_nodes_rename (f g h : String → String) :
    ∀ e : Expr, (e.renameWith f g).nodes.tail = (e.renameWith f h).nodes.tail
  | .repeated _ operand => operand.tail_nodes_rename f _ _
  | .call c => by
    cases c
    rfl
  | .column .. | .star .. | .literal .. | .param .. | .binary .. | .unary .. | .window .. | .cast .. | .caseWhen ..
  | .between .. | .inList .. | .inQuery .. | .isValue .. | .existsQuery .. | .subquery .. | .interval .. | .array ..
  | .map .. | .struct .. | .lambda .. | .subscript .. | .extract .. => rfl

private theorem Expr.renameWith_root {e : Expr} (other : ∀ c, e ≠ .call c) (single : e.isRepeated = false)
    (g h : String → String) : e.renameWith f g = e.renameWith f h := by
  cases e with
  | call c => exact absurd rfl (other c)
  | repeated => cases single
  | _ => rfl

theorem Expr.renameWith_id_keeps (e : Expr) (keeps : ∀ n ∈ e.nodes.tail, n.Keeps f) : e.renameWith f id = e := by
  cases e with
  | repeated place operand => rw [Expr.renameWith, operand.renameWith_id_keeps keeps]
  | call c =>
    obtain ⟨pos, name, args, distinct, orderBy, filter⟩ := c
    simp only [Expr.nodes, List.tail_cons, Call.parts, List.forall_mem_append] at keeps
    obtain ⟨⟨first, second⟩, third⟩ := keeps
    rw [Expr.renameWith, Call.renameWith, id, renameExprs_keeps args first, renameOrder_keeps orderBy second,
      renameOption_keeps filter third]
  | _ =>
    rw [Expr.renameWith_root (by simp) rfl id f]
    exact Expr.rename_keeps _ (List.forall_mem_cons.mpr ⟨by rintro c ⟨⟩, keeps⟩)

/-- Calls that have been renamed are not renamed again, as long as no new name is renamed in its turn. -/
theorem Expr.renameWith_id_twice (settled : f ∘ f = f) (e : Expr) :
    (e.renameWith f id).renameWith f id = e.renameWith f id := by
  refine Expr.renameWith_id_keeps _ fun n member => ?_
  rw [e.tail_nodes_rename f id f, e.nodes_rename f] at member
  obtain ⟨old, _, rfl⟩ := List.mem_map.mp (List.mem_of_mem_tail member)
  intro c renamed
  obtain ⟨name, called⟩ := Node.rename_call renamed
  rw [called]
  exact congrFun settled name

end
end SqlDialects
