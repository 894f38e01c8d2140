import SqlDialects.Error
import SqlDialects.Tree.Statement

/-! Adapting a tree from the leaves up. A step is applied to every node after its parts have been
adapted; what it puts in the node's place must be of the sort that the place requires. The two
places of an operand that a call repeats name one operand, so its parts are adapted once for each of
them; the value of a bound name has as many places as the name had, and is adapted where it is bound. -/

namespace SqlDialects

/-- What of a node goes into its replacement. -/
inductive Kept
  | parts
  | args
  /-- The list of arguments, adapted once more on the way. -/
  | adaptedArgs
  | node
deriving Repr, DecidableEq, Inhabited

/-- What two steps in a row keep. -/
def Kept.andThen : Kept → Kept → Kept
  | .parts, _ | _, .parts => .parts
  | .node, _ | _, .node => .node
  | .args, .args => .args
  | _, _ => .adaptedArgs

/-- What a step puts in a node's place. -/
structure Replacement where
  node : Node
  kept : Kept := .parts

abbrev Step := Node → Except Error (Option Replacement)

/-- How often a walk that changes a tree where it stands comes to the parts of a node. It goes over an operand from
each of its places, so every place shows what all these visits have made of it. -/
structure Visits where
  count : Nat
  /-- How often the parts of an operand are, given its place and how often the parts around it are. -/
  below : Place → Nat → Nat
  /-- What so many visits make of a part. -/
  step : Nat → Step

/-- A walk over a tree. -/
structure Pass where
  step : Step
  /-- How many levels of nodes the step leaves out, counted from the root. -/
  skip : Nat := 0
  /-- A further walk over an operand, which leaves out the given number of levels. -/
  again : Nat → Expr → Except Error Expr := fun _ e => .ok e
  visits : Option Visits := none

def Visits.pass (v : Visits) : Pass := { step := v.step v.count, visits := some v }

namespace Pass

def below (p : Pass) (v : Visits) (place : Place) : Pass :=
  let count := v.below place v.count
  { p with step := v.step count, visits := some { v with count } }

/-- The walk over the parts of the node at hand. -/
def inner (p : Pass) : Pass := { p with skip := p.skip - 1 }

/-- The walk that has `p` for the parts of the node at hand and leaves out the node itself. -/
def outer (p : Pass) : Pass := { p with skip := p.skip + 1 }

/-- What takes the place of a node whose parts have been adapted. -/
def node (p : Pass) (n : Node) : Except Error Node := do
  if p.skip > 0 then return n
  match ← p.step n with
  | some r => return r.node
  | none => return n

def expr (p : Pass) (e : Expr) : Except Error Expr := do
  match ← p.node (.expr e) with
  | .expr e => return e
  | n => throw (.misplaced e.kind n.kind .expression)

def query (p : Pass) (q : Query) : Except Error Query := do
  match ← p.node (.statement (.query q)) with
  | .statement (.query q) => return q
  | n => throw (.misplaced q.kind n.kind .query)

def statement (p : Pass) (s : Statement) : Except Error Statement := do
  match ← p.node (.statement s) with
  | .statement s => return s
  | n => throw (.misplaced s.kind n.kind .statement)

def type (p : Pass) (t : TypeSpec) : Except Error TypeSpec := do
  match ← p.node (.type t) with
  | .type t => return t
  | n => throw (.misplaced "TypeSpec" n.kind .type)

def table (p : Pass) (t : TableExpr) : Except Error TableExpr := do
  match ← p.node (.table t) with
  | .table t => return t
  | n => throw (.misplaced t.kind n.kind .table)

def call (p : Pass) (c : Call) : Except Error Call := do
  match ← p.expr (.call c) with
  | .call c => return c
  | e => throw (.misplaced "FunctionCall" e.kind .call)

/-- An operand of a changed operand, as its place shares it with the other place. Where the step
changes it too, only its own operands are shared. -/
def shared (p : Pass) (place : Place) (e : Expr) : Expr :=
  match p.step (.expr e) with
  | .ok (some _) => e.operandsInPlace place
  | _ => e.inPlace place

/-- What has replaced a repeated operand, with marks on what the places still share. -/
def apart (p : Pass) (place : Place) (kept : Kept) (e : Expr) : Expr :=
  match kept, e with
  | .parts, .call c => .call { c with args := c.args.map (p.shared place) }
  | .parts, .binary pos op left right =>
    .binary pos op (p.shared place left) (p.shared place right)
  | .parts, e => e
  | .args, e | .adaptedArgs, e => e.inPlace place
  | .node, e => e.operandsInPlace place

/-- A repeated operand, given with its parts adapted once. Both places name one operand, so its
parts are adapted for each of them, and a place shows what both have made of it. Where the step
changes the operand at the first place, that place parts from the other: it has taken the parts as
they were, and what the second place does reaches only below them, unless the list of arguments or
the operand itself went into the replacement. -/
def repeated (p : Pass) (place : Place) (once : Expr) : Except Error Expr := do
  match place with
  | .first =>
    match ← p.step (.expr once) with
    | none => return .repeated .first (← p.again 1 once)
    | some r =>
      let e ← match r.kept with
        | .parts => p.again 2 once
        | .args | .node => p.again 1 once
        | .adaptedArgs => p.again 1 (← p.again 1 once)
      return p.apart .first r.kept (← p.expr e)
  | .second =>
    let twice ← p.again 1 once
    match ← p.step (.expr twice) with
    | none => return .repeated .second twice
    | some r =>
      let e ← if r.kept = .adaptedArgs then p.again 1 twice else pure twice
      return p.apart .second r.kept (← p.expr e)
  | .bound _ => return .repeated place (← p.expr once)

end Pass

mutual

def TypeSpec.adaptParts (p : Pass) : TypeSpec → Except Error TypeSpec
  | ⟨pos, name, params, elems, fields, native⟩ => do
    let elems ← adaptElems p elems
    let fields ← adaptFields p fields
    return ⟨pos, name, params, elems, fields, native⟩

def adaptElems (p : Pass) : List TypeSpec → Except Error (List TypeSpec)
  | [] => return []
  | t :: ts => do
    let t ← p.type (← t.adaptParts p.inner)
    return t :: (← adaptElems p ts)

def adaptFields (p : Pass) : List TypeField → Except Error (List TypeField)
  | [] => return []
  | ⟨name, t⟩ :: ts => do
    let t ← p.type (← t.adaptParts p.inner)
    return ⟨name, t⟩ :: (← adaptFields p ts)

end

def TypeSpec.adapt (p : Pass) (t : TypeSpec) : Except Error TypeSpec := do
  p.type (← t.adaptParts p.inner)

mutual

def Expr.adapt (p : Pass) : Expr → Except Error Expr
  | .column pos path => p.expr (.column pos path)
  | .star pos table => p.expr (.star pos table)
  | .literal pos kind value => p.expr (.literal pos kind value)
  | .param pos text => p.expr (.param pos text)
  | .binary pos op left right => do
    let left ← left.adapt p.inner
    let right ← right.adapt p.inner
    p.expr (.binary pos op left right)
  | .unary pos op operand => do
    let operand ← operand.adapt p.inner
    p.expr (.unary pos op operand)
  | .call c => do
    let c ← c.adaptParts p.inner
    p.expr (.call c)
  | .window pos function partitionBy orderBy frame => do
    let function ← function.adapt p.inner
    let partitionBy ← adaptExprs p.inner partitionBy
    let orderBy ← adaptOrder p.inner orderBy
    let frame ← adaptFrame p.inner frame
    p.expr (.window pos function partitionBy orderBy frame)
  | .cast pos operand type tolerant => do
    let operand ← operand.adapt p.inner
    let type ← type.adapt p.inner
    p.expr (.cast pos operand type tolerant)
  | .caseWhen pos operand arms otherwise => do
    let operand ← adaptOption p.inner operand
    let arms ← adaptArms p.inner arms
    let otherwise ← adaptOption p.inner otherwise
    p.expr (.caseWhen pos operand arms otherwise)
  | .between pos operand low high negated => do
    let operand ← operand.adapt p.inner
    let low ← low.adapt p.inner
    let high ← high.adapt p.inner
    p.expr (.between pos operand low high negated)
  | .inList pos operand members negated => do
    let operand ← operand.adapt p.inner
    let members ← adaptExprs p.inner members
    p.expr (.inList pos operand members negated)
  | .inQuery pos operand query negated => do
    let operand ← operand.adapt p.inner
    let query ← p.inner.query (← query.adaptParts p.inner.inner)
    p.expr (.inQuery pos operand query negated)
  | .isValue pos operand negated value => do
    let operand ← operand.adapt p.inner
    p.expr (.isValue pos operand negated value)
  | .existsQuery pos query negated => do
    let query ← p.inner.query (← query.adaptParts p.inner.inner)
    p.expr (.existsQuery pos query negated)
  | .subquery pos query => do
    let query ← p.inner.query (← query.adaptParts p.inner.inner)
    p.expr (.subquery pos query)
  | .interval pos value unit => do
    let value ← value.adapt p.inner
    p.expr (.interval pos value unit)
  | .array pos elems => do
    let elems ← adaptExprs p.inner elems
    p.expr (.array pos elems)
  | .map pos keys values => do
    let keys ← adaptExprs p.inner keys
    let values ← adaptExprs p.inner values
    p.expr (.map pos keys values)
  | .struct pos names values => do
    let values ← adaptExprs p.inner values
    p.expr (.struct pos names values)
  | .lambda pos params body => do
    let body ← body.adapt p.inner
    p.expr (.lambda pos params body)
  | .subscript pos operand index => do
    let operand ← operand.adapt p.inner
    let index ← index.adapt p.inner
    p.expr (.subscript pos operand index)
  | .extract pos unit operand => do
    let operand ← operand.adapt p.inner
    p.expr (.extract pos unit operand)
  | .repeated place operand => do
    match p.visits with
    | some visits => return .repeated place (← operand.adapt (p.below visits place))
    | none =>
      -- A mark on a marked operand says nothing that the inner mark does not.
      if p.skip > 0 || operand.isRepeated then return .repeated place (← operand.adapt p)
      p.repeated place (← operand.adapt p.outer)

def Call.adaptParts (p : Pass) : Call → Except Error Call
  | ⟨pos, name, args, distinct, orderBy, filter⟩ => do
    let args ← adaptExprs p args
    let orderBy ← adaptOrder p orderBy
    let filter ← adaptOption p filter
    return ⟨pos, name, args, distinct, orderBy, filter⟩

def adaptExprs (p : Pass) : List Expr → Except Error (List Expr)
  | [] => return []
  | e :: es => do
    let e ← e.adapt p
    return e :: (← adaptExprs p es)

def adaptOption (p : Pass) : Option Expr → Except Error (Option Expr)
  | none => return none
  | some e => do return some (← e.adapt p)

def adaptOrder (p : Pass) : List OrderItem → Except Error (List OrderItem)
  | [] => return []
  | ⟨e, descending, nullsFirst⟩ :: rest => do
    let e ← e.adapt p
    return ⟨e, descending, nullsFirst⟩ :: (← adaptOrder p rest)

def adaptArms (p : Pass) : List When → Except Error (List When)
  | [] => return []
  | ⟨condition, result⟩ :: rest => do
    let condition ← condition.adapt p
    let result ← result.adapt p
    return ⟨condition, result⟩ :: (← adaptArms p rest)

def adaptFrame (p : Pass) : Option Frame → Except Error (Option Frame)
  | none => return none
  | some ⟨unit, first, last⟩ => do
    let first ← first.adaptParts p
    let last ← adaptBound p last
    return some ⟨unit, first, last⟩

def adaptBound (p : Pass) : Option FrameBound → Except Error (Option FrameBound)
  | none => return none
  | some bound => do return some (← bound.adaptParts p)

def FrameBound.adaptParts (p : Pass) : FrameBound → Except Error FrameBound
  | ⟨kind, offset⟩ => do return ⟨kind, ← adaptOption p offset⟩

def Query.adaptParts (p : Pass) : Query → Except Error Query
  | .select s => do return .select (← s.adaptParts p)
  | .setOp pos op all left right orderBy limit => do
    let left ← p.query (← left.adaptParts p.inner)
    let right ← p.query (← right.adaptParts p.inner)
    let orderBy ← adaptOrder p orderBy
    let limit ← adaptOption p limit
    return .setOp pos op all left right orderBy limit

def Select.adaptParts (p : Pass) : Select → Except Error Select
  | ⟨pos, ctes, distinct, items, source, lateralViews, condition, groupBy, having, orderBy, limit,
      offset⟩ => do
    let ctes ← adaptCtes p ctes
    let items ← adaptItems p items
    let source ← adaptSource p source
    let lateralViews ← adaptViews p lateralViews
    let condition ← adaptOption p condition
    let groupBy ← adaptExprs p groupBy
    let having ← adaptOption p having
    let orderBy ← adaptOrder p orderBy
    let limit ← adaptOption p limit
    let offset ← adaptOption p offset
    return ⟨pos, ctes, distinct, items, source, lateralViews, condition, groupBy, having, orderBy,
      limit, offset⟩

def adaptCtes (p : Pass) : List Cte → Except Error (List Cte)
  | [] => return []
  | ⟨name, columns, body⟩ :: rest => do
    let body ← body.adapt p
    return ⟨name, columns, body⟩ :: (← adaptCtes p rest)

def CteBody.adapt (p : Pass) : CteBody → Except Error CteBody
  | .query q => do return .query (← p.query (← q.adaptParts p.inner))
  | .scalar e => do return .scalar (← e.adapt p)

def adaptItems (p : Pass) : List SelectItem → Except Error (List SelectItem)
  | [] => return []
  | ⟨e, label⟩ :: rest => do
    let e ← e.adapt p
    return ⟨e, label⟩ :: (← adaptItems p rest)

def adaptViews (p : Pass) : List LateralView → Except Error (List LateralView)
  | [] => return []
  | ⟨pos, function, outer, table, columns⟩ :: rest => do
    let function ← p.call (← function.adaptParts p.inner)
    return ⟨pos, function, outer, table, columns⟩ :: (← adaptViews p rest)

def adaptSource (p : Pass) : Option TableExpr → Except Error (Option TableExpr)
  | none => return none
  | some t => do return some (← p.table (← t.adaptParts p.inner))

def TableExpr.adaptParts (p : Pass) : TableExpr → Except Error TableExpr
  | .ref pos name label final => return .ref pos name label final
  | .derived pos query label => do
    let query ← p.query (← query.adaptParts p.inner)
    return .derived pos query label
  | .function pos call label => do
    let call ← p.call (← call.adaptParts p.inner)
    return .function pos call label
  | .join pos kind left right condition shared => do
    let left ← p.table (← left.adaptParts p.inner)
    let right ← p.table (← right.adaptParts p.inner)
    let condition ← adaptOption p condition
    return .join pos kind left right condition shared

end

def adaptQueryOption (p : Pass) : Option Query → Except Error (Option Query)
  | none => return none
  | some q => do return some (← p.query (← q.adaptParts p.inner))

def ColumnDef.adaptParts (p : Pass) (c : ColumnDef) : Except Error ColumnDef := do
  let type ← c.type.adapt p
  let defaultValue ← adaptOption p c.defaultValue
  return { c with type, defaultValue }

def Constraint.adaptParts (p : Pass) (c : Constraint) : Except Error Constraint := do
  return { c with condition := ← adaptOption p c.condition }

def Partitioning.adaptParts (p : Pass) (keys : Partitioning) : Except Error Partitioning := do
  let exprs ← adaptExprs p keys.exprs
  let columns ← keys.columns.mapM (·.adaptParts p)
  return { keys with exprs, columns }

/-- Properties are kept as they are. -/
def CreateTable.adaptParts (p : Pass) (t : CreateTable) : Except Error CreateTable := do
  let columns ← t.columns.mapM (·.adaptParts p)
  let constraints ← t.constraints.mapM (·.adaptParts p)
  let sortKey ← adaptExprs p t.sortKey
  let partitioning ← t.partitioning.mapM (·.adaptParts p)
  let query ← adaptQueryOption p t.query
  return { t with columns, constraints, sortKey, partitioning, query }

def Statement.adaptParts (p : Pass) : Statement → Except Error Statement
  | .query q => do return .query (← q.adaptParts p)
  | .insert i => do
    let rows ← i.rows.mapM (adaptExprs p)
    let query ← adaptQueryOption p i.query
    return .insert { i with rows, query }
  | .createTable t => do return .createTable (← t.adaptParts p)
  | .createView v => do
    return .createView { v with query := ← p.query (← v.query.adaptParts p.inner) }
  | .drop pos object ifExists name => return .drop pos object ifExists name
  | .explain pos mode s => do
    let s ← p.statement (← s.adaptParts p.inner)
    return .explain pos mode s
  | .expression pos e => do
    let e ← e.adapt p
    return .expression pos e

def Node.adaptParts (p : Pass) : Node → Except Error Node
  | .expr e => do return .expr (← e.adapt p.outer)
  | .statement s => do return .statement (← s.adaptParts p)
  | .table t => do return .table (← t.adaptParts p)
  | .type t => do return .type (← t.adaptParts p)

def Node.adapt (p : Pass) (n : Node) : Except Error Node := do
  p.node (← n.adaptParts p.inner)

/-- The walk with a step over a whole tree. Operands may be repeated inside repeated ones down to
the given depth; below it the parts of such an operand are adapted once. -/
def Step.pass (step : Step) : Nat → Pass
  | 0 => { step }
  | depth + 1 => { step, again := fun skip e => e.adapt { step.pass depth with skip } }

end SqlDialects
