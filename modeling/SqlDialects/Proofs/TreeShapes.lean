import SqlDialects.Function.Basic
import SqlDialects.Proofs.Numerals
import SqlDialects.Tree.Visit

/-! The shape of trees. A printer takes the last name of a path, the element type of an array and the value beside
each key without asking whether they are there, and writes the text of a number as it is. A node is shaped if they are
there, and a tree is well shaped if all its nodes are and its numbers have texts that numbers may have. -/

namespace SqlDialects

theorem mem_of_lookup {α : Type} {entries : List (String × α)} {key : String} {value : α}
    (found : entries.lookup key = some value) : (key, value) ∈ entries := by
  obtain ⟨before, after, split, _⟩ := List.lookup_eq_some_iff.mp found
  simp [split]

theorem forall_mem_concat {α : Type} {good : α → Prop} {list : List α} {last : α} (held : ∀ a ∈ list, good a)
    (new : good last) : ∀ a ∈ list ++ [last], good a :=
  List.forall_mem_append.mpr ⟨held, List.forall_mem_singleton.mpr new⟩

/-- A unit that spellings are read as. -/
def DateUnit.IsNeutral (unit : String) : Prop := unit ∈ DateUnit.spellings.map Prod.snd

instance (unit : String) : Decidable (DateUnit.IsNeutral unit) := inferInstanceAs (Decidable (_ ∈ _))

theorem DateUnit.neutral_of_text {s unit : String} (read : DateUnit.ofText? s = some unit) : DateUnit.IsNeutral unit :=
  List.mem_map_of_mem (mem_of_lookup read)

/-! ### Nodes -/

/-- The types inside a type of the vocabulary are as many as its name asks for. -/
structure TypeSpec.Shaped (t : TypeSpec) : Prop where
  array : t.name = "ARRAY" → ∃ elem, t.elems = [elem]
  map : t.name = "MAP" → ∃ key value, t.elems = [key, value]
  struct : t.name = "STRUCT" → t.fields ≠ []

def CteBody.query? : CteBody → Option Query
  | .query q => some q
  | .scalar _ => none

def CteBody.scalar? : CteBody → Option Expr
  | .query _ => none
  | .scalar e => some e

/-- What a printer finds in a node without looking for it. Members of a list and of a query are two constructors, so
only a list can lack them. A native type has any types inside. -/
def Node.Shaped : Node → Prop
  | .expr (.column _ path) => path ≠ []
  | .expr (.caseWhen _ _ arms _) => arms ≠ []
  | .expr (.map _ keys values) => keys.length = values.length
  | .expr (.struct _ names values) => names = [] ∨ names.length = values.length
  | .expr (.inList _ _ members _) => members ≠ []
  | .expr (.interval _ _ unit) => DateUnit.IsNeutral unit
  | .expr (.call c) => Text.upper c.name = c.name
  | .statement (.query (.select s)) => ∀ entry ∈ s.ctes, entry.body.query?.isSome ≠ entry.body.scalar?.isSome
  | .type t => t.native = false → t.Shaped
  | _ => True

variable [Numerals]

/-- A number has a text that numbers may have. -/
def Node.Counts : Node → Prop
  | .expr (.literal _ .number value) => Numerals.Admits value
  | _ => True

def Shapes (ns : List Node) : Prop := ∀ n ∈ ns, n.Shaped ∧ n.Counts

variable {n : Node} {ms ns : List Node}

@[simp] theorem shapes_nil : Shapes [] := fun _ inside => nomatch inside

@[simp] theorem shapes_cons : Shapes (n :: ns) ↔ (n.Shaped ∧ n.Counts) ∧ Shapes ns := List.forall_mem_cons

@[simp] theorem shapes_append : Shapes (ms ++ ns) ↔ Shapes ms ∧ Shapes ns := List.forall_mem_append

/-! ### Trees -/

def Expr.WellShaped (e : Expr) : Prop := Shapes e.nodes

def Query.WellShaped (q : Query) : Prop := Shapes q.nodes

def TableExpr.WellShaped (t : TableExpr) : Prop := Shapes t.nodes

def TypeSpec.WellShaped (t : TypeSpec) : Prop := Shapes t.nodes

def CteBody.WellShaped (body : CteBody) : Prop := Shapes body.nodes

structure Call.WellShaped (c : Call) : Prop where
  name : Text.upper c.name = c.name
  args : ∀ e ∈ c.args, e.WellShaped
  orderBy : ∀ item ∈ c.orderBy, item.expr.WellShaped
  filter : ∀ e ∈ c.filter, e.WellShaped

def FrameBound.WellShaped (bound : FrameBound) : Prop := ∀ e ∈ bound.offset, e.WellShaped

structure Frame.WellShaped (frame : Frame) : Prop where
  first : frame.first.WellShaped
  last : ∀ bound ∈ frame.last, bound.WellShaped

structure Select.WellShaped (s : Select) : Prop where
  ctes : ∀ entry ∈ s.ctes, entry.body.WellShaped
  items : ∀ item ∈ s.items, item.expr.WellShaped
  source : ∀ t ∈ s.source, t.WellShaped
  lateralViews : ∀ view ∈ s.lateralViews, view.function.WellShaped
  condition : ∀ e ∈ s.condition, e.WellShaped
  groupBy : ∀ e ∈ s.groupBy, e.WellShaped
  having : ∀ e ∈ s.having, e.WellShaped
  orderBy : ∀ item ∈ s.orderBy, item.expr.WellShaped
  limit : ∀ e ∈ s.limit, e.WellShaped
  offset : ∀ e ∈ s.offset, e.WellShaped

/-! The nodes of the parts. -/

theorem shapes_exprNodes {es : List Expr} : Shapes (exprNodes es) ↔ ∀ e ∈ es, e.WellShaped := by
  induction es with
  | nil => simp [exprNodes]
  | cons e es ih => simp [exprNodes, ih, Expr.WellShaped]

theorem shapes_optionNodes {e : Option Expr} : Shapes (optionNodes e) ↔ ∀ a ∈ e, a.WellShaped := by
  cases e <;> simp [optionNodes, Expr.WellShaped]

theorem shapes_orderNodes {items : List OrderItem} :
    Shapes (orderNodes items) ↔ ∀ item ∈ items, item.expr.WellShaped := by
  induction items with
  | nil => simp [orderNodes]
  | cons item items ih =>
    obtain ⟨e, descending, nullsFirst⟩ := item
    simp [orderNodes, ih, Expr.WellShaped]

theorem shapes_armNodes {arms : List When} :
    Shapes (armNodes arms) ↔ ∀ arm ∈ arms, arm.condition.WellShaped ∧ arm.result.WellShaped := by
  induction arms with
  | nil => simp [armNodes]
  | cons arm arms ih =>
    obtain ⟨condition, result⟩ := arm
    simp [armNodes, ih, Expr.WellShaped, and_assoc]

theorem shapes_frameNodes {frame : Option Frame} : Shapes (frameNodes frame) ↔ ∀ f ∈ frame, f.WellShaped := by
  cases frame with
  | none => simp [frameNodes]
  | some frame =>
    obtain ⟨unit, first, last⟩ := frame
    have bound (b : FrameBound) : Shapes b.nodes ↔ b.WellShaped := by
      cases b
      exact shapes_optionNodes
    have bounds : Shapes (boundNodes last) ↔ ∀ b ∈ last, b.WellShaped := by
      cases last <;> simp [boundNodes, bound]
    simp only [frameNodes, shapes_append, bound, bounds, Option.mem_some_iff, forall_eq']
    constructor
    · rintro ⟨first, last⟩
      exact ⟨first, last⟩
    · rintro ⟨first, last⟩
      exact ⟨first, last⟩

theorem shapes_itemNodes {items : List SelectItem} :
    Shapes (itemNodes items) ↔ ∀ item ∈ items, item.expr.WellShaped := by
  induction items with
  | nil => simp [itemNodes]
  | cons item items ih =>
    obtain ⟨e, label⟩ := item
    simp [itemNodes, ih, Expr.WellShaped]

theorem shapes_cteNodes {entries : List Cte} : Shapes (cteNodes entries) ↔
    ∀ entry ∈ entries, entry.body.WellShaped := by
  induction entries with
  | nil => simp [cteNodes]
  | cons entry entries ih =>
    obtain ⟨name, columns, body⟩ := entry
    simp [cteNodes, ih, CteBody.WellShaped]

theorem shapes_sourceNodes {source : Option TableExpr} : Shapes (sourceNodes source) ↔ ∀ t ∈ source, t.WellShaped := by
  cases source <;> simp [sourceNodes, TableExpr.WellShaped]

theorem Call.wellShaped_iff {c : Call} : Text.upper c.name = c.name ∧ Shapes c.parts ↔ c.WellShaped := by
  obtain ⟨pos, name, args, distinct, orderBy, filter⟩ := c
  simp only [parts, shapes_append, shapes_exprNodes, shapes_orderNodes, shapes_optionNodes]
  constructor
  · rintro ⟨name, ⟨args, order⟩, filter⟩
    exact ⟨name, args, order, filter⟩
  · rintro ⟨name, args, order, filter⟩
    exact ⟨name, ⟨args, order⟩, filter⟩

theorem shapes_viewNodes {views : List LateralView} :
    Shapes (viewNodes views) ↔ ∀ view ∈ views, view.function.WellShaped := by
  induction views with
  | nil => simp [viewNodes]
  | cons view views ih =>
    obtain ⟨pos, function, outer, table, columns⟩ := view
    simp [viewNodes, ih, Node.Shaped, Node.Counts, ← Call.wellShaped_iff, and_assoc]

theorem shapes_elemNodes {types : List TypeSpec} : Shapes (elemNodes types) ↔ ∀ t ∈ types, t.WellShaped := by
  induction types with
  | nil => simp [elemNodes]
  | cons t types ih => simp [elemNodes, ih, TypeSpec.WellShaped]

theorem shapes_fieldNodes {fields : List TypeField} : Shapes (fieldNodes fields) ↔ ∀ f ∈ fields, f.type.WellShaped := by
  induction fields with
  | nil => simp [fieldNodes]
  | cons f fields ih =>
    obtain ⟨name, t⟩ := f
    simp [fieldNodes, ih, TypeSpec.WellShaped]

theorem TypeSpec.wellShaped_iff {t : TypeSpec} : t.WellShaped ↔ (t.native = false → t.Shaped) ∧
    (∀ elem ∈ t.elems, elem.WellShaped) ∧ ∀ f ∈ t.fields, f.type.WellShaped := by
  obtain ⟨pos, name, params, elems, fields, native⟩ := t
  rw [WellShaped, nodes, shapes_cons, shapes_append, shapes_elemNodes, shapes_fieldNodes]
  exact and_congr_left' (and_iff_left trivial)

/-! ### The constructors -/

section

variable {pos : Position} {left right operand : Expr}

namespace Expr

private theorem wellShaped_parts {e : Expr} {parts : List Node} (split : e.nodes = .expr e :: parts)
    (counts : (Node.expr e).Counts) : e.WellShaped ↔ (Node.expr e).Shaped ∧ Shapes parts := by
  rw [WellShaped, split, shapes_cons, and_iff_left counts]

private theorem wellShaped_plain {e : Expr} {parts : List Node} (split : e.nodes = .expr e :: parts)
    (shape : (Node.expr e).Shaped) (counts : (Node.expr e).Counts) : e.WellShaped ↔ Shapes parts :=
  (wellShaped_parts split counts).trans (and_iff_right shape)

@[simp] theorem wellShaped_column {path : List Ident} : (column pos path).WellShaped ↔ path ≠ [] :=
  Iff.trans (wellShaped_parts rfl trivial) (and_iff_left shapes_nil)

@[simp] theorem wellShaped_star {table : List Ident} : (star pos table).WellShaped :=
  Iff.mpr (wellShaped_plain rfl trivial trivial) shapes_nil

theorem wellShaped_literal {kind : LiteralKind} {value : String} :
    (literal pos kind value).WellShaped ↔ (kind = .number → Numerals.Admits value) := by
  have shape : (Node.expr (literal pos kind value)).Shaped := trivial
  rw [WellShaped, nodes, shapes_cons, and_iff_left shapes_nil, and_iff_right shape]
  cases kind <;> simp [Node.Counts]

@[simp] theorem wellShaped_other {kind : LiteralKind} {value : String} (other : kind ≠ .number) :
    (literal pos kind value).WellShaped :=
  wellShaped_literal.mpr fun number => absurd number other

@[simp] theorem wellShaped_number {value : String} : (literal pos .number value).WellShaped ↔ Numerals.Admits value :=
  wellShaped_literal.trans (forall_prop_of_true rfl)

@[simp] theorem wellShaped_str {value : String} : (str value).WellShaped := wellShaped_other (by decide)

@[simp] theorem wellShaped_num {value : String} : (num value).WellShaped ↔ Numerals.Admits value := wellShaped_number

theorem wellShaped_digits {value : String} (digits : value ≠ "" ∧ value.toList.all Char.isDigit = true) :
    (num value).WellShaped :=
  wellShaped_num.mpr (Numerals.admits_digits digits)

@[simp] theorem wellShaped_null : null.WellShaped := wellShaped_other (by decide)

@[simp] theorem wellShaped_param {text : String} : (param pos text).WellShaped :=
  Iff.mpr (wellShaped_plain rfl trivial trivial) shapes_nil

@[simp] theorem wellShaped_binary {op : String} :
    (binary pos op left right).WellShaped ↔ left.WellShaped ∧ right.WellShaped :=
  Iff.trans (wellShaped_plain rfl trivial trivial) shapes_append

@[simp] theorem wellShaped_unary {op : String} : (unary pos op operand).WellShaped ↔ operand.WellShaped :=
  wellShaped_plain rfl trivial trivial

@[simp] theorem wellShaped_call {c : Call} : (call c).WellShaped ↔ c.WellShaped :=
  Iff.trans (wellShaped_parts rfl trivial) Call.wellShaped_iff

@[simp] theorem wellShaped_window {function : Expr} {partitionBy : List Expr} {orderBy : List OrderItem}
    {frame : Option Frame} : (window pos function partitionBy orderBy frame).WellShaped ↔
      function.WellShaped ∧ (∀ e ∈ partitionBy, e.WellShaped) ∧ (∀ item ∈ orderBy, item.expr.WellShaped) ∧
      ∀ f ∈ frame, f.WellShaped := by
  have split : (window pos function partitionBy orderBy frame).nodes =
      _ :: (function.nodes ++ exprNodes partitionBy ++ orderNodes orderBy ++ frameNodes frame) := rfl
  rw [wellShaped_plain split trivial trivial]
  simp only [shapes_append, shapes_exprNodes, shapes_orderNodes, shapes_frameNodes, and_assoc, WellShaped]

@[simp] theorem wellShaped_cast {type : TypeSpec} {tolerant : Bool} :
    (cast pos operand type tolerant).WellShaped ↔ operand.WellShaped ∧ type.WellShaped :=
  Iff.trans (wellShaped_plain rfl trivial trivial) shapes_append

@[simp] theorem wellShaped_caseWhen {operand otherwise : Option Expr} {arms : List When} :
    (caseWhen pos operand arms otherwise).WellShaped ↔ arms ≠ [] ∧ (∀ e ∈ operand, e.WellShaped) ∧
      (∀ arm ∈ arms, arm.condition.WellShaped ∧ arm.result.WellShaped) ∧ ∀ e ∈ otherwise, e.WellShaped := by
  have split : (caseWhen pos operand arms otherwise).nodes =
      _ :: (optionNodes operand ++ armNodes arms ++ optionNodes otherwise) := rfl
  rw [wellShaped_parts split trivial]
  simp only [shapes_append, shapes_optionNodes, shapes_armNodes, and_assoc]
  rfl

@[simp] theorem wellShaped_between {low high : Expr} {negated : Bool} :
    (between pos operand low high negated).WellShaped ↔ operand.WellShaped ∧ low.WellShaped ∧ high.WellShaped := by
  have split : (between pos operand low high negated).nodes = _ :: (operand.nodes ++ low.nodes ++ high.nodes) := rfl
  rw [wellShaped_plain split trivial trivial]
  simp only [shapes_append, and_assoc, WellShaped]

@[simp] theorem wellShaped_inList {members : List Expr} {negated : Bool} :
    (inList pos operand members negated).WellShaped ↔
      members ≠ [] ∧ operand.WellShaped ∧ ∀ e ∈ members, e.WellShaped := by
  have split : (inList pos operand members negated).nodes = _ :: (operand.nodes ++ exprNodes members) := rfl
  rw [wellShaped_parts split trivial]
  simp only [shapes_append, shapes_exprNodes, WellShaped]
  rfl

@[simp] theorem wellShaped_inQuery {query : Query} {negated : Bool} :
    (inQuery pos operand query negated).WellShaped ↔ operand.WellShaped ∧ query.WellShaped :=
  Iff.trans (wellShaped_plain rfl trivial trivial) shapes_append

@[simp] theorem wellShaped_isValue {negated : Bool} {value : String} :
    (isValue pos operand negated value).WellShaped ↔ operand.WellShaped :=
  wellShaped_plain rfl trivial trivial

@[simp] theorem wellShaped_existsQuery {query : Query} {negated : Bool} :
    (existsQuery pos query negated).WellShaped ↔ query.WellShaped :=
  wellShaped_plain rfl trivial trivial

@[simp] theorem wellShaped_subquery {query : Query} : (subquery pos query).WellShaped ↔ query.WellShaped :=
  wellShaped_plain rfl trivial trivial

@[simp] theorem wellShaped_interval {value : Expr} {unit : String} :
    (interval pos value unit).WellShaped ↔ DateUnit.IsNeutral unit ∧ value.WellShaped :=
  wellShaped_parts rfl trivial

@[simp] theorem wellShaped_array {elems : List Expr} : (array pos elems).WellShaped ↔ ∀ e ∈ elems, e.WellShaped :=
  Iff.trans (wellShaped_plain rfl trivial trivial) shapes_exprNodes

@[simp] theorem wellShaped_map {keys values : List Expr} : (map pos keys values).WellShaped ↔
    keys.length = values.length ∧ (∀ e ∈ keys, e.WellShaped) ∧ ∀ e ∈ values, e.WellShaped := by
  have split : (map pos keys values).nodes = _ :: (exprNodes keys ++ exprNodes values) := rfl
  rw [wellShaped_parts split trivial]
  simp only [shapes_append, shapes_exprNodes]
  rfl

@[simp] theorem wellShaped_struct {names : List String} {values : List Expr} : (struct pos names values).WellShaped ↔
    (names = [] ∨ names.length = values.length) ∧ ∀ e ∈ values, e.WellShaped :=
  Iff.trans (wellShaped_parts rfl trivial) (and_congr_right' shapes_exprNodes)

@[simp] theorem wellShaped_lambda {params : List Ident} {body : Expr} :
    (lambda pos params body).WellShaped ↔ body.WellShaped :=
  wellShaped_plain rfl trivial trivial

@[simp] theorem wellShaped_subscript {index : Expr} :
    (subscript pos operand index).WellShaped ↔ operand.WellShaped ∧ index.WellShaped :=
  Iff.trans (wellShaped_plain rfl trivial trivial) shapes_append

@[simp] theorem wellShaped_extract {unit : String} : (extract pos unit operand).WellShaped ↔ operand.WellShaped :=
  wellShaped_plain rfl trivial trivial

@[simp] theorem wellShaped_inPlace {place : Place} {e : Expr} : (e.inPlace place).WellShaped ↔ e.WellShaped := by
  cases e <;> exact Iff.rfl

end Expr

namespace Query

theorem wellShaped_select {s : Select} : (select s).WellShaped ↔ s.WellShaped := by
  -- An entry is a query or a value because it has no other constructor.
  have entries : Node.Shaped (.statement (.query (.select s))) := by
    intro entry _
    cases entry.body <;> simp [CteBody.query?, CteBody.scalar?]
  rw [WellShaped, nodes, shapes_cons, and_iff_right ⟨entries, trivial⟩]
  obtain ⟨pos, ctes, distinct, items, source, views, condition, groupBy, having, orderBy, limit, offset⟩ := s
  simp only [Select.parts, shapes_append, shapes_cteNodes, shapes_itemNodes, shapes_sourceNodes, shapes_viewNodes,
    shapes_optionNodes, shapes_exprNodes, shapes_orderNodes, and_assoc]
  constructor
  · rintro ⟨ctes, items, source, views, condition, groupBy, having, orderBy, limit, offset⟩
    exact ⟨ctes, items, source, views, condition, groupBy, having, orderBy, limit, offset⟩
  · rintro ⟨ctes, items, source, views, condition, groupBy, having, orderBy, limit, offset⟩
    exact ⟨ctes, items, source, views, condition, groupBy, having, orderBy, limit, offset⟩

theorem wellShaped_setOp {op : String} {all : Bool} {left right : Query}
    {orderBy : List OrderItem} {limit : Option Expr} :
    (setOp pos op all left right orderBy limit).WellShaped ↔ left.WellShaped ∧ right.WellShaped ∧
      (∀ item ∈ orderBy, item.expr.WellShaped) ∧ ∀ e ∈ limit, e.WellShaped := by
  let n := Node.statement (.query (.setOp pos op all left right orderBy limit))
  have plain : n.Shaped ∧ n.Counts := ⟨trivial, trivial⟩
  simp only [WellShaped, nodes, List.cons_append, shapes_cons, n, plain, true_and, shapes_append, shapes_orderNodes,
    shapes_optionNodes, and_assoc]

end Query

namespace TableExpr

variable {label : Option Ident}

private theorem wellShaped_plain {t : TableExpr} {parts : List Node} (split : t.nodes = .table t :: parts)
    (shape : (Node.table t).Shaped) (counts : (Node.table t).Counts) : t.WellShaped ↔ Shapes parts := by
  rw [WellShaped, split, shapes_cons, and_iff_right ⟨shape, counts⟩]

@[simp] theorem wellShaped_ref {name : List Ident} {final : Bool} : (ref pos name label final).WellShaped :=
  Iff.mpr (wellShaped_plain rfl trivial trivial) shapes_nil

@[simp] theorem wellShaped_derived {q : Query} : (derived pos q label).WellShaped ↔ q.WellShaped :=
  wellShaped_plain rfl trivial trivial

@[simp] theorem wellShaped_function {c : Call} : (function pos c label).WellShaped ↔ c.WellShaped :=
  Iff.trans (wellShaped_plain rfl trivial trivial) (shapes_cons.trans
    ((and_congr_left' (and_iff_left trivial)).trans Call.wellShaped_iff))

@[simp] theorem wellShaped_join {kind : String} {left right : TableExpr}
    {condition : Option Expr} {shared : List Ident} :
    (join pos kind left right condition shared).WellShaped ↔
      left.WellShaped ∧ right.WellShaped ∧ ∀ e ∈ condition, e.WellShaped := by
  have split : (join pos kind left right condition shared).nodes =
      _ :: (left.nodes ++ right.nodes ++ optionNodes condition) := rfl
  rw [wellShaped_plain split trivial trivial]
  simp only [shapes_append, shapes_optionNodes, and_assoc, WellShaped]

end TableExpr

end

/-! ### Statements -/

/-- The nodes of the values of table properties, which are no parts of the statement. -/
def Statement.propertyNodes : Statement → List Node
  | .createTable t => t.properties.flatMap fun property => optionNodes property.value
  | .explain _ _ s => s.propertyNodes
  | _ => []

def Statement.WellShaped (s : Statement) : Prop := Shapes (s.nodes ++ s.propertyNodes)

structure ColumnDef.WellShaped (c : ColumnDef) : Prop where
  type : c.type.WellShaped
  defaultValue : ∀ e ∈ c.defaultValue, e.WellShaped

structure Partitioning.WellShaped (p : Partitioning) : Prop where
  exprs : ∀ e ∈ p.exprs, e.WellShaped
  columns : ∀ c ∈ p.columns, c.WellShaped

structure CreateTable.WellShaped (t : CreateTable) : Prop where
  columns : ∀ c ∈ t.columns, c.WellShaped
  constraints : ∀ c ∈ t.constraints, ∀ e ∈ c.condition, e.WellShaped
  sortKey : ∀ e ∈ t.sortKey, e.WellShaped
  partitioning : ∀ p ∈ t.partitioning, p.WellShaped
  query : ∀ q ∈ t.query, q.WellShaped
  properties : ∀ property ∈ t.properties, ∀ e ∈ property.value, e.WellShaped

theorem shapes_flatMap {α : Type} {f : α → List Node} {list : List α} :
    Shapes (list.flatMap f) ↔ ∀ a ∈ list, Shapes (f a) := by
  induction list with
  | nil => simp
  | cons a list ih => simp [ih]

theorem shapes_queryOption {query : Option Query} :
    Shapes ((query.map Query.nodes).getD []) ↔ ∀ q ∈ query, q.WellShaped := by
  cases query <;> simp [Query.WellShaped]

theorem ColumnDef.shapes_nodes {c : ColumnDef} : Shapes c.nodes ↔ c.WellShaped := by
  rw [nodes, shapes_append, shapes_optionNodes]
  constructor
  · rintro ⟨type, value⟩
    exact ⟨type, value⟩
  · rintro ⟨type, value⟩
    exact ⟨type, value⟩

theorem CreateTable.WellShaped.parts {t : CreateTable} (held : t.WellShaped) : Shapes t.parts := by
  simp only [CreateTable.parts, shapes_append, shapes_flatMap, ColumnDef.shapes_nodes,
    shapes_optionNodes, shapes_exprNodes,
    shapes_queryOption]
  refine ⟨⟨⟨⟨held.columns, held.constraints⟩, held.sortKey⟩, ?_⟩, held.query⟩
  cases partitioned : t.partitioning with
  | none => exact shapes_nil
  | some p =>
    obtain ⟨exprs, columns⟩ := held.partitioning p partitioned
    simp only [shapes_append, shapes_exprNodes, shapes_flatMap, ColumnDef.shapes_nodes]
    exact ⟨exprs, columns⟩

namespace Statement

variable {pos : Position}

theorem wellShaped_of_query {q : Query} (held : q.WellShaped) : (query q).WellShaped :=
  shapes_append.mpr ⟨held, shapes_nil⟩

theorem wellShaped_of_insert {i : Insert} (rows : ∀ row ∈ i.rows, ∀ e ∈ row, e.WellShaped)
    (query : ∀ q ∈ i.query, q.WellShaped) : (insert i).WellShaped := by
  have shape : Node.Shaped (.statement (.insert i)) ∧ Node.Counts (.statement (.insert i)) := ⟨trivial, trivial⟩
  simp only [WellShaped, nodes, propertyNodes, List.append_nil, List.cons_append, shapes_cons,
    shapes_append, shapes_flatMap,
    shapes_exprNodes, shapes_queryOption]
  exact ⟨shape, rows, query⟩

theorem wellShaped_of_table {t : CreateTable} (held : t.WellShaped) : (createTable t).WellShaped := by
  have shape : Node.Shaped (.statement (.createTable t)) ∧
    Node.Counts (.statement (.createTable t)) := ⟨trivial, trivial⟩
  simp only [WellShaped, nodes, propertyNodes, shapes_append, shapes_cons, shapes_flatMap, shapes_optionNodes]
  exact ⟨⟨shape, held.parts⟩, held.properties⟩

theorem wellShaped_of_view {v : CreateView} (held : v.query.WellShaped) : (createView v).WellShaped :=
  shapes_append.mpr ⟨shapes_cons.mpr ⟨⟨trivial, trivial⟩, held⟩, shapes_nil⟩

theorem wellShaped_drop {object : String} {ifExists : Bool} {name : List Ident} :
    (drop pos object ifExists name).WellShaped :=
  shapes_cons.mpr ⟨⟨trivial, trivial⟩, shapes_nil⟩

theorem wellShaped_of_explained {mode : String} {s : Statement} (held : s.WellShaped) :
    (explain pos mode s).WellShaped :=
  shapes_cons.mpr ⟨⟨trivial, trivial⟩, held⟩

theorem wellShaped_of_expression {e : Expr} (held : e.WellShaped) : (expression pos e).WellShaped :=
  shapes_append.mpr ⟨shapes_cons.mpr ⟨⟨trivial, trivial⟩, held⟩, shapes_nil⟩

end Statement

end SqlDialects
