import Mathlib.Data.List.Forall2
import SqlDialects.Printer.Statement
import SqlDialects.Proofs.TypeEquality

/-! Places do not matter to the printer, as they do not for types. Trees that say the same are printed as the same text,
or none of them is printed; only the failure of a tree names a place. -/

namespace SqlDialects

/-! ### What is seen of a tree -/

theorem Expr.prec_bare : ∀ e : Expr, e.bare.prec = e.prec
  | .repeated _ operand => operand.prec_bare
  | .column .. | .star .. | .literal .. | .param .. | .binary .. | .unary .. | .call .. | .window .. | .cast ..
  | .caseWhen .. | .between .. | .inList .. | .inQuery .. | .isValue .. | .existsQuery .. | .subquery ..
  | .interval .. | .array .. | .map .. | .struct .. | .lambda .. | .subscript .. | .extract .. => rfl

theorem Expr.startsWithMinus_bare : ∀ e : Expr, e.bare.startsWithMinus = e.startsWithMinus
  | .repeated _ operand => operand.startsWithMinus_bare
  | .literal _ kind _ => by cases kind <;> rfl
  | .column .. | .star .. | .param .. | .binary .. | .unary .. | .call .. | .window .. | .cast ..
  | .caseWhen .. | .between .. | .inList .. | .inQuery .. | .isValue .. | .existsQuery .. | .subquery ..
  | .interval .. | .array .. | .map .. | .struct .. | .lambda .. | .subscript .. | .extract .. => rfl

theorem Expr.atLevel_bare (e : Expr) (level : Nat) (text : String) :
    e.bare.atLevel level text = e.atLevel level text := by
  rw [atLevel, atLevel, prec_bare]

theorem isEmpty_bareOrder (items : List OrderItem) : (bareOrder items).isEmpty = items.isEmpty := by
  cases items with
  | nil => rfl
  | cons item _ => cases item; rfl

theorem isEmpty_bareCtes (ctes : List Cte) : (bareCtes ctes).isEmpty = ctes.isEmpty := by
  cases ctes with
  | nil => rfl
  | cons cte _ => cases cte; rfl

theorem isSome_bareOption (value : Option Expr) : (bareOption value).isSome = value.isSome := by
  cases value <;> rfl

theorem Query.needsParens_bare (right : Bool) (q : Query) : q.bare.needsParens right = q.needsParens right := by
  cases q with
  | select s =>
    cases s
    simp only [Query.bare, Select.bare, Query.needsParens, isEmpty_bareOrder, isSome_bareOption, isEmpty_bareCtes]
  | setOp => simp only [Query.bare, Query.needsParens, isEmpty_bareOrder, isSome_bareOption]

theorem TableExpr.needsParens_bare (t : TableExpr) : t.bare.needsParens = t.needsParens := by
  cases t <;> rfl

/-! ### Texts -/

theorem toOption_bind {ε α β : Type} (outcome : Except ε α) (next : α → Except ε β) :
    (outcome >>= next).toOption = outcome.toOption >>= fun a => (next a).toOption := by
  cases outcome <;> rfl

/-- The outcomes are the same, or both are failures. -/
abbrev SameText {α : Type} (first second : Except Error α) : Prop := first.toOption = second.toOption

theorem SameOutcome.text {α : Type} {first second : Except Error α} (same : SameOutcome first second) :
    SameText first second := by
  cases same <;> rfl

namespace Printer

theorem sequence_same {α : Type} {first second : List (Except Error α)} (each : List.Forall₂ SameText first second) :
    SameText (sequence first) (sequence second) := by
  induction each with
  | nil => rfl
  | cons same _ ih => simp only [SameText, sequence, toOption_bind, same, ih]

private theorem pairs_same (separator : String) {keys keys' values values' : List (Except Error String)}
    (first : List.Forall₂ SameText keys keys') (second : List.Forall₂ SameText values values') :
    List.Forall₂ SameText
      ((keys.zip values).map fun (key, value) => do return (← key) ++ separator ++ (← value))
      ((keys'.zip values').map fun (key, value) => do return (← key) ++ separator ++ (← value)) := by
  induction first generalizing values values' with
  | nil => simp
  | cons same _ ih =>
    cases second with
    | nil => simp
    | cons equal rest =>
      refine .cons ?_ (ih rest)
      simp only [SameText, toOption_bind, same, equal]

theorem mapText_same (p : Printer) {keys keys' values values' : List (Except Error String)}
    (first : List.Forall₂ SameText keys keys') (second : List.Forall₂ SameText values values') :
    SameText (p.mapText keys values) (p.mapText keys' values') := by
  have pairs (separator : String) := sequence_same (pairs_same separator first second)
  unfold mapText
  split <;> simp only [SameText, toOption_bind, sequence_same first, sequence_same second, pairs]

variable (p : Printer)

mutual

theorem expr_bare : ∀ e : Expr, SameText (p.expr e.bare) (p.expr e)
  | .column .. | .star .. | .literal .. | .param .. => rfl
  | .binary _ _ left right => by
    simp only [SameText, Expr.bare, expr, toOption_bind, expr_bare left, expr_bare right, Expr.atLevel_bare]
  | .unary _ _ operand => by
    simp only [SameText, Expr.bare, expr, toOption_bind, expr_bare operand, Expr.atLevel_bare,
      Expr.startsWithMinus_bare]
  | .call c => call_bare c
  | .window _ function partitionBy orderBy frame => by
    simp only [SameText, Expr.bare, expr, toOption_bind, expr_bare function, exprs_bare partitionBy,
      orderItems_bare orderBy, frameOption_bare frame, Expr.atLevel_bare]
  | .cast _ operand type _ => by
    simp only [SameText, Expr.bare, expr, toOption_bind, expr_bare operand, (p.typeSpec_bare type).text]
  | .caseWhen _ operand arms otherwise => by
    simp only [SameText, Expr.bare, expr, toOption_bind, exprOption_bare operand, whens_bare arms,
      exprOption_bare otherwise]
  | .between _ operand low high _ => by
    simp only [SameText, Expr.bare, expr, toOption_bind, expr_bare operand, expr_bare low, expr_bare high,
      Expr.atLevel_bare]
  | .inList _ operand members _ => by
    simp only [SameText, Expr.bare, expr, toOption_bind, expr_bare operand, exprs_bare members, Expr.atLevel_bare]
  | .inQuery _ operand query _ => by
    simp only [SameText, Expr.bare, expr, toOption_bind, expr_bare operand, queryText_bare query, Expr.atLevel_bare]
  | .isValue _ operand _ _ => by
    simp only [SameText, Expr.bare, expr, toOption_bind, expr_bare operand, Expr.atLevel_bare]
  | .existsQuery _ query _ | .subquery _ query => by
    simp only [SameText, Expr.bare, expr, toOption_bind, queryText_bare query]
  | .interval _ value _ => by
    simp only [SameText, Expr.bare, expr, toOption_bind, expr_bare value, Expr.atLevel_bare]
  | .array _ elems => by simp only [SameText, Expr.bare, expr, toOption_bind, exprs_bare elems]
  | .map _ keys values => p.mapText_same (outcomes_bare keys) (outcomes_bare values)
  | .struct _ _ values => by simp only [SameText, Expr.bare, expr, toOption_bind, exprs_bare values]
  | .lambda _ _ body => by
    simp only [SameText, Expr.bare, expr]
    split
    · rfl
    · simp only [toOption_bind, expr_bare body]
  | .subscript _ operand index => by
    simp only [SameText, Expr.bare, expr, toOption_bind, expr_bare operand, expr_bare index, Expr.atLevel_bare]
  | .extract _ _ operand => by simp only [SameText, Expr.bare, expr, toOption_bind, expr_bare operand]
  | .repeated _ operand => expr_bare operand

theorem exprs_bare : ∀ es : List Expr, SameText (p.exprs (bareExprs es)) (p.exprs es)
  | [] => rfl
  | e :: es => by simp only [SameText, bareExprs, exprs, toOption_bind, expr_bare e, exprs_bare es]

theorem exprOption_bare : ∀ e : Option Expr, SameText (p.exprOption (bareOption e)) (p.exprOption e)
  | none => rfl
  | some e => by simp only [SameText, bareOption, exprOption, toOption_bind, expr_bare e]

theorem outcomes_bare : ∀ es : List Expr, List.Forall₂ SameText (p.outcomes (bareExprs es)) (p.outcomes es)
  | [] => .nil
  | e :: es => .cons (expr_bare e) (outcomes_bare es)

theorem call_bare : ∀ c : Call, SameText (p.call c.bare) (p.call c)
  | ⟨_, _, args, _, orderBy, filter⟩ => by
    simp only [SameText, Call.bare, call]
    split
    · rfl
    · simp only [toOption_bind, exprs_bare args, orderItems_bare orderBy, exprOption_bare filter]

theorem orderItems_bare : ∀ items : List OrderItem, SameText (p.orderItems (bareOrder items)) (p.orderItems items)
  | [] => rfl
  | ⟨e, _, _⟩ :: rest => by
    simp only [SameText, bareOrder, orderItems, toOption_bind, expr_bare e, orderItems_bare rest]

theorem whens_bare : ∀ arms : List When, SameText (p.whens (bareArms arms)) (p.whens arms)
  | [] => rfl
  | ⟨condition, result⟩ :: rest => by
    simp only [SameText, bareArms, whens, toOption_bind, expr_bare condition, expr_bare result, whens_bare rest]

theorem frameOption_bare : ∀ frame : Option Frame, SameText (p.frameOption (bareFrame frame)) (p.frameOption frame)
  | none => rfl
  | some ⟨_, first, last⟩ => by
    simp only [SameText, bareFrame, frameOption, toOption_bind, frameBound_bare first, boundOption_bare last]

theorem boundOption_bare : ∀ bound : Option FrameBound,
    SameText (p.boundOption (bareBound bound)) (p.boundOption bound)
  | none => rfl
  | some bound => by simp only [SameText, bareBound, boundOption, toOption_bind, frameBound_bare bound]

theorem frameBound_bare : ∀ bound : FrameBound, SameText (p.frameBound bound.bare) (p.frameBound bound)
  | ⟨_, none⟩ => rfl
  | ⟨_, some e⟩ => by
    simp only [SameText, FrameBound.bare, bareOption, frameBound, toOption_bind, expr_bare e, Expr.atLevel_bare]

theorem queryText_bare : ∀ q : Query, SameText (p.queryText q.bare) (p.queryText q)
  | .select s => select_bare s
  | .setOp _ _ _ left right orderBy limit => by
    simp only [SameText, Query.bare, queryText, toOption_bind, queryText_bare left, queryText_bare right,
      orderItems_bare orderBy, exprOption_bare limit, Query.needsParens_bare]

theorem select_bare : ∀ s : Select, SameText (p.select s.bare) (p.select s)
  | ⟨_, ctes, _, items, source, lateralViews, condition, groupBy, having, orderBy, limit, offset⟩ => by
    simp only [SameText, Select.bare, select, toOption_bind, cteTexts_bare ctes, selectItems_bare items,
      tableOption_bare source, views_bare lateralViews, exprOption_bare condition, exprs_bare groupBy,
      exprOption_bare having, orderItems_bare orderBy]
    split <;> simp only [toOption_bind, exprOption_bare limit, exprOption_bare offset]

theorem cteTexts_bare : ∀ ctes : List Cte, SameText (p.cteTexts (bareCtes ctes)) (p.cteTexts ctes)
  | [] => rfl
  | ⟨name, columns, body⟩ :: rest => by
    simp only [SameText, bareCtes, cteTexts, toOption_bind, cteText_bare name columns body, cteTexts_bare rest]

theorem cteText_bare (name : Ident) (columns : List Ident) : ∀ body : CteBody,
    SameText (p.cteText name columns body.bare) (p.cteText name columns body)
  | .query q => by simp only [SameText, CteBody.bare, cteText, toOption_bind, queryText_bare q]
  | .scalar value => by
    simp only [SameText, CteBody.bare, cteText]
    split
    · rfl
    · simp only [toOption_bind, expr_bare value]

theorem selectItems_bare : ∀ items : List SelectItem,
    SameText (p.selectItems (bareItems items)) (p.selectItems items)
  | [] => rfl
  | ⟨e, _⟩ :: rest => by
    simp only [SameText, bareItems, selectItems, toOption_bind, expr_bare e, selectItems_bare rest]

theorem views_bare : ∀ views : List LateralView, SameText (p.views (bareViews views)) (p.views views)
  | [] => rfl
  | ⟨_, function, _, _, _⟩ :: rest => by
    simp only [SameText, bareViews, Printer.views]
    split
    · rfl
    · simp only [toOption_bind, call_bare function, views_bare rest]

theorem tableOption_bare : ∀ source : Option TableExpr,
    SameText (p.tableOption (bareSource source)) (p.tableOption source)
  | none => rfl
  | some t => by simp only [SameText, bareSource, tableOption, toOption_bind, table_bare t]

theorem table_bare : ∀ t : TableExpr, SameText (p.table t.bare) (p.table t)
  | .ref .. => rfl
  | .derived _ query _ => by simp only [SameText, TableExpr.bare, table, toOption_bind, queryText_bare query]
  | .function _ c _ => by simp only [SameText, TableExpr.bare, table, toOption_bind, call_bare c]
  | .join _ _ left right condition _ => by
    simp only [SameText, TableExpr.bare, table, toOption_bind, table_bare left, table_bare right,
      exprOption_bare condition, TableExpr.needsParens_bare]

end

/-! ### Statements -/

theorem mapM_same {α β : Type} {f g : α → Except Error β} {bare : α → α} (each : ∀ a, SameText (f (bare a)) (g a))
    (as : List α) : SameText ((as.map bare).mapM f) (as.mapM g) := by
  induction as with
  | nil => rfl
  | cons a as ih => simp only [SameText, List.map_cons, List.mapM_cons, toOption_bind, each a, ih]

theorem exprAt_bare (level : Nat) (e : Expr) : SameText (p.exprAt level e.bare) (p.exprAt level e) := by
  simp only [SameText, exprAt, toOption_bind, p.expr_bare e, Expr.atLevel_bare]

theorem columnDef_bare (c : ColumnDef) : SameText (p.columnDef c.bare) (p.columnDef c) := by
  obtain ⟨_, _, type, _, value, _⟩ := c
  cases value with
  | none =>
    simp only [SameText, columnDef, ColumnDef.bare, bareOption, toOption_bind, (p.typeSpec_bare type).text]
    rfl
  | some e =>
    simp only [SameText, columnDef, ColumnDef.bare, bareOption, toOption_bind, (p.typeSpec_bare type).text,
      p.exprAt_bare _ e]
    rfl

theorem constraint_bare (c : Constraint) : SameText (p.constraint c.bare) (p.constraint c) := by
  obtain ⟨_, kind, _, _, _, _, condition⟩ := c
  cases kind with
  | check =>
    cases condition with
    | none => rfl
    | some e => simp only [SameText, constraint, Constraint.bare, bareOption, toOption_bind, p.expr_bare e]
  | primaryKey | unique | index | foreignKey => rfl

theorem partitionColumn_bare (c : ColumnDef) : SameText (p.partitionColumn c.bare) (p.partitionColumn c) := by
  simp only [SameText, partitionColumn, ColumnDef.bare, toOption_bind, (p.typeSpec_bare c.type).text]

theorem exprs_append (es others : List Expr) :
    p.exprs (es ++ others) = (do return (← p.exprs es) ++ (← p.exprs others)) := by
  induction es with
  | nil => cases other : p.exprs others <;> simp [exprs_nil, other, bind, Except.bind, pure, Except.pure]
  | cons e es ih =>
    rw [List.cons_append, exprs_cons, exprs_cons, ih]
    cases p.expr e <;> cases p.exprs es <;> cases p.exprs others <;> rfl

/-- Columns that are declared in the clause are printed by their names. -/
private theorem names_bare (columns : List ColumnDef) :
    p.exprs ((columns.map ColumnDef.bare).map fun c => .column c.pos [c.name]) =
      p.exprs (columns.map fun c => .column c.pos [c.name]) := by
  induction columns with
  | nil => rfl
  | cons c columns ih =>
    simp only [List.map_cons, exprs_cons, ih]
    rfl

theorem partitioning_bare (keys : Partitioning) : SameText (p.partitioning keys.bare) (p.partitioning keys) := by
  have columns := mapM_same p.partitionColumn_bare keys.columns
  have exprs (p : Printer) : SameText
      (p.exprs (bareExprs keys.exprs ++ (keys.columns.map ColumnDef.bare).map fun c => .column c.pos [c.name]))
      (p.exprs (keys.exprs ++ keys.columns.map fun c => .column c.pos [c.name])) := by
    simp only [SameText, exprs_append, names_bare, toOption_bind, p.exprs_bare keys.exprs]
  unfold partitioning Partitioning.bare
  split
  · simp only [SameText, toOption_bind, columns, p.exprs_bare keys.exprs]
  · by_cases plain : keys.method = ""
    · simp only [SameText, plain, if_true, toOption_bind, exprs p]
    · simp only [SameText, plain, if_false, toOption_bind, exprs p.inKey]

theorem valueText_bare (x : Property) : x.bare.valueText = x.valueText := by
  obtain ⟨_, _, _, value, _⟩ := x
  cases value with
  | none => rfl
  | some e => cases e <;> rfl

theorem sortKey_bare (separator : String) (es : List Expr) :
    SameText (p.sortKey separator (bareExprs es)) (p.sortKey separator es) := by
  have empty : (bareExprs es).isEmpty = es.isEmpty := by cases es <;> rfl
  unfold sortKey
  rw [empty]
  split
  · rfl
  · simp only [SameText, toOption_bind, p.exprs_bare es]

/-- Of a property its value stands in no text but that of the value. -/
theorem rawProperties_bare (separator keyword join : String) (group : PropertyGroup) (properties : List Property) :
    rawProperties separator keyword join group (properties.map Property.bare) =
      rawProperties separator keyword join group properties := by
  have same : ((properties.map Property.bare).filter fun x => x.group == group && x.raw != "").map Property.raw =
      (properties.filter fun x => x.group == group && x.raw != "").map Property.raw := by
    rw [List.filter_map, List.map_map]
    rfl
  rw [rawProperties, same, rawProperties]

theorem propertyLists_bare (separator : String) (properties : List Property) :
    p.propertyLists separator (properties.map Property.bare) = p.propertyLists separator properties := by
  have pairs (x : Property) : p.keyValue x.bare = p.keyValue x := by
    rw [keyValue, keyValue, valueText_bare]
    rfl
  simp only [propertyLists, List.filter_map, List.map_map, Function.comp_def, pairs]
  rfl

theorem isBareCopy_bare (t : CreateTable) : isBareCopy t.bare = isBareCopy t := by
  simp only [isBareCopy, CreateTable.bare, List.isEmpty_map, Option.isNone_map]

theorem tableHead_bare (t : CreateTable) : p.tableHead t.bare = p.tableHead t := by
  have options : ((t.properties.map Property.bare).filter fun x => x.group == .leading).map (fun x => ", " ++ x.raw) =
      (t.properties.filter fun x => x.group == .leading).map fun x => ", " ++ x.raw := by
    rw [List.filter_map, List.map_map]
    rfl
  simp only [tableHead, CreateTable.bare, options]
  rfl

theorem tableBody_bare (t : CreateTable) : SameText (p.tableBody t.bare) (p.tableBody t) := by
  simp only [tableBody, CreateTable.bare, List.isEmpty_map]
  split
  · rfl
  · simp only [SameText, toOption_bind, mapM_same p.columnDef_bare t.columns, mapM_same p.constraint_bare t.constraints]

theorem tableClauses_bare (separator : String) (t : CreateTable) :
    SameText (p.tableClauses separator t.bare) (p.tableClauses separator t) := by
  have copy := isBareCopy_bare t
  unfold tableClauses
  rw [copy]
  cases keys : t.partitioning <;> cases query : t.query <;>
    simp only [SameText, CreateTable.bare, keys, query, Option.map_some, Option.map_none, toOption_bind,
      rawProperties_bare, propertyLists_bare, sortKey_bare, partitioning_bare, queryText_bare]

theorem createTable_bare (t : CreateTable) : SameText (p.createTable t.bare) (p.createTable t) := by
  unfold createTable
  rw [tableHead_bare]
  split
  · next none => rw [if_pos (show (!t.like.isEmpty) = true from none)]; rfl
  · next none =>
    rw [if_neg (show ¬(!t.like.isEmpty) = true from none)]
    simp only [SameText, toOption_bind, p.tableBody_bare t, p.tableClauses_bare _ t]

theorem insert_bare (i : Insert) : SameText (p.insert i.bare) (p.insert i) := by
  have rows : SameText
      ((i.rows.map bareExprs).mapM fun row => do return "(" ++ commas (← p.exprs row) ++ ")")
      (i.rows.mapM fun row => do return "(" ++ commas (← p.exprs row) ++ ")") :=
    mapM_same (fun row => by simp only [SameText, toOption_bind, p.exprs_bare row]) i.rows
  obtain ⟨_, _, _, _, _, query⟩ := i
  cases query with
  | none =>
    simp only [SameText, insert, Insert.bare, Option.map_none, toOption_bind, rows]
    rfl
  | some q =>
    simp only [SameText, insert, Insert.bare, Option.map_some, toOption_bind, p.queryText_bare q]
    rfl

theorem statement_bare : ∀ s : Statement, SameText (p.statement s.bare) (p.statement s)
  | .query q => p.queryText_bare q
  | .insert i => p.insert_bare i
  | .createTable t => p.createTable_bare t
  | .createView v => by
    simp only [SameText, Statement.bare, statement, createView, CreateView.bare, toOption_bind,
      p.queryText_bare v.query]
  | .drop .. => rfl
  | .explain _ _ s => by simp only [SameText, Statement.bare, statement, toOption_bind, statement_bare s]
  | .expression _ e => p.expr_bare e

/-! ### Trees that say the same -/

variable {p} {text : String}

theorem ok_of_same {α : Type} {first second : Except Error α} {a : α} (same : SameText first second)
    (done : second = .ok a) : first = .ok a := by
  subst done
  cases first with
  | error e => cases same
  | ok b => exact congrArg Except.ok (Option.some.inj same)

theorem expr_of_bare {e other : Expr} (same : other.bare = e.bare) : SameText (p.expr other) (p.expr e) :=
  (p.expr_bare other).symm.trans (same ▸ p.expr_bare e)

theorem statement_of_bare {s other : Statement} (same : other.bare = s.bare) :
    SameText (p.statement other) (p.statement s) :=
  (p.statement_bare other).symm.trans (same ▸ p.statement_bare s)

end Printer

end SqlDialects
