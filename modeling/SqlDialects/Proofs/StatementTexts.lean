import SqlDialects.Proofs.Overrides
import SqlDialects.Proofs.ScriptTrees
import SqlDialects.Proofs.Translation

/-! Statements as texts of a dialect. The text of a query, a value, a drop, a view or a table is its own canonical
text. On the way to another dialect the rules ask for calls, casts, intervals and a few operators, of which
such statements have none but operators, so that the translation is read in the target as what was translated. -/

namespace SqlDialects

open SqlDialects.Parser

variable {d : Dialect} {source target : Entry} {n : Node} {s : Statement}

/-! ### Canonical texts -/

/-- The text of a statement is read as the statement again, so it is its own canonical text. -/
theorem statement_canonical {entry : Entry} (member : entry ∈ Registry.standard.entries) {sql : String}
    (parsed : Statement.parse entry.dialect sql = .ok s) (tree : StatementTree entry.dialect s) :
    ∃ text, entry.dialect.canonical sql = .ok text ∧ entry.dialect.canonical text = .ok text := by
  obtain ⟨text, ts, printed, spelled, alone⟩ := tree.standalone (registered_readsQueries member)
  have own := printed { dialect := entry.dialect } rfl rfl
  obtain ⟨read, again, same⟩ := alone.reads.parse spelled
  refine ⟨text, ?_, ?_⟩
  · rw [Dialect.canonical, parsed]
    exact own
  · rw [Dialect.canonical, again]
    exact Printer.ok_of_same (Printer.statement_of_bare same) own

/-! ### What rules ask for -/

/-- Kinds of nodes that no rule of a registered dialect asks for, whatever they hold. -/
def unaskedKinds : List String := ["Column", "Star", "Literal", "UnaryOp", "Between", "In", "Is", "SetOperation",
  "TableRef", "DerivedTable", "Join", "TypeSpec", "CreateView", "Drop", "ExprStmt"]

/-- There is nothing about the node that a rule between the two dialects asks for: bindings and calls among the items
of a select, operators by their names, and, towards Doris, tables from elsewhere. -/
inductive Node.Stays (source target : Entry) (n : Node) : Prop
  | unasked (known : n.kind ∈ unaskedKinds)
  | operator (known : n.kind = "BinaryOp") (leaves : target.profile.Leaves n.name)
  | select {s : Select} (is : n = .statement (.query (.select s))) (bindings : s.ctes = [])
    (plain : ∀ item ∈ s.items, ∀ c, item.expr ≠ .call c)
  | table (known : n.kind = "CreateTable") (own : target.dialect.name = "doris" → source.dialect.name = "doris")

theorem Node.Stays.repeated {place : Place} {e : Expr} (member : target ∈ Registry.standard.entries)
    (stays : Node.Stays source target (.expr e)) : Node.Stays source target (.expr (.repeated place e)) := by
  cases stays with
  | unasked known => exact .unasked known
  | operator known leaves =>
    exact .operator known fun r inside asks => ((registered_apart member).outbound r inside asks).2
  | select is => cases is
  | table known own => exact .table known own

private theorem Node.Stays.kind (stays : n.Stays source target) :
    n.kind ∈ ["BinaryOp", "Select", "CreateTable"] ++ unaskedKinds := by
  cases stays with
  | unasked known => exact List.mem_append_right _ known
  | operator known | table known =>
    rw [known]
    decide
  | select is =>
    rw [is]
    exact List.mem_cons_of_mem _ List.mem_cons_self

/-- A rule for another kind of nodes. -/
private theorem Node.Stays.fire (stays : n.Stays source target) {r : Rule} (other : r.pattern.kind ≠ n.kind ∨
    r.pattern.kind ∉ ["BinaryOp", "Select", "CreateTable"] ++ unaskedKinds) (ctx : Context) :
    r.fire? ctx n = .ok none := by
  refine Rule.fire_unmatched (Pattern.matches_kind ?_ ctx)
  obtain apart | unknown := other
  · exact Ne.symm apart
  · intro same
    exact unknown (same ▸ stays.kind)

/-! Of each kind that rules ask for there is one reason to stay. -/

private theorem Node.Stays.of_select (stays : n.Stays source target) (kind : n.kind = "Select") :
    ∃ s : Select, n = .statement (.query (.select s)) ∧ s.ctes = [] ∧ ∀ item ∈ s.items, ∀ c, item.expr ≠ .call c := by
  cases stays with
  | unasked known => exact absurd (kind ▸ known) (by decide)
  | operator known | table known => exact absurd (kind.symm.trans known) (by decide)
  | select is bindings plain => exact ⟨_, is, bindings, plain⟩

private theorem Node.Stays.of_operator (stays : n.Stays source target) (kind : n.kind = "BinaryOp") :
    target.profile.Leaves n.name := by
  cases stays with
  | unasked known => exact absurd (kind ▸ known) (by decide)
  | operator _ leaves => exact leaves
  | select is => exact absurd (kind.symm.trans (congrArg Node.kind is)) (show "BinaryOp" ≠ "Select" by decide)
  | table known => exact absurd (kind.symm.trans known) (by decide)

private theorem Node.Stays.of_table (stays : n.Stays source target) (kind : n.kind = "CreateTable") :
    target.dialect.name = "doris" → source.dialect.name = "doris" := by
  cases stays with
  | unasked known => exact absurd (kind ▸ known) (by decide)
  | operator known => exact absurd (kind.symm.trans known) (by decide)
  | select is => exact absurd (kind.symm.trans (congrArg Node.kind is)) (show "CreateTable" ≠ "Select" by decide)
  | table _ own => exact own

private theorem registered_inbound {entry : Entry} (member : entry ∈ Registry.standard.entries) :
    (∀ r ∈ entry.profile.inbound, r.pattern.kind = "Cast") ∨ entry.profile.inbound = [ClickHouse.arrayJoinItems] := by
  obtain ⟨profile, known, rfl⟩ := List.mem_map.mp member
  have checked : ∀ profile ∈ [Doris.profile, Hive.profile, MySql.profile, Oracle.profile, Postgres.profile,
      Presto.profile, Snowflake.profile, Spark.profile, Teradata.profile, Presto.trino],
      ∀ r ∈ profile.inbound, r.pattern.kind = "Cast" := by
    decide +kernel
  obtain rfl | other := List.mem_cons.mp known
  · exact .inr rfl
  · exact .inl (checked profile other)

private theorem explodeItem_plain {item : SelectItem} (plain : ∀ c, item.expr ≠ .call c) (index : Nat) :
    ClickHouse.explodeItem index item = (item, none) := by
  unfold ClickHouse.explodeItem
  split
  · next c call => exact absurd call (plain c)
  · rfl

private theorem arrayJoinItems_plain {s : Select} (plain : ∀ item ∈ s.items, ∀ c, item.expr ≠ .call c) (ctx : Context) :
    ClickHouse.arrayJoinItems.fire? ctx (.statement (.query (.select s))) = .ok none := by
  simp only [Rule.fire?, ClickHouse.arrayJoinItems]
  rw [List.filterMap_eq_nil_iff.mpr fun out inside => ?_]
  · simp only [List.isEmpty_nil, Bool.not_true, Bool.and_false, Bool.false_eq_true, if_false, ite_self]
  · obtain ⟨⟨item, i⟩, member, rfl⟩ := List.mem_map.mp inside
    exact congrArg Prod.snd (explodeItem_plain (plain item (List.fst_mem_of_mem_zipIdx member)) i)

theorem Node.Stays.inbound (member : source ∈ Registry.standard.entries) (stays : n.Stays source target)
    (ctx : Context) : Rule.Silent (source.rules.inPhase .inbound) ctx n := by
  intro r inside
  obtain own | unmappable := (Entry.mem_inbound member).mp inside
  · obtain cast | clickHouse := registered_inbound member
    · exact stays.fire (.inr (by rw [cast r own]; decide)) ctx
    · rw [clickHouse, List.mem_singleton] at own
      subst own
      by_cases select : n.kind = "Select"
      · obtain ⟨s, rfl, _, plain⟩ := stays.of_select select
        exact arrayJoinItems_plain plain ctx
      · exact stays.fire (.inl (Ne.symm select)) ctx
  · obtain ⟨_, _, rfl⟩ := List.mem_map.mp unmappable
    exact stays.fire (.inr (show "FunctionCall" ∉ _ by decide)) ctx

private theorem registered_outbound {entry : Entry} (member : entry ∈ Registry.standard.entries) :
    (∀ r ∈ entry.profile.outbound, r.pattern.kind ∈ ["FunctionCall", "Cast", "BinaryOp"]) ∨
      entry.profile.outbound = Doris.rules := by
  obtain ⟨profile, known, rfl⟩ := List.mem_map.mp member
  have checked : ∀ profile ∈ [ClickHouse.profile, Hive.profile, MySql.profile, Oracle.profile, Postgres.profile,
      Presto.profile, Snowflake.profile, Spark.profile, Teradata.profile, Presto.trino],
      ∀ r ∈ profile.outbound, r.pattern.kind ∈ ["FunctionCall", "Cast", "BinaryOp"] := by
    decide +kernel
  obtain rfl | other := List.mem_cons.mp (List.perm_middle.mem_iff.mp
    (show profile ∈ [ClickHouse.profile] ++ Doris.profile :: [Hive.profile, MySql.profile, Oracle.profile,
      Postgres.profile, Presto.profile, Snowflake.profile, Spark.profile, Teradata.profile, Presto.trino] from known))
  · exact .inr rfl
  · exact .inl (checked profile other)

/-- What the last two rules of Doris ask for is not there. -/
private theorem Node.Stays.doris (stays : n.Stays source target) (again : Node → Except Error Node) :
    ∀ r ∈ [Doris.inlineScalarWith, Doris.createTable],
      r.fire? ⟨source.dialect, target.dialect, again⟩ n = .ok none := by
  intro r known
  simp only [List.mem_cons, List.not_mem_nil, or_false] at known
  obtain rfl | rfl := known
  · by_cases select : n.kind = "Select"
    · obtain ⟨s, rfl, bindings, _⟩ := stays.of_select select
      have none : Doris.inlineScalars s = .ok none := by
        rw [Doris.inlineScalars, bindings]
        rfl
      simp only [Rule.fire?, Doris.inlineScalarWith, none]
      exact ite_self _
    · exact stays.fire (.inl (Ne.symm select)) _
  · by_cases table : n.kind = "CreateTable"
    · by_cases towards : target.dialect.name = "doris"
      · have same : Context.isCross ⟨source.dialect, target.dialect, again⟩ = false := by
          rw [Context.isCross, stays.of_table table towards, towards]
          rfl
        simp only [Rule.fire?, Doris.createTable, same, Bool.false_and, Bool.false_eq_true, if_false]
        split
        · split <;> rfl
        · rfl
      · refine Rule.fire_unmatched ?_
        simp [Pattern.matches, Doris.createTable, towards]
    · exact stays.fire (.inl (Ne.symm table)) _

theorem Node.Stays.outbound (member : target ∈ Registry.standard.entries) (stays : n.Stays source target)
    (again : Node → Except Error Node) :
    Rule.Silent (target.rules.inPhase .outbound) ⟨source.dialect, target.dialect, again⟩ n := by
  intro r inside
  have own := (Entry.mem_outbound member).mp inside
  by_cases operator : r.pattern.kind = "BinaryOp"
  · by_cases same : n.kind = "BinaryOp"
    · have named := ((registered_apart member).outbound r own operator).2
      have other := stays.of_operator same r own operator
      refine Rule.fire_unmatched ?_
      simp [Pattern.matches, named, Ne.symm other]
    · exact stays.fire (.inl fun equal => same (equal ▸ operator)) _
  obtain asked | doris := registered_outbound member
  · have kind := asked r own
    simp only [List.mem_cons, operator, List.not_mem_nil, or_false] at kind
    exact stays.fire (.inr (by obtain kind | kind := kind <;> rw [kind] <;> decide)) _
  · rw [doris] at own
    obtain first | last := List.mem_append.mp (show r ∈ [Doris.dayOfWeek, Doris.ilocate, Doris.aggregateFilter,
      Doris.ilike, Doris.integralInterval] ++ [Doris.inlineScalarWith, Doris.createTable] from own)
    · have kinds : ∀ r ∈ [Doris.dayOfWeek, Doris.ilocate, Doris.aggregateFilter, Doris.ilike, Doris.integralInterval],
          r.pattern.kind = "BinaryOp" ∨ r.pattern.kind ∉ ["BinaryOp", "Select", "CreateTable"] ++ unaskedKinds := by
        decide
      exact stays.fire (.inr ((kinds r first).resolve_left operator)) _
    · exact stays.doris again r last

/-! ### Translations -/

/-- A statement stays as it is if all of its nodes do. -/
theorem Engine.phase_stays {engine : Engine} {rules : List Rule} {still : Node → Prop}
    (silent : ∀ n, still n → ∀ again, Rule.Silent rules ⟨engine.source, engine.target, again⟩ n)
    (marked : ∀ place e, still (.expr e) → still (.expr (.repeated place e))) (stays : ∀ n ∈ s.nodes, still n) :
    engine.phase rules (.statement s) = .ok (.statement s) := by
  have quiet (n : Node) (held : still n) : engine.step rules n = .ok none := Rule.settle_none (silent n held _) _
  have renames : Step.Renames (engine.step rules) id still :=
    ⟨fun c held => .inl ⟨quiet _ (by rwa [Call.named_eq rfl] at held), rfl⟩, fun n _ held => quiet n held, marked⟩
  have same : s.rename id = s := s.rename_keeps fun _ _ _ _ => rfl
  have walked := renames.adapt_statement rfl 255 (s := s) (by rwa [same])
  rwa [same] at walked

theorem Entry.apply_stays (left : source ∈ Registry.standard.entries) (right : target ∈ Registry.standard.entries)
    (stays : ∀ n ∈ s.nodes, n.Stays source target) :
    Engine.apply ⟨source.dialect, target.dialect, source.rules.inPhase .inbound, target.rules.inPhase .outbound⟩ s =
      .ok s := by
  have marked (place : Place) (e : Expr) (held : Node.Stays source target (.expr e)) :
      Node.Stays source target (.expr (.repeated place e)) := held.repeated right
  let engine : Engine :=
    ⟨source.dialect, target.dialect, source.rules.inPhase .inbound, target.rules.inPhase .outbound⟩
  have first := @Engine.phase_stays s engine engine.inbound _ (fun n held again => held.inbound left _) marked stays
  have second := @Engine.phase_stays s engine engine.outbound _ (fun n held again => held.outbound right again)
    marked stays
  rw [Engine.apply, first]
  change (Engine.phase _ _ _ >>= _) = _
  rw [second]
  rfl

/-! ### Trees of statements -/

/-- Operators are all that can be asked for of the node. -/
private def Node.Idle (source target : Entry) (n : Node) : Prop :=
  (n.kind = "BinaryOp" → target.profile.Leaves n.name) → n.Stays source target

private theorem free_unasked (kind : String) (known : kind ∈ unaskedKinds) (is : n.kind = kind) :
    n.Idle source target :=
  fun _ => .unasked (is ▸ known)

private theorem free_nodes {α : Type} {nodes : α → List Node} {as : List α}
    (each : ∀ a ∈ as, ∀ n ∈ nodes a, n.Idle source target) : ∀ n ∈ as.flatMap nodes, n.Idle source target := by
  intro n inside
  obtain ⟨a, member, held⟩ := List.mem_flatMap.mp inside
  exact each a member n held

private theorem free_option {e : Option Expr} (each : ∀ own ∈ e, ∀ n ∈ own.nodes, n.Idle source target) :
    ∀ n ∈ optionNodes e, n.Idle source target := by
  cases e with
  | none => exact fun n inside => absurd inside List.not_mem_nil
  | some own => exact each own rfl

theorem exprNodes_eq (es : List Expr) : exprNodes es = es.flatMap Expr.nodes := by
  induction es with
  | nil => rfl
  | cons e es ih => rw [exprNodes, ih, List.flatMap_cons]

theorem orderNodes_eq (items : List OrderItem) : orderNodes items = items.flatMap (·.expr.nodes) := by
  induction items with
  | nil => rfl
  | cons item items ih =>
    cases item
    rw [orderNodes, ih, List.flatMap_cons]

theorem itemNodes_eq (items : List SelectItem) : itemNodes items = items.flatMap (·.expr.nodes) := by
  induction items with
  | nil => rfl
  | cons item items ih =>
    cases item
    rw [itemNodes, ih, List.flatMap_cons]

private theorem Select.parts_eq (s : Select) : s.parts = cteNodes s.ctes ++ itemNodes s.items ++ sourceNodes s.source ++
    viewNodes s.lateralViews ++ optionNodes s.condition ++ exprNodes s.groupBy ++ optionNodes s.having ++
    orderNodes s.orderBy ++ optionNodes s.limit ++ optionNodes s.offset := by
  cases s
  rfl

private theorem ValueTree.free {e : Expr} (tree : ValueTree d e) : ∀ n ∈ e.nodes, n.Idle source target := by
  induction tree with
  | column => exact List.forall_mem_singleton.mpr (free_unasked "Column" (by decide) rfl)
  | number | string => exact List.forall_mem_singleton.mpr (free_unasked "Literal" (by decide) rfl)
  | binary pos _ _ _ first second =>
    exact List.forall_mem_cons.mpr
      ⟨fun leaves => .operator rfl (leaves rfl), List.forall_mem_append.mpr ⟨first, second⟩⟩
  | negation _ _ inner | minus _ _ inner =>
    exact List.forall_mem_cons.mpr ⟨free_unasked "UnaryOp" (by decide) rfl, inner⟩
  | isValue _ _ _ _ inner => exact List.forall_mem_cons.mpr ⟨free_unasked "Is" (by decide) rfl, inner⟩
  | between _ _ _ _ _ inner least most =>
    exact List.forall_mem_cons.mpr ⟨free_unasked "Between" (by decide) rfl,
      List.forall_mem_append.mpr ⟨List.forall_mem_append.mpr ⟨inner, least⟩, most⟩⟩
  | @inList _ members _ _ _ _ _ inner each =>
    refine List.forall_mem_cons.mpr ⟨free_unasked "In" (by decide) rfl, List.forall_mem_append.mpr ⟨inner, ?_⟩⟩
    rw [exprNodes_eq]
    exact free_nodes each

private theorem ItemTree.free {item : SelectItem} (tree : ItemTree d item) :
    ∀ n ∈ item.expr.nodes, n.Idle source target := by
  cases tree with
  | star => exact List.forall_mem_singleton.mpr (free_unasked "Star" (by decide) rfl)
  | value tree => exact tree.free

private theorem ItemTree.plain {item : SelectItem} (tree : ItemTree d item) (c : Call) : item.expr ≠ .call c := by
  cases tree with
  | star => simp
  | value tree =>
    rintro rfl
    cases tree

private theorem TailTree.free {tail : QueryTail} (tree : TailTree d tail) :
    (∀ n ∈ orderNodes tail.orderBy, n.Idle source target) ∧ (∀ n ∈ optionNodes tail.limit, n.Idle source target) ∧
      ∀ n ∈ optionNodes tail.offset, n.Idle source target := by
  refine ⟨?_, free_option fun e held => (tree.limit e held).free, free_option fun e held => (tree.offset e held).free⟩
  rw [orderNodes_eq]
  exact free_nodes fun item held => (tree.orders item held).free

mutual

private theorem QueryTree.free {q : Query} (tree : QueryTree d q) : ∀ n ∈ q.nodes, n.Idle source target :=
  match tree with
  | @QueryTree.select _ s bindings views _ items tables condition groups having clauses => by
    obtain ⟨orders, limit, offset⟩ := @TailTree.free d source target _ clauses
    have root : Node.Idle source target (.statement (.query (.select s))) :=
      fun _ => .select rfl bindings fun item held => (items item held).plain
    have tables : ∀ n ∈ sourceNodes s.source, n.Idle source target := by
      cases given : s.source with
      | none => exact fun n inside => absurd inside List.not_mem_nil
      | some t => exact (tables t given).free
    simp only [Query.nodes, s.parts_eq, bindings, views, cteNodes, viewNodes, itemNodes_eq, exprNodes_eq,
      List.nil_append, List.append_nil, List.forall_mem_cons, List.forall_mem_append]
    exact ⟨root, ⟨⟨⟨⟨⟨⟨free_nodes fun item held => (items item held).free, tables⟩,
      free_option fun e held => (condition e held).free⟩, free_nodes fun e held => (groups e held).free⟩,
      free_option fun e held => (having e held).free⟩, orders⟩, limit⟩, offset⟩
  | .setOp pos known all first second _ _ clauses => by
    obtain ⟨orders, limit, _⟩ := @TailTree.free d source target _ clauses
    simp only [Query.nodes, List.cons_append, List.forall_mem_cons, List.forall_mem_append]
    exact ⟨free_unasked "SetOperation" (by decide) rfl, ⟨⟨first.free, second.free⟩, orders⟩, limit⟩

private theorem TableTree.free {t : TableExpr} (tree : TableTree d t) : ∀ n ∈ t.nodes, n.Idle source target :=
  match tree with
  | .ref .. => List.forall_mem_singleton.mpr (free_unasked "TableRef" (by decide) rfl)
  | .derived _ query _ => List.forall_mem_cons.mpr ⟨free_unasked "DerivedTable" (by decide) rfl, query.free⟩
  | .comma _ first second _ => List.forall_mem_cons.mpr ⟨free_unasked "Join" (by decide) rfl,
      List.forall_mem_append.mpr ⟨List.forall_mem_append.mpr ⟨first.free, second.free⟩, free_option (by simp)⟩⟩
  | .join _ _ first second _ on _ _ => List.forall_mem_cons.mpr ⟨free_unasked "Join" (by decide) rfl,
      List.forall_mem_append.mpr ⟨List.forall_mem_append.mpr ⟨first.free, second.free⟩,
        free_option fun e held => (on e held).free⟩⟩

end

private theorem ColumnTree.free {column : ColumnDef} (tree : ColumnTree d column) :
    ∀ n ∈ column.nodes, n.Idle source target := by
  refine List.forall_mem_append.mpr ⟨fun n inside => ?_, free_option fun e held => (tree.value e held).free⟩
  obtain ⟨t, rfl⟩ := column.type.type_of_mem inside
  exact free_unasked "TypeSpec" (by decide) rfl

private theorem free_table {columns : List ColumnDef} {query : Option Query}
    (each : ∀ column ∈ columns, ColumnTree d column) (asked : ∀ q ∈ query, QueryTree d q) {pos : Position}
    {temporary ifNotExists : Bool} {name : List Ident} {comment : Option String} :
    ∀ n ∈ CreateTable.parts { pos, temporary, ifNotExists, name, columns, comment, query }, n.Idle source target := by
  have source : ∀ n ∈ (query.map Query.nodes).getD [], n.Idle source target := by
    cases query with
    | none => exact fun n inside => absurd inside List.not_mem_nil
    | some q => exact (asked q rfl).free
  simp only [CreateTable.parts, List.flatMap_nil, exprNodes, List.append_nil, List.forall_mem_append]
  exact ⟨free_nodes fun column inside => (each column inside).free, source⟩

/-- The rules leave the operators of the statement as they are, and a table is not on its way to Doris. -/
structure Statement.Spared (source target : Entry) (s : Statement) : Prop where
  operators : ∀ n ∈ s.nodes, n.kind = "BinaryOp" → target.profile.Leaves n.name
  own : s.kind = "CreateTable" → target.dialect.name = "doris" → source.dialect.name = "doris"

theorem StatementTree.stays (tree : StatementTree d s) (spared : s.Spared source target) :
    ∀ n ∈ s.nodes, n.Stays source target := by
  have free : ∀ n ∈ s.nodes, n.Idle source target := by
    cases tree with
    | query tree => exact tree.free
    | value pos tree => exact List.forall_mem_cons.mpr ⟨free_unasked "ExprStmt" (by decide) rfl, tree.free⟩
    | drop => exact List.forall_mem_singleton.mpr (free_unasked "Drop" (by decide) rfl)
    | view _ _ _ _ _ tree => exact List.forall_mem_cons.mpr ⟨free_unasked "CreateView" (by decide) rfl, tree.free⟩
    | table _ _ _ _ tree =>
      exact List.forall_mem_cons.mpr ⟨fun _ => .table rfl (spared.own rfl), tree.free⟩
    | columns _ _ _ _ _ _ each asked =>
      exact List.forall_mem_cons.mpr ⟨fun _ => .table rfl (spared.own rfl), free_table each asked⟩
  exact fun n inside => free n inside (spared.operators n inside)

theorem StatementTree.convert (left : source ∈ Registry.standard.entries) (right : target ∈ Registry.standard.entries)
    (tree : StatementTree target.dialect s) (spared : s.Spared source target) {text : String}
    (printed : Transpiler.print source.dialect target.dialect s = .ok text) :
    Transpiler.convertWith (Engine.under []) source target s = .ok text := by
  have applied := Entry.apply_stays left right (tree.stays spared)
  have built : Engine.under [] source target = .ok _ := rfl
  rw [Transpiler.convertWith, built]
  change ((Engine.apply _ s).mapError _ >>= _) = _
  rw [applied]
  change (Transpiler.print _ _ s).mapError _ = _
  rw [printed]
  rfl

/-- The translation of a statement is read in the target as the statement. -/
theorem statement_translated {t : Transpiler} (plain : t.Plain) (left : source ∈ Registry.standard.entries)
    (right : target ∈ Registry.standard.entries) {sql : String}
    (parsed : Statement.parse source.dialect sql = .ok s) (tree : StatementTree target.dialect s)
    (spared : s.Spared source target) :
    ∃ text next read, Transpiler.transpile sql source.name target.name t = (.ok text, next) ∧ next.Plain ∧
      Statement.parse target.dialect text = .ok read ∧ read.bare = s.bare := by
  obtain ⟨text, ts, printed, spelled, alone⟩ := tree.standalone (registered_readsQueries right)
  obtain ⟨read, again, same⟩ := alone.reads.parse spelled
  obtain ⟨next, translated, kept⟩ := plain.transpile left right parsed rfl
    (Entry.apply_stays left right (tree.stays spared))
    (printed { dialect := target.dialect, source := some source.dialect.name } rfl rfl)
  exact ⟨text, next, read, translated, kept, again, same⟩

/-! ### Scripts -/

namespace Transpiler

variable {engines : Entry → Entry → Except RuleFault Engine} {statements : List Statement} {index : Nat}

theorem convertAllWith_ok_iff {texts : List String} :
    convertAllWith engines source target index statements = .ok texts ↔
      List.Forall₂ (fun s text => convertWith engines source target s = .ok text) statements texts := by
  induction statements generalizing index texts with
  | nil => simp [convertAllWith, eq_comm]
  | cons s rest ih =>
    rw [convertAllWith, List.forall₂_cons_left_iff]
    simp only [← @ih (index + 1)]
    cases convertWith engines source target s with
    | error fault => simp [Except.mapError, bind, Except.bind]
    | ok text =>
      cases convertAllWith engines source target (index + 1) rest <;>
        simp [Except.mapError, bind, Except.bind, pure, Except.pure, eq_comm]

/-- The first statement that fails ends the script, with its number. -/
theorem convertAllWith_error {failure : Failure}
    (failed : convertAllWith engines source target index statements = .error failure) :
    ∃ before s after fault, statements = before ++ s :: after ∧
      (∀ earlier ∈ before, ∃ text, convertWith engines source target earlier = .ok text) ∧
      convertWith engines source target s = .error fault ∧
      failure = { fault with error := .statement (index + before.length) fault.error } := by
  induction statements generalizing index with
  | nil => cases failed
  | cons s rest ih =>
    rw [convertAllWith] at failed
    cases came : convertWith engines source target s with
    | error fault =>
      rw [came] at failed
      exact ⟨[], s, rest, fault, rfl, by simp, came, (Except.error.inj failed).symm⟩
    | ok text =>
      rw [came] at failed
      cases others : convertAllWith engines source target (index + 1) rest with
      | ok texts =>
        rw [others] at failed
        cases failed
      | error later =>
        rw [others] at failed
        obtain rfl : later = failure := Except.error.inj failed
        obtain ⟨before, other, after, fault, rfl, earlier, came', rfl⟩ := ih others
        refine ⟨s :: before, other, after, fault, rfl, List.forall_mem_cons.mpr ⟨⟨text, came⟩, earlier⟩, came', ?_⟩
        rw [List.length_cons, Nat.add_right_comm, Nat.add_assoc]

theorem transpileAllWith_registered (left : source ∈ Registry.standard.entries)
    (right : target ∈ Registry.standard.entries) (sql : String) :
    transpileAllWith engines sql source.name target.name =
      (Statement.parseAll source.dialect sql).mapError ({ error := · }) >>= convertAllWith engines source target 1 := by
  have both : pairOf source.name target.name = .ok (source, target) :=
    pairOf_ok_iff.mpr ⟨lookup_ok_iff.mp (lookup_name left), lookup_ok_iff.mp (lookup_name right)⟩
  rw [transpileAllWith, both]
  rfl

/-- A script is translated statement by statement, or ends in the fault of its text or of the first statement
that fails. -/
theorem transpileAll_outcome {t : Transpiler} (current : t.Current) (left : source ∈ Registry.standard.entries)
    (right : target ∈ Registry.standard.entries) (sql : String) :
    ∃ outcome next, transpileAll sql source.name target.name t = (outcome, next) ∧ next.Current ∧
      next.rules = t.rules ∧ match outcome with
        | .ok texts => ∃ statements, Statement.parseAll source.dialect sql = .ok statements ∧
          List.Forall₂ (fun s text => convertWith (Engine.under t.rules) source target s = .ok text) statements texts
        | .error failure =>
          (∃ fault, Statement.parseAll source.dialect sql = .error fault ∧ failure = { error := fault }) ∨
          ∃ before s after fault, Statement.parseAll source.dialect sql = .ok (before ++ s :: after) ∧
            (∀ earlier ∈ before, ∃ text, convertWith (Engine.under t.rules) source target earlier = .ok text) ∧
            convertWith (Engine.under t.rules) source target s = .error fault ∧
            failure = { fault with error := .statement (1 + before.length) fault.error } := by
  obtain ⟨next, came, held⟩ := Work.Yields.transpileAll sql source.name target.name t current rfl
  refine ⟨_, next, came, held.1, held.2, ?_⟩
  rw [transpileAllWith_registered left right]
  cases parsed : Statement.parseAll source.dialect sql with
  | error fault => exact .inl ⟨fault, rfl, rfl⟩
  | ok statements =>
    simp only [Except.mapError, bind, Except.bind]
    cases went : convertAllWith (Engine.under t.rules) source target 1 statements with
    | ok texts => exact ⟨statements, rfl, convertAllWith_ok_iff.mp went⟩
    | error failure =>
      obtain ⟨before, s, after, fault, rfl, rest⟩ := convertAllWith_error went
      exact .inr ⟨before, s, after, fault, rfl, rest⟩

theorem Plain.transpileAll {t : Transpiler} (plain : t.Plain) (left : source ∈ Registry.standard.entries)
    (right : target ∈ Registry.standard.entries) {sql : String} {texts : List String}
    (parsed : Statement.parseAll source.dialect sql = .ok statements) (converted : List.Forall₂ (fun s text =>
      convertWith (Engine.under []) source target s = .ok text) statements texts) :
    ∃ next, Transpiler.transpileAll sql source.name target.name t = (.ok texts, next) ∧ next.Plain := by
  obtain ⟨next, came, current, unchanged⟩ :=
    Work.Yields.transpileAll sql source.name target.name t plain.current plain.rules
  rw [transpileAllWith_registered left right, parsed] at came
  refine ⟨next, came.trans ?_, current.plain unchanged⟩
  exact congrArg (·, next) (convertAllWith_ok_iff.mpr converted)

end Transpiler

/-- The translation of a script is read in the target as the statements of the script. -/
theorem script_translated {t : Transpiler} (plain : t.Plain) (left : source ∈ Registry.standard.entries)
    (right : target ∈ Registry.standard.entries) {sql : String} {statements : List Statement}
    (parsed : Statement.parseAll source.dialect sql = .ok statements)
    (trees : ∀ s ∈ statements, StatementTree target.dialect s ∧ s.Spared source target) :
    ∃ texts next found, Transpiler.transpileAll sql source.name target.name t = (.ok texts, next) ∧ next.Plain ∧
      Statement.parseAll target.dialect ("\n;\n".intercalate texts) = .ok found ∧
      found.map Statement.bare = statements.map Statement.bare := by
  have ready := registered_readsQueries right
  obtain ⟨texts, tss, read, printed, spelled, alone⟩ := exists_script ready fun s inside => (trees s inside).1
  obtain ⟨found, again, each⟩ := parseAll_script ready.regular.lexicon spelled alone
  have own := printed { dialect := target.dialect, source := some source.dialect.name } rfl rfl
  have converted : List.Forall₂ (fun s text =>
      Transpiler.convertWith (Engine.under []) source target s = .ok text) statements texts := by
    refine ((List.forall₂_and_left statements texts).mpr ⟨trees, own⟩).imp fun s text both => ?_
    exact both.1.1.convert left right both.1.2 both.2
  obtain ⟨next, came, kept⟩ := plain.transpileAll left right parsed converted
  exact ⟨texts, next, found, came, kept, again, ReadsAsOwn.bare_eq each read⟩

end SqlDialects
