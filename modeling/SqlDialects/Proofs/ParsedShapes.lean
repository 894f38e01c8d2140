import SqlDialects.Proofs.ErrorPlaces
import SqlDialects.Proofs.SyntaxShapes

/-! Whatever is read as a statement of a registered dialect is well shaped, down to the nodes of its queries, of its
types and of the values of its table properties. -/

namespace SqlDialects

namespace Parser

-- A parser of many parts takes an instance for each of them.
set_option synthInstance.maxSize 2048

variable [Numerals] {s : Ground} {d : Dialect} {g : Grammar}

/-! ### Queries -/

/-- What follows the terms of a query is well shaped. -/
structure QueryTail.WellShaped (tail : QueryTail) : Prop where
  orderBy : OrderShaped tail.orderBy
  limit : OptionShaped tail.limit
  offset : OptionShaped tail.offset

theorem optionShaped_orElse {e other : Option Expr} (held : OptionShaped e) (kept : OptionShaped other) :
    OptionShaped (e.orElse fun _ => other) := by
  cases e with
  | none => exact kept
  | some e => exact held

theorem QueryTail.WellShaped.addTo {tail : QueryTail} (held : tail.WellShaped) {q : Query} (shaped : q.WellShaped) :
    (tail.addTo q).WellShaped := by
  cases q with
  | select s =>
    have inner := Query.wellShaped_select.mp shaped
    refine Query.wellShaped_select.mpr { inner with
      orderBy := ?_
      limit := optionShaped_orElse held.limit inner.limit
      offset := optionShaped_orElse held.offset inner.offset }
    dsimp only
    split
    · exact inner.orderBy
    · exact held.orderBy
  | setOp pos op all left right orderBy limit =>
    obtain ⟨first, second, _⟩ := Query.wellShaped_setOp.mp shaped
    exact Query.wellShaped_setOp.mpr ⟨first, second, held.orderBy, held.limit⟩

/-- Entries go down to the leftmost select. -/
theorem wellShaped_addCtes {ctes : List Cte} (held : ∀ entry ∈ ctes, entry.body.WellShaped) (q : Query)
    (shaped : q.WellShaped) : (addCtes ctes q).WellShaped := by
  match q with
  | .select s =>
    have inner := Query.wellShaped_select.mp shaped
    exact Query.wellShaped_select.mpr { inner with ctes := List.forall_mem_append.mpr ⟨held, inner.ctes⟩ }
  | .setOp pos op all left right orderBy limit =>
    obtain ⟨first, rest⟩ := Query.wellShaped_setOp.mp shaped
    exact Query.wellShaped_setOp.mpr ⟨wellShaped_addCtes held left first, rest⟩

section Queries

variable (shaping : d.Shaping) (inner : g.WellShaped s)

include shaping inner

theorem yields_tableStep [s.Counts] : Locates s TableExpr.WellShaped (tableStep d g) := by
  refine .skip fun c => .ite (.skip fun _ => .ite ?_ ?_) (.skip fun name => .branch ?_ (.skip fun before => ?_))
  · refine inner.query.bind fun query held => .skip fun _ => .skip fun label => .pure ?_
    exact TableExpr.wellShaped_derived.mpr held
  · exact inner.tables.bind fun tables held => .skip fun _ => .pure held
  · refine (yields_functionCall shaping inner ..).bind fun e held => ?_
    split
    · exact .skip fun label => .pure (TableExpr.wellShaped_function.mpr (Expr.wellShaped_call.mp held))
    · exact .failAt (Ground.Counts.place _) _ _
  · exact .skip fun label => .either fun final => .pure TableExpr.wellShaped_ref

theorem yields_joinStep [s.Counts] {left : TableExpr} (held : left.WellShaped) :
    Locates s (fun next => ∀ t ∈ next, t.WellShaped) (joinStep d g left) := by
  have joined {pos : Position} {kind : String} {right : TableExpr} {condition : Option Expr} {shared : List Ident}
      (shaped : right.WellShaped) (tested : OptionShaped condition) :
      Locates s (fun next => ∀ t ∈ next, t.WellShaped)
      (pure (some (TableExpr.join pos kind left right condition shared))) :=
    .found (TableExpr.wellShaped_join.mpr ⟨held, shaped, tested⟩)
  refine .skip fun pos => .branch ?_ (.skip fun kind => ?_)
  · exact (yields_tableStep shaping inner).bind fun right shaped => joined shaped optionShaped_none
  split
  · exact .none
  · refine (yields_tableStep shaping inner).bind fun right shaped => .branch ?_ (.branch ?_ ?_)
    · exact (yields_value inner).bind fun condition tested => joined shaped (optionShaped_some tested)
    · exact .skip fun shared => joined shaped optionShaped_none
    · exact joined shaped optionShaped_none

theorem yields_tablesStep [s.Counts] : Locates s TableExpr.WellShaped (tablesStep d g) :=
  (yields_tableStep shaping inner).bind fun _ held => .loop held fun _ kept => yields_joinStep shaping inner kept

omit shaping in
theorem yields_lateralView [s.Counts] (pos : Position) :
    Locates s (fun view => view.function.WellShaped) (lateralView d g pos) := by
  refine .skip fun outer => (yields_value inner).bind fun e held => ?_
  split
  · exact .skip fun table => .skip fun _ => .skip fun columns => .pure (Expr.wellShaped_call.mp held)
  · exact .failAt (Ground.Counts.place _) _ _

omit shaping in
theorem yields_arrayJoinItem (outer : Bool) : Locates s (fun view => view.function.WellShaped)
    (arrayJoinItem d g outer) := by
  refine .skip fun pos => (yields_value inner).bind fun e held => .skip fun label => .pure ?_
  exact .plain (upper_callNames _ (by decide)) (List.forall_mem_singleton.mpr held)

omit shaping in
theorem yields_lateralViews? [s.Counts] :
    Locates s (fun found => ∀ views ∈ found, ∀ view ∈ views, view.function.WellShaped) (lateralViews? d g) := by
  refine .skip fun pos => .branch ?_ ?_
  · exact (yields_lateralView inner _).bind fun view held => .found (List.forall_mem_singleton.mpr held)
  refine .skip fun _ => .skip fun _ => .skip fun _ => .skip fun _ => .ite ?_ .none
  refine .skip fun outer => .skip fun _ => .skip fun _ => ?_
  exact (locates_commaList (yields_arrayJoinItem inner outer)).bind fun views held => .found held.2

omit shaping in
theorem yields_selectItem : Locates s (fun item => item.expr.WellShaped) (selectItem d g) := by
  refine .skip fun pos => .branch (.pure Expr.wellShaped_star) ?_
  exact (yields_value inner).bind fun e held => .skip fun label => .pure held

theorem yields_selectStep [s.Counts] : Locates s Select.WellShaped (selectStep d g) := by
  refine .skip fun pos => .skip fun _ => .skip fun distinct => .extra (.option inner.operand fun limit counted => ?_)
  refine (locates_commaList (yields_selectItem inner)).bind fun items selected => ?_
  refine .option (yields_tablesStep shaping inner) fun source joined => ?_
  refine .rounds (fun views : List LateralView => ∀ view ∈ views, view.function.WellShaped) (List.forall_mem_nil _)
    (fun views kept => (yields_lateralViews? inner).bind fun found more => ?_) fun views viewed => ?_
  · split
    · exact .found (List.forall_mem_append.mpr ⟨kept, more _ rfl⟩)
    · exact .none
  refine .option (yields_value inner) fun condition tested => .skip fun grouped => ?_
  extract_lets -underBinder groups
  have read {groupBy : List Expr} (keys : EachShaped groupBy) : Locates s Select.WellShaped (groups groupBy) := by
    refine .option (yields_value inner) fun having kept => .pure ?_
    exact
      { ctes := List.forall_mem_nil _
        items := selected.2
        source := joined
        lateralViews := viewed
        condition := tested
        groupBy := keys
        having := kept
        orderBy := List.forall_mem_nil _
        limit := counted
        offset := optionShaped_none }
  refine .ite (.skip fun _ => (yields_each inner).bind fun groupBy keys => read keys) (.known (read ?_))
  exact List.forall_mem_nil _

theorem yields_queryTerm [s.Counts] : Locates s Query.WellShaped (queryTerm d g) := by
  refine .branch (inner.query.bind fun query held => .skip fun _ => .pure held) ?_
  exact (yields_selectStep shaping inner).bind fun select held => .pure (Query.wellShaped_select.mpr held)

omit shaping in
theorem yields_limitClause {tail : QueryTail} (held : tail.WellShaped) :
    Locates s QueryTail.WellShaped (limitClause g tail) := by
  refine .otherwise (.pure held) ((yields_value inner).bind fun first counted => .branch ?_ (.pure ?_))
  · refine (yields_value inner).bind fun limit bounded => .pure ?_
    exact ⟨held.orderBy, optionShaped_some bounded, optionShaped_some counted⟩
  · exact ⟨held.orderBy, optionShaped_some counted, held.offset⟩

omit shaping in
theorem yields_offsetClause {tail : QueryTail} (held : tail.WellShaped) :
    Locates s QueryTail.WellShaped (offsetClause g tail) := by
  refine .otherwise (.pure held) ((yields_value inner).bind fun offset counted => .skip fun _ => .pure ?_)
  exact ⟨held.orderBy, held.limit, optionShaped_some counted⟩

omit shaping in
theorem yields_fetchClause {tail : QueryTail} (held : tail.WellShaped) :
    Locates s QueryTail.WellShaped (fetchClause g tail) := by
  refine .otherwise (.pure held) (.skip fun _ => (yields_value inner).bind fun limit counted => ?_)
  exact .skip fun _ => .skip fun _ => .pure ⟨held.orderBy, optionShaped_some counted, held.offset⟩

omit shaping in
theorem yields_queryTail : Locates s QueryTail.WellShaped (queryTail g) := by
  refine .skip fun _ => .choice (yields_orderClause inner) yields_nil fun orderBy keys => ?_
  have ordered : QueryTail.WellShaped { orderBy } := ⟨keys, optionShaped_none, optionShaped_none⟩
  refine (yields_limitClause inner ordered).bind fun tail held => ?_
  exact (yields_offsetClause inner held).bind fun tail held => yields_fetchClause inner held

omit shaping in
theorem yields_withEntry : Locates s (fun entry => entry.body.WellShaped) (withEntry d g) := by
  refine .skip fun c => .ite (.skip fun name => .skip fun _ => .either fun columns => ?_) ?_
  · exact .skip fun _ => .skip fun _ => inner.query.bind fun query held => .skip fun _ => .pure held
  · exact (yields_value inner).bind fun value held => .skip fun _ => .skip fun name => .pure held

omit shaping in
theorem yields_withClause : Locates s (fun ctes => ∀ entry ∈ ctes, entry.body.WellShaped) (withClause d g) := by
  refine .otherwise yields_nil (.skip fun _ => (locates_commaList (yields_withEntry inner)).weaken ?_)
  exact fun _ held => held.2

theorem yields_setOpStep [s.Counts] {left : Query} (held : left.WellShaped) :
    Locates s (fun next => ∀ q ∈ next, q.WellShaped) (setOpStep d g left) := by
  refine .skip fun t => .otherwise .none (.skip fun all => .skip fun _ => ?_)
  refine (yields_queryTerm shaping inner).bind fun right shaped => .found ?_
  exact Query.wellShaped_setOp.mpr ⟨held, shaped, List.forall_mem_nil _, optionShaped_none⟩

theorem yields_queryStep [s.Counts] : Locates s Query.WellShaped (queryStep d g) := by
  refine (yields_withClause inner).bind fun ctes declared => (yields_queryTerm shaping inner).bind fun first held => ?_
  refine .rounds Query.WellShaped held (fun left kept => yields_setOpStep shaping inner kept) fun query kept => ?_
  exact (yields_queryTail inner).bind fun tail ends => .pure (wellShaped_addCtes declared _ (ends.addTo kept))

end Queries

/-- However deep the parts are nested, they are read well shaped. -/
theorem wellShaped_grammar [s.Counts] (shaping : d.Shaping) (depth : Nat) : (grammar d depth).WellShaped s := by
  induction depth with
  | zero => exact ⟨fun _ => .stall, .stall, .stall, .stall⟩
  | succ depth ih =>
    exact
      { expr := yields_exprStep shaping ih
        operand := yields_operandStep shaping ih
        query := yields_queryStep shaping ih
        tables := yields_tablesStep shaping ih }

/-! ### Columns -/

theorem yields_indexElement (pos : Position) (name : String) :
    Locates s (fun c => OptionShaped c.condition) (indexElement pos name) :=
  .skip fun _ => .skip fun _ => .skip fun _ => .either fun _ => .skip fun _ => .pure optionShaped_none

theorem yields_foreignKey (pos : Position) (name : String) :
    Locates s (fun c => OptionShaped c.condition) (foreignKey d pos name) := by
  refine .skip fun _ => .skip fun _ => .skip fun columns => .skip fun _ => .skip fun references => .skip fun _ => ?_
  exact .either fun refColumns => .skip fun _ => .pure optionShaped_none

theorem yields_uniqueKey (pos : Position) (name : String) :
    Locates s (fun c => OptionShaped c.condition) (uniqueKey pos name) := by
  refine .skip fun _ => .skip fun _ => .skip fun _ => ?_
  extract_lets keys
  have read (name : String) : Locates s (fun c => OptionShaped c.condition) (keys name) :=
    .skip fun columns => .skip fun _ => .pure optionShaped_none
  exact .ite (.known (read _)) (.skip fun own => .known (read _))

section Tables

variable (shaping : d.Shaping) (inner : g.WellShaped s)

include inner

theorem yields_constraint? (pos : Position) (name : String) :
    Locates s (fun found => ∀ c ∈ found, OptionShaped c.condition) (constraint? d g pos name) := by
  refine .skip fun c => .ite (.skip fun _ => .skip fun _ => .skip fun columns => .skip fun _ => ?_)
    (.ite ?_ (.ite ?_ ?_))
  · exact .found optionShaped_none
  · exact (yields_uniqueKey ..).bind fun _ held => .found held
  · exact (yields_foreignKey ..).bind fun _ held => .found held
  refine .ite (.skip fun _ => .skip fun _ => ?_) (.ite ?_ .none)
  · refine (yields_value inner).bind fun condition held => .skip fun _ => .found ?_
    exact optionShaped_some held
  · exact (yields_indexElement ..).bind fun _ held => .found held

theorem yields_columnAttribute [g.On s] {column : ColumnDef} (held : column.WellShaped) :
    Locates s (fun next => ∀ c ∈ next, c.WellShaped) (columnAttribute d g column) := by
  -- Only the value by default is a part of the column that an attribute sets.
  have same {changed : ColumnDef} (type : changed.type = column.type)
    (value : changed.defaultValue = column.defaultValue) :
      Locates s (fun next => ∀ c ∈ next, c.WellShaped) (pure (some changed)) :=
    .found ⟨type ▸ held.type, value ▸ held.defaultValue⟩
  refine .branch (.skip fun disabled => .skip fun _ => same rfl rfl)
    (.branch (same rfl rfl) (.branch ?_ (.branch ?_ ?_)))
  · exact (inner.expr _).bind fun value shaped => .found ⟨held.type, optionShaped_some shaped⟩
  · exact .skip fun _ => same rfl rfl
  refine .branch (.skip fun _ => same rfl rfl) (.branch (.skip fun _ => same rfl rfl) (.branch ?_ ?_))
  · exact .skip fun comment => same rfl rfl
  · exact .branch (same rfl rfl) .none

include shaping in
theorem yields_columnDef [g.On s] : Locates s ColumnDef.WellShaped (columnDef d g) := by
  refine .skip fun pos => .skip fun name => (yields_type shaping).bind fun type typed => ?_
  exact .loop ⟨typed, optionShaped_none⟩ fun column held => yields_columnAttribute inner held

include shaping in
theorem yields_tableElement [g.On s] {table : CreateTable} (held : table.WellShaped) :
    Locates s CreateTable.WellShaped (tableElement d g table) := by
  refine .skip fun pos => .skip fun _ => .either fun name => (yields_constraint? inner ..).bind fun found tested => ?_
  split
  · next constraint =>
    exact .pure { held with constraints := forall_mem_concat held.constraints (tested constraint rfl) }
  · refine (yields_columnDef shaping inner).bind fun column shaped => .pure { held with columns := ?_ }
    exact forall_mem_concat held.columns shaped

/-! ### Clauses -/

omit inner in
theorem wellShaped_addProperty {table : CreateTable} (held : table.WellShaped) {property : Property}
    (shaped : OptionShaped property.value) : (addProperty table property).WellShaped :=
  { held with properties := forall_mem_concat held.properties shaped }

omit inner in
theorem yields_keepClause {table : CreateTable} (held : table.WellShaped) (group : PropertyGroup) (key : String)
    (start : Nat) {value : Option Expr} (shaped : OptionShaped value) :
    Locates s CreateTable.WellShaped (keepClause table group key start value) :=
  .skip fun _ => .pure (wellShaped_addProperty held shaped)

theorem yields_keyExprs : Locates s EachShaped (keyExprs g) := by
  unfold keyExprs
  extract_lets more
  have read {e : Expr} (held : e.WellShaped) : Locates s EachShaped (more e) := by
    refine .branch ((yields_each inner).bind fun rest kept => .pure ?_) (.pure (List.forall_mem_singleton.mpr held))
    exact List.forall_mem_cons.mpr ⟨held, kept⟩
  refine (yields_value inner).bind fun e held => ?_
  split
  · exact .ite (.pure (Expr.wellShaped_struct.mp held).2) (read held)
  · exact .ite (.pure (Expr.wellShaped_call.mp held).args) (read held)
  · exact read held

theorem yields_partitionBy [s.Counts] : Locates s Partitioning.WellShaped (partitionBy g) := by
  refine .skip fun auto => .skip fun _ => .skip fun _ => .skip fun c => .ite ?_ (.ite (.skip fun _ => ?_) ?_)
  · refine .skip fun _ => .skip fun c => .skip fun _ =>
      .ite (.failAt (Ground.Counts.place _) _ _) (.pure ⟨?_, List.forall_mem_nil _⟩)
    exact List.forall_mem_singleton.mpr (Expr.wellShaped_column.mpr (List.cons_ne_nil _ _))
  · refine (yields_group inner).bind fun exprs held => .skip fun _ => .either fun definitions => .pure ?_
    exact ⟨held, List.forall_mem_nil _⟩
  · exact (yields_keyExprs inner).bind fun exprs held => .pure ⟨held, List.forall_mem_nil _⟩

omit [Numerals] inner in
theorem locates_commaFold {α : Type} {good : α → Prop} {item : α → Parser α} {a : α} (initial : good a)
    (kept : ∀ a, good a → Locates s good (item a)) : Locates s good (commaFold item a) := by
  refine (kept a initial).bind fun first held => .loop held fun a held => .branch ?_ .none
  exact (kept a held).bind fun _ held => .found held

include shaping in
theorem yields_partitionedBy [g.On s] : Locates s Partitioning.WellShaped (partitionedBy d g) := by
  have initial : Partitioning.WellShaped {} := ⟨List.forall_mem_nil _, List.forall_mem_nil _⟩
  refine .skip fun _ => (locates_commaFold initial fun p held => .skip fun c => .ite ?_ ?_).bind fun p held => ?_
  · refine (yields_columnDef shaping inner).bind fun column shaped => .pure ⟨held.exprs, ?_⟩
    exact forall_mem_concat held.columns shaped
  · refine (yields_value inner).bind fun e shaped => .pure ⟨?_, held.columns⟩
    exact forall_mem_concat held.exprs shaped
  · exact .skip fun _ => .pure held

theorem yields_propertyItem {table : CreateTable} (held : table.WellShaped) (group : PropertyGroup) (clause : String) :
    Locates s CreateTable.WellShaped (propertyItem d g group clause table) := by
  refine .skip fun t => ?_
  extract_lets valued
  have read (key : String) : Locates s CreateTable.WellShaped (valued key) := by
    refine .skip fun _ => (yields_value inner).bind fun value shaped => .skip fun raw => .pure ?_
    exact wellShaped_addProperty held (optionShaped_some shaped)
  exact .ite (.skip fun _ => .known (read _)) (.skip fun key => read key)

theorem yields_propertyList {table : CreateTable} (held : table.WellShaped) :
    Locates s CreateTable.WellShaped (propertyList d g table) := by
  refine .skip fun t => .skip fun _ => .ite ?_ (.skip fun _ => ?_)
  · exact locates_commaFold held fun table held => yields_propertyItem inner held ..
  refine .rounds (fun state : CreateTable × Bool => state.1.WellShaped) held (fun state kept => ?_) fun state kept => ?_
  · refine .skip fun _ => .ite .none ((yields_propertyItem inner kept ..).bind fun table held =>
      .skip fun _ => .found held)
  · exact .skip fun _ => .pure kept

omit inner in
theorem yields_storageClause {table : CreateTable} (held : table.WellShaped) (start : Nat) :
    Locates s CreateTable.WellShaped (storageClause table start) := by
  have kept (key : String) : Locates s CreateTable.WellShaped (keepClause table .storage key start) :=
    yields_keepClause held _ _ _ optionShaped_none
  refine .branch (.skip fun _ => .branch (.skip fun _ => .skip fun _ => .extra (kept _)) (kept _)) ?_
  exact .branch (.skip fun _ => kept _) (.skip fun t => .skip fun _ => .skip fun _ => kept _)

omit inner in
theorem yields_optionClause [s.Counts] {table : CreateTable} (held : table.WellShaped) (start : Nat) :
    Locates s CreateTable.WellShaped (optionClause table start) := by
  refine .skip fun t => .guard fun _ => .skip fun _ => .skip fun leading => .skip fun last => .guard fun _ => ?_
  refine .skip fun _ => .skip fun _ => .current fun t at_hand => ?_
  extract_lets value?
  have shaped : OptionShaped value? := by
    unfold value?
    split
    · next number => exact optionShaped_some (Expr.wellShaped_num.mpr (Ground.Counts.number _ (at_hand.number number)))
    · split
      · exact optionShaped_some Expr.wellShaped_str
      · exact optionShaped_none
  exact .extra (yields_keepClause held _ _ _ shaped)

include shaping in
theorem yields_layoutClause? [s.Counts] [g.On s] {table : CreateTable} (held : table.WellShaped) (start : Nat) :
    Locates s (fun next => ∀ t ∈ next, t.WellShaped) (layoutClause? d g table start) := by
  have kept {changed : CreateTable} (held : changed.WellShaped) (key : String) :
      Locates s (fun next => ∀ t ∈ next, t.WellShaped)
      (keepClause changed .other key start >>= fun t => pure (some t)) :=
    (yields_keepClause held _ _ _ optionShaped_none).bind fun _ held => .found held
  refine .skip fun c => .ite ?_ (.branch ?_ (.branch ?_ (.branch ?_ (.branch ?_ ?_))))
  · refine Locates.bind (.skip fun _ => .skip fun _ => .skip fun engine => .skip fun _ => ?_) fun _ held => .found held
    exact yields_keepClause held _ _ _ (optionShaped_some Expr.wellShaped_str)
  · exact (yields_keyExprs inner).bind fun sortKey keys => .found { held with sortKey := keys }
  · exact .skip fun _ => .found held
  · exact (yields_keyExprs inner).bind fun _ _ => kept held _
  · exact .skip fun _ => kept held _
  refine .ite ?_ (.ite ?_ (.ite ?_ (.ite ?_ (.branch ?_ (.ite ?_ .none)))))
  · refine Locates.bind (.skip fun _ => .skip fun _ => .skip fun _ => .skip fun t => .extra (.skip fun columns => ?_))
      fun _ held => .found held
    have indexed : CreateTable.WellShaped { table with primaryIndex := columns } := { held with }
    exact yields_keepClause indexed _ _ _ optionShaped_none
  · exact .skip fun _ => .skip fun _ => .skip fun _ => kept held _
  · exact .skip fun _ => .skip fun _ => .skip fun columns => .found { held with }
  · refine (yields_partitionBy inner).bind fun p shaped => .found { held with partitioning := ?_ }
    simpa using shaped
  · refine (yields_partitionedBy shaping inner).bind fun p shaped => .found { held with partitioning := ?_ }
    simpa using shaped
  · exact .skip fun p => .found { held with }

include shaping in
theorem yields_tableClause [s.Counts] [g.On s] {table : CreateTable} (held : table.WellShaped) :
    Locates s CreateTable.WellShaped (tableClause d g table) := by
  refine .skip fun pos => (yields_layoutClause? shaping inner held _).bind fun found shaped => ?_
  split
  · exact .pure (shaped _ rfl)
  refine .skip fun c => .branch (.skip fun _ => .skip fun comment => .pure { held with })
    (.ite ?_ (.branch ?_ (.ite ?_ ?_)))
  · exact yields_propertyList inner held
  · exact .skip fun _ => yields_keepClause held _ _ _ optionShaped_none
  · exact yields_storageClause held _
  · exact yields_optionClause held _

/-! ### Definitions -/

omit inner in
theorem yields_leadingOptions {table : CreateTable} (held : table.WellShaped) :
    Locates s CreateTable.WellShaped (leadingOptions table) := by
  refine .loop held fun table held => .otherwise .none (.skip fun pos => .skip fun _ => .skip fun raw => .found ?_)
  exact wellShaped_addProperty held optionShaped_none

omit inner in
theorem yields_copyOfTable {table : CreateTable} (held : table.WellShaped) :
    Locates s CreateTable.WellShaped (copyOfTable d table) := by
  refine .skip fun pos => .skip fun source =>
    .branch (.pure { held with query := ?_ }) (.skip fun _ => .pure { held with })
  have whole : Select.WellShaped
      { pos, items := [{ expr := .star pos [] }], source := some (.ref pos source none false) } :=
    { ctes := List.forall_mem_nil _
      items := List.forall_mem_singleton.mpr Expr.wellShaped_star
      source := fun _ same => Option.some.inj same ▸ TableExpr.wellShaped_ref
      lateralViews := List.forall_mem_nil _
      condition := optionShaped_none
      groupBy := List.forall_mem_nil _
      having := optionShaped_none
      orderBy := List.forall_mem_nil _
      limit := optionShaped_none
      offset := optionShaped_none }
  exact fun _ same => Option.some.inj same ▸ Query.wellShaped_select.mpr whole

include shaping in
theorem yields_tableDefinition [s.Counts] [g.On s] {flags : CreateTable} (held : flags.WellShaped) :
    Locates s CreateTable.WellShaped (tableDefinition d g flags) := by
  refine .skip fun ifNotExists => .skip fun name => .skip fun clustered => .extra ?_
  have started : CreateTable.WellShaped { flags with ifNotExists, name } := { held with }
  refine (yields_leadingOptions started).bind fun table held => .branch ?_ (.skip fun c => ?_)
  · exact .skip fun like => .pure { held with }
  refine .ite (.skip fun _ => yields_copyOfTable held) ?_
  extract_lets clauses
  have read {table : CreateTable} (held : table.WellShaped) : Locates s CreateTable.WellShaped (clauses table) := by
    refine .rounds (fun state : CreateTable × Bool => state.1.WellShaped) held (fun state kept => ?_)
      fun _ kept => .pure kept
    refine .skip fun t => .ite .none (.branch ?_ (.ite ?_ ?_))
    · refine inner.query.bind fun query shaped => .skip fun _ => .found ?_
      exact { kept with query := by simpa using shaped }
    · exact inner.query.bind fun query shaped => .found { kept with query := by simpa using shaped }
    · exact (yields_tableClause shaping inner kept).bind fun table held => .found held
  refine .ite (.skip fun _ => ?_) (.known (read held))
  refine (locates_commaFold held fun table held => yields_tableElement shaping inner held).bind fun table held => ?_
  exact .skip fun _ => .known (read held)

end Tables

/-! ### Statements -/

section Statements

variable (shaping : d.Shaping) (inner : g.WellShaped s)

theorem yields_dropStatement : Locates s Statement.WellShaped (dropStatement d) := by
  refine .skip fun pos => .skip fun _ => .skip fun isTable => ?_
  extract_lets -underBinder named
  have read (object : String) : Locates s Statement.WellShaped (named object) :=
    .skip fun ifExists => .skip fun name => .pure Statement.wellShaped_drop
  exact .ite (.known (read _)) (.branch (.known (read _)) (.skip fun object => read object))

include inner

theorem yields_insertStatement : Locates s Statement.WellShaped (insertStatement d g) := by
  refine .skip fun pos => .skip fun _ => .skip fun overwrite => ?_
  extract_lets -underBinder target
  have read : Locates s Statement.WellShaped (target ()) := by
    refine .skip fun _ => .skip fun table => .skip fun _ => .extra (.skip fun c => .either fun columns => .branch ?_ ?_)
    · refine (locates_commaList (yields_group inner)).bind fun rows held => .pure ?_
      exact Statement.wellShaped_of_insert held.2 fun _ none => nomatch none
    · refine inner.query.bind fun query held => .pure ?_
      exact Statement.wellShaped_of_insert (List.forall_mem_nil _) (by simpa using held)
  exact .ite (.skip fun found => .guard fun _ => read) read

theorem yields_viewStatement (pos : Position) (orReplace temporary : Bool) :
    Locates s Statement.WellShaped (viewStatement d g pos orReplace temporary) := by
  refine .skip fun ifNotExists => .skip fun name => .skip fun _ => .either fun columns => .skip fun _ => ?_
  exact inner.query.bind fun query held => .pure (Statement.wellShaped_of_view held)

include shaping in
theorem yields_createStatement [s.Counts] [g.On s] : Locates s Statement.WellShaped (createStatement d g) := by
  refine .skip fun pos => .skip fun _ => .skip fun orReplace => .skip fun _ => .skip fun temporary => ?_
  refine .skip fun external => .skip fun t => .skip fun _ => .either fun rowSemantics =>
    .branch (yields_viewStatement inner ..) (.branch ?_ ?_)
  · have flags : CreateTable.WellShaped { pos, temporary, external, rowSemantics, name := [] } :=
      ⟨List.forall_mem_nil _, List.forall_mem_nil _, List.forall_mem_nil _, fun _ none => (nomatch none),
        fun _ none => (nomatch none), List.forall_mem_nil _⟩
    exact (yields_tableDefinition shaping inner flags).bind fun table held => .pure (Statement.wellShaped_of_table held)
  · exact .expected _

theorem yields_expressionStatement [s.Counts] : Locates s Statement.WellShaped (expressionStatement g) := by
  refine .skip fun first => .guard fun _ => (locates_expectingStatement (yields_value inner)).bind fun e held =>
    .skip fun t => .ite ?_ ?_
  · exact .pure (Statement.wellShaped_of_expression held)
  · split
    · exact .failAt (Ground.Counts.place _) _ _
    · exact .expected _

include shaping

theorem yields_plainStatement [s.Counts] [g.On s] : Locates s Statement.WellShaped (plainStatement d g) := by
  refine .skip fun c => .ite ?_ (.ite (yields_insertStatement inner) (.ite (yields_createStatement shaping inner) ?_))
  · exact inner.query.bind fun query held => .pure (Statement.wellShaped_of_query held)
  · exact yields_expressionStatement inner

theorem yields_statement [s.Counts] [g.On s] : Locates s Statement.WellShaped (statement d g) := by
  refine .branch yields_dropStatement (.branch (.skip fun pos => .skip fun _ => .skip fun mode => ?_) ?_)
  · refine (yields_plainStatement shaping inner).bind fun s held => .pure (Statement.wellShaped_of_explained held)
  · exact yields_plainStatement shaping inner

theorem yields_oneStatement [s.Counts] [g.On s] : Locates s Statement.WellShaped (oneStatement d g) :=
  (yields_statement shaping inner).bind fun _ held => .skip fun _ => .skip fun _ => .guard fun _ => .pure held

end Statements

omit [Numerals] in
/-- What holds of all that a parser reads over tokens of a text holds of what is read of the whole text. -/
theorem run_reads {α : Type} {good : α → Prop} {p : Grammar → Parser α} {sql : String} {a : α}
    (ground : s.Reads d.toLexicon sql) (regular : d.toLexicon.Regular) (read : ∀ c, Locates s good (p (grammarFor d c)))
    (done : run d p sql = .ok a) : good a := by
  obtain ⟨c, loaded, _⟩ := ok_of_bind done
  have on := Cursor.on_ofText ground regular loaded
  rw [run_eq loaded] at done
  cases outcome : p (grammarFor d c) c with
  | error e => simp [outcome, Except.map] at done
  | ok r =>
    rw [outcome] at done
    exact Except.ok.inj done ▸ ((read c).reads on outcome).2

end Parser

/-! ### Registered dialects -/

/-- Operators and words are read as calls with names in upper case. -/
private theorem upper_entries : ∀ entry ∈ Registry.standard.entries,
    (∀ op ∈ entry.dialect.infixOps.entries, Text.IsUpper op.2.function) ∧
      ∀ word ∈ entry.dialect.niladic.entries, Text.IsUpper word.2 := by
  decide +kernel

section Registered

variable [Numerals] {entry : Entry} (member : entry ∈ Registry.standard.entries) {sql : String}

include member

theorem registered_shaping : entry.dialect.Shaping where
  types := registered_reads member
  calls := registered_calls member
  operators := (upper_entries entry member).1
  words := (upper_entries entry member).2

/-- A statement is well shaped if the numbers of its text, and those that its strings consist of, are numbers of a
tree. -/
theorem parsed_wellShaped (number : ∀ text, entry.NumberIn sql text → Numerals.Admits text)
    (quoted : ∀ text, entry.QuotedIn sql text → ∀ word ∈ Text.words text, Numeric word → Numerals.Admits word)
    {s : Statement} (parsed : Statement.parse entry.dialect sql = .ok s) : s.WellShaped := by
  -- What the errors of the reading blame is of no interest.
  let ground : Ground := { entry.ground sql with place := fun _ => True, foreign := fun _ _ => True }
  have counts : ground.Counts := ⟨number, quoted, fun _ => trivial, fun _ _ => trivial⟩
  have reads : ground.Reads entry.dialect.toLexicon sql :=
    { entry.ground_reads sql with place := fun _ _ => trivial, halt := .inr trivial }
  have calls : entry.dialect.BlamesCalls ground :=
    Entry.blames_calls member trivial (fun _ => trivial) fun _ _ _ e _ => Ground.Counts.faults e
  have shaping := registered_shaping member
  refine Parser.run_reads reads (registered_regular member).lexicon (fun _ => ?_) parsed
  exact Parser.yields_oneStatement shaping (Parser.wellShaped_grammar shaping _)

end Registered

/-- What is read as a statement of a registered dialect has the shape that printers rely on. Columns have a path, a
choice has an arm, a map has as many values as keys, names of a row are as many as its values, a list of members is
not empty, and a type has the types inside that its name asks for; intervals are of known units and calls are named in
upper case. -/
theorem parsed_shaped {entry : Entry} (member : entry ∈ Registry.standard.entries) {sql : String} {s : Statement}
    (parsed : Statement.parse entry.dialect sql = .ok s) : ∀ n ∈ s.nodes ++ s.propertyNodes, n.Shaped := by
  have shaped := @parsed_wellShaped Numerals.any entry member sql (fun _ _ => trivial)
    (fun _ _ _ _ _ => trivial) s parsed
  exact fun n inside => (shaped n inside).1

theorem choice_shaped : ∃ s, Statement.parse ClickHouse.profile.dialect
      "SELECT CASE WHEN a IN (1, 2) THEN INTERVAL 1 DAY END, CAST(b AS Array(Int8)) FROM t" = .ok s ∧
    8 ≤ s.nodes.length ∧ ∀ n ∈ s.nodes ++ s.propertyNodes, n.Shaped := by
  have member : Entry.ofProfile ClickHouse.profile ∈ Registry.standard.entries := by simp [Registry.standard]
  obtain ⟨s, parsed, several⟩ := Parser.ok_of_any (x := Statement.parse ClickHouse.profile.dialect
    "SELECT CASE WHEN a IN (1, 2) THEN INTERVAL 1 DAY END, CAST(b AS Array(Int8)) FROM t")
    (p := fun s => decide (8 ≤ s.nodes.length)) (by decide +kernel)
  exact ⟨s, parsed, of_decide_eq_true several, parsed_shaped member parsed⟩

end SqlDialects
