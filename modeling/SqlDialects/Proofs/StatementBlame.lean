import SqlDialects.Parser.Statement
import SqlDialects.Proofs.SyntaxBlame

/-! Definitions of tables and statements blame what stands in the text. -/

namespace SqlDialects

namespace Parser

-- A parser of many parts takes an instance for each of them.
set_option synthInstance.maxSize 2048

variable {s : Ground} {d : Dialect}

/-! ### Constraints -/

instance located_skipOptionalGroup : Located s skipOptionalGroup := by
  unfold skipOptionalGroup
  infer_instance

instance located_stringToken {what : String} : Located s (stringToken what) := by
  unfold stringToken
  infer_instance

instance located_keyColumns : Located s keyColumns := by
  unfold keyColumns
  infer_instance

instance located_skipConstraintState : Located s skipConstraintState := by
  unfold skipConstraintState
  infer_instance

instance located_skipReferentialActions : Located s skipReferentialActions := by
  unfold skipReferentialActions
  infer_instance

instance located_indexElement {pos : Position} {name : String} : Located s (indexElement pos name) := by
  unfold indexElement
  infer_instance

instance located_foreignKey {pos : Position} {name : String} : Located s (foreignKey d pos name) := by
  unfold foreignKey
  infer_instance

instance located_uniqueKey {pos : Position} {name : String} : Located s (uniqueKey pos name) := by
  unfold uniqueKey
  infer_instance

section Columns

variable {g : Grammar} [g.On s]

instance located_constraint {pos : Position} {name : String} : Located s (constraint? d g pos name) := by
  unfold constraint?
  infer_instance

/-! ### Columns -/

instance located_skipAttribute : Located s (skipAttribute d g) := by
  refine ⟨.skip fun c => ?_⟩
  dsimp only
  refine .branch Located.locates (.branch Located.locates (.branch Located.locates (.branch Located.locates ?_)))
  refine .branch Located.locates (.branch Located.locates (.branch Located.locates (.branch Located.locates ?_)))
  exact Located.locates

instance located_columnAttribute {column : ColumnDef} : Located s (columnAttribute d g column) := by
  refine ⟨.branch Located.locates (.branch Located.locates (.branch Located.locates (.branch Located.locates ?_)))⟩
  exact Located.locates

variable [d.BlamesTypes]

instance located_columnDef : Located s (columnDef d g) := by
  unfold columnDef
  infer_instance

instance located_tableElement {table : CreateTable} : Located s (tableElement d g table) := by
  refine ⟨.skip fun pos => .skip fun named => .either fun name => .skip fun found => ?_⟩
  split <;> exact Located.locates

end Columns

/-! ### Clauses after the columns -/

section Clauses

instance located_keepClause {table : CreateTable} {group : PropertyGroup} {key : String}
    {start : Nat} {value : Option Expr} :
    Located s (keepClause table group key start value) := by
  unfold keepClause
  infer_instance

instance located_bucketCount : Located s bucketCount := by
  refine ⟨.skip fun t => ?_⟩
  split <;> exact Located.locates

instance located_distributionBase : Located s distributionBase := by
  unfold distributionBase
  infer_instance

instance located_distribution : Located s distribution := by
  unfold distribution
  infer_instance

instance located_commaFold {α : Type} {item : α → Parser α} {a : α} [∀ a, Located s (item a)] :
    Located s (commaFold item a) := by
  unfold commaFold
  infer_instance

instance located_rangePartitions {auto : Bool} : Located s (rangePartitions auto) := by
  refine ⟨.skip fun _ => .get fun c here => .skip fun _ => .ite (.failAt here.peek.place _ _) ?_⟩
  exact Located.locates

instance located_storageClause {table : CreateTable} {start : Nat} : Located s (storageClause table start) := by
  unfold storageClause
  infer_instance

instance located_optionClause {table : CreateTable} {start : Nat} : Located s (optionClause table start) := by
  unfold optionClause
  infer_instance

instance located_primaryIndex {table : CreateTable} {start : Nat} : Located s (primaryIndex table start) := by
  unfold primaryIndex
  infer_instance

instance located_engineClause {table : CreateTable} {start : Nat} : Located s (engineClause table start) := by
  unfold engineClause
  infer_instance

variable {g : Grammar} [g.On s]

instance located_keyExprs : Located s (keyExprs g) := by
  unfold keyExprs
  extract_lets more
  have reads (first : Expr) : Located s (more first) := by
    unfold more
    infer_instance
  refine ⟨.skip fun e => ?_⟩
  split
  · exact .ite (.pure trivial) (reads _).locates
  · exact .ite (.pure trivial) (reads _).locates
  · exact (reads _).locates

instance located_partitionBy : Located s (partitionBy g) := by
  unfold partitionBy
  infer_instance

variable [d.BlamesTypes]

instance located_partitionedItem {p : Partitioning} : Located s (partitionedItem d g p) := by
  unfold partitionedItem
  infer_instance

instance located_partitionedBy : Located s (partitionedBy d g) := by
  unfold partitionedBy
  infer_instance

instance located_propertyItem {group : PropertyGroup} {clause : String} {table : CreateTable} :
    Located s (propertyItem d g group clause table) := by
  unfold propertyItem
  infer_instance

instance located_propertyList {table : CreateTable} : Located s (propertyList d g table) := by
  unfold propertyList
  infer_instance

instance located_layoutClause {table : CreateTable} {start : Nat} : Located s (layoutClause? d g table start) := by
  refine ⟨.skip fun c => ?_⟩
  dsimp only
  refine .ite Located.locates (.branch Located.locates (.branch Located.locates (.branch Located.locates ?_)))
  exact Located.locates

instance located_tableClause {table : CreateTable} : Located s (tableClause d g table) := by
  refine ⟨.skip fun pos => .skip fun found => ?_⟩
  split <;> exact Located.locates

/-! ### The definition as a whole -/

instance located_skipDataClause : Located s skipDataClause := by
  unfold skipDataClause
  infer_instance

instance located_leadingOptions {table : CreateTable} : Located s (leadingOptions table) := by
  unfold leadingOptions
  infer_instance

instance located_copyOfTable {table : CreateTable} : Located s (copyOfTable d table) := by
  unfold copyOfTable
  infer_instance

instance located_clauseStep {state : CreateTable × Bool} : Located s (clauseStep d g state) := by
  unfold clauseStep
  infer_instance

instance located_tableDefinition {flags : CreateTable} : Located s (tableDefinition d g flags) := by
  refine ⟨.skip fun guarded => .skip fun name => .skip fun clustered =>
    .extra (.skip fun table => .branch Located.locates ?_)⟩
  refine .skip fun c => .ite Located.locates ?_
  exact .ite Located.locates Located.locates

end Clauses

/-! ### Statements -/

section Statements

instance located_dropStatement : Located s (dropStatement d) := by
  unfold dropStatement
  infer_instance

variable {g : Grammar} [g.On s]

instance located_insertStatement : Located s (insertStatement d g) := by
  refine ⟨.skip fun pos => .skip fun _ => .skip fun overwrite => .ite (.otherwise ?_ ?_) ?_⟩
  · exact Located.locates
  · exact Located.locates
  · exact Located.locates

instance located_viewStatement {pos : Position} {orReplace temporary : Bool} :
    Located s (viewStatement d g pos orReplace temporary) := by
  unfold viewStatement
  infer_instance

theorem locates_expectingStatement {α : Type} {good : α → Prop} {p : Parser α} (read : Locates s good p) :
    Locates s good (expectingStatement p) := by
  refine ⟨fun c a next on done => ?_, fun c e on failed => ?_⟩
  · unfold expectingStatement at done
    cases outcome : p c with
    | ok r =>
      rw [outcome] at done
      cases done
      exact read.reads on outcome
    | error other =>
      rw [outcome] at done
      cases other <;> cases done
  · unfold expectingStatement at failed
    cases outcome : p c with
    | ok r =>
      rw [outcome] at failed
      cases failed
    | error other =>
      rw [outcome] at failed
      cases other <;> cases failed
      have blamed := read.blames on outcome
      split <;> exact blamed

instance located_expectingStatement {α : Type} {p : Parser α} [read : Located s p] : Located s (expectingStatement p) :=
  ⟨locates_expectingStatement read.locates⟩

instance located_expressionStatement : Located s (expressionStatement g) := by
  refine ⟨.current fun first held => .guard fun _ => .skip fun e => .skip fun t => .ite Located.locates ?_⟩
  split
  · exact .failAt held.place _ _
  · exact .expected _

variable [d.BlamesTypes]

instance located_createStatement : Located s (createStatement d g) := by
  unfold createStatement
  infer_instance

instance located_plainStatement : Located s (plainStatement d g) := by
  unfold plainStatement
  infer_instance

instance located_explainStatement : Located s (explainStatement d g) := by
  unfold explainStatement
  infer_instance

instance located_statement : Located s (Parser.statement d g) := by
  unfold Parser.statement
  infer_instance

instance located_oneStatement : Located s (oneStatement d g) := by
  unfold oneStatement
  infer_instance

instance located_script : Located s (script d g) := by
  unfold script
  infer_instance

end Statements

end Parser

end SqlDialects
