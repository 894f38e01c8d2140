import SqlDialects.Decimal
import SqlDialects.Text.Blank
import SqlDialects.Text.Case
import SqlDialects.Tree.Visit

/-! Tables of other dialects as Doris tables: a key model, a distribution, automatic partitions and
the default properties. Engines, storage clauses and options of the source are dropped. -/

namespace SqlDialects.Doris

/-! Columns. -/

def maxChar : Int := 255

def maxVarchar : Int := 65533

def byteWidth (characters : Int) : Int := wrap64 (characters * 3)

def columnType (t : TypeSpec) : TypeSpec :=
  match t.native, t.params with
  | false, p :: _ =>
    let width := byteWidth p
    if t.name = "VARCHAR" then
      if width > maxVarchar then { pos := t.pos, name := "STRING" }
      else { pos := t.pos, name := "VARCHAR", params := [width] }
    else if t.name = "CHAR" then
      { pos := t.pos, name := if width > maxChar then "VARCHAR" else "CHAR", params := [width] }
    else t
  | _, _ => t

def columnDefault (t : TypeSpec) : Expr → Option Expr
  | .literal pos .number value => some (.literal pos (if t.isText then .string else .number) value)
  | .literal pos kind value => some (.literal pos kind value)
  | .unary pos "-" (.literal litPos .number value) =>
    if t.isText then some (.literal pos .string ("-" ++ value))
    else some (.unary pos "-" (.literal litPos .number value))
  | _ => none

/-- A column in Doris's form. Keys move to the key model. -/
def column (c : ColumnDef) : ColumnDef :=
  let type := columnType c.type
  { c with
    primaryKey := false
    unique := false
    type
    defaultValue := c.defaultValue.bind (columnDefault type) }

/-- Keys and partitions cannot be `STRING`; they become `VARCHAR` without a bound. -/
def narrow (c : ColumnDef) : ColumnDef :=
  if c.type.is "STRING" then { c with type := { pos := c.type.pos, name := "VARCHAR" } } else c

/-! Names of columns, which agree up to the case of ASCII letters. -/

def addName (names : List String) (name : String) : List String :=
  if names.any (Text.equalAscii · name) then names else names ++ [name]

def addNames (names more : List String) : List String := more.foldl addName names

def indexOf? (columns : List ColumnDef) (name : String) : Option Nat :=
  columns.findIdx? fun c => Text.equalAscii c.name.name name

def identOf (columns : List ColumnDef) (name : String) : Ident :=
  match columns.find? fun c => Text.equalAscii c.name.name name with
  | some c => c.name
  | none => ⟨name, false⟩

def propertyNames (properties : List Property) (key : String) : List String :=
  match properties.find? fun p => Text.equalFold p.key key with
  | some p =>
    match p.value with
    | some (.array _ elems) => elems.filterMap fun
        | .literal _ .string value => some value
        | _ => none
    | some (.literal _ _ value) =>
      ((value.splitOn ",").map Text.trim).filter (· != "")
    | _ => []
  | none => []

/-! The choices made for a table. -/

/-- The key model with the columns to hash on. -/
structure Keys where
  model : String
  keys : List String
  hash : List String

def surrogate (first : ColumnDef) : ColumnDef :=
  { pos := first.pos, name := ⟨"doris_col_1", false⟩, type := .named "BIGINT", notNull := true,
    autoIncrement := true }

def leadingKey (columns : List ColumnDef) : List ColumnDef × Keys :=
  match columns with
  | [] => ([], ⟨"DUPLICATE", [], []⟩)
  | first :: rest =>
    if first.type.isComplex then
      let key := surrogate first
      (key :: first :: rest, ⟨"DUPLICATE", [key.name.name], [key.name.name]⟩)
    else (first :: rest, ⟨"DUPLICATE", [first.name.name], [first.name.name]⟩)

/-- A sorting key gives a duplicate model over its columns; primary and unique keys give a unique
model; else the first column is the key. A `MULTISET` table allows duplicate rows. -/
def chooseKeys (t : CreateTable) (leadingHash : Bool) (columns : List ColumnDef) :
    List ColumnDef × Keys :=
  let sorted := addNames [] (t.sortKey.filterMap Expr.firstColumn?)
  let index := addNames [] (t.primaryIndex.map Ident.name)
  if !sorted.isEmpty then (columns, ⟨"DUPLICATE", sorted, sorted.take 1⟩)
  else if t.rowSemantics = "MULTISET" then
    if index.isEmpty then leadingKey columns else (columns, ⟨"DUPLICATE", index, index⟩)
  else
    let marked := (t.columns.filter fun c => c.primaryKey || c.unique).map (·.name.name)
    let declared := (t.constraints.filter fun c => c.kind = .primaryKey || c.kind = .unique).flatMap
      fun c => c.columns.map Ident.name
    let unique := addNames (addNames (addNames [] marked) declared) index
    if unique.isEmpty then leadingKey columns
    else (columns, ⟨"UNIQUE", unique, if leadingHash then unique.take 1 else unique⟩)

def partitionNames (t : CreateTable) : List String :=
  let declared := match t.partitioning with
    | some p => p.columns.map (·.name.name) ++ p.exprs.filterMap Expr.firstColumn?
    | none => []
  addNames (addNames [] declared) (propertyNames t.properties "partitioned_by")

def asPartition (c : ColumnDef) : ColumnDef := narrow { c with notNull := true }

def choosePartition (t : CreateTable) (columns : List ColumnDef) (keys : Keys) :
    List ColumnDef × Keys × Option Partitioning :=
  let found := (partitionNames t).filterMap (indexOf? columns)
  let columnAt (i : Nat) : Option ColumnDef := columns[i]?
  let reference (c : ColumnDef) : Expr := .column c.pos [c.name]
  if found.isEmpty then (columns, keys, none)
  else
    let unit := match t.partitioning with
      | some p => if p.unit = "" then "day" else p.unit
      | none => "day"
    let temporal := found.find? fun i => (columnAt i).any (·.type.isTemporal)
    let chosen := match temporal with
      | some i => [i]
      | none => found
    let chosenColumns := chosen.filterMap columnAt
    let spec : Partitioning := match temporal with
      | some _ =>
        { auto := true, method := "RANGE",
          exprs := chosenColumns.map fun c =>
            .call { pos := c.pos, name := "DATE_TRUNC", args := [reference c, .str unit] } }
      | none => { auto := true, method := "LIST", exprs := chosenColumns.map reference }
    let keys := if keys.model = "UNIQUE" then
        { keys with keys := addNames keys.keys (chosenColumns.map (·.name.name)) }
      else keys
    (chosen.foldl (fun columns i => columns.modify i asPartition) columns, keys, some spec)

/-- The source's bucketing columns, when it declares any that exist. -/
def chooseHash (t : CreateTable) (columns : List ColumnDef) (keys : Keys) : List String :=
  let declared := match t.distribution with
    | some d => d.columns.map Ident.name
    | none => []
  let named := addNames (addNames [] declared) (propertyNames t.properties "bucketed_by")
  let known := named.filter fun name => (indexOf? columns name).isSome
  if known.isEmpty then keys.hash else known

def ordered (columns : List ColumnDef) (keys : List String) : List ColumnDef :=
  let placed := keys.foldl (fun placed name =>
    match indexOf? columns name with
    | some i => if placed.contains i then placed else placed ++ [i]
    | none => placed) []
  placed.filterMap (columns[·]?) ++
    (columns.zipIdx.filter fun (_, i) => !placed.contains i).map (·.1)

/-- A table of another dialect as a Doris table. A table without columns takes its shape from its
query. -/
def ofTable (t : CreateTable) (leadingHash : Bool) (properties : List Property) : CreateTable :=
  let bare := { t with
    comment := none, constraints := [], sortKey := [], partitioning := none, distribution := none,
    properties := [] }
  if t.columns.isEmpty then bare
  else
    let declared := match t.partitioning with
      | some p => t.columns ++ p.columns
      | none => t.columns
    let (columns, keys) := chooseKeys t leadingHash (declared.map column)
    let (columns, keys, partitioning) := choosePartition t columns keys
    let hash := chooseHash t columns keys
    let columns := (keys.keys.filterMap (indexOf? columns)).foldl
      (fun columns i => columns.modify i narrow) columns
    { bare with
      columns := ordered columns keys.keys
      keyModel := some ⟨keys.model, keys.keys.map (identOf columns)⟩
      partitioning
      distribution := some { columns := hash.map (identOf columns) }
      properties }

end SqlDialects.Doris
