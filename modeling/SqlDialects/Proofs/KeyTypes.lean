import SqlDialects.Proofs.TableClauses
import SqlDialects.Proofs.TypeTexts

/-! The types of the columns that the clauses of a Doris table name. A `STRING` among them becomes a `VARCHAR`, but only
under the name that the neutral tree has for it, while Doris shows further types as `STRING`; and only the column that
leads a table without keys gives way to a surrogate when it is of a complex type. -/

namespace SqlDialects.Doris

variable {t : CreateTable} {type : TypeSpec} {name : String} {c d : ColumnDef}

/-! ### Types as Doris shows them -/

/-- Types other than `STRING` that Doris shows as `STRING`. -/
def shownAsString : List String := ["BINARY", "TIME", "INTERVAL", "UUID"]

private theorem string_spellings : ∀ pair ∈ profile.dialect.typeNames.entries, pair.2 = "STRING" →
    pair.1 = "STRING" ∨ pair.1 ∈ shownAsString := by
  decide +kernel

private theorem spelled_string : ∀ name ∈ shownAsString,
    profile.dialect.typeNames.find? name = some "STRING" ∧ Text.equalFold "STRING" name = false ∧
      profile.dialect.typeParams.contains name = false ∧ profile.dialect.unsupportedTypes.contains name = false ∧
      name ≠ "ARRAY" ∧ name ≠ "MAP" ∧ name ≠ "STRUCT" := by
  decide +kernel

private theorem ne_string {text : String} (bracket : Char) (mark : bracket ∈ ['<', '(', ']'])
    (inside : bracket ∈ text.toList) : text ≠ "STRING" := by
  rintro rfl
  simp only [List.mem_cons, List.not_mem_nil, or_false] at mark
  obtain rfl | rfl | rfl := mark <;> exact absurd inside (by decide)

private theorem named_string {p : Printer} (canonical : type.native = false) (accepted : p.refuses type = false)
    (shown : p.typeSpec type = .ok "STRING") : p.dialect.typeNames.find? type.name = some "STRING" := by
  have arguments (front : String) (parts : List String) : front ++ p.typeArgs parts ≠ "STRING" := by
    unfold Printer.typeArgs
    split
    · exact ne_string '(' (by decide) (by simp [String.toList_append])
    · exact ne_string '<' (by decide) (by simp [String.toList_append])
  rw [Printer.typeSpec_canonical canonical accepted] at shown
  -- Arrays, maps and structs come first; what is left is a name with or without parameters.
  split at shown
  · obtain ⟨inner, _, whole⟩ := Printer.ok_of_map shown
    exact absurd whole (ne_string ']' (by decide) (by simp [String.toList_append]))
  split at shown
  · obtain ⟨parts, _, whole⟩ := Printer.ok_of_map shown
    exact absurd whole (arguments _ parts)
  split at shown
  · obtain ⟨parts, _, whole⟩ := Printer.ok_of_map shown
    exact absurd whole (arguments _ parts)
  have spelled : (p.dialect.typeNames.find? type.name).getD "" = "STRING" := by
    have plain := Except.ok.inj shown
    unfold Printer.plainType Printer.typeParams at plain
    dsimp only at plain
    split at plain
    · split at plain
      · simpa using plain
      · exact absurd plain (ne_string '(' (by decide) (by simp [String.toList_append]))
    · exact plain
  cases found : p.dialect.typeNames.find? type.name with
  | none =>
    rw [found] at spelled
    exact absurd spelled (by decide)
  | some native =>
    rw [found] at spelled
    rw [← spelled]
    rfl

theorem shown_iff {source : Dialect} (foreign : source.name ≠ "doris") (narrow : type.is "STRING" = false) :
    (profile.dialect.printerFrom source).typeSpec type = .ok "STRING" ↔
      type.native = false ∧ type.name ∈ shownAsString := by
  constructor
  · intro shown
    have accepted : (profile.dialect.printerFrom source).refuses type = false := by
      rw [Bool.eq_false_iff]
      intro refused
      rw [Printer.typeSpec_refused refused] at shown
      cases shown
    have canonical : type.native = false := by
      rw [Bool.eq_false_iff]
      intro native
      rw [← Dialect.refusesFrom_eq, Dialect.refusesFrom, if_pos native, bne_eq_false_iff_eq] at accepted
      exact foreign accepted
    obtain ⟨front, back, entries, _⟩ := List.lookup_eq_some_iff.mp (named_string canonical accepted shown)
    have listed : (type.name, "STRING") ∈ profile.dialect.typeNames.entries := by
      rw [show profile.dialect.typeNames.entries = _ from entries]
      simp
    obtain isString | other := string_spellings _ listed rfl
    · simp [TypeSpec.is, canonical, show type.name = "STRING" from isString] at narrow
    · exact ⟨canonical, other⟩
  · rintro ⟨canonical, listed⟩
    obtain ⟨spelled, other, bare, held, array, map, struct⟩ := spelled_string _ listed
    have accepted : (profile.dialect.printerFrom source).refuses type = false := by
      rw [← Dialect.refusesFrom_eq, Dialect.refusesFrom, canonical, if_neg Bool.false_ne_true, held]
    have plain : (profile.dialect.printerFrom source).plainType type.name type.params = "STRING" := by
      unfold Printer.plainType
      rw [show (profile.dialect.printerFrom source).dialect = profile.dialect from rfl, spelled, Option.getD_some]
      dsimp only
      rw [other, bare]
      rfl
    rw [Printer.typeSpec_canonical canonical accepted, plain]
    simp [array, map, struct]

/-! ### Types of narrowed columns -/

/-- The width of characters decides on the type among those of texts only. -/
theorem shown_columnType (type : TypeSpec) : (columnType type).native = false ∧ (columnType type).name ∈ shownAsString ↔
    type.native = false ∧ type.name ∈ shownAsString := by
  have texts : ∀ name ∈ ["VARCHAR", "CHAR", "STRING"], name ∉ shownAsString := by decide
  unfold columnType
  split
  · split
    · next name =>
      have source : type.name ∉ shownAsString := texts _ (by simp [name])
      dsimp only
      split <;> simp [source, texts]
    split
    · next name =>
      have source : type.name ∉ shownAsString := texts _ (by simp [name])
      dsimp only
      split <;> simp [source, texts]
    · rfl
  · rfl

private theorem narrow_type {source : Dialect} (foreign : source.name ≠ "doris") (c : ColumnDef) :
    ((profile.dialect.printerFrom source).typeSpec (narrow c).type = .ok "STRING" ↔
      c.type.native = false ∧ c.type.name ∈ shownAsString) ∧
    (narrow c).type.isComplex = c.type.isComplex := by
  unfold narrow
  split
  · next text =>
    obtain ⟨canonical, name⟩ : c.type.native = false ∧ c.type.name = "STRING" := by simpa [TypeSpec.is] using text
    have unbounded : "VARCHAR" ∉ shownAsString ∧ "STRING" ∉ shownAsString := by decide
    rw [shown_iff foreign rfl, name]
    exact ⟨iff_of_false (fun both => unbounded.1 both.2) (fun both => unbounded.2 both.2),
      by simp [TypeSpec.isComplex, name]⟩
  · next other => exact ⟨shown_iff foreign (by simpa using other), rfl⟩

/-- The type that a key or partition column ends up with, by the type that it has in the source. -/
theorem narrow_column_type {source : Dialect} (foreign : source.name ≠ "doris") (c : ColumnDef) :
    ((profile.dialect.printerFrom source).typeSpec (narrow (column c)).type = .ok "STRING" ↔
      c.type.native = false ∧ c.type.name ∈ shownAsString) ∧
    (narrow (column c)).type.isComplex = c.type.isComplex := by
  have narrowed := narrow_type foreign (column c)
  rwa [show (column c).type = columnType c.type from rfl, shown_columnType, isComplex_columnType] at narrowed

/-! ### The columns that the clauses name -/

/-- The names in the key clause of a table and those in its partition clause, which stand by themselves or are
arguments. -/
inductive InClause (t : CreateTable) : String → Prop
  | key {model : KeyModel} (id : Ident) (clause : t.keyModel = some model) (member : id ∈ model.columns) :
      InClause t id.name
  | listed {spec : Partitioning} {pos : Position} (id : Ident) (clause : t.partitioning = some spec)
      (member : .column pos [id] ∈ spec.exprs) : InClause t id.name
  | ranged {spec : Partitioning} {f : Call} {pos : Position} (id : Ident) (clause : t.partitioning = some spec)
      (member : .call f ∈ spec.exprs) (argument : .column pos [id] ∈ f.args) : InClause t id.name

variable {out : CreateTable} {columns candidates : List ColumnDef} {keys : Keys} {ids : List Ident} {unit : String}

private theorem listed_automatic {pos : Position} {id : Ident}
    (member : .column pos [id] ∈ (automatic unit candidates).exprs) : ∃ c ∈ clauseColumns candidates, c.name = id := by
  unfold automatic at member
  unfold clauseColumns
  split at member
  · simp at member
  · obtain ⟨c, inside, same⟩ := List.mem_map.mp member
    simp only [Expr.column.injEq, List.cons.injEq, and_true] at same
    exact ⟨c, inside, same.2⟩

private theorem ranged_automatic {f : Call} {pos : Position} {id : Ident}
    (member : .call f ∈ (automatic unit candidates).exprs) (argument : .column pos [id] ∈ f.args) :
    ∃ c ∈ clauseColumns candidates, c.name = id := by
  unfold automatic at member
  unfold clauseColumns
  split at member
  · next c found =>
    obtain rfl := Expr.call.inj (List.mem_singleton.mp member)
    simp only [Expr.str, List.mem_cons, List.not_mem_nil, or_false, Expr.column.injEq, List.cons.injEq, and_true,
      reduceCtorEq] at argument
    exact ⟨c, List.mem_singleton_self c, argument.2.symm⟩
  · simp at member

namespace Settled

private theorem clause_type (settled : Settled t out columns keys ids)
    (member : c ∈ clauseColumns (partitionColumns t columns))
    (found : columnNamed? out.columns c.name.name = some d) :
    columnNamed? columns c.name.name = some c ∧ d.type = (narrow c).type := by
  obtain ⟨_, _, known⟩ := List.mem_filterMap.mp (mem_of_mem_clause member)
  have final : asPartition c ∈ clauseColumns (partitionColumns t out.columns) := by
    rw [settled.clause_eq]
    exact List.mem_map_of_mem member
  obtain ⟨_, _, standing⟩ := List.mem_filterMap.mp (mem_of_mem_clause final)
  have same := columnNamed_self standing
  rw [asPartition_name, found] at same
  rw [Option.some.inj same, asPartition_eq]
  exact ⟨columnNamed_self known, rfl⟩

/-- A column that a key stands for has come from one of Doris's form. -/
private theorem key_type {key : String} (settled : Settled t out columns keys ids) (member : key ∈ keys.keys)
    (found : columnNamed? out.columns key = some d) :
    ∃ c, columnNamed? columns key = some c ∧ d.type = (narrow c).type := by
  rw [settled.named, Option.bind_eq_some_iff] at found
  obtain ⟨i, place, changed⟩ := found
  obtain ⟨c, here, rfl⟩ := Option.map_eq_some_iff.mp changed
  refine ⟨c, by rw [columnNamed_eq, place, Option.bind_some, here], ?_⟩
  have keyed : i ∈ keys.keys.filterMap (indexOf? columns) := List.mem_filterMap.mpr ⟨key, member, place⟩
  unfold Doris.settled
  split
  · rw [asPartition_eq]
  · rfl

theorem narrowed (settled : Settled t out columns keys ids) (named : InClause out name)
    (found : columnNamed? out.columns name = some d) :
    ∃ c, columnNamed? columns name = some c ∧ d.type = (narrow c).type := by
  have parted {spec : Partitioning} (clause : out.partitioning = some spec) :
      spec = automatic (partitionUnit t) (partitionColumns t columns) := by
    rw [settled.partitioning] at clause
    split at clause
    · cases clause
    · exact (Option.some.inj clause).symm
  cases named with
  | key _ clause member =>
    obtain rfl := Option.some.inj (settled.model.symm.trans clause)
    obtain ⟨key, inside, same⟩ := settled.standFor _ member
    have byKey := same.symm.trans found
    obtain ⟨c, standing, type⟩ := settled.key_type inside byKey
    refine ⟨c, ?_, type⟩
    rw [← standing, ← columnNamed_congr (columnNamed_agrees found), columnNamed_congr (columnNamed_agrees byKey)]
  | listed _ clause member =>
    obtain ⟨c, inside, rfl⟩ := listed_automatic (parted clause ▸ member)
    exact ⟨c, settled.clause_type inside found⟩
  | ranged _ clause member argument =>
    obtain ⟨c, inside, rfl⟩ := ranged_automatic (parted clause ▸ member) argument
    exact ⟨c, settled.clause_type inside found⟩

end Settled

/-! ### The leading key -/

theorem chooseKeys_of_leads {leadingHash : Bool} (leads : LeadsWithFirst t) :
    chooseKeys t leadingHash columns = leadingKey columns := by
  have unsorted : t.sortKey.filterMap Expr.firstColumn? = [] := List.filterMap_eq_nil_iff.mpr leads.unsorted
  unfold chooseKeys
  rw [unsorted, leads.unindexed]
  dsimp only
  rw [if_neg (by decide)]
  split
  · exact if_pos rfl
  · next single =>
    have unnamed : uniqueNames t = [] := uniqueNames_eq_nil.mpr ⟨leads.unkeyed.resolve_left single, leads.unindexed⟩
    rw [uniqueNames, leads.unindexed] at unnamed
    exact if_pos (List.isEmpty_iff.mpr unnamed)

/-- The leading key is the first column, which a surrogate has become where it was of a complex type. -/
theorem leadingKey_simple {chosen : List ColumnDef} (nonempty : columns ≠ [])
    (leading : leadingKey columns = (chosen, keys)) :
    ∃ first rest, chosen = first :: rest ∧ keys.keys = [first.name.name] ∧ keys.model = "DUPLICATE" ∧
      first.type.isComplex = false := by
  unfold leadingKey at leading
  split at leading
  · contradiction
  · dsimp only at leading
    split at leading <;> cases leading
    · exact ⟨_, _, rfl, rfl, rfl, rfl⟩
    · next simple => exact ⟨_, _, rfl, rfl, rfl, by simpa using simple⟩

/-- A column that a clause of the Doris table names is shown as `STRING`, or is of a complex type, exactly if the
source's column is of a type that Doris shows so, or is complex. The key of a table that names none is never complex.
-/
theorem clause_types (ctx : Context) (t : CreateTable) (foreign : ctx.isCross = true)
    (target : ctx.target = profile.dialect) (own : t.like = []) (nonempty : t.columns ≠ []) :
    ∃ out first added,
      createTable.fire? ctx (.statement (.createTable t)) = .ok (some (.statement (.createTable out))) ∧
      t.columns.head? = some first ∧ Added t first added ∧
      (∀ name d, InClause out name → columnNamed? out.columns name = some d →
        ∃ c, columnNamed? (added ++ declaredColumns t) name = some c ∧
          ((ctx.target.printerFrom ctx.source).typeSpec d.type = .ok "STRING" ↔
            c.type.native = false ∧ c.type.name ∈ shownAsString) ∧
          d.type.isComplex = c.type.isComplex) ∧
      (LeadsWithFirst t → ∀ model, out.keyModel = some model → ∀ id ∈ model.columns, ∀ d,
        columnNamed? out.columns id.name = some d → d.type.isComplex = false) := by
  obtain ⟨first, others, listed⟩ := List.exists_cons_of_ne_nil nonempty
  obtain ⟨added, keys, ids, stands, chosen, settled⟩ :=
    ofTable_settled t ctx.source.leadingKeyHash ctx.target.hints.defaultProperties listed
  have isDoris : ctx.target.name = "doris" := by
    rw [target]
    decide +kernel
  have apart : ctx.source.name ≠ "doris" := by simpa [Context.isCross, isDoris] using foreign
  refine ⟨_, first, added, createTable_fires foreign isDoris own, by rw [listed]; rfl, stands, ?_, ?_⟩
  · intro name d named found
    obtain ⟨b, known, type⟩ := settled.narrowed named found
    rw [columnNamed_map (f := column) fun _ => rfl, Option.map_eq_some_iff] at known
    obtain ⟨c, declared, rfl⟩ := known
    rw [type, target]
    exact ⟨c, declared, narrow_column_type apart c⟩
  · intro leads model keyed id member d found
    rw [chooseKeys_of_leads leads] at chosen
    have filled : (declaredColumns t).map column ≠ [] := by
      obtain ⟨more, declared⟩ := declaredColumns_cons listed
      simp [declared]
    obtain ⟨head, rest, shape, single, duplicate, simple⟩ := leadingKey_simple filled chosen
    obtain rfl := Option.some.inj (settled.model.symm.trans keyed)
    obtain ⟨key, inside, same⟩ := settled.standFor id member
    obtain ⟨c, standing, type⟩ := settled.key_type inside (same.symm.trans found)
    -- The columns of the partition clause are keys of a unique model only.
    rw [clauseKeys, if_neg (by simp [duplicate]), single, List.mem_singleton] at inside
    have leading : columnNamed? (head :: rest) head.name.name = some head :=
      List.find?_cons_of_pos (Text.equalAscii_iff.mpr rfl)
    rw [inside, shape, leading] at standing
    rw [type, (narrow_type apart c).2, ← Option.some.inj standing, simple]

/-- A table with a key that Doris shows as `STRING`. -/
def tokenTable : CreateTable where
  name := [⟨"tokens", false⟩]
  columns := [
    { name := ⟨"id", false⟩, type := .named "INT" },
    { name := ⟨"token", false⟩, type := .named "UUID", primaryKey := true },
    { name := ⟨"region", false⟩, type := .named "STRING" }]
  partitioning := some { exprs := [.column {} [⟨"region", false⟩]] }

theorem tokenTable_shown : ∃ out token region,
    createTable.fire? ⟨Postgres.profile.dialect, profile.dialect, .ok⟩ (.statement (.createTable tokenTable)) =
      .ok (some (.statement (.createTable out))) ∧
    InClause out "token" ∧ InClause out "region" ∧
    columnNamed? out.columns "token" = some token ∧ columnNamed? out.columns "region" = some region ∧
    (profile.dialect.printerFrom Postgres.profile.dialect).typeSpec token.type = .ok "STRING" ∧
    (profile.dialect.printerFrom Postgres.profile.dialect).typeSpec region.type ≠ .ok "STRING" := by
  have cross : (⟨Postgres.profile.dialect, profile.dialect, .ok⟩ : Context).isCross = true := by decide +kernel
  obtain ⟨out, _, added, fired, _, stands, types, _⟩ :=
    clause_types ⟨Postgres.profile.dialect, profile.dialect, .ok⟩ tokenTable cross rfl rfl (by simp [tokenTable])
  have table := eq_ofTable_of_fires cross (by decide +kernel) rfl fired
  have inKey : InClause out "token" := .key ⟨"token", false⟩ (by rw [table]; rfl) List.mem_cons_self
  have inPartition : InClause out "region" :=
    .listed ⟨"region", false⟩ (by rw [table]; rfl) List.mem_cons_self
  obtain ⟨token, key⟩ : ∃ d, columnNamed? out.columns "token" = some d := by rw [table]; exact ⟨_, rfl⟩
  obtain ⟨region, partition⟩ : ∃ d, columnNamed? out.columns "region" = some d := by rw [table]; exact ⟨_, rfl⟩
  have named : ¬LeadsWithFirst tokenTable := fun leads => by simpa [tokenTable] using leads.unkeyed
  obtain ⟨leads, _⟩ | ⟨_, rfl⟩ := stands
  · exact absurd leads.1 named
  have sources : (columnNamed? (declaredColumns tokenTable) "token").map (·.type) = some (.named "UUID") ∧
      (columnNamed? (declaredColumns tokenTable) "region").map (·.type) = some (.named "STRING") := ⟨rfl, rfl⟩
  obtain ⟨c, known, shown, _⟩ := types "token" token inKey key
  obtain ⟨e, known', shown', _⟩ := types "region" region inPartition partition
  rw [List.nil_append] at known known'
  rw [known, known', Option.map_some, Option.map_some, Option.some_inj, Option.some_inj] at sources
  rw [sources.1] at shown
  rw [sources.2] at shown'
  exact ⟨out, token, region, fired, inKey, inPartition, key, partition, shown.mpr ⟨rfl, by decide⟩,
    fun text => absurd (shown'.mp text).2 (by decide)⟩

/-- A table sorted by an array and partitioned by bytes. -/
def blobTable : CreateTable where
  name := [⟨"blobs", false⟩]
  columns := [
    { name := ⟨"tags", false⟩, type := .arrayOf (.named "INT") },
    { name := ⟨"blob", false⟩, type := .named "BINARY" }]
  sortKey := [.column {} [⟨"tags", false⟩]]
  partitioning := some { exprs := [.column {} [⟨"blob", false⟩]] }

theorem blobTable_inadmissible : ∃ out tags blob,
    createTable.fire? ⟨ClickHouse.profile.dialect, profile.dialect, .ok⟩ (.statement (.createTable blobTable)) =
      .ok (some (.statement (.createTable out))) ∧
    InClause out "tags" ∧ columnNamed? out.columns "tags" = some tags ∧ tags.type.isComplex = true ∧
    InClause out "blob" ∧ columnNamed? out.columns "blob" = some blob ∧
    (profile.dialect.printerFrom ClickHouse.profile.dialect).typeSpec blob.type = .ok "STRING" := by
  refine ⟨_, _, _, createTable_fires (by decide +kernel) (by decide +kernel) rfl,
    .key ⟨"tags", false⟩ rfl List.mem_cons_self, rfl, rfl,
    .listed ⟨"blob", false⟩ rfl List.mem_cons_self, rfl, ?_⟩
  decide +kernel

end SqlDialects.Doris
