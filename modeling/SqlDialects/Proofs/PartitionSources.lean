import SqlDialects.Proofs.TableClauses

/-! The names by which the source of a table partitions it, told from the table alone: those of the columns that the
clause declares, of the first column in each of its expressions, and those in the property. What the Doris table is
partitioned by is compared with these. -/

namespace SqlDialects.Doris

/-! ### Names in the source -/

/-- What a relation picks from each element of a list; an element that it relates to nothing is left out. -/
inductive Picks {α β : Type} (R : α → β → Prop) : List α → List β → Prop
  | nil : Picks R [] []
  | keep {a : α} {b : β} {as : List α} {bs : List β} (picked : R a b) (rest : Picks R as bs) :
      Picks R (a :: as) (b :: bs)
  | skip {a : α} {as : List α} {bs : List β} (bare : ∀ b, ¬ R a b) (rest : Picks R as bs) : Picks R (a :: as) bs

theorem picks_iff {α β : Type} {R : α → β → Prop} {f : α → Option β} (same : ∀ a b, f a = some b ↔ R a b)
    {as : List α} {bs : List β} : Picks R as bs ↔ bs = as.filterMap f := by
  constructor
  · intro picks
    induction picks with
    | nil => rfl
    | keep picked _ ih => rw [List.filterMap_cons_some ((same _ _).mpr picked), ih]
    | @skip a _ _ bare _ ih =>
      have none : f a = none := Option.eq_none_iff_forall_ne_some.mpr fun b found => bare b ((same a b).mp found)
      rw [List.filterMap_cons_none none, ih]
  · rintro rfl
    induction as with
    | nil => exact .nil
    | cons a as ih =>
      cases found : f a with
      | none =>
        rw [List.filterMap_cons_none found]
        exact .skip (fun b picked => by simp [(same a b).mpr picked] at found) ih
      | some b =>
        rw [List.filterMap_cons_some found]
        exact .keep ((same a b).mp found) ih

/-- A column with this name is the first one with a name that is met in an expression. -/
def LeadsWith (e : Expr) (name : String) : Prop :=
  ∃ before after pos path ident, e.nodes = before ++ .expr (.column pos path) :: after ∧ path.getLast? = some ident ∧
    ident.name = name ∧ name ≠ "" ∧
    ∀ pos path ident, Node.expr (.column pos path) ∈ before → path.getLast? = some ident → ident.name = ""

/-- A string that an array lists. -/
def IsText (e : Expr) (name : String) : Prop := ∃ pos, e = .literal pos .string name

/-- What stands between two commas, without the blanks around it. -/
def IsPart (part name : String) : Prop := name = Text.trim part ∧ name ≠ ""

/-- The names in the value of a property: the strings of an array, or the parts of a text. -/
inductive ValueNames : Option Expr → List String → Prop
  | array {pos : Position} {elems : List Expr} {names : List String} (texts : Picks IsText elems names) :
      ValueNames (some (.array pos elems)) names
  | text {pos : Position} {kind : LiteralKind} {value : String} {names : List String}
      (parts : Picks IsPart (value.splitOn ",") names) : ValueNames (some (.literal pos kind value)) names
  | other {value : Option Expr} (noArray : ∀ pos elems, value ≠ some (.array pos elems))
      (noText : ∀ pos kind text, value ≠ some (.literal pos kind text)) : ValueNames value []

/-- The names in the first property with a key, which is written in any case. -/
inductive NamesUnder (key : String) : List Property → List String → Prop
  | first {before after : List Property} {p : Property} {names : List String} (keyed : Text.equalFold p.key key = true)
      (others : ∀ q ∈ before, Text.equalFold q.key key = false) (value : ValueNames p.value names) :
      NamesUnder key (before ++ p :: after) names
  | none {properties : List Property} (others : ∀ q ∈ properties, Text.equalFold q.key key = false) :
      NamesUnder key properties []

/-- The names by which a table is partitioned, in order: of the columns that the clause declares, of the first column in
each of its expressions, and those in the property. -/
inductive PartitionNames (t : CreateTable) : List String → Prop
  | clause {p : Partitioning} {leading listed : List String} (declared : t.partitioning = some p)
      (exprs : Picks LeadsWith p.exprs leading) (property : NamesUnder "partitioned_by" t.properties listed) :
      PartitionNames t (p.columns.map (·.name.name) ++ leading ++ listed)
  | property {listed : List String} (undeclared : t.partitioning = none)
      (property : NamesUnder "partitioned_by" t.properties listed) : PartitionNames t listed

/-- The columns that names stand for. Of names that agree the first one counts. -/
def columnsNamed (columns : List ColumnDef) (names : List String) : List ColumnDef :=
  (names.eraseDupsBy Text.equalAscii).filterMap (columnNamed? columns)

theorem firstColumn_iff (e : Expr) (name : String) : e.firstColumn? = some name ↔ LeadsWith e name := by
  constructor
  · intro found
    obtain ⟨before, n, after, split, here, bare⟩ := List.findSome?_eq_some_iff.mp found
    cases n with
    | expr column =>
      cases column with
      | column pos path =>
        simp only at here
        split at here
        · next ident last =>
          split at here
          · cases here
          · next named =>
            cases here
            refine ⟨before, after, pos, path, ident, split, last, rfl, named, fun pos path ident inside last => ?_⟩
            simpa [last] using bare _ inside
        · cases here
      | _ => cases here
    | _ => cases here
  · rintro ⟨before, after, pos, path, ident, split, last, rfl, named, bare⟩
    refine List.findSome?_eq_some_iff.mpr ⟨before, _, after, split, by simp [last, named], fun n inside => ?_⟩
    split
    · split
      · next last => rw [if_pos (bare _ _ _ inside last)]
      · rfl
    · rfl

theorem parts_iff {parts names : List String} :
    Picks IsPart parts names ↔ names = (parts.map Text.trim).filter (· != "") := by
  rw [← List.filterMap_eq_filter, List.filterMap_map]
  refine picks_iff fun part name => ?_
  simp only [Function.comp_apply, Option.guard, IsPart]
  split <;> grind

theorem texts_iff {elems : List Expr} {names : List String} :
    Picks IsText elems names ↔ names = elems.filterMap fun
      | .literal _ .string value => some value
      | _ => none := by
  refine picks_iff fun e name => ?_
  unfold IsText
  split <;> simp_all

theorem namesUnder_iff {properties : List Property} {key : String} {names : List String} :
    NamesUnder key properties names ↔ names = propertyNames properties key := by
  constructor
  · intro under
    cases under with
    | @first before after p _ keyed others listed =>
      have found : (before ++ p :: after).find? (fun p => Text.equalFold p.key key) = some p :=
        List.find?_eq_some_iff_append.mpr ⟨keyed, before, after, rfl, fun q inside => by simp [others q inside]⟩
      simp only [propertyNames, found]
      generalize p.value = value at *
      cases listed with
      | array texts => exact texts_iff.mp texts
      | text parts => exact parts_iff.mp parts
      | other noArray noText =>
        split <;> simp_all
    | none others =>
      have missing : properties.find? (fun p => Text.equalFold p.key key) = none :=
        List.find?_eq_none.mpr fun q inside => by simp [others q inside]
      simp only [propertyNames, missing]
  · rintro rfl
    unfold propertyNames
    split
    · next p found =>
      obtain ⟨keyed, before, after, rfl, others⟩ := List.find?_eq_some_iff_append.mp found
      refine .first keyed (fun q inside => by simpa using others q inside) ?_
      split
      · next value =>
        rw [value]
        exact .array (texts_iff.mpr rfl)
      · next value =>
        rw [value]
        exact .text (parts_iff.mpr rfl)
      · next noArray noText => exact .other noArray noText
    · next found => exact .none fun q inside => by simpa using List.find?_eq_none.mp found q inside

/-! ### The names that the table is made from -/

private theorem eraseDups_addNames (names more : List String) :
    List.eraseDupsBy.loop Text.equalAscii more names.reverse = addNames names more := by
  induction more generalizing names with
  | nil => simp [List.eraseDupsBy.loop, addNames]
  | cons name more ih =>
    have known : names.reverse.any (Text.equalAscii name) = names.any (Text.equalAscii · name) := by
      rw [List.any_reverse]
      exact congrArg names.any (funext fun _ => Bool.eq_iff_iff.mpr ⟨Text.equalAscii_symm, Text.equalAscii_symm⟩)
    rw [List.eraseDupsBy.loop, known]
    show _ = addNames (addName names name) more
    rw [addName, ← ih]
    cases names.any (Text.equalAscii · name) <;> simp

theorem columnsNamed_eq (columns : List ColumnDef) (names : List String) :
    columnsNamed columns names = (addNames [] names).filterMap (columnNamed? columns) :=
  congrArg (List.filterMap (columnNamed? columns)) (eraseDups_addNames [] names)

/-- A table has exactly one list of such names, and it is made from this list. -/
theorem partitionNames_sourced (t : CreateTable) :
    ∃ names, (∀ others, PartitionNames t others ↔ others = names) ∧ partitionNames t = addNames [] names := by
  simp only [partitionNames, addNames, ← List.foldl_append]
  cases clause : t.partitioning with
  | none =>
    refine ⟨_, fun others => ⟨fun sourced => ?_, fun same => ?_⟩, rfl⟩
    · cases sourced with
      | clause declared => simp [clause] at declared
      | property _ property => exact namesUnder_iff.mp property
    · exact .property clause (namesUnder_iff.mpr same)
  | some p =>
    refine ⟨_, fun others => ⟨fun sourced => ?_, fun same => ?_⟩, rfl⟩
    · cases sourced with
      | clause declared exprs property =>
        obtain rfl := Option.some.inj (clause.symm.trans declared)
        rw [(picks_iff firstColumn_iff).mp exprs, namesUnder_iff.mp property]
      | property undeclared => simp [clause] at undeclared
    · rw [same]
      exact .clause clause ((picks_iff firstColumn_iff).mpr rfl) (namesUnder_iff.mpr rfl)

theorem known_addNames (columns : List ColumnDef) (names : List String) :
    (∃ name ∈ addNames [] names, (columnNamed? columns name).isSome) ↔
    ∃ name ∈ names, (columnNamed? columns name).isSome := by
  constructor
  · rintro ⟨name, member, known⟩
    exact ⟨name, (mem_addNames member).resolve_left List.not_mem_nil, known⟩
  · rintro ⟨name, member, known⟩
    obtain ⟨key, inside, same⟩ := agrees_addNames (.inr member)
    exact ⟨key, inside, by rwa [columnNamed_congr same]⟩

/-- A foreign table with columns has a partition clause exactly if one of the names by which the source partitions
stands for a column. The clause ranges over the first of these columns that is a date or a time, or lists all of them.
Its columns have values, unique keys take them in, and there is always a column to hash on. -/
theorem partitions_follow_source (ctx : Context) (t : CreateTable) (foreign : ctx.isCross = true)
    (target : ctx.target.name = "doris") (own : t.like = []) (nonempty : t.columns ≠ []) :
    ∃ out model buckets names,
      createTable.fire? ctx (.statement (.createTable t)) = .ok (some (.statement (.createTable out))) ∧
      out.keyModel = some model ∧ out.distribution = some buckets ∧ buckets.columns ≠ [] ∧
      (∀ others, PartitionNames t others ↔ others = names) ∧
      (out.partitioning.isSome ↔ ∃ name ∈ names, (columnNamed? out.columns name).isSome) ∧
      (∀ spec, out.partitioning = some spec →
        spec = automatic (partitionUnit t) (columnsNamed out.columns names)) ∧
      ∀ c ∈ clauseColumns (columnsNamed out.columns names), c ∈ out.columns ∧ c.notNull = true ∧
        (model.kind = "UNIQUE" → ∃ id ∈ model.columns, columnNamed? out.columns id.name = some c) := by
  obtain ⟨first, others, listed⟩ := List.exists_cons_of_ne_nil nonempty
  obtain ⟨added, keys, ids, _, _, settled⟩ :=
    ofTable_settled t ctx.source.leadingKeyHash ctx.target.hints.defaultProperties listed
  obtain ⟨buckets, distributed, hashes⟩ := settled.hashes
  obtain ⟨names, sourced, partitions⟩ := partitionNames_sourced t
  have candidates (columns : List ColumnDef) : columnsNamed columns names = partitionColumns t columns := by
    rw [columnsNamed_eq, partitionColumns, partitions]
  refine ⟨_, _, buckets, names, createTable_fires foreign target own, settled.model, distributed, hashes, sourced,
    ?_, ?_, ?_⟩
  · rw [settled.partitioned_iff, partitions, known_addNames]
  · intro spec clause
    rw [settled.partitioning] at clause
    split at clause
    · cases clause
    · rw [candidates, settled.automatic_eq]
      exact (Option.some.inj clause).symm
  · intro c member
    obtain ⟨name, _, found⟩ := List.mem_filterMap.mp (mem_of_mem_clause member)
    rw [candidates, settled.clause_eq] at member
    obtain ⟨before, chosen, rfl⟩ := List.mem_map.mp member
    refine ⟨List.mem_of_find?_eq_some found, by rw [asPartition_eq], fun unique => ?_⟩
    obtain ⟨key, inside, same⟩ := settled.covers unique before chosen
    obtain ⟨id, listed, standsFor⟩ := settled.listed key inside
    rw [← asPartition_name] at same
    exact ⟨id, listed, by rw [standsFor, columnNamed_congr same, columnNamed_self found]⟩

/-- A table with a primary key that is partitioned by a text, and in a property by a time. -/
def eventTable : CreateTable where
  name := [⟨"events", false⟩]
  columns := [
    { name := ⟨"id", false⟩, type := .named "INT", primaryKey := true },
    { name := ⟨"kind", false⟩, type := .named "STRING" },
    { name := ⟨"at", false⟩, type := .named "DATETIME" }]
  partitioning := some { exprs := [.call { name := "LOWER", args := [.column {} [⟨"kind", false⟩]] }] }
  properties := [
    { group := .list, key := "format", value := some (.str "ORC") },
    { group := .list, key := "PARTITIONED_BY", value := some (.array {} [.str "AT", .num "1"]) }]

theorem eventTable_names : PartitionNames eventTable ["kind", "AT"] := by
  refine @PartitionNames.clause eventTable _ ["kind"] ["AT"] rfl ?_ ?_
  · exact .keep ((firstColumn_iff _ _).mp (by decide)) .nil
  · refine @NamesUnder.first _ [_] [] _ _ (by decide) (by decide) (.array ?_)
    exact .keep ⟨_, rfl⟩ (.skip (by rintro _ ⟨_, text⟩; cases text) .nil)

theorem eventTable_partitioned : ∃ out model c,
    createTable.fire? ⟨{ name := "postgres" }, { name := "doris" }, .ok⟩ (.statement (.createTable eventTable)) =
      .ok (some (.statement (.createTable out))) ∧
    out.keyModel = some model ∧ model.kind = "UNIQUE" ∧ out.partitioning.map (·.method) = some "RANGE" ∧
    clauseColumns (columnsNamed out.columns ["kind", "AT"]) = [c] ∧ c.name.name = "at" ∧ c.notNull = true ∧
    ∃ id ∈ model.columns, columnNamed? out.columns id.name = some c := by
  obtain ⟨out, model, _, names, fired, keyed, _, _, sourced, _, _, clause⟩ :=
    partitions_follow_source ⟨{ name := "postgres" }, { name := "doris" }, .ok⟩ eventTable rfl rfl rfl
    (by simp [eventTable])
  obtain rfl := (sourced _).mp eventTable_names
  have table := eq_ofTable_of_fires (by rfl) (by rfl) (by rfl) fired
  have named : (clauseColumns (columnsNamed out.columns ["kind", "AT"])).map (·.name.name) = ["at"] := by
    rw [table]
    decide +kernel
  obtain ⟨c, shape, name⟩ := List.map_eq_singleton_iff.mp named
  obtain ⟨_, some, covered⟩ := clause c (by rw [shape]; exact List.mem_singleton_self c)
  have unique : model.kind = "UNIQUE" := by
    have kind : out.keyModel.map (·.kind) = Option.some "UNIQUE" := by
      rw [table]
      decide +kernel
    rw [keyed] at kind
    exact Option.some.inj kind
  refine ⟨out, model, c, fired, keyed, unique, ?_, shape, name, some, covered unique⟩
  rw [table]
  decide +kernel

end SqlDialects.Doris
