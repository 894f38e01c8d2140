import SqlDialects.Proofs.TableColumns

/-! The clauses of a Doris table and the columns they name. A name stands for the first column that agrees with it, and
neither the order of the columns nor a change of one in its place affects which column that is, so the clauses can be
compared with the finished table instead of the states in between. -/

namespace SqlDialects.Doris

variable {names keys : List String} {columns : List ColumnDef} {name : String} {c : ColumnDef}

/-! ### Columns by name -/

theorem columnNamed_agrees (found : columnNamed? columns name = some c) : Text.equalAscii c.name.name name = true := by
  simpa using List.find?_some found

theorem columnNamed_congr {other : String} (same : Text.equalAscii name other = true) :
    columnNamed? columns name = columnNamed? columns other := by
  simp only [columnNamed?, Text.equalAscii_eq same]

theorem columnNamed_self (found : columnNamed? columns name = some c) : columnNamed? columns c.name.name = some c :=
  (columnNamed_congr (columnNamed_agrees found)).trans found

/-- What a change that keeps the names makes of the columns, it makes of the one that a name stands for. -/
theorem columnNamed_map {f : ColumnDef → ColumnDef} (named : ∀ c, (f c).name = c.name) :
    columnNamed? (columns.map f) name = (columnNamed? columns name).map f := by
  simp only [columnNamed?, List.find?_map, Function.comp_def, named]

/-- A name that agrees with one of some names stands for the same column among theirs as among all. -/
private theorem columnNamed_listed (agrees : ∃ key ∈ keys, Text.equalAscii key name = true) :
    columnNamed? (keys.filterMap (columnNamed? columns)) name = columnNamed? columns name := by
  obtain ⟨key, member, same⟩ := agrees
  cases found : columnNamed? columns name with
  | none =>
    refine List.find?_eq_none.mpr fun c inside => ?_
    obtain ⟨_, _, listed⟩ := List.mem_filterMap.mp inside
    exact List.find?_eq_none.mp found c (List.mem_of_find?_eq_some listed)
  | some c =>
    have first : columnNamed? columns key = some c := (columnNamed_congr same).trans found
    have inside : c ∈ keys.filterMap (columnNamed? columns) := List.mem_filterMap.mpr ⟨key, member, first⟩
    cases search : columnNamed? (keys.filterMap (columnNamed? columns)) name with
    | none => exact absurd (columnNamed_agrees found) (by simpa using List.find?_eq_none.mp search c inside)
    | some d =>
      obtain ⟨other, _, listed⟩ := List.mem_filterMap.mp (List.mem_of_find?_eq_some search)
      rw [← found, ← listed, ← columnNamed_congr (columnNamed_agrees listed),
        columnNamed_congr (columnNamed_agrees search)]

/-- To put the key columns first changes no column that a name stands for. -/
theorem columnNamed_ordered (distinct : Distinct keys) (name : String) :
    columnNamed? (ordered columns keys) name = columnNamed? columns name := by
  obtain ⟨rest, shape, kept, perm⟩ := ordered_eq columns distinct
  by_cases agrees : ∃ key ∈ keys, Text.equalAscii key name = true
  · cases found : columnNamed? columns name with
    | none => exact List.find?_eq_none.mpr fun c member => List.find?_eq_none.mp found c (perm.subset member)
    | some c =>
      have first : columnNamed? (keys.filterMap (columnNamed? columns)) name = some c :=
        (columnNamed_listed agrees).trans found
      rw [columnNamed?] at first
      rw [shape, columnNamed?, List.find?_append, first, Option.some_or]
  · -- No column of the name is among those in front, so those of the name are the same in the same order.
    let agree (c : ColumnDef) : Bool := Text.equalAscii c.name.name name
    have front : (keys.filterMap (columnNamed? columns)).filter agree = [] := by
      refine List.filter_eq_nil_iff.mpr fun c inside same => agrees ?_
      obtain ⟨key, member, found⟩ := List.mem_filterMap.mp inside
      refine ⟨key, member, ?_⟩
      rw [← Text.equalAscii_eq same]
      exact Text.equalAscii_symm (columnNamed_agrees found)
    have all : (rest.filter agree).Perm (columns.filter agree) := by
      have filtered := perm.filter agree
      rwa [shape, List.filter_append, front, List.nil_append] at filtered
    have same : rest.filter agree = columns.filter agree := (kept.filter agree).eq_of_length all.length_eq
    rw [shape, columnNamed?, columnNamed?, ← List.head?_filter, ← List.head?_filter, List.filter_append]
    change ((keys.filterMap (columnNamed? columns)).filter agree ++ rest.filter agree).head? =
      (columns.filter agree).head?
    rw [front, List.nil_append, same]

/-! ### Changes in place -/

section

variable {f : ColumnDef → ColumnDef}

theorem getElem?_foldl_modify (again : ∀ c, f (f c) = f c) (places : List Nat) (columns : List ColumnDef) (i : Nat) :
    (places.foldl (fun columns i => columns.modify i f) columns)[i]? =
      columns[i]?.map (if i ∈ places then f else id) := by
  induction places generalizing columns with
  | nil => simp
  | cons place places ih =>
    rw [List.foldl_cons, ih, List.getElem?_modify, Option.map_eq_map, Option.map_map]
    refine congrArg (Option.map · columns[i]?) (funext fun c => ?_)
    by_cases here : place = i
    · subst here
      by_cases later : place ∈ places <;> simp [later, again]
    · simp [here, Ne.symm here]

theorem names_foldl_modify (named : ∀ c, (f c).name = c.name) (places : List Nat) (columns : List ColumnDef) :
    (places.foldl (fun columns i => columns.modify i f) columns).map (·.name) = columns.map (·.name) := by
  induction places generalizing columns with
  | nil => rfl
  | cons place places ih =>
    rw [List.foldl_cons, ih]
    refine List.ext_getElem? fun i => ?_
    rw [List.getElem?_map, List.getElem?_map, List.getElem?_modify, Option.map_eq_map, Option.map_map]
    refine congrArg (Option.map · columns[i]?) (funext fun c => ?_)
    by_cases here : place = i <;> simp [here, named]

end

theorem indexOf_congr {other : List ColumnDef} (names : columns.map (·.name) = other.map (·.name)) :
    indexOf? columns name = indexOf? other name := by
  have byName (columns : List ColumnDef) : indexOf? columns name =
      (columns.map (·.name)).findIdx? fun id => Text.equalAscii id.name name := by
    rw [List.findIdx?_map]
    rfl
  rw [byName, byName, names]

/-- What becomes of the column at a place, given the places of the partition clause and those of the keys. -/
def settled (chosen keyed : List Nat) (i : Nat) (c : ColumnDef) : ColumnDef :=
  if i ∈ chosen then asPartition c else if i ∈ keyed then narrow c else c

/-- A column keeps its place in the source, and whether it is a date. -/
private theorem narrow_keeps (c : ColumnDef) :
    (narrow c).pos = c.pos ∧ (narrow c).type.isTemporal = c.type.isTemporal := by
  unfold narrow
  split
  · next text =>
    simp only [TypeSpec.is, Bool.and_eq_true, beq_iff_eq] at text
    simp [TypeSpec.isTemporal, TypeSpec.is, text.2]
  · exact ⟨rfl, rfl⟩

theorem settled_keeps (chosen keyed : List Nat) (i : Nat) (c : ColumnDef) :
    (settled chosen keyed i c).name = c.name ∧ (settled chosen keyed i c).pos = c.pos ∧
      (settled chosen keyed i c).type.isTemporal = c.type.isTemporal := by
  unfold settled
  split
  · exact ⟨asPartition_name c, narrow_keeps { c with notNull := true }⟩
  split
  · exact ⟨narrow_name c, narrow_keeps c⟩
  · exact ⟨rfl, rfl, rfl⟩

theorem columnNamed_settled (distinct : Distinct keys) (chosen : List Nat) (name : String) :
    columnNamed? (ordered (narrowKeys (chosen.foldl (fun columns i => columns.modify i asPartition) columns) keys) keys)
      name = (indexOf? columns name).bind fun i =>
        columns[i]?.map (settled chosen (keys.filterMap (indexOf? columns)) i) := by
  have partitioned := names_foldl_modify asPartition_name chosen columns
  have narrowed := names_foldl_modify narrow_name (keys.filterMap (indexOf? columns))
    (chosen.foldl (fun columns i => columns.modify i asPartition) columns)
  have places : keys.filterMap (indexOf? (chosen.foldl (fun columns i => columns.modify i asPartition) columns)) =
      keys.filterMap (indexOf? columns) := List.filterMap_congr fun _ _ => indexOf_congr partitioned
  rw [columnNamed_ordered distinct, columnNamed_eq, narrowKeys, places, indexOf_congr (narrowed.trans partitioned)]
  refine congrArg (Option.bind _) (funext fun i => ?_)
  rw [getElem?_foldl_modify narrow_narrow, getElem?_foldl_modify asPartition_asPartition, Option.map_map]
  refine congrArg (Option.map · columns[i]?) (funext fun c => ?_)
  unfold settled
  by_cases inClause : i ∈ chosen <;> by_cases inKey : i ∈ keys.filterMap (indexOf? columns) <;>
    simp only [Function.comp_apply, inClause, inKey, if_true, if_false, narrow_asPartition, id]

/-! ### The partition clause -/

variable {t : CreateTable} {unit : String}

/-- The columns that the names of the source's partitions stand for. -/
def partitionColumns (t : CreateTable) (columns : List ColumnDef) : List ColumnDef :=
  (partitionNames t).filterMap (columnNamed? columns)

/-- The columns to partition by: the first one that is a date or a time, or all of them. -/
def clauseColumns (candidates : List ColumnDef) : List ColumnDef :=
  match candidates.find? (·.type.isTemporal) with
  | some c => [c]
  | none => candidates

/-- Partitions made as rows come in: ranges of the first column that is a date or a time, or one for every value of all
columns. -/
def automatic (unit : String) (candidates : List ColumnDef) : Partitioning :=
  match candidates.find? (·.type.isTemporal) with
  | some c =>
    { auto := true, method := "RANGE",
      exprs := [.call { pos := c.pos, name := "DATE_TRUNC", args := [.column c.pos [c.name], .str unit] }] }
  | none => { auto := true, method := "LIST", exprs := candidates.map fun c => .column c.pos [c.name] }

/-- How long a range of dates is. -/
def partitionUnit (t : CreateTable) : String :=
  match t.partitioning with
  | some p => if p.unit = "" then "day" else p.unit
  | none => "day"

/-- The places of the columns that the names of the source's partitions stand for. -/
def partitionPlaces (t : CreateTable) (columns : List ColumnDef) : List Nat :=
  (partitionNames t).filterMap (indexOf? columns)

/-- Those of the columns to partition by. -/
def clausePlaces (columns : List ColumnDef) (places : List Nat) : List Nat :=
  match places.find? fun i => columns[i]?.any (·.type.isTemporal) with
  | some i => [i]
  | none => places

private theorem column_of_find {places : List Nat} {i : Nat}
    (found : places.find? (fun i => columns[i]?.any (·.type.isTemporal)) = some i) : ∃ c, columns[i]? = some c := by
  have dated : columns[i]?.any (·.type.isTemporal) = true := by simpa using List.find?_some found
  exact ((Option.any_eq_true _ _).mp dated).imp fun _ both => both.1

section

variable {g : Nat → ColumnDef → ColumnDef} (temporal : ∀ i c, (g i c).type.isTemporal = c.type.isTemporal)
include temporal

private theorem find_temporal (columns : List ColumnDef) (places : List Nat) :
    (places.filterMap fun i => columns[i]?.map (g i)).find? (·.type.isTemporal) =
      (places.find? fun i => columns[i]?.any (·.type.isTemporal)).bind fun i => columns[i]?.map (g i) := by
  rw [List.find?_filterMap]
  simp only [Option.any_map, temporal]

/-- Changes of the columns that do not touch which of them are dates do not touch which are chosen. -/
theorem clauseColumns_changed (columns : List ColumnDef) (places : List Nat) :
    clauseColumns (places.filterMap fun i => columns[i]?.map (g i)) =
      (clausePlaces columns places).filterMap fun i => columns[i]?.map (g i) := by
  unfold clauseColumns clausePlaces
  rw [find_temporal temporal]
  cases found : places.find? fun i => columns[i]?.any (·.type.isTemporal) with
  | none => rfl
  | some i =>
    obtain ⟨c, here⟩ := column_of_find found
    simp [here]

theorem automatic_changed (named : ∀ i c, (g i c).name = c.name) (placed : ∀ i c, (g i c).pos = c.pos) (unit : String)
    (columns : List ColumnDef) (places : List Nat) :
    automatic unit (places.filterMap fun i => columns[i]?.map (g i)) =
      automatic unit (places.filterMap fun i => columns[i]?) := by
  have plain := find_temporal (g := fun _ c => c) (fun _ _ => rfl) columns places
  simp only [Option.map_id'] at plain
  unfold automatic
  rw [find_temporal temporal, plain]
  cases places.find? fun i => columns[i]?.any (·.type.isTemporal) with
  | none => simp [List.map_filterMap, Option.map_map, Function.comp_def, named, placed]
  | some i =>
    cases here : columns[i]? with
    | none => simp [here, List.map_filterMap, Option.map_map, Function.comp_def, named, placed]
    | some c => simp [here, named, placed]

end

theorem partitionColumns_eq (t : CreateTable) (columns : List ColumnDef) :
    partitionColumns t columns = (partitionPlaces t columns).filterMap fun i => columns[i]? := by
  rw [partitionColumns, partitionPlaces, List.filterMap_filterMap]
  exact List.filterMap_congr fun name _ => columnNamed_eq columns name

/-- The keys of the table: unique keys take in the columns of the partition clause. -/
def clauseKeys (t : CreateTable) (columns : List ColumnDef) (keys : Keys) : Keys :=
  if keys.model = "UNIQUE" then
    { keys with keys := addNames keys.keys ((clauseColumns (partitionColumns t columns)).map (·.name.name)) }
  else keys

theorem clauseKeys_model (t : CreateTable) (columns : List ColumnDef) (keys : Keys) :
    (clauseKeys t columns keys).model = keys.model := by
  unfold clauseKeys
  split <;> rfl

theorem clauseKeys_hash (t : CreateTable) (columns : List ColumnDef) (keys : Keys) :
    (clauseKeys t columns keys).hash = keys.hash := by
  unfold clauseKeys
  split <;> rfl

theorem distinct_clauseKeys {chosen : Keys} (distinct : Distinct chosen.keys) :
    Distinct (clauseKeys t columns chosen).keys := by
  unfold clauseKeys
  split
  · exact distinct_addNames distinct _
  · exact distinct

theorem choosePartition_eq (t : CreateTable) (columns : List ColumnDef) (keys : Keys) :
    choosePartition t columns keys =
      ((clausePlaces columns (partitionPlaces t columns)).foldl (fun columns i => columns.modify i asPartition) columns,
       clauseKeys t columns keys,
       if partitionPlaces t columns = [] then none
       else some (automatic (partitionUnit t) (partitionColumns t columns))) := by
  have clause := clauseColumns_changed (g := fun _ c => c) (fun _ _ => rfl) columns (partitionPlaces t columns)
  have found := find_temporal (g := fun _ c => c) (fun _ _ => rfl) columns (partitionPlaces t columns)
  simp only [Option.map_id', ← partitionColumns_eq] at clause found
  unfold choosePartition
  dsimp only
  rw [← partitionPlaces]
  split
  · next empty =>
    rw [List.isEmpty_iff] at empty
    simp [empty, clauseKeys, partitionColumns_eq, clausePlaces, clauseColumns, addNames]
  · next nonempty =>
    rw [List.isEmpty_iff] at nonempty
    rw [if_neg nonempty, clauseKeys, clause]
    -- The choice looks for a date by place, the clause by column.
    unfold automatic partitionUnit clausePlaces at *
    rw [found]
    cases first : (partitionPlaces t columns).find? fun i => columns[i]?.any (·.type.isTemporal) with
    | none => simp only [Option.bind_none, ← partitionColumns_eq]
    | some i =>
      obtain ⟨c, here⟩ := column_of_find first
      have chosen : [i].filterMap (columns[·]?) = [c] := by simp [here]
      dsimp only [Option.bind_some]
      rw [here, chosen]
      rfl

/-! ### The table -/

variable {leadingHash : Bool}

theorem chooseKeys_hashes (t : CreateTable) (leadingHash : Bool) (nonempty : columns ≠ []) :
    (chooseKeys t leadingHash columns).2.hash ≠ [] := by
  have leading : (leadingKey columns).2.hash ≠ [] := by
    unfold leadingKey
    split
    · contradiction
    · dsimp only
      split <;> exact List.cons_ne_nil _ _
  have some (names : List String) (filled : ¬names.isEmpty = true) : names ≠ [] ∧ names.take 1 ≠ [] := by
    cases names with
    | nil => exact absurd rfl filled
    | cons name names => simp
  unfold chooseKeys
  dsimp only
  split
  · next sorted => exact (some _ (by simpa using sorted)).2
  split
  · split
    · exact leading
    · next indexed => exact (some _ indexed).1
  · split
    · exact leading
    · next keyed =>
      dsimp only
      split
      · exact (some _ keyed).2
      · exact (some _ keyed).1

theorem chooseHash_nonempty (t : CreateTable) (columns : List ColumnDef) {keys : Keys} (hashed : keys.hash ≠ []) :
    chooseHash t columns keys ≠ [] := by
  unfold chooseHash
  dsimp only
  generalize List.filter _ _ = known
  split
  · exact hashed
  · next known => simpa using known

theorem mem_addNames {names more : List String} : name ∈ addNames names more → name ∈ names ∨ name ∈ more := by
  induction more generalizing names with
  | nil => exact .inl
  | cons other more ih =>
    intro member
    obtain inside | later := @ih (addName names other) member
    · unfold addName at inside
      split at inside
      · exact .inl inside
      · exact (List.mem_append.mp inside).imp_right fun here => by simp [List.mem_singleton.mp here]
    · exact .inr (List.mem_cons_of_mem other later)

/-- Every name that is added is there, up to case. -/
theorem agrees_addNames {more : List String}
    (sofar : (∃ key ∈ names, Text.equalAscii key name = true) ∨ name ∈ more) :
    ∃ key ∈ addNames names more, Text.equalAscii key name = true := by
  induction more generalizing names with
  | nil => exact sofar.resolve_right List.not_mem_nil
  | cons other more ih =>
    refine @ih (addName names other) ?_
    unfold addName
    split
    · next known =>
      obtain ⟨key, inside, same⟩ := List.any_eq_true.mp known
      obtain there | here := sofar
      · exact .inl there
      · exact (List.mem_cons.mp here).imp (fun equal => ⟨key, inside, by rwa [equal]⟩) id
    · obtain ⟨key, inside, same⟩ | here := sofar
      · exact .inl ⟨key, List.mem_append_left _ inside, same⟩
      · refine (List.mem_cons.mp here).imp (fun equal => ⟨other, by simp, ?_⟩) id
        rw [equal]
        exact Text.equalAscii_iff.mpr rfl

/-- What is settled about a Doris table: how its columns come from those in Doris's form, what its keys stand for, and
its clauses. -/
structure Settled (t out : CreateTable) (columns : List ColumnDef) (keys : Keys) (ids : List Ident) : Prop where
  named : ∀ name, columnNamed? out.columns name = (indexOf? columns name).bind fun i => columns[i]?.map
    (settled (clausePlaces columns (partitionPlaces t columns)) (keys.keys.filterMap (indexOf? columns)) i)
  model : out.keyModel = some ⟨keys.model, ids⟩
  listed : ∀ key ∈ keys.keys, ∃ id ∈ ids, columnNamed? out.columns id.name = columnNamed? out.columns key
  standFor : ∀ id ∈ ids, ∃ key ∈ keys.keys, columnNamed? out.columns id.name = columnNamed? out.columns key
  covers : keys.model = "UNIQUE" → ∀ c ∈ clauseColumns (partitionColumns t columns),
    ∃ key ∈ keys.keys, Text.equalAscii key c.name.name = true
  partitioning : out.partitioning = if partitionPlaces t columns = [] then none
    else some (automatic (partitionUnit t) (partitionColumns t columns))
  hashes : ∃ buckets, out.distribution = some buckets ∧ buckets.columns ≠ []

private theorem settled_of_keys {keys : Keys} (properties : List Property) (nonempty : t.columns ≠ [])
    (chosen : chooseKeys t leadingHash ((declaredColumns t).map column) = (columns, keys))
    (distinct : Distinct keys.keys)
    (hashed : keys.hash ≠ []) :
    ∃ ids, Settled t (ofTable t leadingHash properties) columns (clauseKeys t columns keys) ids := by
  have table := ofTable_eq properties nonempty chosen (choosePartition_eq t columns keys)
  have distinct' : Distinct (clauseKeys t columns keys).keys := distinct_clauseKeys distinct
  have same (key : String) : ∀ final : List ColumnDef, columnNamed? (ordered final (clauseKeys t columns keys).keys)
      (identOf final key).name = columnNamed? (ordered final (clauseKeys t columns keys).keys) key := by
    intro final
    rw [columnNamed_ordered distinct', columnNamed_identOf, columnNamed_ordered distinct']
  rw [table]
  exact ⟨_, {
    named := columnNamed_settled distinct' _
    model := rfl
    listed := fun key member => ⟨_, List.mem_map_of_mem member, same key _⟩
    standFor := fun id member => by
      obtain ⟨key, inside, rfl⟩ := List.mem_map.mp member
      exact ⟨key, inside, same key _⟩
    covers := fun unique c member => by
      rw [clauseKeys_model] at unique
      rw [clauseKeys, if_pos unique]
      exact agrees_addNames (.inr (List.mem_map_of_mem member))
    partitioning := rfl
    hashes := ⟨_, rfl, by simpa using chooseHash_nonempty t _ (by rwa [clauseKeys_hash])⟩ }⟩

theorem ofTable_settled (t : CreateTable) (leadingHash : Bool) (properties : List Property) {first : ColumnDef}
    {others : List ColumnDef} (listed : t.columns = first :: others) : ∃ added keys ids, Added t first added ∧
      chooseKeys t leadingHash ((declaredColumns t).map column) = ((added ++ declaredColumns t).map column, keys) ∧
      Settled t (ofTable t leadingHash properties) ((added ++ declaredColumns t).map column)
        (clauseKeys t ((added ++ declaredColumns t).map column) keys) ids := by
  obtain ⟨more, declared⟩ := declaredColumns_cons listed
  obtain ⟨added, keys, chosen, stands, distinct⟩ := chooseKeys_spec t leadingHash (column first) (more.map column)
  have unmoved : added.map column = added := by
    obtain ⟨_, rfl⟩ | ⟨_, rfl⟩ := stands <;> rfl
  rw [← List.map_cons, ← declared, ← unmoved, ← List.map_append] at chosen
  have filled : (declaredColumns t).map column ≠ [] := by simp [declared]
  have hashed := chooseKeys_hashes t leadingHash filled
  rw [chosen] at hashed
  obtain ⟨ids, settled⟩ :=
    settled_of_keys properties (listed ▸ List.cons_ne_nil first others) chosen distinct hashed
  exact ⟨added, keys, ids, stands.of_column, chosen, settled⟩

namespace Settled

variable {out : CreateTable} {keys : Keys} {ids : List Ident}

theorem known_iff (settled : Settled t out columns keys ids) (name : String) :
    (columnNamed? out.columns name).isSome ↔ (indexOf? columns name).isSome := by
  rw [settled.named]
  cases found : indexOf? columns name with
  | none => simp
  | some i =>
    have inside : i < columns.length := (List.findIdx?_eq_some_iff_getElem.mp found).1
    simp [inside]

theorem partitioned_iff (settled : Settled t out columns keys ids) :
    out.partitioning.isSome ↔ ∃ name ∈ partitionNames t, (columnNamed? out.columns name).isSome := by
  have clause : out.partitioning.isSome ↔ partitionPlaces t columns ≠ [] := by
    rw [settled.partitioning]
    split <;> simp_all
  rw [clause, partitionPlaces, ne_eq, List.filterMap_eq_nil_iff]
  simp only [settled.known_iff, not_forall, exists_prop, Option.isSome_iff_ne_none]

theorem partitionColumns_eq (settled : Settled t out columns keys ids) :
    partitionColumns t out.columns = (partitionPlaces t columns).filterMap fun i => columns[i]?.map
      (Doris.settled (clausePlaces columns (partitionPlaces t columns)) (keys.keys.filterMap (indexOf? columns)) i) :=
      by
  rw [partitionColumns, partitionPlaces, List.filterMap_filterMap]
  exact List.filterMap_congr fun name _ => settled.named name

/-- The clause is made from the columns as they were, and they are the same for it in the end. -/
theorem automatic_eq (settled : Settled t out columns keys ids) :
    automatic (partitionUnit t) (partitionColumns t out.columns) =
      automatic (partitionUnit t) (partitionColumns t columns) := by
  rw [settled.partitionColumns_eq, automatic_changed (fun i c => (settled_keeps _ _ i c).2.2)
    (fun i c => (settled_keeps _ _ i c).1) (fun i c => (settled_keeps _ _ i c).2.1), ← Doris.partitionColumns_eq]

theorem clause_eq (settled : Settled t out columns keys ids) :
    clauseColumns (partitionColumns t out.columns) = (clauseColumns (partitionColumns t columns)).map asPartition := by
  have unmoved := clauseColumns_changed (g := fun _ c => c) (fun _ _ => rfl) columns (partitionPlaces t columns)
  simp only [Option.map_id', ← Doris.partitionColumns_eq] at unmoved
  rw [settled.partitionColumns_eq, clauseColumns_changed fun i c => (settled_keeps _ _ i c).2.2,
    unmoved, List.map_filterMap]
  refine List.filterMap_congr fun i member => congrArg (Option.map · columns[i]?) (funext fun c => ?_)
  rw [Doris.settled, if_pos member]

end Settled

theorem mem_of_mem_clause {candidates : List ColumnDef} (member : c ∈ clauseColumns candidates) : c ∈ candidates := by
  unfold clauseColumns at member
  split at member
  · next found =>
    obtain rfl := List.mem_singleton.mp member
    exact List.mem_of_find?_eq_some found
  · exact member

end SqlDialects.Doris
