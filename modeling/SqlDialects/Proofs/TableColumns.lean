import Mathlib.Data.List.Forall2
import Mathlib.Data.List.Perm.Basic
import SqlDialects.Doris.Rules
import SqlDialects.Engine

/-! The columns of a Doris table. Three rounds of choices go over the columns of a table of another dialect: for the
key, which may put a surrogate in front of them, for the partitions and for the narrow types of the keys. Each changes
columns in their places, and the last step moves places without losing or repeating one: the key names are distinct,
so no two of them stand for one column. -/

namespace SqlDialects

/-! ### Names -/

namespace Text

variable {a b c : String}

theorem equalAscii_iff : equalAscii a b = true ↔ a.toList.map Char.toLower = b.toList.map Char.toLower := by
  rw [equalAscii, beq_iff_eq]

theorem equalAscii_symm (same : equalAscii a b = true) : equalAscii b a = true :=
  equalAscii_iff.mpr (equalAscii_iff.mp same).symm

/-- Names that agree with one name agree with one another. -/
theorem equalAscii_eq (same : equalAscii a b = true) (c : String) : equalAscii c a = equalAscii c b := by
  rw [equalAscii, equalAscii, equalAscii_iff.mp same]

end Text

namespace Doris

variable {names keys : List String} {columns : List ColumnDef}

/-- No two of the names agree up to the case of ASCII letters. -/
def Distinct (names : List String) : Prop := names.Pairwise fun a b => Text.equalAscii a b = false

theorem distinct_addName (distinct : Distinct names) (name : String) : Distinct (addName names name) := by
  unfold addName
  split
  · exact distinct
  · next fresh =>
    refine List.pairwise_append.mpr ⟨distinct, List.pairwise_singleton _ _, ?_⟩
    intro a member b isName
    obtain rfl := List.mem_singleton.mp isName
    simp only [List.any_eq_true, not_exists, not_and] at fresh
    exact Bool.eq_false_iff.mpr (fresh a member)

theorem distinct_addNames (distinct : Distinct names) (more : List String) : Distinct (addNames names more) := by
  induction more generalizing names with
  | nil => exact distinct
  | cons name more ih => exact ih (distinct_addName distinct name)

theorem distinct_nil : Distinct [] := .nil

theorem addNames_eq_nil {more : List String} : addNames names more = [] ↔ names = [] ∧ more = [] := by
  induction more generalizing names with
  | nil => simp [addNames]
  | cons name more ih =>
    have grows : addName names name ≠ [] := by
      unfold addName
      split
      · next found =>
        rintro rfl
        simp at found
      · simp
    change addNames (addName names name) more = [] ↔ _
    rw [ih]
    simp [grows]

/-- The column that a name stands for. -/
def columnNamed? (columns : List ColumnDef) (name : String) : Option ColumnDef :=
  columns.find? fun c => Text.equalAscii c.name.name name

theorem columnNamed_eq (columns : List ColumnDef) (name : String) :
    columnNamed? columns name = (indexOf? columns name).bind (columns[·]?) := List.find?_eq_bind_findIdx?_getElem?

/-- A key's identifier stands for the column that the key stands for. -/
theorem columnNamed_identOf (columns : List ColumnDef) (name : String) :
    columnNamed? columns (identOf columns name).name = columnNamed? columns name := by
  unfold identOf
  split
  · next c found =>
    have same : Text.equalAscii c.name.name name = true := by simpa using List.find?_some found
    unfold columnNamed?
    simp only [Text.equalAscii_eq same]
  · rfl

/-! ### Places -/

theorem indexOf_distinct (distinct : Distinct names) : (names.filterMap (indexOf? columns)).Nodup := by
  refine distinct.filterMap _ ?_
  rintro a b different i first _ second rfl
  obtain ⟨inside, one, _⟩ := List.findIdx?_eq_some_iff_getElem.mp first
  obtain ⟨_, other, _⟩ := List.findIdx?_eq_some_iff_getElem.mp second
  rw [← Text.equalAscii_eq other, Text.equalAscii_symm one] at different
  cases different

/-- The places with the place of one more name. -/
def place (columns : List ColumnDef) (placed : List Nat) (name : String) : List Nat :=
  match indexOf? columns name with
  | some i => if placed.contains i then placed else placed ++ [i]
  | none => placed

/-- The columns at some places, and then the others. -/
def placedFirst (columns : List ColumnDef) (placed : List Nat) : List ColumnDef :=
  placed.filterMap (columns[·]?) ++ (columns.zipIdx.filter fun (_, i) => !placed.contains i).map (·.1)

theorem ordered_eq_placedFirst (columns : List ColumnDef) (keys : List String) :
    ordered columns keys = placedFirst columns (keys.foldl (place columns) []) := rfl

private theorem foldl_place {placed : List Nat} (fresh : (placed ++ keys.filterMap (indexOf? columns)).Nodup) :
    keys.foldl (place columns) placed = placed ++ keys.filterMap (indexOf? columns) := by
  induction keys generalizing placed with
  | nil => simp
  | cons name rest ih =>
    rw [List.filterMap_cons] at fresh ⊢
    rw [List.foldl_cons, place]
    cases found : indexOf? columns name with
    | none =>
      rw [found] at fresh
      exact ih fresh
    | some i =>
      rw [found] at fresh
      have unplaced : i ∉ placed := fun member => (List.nodup_append.mp fresh).2.2 i member i List.mem_cons_self rfl
      have split : placed ++ i :: rest.filterMap (indexOf? columns) =
          placed ++ [i] ++ rest.filterMap (indexOf? columns) := by simp
      rw [split] at fresh
      dsimp only
      rw [if_neg (by simpa using unplaced), split]
      exact ih fresh

private theorem columns_at {marked : List (ColumnDef × Nat)} (inside : marked ⊆ columns.zipIdx) :
    marked.map (·.1) = (marked.map (·.2)).filterMap (columns[·]?) := by
  rw [List.filterMap_map, ← List.filterMap_eq_map]
  refine List.filterMap_congr fun x member => ?_
  exact (List.mem_zipIdx_iff_getElem?.mp (inside member)).symm

theorem placedFirst_perm {placed : List Nat} (distinct : placed.Nodup) (known : ∀ i ∈ placed, i < columns.length) :
    (placedFirst columns placed).Perm columns := by
  have marked : (columns.zipIdx.filter fun (_, i) => placed.contains i).map (·.1) =
      ((List.range columns.length).filter placed.contains).filterMap (columns[·]?) := by
    rw [columns_at (List.filter_subset_self _), List.range_eq_range', ← List.zipIdx_map_snd, List.filter_map]
    rfl
  have same : placed.Perm ((List.range columns.length).filter placed.contains) := by
    refine (List.perm_ext_iff_of_nodup distinct (List.nodup_range.filter _)).mpr fun i => ?_
    simp only [List.mem_filter, List.mem_range, List.contains_eq_mem, decide_eq_true_eq]
    exact ⟨fun member => ⟨known i member, member⟩, fun both => both.2⟩
  have whole := (List.filter_append_perm (fun (_, i) => placed.contains i) columns.zipIdx).map Prod.fst
  rw [List.zipIdx_map_fst, List.map_append, marked] at whole
  exact ((same.filterMap _).append_right _).trans whole

theorem placedFirst_sublist (columns : List ColumnDef) (placed : List Nat) :
    ∃ rest, placedFirst columns placed = placed.filterMap (columns[·]?) ++ rest ∧ rest.Sublist columns := by
  refine ⟨_, rfl, ?_⟩
  have kept := (List.filter_sublist (l := columns.zipIdx) (p := fun (_, i) => !placed.contains i)).map Prod.fst
  rwa [List.zipIdx_map_fst] at kept

/-- The columns that distinct keys stand for come first, and the others after them in their order. -/
theorem ordered_eq (columns : List ColumnDef) (distinct : Distinct keys) : ∃ rest,
    ordered columns keys = keys.filterMap (columnNamed? columns) ++ rest ∧ rest.Sublist columns ∧
      (ordered columns keys).Perm columns := by
  have nodup : (keys.filterMap (indexOf? columns)).Nodup := indexOf_distinct distinct
  have known : ∀ i ∈ keys.filterMap (indexOf? columns), i < columns.length := by
    intro i member
    obtain ⟨name, _, found⟩ := List.mem_filterMap.mp member
    exact (List.findIdx?_eq_some_iff_getElem.mp found).1
  have first : (keys.filterMap (indexOf? columns)).filterMap (columns[·]?) = keys.filterMap (columnNamed? columns) := by
    rw [List.filterMap_filterMap]
    exact List.filterMap_congr fun name _ => (columnNamed_eq columns name).symm
  obtain ⟨rest, shape, kept⟩ := placedFirst_sublist columns (keys.filterMap (indexOf? columns))
  have whole : ordered columns keys = placedFirst columns (keys.filterMap (indexOf? columns)) := by
    rw [ordered_eq_placedFirst, foldl_place (by simpa using nodup), List.nil_append]
  rw [whole]
  exact ⟨rest, by rw [shape, first], kept, placedFirst_perm nodup known⟩

/-! ### Changes in place -/

section

variable {f : ColumnDef → ColumnDef}

private theorem modify_each (again : ∀ c, f (f c) = f c) {original : List ColumnDef}
    (changed : List.Forall₂ (fun c d => d = c ∨ d = f c) original columns) (i : Nat) :
    List.Forall₂ (fun c d => d = c ∨ d = f c) original (columns.modify i f) := by
  induction changed generalizing i with
  | nil => simp
  | @cons c d original columns same rest ih =>
    cases i with
    | succ i => exact .cons same (ih i)
    | zero =>
      refine .cons (.inr ?_) rest
      obtain rfl | rfl := same
      · rfl
      · exact again c

theorem foldl_modify_each (again : ∀ c, f (f c) = f c) (places : List Nat) (columns : List ColumnDef) :
    List.Forall₂ (fun c d => d = c ∨ d = f c) columns (places.foldl (fun columns i => columns.modify i f) columns) := by
  suffices ∀ changed, List.Forall₂ (fun c d => d = c ∨ d = f c) columns changed →
      List.Forall₂ (fun c d => d = c ∨ d = f c) columns
      (places.foldl (fun columns i => columns.modify i f) changed) from
    this columns (List.forall₂_same.mpr fun _ _ => .inl rfl)
  induction places with
  | nil => exact fun _ changed => changed
  | cons i places ih => exact fun changed sofar => ih _ (modify_each again sofar i)

end

/-! ### The choices -/

theorem narrow_narrow (c : ColumnDef) : narrow (narrow c) = narrow c := by
  unfold narrow
  split
  · rw [if_neg (by simp [TypeSpec.is])]
  · rfl

/-- To narrow the type of a column and to require a value of it are changes of different fields. -/
theorem asPartition_eq (c : ColumnDef) : asPartition c = { narrow c with notNull := true } := by
  unfold asPartition narrow
  dsimp only
  split <;> rfl

theorem asPartition_asPartition (c : ColumnDef) : asPartition (asPartition c) = asPartition c := by
  rw [asPartition_eq (asPartition c), asPartition, narrow_narrow, ← asPartition, asPartition_eq]

theorem narrow_asPartition (c : ColumnDef) : narrow (asPartition c) = asPartition c := narrow_narrow _

theorem narrow_name (c : ColumnDef) : (narrow c).name = c.name := by
  unfold narrow
  split <;> rfl

theorem asPartition_name (c : ColumnDef) : (asPartition c).name = c.name := narrow_name _

theorem surrogate_unchanged (first : ColumnDef) :
    narrow (surrogate first) = surrogate first ∧ asPartition (surrogate first) = surrogate first := ⟨rfl, rfl⟩

/-- Whether a type can be a key does not change with the width of its characters. -/
theorem isComplex_columnType (t : TypeSpec) : (columnType t).isComplex = t.isComplex := by
  unfold columnType
  split
  · next native _ =>
    split
    · next name =>
      dsimp only
      split <;> simp [TypeSpec.isComplex, native, name]
    split
    · next name =>
      dsimp only
      split <;> simp [TypeSpec.isComplex, native, name]
    · rfl
  · rfl

variable {t : CreateTable} {leadingHash : Bool}

/-- Nothing names a key, so the first column is one. A `MULTISET` table has no key but its primary index. -/
structure LeadsWithFirst (t : CreateTable) : Prop where
  unsorted : ∀ e ∈ t.sortKey, e.firstColumn? = none
  unindexed : t.primaryIndex = []
  unkeyed : t.rowSemantics = "MULTISET" ∨ (∀ c ∈ t.columns, c.primaryKey = false ∧ c.unique = false) ∧
    ∀ c ∈ t.constraints, c.kind = .primaryKey ∨ c.kind = .unique → c.columns = []

/-- The names of unique keys: those marked at columns, those of constraints and those of the primary index. -/
def uniqueNames (t : CreateTable) : List String :=
  let marked := (t.columns.filter fun c => c.primaryKey || c.unique).map (·.name.name)
  let declared := (t.constraints.filter fun c => c.kind = .primaryKey || c.kind = .unique).flatMap
    fun c => c.columns.map Ident.name
  addNames (addNames (addNames [] marked) declared) (addNames [] (t.primaryIndex.map Ident.name))

theorem uniqueNames_eq_nil : uniqueNames t = [] ↔
    ((∀ c ∈ t.columns, c.primaryKey = false ∧ c.unique = false) ∧
      ∀ c ∈ t.constraints, c.kind = .primaryKey ∨ c.kind = .unique → c.columns = []) ∧ t.primaryIndex = [] := by
  simp [uniqueNames, addNames_eq_nil, List.filter_eq_nil_iff, List.flatMap_eq_nil_iff]

/-- What stands in front of the columns: a surrogate exactly if the first column has to be the key and cannot be. -/
def Added (t : CreateTable) (first : ColumnDef) (added : List ColumnDef) : Prop :=
  (LeadsWithFirst t ∧ first.type.isComplex = true) ∧ added = [surrogate first] ∨
    ¬(LeadsWithFirst t ∧ first.type.isComplex = true) ∧ added = []

private theorem leadingKey_spec (leads : LeadsWithFirst t) (first : ColumnDef) (rest : List ColumnDef) :
    ∃ added keys, leadingKey (first :: rest) = (added ++ first :: rest, keys) ∧ Added t first added ∧
      Distinct keys.keys := by
  unfold leadingKey
  dsimp only
  split
  · next complex => exact ⟨[surrogate first], _, rfl, .inl ⟨⟨leads, complex⟩, rfl⟩, List.pairwise_singleton _ _⟩
  · next simple => exact ⟨[], _, rfl, .inr ⟨fun both => simple both.2, rfl⟩, List.pairwise_singleton _ _⟩

private theorem named_spec {keys : Keys} (named : ¬LeadsWithFirst t) (distinct : Distinct keys.keys) (first : ColumnDef)
    (rest : List ColumnDef) : ∃ added keys', (first :: rest, keys) = (added ++ first :: rest, keys') ∧
      Added t first added ∧ Distinct keys'.keys :=
  ⟨[], keys, rfl, .inr ⟨fun both => named both.1, rfl⟩, distinct⟩

theorem chooseKeys_spec (t : CreateTable) (leadingHash : Bool) (first : ColumnDef) (rest : List ColumnDef) :
    ∃ added keys, chooseKeys t leadingHash (first :: rest) = (added ++ first :: rest, keys) ∧
      Added t first added ∧ Distinct keys.keys := by
  have empty : ∀ names : List String, (addNames [] names).isEmpty = true ↔ names = [] := by
    simp [addNames_eq_nil]
  unfold chooseKeys
  dsimp only
  split
  · next sorted =>
    refine named_spec (fun leads => ?_) (distinct_addNames distinct_nil _) first rest
    rw [Bool.not_eq_true', Bool.eq_false_iff, ne_eq, empty, List.filterMap_eq_nil_iff] at sorted
    exact sorted leads.unsorted
  next unsorted =>
  rw [Bool.not_eq_true', Bool.not_eq_false, empty, List.filterMap_eq_nil_iff] at unsorted
  split
  · next multiset =>
    split
    · next unindexed =>
      rw [empty, List.map_eq_nil_iff] at unindexed
      exact leadingKey_spec ⟨unsorted, unindexed, .inl multiset⟩ first rest
    · next indexed =>
      refine named_spec (fun leads => indexed ?_) (distinct_addNames distinct_nil _) first rest
      rw [empty, leads.unindexed, List.map_nil]
  · next single =>
    split
    · next free =>
      obtain ⟨unkeyed, unindexed⟩ := uniqueNames_eq_nil.mp (List.isEmpty_iff.mp free)
      exact leadingKey_spec ⟨unsorted, unindexed, .inr unkeyed⟩ first rest
    · next keyed =>
      refine named_spec (fun leads => keyed ?_)
        (distinct_addNames (distinct_addNames (distinct_addNames distinct_nil _) _) _) first rest
      exact List.isEmpty_iff.mpr (uniqueNames_eq_nil.mpr ⟨leads.unkeyed.resolve_left single, leads.unindexed⟩)

theorem choosePartition_spec (t : CreateTable) (columns : List ColumnDef)
    {keys : Keys} (distinct : Distinct keys.keys) :
    ∃ changed keys' partitioning, choosePartition t columns keys = (changed, keys', partitioning) ∧
      List.Forall₂ (fun c d => d = c ∨ d = asPartition c) columns changed ∧ Distinct keys'.keys := by
  unfold choosePartition
  dsimp only
  split
  · exact ⟨columns, keys, none, rfl, List.forall₂_same.mpr fun _ _ => .inl rfl, distinct⟩
  · refine ⟨_, _, _, rfl, foldl_modify_each asPartition_asPartition _ columns, ?_⟩
    split
    · exact distinct_addNames distinct _
    · exact distinct

/-! ### The table -/

/-- The columns that a table declares: its own ones and those that it is partitioned by. -/
def declaredColumns (t : CreateTable) : List ColumnDef :=
  match t.partitioning with
  | some p => t.columns ++ p.columns
  | none => t.columns

theorem declaredColumns_cons {first : ColumnDef} {others : List ColumnDef} (listed : t.columns = first :: others) :
    ∃ more, declaredColumns t = first :: more := by
  unfold declaredColumns
  split
  · exact ⟨others ++ _, by rw [listed]; rfl⟩
  · exact ⟨others, listed⟩

/-- A column in Doris's form. A key or partition column cannot be `STRING`, and a partition column has a value. -/
def Converts (c d : ColumnDef) : Prop := d = column c ∨ d = narrow (column c) ∨ d = asPartition (column c)

private theorem converts_of_changes {original changed final : List ColumnDef}
    (first : List.Forall₂ (fun c d => d = c ∨ d = asPartition c) original changed)
    (second : List.Forall₂ (fun c d => d = c ∨ d = narrow c) changed final) :
    List.Forall₂ (fun c d => d = c ∨ d = narrow c ∨ d = asPartition c) original final := by
  induction first generalizing final with
  | nil =>
    cases second
    exact .nil
  | @cons c d original changed same _ ih =>
    cases second with
    | cons narrowed later =>
      refine .cons ?_ (ih later)
      obtain rfl | rfl := same
      · exact narrowed.imp_right .inl
      · rw [narrow_asPartition] at narrowed
        exact .inr (.inr (narrowed.elim id id))

/-- The choices leave what has been added in front as it is. -/
private theorem split_added {first : ColumnDef} {added columns final : List ColumnDef} (stands : Added t first added)
    (changed : List.Forall₂ (fun c d => d = c ∨ d = narrow c ∨ d = asPartition c) (added ++ columns) final) :
    ∃ converted, final = added ++ converted ∧
      List.Forall₂ (fun c d => d = c ∨ d = narrow c ∨ d = asPartition c) columns converted := by
  obtain ⟨_, rfl⟩ | ⟨_, rfl⟩ := stands
  · cases changed with
    | @cons _ d _ converted same rest =>
      obtain ⟨narrowed, partitioned⟩ := surrogate_unchanged first
      rw [narrowed, partitioned, or_self, or_self] at same
      exact ⟨converted, by rw [same]; rfl, rest⟩
  · exact ⟨final, rfl, changed⟩

/-- The columns with narrow types for the keys. -/
def narrowKeys (columns : List ColumnDef) (keys : List String) : List ColumnDef :=
  (keys.filterMap (indexOf? columns)).foldl (fun columns i => columns.modify i narrow) columns

/-- The table that comes of the choices. -/
theorem ofTable_eq {columns changed : List ColumnDef} {keys keys' : Keys} {partitioning : Option Partitioning}
    (properties : List Property) (nonempty : t.columns ≠ [])
    (chosen : chooseKeys t leadingHash ((declaredColumns t).map column) = (columns, keys))
    (parted : choosePartition t columns keys = (changed, keys', partitioning)) :
    ofTable t leadingHash properties = { t with
      comment := none, constraints := [], sortKey := [], properties
      columns := ordered (narrowKeys changed keys'.keys) keys'.keys
      keyModel := some ⟨keys'.model, keys'.keys.map (identOf (narrowKeys changed keys'.keys))⟩
      partitioning
      distribution := some
        { columns := (chooseHash t changed keys').map (identOf (narrowKeys changed keys'.keys)) } } := by
  have listed : t.columns.isEmpty = false := by simpa using nonempty
  unfold declaredColumns at chosen
  split at chosen
  · next p clause =>
    simp only [ofTable, listed, clause, chosen, parted, narrowKeys, Bool.false_eq_true, if_false]
  · next clause =>
    simp only [ofTable, listed, clause, chosen, parted, narrowKeys, Bool.false_eq_true, if_false]

/-- Whether a surrogate is needed can be told before the columns are in Doris's form. -/
theorem Added.of_column {first : ColumnDef} {added : List ColumnDef} (stands : Added t (column first) added) :
    Added t first added := by
  unfold Added at stands ⊢
  rwa [show (column first).type = columnType first.type from rfl, isComplex_columnType] at stands

/-- What a table's declared columns become: the surrogate, if there is one, and the columns in Doris's form, those that
the key names stand for first. -/
theorem ofTable_columns (t : CreateTable) (leadingHash : Bool) (properties : List Property) {first : ColumnDef}
    {others : List ColumnDef} (listed : t.columns = first :: others) :
    ∃ model added converted rest, (ofTable t leadingHash properties).keyModel = some model ∧ Added t first added ∧
      List.Forall₂ Converts (declaredColumns t) converted ∧
      (ofTable t leadingHash properties).columns.Perm (added ++ converted) ∧
      (ofTable t leadingHash properties).columns =
        model.columns.filterMap (fun id => columnNamed? (added ++ converted) id.name) ++ rest ∧
      rest.Sublist (added ++ converted) := by
  obtain ⟨more, declared⟩ := declaredColumns_cons listed
  obtain ⟨added, keys, chosen, stands, distinct⟩ := chooseKeys_spec t leadingHash (column first) (more.map column)
  obtain ⟨changed, keys', partitioning, parted, each, distinct'⟩ :=
    choosePartition_spec t (added ++ column first :: more.map column) distinct
  have narrowed := foldl_modify_each narrow_narrow (keys'.keys.filterMap (indexOf? changed)) changed
  have same : Added t first added := stands.of_column
  obtain ⟨converted, final, converts⟩ := split_added same (converts_of_changes each narrowed)
  obtain ⟨rest, shape, kept, perm⟩ := ordered_eq (added ++ converted) distinct'
  have nonempty : t.columns ≠ [] := listed ▸ List.cons_ne_nil first others
  have table := ofTable_eq properties nonempty (by rw [declared]; exact chosen) parted
  rw [show narrowKeys changed keys'.keys = added ++ converted from final] at table
  have columns := congrArg CreateTable.columns table
  refine ⟨_, added, converted, rest, congrArg CreateTable.keyModel table, same, ?_, columns ▸ perm, ?_, kept⟩
  · rw [declared]
    rw [← List.map_cons, List.forall₂_map_left_iff] at converts
    exact converts
  · rw [columns, shape, List.filterMap_map]
    simp only [Function.comp_def, columnNamed_identOf]

/-- A table of another dialect is rebuilt unless it is a copy of one. -/
theorem createTable_fires {ctx : Context} (foreign : ctx.isCross = true) (target : ctx.target.name = "doris")
    (own : t.like = []) : createTable.fire? ctx (.statement (.createTable t)) = .ok (some (.statement (.createTable
      (ofTable t ctx.source.leadingKeyHash ctx.target.hints.defaultProperties)))) := by
  have matched : createTable.pattern.matches (.statement (.createTable t)) ctx = true := by
    simp [createTable, Pattern.matches, Pattern.matchesArity, Node.kind, Statement.kind, target]
  have plain : (ctx.isCross && t.like.isEmpty) = true := by rw [foreign, own]; rfl
  unfold Rule.fire?
  rw [createTable] at matched ⊢
  dsimp only at matched ⊢
  rw [if_pos matched, if_pos plain]

theorem eq_ofTable_of_fires {ctx : Context} {out : CreateTable} (foreign : ctx.isCross = true)
    (target : ctx.target.name = "doris") (own : t.like = [])
    (fired : createTable.fire? ctx (.statement (.createTable t)) = .ok (some (.statement (.createTable out)))) :
    out = ofTable t ctx.source.leadingKeyHash ctx.target.hints.defaultProperties := by
  rw [createTable_fires foreign target own] at fired
  injection fired with some
  injection some with node
  injection node with statement
  injection statement with same
  exact same.symm

/-- Every declared column of a foreign table is in the Doris table once, with a surrogate key beside it exactly if the
first column is the key and of a complex type. The columns that the key names stand for come first, in the order of the
key; the others keep their order. -/
theorem columns_kept_once (ctx : Context) (t : CreateTable) (foreign : ctx.isCross = true)
    (target : ctx.target.name = "doris") (own : t.like = []) {first : ColumnDef} {others : List ColumnDef}
    (listed : t.columns = first :: others) :
    ∃ out model added converted rest,
      createTable.fire? ctx (.statement (.createTable t)) = .ok (some (.statement (.createTable out))) ∧
      out.keyModel = some model ∧ Added t first added ∧ List.Forall₂ Converts (declaredColumns t) converted ∧
      out.columns.Perm (added ++ converted) ∧
      out.columns = model.columns.filterMap (fun id => columnNamed? (added ++ converted) id.name) ++ rest ∧
      rest.Sublist (added ++ converted) := by
  obtain ⟨model, added, converted, rest, columns⟩ :=
    ofTable_columns t ctx.source.leadingKeyHash ctx.target.hints.defaultProperties listed
  exact ⟨_, model, added, converted, rest, createTable_fires foreign target own, columns⟩

/-- A table whose only column of its own cannot be a key, partitioned by a text. -/
def taggedTable : CreateTable where
  name := [⟨"t", false⟩]
  columns := [{ name := ⟨"tags", false⟩, type := .named "JSON" }]
  partitioning := some { columns := [{ name := ⟨"dt", false⟩, type := .named "STRING" }] }

theorem taggedTable_columns : ∃ out added converted,
    createTable.fire? ⟨{ name := "hive" }, { name := "doris" }, .ok⟩ (.statement (.createTable taggedTable)) =
      .ok (some (.statement (.createTable out))) ∧
    added.length = 1 ∧ List.Forall₂ Converts (declaredColumns taggedTable) converted ∧
    out.columns.Perm (added ++ converted) ∧ out.columns.map (·.name.name) = ["doris_col_1", "tags", "dt"] := by
  obtain ⟨out, _, added, converted, _, fired, _, stands, converts, perm, _⟩ :=
    columns_kept_once ⟨{ name := "hive" }, { name := "doris" }, .ok⟩ taggedTable rfl rfl rfl rfl
  have table : out = ofTable taggedTable false [] := eq_ofTable_of_fires rfl rfl rfl fired
  have leads : LeadsWithFirst taggedTable := ⟨by simp [taggedTable], rfl, .inr (by simp [taggedTable])⟩
  refine ⟨out, added, converted, fired, ?_, converts, perm, ?_⟩
  · obtain ⟨_, rfl⟩ | ⟨absent, _⟩ := stands
    · rfl
    · exact absurd ⟨leads, rfl⟩ absent
  · rw [table]
    decide +kernel

end Doris

end SqlDialects
