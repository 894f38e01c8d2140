import Mathlib.Data.List.Basic
import SqlDialects.Proofs.TreeShapes
import SqlDialects.Registry

/-! The rules by which dialects read types. A rule makes a type of the vocabulary, with as many types inside as its name
asks for, or passes on a type that has been read before; so do all rules of the registered dialects. -/

namespace SqlDialects

/-- The types that the reader makes. The names of native types are such names as the text has, and their numbers are
those of a machine. -/
inductive TypeSpec.Formed (own : String → Prop) : TypeSpec → Prop
  | native {t : TypeSpec} (native : t.native = true) (named : own t.name) (sized : ∀ n ∈ t.params, Decimal.fits 64 n)
      (elems : ∀ e ∈ t.elems, Formed own e) (fields : ∀ f ∈ t.fields, Formed own f.type) : Formed own t
  | canonical {t : TypeSpec} (canonical : t.native = false) (known : t.name ∈ TypeSpec.vocabulary) (shaped : t.Shaped)
      (elems : ∀ e ∈ t.elems, Formed own e) (fields : ∀ f ∈ t.fields, Formed own f.type) : Formed own t

theorem TypeSpec.Formed.wellShaped [Numerals] {own : String → Prop} {t : TypeSpec}
    (formed : t.Formed own) : t.WellShaped := by
  induction formed with
  | native native named sized elems fields inner members =>
    refine TypeSpec.wellShaped_iff.mpr ⟨fun canonical => ?_, inner, members⟩
    rw [native] at canonical
    cases canonical
  | canonical canonical known shaped elems fields inner members =>
    exact TypeSpec.wellShaped_iff.mpr ⟨fun _ => shaped, inner, members⟩

/-- A spelling whose inner types are formed. -/
structure NativeType.Formed (own : String → Prop) (n : NativeType) : Prop where
  named : own n.name
  args : ∀ t ∈ n.args, t.Formed own
  fields : ∀ f ∈ n.fields, f.type.Formed own

/-! ### Rules -/

namespace TypeRule

/-- The rule makes formed types of formed ones. -/
def Sound (rule : TypeRule) : Prop := ∀ ⦃own n t⦄, n.Formed own → rule n = .ok t → t.Formed own

/-- Types of the vocabulary that may have no types inside. -/
abbrev Leaf (name : String) : Prop := name ∈ TypeSpec.vocabulary ∧ name ∉ ["ARRAY", "MAP", "STRUCT"]

variable {own : String → Prop} {n : NativeType} {name : String}

theorem Leaf.shaped {t : TypeSpec} (leaf : Leaf t.name) : t.Shaped := by
  obtain ⟨_, single⟩ := leaf
  simp only [List.mem_cons, List.not_mem_nil, or_false, not_or] at single
  exact ⟨fun array => absurd array single.1, fun map => absurd map single.2.1, fun struct => absurd struct single.2.2⟩

theorem formed_outer (leaf : Leaf name) {pos : Position} {params : List Int} {elems : List TypeSpec}
    {fields : List TypeField} (inner : ∀ e ∈ elems, e.Formed own) (members : ∀ f ∈ fields, f.type.Formed own) :
    TypeSpec.Formed own { pos, name, params, elems, fields } :=
  .canonical rfl leaf.1 leaf.shaped inner members

theorem formed_leaf (leaf : Leaf name) {pos : Position} {params : List Int} :
    TypeSpec.Formed own { pos, name, params } :=
  formed_outer leaf (fun _ inside => nomatch inside) fun _ inside => nomatch inside

theorem formed_array {elems : List TypeSpec} (single : elems.length = 1) (inner : ∀ e ∈ elems, e.Formed own)
    {pos : Position} : TypeSpec.Formed own { pos, name := "ARRAY", elems } := by
  have known : "ARRAY" ∈ TypeSpec.vocabulary := by decide
  have shaped : TypeSpec.Shaped { pos, name := "ARRAY", elems } := by
    refine ⟨fun _ => List.length_eq_one_iff.mp single, fun map => ?_, fun struct => ?_⟩
    · exact absurd map (by decide : "ARRAY" ≠ "MAP")
    · exact absurd struct (by decide : "ARRAY" ≠ "STRUCT")
  exact .canonical rfl known shaped inner fun _ inside => nomatch inside

theorem formed_map {elems : List TypeSpec} (pair : elems.length = 2)
    (inner : ∀ e ∈ elems, e.Formed own) {pos : Position} :
    TypeSpec.Formed own { pos, name := "MAP", elems } := by
  have known : "MAP" ∈ TypeSpec.vocabulary := by decide
  have shaped : TypeSpec.Shaped { pos, name := "MAP", elems } := by
    refine ⟨fun array => ?_, fun _ => List.length_eq_two.mp pair, fun struct => ?_⟩
    · exact absurd array (by decide : "MAP" ≠ "ARRAY")
    · exact absurd struct (by decide : "MAP" ≠ "STRUCT")
  exact .canonical rfl known shaped inner fun _ inside => nomatch inside

theorem formed_struct {fields : List TypeField} (nonempty : fields ≠ []) (members : ∀ f ∈ fields, f.type.Formed own)
    {pos : Position} : TypeSpec.Formed own { pos, name := "STRUCT", fields } := by
  have known : "STRUCT" ∈ TypeSpec.vocabulary := by decide
  have shaped : TypeSpec.Shaped { pos, name := "STRUCT", fields } := by
    refine ⟨fun array => ?_, fun map => ?_, fun _ => nonempty⟩
    · exact absurd array (by decide : "STRUCT" ≠ "ARRAY")
    · exact absurd map (by decide : "STRUCT" ≠ "MAP")
  exact .canonical rfl known shaped (fun _ inside => nomatch inside) members

theorem sound_keep (leaf : Leaf name) : (keep name).Sound := by
  rintro own n t formed ⟨⟩
  exact formed_outer leaf formed.args formed.fields

theorem sound_plain (leaf : Leaf name) : (plain name).Sound := by
  rintro own n t formed ⟨⟩
  exact formed_leaf leaf

theorem sound_varchar : varchar.Sound := by
  rintro own n t formed ⟨⟩
  exact formed_leaf (by decide)

theorem sound_array : array.Sound := by
  intro own n t formed done
  unfold array at done
  split at done
  · next one =>
    cases done
    exact formed_array one formed.args
  · cases done

theorem sound_map : map.Sound := by
  intro own n t formed done
  unfold map at done
  split at done
  · next pair =>
    cases done
    exact formed_map pair formed.args
  · cases done

theorem sound_struct : struct.Sound := by
  intro own n t formed done
  unfold struct at done
  dsimp only at done
  split at done
  · cases done
  · next nonempty =>
    cases done
    refine formed_struct (fun empty => nonempty (List.isEmpty_iff.mpr empty)) fun f member => ?_
    obtain named | positional := List.mem_append.mp member
    · exact formed.fields f named
    · obtain ⟨⟨type, i⟩, inside, rfl⟩ := List.mem_map.mp positional
      exact formed.args type (List.fst_mem_of_mem_zipIdx inside)

theorem sound_unwrap : ClickHouse.unwrap.Sound := by
  intro own n t formed done
  unfold ClickHouse.unwrap at done
  split at done
  · next shape =>
    cases done
    exact formed.args t (by simp [shape])
  · cases done

theorem sound_decimalOf (precision : Int) : (ClickHouse.decimalOf precision).Sound := by
  rintro own n t formed ⟨⟩
  exact formed_leaf (by decide)

theorem sound_number : TypeRule.Sound Oracle.number := by
  rintro own n t formed ⟨⟩
  exact formed_leaf (by decide)

theorem sound_int {signed unsigned : String} (leaves : Leaf signed ∧ Leaf unsigned) :
    (MySql.int signed unsigned).Sound := by
  intro own n t formed done
  unfold MySql.int at done
  split at done <;> cases done
  · exact formed_leaf leaves.2
  · exact formed_leaf leaves.1

theorem sound_decimal : MySql.decimal.Sound := by
  intro own n t formed done
  unfold MySql.decimal at done
  split at done
  · split at done <;> cases done <;> exact formed_leaf (by decide)
  · cases done
    exact formed_leaf (by decide)

theorem sound_bit : MySql.bit.Sound := by
  intro own n t formed done
  unfold MySql.bit at done
  split at done <;> cases done
  · split <;> exact formed_leaf (by decide)
  · exact formed_leaf (by decide)

/-- The rules that the dialects have. -/
inductive Known : TypeRule → Prop
  | keep {name : String} (leaf : Leaf name) : Known (keep name)
  | plain {name : String} (leaf : Leaf name) : Known (plain name)
  | varchar : Known varchar
  | array : Known array
  | map : Known map
  | struct : Known struct
  | unwrap : Known ClickHouse.unwrap
  | decimalOf (precision : Int) : Known (ClickHouse.decimalOf precision)
  | number : Known Oracle.number
  | int {signed unsigned : String} (leaves : Leaf signed ∧ Leaf unsigned) : Known (MySql.int signed unsigned)
  | decimal : Known MySql.decimal
  | bit : Known MySql.bit

theorem Known.sound {rule : TypeRule} (known : Known rule) : rule.Sound := by
  cases known with
  | keep leaf => exact sound_keep leaf
  | plain leaf => exact sound_plain leaf
  | varchar => exact sound_varchar
  | array => exact sound_array
  | map => exact sound_map
  | struct => exact sound_struct
  | unwrap => exact sound_unwrap
  | decimalOf precision => exact sound_decimalOf precision
  | number => exact sound_number
  | int leaves => exact sound_int leaves
  | decimal => exact sound_decimal
  | bit => exact sound_bit

end TypeRule

/-! ### Tables of rules -/

namespace Dialect

/-- All rules for types are known. -/
def ReadsTypes (d : Dialect) : Prop := ∀ entry ∈ d.types.entries, TypeRule.Known entry.2

variable {d : Dialect} {rule : TypeRule} {names : List String} {name : String}

theorem ReadsTypes.of_types {other : Dialect} (reads : other.ReadsTypes)
    (same : d.types = other.types) : d.ReadsTypes := by
  rw [ReadsTypes, same]
  exact reads

theorem ReadsTypes.found (reads : d.ReadsTypes) (found : d.types.find? name = some rule) : TypeRule.Known rule :=
  reads (name, rule) (mem_of_lookup found)

theorem reads_congr {other : Dialect} (same : d.types = other.types) : d.ReadsTypes ↔ other.ReadsTypes :=
  ⟨fun reads => reads.of_types same.symm, fun reads => reads.of_types same⟩

theorem reads_withType (known : TypeRule.Known rule) : (d.withType rule names).ReadsTypes ↔ d.ReadsTypes := by
  rw [ReadsTypes, ReadsTypes, withType, Dictionary.insertEach, Dictionary.entries_insertAll, List.forall_mem_append]
  refine and_iff_right fun entry member => ?_
  obtain ⟨_, _, rfl⟩ := List.mem_map.mp (List.mem_reverse.mp member)
  exact known

theorem reads_withKeep (leaf : TypeRule.Leaf name) : (d.withType (.keep name) names).ReadsTypes ↔ d.ReadsTypes :=
  reads_withType (.keep leaf)

theorem reads_withPlain (leaf : TypeRule.Leaf name) : (d.withType (.plain name) names).ReadsTypes ↔ d.ReadsTypes :=
  reads_withType (.plain leaf)

theorem reads_withInt {signed unsigned : String} (leaves : TypeRule.Leaf signed ∧ TypeRule.Leaf unsigned) :
    (d.withType (MySql.int signed unsigned) names).ReadsTypes ↔ d.ReadsTypes :=
  reads_withType (.int leaves)

/-! The other steps leave the rules for types as they are. -/

theorem reads_foldl {α : Type} {step : Dialect → α → Dialect} (list : List α)
    (kept : ∀ a ∈ list, ∀ d, (step d a).ReadsTypes ↔ d.ReadsTypes) : (list.foldl step d).ReadsTypes ↔ d.ReadsTypes :=
  list.foldlRecOn (motive := fun last => last.ReadsTypes ↔ d.ReadsTypes) step Iff.rfl
    fun _ sofar a member => (kept a member _).trans sofar

theorem reads_withFunction (rule : FunctionRule) : (d.withFunction rule names).ReadsTypes ↔ d.ReadsTypes :=
  reads_congr rfl

theorem reads_withShape (minArgs : Nat) (reshape : Reshape) :
    (d.withShape minArgs reshape names).ReadsTypes ↔ d.ReadsTypes :=
  reads_congr rfl

theorem reads_withRenames (pairs : List (String × String)) : (d.withRenames pairs).ReadsTypes ↔ d.ReadsTypes :=
  reads_foldl pairs fun _ _ _ => Iff.rfl

theorem reads_withPairs (pairs : List (String × String)) : (d.withPairs pairs).ReadsTypes ↔ d.ReadsTypes :=
  reads_foldl pairs fun _ _ _ => Iff.rfl

theorem reads_withSpellings (pairs : List (String × String)) : (d.withSpellings pairs).ReadsTypes ↔ d.ReadsTypes :=
  reads_congr rfl

theorem reads_withTypeNames (pairs : List (String × String)) : (d.withTypeNames pairs).ReadsTypes ↔ d.ReadsTypes :=
  reads_congr rfl

theorem reads_withoutTypes : (d.withoutTypes names).ReadsTypes ↔ d.ReadsTypes := reads_congr rfl

theorem reads_withReserved : (d.withReserved names).ReadsTypes ↔ d.ReadsTypes := reads_congr rfl

theorem reads_withInfix (pairs : List (String × InfixOp)) : (d.withInfix pairs).ReadsTypes ↔ d.ReadsTypes :=
  reads_congr rfl

theorem reads_withNiladic (pairs : List (String × String)) : (d.withNiladic pairs).ReadsTypes ↔ d.ReadsTypes :=
  reads_congr rfl

end Dialect

open Dialect TypeRule

theorem Ansi.reads_dialect (name : String) : (Ansi.dialect name).ReadsTypes := by
  have known : ∀ entry ∈ Ansi.types, Known entry.2 := by
    simp (disch := decide) only [Ansi.types, List.forall_mem_cons, Known.keep, Known.plain, Known.varchar, Known.array,
      Known.map, Known.struct, true_and]
    exact fun _ member => absurd member List.not_mem_nil
  have entered : (Ansi.dialect name).ReadsTypes ↔ ∀ entry ∈ (Dictionary.ofList Ansi.types).entries, Known entry.2 := by
    simp only [Ansi.dialect, ↓reads_withShape, ↓reads_withRenames]
    rfl
  rw [entered, Dictionary.ofList, Dictionary.entries_insertAll]
  simpa using known

theorem Presto.reads_dialect (name : String) (aliases : List String) : (Presto.dialect name aliases).ReadsTypes := by
  simp (disch := decide) only [Presto.dialect, ↓reads_withShape, ↓reads_withRenames, ↓reads_withSpellings,
    ↓reads_withPairs, ↓reads_withTypeNames, ↓reads_withoutTypes, ↓reads_withPlain, List.foldl_cons, List.foldl_nil]
  exact ReadsTypes.of_types (Ansi.reads_dialect name) rfl

theorem Hive.reads_base (name : String) : (Hive.base name).ReadsTypes := by
  simp (disch := decide) only [Hive.base, ↓reads_withShape, ↓reads_withRenames, ↓reads_withSpellings, ↓reads_withPairs]
  -- The casts are entered one by one from a list, which the steps before and after are not.
  rw [reads_foldl Hive.casts fun cast _ d => reads_withShape 1 _]
  simp (disch := decide) only [↓reads_withInfix, ↓reads_withNiladic, ↓reads_withReserved, ↓reads_withPlain,
    ↓reads_withTypeNames, ↓reads_withoutTypes]
  exact ReadsTypes.of_types (Ansi.reads_dialect name) rfl

private theorem ClickHouse.reads_withCasts (d : Dialect) : (ClickHouse.withCasts d).ReadsTypes ↔ d.ReadsTypes := by
  simp only [ClickHouse.withCasts, ↓reads_withShape]
  rw [reads_foldl, reads_foldl]
  · rintro ⟨suffix, typeName, zero⟩ _ d
    simp only [↓reads_withShape]
    split
    · simp only [↓reads_withShape]
    · split
      · rfl
      · simp only [↓reads_withShape]
  · rintro ⟨bits, precision⟩ _ d
    simp only [↓reads_withShape]

private theorem ClickHouse.reads_withDates (d : Dialect) : (ClickHouse.withDates d).ReadsTypes ↔ d.ReadsTypes := by
  simp only [ClickHouse.withDates, ↓reads_withShape]
  exact reads_foldl ClickHouse.units fun word _ d => by simp only [↓reads_withShape]

private theorem ClickHouse.reads_withRest (d : Dialect) : (ClickHouse.withRest d).ReadsTypes ↔ d.ReadsTypes := by
  simp only [ClickHouse.withRest, ↓reads_withShape, ↓reads_withFunction, List.foldl_cons, List.foldl_nil]

theorem ClickHouse.reads_typeBase : ClickHouse.typeBase.ReadsTypes := by
  simp (disch := decide) only [ClickHouse.typeBase, ↓reads_withKeep, ↓reads_withPlain, ↓reads_withType .struct,
    ↓reads_withType .unwrap, ↓reads_withType (.decimalOf _), ↓reads_withTypeNames, ↓reads_withoutTypes,
    ↓reads_withReserved]
  exact ReadsTypes.of_types (Ansi.reads_dialect "clickhouse") rfl

theorem ClickHouse.reads_dialect : ClickHouse.dialect.ReadsTypes := by
  simp only [ClickHouse.dialect, ↓reads_withFunction, ↓reads_withShape, ↓reads_withSpellings, ↓reads_withRenames,
    ↓reads_withPairs, ↓ClickHouse.reads_withRest, ↓ClickHouse.reads_withDates, ↓ClickHouse.reads_withCasts]
  exact reads_typeBase

/-- The dialects that add steps of their own to a table that they share. -/
private theorem extended_reads : ∀ profile ∈ [Postgres.profile, Doris.profile, MySql.profile, Oracle.profile,
    Snowflake.profile, Teradata.profile, Spark.profile, Hive.profile], profile.dialect.ReadsTypes := by
  simp (disch := decide) only [List.forall_mem_cons, List.not_mem_nil, false_imp_iff, implies_true, and_true,
    Postgres.profile, Doris.profile, MySql.profile, Oracle.profile, Snowflake.profile, Teradata.profile, Spark.profile,
    Hive.profile, ↓reads_withShape, ↓reads_withRenames, ↓reads_withSpellings, ↓reads_withPairs, ↓reads_withTypeNames,
    ↓reads_withoutTypes, ↓reads_withReserved, ↓reads_withInfix, ↓reads_withNiladic, ↓reads_withKeep, ↓reads_withPlain,
    ↓reads_withInt, ↓reads_withType .varchar, ↓reads_withType .number, ↓reads_withType .decimal,
    ↓reads_withType .bit]
  refine ⟨?_, ?_, ?_, ?_, ?_, ?_, ?_, ?_⟩
  · exact ReadsTypes.of_types (Ansi.reads_dialect "postgres") rfl
  · exact ReadsTypes.of_types (Ansi.reads_dialect "doris") rfl
  · exact ReadsTypes.of_types (Ansi.reads_dialect "mysql") rfl
  · exact ReadsTypes.of_types (Ansi.reads_dialect "oracle") rfl
  · exact ReadsTypes.of_types (Ansi.reads_dialect "snowflake") rfl
  · exact ReadsTypes.of_types (Ansi.reads_dialect "teradata") rfl
  · exact ReadsTypes.of_types (Hive.reads_base "spark") rfl
  · exact ReadsTypes.of_types (Hive.reads_base "hive") rfl

theorem registered_reads {entry : Entry} (member : entry ∈ Registry.standard.entries) : entry.dialect.ReadsTypes := by
  obtain ⟨profile, known, rfl⟩ := List.mem_map.mp member
  change profile.dialect.ReadsTypes
  simp only [List.mem_cons, List.not_mem_nil, or_false] at known
  obtain rfl | rfl | rfl | rfl | rfl | rfl | rfl | rfl | rfl | rfl | rfl := known
  · exact ClickHouse.reads_dialect
  · exact extended_reads _ (by simp)
  · exact extended_reads _ (by simp)
  · exact extended_reads _ (by simp)
  · exact extended_reads _ (by simp)
  · exact extended_reads _ (by simp)
  · exact Presto.reads_dialect "presto" ["athena"]
  · exact extended_reads _ (by simp)
  · exact extended_reads _ (by simp)
  · exact extended_reads _ (by simp)
  · exact Presto.reads_dialect "trino" []

end SqlDialects
