import SqlDialects.Proofs.FunctionSteps

/-! The tables of functions. Every rule of a registered dialect gives a call a name in upper case and reshapes it by a
step of a known kind, so that whatever a dialect reads of its functions is well shaped. -/

namespace SqlDialects

variable [Numerals]

/-! ### Rules -/

/-- The rule gives a call a name in upper case and a sound step. -/
structure FunctionRule.Sound (rule : FunctionRule) : Prop where
  named : Text.IsUpper rule.name
  reshaped : ∀ reshape ∈ rule.reshape, reshape.Sound

namespace FunctionRule

/-- The rule gives a call a name in upper case and a step of a known kind. -/
structure Known (diff cast : Prop) (rule : FunctionRule) : Prop where
  named : Text.IsUpper rule.name
  reshaped : ∀ reshape ∈ rule.reshape, Reshape.Known diff cast reshape

variable {diff cast : Prop}

theorem known_rename {name : String} (named : Text.IsUpper name) : (rename name).Known diff cast :=
  ⟨named, by rintro _ ⟨⟩⟩

theorem known_shape {minArgs : Nat} {reshape : Reshape} (known : Reshape.Known diff cast reshape) :
    (shape minArgs reshape).Known diff cast :=
  ⟨Text.isUpper_empty, by simpa [shape] using known⟩

theorem known_unmapped : unmapped.Known diff cast := ⟨Text.isUpper_empty, by rintro _ ⟨⟩⟩

end FunctionRule

namespace Dialect

/-- All rules for functions are known. -/
def KnownCalls (diff cast : Prop) (d : Dialect) : Prop := ∀ entry ∈ d.functions.entries, entry.2.Known diff cast

variable {diff cast : Prop} {d : Dialect} {rule : FunctionRule} {names : List String}

theorem KnownCalls.of_functions {other : Dialect} (known : other.KnownCalls diff cast)
    (same : d.functions = other.functions) :
    d.KnownCalls diff cast := by
  rw [KnownCalls, same]
  exact known

theorem KnownCalls.found (known : d.KnownCalls diff cast) {name : String} (found : d.function? name = some rule) :
    rule.Known diff cast :=
  known (Text.lower name, rule) (mem_of_lookup found)

theorem known_foldl {α : Type} {step : Dialect → α → Dialect} (list : List α)
    (kept : ∀ a ∈ list, ∀ d, (step d a).KnownCalls diff cast ↔ d.KnownCalls diff cast) :
    (list.foldl step d).KnownCalls diff cast ↔ d.KnownCalls diff cast :=
  list.foldlRecOn (motive := fun last => last.KnownCalls diff cast ↔ d.KnownCalls diff cast) step Iff.rfl
    fun _ sofar a member => (kept a member _).trans sofar

theorem known_withFunction (known : rule.Known diff cast) :
    (d.withFunction rule names).KnownCalls diff cast ↔ d.KnownCalls diff cast := by
  rw [KnownCalls, KnownCalls, withFunction, Dictionary.insertEach, Dictionary.entries_insertAll, List.forall_mem_append]
  refine and_iff_right fun entry member => ?_
  obtain ⟨_, _, rfl⟩ := List.mem_map.mp (List.mem_reverse.mp member)
  exact known

theorem known_withShape {minArgs : Nat} {reshape : Reshape} (known : Reshape.Known diff cast reshape) :
    (d.withShape minArgs reshape names).KnownCalls diff cast ↔ d.KnownCalls diff cast :=
  known_withFunction (FunctionRule.known_shape known)

theorem known_withRenames {pairs : List (String × String)} (named : ∀ pair ∈ pairs, Text.IsUpper pair.2) :
    (d.withRenames pairs).KnownCalls diff cast ↔ d.KnownCalls diff cast :=
  known_foldl pairs fun pair member _ => known_withFunction (FunctionRule.known_rename (named pair member))

theorem known_withPairs {pairs : List (String × String)} (named : ∀ pair ∈ pairs, Text.IsUpper pair.1) :
    (d.withPairs pairs).KnownCalls diff cast ↔ d.KnownCalls diff cast :=
  known_foldl pairs fun pair member _ => known_withFunction (FunctionRule.known_rename (named pair member))

/-! The other steps leave the functions as they are. -/

theorem known_withSpellings (pairs : List (String × String)) :
    (d.withSpellings pairs).KnownCalls diff cast ↔ d.KnownCalls diff cast := Iff.rfl

theorem known_withType (rule : TypeRule) : (d.withType rule names).KnownCalls diff cast ↔
    d.KnownCalls diff cast := Iff.rfl

theorem known_withTypeNames (pairs : List (String × String)) :
    (d.withTypeNames pairs).KnownCalls diff cast ↔ d.KnownCalls diff cast := Iff.rfl

theorem known_withoutTypes : (d.withoutTypes names).KnownCalls diff cast ↔ d.KnownCalls diff cast := Iff.rfl

theorem known_withReserved : (d.withReserved names).KnownCalls diff cast ↔ d.KnownCalls diff cast := Iff.rfl

theorem known_withInfix (pairs : List (String × InfixOp)) :
    (d.withInfix pairs).KnownCalls diff cast ↔ d.KnownCalls diff cast := Iff.rfl

theorem known_withNiladic (pairs : List (String × String)) :
    (d.withNiladic pairs).KnownCalls diff cast ↔ d.KnownCalls diff cast := Iff.rfl

end Dialect

open Dialect Reshape

section Tables

variable {diff cast : Prop}

theorem Ansi.known_dialect (name : String) : (Ansi.dialect name).KnownCalls diff cast := by
  simp (disch := decide) only [Ansi.dialect, ↓known_withShape .arrayOf, ↓known_withShape .mapOf,
    ↓known_withShape .structOf, ↓known_withShape .namedStruct, ↓known_withShape .truncUnit, ↓known_withRenames]
  exact List.forall_mem_nil _

theorem Presto.known_dialect (allowed : diff) (name : String) (aliases : List String) :
    (Presto.dialect name aliases).KnownCalls diff cast := by
  simp (disch := decide) only [Presto.dialect, List.foldl_cons, List.foldl_nil, ↓known_withSpellings,
    ↓known_withRenames, ↓known_withPairs, ↓known_withType, ↓known_withTypeNames, ↓known_withoutTypes,
    ↓known_withShape (.dateFormat _), ↓known_withShape (.formatArg _ _ _), ↓known_withShape (.unitDiff allowed),
    ↓known_withShape (.unitInterval _), ↓known_withShape .truncUnit, ↓known_withShape .week,
    ↓known_withShape (.castTo (TypeSpec.wellShaped_named _ _)), ↓known_withShape .replaceEmpty,
    ↓known_withShape (.reorder _ _), ↓known_withShape .codepoint, ↓known_withShape .regexpExtract,
    ↓known_withShape .regexpExtractAll, ↓known_withShape (.operator _),
    ↓known_withShape (.withArg _ (Expr.wellShaped_digits _)), ↓known_withShape (.withArg _ Expr.wellShaped_str),
    ↓known_withShape (.firstArgs _ _), ↓known_withShape .mapOfArrays, ↓known_withShape .sequence,
    ↓known_withShape .elementAt, ↓known_withShape .jsonArrayContains,
    ↓known_withShape .jsonArrayGet, ↓known_withShape .jsonValue, ↓known_withShape (.ifAggregate _),
    ↓known_withShape (.quantile _), Reshape.swapped]
  exact KnownCalls.of_functions (Ansi.known_dialect name) rfl

theorem Hive.known_base (name : String) : (Hive.base name).KnownCalls diff cast := by
  have first {zone : Expr} (held : zone.WellShaped) : ∀ e ∈ [Expr.str "UTC", zone], e.WellShaped := by simp [held]
  have last {zone : Expr} (held : zone.WellShaped) : ∀ e ∈ [zone, Expr.str "UTC"], e.WellShaped := by simp [held]
  simp (disch := decide) only [Hive.base, ↓known_withSpellings, ↓known_withRenames, ↓known_withPairs,
    ↓known_withShape (.firstAnd _ (Expr.wellShaped_digits _)), ↓known_withShape .truncDateOrNumber,
    ↓known_withShape .nvl2, ↓known_withShape (.reorder _ _), ↓known_withShape (.daysInterval _),
    ↓known_withShape (.formatArg _ _ _), ↓known_withShape (.toDate _),
    ↓known_withShape (.convertZone fun _ => first), ↓known_withShape (.convertZone fun _ => last),
    ↓known_withShape (.quantile _), ↓known_withShape .assertTrue, Reshape.swapped]
  -- The casts are entered one by one from a list, and each is to a type without types inside.
  have leaves : ∀ cast ∈ Hive.casts, TypeRule.Leaf cast.2 := by decide
  rw [known_foldl Hive.casts fun cast member d =>
    known_withShape (.castTo (TypeSpec.wellShaped_named (leaves cast member) []))]
  exact KnownCalls.of_functions (Ansi.known_dialect name) rfl

namespace ClickHouse

variable {d : Dialect}

private theorem known_withCasts (allowed : cast) : (withCasts d).KnownCalls diff cast ↔ d.KnownCalls diff cast := by
  have leaves : ∀ family ∈ castFamilies, TypeRule.Leaf family.2.1 := by decide
  have zero : (Expr.num "0").WellShaped := Expr.wellShaped_digits (by decide)
  have zeros : ∀ family ∈ castFamilies, family.2.2.WellShaped := by simp [castFamilies, zero]
  simp only [withCasts, ↓known_withShape (.typedCast allowed _),
    ↓known_withShape (.castTo (TypeSpec.wellShaped_named (by decide : TypeRule.Leaf "STRING") []))]
  rw [known_foldl, known_foldl]
  · rintro ⟨suffix, typeName, zero⟩ member d
    have typed := TypeSpec.wellShaped_named (leaves _ member) []
    simp only [↓known_withShape (.castOrDefault typed), ↓known_withShape (.orElse (.castTo typed) (zeros _ member))]
    split
    · simp only [↓known_withShape (.castTo typed), ↓known_withShape .zoned]
    · split
      · rfl
      · simp only [↓known_withShape (.castTo typed)]
  · rintro ⟨bits, precision⟩ _ d
    simp only [↓known_withShape (.orElse (.decimalCast _) zero), ↓known_withShape (.decimalCast _)]

private theorem known_withDates (allowed : diff) : (withDates d).KnownCalls diff cast ↔ d.KnownCalls diff cast := by
  have neutral : ∀ word ∈ units, DateUnit.IsNeutral (Text.upper word) := by decide +kernel
  simp (disch := decide) only [withDates, ↓known_withShape (.truncTo _), ↓known_withShape (.fixedFormat _),
    ↓known_withShape .startOfInterval, ↓known_withShape (.unitDiff allowed), ↓known_withShape (.unitInterval _),
    ↓known_withShape (.firstArgs _ _)]
  refine known_foldl units fun word member d => ?_
  rw [known_withShape, known_withShape (.truncTo word), known_withShape, known_withShape (.unitArith _ (by decide))]
  · split
    · exact .intervalArith (neutral word member) (by decide)
    · exact .unitArith _ (by decide)
  · split
    · exact .quarters
    · exact .interval (neutral word member)

private theorem known_withRest : (withRest d).KnownCalls diff cast ↔ d.KnownCalls diff cast := by
  have renamed : (FunctionRule.rename "BITMAP_UNION").Known diff cast :=
    .mk (upper_callNames _ (by decide)) (by rintro _ ⟨⟩)
  simp only [withRest, ↓known_withShape .jsonExtract]
  rw [known_withShape .joined, known_withFunction renamed]
  simp (disch := decide) only [↓known_withShape (.nested _), ↓known_withShape .neighbor,
    ↓known_withShape .arrayStringConcat, ↓known_withShape (.isNull _), ↓known_withShape (.skipArgs _ _),
    ↓known_withShape (.withArg _ (Expr.wellShaped_digits _)), ↓known_withShape .regexpExtractAll, Reshape.swapped,
    ↓known_withShape (.reorder _ _), ↓known_withShape (.powerOf (Expr.wellShaped_digits _)),
    ↓known_withShape (.orElse .intDiv (Expr.wellShaped_digits _)), ↓known_withShape .intDiv,
    ↓known_withShape (.orElse (.operator _) (Expr.wellShaped_digits _)), ↓known_withShape (.operator _),
    ↓known_withShape (.quantile _)]
  rw [known_foldl _ fun word _ d => known_withShape (.ifAggregate ?_)]
  · simp (disch := decide) only [↓known_withShape (.distinctAggregate _), ↓known_withShape .multiIf]
  · split
    · decide
    · exact Text.upper_upper word

theorem known_dialect (differs : diff) (casts : cast) : ClickHouse.dialect.KnownCalls diff cast := by
  simp (disch := decide +kernel) only [ClickHouse.dialect, typeBase, ↓known_withSpellings, ↓known_withRenames,
    ↓known_withPairs, ↓known_withType, ↓known_withTypeNames, ↓known_withoutTypes, ↓known_withReserved,
    ↓known_withFunction FunctionRule.known_unmapped, ↓known_withRest, ↓known_withDates differs, ↓known_withCasts casts,
    ↓known_withShape (.castTo (TypeSpec.wellShaped_named _ _))]
  exact KnownCalls.of_functions (Ansi.known_dialect "clickhouse") rfl

end ClickHouse

/-- The dialects that add steps of their own to a table that they share, and have no differences of dates. -/
private theorem plain_known : ∀ profile ∈ [Postgres.profile, Doris.profile, Oracle.profile,
    Teradata.profile, Hive.profile],
    profile.dialect.KnownCalls diff cast := by
  simp (disch := decide) only [List.forall_mem_cons, List.not_mem_nil, false_imp_iff, implies_true, and_true,
    Postgres.profile, Doris.profile, Oracle.profile, Teradata.profile, Teradata.toDate,
    Hive.profile, ↓known_withSpellings,
    ↓known_withRenames, ↓known_withPairs, ↓known_withType, ↓known_withTypeNames,
    ↓known_withoutTypes, ↓known_withReserved,
    ↓known_withInfix, ↓known_withNiladic, Reshape.swapped, ↓known_withShape (.reorder _ _),
    ↓known_withShape (.operator _),
    ↓known_withShape (.jsonExtractPath _), ↓known_withShape .log, ↓known_withShape .lowered, ↓known_withShape .matched,
    ↓known_withShape .regexpExtractAll, ↓known_withShape (.firstArgs _ _), ↓known_withShape .datePart,
    ↓known_withShape .toTimestamp, ↓known_withShape (.toDate _), ↓known_withShape (.toChar _),
    ↓known_withShape (.toText _),
    ↓known_withShape (.daysInterval _), ↓known_withShape .decode, ↓known_withShape .nvl2, ↓known_withShape .modelDate,
    ↓known_withShape (.castTo (TypeSpec.wellShaped_named _ _)), ↓known_withShape .truncDateOrNumber,
    ↓known_withShape (.firstAnd _ (Expr.wellShaped_digits _))]
  refine ⟨?_, ?_, ?_, ?_, ?_⟩
  · exact KnownCalls.of_functions (Ansi.known_dialect "postgres") rfl
  · exact KnownCalls.of_functions (Ansi.known_dialect "doris") rfl
  · exact KnownCalls.of_functions (Ansi.known_dialect "oracle") rfl
  · exact KnownCalls.of_functions (Ansi.known_dialect "teradata") rfl
  · exact KnownCalls.of_functions (Hive.known_base "hive") rfl

private theorem timed_known (allowed : diff) : ∀ profile ∈ [MySql.profile, Snowflake.profile, Spark.profile],
    profile.dialect.KnownCalls diff cast := by
  simp (disch := decide) only [List.forall_mem_cons, List.not_mem_nil, false_imp_iff, implies_true, and_true,
    MySql.profile, Snowflake.profile, Spark.profile, ↓known_withSpellings, ↓known_withRenames, ↓known_withPairs,
    ↓known_withType, ↓known_withTypeNames, ↓known_withoutTypes, ↓known_withReserved, ↓known_withInfix,
    Reshape.swapped, ↓known_withShape (.reorder _ _), ↓known_withShape (.operator _), ↓known_withShape (.toDate _),
    ↓known_withShape (.daysInterval _), ↓known_withShape .unitAdd, ↓known_withShape (.unitDiff allowed),
    ↓known_withShape .decode, ↓known_withShape .nvl2, ↓known_withShape (.castTo (TypeSpec.wellShaped_named _ _)),
    ↓known_withShape (.ifAggregate _), ↓known_withShape .regexpExtract,
    ↓known_withShape (.firstAnd _ (Expr.wellShaped_digits _)),
    ↓known_withShape .div0, ↓known_withShape .mapOf, ↓known_withShape .arrayOf, ↓known_withShape .toNumber,
    ↓known_withShape (.toText _), ↓known_withShape (.toDatetime _), ↓known_withShape .truncUnit,
    ↓known_withShape .elementAt, ↓known_withShape .sequence]
  refine ⟨?_, ?_, ?_⟩
  · exact KnownCalls.of_functions (Ansi.known_dialect "mysql") rfl
  · exact KnownCalls.of_functions (Ansi.known_dialect "snowflake") rfl
  · exact KnownCalls.of_functions (Hive.known_base "spark") rfl

end Tables

/-- The dialects in which a difference of dates names its unit. -/
def differing : List String := ["clickhouse", "mysql", "presto", "trino", "snowflake", "spark"]

theorem registered_known {entry : Entry} (member : entry ∈ Registry.standard.entries) :
    entry.dialect.KnownCalls (entry.name ∈ differing) (entry.name = "clickhouse") := by
  obtain ⟨profile, known, rfl⟩ := List.mem_map.mp member
  change profile.dialect.KnownCalls (profile.dialect.name ∈ differing) (profile.dialect.name = "clickhouse")
  simp only [List.mem_cons, List.not_mem_nil, or_false] at known
  obtain rfl | rfl | rfl | rfl | rfl | rfl | rfl | rfl | rfl | rfl | rfl := known
  · exact ClickHouse.known_dialect (by decide) (by decide)
  · exact plain_known _ (by simp)
  · exact plain_known _ (by simp)
  · exact timed_known (by decide) _ (by simp)
  · exact plain_known _ (by simp)
  · exact plain_known _ (by simp)
  · exact Presto.known_dialect (by decide) "presto" ["athena"]
  · exact timed_known (by decide) _ (by simp)
  · exact timed_known (by decide) _ (by simp)
  · exact plain_known _ (by simp)
  · exact Presto.known_dialect (by decide) "trino" []

/-- All rules for functions are sound. -/
def Dialect.ReadsCalls (d : Dialect) : Prop := ∀ entry ∈ d.functions.entries, entry.2.Sound

theorem Dialect.ReadsCalls.found {d : Dialect} {rule : FunctionRule} (sound : d.ReadsCalls) {name : String}
    (found : d.function? name = some rule) : rule.Sound :=
  sound (Text.lower name, rule) (mem_of_lookup found)

theorem registered_calls {entry : Entry} (member : entry ∈ Registry.standard.entries) : entry.dialect.ReadsCalls := by
  intro row inside
  obtain ⟨named, reshaped⟩ := registered_known member row inside
  exact ⟨named, fun reshape given => (reshaped reshape given).sound⟩

end SqlDialects
