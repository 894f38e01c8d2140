import SqlDialects.Proofs.CallShapes
import SqlDialects.Proofs.NativeTypes

/-! The steps that reshape calls, of the dialects together: what each of them makes of a well-shaped call is well
shaped. -/

namespace SqlDialects

variable [Numerals]

/-! ### Steps of one dialect -/

namespace ClickHouse

variable {reshape : Reshape}

theorem sound_toDate : toDate.Sound := by
  intro f e shaped done
  unfold toDate at done
  split at done
  · next split =>
    cases done
    exact .known (by decide) (by simp [(shaped.first split).1])
  · next split =>
    cases done
    obtain ⟨x, zone, _⟩ := shaped.firstTwo split
    refine .known (by decide) (List.forall_mem_singleton.mpr (.known (by decide) ?_))
    simp [x, zone]
  · cases done

theorem sound_orElse (sound : reshape.Sound) {zero : Expr} (held : zero.WellShaped) : (orElse reshape zero).Sound := by
  intro f e shaped done
  obtain ⟨value, read, done⟩ := Parser.ok_of_bind done
  cases done
  exact .known (by decide) (by simp [sound shaped read, held])

theorem sound_castOrDefault {type : TypeSpec} (typed : type.WellShaped) : (castOrDefault type).Sound := by
  intro f e shaped done
  unfold castOrDefault at done
  split at done
  · cases done
  · next split =>
    cases done
    exact Expr.wellShaped_cast.mpr ⟨(shaped.first split).1, typed⟩
  · next split =>
    cases done
    obtain ⟨x, other, _⟩ := shaped.firstTwo split
    exact .known (by decide) (by simp [x, other, typed])

theorem sound_typedCast (withDefault : Bool) : (typedCast withDefault).Sound := by
  intro f e shaped done
  unfold typedCast at done
  split at done
  · next x _ _ rest split =>
    obtain ⟨operand, _, inner⟩ := shaped.firstTwo split
    obtain ⟨type, read, done⟩ := Parser.ok_of_bind done
    have typed := TypeSpec.wellShaped_iff.mp (Parser.parseType_formed reads_typeBase read).wellShaped
    have conversion (pos : Position) : (Expr.cast f.pos x { type with pos } false).WellShaped := by
      refine Expr.wellShaped_cast.mpr ⟨operand, TypeSpec.wellShaped_iff.mpr ⟨fun canonical => ?_, typed.2⟩⟩
      obtain ⟨array, map, struct⟩ := typed.1 canonical
      exact ⟨array, map, struct⟩
    split at done
    · cases done
      refine .known (by decide) (List.forall_mem_cons.mpr ⟨conversion _, List.forall_mem_singleton.mpr ?_⟩)
      exact inner _ List.mem_cons_self
    · cases done
      exact conversion _
  · cases done
  · cases done

omit [Numerals] in
private theorem upper_floor : ∀ unit ∈ DateUnit.spellings.map Prod.snd, Text.IsUpper (unit ++ "_FLOOR") := by
  decide +kernel

theorem sound_startOfInterval : startOfInterval.Sound := by
  intro f e shaped done
  unfold startOfInterval at done
  split at done
  · next split =>
    obtain ⟨x, interval, _⟩ := shaped.firstTwo split
    obtain ⟨neutral, number⟩ := Expr.wellShaped_interval.mp interval
    split at done
    next unit n both =>
    cases done
    split at both <;> cases both
    · exact .known (by decide) (by simp [x, number.scale 3])
    · exact .become (upper_floor _ neutral) (by simp [x, number])
  · cases done
  · cases done

theorem sound_quarters : quarters.Sound := by
  intro f e shaped done
  unfold quarters at done
  split at done
  · next split =>
    cases done
    have month : DateUnit.IsNeutral "MONTH" := by decide
    exact Expr.wellShaped_interval.mpr ⟨month, (shaped.first split).1.scale 3⟩
  · cases done

theorem sound_intDiv : intDiv.Sound := by
  intro f e shaped done
  obtain ⟨quotient, read, done⟩ := Parser.ok_of_bind done
  cases done
  exact Expr.wellShaped_cast.mpr ⟨Reshape.sound_operator "/" shaped read, TypeSpec.wellShaped_named (by decide) []⟩

theorem sound_isNull (negated : Bool) : (isNull negated).Sound := by
  intro f e shaped done
  unfold isNull at done
  split at done
  · next split =>
    cases done
    exact Expr.wellShaped_isValue.mpr (shaped.first split).1
  · cases done

theorem sound_arrayStringConcat : arrayStringConcat.Sound := by
  intro f e shaped done
  unfold arrayStringConcat at done
  split at done
  · next x rest split =>
    cases done
    obtain ⟨array, inner⟩ := shaped.first split
    have separator : (rest.head?.getD (.str "")).WellShaped := Expr.wellShaped_optional inner (by simp)
    exact .known (by decide) (by simp [array, separator])
  · cases done

theorem sound_neighbor : neighbor.Sound := by
  intro f e shaped done
  unfold neighbor at done
  split at done
  · next x offset rest split =>
    obtain ⟨value, distance, inner⟩ := shaped.firstTwo split
    have other : (rest.head?.getD (.num "0")).WellShaped := Expr.wellShaped_optional inner (by simp)
    split at done
    next name away both =>
    obtain ⟨named, far⟩ : Text.IsUpper name ∧ away.WellShaped := by
      split at both
      · cases both
        exact ⟨upper_callNames _ (by decide), Expr.wellShaped_unary.mp distance⟩
      · split at both <;> cases both
        · next value _ _ sign =>
          rw [← String.ofList_toList (s := value), sign, Expr.wellShaped_number] at distance
          exact ⟨upper_callNames _ (by decide), Expr.wellShaped_number.mpr (Numerals.unsign _ distance)⟩
        · exact ⟨upper_callNames _ (by decide), distance⟩
      · cases both
        exact ⟨upper_callNames _ (by decide), distance⟩
    cases done
    have call : (f.become name [x, away, rest.head?.getD (.num "0")]).WellShaped :=
      .become named (by simp [value, far, other])
    exact Expr.wellShaped_window.mpr ⟨call, by simp⟩
  · cases done

theorem sound_jsonExtract : jsonExtract.Sound := by
  intro f e shaped done
  unfold jsonExtract at done
  split at done
  · next split =>
    dsimp only at done
    split at done <;> cases done
    · exact .known (by decide) (by simp [(shaped.first split).1])
    · exact .known (by decide) shaped.args
  · cases done

theorem sound_powerOf {base : String} (held : (Expr.num base).WellShaped) : (powerOf base).Sound := by
  rintro f e shaped ⟨⟩
  refine .known (by decide) (List.forall_mem_cons.mpr ⟨held, fun e member => ?_⟩)
  exact shaped.args e (List.mem_of_mem_take member)

end ClickHouse

namespace Presto

theorem sound_replaceEmpty : replaceEmpty.Sound := by
  intro f e shaped done
  unfold replaceEmpty at done
  split at done
  · next rest split =>
    cases done
    obtain ⟨s, old, inner⟩ := shaped.firstTwo split
    have new : (rest.head?.getD (.str "")).WellShaped := Expr.wellShaped_optional inner (by simp)
    exact .known (by decide) (by simp [s, old, new])
  · cases done

theorem sound_codepoint : codepoint.Sound := by
  have known : "ASCII" ∈ callNames := by decide
  intro f e shaped done
  unfold codepoint at done
  split at done
  · next split =>
    cases done
    obtain ⟨character, _⟩ := shaped.first split
    refine .known known (List.forall_mem_singleton.mpr ?_)
    split
    · exact (Expr.wellShaped_cast.mp character).1
    · exact character
  · next split =>
    cases done
    exact .known known (by simp [(shaped.first split).1])
  · cases done

theorem sound_jsonValue : jsonValue.Sound := by
  intro f e shaped done
  unfold jsonValue at done
  split at done
  · next split =>
    cases done
    exact .known (by decide) (by simp [(shaped.first split).1])
  · next split =>
    cases done
    obtain ⟨j, path, _⟩ := shaped.firstTwo split
    exact .known (by decide) (by simp [j, path])
  · cases done

theorem sound_dateFormat {name : String} (named : Text.IsUpper name) : (dateFormat name).Sound := by
  intro f e shaped done
  unfold dateFormat at done
  split at done
  · exact Reshape.sound_formatArg named 1 _ shaped done
  · exact Reshape.sound_formatArg named 1 _ shaped done

theorem sound_week : week.Sound := by
  intro f e shaped done
  unfold week at done
  split at done
  · next split =>
    cases done
    exact .known (by decide) (by simp [(shaped.first split).1])
  · cases done
    exact .known (by decide) shaped.args

theorem sound_jsonArrayContains : jsonArrayContains.Sound := by
  intro f e shaped done
  unfold jsonArrayContains at done
  split at done
  · next json value rest split =>
    cases done
    obtain ⟨j, held, _⟩ := shaped.firstTwo split
    have text : (stringified value).WellShaped := by
      unfold stringified
      split
      · exact Expr.wellShaped_other (by decide)
      · exact Expr.wellShaped_other (by decide)
      · exact held
    exact .known (by decide) (by simp [j, text])
  · cases done

theorem sound_jsonArrayGet : jsonArrayGet.Sound := by
  intro f e shaped done
  unfold jsonArrayGet at done
  split at done
  · next split =>
    cases done
    exact .known (by decide) (by simp [(shaped.first split).1])
  · cases done
    exact .known (by decide) shaped.args

end Presto

theorem Hive.sound_convertZone {order : Expr → List Expr}
    (inner : ∀ zone, zone.WellShaped → ∀ e ∈ order zone, e.WellShaped) : (convertZone order).Sound := by
  intro f e shaped done
  unfold convertZone at done
  split at done
  · next split =>
    cases done
    obtain ⟨x, zone, _⟩ := shaped.firstTwo split
    exact .known (by decide) (List.forall_mem_cons.mpr ⟨x.asDatetime, inner _ zone⟩)
  · cases done

theorem Oracle.sound_toDate : Oracle.toDate.Sound := by
  intro f e shaped done
  unfold Oracle.toDate at done
  split at done
  · next split =>
    cases done
    exact .known (by decide) (by simp [(shaped.first split).1])
  · exact Reshape.sound_formatArg (upper_callNames _ (by decide)) 1 .oracle shaped done

namespace Postgres

theorem sound_datePart : datePart.Sound := by
  intro f e shaped done
  unfold datePart at done
  split at done
  · next split =>
    obtain ⟨_, x, _⟩ := shaped.firstTwo split
    split at done <;> cases done
    · exact Expr.wellShaped_extract.mpr x
    · exact Expr.wellShaped_extract.mpr x
  · cases done

theorem sound_jsonExtractPath {name : String} (named : Text.IsUpper name) : (jsonExtractPath name).Sound := by
  intro f e shaped done
  unfold jsonExtractPath at done
  split at done
  · next split =>
    split at done <;> cases done
    · exact .become named (by simp [(shaped.first split).1])
    · exact .become named shaped.args
  · cases done

theorem sound_toTimestamp : toTimestamp.Sound := by
  intro f e shaped done
  unfold toTimestamp at done
  split at done
  · next split =>
    cases done
    exact .known (by decide) (by simp [(shaped.first split).1])
  · exact Reshape.sound_formatArg (upper_callNames _ (by decide)) 1 .postgres shaped done

theorem sound_log : log.Sound := by
  intro f e shaped done
  unfold log at done
  split at done
  · next split =>
    cases done
    exact .known (by decide) (by simp [(shaped.first split).1])
  · cases done
    exact .known (by decide) shaped.args

end Postgres

namespace Snowflake

theorem sound_toNumber : toNumber.Sound := by
  intro f e shaped done
  unfold toNumber at done
  split at done
  · next split =>
    obtain ⟨params, _, done⟩ := Parser.ok_of_bind done
    cases done
    exact Expr.wellShaped_cast.mpr ⟨(shaped.first split).1, TypeSpec.wellShaped_named (by decide) _⟩
  · cases done

theorem sound_div0 : div0.Sound := by
  intro f e shaped done
  unfold div0 at done
  split at done
  · next split =>
    cases done
    obtain ⟨x, y, _⟩ := shaped.firstTwo split
    exact .known (by decide) (by simp [x, y])
  · cases done

end Snowflake

/-! ### All steps -/

namespace Reshape

/-- The steps that the dialects have. Differences of dates and casts to a type that is given as a text are only there
where they are allowed. -/
inductive Known (diff cast : Prop) : Reshape → Prop
  | reorder {name : String} (named : Text.IsUpper name) (order : List Nat) : Known diff cast (reorder name order)
  | withArg {name : String} {extra : Expr} (named : Text.IsUpper name) (held : extra.WellShaped) :
      Known diff cast (withArgs name [extra])
  | firstArgs {name : String} (named : Text.IsUpper name) (n : Nat) : Known diff cast (firstArgs name n)
  | skipArgs {name : String} (named : Text.IsUpper name) (n : Nat) : Known diff cast (skipArgs name n)
  | castTo {type : TypeSpec} (typed : type.WellShaped) : Known diff cast (castTo type)
  | decimalCast (precision : Int) : Known diff cast (decimalCast precision)
  | interval {unit : String} (neutral : DateUnit.IsNeutral unit) : Known diff cast (interval unit)
  | unitArith (unit : String) {op : String} (known : op ∈ ["ADD", "SUB", "DIFF"]) : Known diff cast (unitArith unit op)
  | intervalArith {unit name : String} (neutral : DateUnit.IsNeutral unit) (named : Text.IsUpper name) :
      Known diff cast (intervalArith unit name)
  | unitDiff (allowed : diff) : Known diff cast unitDiff
  | unitInterval {name : String} (named : Text.IsUpper name) : Known diff cast (unitInterval name)
  | unitAdd : Known diff cast unitAdd
  | truncUnit : Known diff cast truncUnit
  | truncTo (unit : String) : Known diff cast (truncTo unit)
  | formatArg {name : String} (named : Text.IsUpper name) (i : Nat) (pattern : DatePattern) :
      Known diff cast (formatArg name i pattern)
  | fixedFormat (format : String) : Known diff cast (fixedFormat format)
  | ifAggregate {name : String} (named : Text.IsUpper name) : Known diff cast (ifAggregate name)
  | distinctAggregate {name : String} (named : Text.IsUpper name) : Known diff cast (distinctAggregate name)
  | arrayOf : Known diff cast arrayOf
  | mapOf : Known diff cast mapOf
  | mapOfArrays : Known diff cast mapOfArrays
  | structOf : Known diff cast structOf
  | namedStruct : Known diff cast namedStruct
  | multiIf : Known diff cast multiIf
  | decode : Known diff cast decode
  | assertTrue : Known diff cast assertTrue
  | toDate (pattern : DatePattern) : Known diff cast (toDate pattern)
  | quantile {name : String} (named : Text.IsUpper name) : Known diff cast (quantile name)
  | operator (op : String) : Known diff cast (operator op)
  | nvl2 : Known diff cast nvl2
  | truncDateOrNumber : Known diff cast truncDateOrNumber
  | daysInterval {name : String} (named : Text.IsUpper name) : Known diff cast (daysInterval name)
  | sequence : Known diff cast sequence
  | elementAt : Known diff cast elementAt
  | toChar (pattern : DatePattern) : Known diff cast (toChar pattern)
  | toText (pattern : DatePattern) : Known diff cast (toText pattern)
  | toDatetime (pattern : DatePattern) : Known diff cast (toDatetime pattern)
  | regexpExtract : Known diff cast regexpExtract
  | regexpExtractAll : Known diff cast regexpExtractAll
  | nested {outer inner : String} (named : Text.IsUpper outer ∧ Text.IsUpper inner) :
      Known diff cast (nested outer inner)
  | firstAnd {name : String} {extra : Expr} (named : Text.IsUpper name) (held : extra.WellShaped) :
      Known diff cast (firstAnd name extra)
  | joined : Known diff cast fun f =>
      .ok (f.become "IFNULL" [f.become "BITMAP_UNION" f.args, f.become "BITMAP_EMPTY" []])
  | matched : Known diff cast fun f => .ok (f.become "REGEXP_EXTRACT" (f.args.take 2 ++ [.num "0"]))
  | lowered : Known diff cast fun f => .ok (f.become "LOWER" [f.become "HEX" (f.args.take 1)])
  | zoned : Known diff cast ClickHouse.toDate
  | orElse {reshape : Reshape} {zero : Expr} (known : Known diff cast reshape) (held : zero.WellShaped) :
      Known diff cast (ClickHouse.orElse reshape zero)
  | castOrDefault {type : TypeSpec} (typed : type.WellShaped) : Known diff cast (ClickHouse.castOrDefault type)
  | typedCast (allowed : cast) (withDefault : Bool) : Known diff cast (ClickHouse.typedCast withDefault)
  | startOfInterval : Known diff cast ClickHouse.startOfInterval
  | quarters : Known diff cast ClickHouse.quarters
  | intDiv : Known diff cast ClickHouse.intDiv
  | isNull (negated : Bool) : Known diff cast (ClickHouse.isNull negated)
  | arrayStringConcat : Known diff cast ClickHouse.arrayStringConcat
  | neighbor : Known diff cast ClickHouse.neighbor
  | jsonExtract : Known diff cast ClickHouse.jsonExtract
  | powerOf {base : String} (held : (Expr.num base).WellShaped) : Known diff cast (ClickHouse.powerOf base)
  | replaceEmpty : Known diff cast Presto.replaceEmpty
  | codepoint : Known diff cast Presto.codepoint
  | jsonValue : Known diff cast Presto.jsonValue
  | dateFormat {name : String} (named : Text.IsUpper name) : Known diff cast (Presto.dateFormat name)
  | week : Known diff cast Presto.week
  | jsonArrayContains : Known diff cast Presto.jsonArrayContains
  | jsonArrayGet : Known diff cast Presto.jsonArrayGet
  | convertZone {order : Expr → List Expr} (inner : ∀ zone, zone.WellShaped → ∀ e ∈ order zone, e.WellShaped) :
      Known diff cast (Hive.convertZone order)
  | modelDate : Known diff cast Oracle.toDate
  | datePart : Known diff cast Postgres.datePart
  | jsonExtractPath {name : String} (named : Text.IsUpper name) : Known diff cast (Postgres.jsonExtractPath name)
  | toTimestamp : Known diff cast Postgres.toTimestamp
  | log : Known diff cast Postgres.log
  | toNumber : Known diff cast Snowflake.toNumber
  | div0 : Known diff cast Snowflake.div0

private theorem sound_joined : Sound fun f =>
    .ok (f.become "IFNULL" [f.become "BITMAP_UNION" f.args, f.become "BITMAP_EMPTY" []]) := by
  rintro f e shaped ⟨⟩
  refine .known (by decide) (List.forall_mem_cons.mpr ⟨.known (by decide) shaped.args, ?_⟩)
  exact List.forall_mem_singleton.mpr (.known (by decide) (List.forall_mem_nil _))

private theorem sound_matched : Sound fun f => .ok (f.become "REGEXP_EXTRACT" (f.args.take 2 ++ [.num "0"])) := by
  rintro f e shaped ⟨⟩
  refine .known (by decide) (List.forall_mem_append.mpr ⟨fun e member => ?_, by simp⟩)
  exact shaped.args e (List.mem_of_mem_take member)

private theorem sound_lowered : Sound fun f => .ok (f.become "LOWER" [f.become "HEX" (f.args.take 1)]) := by
  rintro f e shaped ⟨⟩
  refine .known (by decide) (List.forall_mem_singleton.mpr (.known (by decide) fun e member => ?_))
  exact shaped.args e (List.mem_of_mem_take member)

theorem Known.sound {diff cast : Prop} {reshape : Reshape} (known : Known diff cast reshape) : reshape.Sound := by
  induction known with
  | reorder named order => exact sound_reorder named order
  | withArg named held => exact sound_withArgs named (List.forall_mem_singleton.mpr held)
  | firstArgs named n => exact sound_firstArgs named n
  | skipArgs named n => exact sound_skipArgs named n
  | castTo typed => exact sound_castTo typed
  | decimalCast precision => exact sound_decimalCast precision
  | interval neutral => exact sound_interval neutral
  | unitArith unit known => exact sound_unitArith known
  | intervalArith neutral named => exact sound_intervalArith neutral named
  | unitDiff _ => exact sound_unitDiff
  | unitInterval named => exact sound_unitInterval named
  | unitAdd => exact sound_unitAdd
  | truncUnit => exact sound_truncUnit
  | truncTo unit => exact sound_truncTo unit
  | formatArg named i pattern => exact sound_formatArg named i pattern
  | fixedFormat format => exact sound_fixedFormat format
  | ifAggregate named => exact sound_ifAggregate named
  | distinctAggregate named => exact sound_distinctAggregate named
  | arrayOf => exact sound_arrayOf
  | mapOf => exact sound_mapOf
  | mapOfArrays => exact sound_mapOfArrays
  | structOf => exact sound_structOf
  | namedStruct => exact sound_namedStruct
  | multiIf => exact sound_multiIf
  | decode => exact sound_decode
  | assertTrue => exact sound_assertTrue
  | toDate pattern => exact sound_toDate pattern
  | quantile named => exact sound_quantile named
  | operator op => exact sound_operator op
  | nvl2 => exact sound_nvl2
  | truncDateOrNumber => exact sound_truncDateOrNumber
  | daysInterval named => exact sound_daysInterval named
  | sequence => exact sound_sequence
  | elementAt => exact sound_elementAt
  | toChar pattern => exact sound_toChar pattern
  | toText pattern => exact sound_toText pattern
  | toDatetime pattern => exact sound_toDatetime pattern
  | regexpExtract => exact sound_regexpExtract
  | regexpExtractAll => exact sound_regexpExtractAll
  | nested named => exact sound_nested named
  | firstAnd named held => exact sound_firstAnd named held
  | joined => exact sound_joined
  | matched => exact sound_matched
  | lowered => exact sound_lowered
  | zoned => exact ClickHouse.sound_toDate
  | orElse known held sound => exact ClickHouse.sound_orElse sound held
  | castOrDefault typed => exact ClickHouse.sound_castOrDefault typed
  | typedCast _ withDefault => exact ClickHouse.sound_typedCast withDefault
  | startOfInterval => exact ClickHouse.sound_startOfInterval
  | quarters => exact ClickHouse.sound_quarters
  | intDiv => exact ClickHouse.sound_intDiv
  | isNull negated => exact ClickHouse.sound_isNull negated
  | arrayStringConcat => exact ClickHouse.sound_arrayStringConcat
  | neighbor => exact ClickHouse.sound_neighbor
  | jsonExtract => exact ClickHouse.sound_jsonExtract
  | powerOf held => exact ClickHouse.sound_powerOf held
  | replaceEmpty => exact Presto.sound_replaceEmpty
  | codepoint => exact Presto.sound_codepoint
  | jsonValue => exact Presto.sound_jsonValue
  | dateFormat named => exact Presto.sound_dateFormat named
  | week => exact Presto.sound_week
  | jsonArrayContains => exact Presto.sound_jsonArrayContains
  | jsonArrayGet => exact Presto.sound_jsonArrayGet
  | convertZone inner => exact Hive.sound_convertZone inner
  | modelDate => exact Oracle.sound_toDate
  | datePart => exact Postgres.sound_datePart
  | jsonExtractPath named => exact Postgres.sound_jsonExtractPath named
  | toTimestamp => exact Postgres.sound_toTimestamp
  | log => exact Postgres.sound_log
  | toNumber => exact Snowflake.sound_toNumber
  | div0 => exact Snowflake.sound_div0

end Reshape

end SqlDialects
