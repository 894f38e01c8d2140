import SqlDialects.Function.Shared
import SqlDialects.Proofs.NativeNames
import SqlDialects.Proofs.TypeReader

/-! Reshaped calls. A step that reads a call of a dialect as an expression of the common tree picks and wraps the
arguments of the call, so what it makes is as well shaped as they are. -/

namespace SqlDialects

/-! ### Names in upper case -/

/-- A text that is its own upper-case form. -/
def Text.IsUpper (s : String) : Prop := Text.upper s = s

/-- Characters of ASCII but for the small letters. -/
private def plainBytes (s : String) : Bool := s.toByteArray.data.toList.all fun b => b < 0x80 && !(0x61 ≤ b && b ≤ 0x7a)

private theorem isUpper_of_bytes {s : String} (plain : plainBytes s) : Text.IsUpper s := by
  have kept : ∀ n < 0x80, ¬(0x61 ≤ n ∧ n ≤ 0x7a) → Text.upperChar (Char.ofNat n) = Char.ofNat n := by decide +kernel
  simp only [plainBytes, List.all_eq_true, Bool.and_eq_true, decide_eq_true_eq, Bool.not_eq_true',
    Bool.and_eq_false_iff,
    decide_eq_false_iff_not] at plain
  have ascii : s.toByteArray.data.toList.all (· < 0x80) :=
    List.all_eq_true.mpr fun b member => decide_eq_true (plain b member).1
  rw [Text.IsUpper, ← String.toList_inj, Text.toList_upper, Text.toList_of_bytes ascii, List.map_map]
  refine List.map_congr_left fun b member => kept b.toNat (plain b member).1 fun small => ?_
  obtain below | above := (plain b member).2
  · exact below small.1
  · exact above small.2

-- The bytes of a text are at hand where its characters have to be decoded, which counts in tables of many names.
instance (s : String) : Decidable (Text.IsUpper s) :=
  if plain : plainBytes s then .isTrue (isUpper_of_bytes plain) else inferInstanceAs (Decidable (_ = _))

theorem Text.isUpper_empty : Text.IsUpper "" := by decide +kernel

/-! ### Sound steps -/

variable [Numerals]

/-- The step makes well-shaped expressions of well-shaped calls. -/
def Reshape.Sound (reshape : Reshape) : Prop := ∀ ⦃f e⦄, f.WellShaped → reshape f = .ok e → e.WellShaped

theorem TypeSpec.wellShaped_named {name : String} (leaf : TypeRule.Leaf name) (params : List Int) :
    (TypeSpec.named name params).WellShaped :=
  (TypeRule.formed_leaf leaf : TypeSpec.Formed (fun _ => True) _).wellShaped

namespace Call

variable {f : Call} {name : String} {args : List Expr}

/-- A call with arguments and nothing else. -/
theorem WellShaped.plain {pos : Position} (named : Text.IsUpper name) (inner : ∀ e ∈ args, e.WellShaped) :
    Call.WellShaped { pos, name, args } :=
  ⟨named, inner, fun _ none => (nomatch none), fun _ none => (nomatch none)⟩

/-- The arguments of a call that has at least one. -/
theorem WellShaped.first (shaped : f.WellShaped) {x : Expr} {rest : List Expr} (split : f.args = x :: rest) :
    x.WellShaped ∧ ∀ e ∈ rest, e.WellShaped :=
  List.forall_mem_cons.mp (split ▸ shaped.args)

/-- The arguments of a call that has at least two. -/
theorem WellShaped.firstTwo (shaped : f.WellShaped) {x y : Expr} {rest : List Expr} (split : f.args = x :: y :: rest) :
    x.WellShaped ∧ y.WellShaped ∧ ∀ e ∈ rest, e.WellShaped :=
  (shaped.first split).imp_right List.forall_mem_cons.mp

/-- The arguments of a call that has at least three. -/
theorem WellShaped.firstThree (shaped : f.WellShaped) {x y z : Expr} {rest : List Expr}
    (split : f.args = x :: y :: z :: rest) : x.WellShaped ∧ y.WellShaped ∧ z.WellShaped ∧ ∀ e ∈ rest, e.WellShaped :=
  (shaped.firstTwo split).imp_right fun later => later.imp_right List.forall_mem_cons.mp

end Call

theorem Expr.WellShaped.become {f : Call} {name : String} {args : List Expr} (named : Text.IsUpper name)
    (inner : ∀ e ∈ args, e.WellShaped) : (f.become name args).WellShaped :=
  Expr.wellShaped_call.mpr (.plain named inner)

/-- Names that calls are given whatever the dialect. -/
def callNames : List String := [
  "ARRAY_RANGE", "ASCII", "BITMAP_EMPTY", "BITMAP_UNION", "BITNOT", "COALESCE", "CONCAT_WS",
  "CONVERT_TZ", "DATE_FORMAT",
  "DATE_TRUNC", "EXPLODE", "FROM_UNIXTIME", "HEX", "IF", "IFNULL", "JSON_CONTAINS", "JSON_EXTRACT",
  "JSON_EXTRACT_STRING",
  "LAG", "LEAD", "LOCATE", "LOG", "LOG10", "LOWER", "LTRIM", "MONTHS_DIFF", "MONTH_FLOOR", "POWER", "REGEXP_EXTRACT",
  "REGEXP_EXTRACT_ALL", "REPLACE_EMPTY", "ROUND", "RTRIM", "STR_TO_DATE", "SUBSTRING", "TO_DATE",
  "TRIM", "TRUNCATE", "WEEK"]

omit [Numerals] in
theorem upper_callNames : ∀ name ∈ callNames, Text.IsUpper name := by
  decide +kernel

theorem Expr.WellShaped.known {f : Call} {name : String} {args : List Expr} (known : name ∈ callNames)
    (inner : ∀ e ∈ args, e.WellShaped) : (f.become name args).WellShaped :=
  .become (upper_callNames name known) inner

/-! ### Parts of arguments -/

namespace Expr

variable {e : Expr}

theorem WellShaped.scale (held : e.WellShaped) (factor : Int) : (e.scale factor).WellShaped := by
  have product : (binary {} "*" e (num factor.repr)).WellShaped := by simp [held]
  unfold Expr.scale
  split
  · split <;> simp [product]
  · exact product

theorem WellShaped.plus (held : e.WellShaped) (delta : Int) : (e.plus delta).WellShaped := by
  have sum : ∀ op (n : Int), (binary e.pos op e (num n.repr)).WellShaped := by simp [held]
  unfold Expr.plus
  extract_lets total
  have whole : total.WellShaped := by
    unfold total
    split <;> exact sum _ _
  split
  · exact held
  split
  · split <;> simp [whole]
  · split
    · split
      · extract_lets merged
        have inner := (wellShaped_binary.mp held).1
        split
        · exact inner
        split <;> simp [inner]
      · exact whole
    · exact whole
  · exact whole

theorem WellShaped.asDatetime (held : e.WellShaped) : e.asDatetime.WellShaped := by
  have conversion : (cast e.pos e (.named "DATETIME") false).WellShaped :=
    wellShaped_cast.mpr ⟨held, TypeSpec.wellShaped_named (by decide) []⟩
  unfold Expr.asDatetime
  split
  · split
    · exact held
    · exact conversion
  · exact conversion

theorem WellShaped.grouped (held : e.WellShaped) : e.grouped.WellShaped := by
  unfold Expr.grouped
  split
  · split <;> simp
  · exact held

/-- An optional argument, with what stands for it where it is absent. -/
theorem wellShaped_optional {rest : List Expr} {other : Expr}
    (inner : ∀ e ∈ rest, e.WellShaped) (held : other.WellShaped) :
    (rest.head?.getD other).WellShaped := by
  cases rest with
  | nil => exact held
  | cons a rest => exact inner a List.mem_cons_self

end Expr

/-! ### Steps that any dialect may use -/

namespace Reshape

variable {f : Call} {e : Expr} {name unit : String}

theorem sound_reorder (named : Text.IsUpper name) (order : List Nat) : (reorder name order).Sound := by
  rintro f e shaped ⟨⟩
  refine Expr.wellShaped_call.mpr ⟨named, fun e member => shaped.args e ?_, shaped.orderBy, shaped.filter⟩
  obtain picked | rest := List.mem_append.mp member
  · obtain ⟨i, _, found⟩ := List.mem_filterMap.mp picked
    exact List.mem_of_getElem? found
  · obtain ⟨⟨a, i⟩, inside, rfl⟩ := List.mem_map.mp rest
    exact List.fst_mem_of_mem_zipIdx (List.mem_of_mem_filter inside)

theorem sound_withArgs (named : Text.IsUpper name) {extra : List Expr} (inner : ∀ e ∈ extra, e.WellShaped) :
    (withArgs name extra).Sound := by
  rintro f e shaped ⟨⟩
  exact .become named (List.forall_mem_append.mpr ⟨shaped.args, inner⟩)

theorem sound_firstArgs (named : Text.IsUpper name) (n : Nat) : (firstArgs name n).Sound := by
  rintro f e shaped ⟨⟩
  exact .become named fun e member => shaped.args e (List.mem_of_mem_take member)

theorem sound_skipArgs (named : Text.IsUpper name) (n : Nat) : (skipArgs name n).Sound := by
  intro f e shaped done
  unfold skipArgs at done
  split at done <;> cases done
  exact .become named fun e member => shaped.args e (List.mem_of_mem_drop member)

theorem sound_castTo {type : TypeSpec} (typed : type.WellShaped) : (castTo type).Sound := by
  intro f e shaped done
  unfold castTo at done
  split at done
  · cases done
  · next split =>
    cases done
    exact Expr.wellShaped_cast.mpr ⟨(shaped.first split).1, typed⟩

theorem sound_decimalCast (precision : Int) : (decimalCast precision).Sound := by
  have decimal (pos : Position) (x : Expr) (scale : Int) (held : x.WellShaped) :
      (Expr.cast pos x (.named "DECIMAL" [precision, scale]) false).WellShaped :=
    Expr.wellShaped_cast.mpr ⟨held, TypeSpec.wellShaped_named (by decide) _⟩
  intro f e shaped done
  unfold decimalCast at done
  split at done
  · cases done
  · next split =>
    cases done
    exact decimal _ _ _ (shaped.first split).1
  · next split =>
    split at done <;> cases done
    exact decimal _ _ _ (shaped.first split).1
  · cases done

theorem sound_interval (neutral : DateUnit.IsNeutral unit) : (interval unit).Sound := by
  intro f e shaped done
  unfold interval at done
  split at done
  · next split =>
    cases done
    exact Expr.wellShaped_interval.mpr ⟨neutral, (shaped.first split).1⟩
  · cases done

omit [Numerals] in
private theorem upper_stem {stem : String} (found : DateUnit.stems.lookup unit = some stem) {op : String}
    (known : op ∈ ["ADD", "SUB", "DIFF"]) : Text.IsUpper (stem ++ "_" ++ op) := by
  have all : ∀ entry ∈ DateUnit.stems, ∀ op ∈ ["ADD", "SUB", "DIFF"],
      Text.IsUpper (entry.2 ++ "_" ++ op) := by
    decide +kernel
  exact all (unit, stem) (mem_of_lookup found) op known

theorem wellShaped_unitCall {op : String} (known : op ∈ ["ADD", "SUB", "DIFF"])
    {date n : Expr} (moment : date.WellShaped)
    (number : n.WellShaped) (done : unitCall f unit op date n = .ok e) : e.WellShaped := by
  unfold unitCall at done
  split at done
  next unit count both =>
  have counted : count.WellShaped := by
    split at both <;> cases both
    · exact number.scale 3
    · exact number
  split at done
  · next stem found =>
    cases done
    exact .become (upper_stem found known) (by simp [moment, counted])
  · cases done

theorem sound_unitArith {op : String} (known : op ∈ ["ADD", "SUB", "DIFF"]) : (unitArith unit op).Sound := by
  intro f e shaped done
  unfold unitArith at done
  split at done
  · next split =>
    obtain ⟨date, n, _⟩ := shaped.firstTwo split
    exact wellShaped_unitCall known date n done
  · cases done

theorem sound_intervalArith (neutral : DateUnit.IsNeutral unit) (named : Text.IsUpper name) :
    (intervalArith unit name).Sound := by
  intro f e shaped done
  unfold intervalArith at done
  split at done
  · next split =>
    cases done
    obtain ⟨date, n, _⟩ := shaped.firstTwo split
    exact .become named (by simp [date, n, neutral])
  · cases done

omit [Numerals] in
theorem neutral_of_unitOf {word : Expr} (read : unitOf word = .ok unit) : DateUnit.IsNeutral unit := by
  unfold unitOf at read
  split at read
  · next found =>
    cases read
    unfold DateUnit.ofExpr? at found
    split at found
    · exact DateUnit.neutral_of_text found
    · exact DateUnit.neutral_of_text found
    · cases found
  · cases read

theorem sound_unitDiff : unitDiff.Sound := by
  intro f e shaped done
  unfold unitDiff at done
  split at done
  · next word start stop rest split =>
    obtain ⟨_, first, last, _⟩ := shaped.firstThree split
    have moments : ∀ e ∈ [stop, start], e.WellShaped := by simp [first, last]
    obtain ⟨unit, _, done⟩ := Parser.ok_of_bind done
    split at done
    · cases done
      exact Expr.wellShaped_binary.mpr ⟨.known (by decide) moments, by simp⟩
    · split at done
      · next stem found =>
        cases done
        have upper := upper_stem found (show "DIFF" ∈ ["ADD", "SUB", "DIFF"] by simp)
        rw [String.append_assoc] at upper
        exact .become upper moments
      · cases done
  · cases done

theorem sound_unitInterval (named : Text.IsUpper name) : (unitInterval name).Sound := by
  intro f e shaped done
  unfold unitInterval at done
  split at done
  · next split =>
    cases done
    obtain ⟨x, n, _⟩ := shaped.firstTwo split
    exact .become named (by simp [x, Expr.wellShaped_interval.mp n])
  · next split =>
    cases done
    obtain ⟨x, n, _⟩ := shaped.firstTwo split
    have day : DateUnit.IsNeutral "DAY" := by decide
    exact .become named (by simp [x, n, day])
  · next split =>
    obtain ⟨_, n, x, _⟩ := shaped.firstThree split
    obtain ⟨unit, read, done⟩ := Parser.ok_of_bind done
    cases done
    exact .become named (by simp [x, n, neutral_of_unitOf read])
  · cases done

theorem sound_unitAdd : unitAdd.Sound := by
  intro f e shaped done
  unfold unitAdd at done
  split at done
  · next split =>
    obtain ⟨_, n, x, _⟩ := shaped.firstThree split
    obtain ⟨unit, _, done⟩ := Parser.ok_of_bind done
    exact wellShaped_unitCall (by simp) x n done
  · cases done

theorem sound_truncUnit : truncUnit.Sound := by
  have known : "DATE_TRUNC" ∈ callNames := by decide
  intro f e shaped done
  unfold truncUnit at done
  split at done
  · cases done
    exact .known known shaped.args
  · next split =>
    obtain ⟨_, x, _⟩ := shaped.firstTwo split
    split at done <;> cases done
    · exact .known known shaped.args
    · exact .known known (by simp [x])
  · cases done

theorem sound_truncTo (unit : String) : (truncTo unit).Sound := by
  intro f e shaped done
  unfold truncTo at done
  split at done
  · next split =>
    cases done
    exact .known (by decide) (by simp [(shaped.first split).1])
  · cases done

theorem sound_formatArg (named : Text.IsUpper name) (i : Nat) (pattern : DatePattern) :
    (formatArg name i pattern).Sound := by
  rintro f e shaped ⟨⟩
  refine .become named fun e member => ?_
  split at member
  · obtain old | rfl := List.mem_or_eq_of_mem_set member
    · exact shaped.args e old
    · exact Expr.wellShaped_other (by decide)
  · exact shaped.args e member

theorem sound_fixedFormat (format : String) : (fixedFormat format).Sound := by
  intro f e shaped done
  unfold fixedFormat at done
  split at done
  · next split =>
    cases done
    exact .known (by decide) (by simp [(shaped.first split).1])
  · cases done

theorem sound_ifAggregate (named : Text.IsUpper name) : (ifAggregate name).Sound := by
  have choice {f : Call} {args : List Expr} (inner : ∀ e ∈ args, e.WellShaped) : (f.become "IF" args).WellShaped :=
    .known (by decide) inner
  intro f e shaped done
  unfold ifAggregate at done
  split at done
  · next split =>
    cases done
    refine .become named (List.forall_mem_singleton.mpr (choice ?_))
    simp [(shaped.first split).1]
  · next split =>
    cases done
    obtain ⟨x, cond, _⟩ := shaped.firstTwo split
    refine .become named (List.forall_mem_singleton.mpr (choice ?_))
    simp [x, cond]
  · cases done

theorem sound_distinctAggregate (named : Text.IsUpper name) : (distinctAggregate name).Sound := by
  rintro f e shaped ⟨⟩
  exact Expr.wellShaped_call.mpr ⟨named, shaped.args, fun _ none => (nomatch none), fun _ none => (nomatch none)⟩

theorem sound_arrayOf : Reshape.arrayOf.Sound := by
  rintro f e shaped ⟨⟩
  exact Expr.wellShaped_array.mpr shaped.args

omit [Numerals] in
theorem mem_pairUp {args : List Expr} {pair : Expr × Expr} (member : pair ∈ pairUp args) :
    pair.1 ∈ args ∧ pair.2 ∈ args := by
  induction args using pairUp.induct with
  | case1 a b rest ih =>
    obtain rfl | later := List.mem_cons.mp member
    · simp
    · exact ⟨List.mem_cons_of_mem _ (List.mem_cons_of_mem _ (ih later).1),
        List.mem_cons_of_mem _ (List.mem_cons_of_mem _ (ih later).2)⟩
  | case2 args short =>
    rw [pairUp] at member
    · cases member
    · exact short

omit [Numerals] in
theorem pairUp_nonempty {args : List Expr} (two : 2 ≤ args.length) : pairUp args ≠ [] := by
  match args, two with
  | a :: b :: rest, _ => exact List.cons_ne_nil _ _

theorem sound_mapOf : mapOf.Sound := by
  intro f e shaped done
  unfold mapOf at done
  split at done <;> cases done
  refine Expr.wellShaped_map.mpr ⟨by simp, fun e key => ?_, fun e value => ?_⟩
  · obtain ⟨pair, member, rfl⟩ := List.mem_map.mp key
    exact shaped.args _ (mem_pairUp member).1
  · obtain ⟨pair, member, rfl⟩ := List.mem_map.mp value
    exact shaped.args _ (mem_pairUp member).2

theorem sound_mapOfArrays : mapOfArrays.Sound := by
  intro f e shaped done
  unfold mapOfArrays at done
  split at done
  · next split =>
    split at done
    · next same =>
      cases done
      obtain ⟨keys, values, _⟩ := shaped.firstTwo split
      exact Expr.wellShaped_map.mpr ⟨same, Expr.wellShaped_array.mp keys, Expr.wellShaped_array.mp values⟩
    · exact sound_mapOf shaped done
  · exact sound_mapOf shaped done

theorem sound_structOf : structOf.Sound := by
  rintro f e shaped ⟨⟩
  exact Expr.wellShaped_struct.mpr ⟨.inl rfl, shaped.args⟩

omit [Numerals] in
theorem fieldNames_length {pairs : List (Expr × Expr)} {names : List String} (read : fieldNames pairs = .ok names) :
    names.length = pairs.length := by
  induction pairs using fieldNames.induct generalizing names with
  | case1 =>
    cases read
    rfl
  | case2 pos value other rest ih =>
    obtain ⟨later, found, done⟩ := Parser.ok_of_bind read
    cases done
    rw [List.length_cons, List.length_cons, ih found]
  | case3 e other rest unnamed =>
    rw [fieldNames] at read
    · cases read
    · exact unnamed

theorem sound_namedStruct : namedStruct.Sound := by
  intro f e shaped done
  unfold namedStruct at done
  split at done
  · cases done
  · obtain ⟨names, read, done⟩ := Parser.ok_of_bind done
    cases done
    refine Expr.wellShaped_struct.mpr ⟨.inr (by rw [List.length_map, fieldNames_length read]), fun e value => ?_⟩
    obtain ⟨pair, member, rfl⟩ := List.mem_map.mp value
    exact shaped.args _ (mem_pairUp member).2

private theorem wellShaped_arms {args : List Expr} (inner : ∀ e ∈ args, e.WellShaped) :
    ∀ arm ∈ (pairUp args).map fun (condition, result) => (⟨condition, result⟩ : When),
      arm.condition.WellShaped ∧ arm.result.WellShaped := by
  intro arm member
  obtain ⟨⟨condition, result⟩, paired, rfl⟩ := List.mem_map.mp member
  exact ⟨inner _ (mem_pairUp paired).1, inner _ (mem_pairUp paired).2⟩

theorem sound_multiIf : multiIf.Sound := by
  intro f e shaped done
  unfold multiIf at done
  split at done
  · cases done
  · next enough =>
    cases done
    have three : ¬ f.args.length < 3 := fun short => enough (by simp [short])
    refine Expr.wellShaped_caseWhen.mpr ⟨?_, by simp, wellShaped_arms shaped.args, fun e last => ?_⟩
    · exact mt List.map_eq_nil_iff.mp (pairUp_nonempty (by omega))
    · exact shaped.args e (List.mem_of_getLast? last)

theorem sound_decode : Reshape.decode.Sound := by
  intro f e shaped done
  unfold Reshape.decode at done
  split at done
  · next x rest split =>
    obtain ⟨subject, inner⟩ := shaped.first split
    split at done
    · cases done
    · next enough =>
      cases done
      refine Expr.wellShaped_caseWhen.mpr ⟨?_, by simpa using subject, wellShaped_arms inner, fun e last => ?_⟩
      · exact mt List.map_eq_nil_iff.mp (pairUp_nonempty (by omega))
      · split at last
        · exact inner e (List.mem_of_getLast? last)
        · cases last
  · cases done

theorem sound_assertTrue : assertTrue.Sound := by
  intro f e shaped done
  unfold assertTrue at done
  split at done
  · next split =>
    cases done
    exact .known (by decide) (by simp [(shaped.first split).1])
  · cases done

theorem sound_toDate (pattern : DatePattern) : (toDate pattern).Sound := by
  intro f e shaped done
  unfold toDate at done
  split at done
  · next split =>
    cases done
    exact .known (by decide) (by simp [(shaped.first split).1])
  · exact sound_formatArg (upper_callNames _ (by decide)) 1 pattern shaped done

theorem sound_quantile (named : Text.IsUpper name) : (quantile name).Sound := by
  intro f e shaped done
  unfold quantile at done
  split at done
  · cases done
  · next x rest split =>
    obtain ⟨value, inner⟩ := shaped.first split
    have half : IsDecimal "0.5".toList :=
      @IsDecimal.point ['0'] ['5'] (List.forall_mem_singleton.mpr rfl) (List.cons_ne_nil _ _)
      (List.forall_mem_singleton.mpr rfl)
    have level : (rest.head?.getD (.num "0.5")).WellShaped :=
      Expr.wellShaped_optional inner (Expr.wellShaped_num.mpr (Numerals.admits_decimal half))
    have whole : (f.become name [x, rest.head?.getD (.num "0.5")]).WellShaped := .become named (by simp [value, level])
    dsimp only at done
    split at done
    · cases done
      exact whole
    · split at done <;> cases done
      exact whole

/-! ### Steps that some dialects share -/

theorem sound_operator (op : String) : (operator op).Sound := by
  intro f e shaped done
  unfold operator at done
  split at done
  · next split =>
    cases done
    obtain ⟨x, y, _⟩ := shaped.firstTwo split
    exact Expr.wellShaped_binary.mpr ⟨x, y⟩
  · cases done

theorem sound_nvl2 : nvl2.Sound := by
  intro f e shaped done
  unfold nvl2 at done
  split at done
  · next split =>
    cases done
    obtain ⟨x, a, b, _⟩ := shaped.firstThree split
    exact .known (by decide) (by simp [x, a, b])
  · cases done

theorem sound_truncDateOrNumber : truncDateOrNumber.Sound := by
  have number {f : Call} (shaped : f.WellShaped) : (f.become "TRUNCATE" f.args).WellShaped :=
    .known (by decide) shaped.args
  intro f e shaped done
  unfold truncDateOrNumber at done
  split at done
  · next split =>
    split at done <;> cases done
    · exact .known (by decide) (by simp [(shaped.first split).1])
    · exact number shaped
  · cases done
    exact number shaped

theorem sound_daysInterval (named : Text.IsUpper name) : (daysInterval name).Sound := by
  intro f e shaped done
  unfold daysInterval at done
  split at done
  · next split =>
    cases done
    exact .become named (split ▸ shaped.args)
  · next split =>
    cases done
    obtain ⟨x, n, inner⟩ := shaped.firstTwo split
    have day : DateUnit.IsNeutral "DAY" := by decide
    refine .become named (List.forall_mem_cons.mpr ⟨x, List.forall_mem_cons.mpr ⟨?_, inner⟩⟩)
    exact Expr.wellShaped_interval.mpr ⟨day, n⟩
  · cases done

theorem sound_sequence : Reshape.sequence.Sound := by
  intro f e shaped done
  unfold Reshape.sequence at done
  split at done
  · next split =>
    cases done
    obtain ⟨first, last, inner⟩ := shaped.firstTwo split
    exact .known (by decide) (List.forall_mem_cons.mpr ⟨first, List.forall_mem_cons.mpr ⟨last.plus 1, inner⟩⟩)
  · cases done

theorem sound_elementAt : elementAt.Sound := by
  intro f e shaped done
  unfold elementAt at done
  split at done
  · next split =>
    cases done
    obtain ⟨x, i, _⟩ := shaped.firstTwo split
    exact Expr.wellShaped_subscript.mpr ⟨x, i⟩
  · cases done

private theorem wellShaped_text {f : Call} (shaped : f.WellShaped) {x : Expr} (split : f.args = [x]) :
    (Expr.cast f.pos x (.named "STRING") false).WellShaped :=
  Expr.wellShaped_cast.mpr ⟨(shaped.first split).1, TypeSpec.wellShaped_named (by decide) []⟩

theorem sound_toChar (pattern : DatePattern) : (toChar pattern).Sound := by
  have date : (formatArg "DATE_FORMAT" 1 pattern).Sound := sound_formatArg (upper_callNames _ (by decide)) 1 pattern
  intro f e shaped done
  unfold toChar at done
  split at done
  · next split =>
    cases done
    exact wellShaped_text shaped split
  · next split =>
    split at done
    · cases done
      exact .known (by decide) (by simp [(shaped.first split).1])
    · exact date shaped done
  · exact date shaped done

theorem sound_toText (pattern : DatePattern) : (toText pattern).Sound := by
  intro f e shaped done
  unfold toText at done
  split at done
  · next split =>
    cases done
    exact wellShaped_text shaped split
  · exact sound_formatArg (upper_callNames _ (by decide)) 1 pattern shaped done

theorem sound_toDatetime (pattern : DatePattern) : (toDatetime pattern).Sound := by
  intro f e shaped done
  unfold toDatetime at done
  split at done
  · next split =>
    cases done
    exact (shaped.first split).1.asDatetime
  · exact sound_formatArg (upper_callNames _ (by decide)) 1 pattern shaped done

theorem sound_regexpExtract : regexpExtract.Sound := by
  have known : "REGEXP_EXTRACT" ∈ callNames := by decide
  intro f e shaped done
  unfold regexpExtract at done
  split at done
  · next split =>
    cases done
    obtain ⟨x, pattern, _⟩ := shaped.firstTwo split
    exact .known known (by simp [x, pattern])
  · cases done
    exact .known known shaped.args

theorem sound_regexpExtractAll : regexpExtractAll.Sound := by
  intro f e shaped done
  unfold regexpExtractAll at done
  split at done
  · next split =>
    cases done
    obtain ⟨x, pattern, _⟩ := shaped.firstTwo split
    exact .known (by decide) (by simp [x, pattern.grouped])
  · cases done

theorem sound_nested {outer inner : String} (named : Text.IsUpper outer ∧ Text.IsUpper inner) :
    (nested outer inner).Sound := by
  rintro f e shaped ⟨⟩
  exact .become named.1 (List.forall_mem_singleton.mpr (.become named.2 shaped.args))

theorem sound_firstAnd (named : Text.IsUpper name) {extra : Expr} (held : extra.WellShaped) :
    (firstAnd name extra).Sound := by
  rintro f e shaped ⟨⟩
  refine .become named (forall_mem_concat (fun e member => ?_) held)
  exact shaped.args e (List.mem_of_mem_take member)

end Reshape

end SqlDialects
