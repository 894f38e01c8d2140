import SqlDialects.Proofs.FunctionTables
import SqlDialects.Proofs.SyntaxBlame

/-! What the rules of the dialects blame. A rule for types blames the type. Most steps that reshape calls answer with
an expression at the place of the call, and blame the call or one of its arguments. A difference of dates in quarters
has no place, and a cast to a type in quotes has the errors of the text in the quotes. -/

namespace SqlDialects

/-! ### Types -/

theorem TypeRule.Known.blames {rule : TypeRule} (known : TypeRule.Known rule) : rule.Blames := by
  intro n e failed
  cases known with
  | keep | plain | varchar | decimalOf | number => cases failed
  | array =>
    unfold TypeRule.array at failed
    split at failed <;> cases failed
    exact ⟨rfl, rfl⟩
  | map =>
    unfold TypeRule.map at failed
    split at failed <;> cases failed
    exact ⟨rfl, rfl⟩
  | struct =>
    unfold TypeRule.struct at failed
    dsimp only at failed
    split at failed <;> cases failed
    exact ⟨rfl, rfl⟩
  | unwrap =>
    unfold ClickHouse.unwrap at failed
    split at failed <;> cases failed
    exact ⟨rfl, rfl⟩
  | int =>
    unfold MySql.int at failed
    split at failed <;> cases failed
  | decimal =>
    unfold MySql.decimal at failed
    split at failed
    · split at failed <;> cases failed
    · cases failed
  | bit =>
    unfold MySql.bit at failed
    split at failed <;> cases failed

theorem Dialect.ReadsTypes.blames {d : Dialect} (reads : d.ReadsTypes) : d.BlamesTypes :=
  ⟨fun _ _ found => (reads.found found).blames⟩

/-! ### Answers -/

/-- The error stands where one of the expressions does. -/
def Error.Blames (es : List Expr) (e : Error) : Prop :=
    ∃ x ∈ es, ∃ expected found, e = .parse { pos := x.pos, expected, found }

theorem Error.Blames.mono {es fs : List Expr} {e : Error} (blames : e.Blames es) (part : es ⊆ fs) : e.Blames fs := by
  obtain ⟨x, member, rest⟩ := blames
  exact ⟨x, part member, rest⟩

/-- The answer to a call stands where the call stands, or where an argument of it does. -/
inductive Call.Stays (f : Call) : Except Error Expr → Prop
  | made {e : Expr} (placed : e.pos = f.pos) (plain : e.stringText? = none) : f.Stays (.ok e)
  | given {x e : Expr} (member : x ∈ f.args) (placed : e.pos = x.pos)
      (texts : ∀ text ∈ e.stringText?, text ∈ x.stringText?) :
      f.Stays (.ok e)
  | arity (expected found : String) : f.Stays (.error (.parse { pos := f.pos, expected, found }))
  | argument {e : Error} (blames : e.Blames f.args) : f.Stays (.error e)

namespace Call.Stays

variable {f : Call} {es : List Expr}

protected theorem fault {e : Expr} (member : e ∈ f.args) (expected found : String) :
    f.Stays (Call.argumentError e.pos expected found) :=
  .argument ⟨e, member, expected, found, rfl⟩

/-- What is read of arguments first fails at one of them. -/
protected theorem bind {α : Type} {outcome : Except Error α} {rest : α → Except Error Expr}
    (fails : ∀ e, outcome = .error e → e.Blames f.args) (answers : ∀ a, f.Stays (rest a)) :
    f.Stays (outcome >>= rest) := by
  cases outcome with
  | ok a => exact answers a
  | error e => exact .argument (fails e rfl)

end Call.Stays

variable {s : Ground} {f : Call}

theorem Ground.Called.answers (called : s.Called f) {outcome : Except Error Expr} (stays : f.Stays outcome) :
    s.Answers outcome := by
  refine ⟨fun e made => ?_, fun e failed => ?_⟩
  · rw [made] at stays
    cases stays with
    | made placed plain => exact .of (placed ▸ called.place) plain
    | given member placed texts =>
      obtain ⟨place, quoted⟩ := called.args _ member
      exact ⟨placed ▸ place, fun text held => quoted text (texts text held)⟩
  · rw [failed] at stays
    generalize other : Error.parse e = error at stays
    cases stays with
    | arity =>
      cases other
      exact .inl ⟨rfl, called.place⟩
    | argument blames =>
      obtain ⟨x, member, _, _, rfl⟩ := blames
      cases other
      exact .inl ⟨rfl, (called.args x member).place⟩

/-- What is read first can be blamed where it fails, and so can the answer that is made of it. -/
theorem Ground.Answers.bind {α : Type} {outcome : Except Error α} {rest : α → Except Error Expr}
    (fails : ∀ e, outcome = .error (.parse e) → s.Faults e) (answers : ∀ a, outcome = .ok a → s.Answers (rest a)) :
    s.Answers (outcome >>= rest) := by
  cases outcome with
  | ok a => exact answers a rfl
  | error error =>
    refine ⟨by rintro e ⟨⟩, ?_⟩
    rintro e ⟨⟩
    exact fails e rfl

namespace Reshape

/-- The answers of the step stay with the call. -/
def Stays (reshape : Reshape) : Prop := ∀ f : Call, f.Stays (reshape f)

/-! ### Steps that blame an argument -/

theorem blames_unitOf {word : Expr} {e : Error} (failed : unitOf word = .error e) : e.Blames [word] := by
  unfold unitOf at failed
  split at failed <;> cases failed
  exact ⟨word, List.mem_singleton_self _, _, _, rfl⟩

theorem stays_decimalCast (precision : Int) : (decimalCast precision).Stays := by
  intro f
  unfold decimalCast
  split
  · exact .arity _ _
  · exact .made rfl rfl
  · next pos value _ split =>
    have member : .literal pos .number value ∈ f.args := by simp [split]
    split
    · exact .made rfl rfl
    · exact .fault member _ _
  · next split => exact .fault (by simp [split]) _ _

theorem stays_unitCall (unit op : String) (date n : Expr) : f.Stays (unitCall f unit op date n) := by
  unfold unitCall
  split
  split
  · exact .made rfl rfl
  · exact .arity _ _

theorem stays_unitArith (unit op : String) : (unitArith unit op).Stays := by
  intro f
  unfold unitArith
  split
  · exact stays_unitCall ..
  · exact .arity _ _

theorem stays_unitInterval (name : String) : (unitInterval name).Stays := by
  intro f
  unfold unitInterval
  split
  · exact .made rfl rfl
  · exact .made rfl rfl
  · next split =>
    refine .bind (fun e failed => (blames_unitOf failed).mono ?_) fun unit => .made rfl rfl
    simp [split]
  · exact .arity _ _

theorem stays_unitAdd : unitAdd.Stays := by
  intro f
  unfold unitAdd
  split
  · next split =>
    refine .bind (fun e failed => (blames_unitOf failed).mono ?_) fun unit => stays_unitCall ..
    simp [split]
  · exact .arity _ _

theorem blames_fieldNames {pairs : List (Expr × Expr)} {e : Error} (failed : fieldNames pairs = .error e) :
    e.Blames (pairs.map Prod.fst) := by
  induction pairs using fieldNames.induct with
  | case1 => cases failed
  | case2 pos value other rest ih =>
    rw [fieldNames] at failed
    cases read : fieldNames rest with
    | ok names =>
      rw [read] at failed
      cases failed
    | error later =>
      rw [read] at failed
      cases failed
      exact (ih read).mono (List.subset_cons_self _ _)
  | case3 x other rest unnamed =>
    rw [fieldNames] at failed
    · cases failed
      exact ⟨x, List.mem_cons_self, _, _, rfl⟩
    · exact unnamed

theorem stays_namedStruct : namedStruct.Stays := by
  intro f
  unfold namedStruct
  split
  · exact .arity _ _
  · refine .bind (fun e failed => (blames_fieldNames failed).mono fun x named => ?_) fun names => .made rfl rfl
    obtain ⟨pair, member, rfl⟩ := List.mem_map.mp named
    exact (mem_pairUp member).1

theorem stays_quantile (name : String) : (quantile name).Stays := by
  intro f
  unfold quantile
  split
  · exact .arity _ _
  · next x rest split =>
    dsimp only
    split
    · exact .made rfl rfl
    · next wrong =>
      split
      · next pos kind value level =>
        -- The level in place of an absent one is right.
        cases rest with
        | nil => exact absurd (by decide +kernel) wrong
        | cons given rest =>
          obtain rfl : given = .literal pos kind value := level
          have member : .literal pos kind value ∈ f.args := by simp [split]
          exact .fault member _ _
      · exact .made rfl rfl

theorem stays_toDatetime (pattern : DatePattern) : (toDatetime pattern).Stays := by
  intro f
  unfold toDatetime
  split
  · next x split =>
    have member : x ∈ f.args := by simp [split]
    have given : f.Stays (.ok x) := .given member rfl fun _ held => held
    have cast : f.Stays (.ok (.cast x.pos x (.named "DATETIME") false)) := .given member rfl (by rintro _ ⟨⟩)
    unfold Expr.asDatetime
    split
    · split
      · exact given
      · exact cast
    · exact cast
  · exact .made rfl rfl

theorem stays_startOfInterval : ClickHouse.startOfInterval.Stays := by
  intro f
  unfold ClickHouse.startOfInterval
  split
  · exact .made rfl rfl
  · next split => exact .fault (by simp [split]) _ _
  · exact .arity _ _

theorem stays_datePart : Postgres.datePart.Stays := by
  intro f
  unfold Postgres.datePart
  split
  · next split =>
    split
    · exact .made rfl rfl
    · exact .made rfl rfl
    · exact .fault (by simp [split]) _ _
  · exact .arity _ _

theorem blames_precisions {es : List Expr} {e : Error} (failed : Snowflake.precisions es = .error e) : e.Blames es := by
  induction es using Snowflake.precisions.induct with
  | case1 => cases failed
  | case2 pos value rest n read sized ih =>
    rw [Snowflake.precisions, read] at failed
    dsimp only at failed
    rw [if_pos sized] at failed
    cases later : Snowflake.precisions rest with
    | ok params =>
      rw [later] at failed
      cases failed
    | error other =>
      rw [later] at failed
      cases failed
      exact (ih later).mono (List.subset_cons_self _ _)
  | case3 pos value rest n read large =>
    rw [Snowflake.precisions, read] at failed
    dsimp only at failed
    rw [if_neg large] at failed
    cases failed
    exact ⟨_, List.mem_cons_self, _, _, rfl⟩
  | case4 pos value rest unread =>
    rw [Snowflake.precisions, unread] at failed
    cases failed
    exact ⟨_, List.mem_cons_self, _, _, rfl⟩
  | case5 other rest unnumbered ih =>
    rw [Snowflake.precisions] at failed
    · exact (ih failed).mono (List.subset_cons_self _ _)
    · exact unnumbered

theorem stays_toNumber : Snowflake.toNumber.Stays := by
  intro f
  unfold Snowflake.toNumber
  split
  · next split =>
    refine .bind (fun e failed => (blames_precisions failed).mono ?_) fun params => .made rfl rfl
    simp [split]
  · exact .arity _ _

/-! ### Steps that blame something else -/

/-- Quarters are counted by an expression without a place. -/
theorem locates_unitDiff (zero : s.place {}) : unitDiff.Locates s := by
  intro f called
  unfold unitDiff
  split
  · next word _ _ _ split =>
    have rooted : s.Rooted word := called.args word (by simp [split])
    refine .bind (fun e failed => ?_) fun unit _ => ?_
    · obtain ⟨_, member, _, _, same⟩ := blames_unitOf failed
      obtain rfl := List.mem_singleton.mp member
      cases same
      exact .inl ⟨rfl, rooted.place⟩
    split
    · exact ⟨by rintro e ⟨⟩; exact .of zero rfl, by rintro e ⟨⟩⟩
    · have member : word ∈ f.args := by simp [split]
      split
      · exact called.answers (.made rfl rfl)
      · exact called.answers (.fault member _ _)
  · exact called.answers (.arity _ _)

theorem locates_orElse {reshape : Reshape} (locates : reshape.Locates s) (zero : Expr) :
    (ClickHouse.orElse reshape zero).Locates s := by
  intro f called
  refine .bind (fun e failed => (locates called).blames failed) fun value _ => ?_
  exact called.answers (.made rfl rfl)

theorem locates_typedCast
    (types : ∀ text, s.quoted text → ∀ e, Parser.parseType ClickHouse.typeBase text = .error (.parse e) → s.Faults e)
    (withDefault : Bool) : (ClickHouse.typedCast withDefault).Locates s := by
  intro f called
  unfold ClickHouse.typedCast
  split
  · next x pos text rest split =>
    have rooted : s.Rooted (.literal pos .string text) := called.args _ (by simp [split])
    refine .bind (types text (rooted.quoted text rfl)) fun type _ => ?_
    dsimp only
    split <;> exact called.answers (.made rfl rfl)
  · next split => exact called.answers (.fault (by simp [split]) _ _)
  · exact called.answers (.arity _ _)

/-! ### All steps -/

variable [Numerals] {diff cast : Prop}

theorem locates_known {reshape : Reshape} (known : Known diff cast reshape) (zero : diff → s.place {})
    (types : cast → ∀ text, s.quoted text → ∀ e, Parser.parseType ClickHouse.typeBase text =
      .error (.parse e) → s.Faults e) :
    reshape.Locates s := by
  have stay {reshape : Reshape} (stays : reshape.Stays) : reshape.Locates s := fun f called => called.answers (stays f)
  induction known with
  | unitDiff allowed => exact locates_unitDiff (zero allowed)
  | orElse _ _ locates => exact locates_orElse locates _
  | typedCast allowed withDefault => exact locates_typedCast (types allowed) withDefault
  | decimalCast precision => exact stay (stays_decimalCast precision)
  | unitArith unit => exact stay (stays_unitArith unit _)
  | unitInterval => exact stay (stays_unitInterval _)
  | unitAdd => exact stay stays_unitAdd
  | namedStruct => exact stay stays_namedStruct
  | quantile => exact stay (stays_quantile _)
  | toDatetime pattern => exact stay (stays_toDatetime pattern)
  | startOfInterval => exact stay stays_startOfInterval
  | datePart => exact stay stays_datePart
  | toNumber => exact stay stays_toNumber
  | _ =>
    -- All others make an expression at the place of the call, or miss an argument.
    apply stay
    intro f
    simp only [reorder, withArgs, firstArgs, skipArgs, castTo, interval, intervalArith, truncUnit, truncTo, formatArg,
      fixedFormat, ifAggregate, distinctAggregate, arrayOf, mapOf, mapOfArrays, structOf, multiIf,
      decode, assertTrue, toDate,
      operator, nvl2, truncDateOrNumber, daysInterval, sequence, elementAt, toChar, toText,
      regexpExtract, regexpExtractAll,
      nested, firstAnd, ClickHouse.toDate, ClickHouse.castOrDefault, ClickHouse.quarters,
      ClickHouse.intDiv, ClickHouse.isNull,
      ClickHouse.arrayStringConcat, ClickHouse.neighbor, ClickHouse.jsonExtract,
      ClickHouse.powerOf, Presto.replaceEmpty,
      Presto.codepoint, Presto.jsonValue, Presto.dateFormat, Presto.week, Presto.jsonArrayContains, Presto.jsonArrayGet,
      Hive.convertZone, Oracle.toDate, Postgres.jsonExtractPath, Postgres.toTimestamp, Postgres.log, Snowflake.div0]
    repeat' split
    all_goals first
      | exact .made rfl rfl
      | exact .arity _ _

end Reshape

end SqlDialects
