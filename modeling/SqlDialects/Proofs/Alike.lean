import Mathlib.Data.List.Forall2
import Mathlib.Data.Option.Basic
import SqlDialects.Proofs.Settling
import SqlDialects.Proofs.RoundTrip

/-! Trees of columns, literals, operators and plain calls that differ in places only. The rules on the way to a
dialect look at names, texts and numbers of arguments, never at places or at where a tree comes from, so they keep
such trees alike; and the printer writes them as one text. -/

namespace SqlDialects

/-! ### Alike trees -/

/-- The trees say the same; where they were read is all that may set them apart. -/
inductive Alike : Expr → Expr → Prop
  | column (p q : Position) (path : List Ident) : Alike (.column p path) (.column q path)
  | literal (p q : Position) (kind : LiteralKind) (value : String) :
      Alike (.literal p kind value) (.literal q kind value)
  | binary (p q : Position) (op : String) {left right left' right' : Expr} (first : Alike left left')
    (second : Alike right right') : Alike (.binary p op left right) (.binary q op left' right')
  | unary (p q : Position) (op : String) {operand operand' : Expr} (inner : Alike operand operand') :
    Alike (.unary p op operand) (.unary q op operand')
  | call (p q : Position) (name : String) (distinct : Bool) {args args' : List Expr} (size : args.length = args'.length)
    (each : ∀ pair ∈ args.zip args', Alike pair.1 pair.2) :
    Alike (.call ⟨p, name, args, distinct, [], none⟩) (.call ⟨q, name, args', distinct, [], none⟩)

/-- Lists of trees that are alike one by one. -/
abbrev AlikeAll : List Expr → List Expr → Prop := List.Forall₂ Alike

/-- Calls of one function whose arguments are alike. -/
inductive AlikeCall : Call → Call → Prop
  | mk (p q : Position) (name : String) (distinct : Bool) {args args' : List Expr} (each : AlikeAll args args') :
    AlikeCall ⟨p, name, args, distinct, [], none⟩ ⟨q, name, args', distinct, [], none⟩

theorem alikeAll_iff_zip {es es' : List Expr} :
    AlikeAll es es' ↔ es.length = es'.length ∧ ∀ pair ∈ es.zip es', Alike pair.1 pair.2 := by
  rw [AlikeAll, List.forall₂_iff_zip]
  exact and_congr_right fun _ => ⟨fun each pair inside => each inside, fun each _ _ inside => each _ inside⟩

theorem AlikeCall.alike {f g : Call} (calls : AlikeCall f g) : Alike (.call f) (.call g) := by
  obtain ⟨p, q, name, distinct, each⟩ := calls
  obtain ⟨size, pairs⟩ := alikeAll_iff_zip.mp each
  exact .call p q name distinct size pairs

theorem Alike.of_call {f g : Call} (alike : Alike (.call f) (.call g)) : AlikeCall f g := by
  cases alike with
  | call p q name distinct size each => exact .mk p q name distinct (alikeAll_iff_zip.mpr ⟨size, each⟩)

theorem Alike.become (f g : Call) (name : String) {args args' : List Expr} (each : AlikeAll args args') :
    Alike (.call (f.moved name args)) (.call (g.moved name args')) :=
  AlikeCall.alike (.mk f.pos g.pos name false each)

variable {e e' : Expr}

theorem Alike.node (alike : Alike e e') : e.kind = e'.kind ∧ Node.name (.expr e) = Node.name (.expr e') ∧
    ∀ pattern : Pattern, pattern.matchesArity (.expr e) = pattern.matchesArity (.expr e') := by
  cases alike with
  | call p q name distinct size each =>
    have empty : ∀ {es es' : List Expr}, es.length = es'.length → es.isEmpty = es'.isEmpty := by
      rintro (_ | ⟨e, es⟩) (_ | ⟨e', es'⟩) same <;> simp_all
    exact ⟨rfl, rfl, fun pattern => by simp [Pattern.matchesArity, size, empty size]⟩
  | _ => exact ⟨rfl, rfl, fun _ => rfl⟩

/-! ### Arithmetic on alike trees -/

theorem Alike.negate (alike : Alike e e') : Alike e.negate e'.negate := by
  cases alike with
  | column p q path => exact .unary _ _ _ (.column p q path)
  | literal p q kind value =>
    cases kind with
    | number =>
      simp only [Expr.negate]
      split
      · exact .literal ..
      · exact .literal ..
    | string | null | boolean => exact .unary _ _ _ (.literal p q _ value)
  | binary p q op first second => exact .unary _ _ _ (.binary p q op first second)
  | unary p q op inner =>
    by_cases minus : op = "-"
    · subst minus
      exact inner
    · have unchanged {p : Position} {operand : Expr} :
          (Expr.unary p op operand).negate = .unary p "-" (.unary p op operand) := by
        rw [Expr.negate]
        · rfl
        · simp
        · rintro _ _ ⟨rfl, rfl, rfl⟩
          exact minus rfl
      rw [unchanged, unchanged]
      exact .unary _ _ _ (.unary p q op inner)
  | call p q name distinct size each => exact .unary _ _ _ (.call p q name distinct size each)

/-- A number added to alike trees. -/
private theorem alike_sum (alike : Alike e e') (delta : Int) (p q : Position) :
    Alike (if delta > 0 then .binary p "+" e (.num delta.repr) else .binary p "-" e (.num (-delta).repr))
      (if delta > 0 then .binary q "+" e' (.num delta.repr) else .binary q "-" e' (.num (-delta).repr)) := by
  split
  · exact .binary _ _ _ alike (.literal ..)
  · exact .binary _ _ _ alike (.literal ..)

/-- An earlier offset that a number is merged with: it vanishes, stays positive or stays negative. -/
private theorem alike_merged (alike : Alike e e') (d : Decimal) (p q r s : Position) : Alike
    (if d.digits = 0 then e else if d.digits > 0 then .binary p "+" e (.literal r .number d.toText)
      else .binary p "-" e (.literal r .number d.neg.toText))
    (if d.digits = 0 then e' else if d.digits > 0 then .binary q "+" e' (.literal s .number d.toText)
      else .binary q "-" e' (.literal s .number d.neg.toText)) := by
  split
  · exact alike
  split
  · exact .binary _ _ _ alike (.literal ..)
  · exact .binary _ _ _ alike (.literal ..)

theorem Alike.plus (alike : Alike e e') (delta : Int) : Alike (e.plus delta) (e'.plus delta) := by
  unfold Expr.plus
  by_cases zero : delta = 0
  · rw [if_pos zero, if_pos zero]
    exact alike
  rw [if_neg zero, if_neg zero]
  have sum := alike_sum alike delta
  cases alike with
  | column | unary | call => exact sum _ _
  | literal p q kind value =>
    cases kind with
    | number =>
      dsimp only
      split
      · exact .literal ..
      · exact sum _ _
    | string | null | boolean => exact sum _ _
  | binary p q op first second =>
    cases second with
    | literal r s kind value =>
      cases kind with
      | number =>
        dsimp only
        split
        · cases Decimal.ofText? value with
          | some d => exact alike_merged first _ p q r s
          | none => exact sum _ _
        · exact sum _ _
      | string | null | boolean => exact sum _ _
    | column | binary | unary | call => exact sum _ _

/-! ### Rules that see no places -/

/-- The same is done on both sides: nothing, or nodes are replaced by alike ones. -/
inductive Agree : Except Error (Option Node) → Except Error (Option Node) → Prop
  | nothing : Agree (.ok none) (.ok none)
  | changed {e e' : Expr} (alike : Alike e e') : Agree (.ok (some (.expr e))) (.ok (some (.expr e')))

theorem Agree.of_rel {out out' : Option Expr} (rel : Option.Rel Alike out out') :
    Agree (.ok (out.map .expr)) (.ok (out'.map .expr)) := by
  cases rel with
  | some alike => exact .changed alike
  | none => exact .nothing

namespace Rule

/-- The rule does the same to alike expressions, wherever they come from. -/
def Blind (r : Rule) : Prop := ∀ (ctx ctx' : Context) (e e' : Expr), ctx.target.name = ctx'.target.name → Alike e e' →
  Agree (r.fire? ctx (.expr e)) (r.fire? ctx' (.expr e'))

theorem blind_of_transform {r : Rule} {transform : Transform} (is : r.transform = some transform)
    (anywhere : r.pattern.source = "") (same : ∀ ctx ctx' e e', Alike e e' →
      Agree (transform ctx (.expr e)) (transform ctx' (.expr e'))) : r.Blind := by
  intro ctx ctx' e e' target alike
  obtain ⟨kind, name, arity⟩ := alike.node
  have kinds : (Node.expr e).kind = (Node.expr e').kind := kind
  have matched : r.pattern.matches (.expr e) ctx = r.pattern.matches (.expr e') ctx' := by
    simp only [Pattern.matches, anywhere, kinds, name, target, arity]
    rfl
  simp only [fire?, is, matched]
  split
  · exact same ctx ctx' e e' alike
  · exact .nothing

theorem blind_onCall {target canonical : String} {step : Call → Option Expr}
    (same : ∀ f g, AlikeCall f g → Option.Rel Alike (step f) (step g)) : (onCall target canonical step).Blind := by
  refine blind_of_transform rfl rfl fun ctx ctx' e e' alike => ?_
  cases alike with
  | call p q name distinct size each =>
    exact .of_rel (same _ _ (.mk p q name distinct (alikeAll_iff_zip.mpr ⟨size, each⟩)))
  | column | literal | binary | unary => exact .nothing

@[simp] theorem blind_sameArgs (target canonical native : String) : (sameArgs target canonical native).Blind := by
  refine blind_onCall ?_
  rintro _ _ ⟨p, q, name, distinct, each⟩
  exact .some (Alike.become _ _ native each)

private theorem alikeAll_get {es es' : List Expr} (each : AlikeAll es es') (i : Nat) :
    Option.Rel Alike es[i]? es'[i]? := by
  induction each generalizing i with
  | nil => exact .none
  | cons first rest ih =>
    cases i with
    | zero => exact .some first
    | succ i => exact ih i

private theorem alikeAll_set {es es' : List Expr} (each : AlikeAll es es') (alike : Alike e e') (i : Nat) :
    AlikeAll (es.set i e) (es'.set i e') := by
  induction each generalizing i with
  | nil => exact .nil
  | cons first rest ih =>
    cases i with
    | zero => exact .cons alike rest
    | succ i => exact .cons first (ih i)

private theorem alikeAll_picked {es es' : List Expr} (each : AlikeAll es es') (order : List Nat) :
    AlikeAll (order.filterMap (es[·]?)) (order.filterMap (es'[·]?)) := by
  induction order with
  | nil => exact .nil
  | cons i order ih =>
    have rel := alikeAll_get each i
    rw [List.filterMap_cons, List.filterMap_cons]
    revert rel
    generalize es[i]? = out
    generalize es'[i]? = out'
    rintro (⟨alike⟩ | -)
    · exact .cons alike ih
    · exact ih

private theorem alikeAll_others {es es' : List Expr} (each : AlikeAll es es') (p : Nat → Bool) (start : Nat) :
    AlikeAll (((es.zipIdx start).filter (p ·.2)).map (·.1)) (((es'.zipIdx start).filter (p ·.2)).map (·.1)) := by
  induction each generalizing start with
  | nil => exact .nil
  | cons first rest ih =>
    rw [List.zipIdx_cons, List.zipIdx_cons, List.filter_cons, List.filter_cons]
    by_cases kept : p start
    · rw [if_pos kept, if_pos kept]
      exact .cons first (ih (start + 1))
    · rw [if_neg kept, if_neg kept]
      exact ih (start + 1)

@[simp] theorem blind_native (target canonical native : String) (order : List Nat) :
    (Rule.native target canonical native order).Blind := by
  refine blind_of_transform rfl rfl fun ctx ctx' e e' alike => ?_
  cases alike with
  | call p q name distinct size pairs =>
    have each := alikeAll_iff_zip.mpr ⟨size, pairs⟩
    have both := List.rel_append (alikeAll_picked each order) (alikeAll_others each (fun i => !order.contains i) 0)
    exact .changed (AlikeCall.alike (.mk p q native distinct both))
  | column | literal | binary | unary => exact .nothing

@[simp] theorem blind_format (target canonical native : String) (i : Nat) (pattern : DatePattern) :
    (format target canonical native i pattern).Blind := by
  refine blind_onCall ?_
  rintro _ _ (@⟨p, q, name, distinct, args, args', each⟩)
  refine .some (Alike.become _ _ native ?_)
  have rel := alikeAll_get each i
  revert rel
  dsimp only
  generalize args[i]? = out
  generalize args'[i]? = out'
  rintro (alike | -)
  · cases alike with
    | literal p q kind value =>
      cases kind with
      | string => exact alikeAll_set each (.literal ..) i
      | _ => exact each
    | _ => exact each
  · exact each

private theorem alike_unit (style : UnitStyle) (f g : Call) (unit : String) :
    Alike (style.expr f unit) (style.expr g unit) := by
  cases style with
  | string => exact .literal ..
  | word => exact .column ..

theorem blind_unitCalls (target diff add : String) (style : UnitStyle) :
    ∀ r ∈ unitCalls target diff add style, r.Blind := by
  intro r member
  obtain ⟨unit, _, listed⟩ := List.mem_flatMap.mp member
  have unitFirst := fun f g => alike_unit style f g unit.1
  simp only [List.mem_cons, List.not_mem_nil, or_false] at listed
  obtain rfl | rfl | rfl := listed
  all_goals
    refine blind_onCall ?_
    rintro _ _ ⟨p, q, name, distinct, (- | ⟨x, - | ⟨y, - | ⟨z, rest⟩⟩⟩)⟩
  all_goals first | exact .none | skip
  · exact .some (Alike.become _ _ diff (.cons (unitFirst _ _) (.cons y (.cons x .nil))))
  · exact .some (Alike.become _ _ add (.cons (unitFirst _ _) (.cons y (.cons x .nil))))
  · exact .some (Alike.become _ _ add (.cons (unitFirst _ _) (.cons y.negate (.cons x .nil))))

theorem blind_intervalCalls (target add : String) : ∀ r ∈ intervalCalls target add, r.Blind := by
  intro r member
  simp only [intervalCalls, List.mem_cons, List.not_mem_nil, or_false] at member
  -- no interval is among the arguments of alike calls
  obtain rfl | rfl := member <;>
  · refine blind_onCall ?_
    rintro _ _ ⟨p, q, name, distinct, (- | ⟨x, - | ⟨y, rest⟩⟩)⟩
    · exact .none
    · exact .none
    · cases y <;> exact .none

end Rule

/-! ### The rules of the registered dialects -/

@[simp] theorem Presto.blind_regexpLike (name : String) : (regexpLike name).Blind := by
  refine Rule.blind_of_transform rfl rfl fun ctx ctx' e e' alike => ?_
  cases alike with
  | binary p q op first second => exact .changed (AlikeCall.alike (.mk _ _ _ _ (.cons first (.cons second .nil))))
  | column | literal | unary | call => exact .nothing

theorem Spark.sequenceCall_alike (f g : Call) (calls : AlikeCall f g) :
    Option.Rel Alike (sequenceCall f) (sequenceCall g) := by
  obtain ⟨p, q, name, distinct, (- | ⟨first, - | ⟨last, rest⟩⟩)⟩ := calls
  · exact .none
  · exact .none
  · exact .some (Alike.become _ _ "SEQUENCE" (.cons first (.cons (last.plus (-1)) rest)))

theorem Oracle.truncCall_alike (f g : Call) (calls : AlikeCall f g) :
    Option.Rel Alike (truncCall f) (truncCall g) := by
  obtain ⟨p, q, name, distinct, (- | ⟨first, - | ⟨second, - | ⟨third, rest⟩⟩⟩)⟩ := calls
  · exact .none
  · exact .none
  · cases second with
    | literal r s kind value =>
      simp only [truncCall]
      cases DateUnit.ofText? value with
      | none => exact .none
      | some unit =>
        simp only [Option.bind_eq_bind, Option.bind_some]
        cases Reshape.truncModels.lookup unit with
        | none => exact .none
        | some model => exact .some (Alike.become _ _ "TRUNC" (.cons first (.cons (.literal ..) .nil)))
    | column | binary | unary | call => exact .none
  · cases second <;> exact .none

namespace Postgres

private theorem jsonKey_alike {e e' : Expr} (alike : Alike e e') : Option.Rel Alike (jsonKey? e) (jsonKey? e') := by
  cases alike with
  | literal p q kind value =>
    cases kind with
    | string =>
      unfold jsonKey?
      dsimp only
      split
      · split
        · exact .none
        · exact .some (.literal ..)
      · split
        · exact .some (.literal ..)
        · exact .none
      · exact .none
    | number | null | boolean => exact .none
  | column | binary | unary | call => exact .none

@[simp] theorem blind_arrow (canonical op : String) : (arrow canonical op).Blind := by
  refine Rule.blind_of_transform rfl rfl fun ctx ctx' e e' alike => ?_
  cases alike with
  | column | literal | binary | unary => exact .nothing
  | call p q name distinct size pairs =>
    obtain - | ⟨x, - | ⟨path, - | ⟨more, rest⟩⟩⟩ := alikeAll_iff_zip.mpr ⟨size, pairs⟩
    · exact .nothing
    · exact .nothing
    · have rel := jsonKey_alike path
      dsimp only
      revert rel
      generalize jsonKey? _ = out
      generalize jsonKey? _ = out'
      rintro (⟨key⟩ | -)
      · exact .changed (.binary _ _ op x key)
      · exact .nothing
    · exact .nothing

@[simp] theorem blind_regexp : regexp.Blind := by
  refine Rule.blind_of_transform rfl rfl fun ctx ctx' e e' alike => ?_
  cases alike with
  | binary p q op first second => exact .changed (.binary _ _ "~" first second)
  | column | literal | unary | call => exact .nothing

end Postgres

namespace Hive

theorem blind_rules (target : String) : ∀ r ∈ rules target, r.Blind := by
  simp only [rules, List.forall_mem_cons, Rule.blind_format, Rule.blind_sameArgs, true_and, List.not_mem_nil,
    false_implies, implies_true, and_true]
  refine ⟨Rule.blind_onCall ?_, Rule.blind_onCall ?_⟩ <;>
  · rintro _ _ ⟨p, q, name, distinct, (- | ⟨x, - | ⟨y, rest⟩⟩)⟩
    · exact .none
    · exact .none
    · cases y <;> exact .none

theorem blind_readDate : readDate.Blind := by
  refine Rule.blind_onCall ?_
  rintro _ _ ⟨p, q, name, distinct, (- | ⟨x, - | ⟨format, - | ⟨more, rest⟩⟩⟩)⟩
  · exact .none
  · exact .none
  · refine .some (Alike.become _ _ "FROM_UNIXTIME" (.cons
      (Alike.become _ _ "UNIX_TIMESTAMP" (.cons x (.cons ?_ .nil))) .nil))
    have whole := format
    cases format with
    | literal p q kind value => cases kind <;> exact .literal ..
    | column | binary | unary | call => exact whole
  · exact .none

end Hive

namespace Doris

private theorem blind_dayOfWeek : dayOfWeek.Blind := by
  refine Rule.blind_of_transform rfl rfl fun ctx ctx' e e' alike => ?_
  cases alike with
  | call p q name distinct size pairs =>
    obtain - | ⟨x, - | ⟨y, rest⟩⟩ := alikeAll_iff_zip.mpr ⟨size, pairs⟩
    · exact .nothing
    · have day := AlikeCall.alike (.mk p q "DAYOFWEEK" false (.cons x .nil))
      exact .changed (.binary _ _ _ (.binary _ _ _ (.binary _ _ _ day (.literal ..)) (.literal ..)) (.literal ..))
    · exact .nothing
  | column | literal | binary | unary => exact .nothing

private theorem blind_ilocate : ilocate.Blind := by
  refine Rule.blind_of_transform rfl rfl fun ctx ctx' e e' alike => ?_
  cases alike with
  | call p q name distinct size pairs =>
    obtain - | ⟨needle, - | ⟨text, rest⟩⟩ := alikeAll_iff_zip.mpr ⟨size, pairs⟩
    · exact .nothing
    · exact .nothing
    · have lowered {e e' : Expr} (alike : Alike e e') :=
        AlikeCall.alike (.mk p q "LOWER" false (.cons alike .nil))
      exact .changed (AlikeCall.alike (.mk p q "LOCATE" false (.cons (lowered needle) (.cons (lowered text) rest))))
  | column | literal | binary | unary => exact .nothing

private theorem blind_ilike : ilike.Blind := by
  refine Rule.blind_of_transform rfl rfl fun ctx ctx' e e' alike => ?_
  cases alike with
  | binary p q op first second =>
    have lowered {e e' : Expr} (alike : Alike e e') :=
      AlikeCall.alike (.mk e.pos e'.pos "LOWER" false (.cons alike .nil))
    exact .changed (.binary p q "LIKE" (lowered first) (lowered second))
  | column | literal | unary | call => exact .nothing

/-- Doris's other rules look for filters, intervals, queries and tables. -/
theorem blind_rules : ∀ r ∈ rules, r.Blind := by
  simp only [rules, List.forall_mem_cons, List.not_mem_nil, false_implies, implies_true, and_true]
  refine ⟨blind_dayOfWeek, blind_ilocate, ?_, blind_ilike, ?_, ?_, ?_⟩
  all_goals
    refine Rule.blind_of_transform rfl rfl fun ctx ctx' e e' alike => ?_
    cases alike <;> exact .nothing

end Doris

private theorem presto_blind (name : String) (aliases : List String) :
    ∀ r ∈ (Presto.profileOf name aliases).outbound, r.Blind := by
  refine List.forall_mem_append.mpr ⟨List.forall_mem_append.mpr ⟨?_, ?_⟩, ?_⟩
  · exact Rule.blind_unitCalls _ _ _ _
  · exact Rule.blind_intervalCalls _ _
  · simp [Rule.blind_onCall Spark.sequenceCall_alike]

private theorem mySql_blind : ∀ r ∈ MySql.profile.outbound, r.Blind := by
  refine List.forall_mem_append.mpr ⟨Rule.blind_unitCalls _ _ _ _, ?_⟩
  simp only [List.forall_mem_cons, List.not_mem_nil, false_implies, implies_true, and_true]
  refine ⟨Rule.blind_onCall ?_, Rule.blind_onCall ?_⟩
  · rintro _ _ ⟨p, q, name, distinct, (- | ⟨x, - | ⟨y, rest⟩⟩)⟩
    · exact .none
    · exact .some (.binary _ _ _ (Alike.become _ _ "WEEKDAY" (.cons x .nil)) (.literal ..))
    · exact .none
  · rintro _ _ ⟨p, q, name, distinct, (- | ⟨x, - | ⟨y, rest⟩⟩)⟩
    · exact .none
    · exact .none
    · have lowered {e e' : Expr} (alike : Alike e e') :=
        AlikeCall.alike (.mk p q "LOWER" false (.cons alike .nil))
      exact .some (Alike.become _ _ "LOCATE" (.cons (lowered x) (.cons (lowered y) rest)))

/-- No rule on the way to a registered dialect sees places. -/
theorem blind_outbound {entry : Entry} (member : entry ∈ Registry.standard.entries) :
    ∀ r ∈ entry.profile.outbound, r.Blind := by
  obtain ⟨profile, known, rfl⟩ := List.mem_map.mp member
  clear member
  change ∀ r ∈ profile.outbound, r.Blind
  simp only [List.mem_cons, List.not_mem_nil, or_false] at known
  obtain rfl | rfl | rfl | rfl | rfl | rfl | rfl | rfl | rfl | rfl | rfl := known
  · exact nofun
  · exact Doris.blind_rules
  · exact List.forall_mem_append.mpr ⟨Hive.blind_rules "hive", by simp [Hive.blind_readDate]⟩
  · exact mySql_blind
  · simp [Oracle.profile, Rule.blind_onCall Oracle.truncCall_alike]
  · simp [Postgres.profile]
  · exact presto_blind _ _
  · refine List.forall_mem_append.mpr ⟨List.forall_mem_append.mpr ⟨?_, ?_⟩, by simp⟩
    · exact Rule.blind_unitCalls _ _ _ _
    · exact Rule.blind_intervalCalls _ _
  · exact List.forall_mem_append.mpr ⟨Hive.blind_rules "spark", by simp [Rule.blind_onCall Spark.sequenceCall_alike]⟩
  · simp [Teradata.profile]
  · exact presto_blind _ _

/-! ### Rules together -/

namespace Rule

variable {ctx ctx' : Context} {rules : List Rule}

private theorem firstChange_agree (blind : ∀ r ∈ rules, r.Blind) (target : ctx.target.name = ctx'.target.name)
    (alike : Alike e e') :
    (firstChange ctx (.expr e) rules = .ok none ∧ firstChange ctx' (.expr e') rules = .ok none) ∨
      ∃ f f' kept rest, Alike f f' ∧ rest ⊆ rules ∧
        firstChange ctx (.expr e) rules = .ok (some (⟨.expr f, kept⟩, rest)) ∧
        firstChange ctx' (.expr e') rules = .ok (some (⟨.expr f', kept⟩, rest)) := by
  induction rules with
  | nil => exact .inl ⟨rfl, rfl⟩
  | cons r rs ih =>
    have first := blind r List.mem_cons_self ctx ctx' e e' target alike
    rw [firstChange, firstChange]
    revert first
    generalize r.fire? ctx (.expr e) = out
    generalize r.fire? ctx' (.expr e') = out'
    rintro (- | ⟨changed⟩)
    · obtain ⟨left, right⟩ | ⟨f, f', kept, rest, same, inside, left, right⟩ :=
        ih fun s member => blind s (List.mem_cons_of_mem r member)
      · exact .inl ⟨by simp [left, bind, Except.bind, pure, Except.pure],
          by simp [right, bind, Except.bind, pure, Except.pure]⟩
      · refine .inr ⟨f, f', kept, r :: rest, same, List.cons_subset_cons r inside, ?_, ?_⟩
        · simp [left, bind, Except.bind, pure, Except.pure]
        · simp [right, bind, Except.bind, pure, Except.pure]
    · exact .inr ⟨_, _, r.keeps, rs, changed, List.subset_cons_self r rs, rfl, rfl⟩

theorem settle_agree (blind : ∀ r ∈ rules, r.Blind) (target : ctx.target.name = ctx'.target.name) (rounds : Nat)
    (alike : Alike e e') : Agree ((settle ctx rounds rules (.expr e)).map (Option.map Replacement.node))
      ((settle ctx' rounds rules (.expr e')).map (Option.map Replacement.node)) := by
  induction rounds generalizing e e' rules with
  | zero => exact .nothing
  | succ rounds ih =>
    rw [settle, settle]
    obtain ⟨left, right⟩ | ⟨f, f', kept, rest, same, inside, left, right⟩ := firstChange_agree blind target alike
    · rw [left, right]
      exact .nothing
    · have later := ih (fun r member => blind r (inside member)) same
      rw [left, right]
      simp only [bind, Except.bind]
      revert later
      generalize settle ctx rounds rest (.expr f) = out
      generalize settle ctx' rounds rest (.expr f') = out'
      intro later
      obtain x | - | ⟨m, first⟩ := out <;> obtain x' | - | ⟨m', last⟩ := out' <;> cases later
      · exact .changed same
      · next changed => exact .changed changed

end Rule

/-! ### Printing -/

theorem Alike.prec_eq (alike : Alike e e') : e.prec = e'.prec := by
  cases alike <;> rfl

theorem Alike.startsWithMinus_eq (alike : Alike e e') : e.startsWithMinus = e'.startsWithMinus := by
  cases alike with
  | literal p q kind value => cases kind <;> rfl
  | column | binary | unary | call => rfl

private theorem Alike.atLevel_eq (alike : Alike e e') (level : Nat) (text : String) :
    e.atLevel level text = e'.atLevel level text := by
  rw [Expr.atLevel, Expr.atLevel, alike.prec_eq]

/-- The printer writes the trees as the texts, one by one. -/
private def PrintsAll (d : Dialect) (es : List Expr) (texts : List String) : Prop :=
  ∀ p : Printer, p.dialect = d → p.keyed = false → p.exprs es = .ok texts

private theorem printsAll_pair {d : Dialect} {es es' : List Expr} (size : es.length = es'.length)
    (each : ∀ pair ∈ es.zip es', ∃ text, Prints d pair.1 text ∧ Prints d pair.2 text) :
    ∃ texts, PrintsAll d es texts ∧ PrintsAll d es' texts := by
  induction es generalizing es' with
  | nil =>
    obtain rfl := List.length_eq_zero_iff.mp size.symm
    exact ⟨[], fun _ _ _ => rfl, fun _ _ _ => rfl⟩
  | cons e es ih =>
    obtain ⟨e', es', rfl⟩ := List.exists_cons_of_length_eq_add_one size.symm
    obtain ⟨text, left, right⟩ := each (e, e') (by simp)
    obtain ⟨texts, lefts, rights⟩ := ih (by simpa using size) fun pair inside => each pair (by simp [inside])
    refine ⟨text :: texts, fun p target unkeyed => ?_, fun p target unkeyed => ?_⟩
    · rw [Printer.exprs_cons, left p target unkeyed, lefts p target unkeyed]
      rfl
    · rw [Printer.exprs_cons, right p target unkeyed, rights p target unkeyed]
      rfl

theorem Alike.prints {d : Dialect} (available : d.unavailable = []) (alike : Alike e e') :
    ∃ text, Prints d e text ∧ Prints d e' text := by
  induction alike with
  | column p q path =>
    have one (pos : Position) : Prints d (.column pos path) (({ dialect := d } : Printer).path path) := by
      rintro p rfl unkeyed
      have same : p.ident = ({ dialect := p.dialect } : Printer).ident := by
        funext id
        simp only [Printer.ident, unkeyed]
      simp only [Printer.expr_column, Printer.path, same]
    exact ⟨_, one p, one q⟩
  | literal p q kind value =>
    have one (pos : Position) : Prints d (.literal pos kind value)
      (({ dialect := d } : Printer).literal kind value) := by
      rintro p rfl _
      cases kind <;> rfl
    exact ⟨_, one p, one q⟩
  | @binary p q op _ _ _ _ first second left right =>
    have one (pos : Position) {left right : Expr} {leftText rightText : String} (lefts : Prints d left leftText)
        (rights : Prints d right rightText) : Prints d (.binary pos op left right)
          (left.atLevel (leftLevel op) leftText ++ " " ++ op ++ " " ++ right.atLevel (binaryPrec op + 1) rightText) :=
          by
      intro p target unkeyed
      rw [Printer.expr_binary, lefts p target unkeyed, rights p target unkeyed]
      rfl
    obtain ⟨leftText, left, left'⟩ := left
    obtain ⟨rightText, right, right'⟩ := right
    refine ⟨_, one p left right, ?_⟩
    rw [first.atLevel_eq, second.atLevel_eq]
    exact one q left' right'
  | unary p q op inner operand =>
    have one (pos : Position) {operand : Expr} {text : String} (operands : Prints d operand text) :
        Prints d (.unary pos op operand) (if op = "NOT" then "NOT " ++ operand.atLevel Prec.negation text
          else if operand.startsWithMinus then op ++ Printer.paren true text
          else op ++ operand.atLevel Prec.sign text) := by
      intro p target unkeyed
      rw [Printer.expr_unary, operands p target unkeyed]
      simp only [bind, Except.bind]
      split
      · rfl
      split <;> rfl
    obtain ⟨text, left, right⟩ := operand
    refine ⟨_, one p left, ?_⟩
    rw [inner.atLevel_eq, inner.atLevel_eq, inner.startsWithMinus_eq]
    exact one q right
  | call p q name distinct size each both =>
    have one (pos : Position) {args : List Expr} {texts : List String} (each : PrintsAll d args texts) :
        Prints d (.call ⟨pos, name, args, distinct, [], none⟩) (({ dialect := d } : Printer).functionName name ++ "(" ++
          (if distinct then "DISTINCT " else "") ++ Printer.commas texts ++ ")") := by
      rintro p rfl unkeyed
      rw [Printer.expr_call, Printer.call, available, each p rfl unkeyed]
      simp [Printer.orderItems, Printer.exprOption, Printer.listClause, Printer.clause, Printer.functionName, unkeyed,
        bind, Except.bind, pure, Except.pure]
    obtain ⟨texts, left, right⟩ := printsAll_pair size both
    exact ⟨_, one p left, one q right⟩

theorem registered_available {entry : Entry} (member : entry ∈ Registry.standard.entries) :
    entry.dialect.unavailable = [] := by
  obtain ⟨profile, known, rfl⟩ := List.mem_map.mp member
  clear member
  change profile.dialect.unavailable = []
  revert profile
  decide +kernel

end SqlDialects
