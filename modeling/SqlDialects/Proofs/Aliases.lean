import SqlDialects.Proofs.Alike
import SqlDialects.Proofs.NativeNames
import SqlDialects.Proofs.Translation
import SqlDialects.Proofs.Unmappable

/-! One function under several names. A call of a function that the source dialect only renames is read as a call of
the neutral function, whose translation does not depend on where the call came from. -/

namespace SqlDialects

variable {e e' : Expr} {name : String}

/-! ### Trees of plain calls -/

/-- A column or a literal. -/
def Expr.IsLeaf : Expr → Prop
  | .column .. | .literal .. => True
  | _ => False

theorem argumentTree_isLeaf (text : String) : (argumentTree text).IsLeaf := by
  unfold argumentTree
  split <;> trivial

theorem Expr.IsLeaf.of_bare (leaf : e'.IsLeaf) (same : e.bare = e'.bare) : e.IsLeaf ∧ Alike e e' := by
  cases e' with
  | column q path =>
    cases e with
    | column p path' =>
      obtain rfl : path' = path := by simpa [Expr.bare] using same
      exact ⟨trivial, .column p q path'⟩
    | _ => simp [Expr.bare] at same
  | literal q kind value =>
    cases e with
    | literal p kind' value' =>
      obtain ⟨rfl, rfl⟩ : kind' = kind ∧ value' = value := by simpa [Expr.bare] using same
      exact ⟨trivial, .literal p q kind' value'⟩
    | _ => simp [Expr.bare] at same
  | _ => exact leaf.elim

theorem leaves_of_bare {es es' : List Expr} (leaves : ∀ e ∈ es', e.IsLeaf) (same : bareExprs es = bareExprs es') :
    (∀ e ∈ es, e.IsLeaf) ∧ AlikeAll es es' := by
  induction es' generalizing es with
  | nil =>
    cases es with
    | nil => exact ⟨leaves, .nil⟩
    | cons => cases same
  | cons e' es' ih =>
    cases es with
    | nil => cases same
    | cons e es =>
      obtain ⟨first, rest⟩ := List.cons.inj same
      obtain ⟨leaf, alike⟩ := (leaves e' List.mem_cons_self).of_bare first
      obtain ⟨others, each⟩ := ih (fun e later => leaves e (List.mem_cons_of_mem e' later)) rest
      exact ⟨List.forall_mem_cons.mpr ⟨leaf, others⟩, .cons alike each⟩

/-- A call of columns and literals without further clauses. -/
inductive PlainCall (name : String) : Expr → Prop
  | mk (pos : Position) {args : List Expr} (leaves : ∀ e ∈ args, e.IsLeaf) :
    PlainCall name (.call ⟨pos, name, args, false, [], none⟩)

theorem PlainCall.of_bare (plain : PlainCall name e') (same : e.bare = e'.bare) : PlainCall name e ∧ Alike e e' := by
  obtain ⟨q, leaves⟩ := plain
  cases e with
  | call f =>
    obtain ⟨p, own, args, distinct, orderBy, filter⟩ := f
    simp only [Expr.bare, Call.bare, Expr.call.injEq, Call.mk.injEq, true_and] at same
    obtain ⟨rfl, arguments, rfl, order, filtered⟩ := same
    obtain rfl : orderBy = [] := by
      cases orderBy with
      | nil => rfl
      | cons item rest => cases item; cases order
    obtain rfl : filter = none := by
      cases filter with
      | none => rfl
      | some e => cases filtered
    obtain ⟨own, each⟩ := leaves_of_bare leaves arguments
    exact ⟨.mk p own, AlikeCall.alike (.mk p q _ false each)⟩
  | _ => simp [Expr.bare] at same

theorem plainCall_fn (name : String) (args : List String) : PlainCall name (Expr.fn name (args.map argumentTree)) := by
  refine .mk {} ?_
  rw [List.forall_mem_map]
  exact fun text _ => argumentTree_isLeaf text

/-! ### A walk over a plain call -/

/-- What is in the place of the expression after the step. -/
def Step.Turns (step : Step) (e out : Expr) : Prop :=
  ∃ change, (step (.expr e)).map (Option.map Replacement.node) = .ok change ∧ change.getD (.expr e) = .expr out

theorem Step.turns_none {step : Step} (spared : step (.expr e) = .ok none) : step.Turns e e :=
  ⟨none, by rw [spared]; rfl, rfl⟩

/-- An expression takes the place of the one at hand. -/
theorem Pass.expr_turns {p : Pass} {out : Expr} (turns : p.step.Turns e out) (all : p.skip = 0) :
    p.expr e = .ok out := by
  obtain ⟨change, came, node⟩ := turns
  have replaced : p.node (.expr e) = .ok (.expr out) := by
    rw [Pass.node, all, if_neg (Nat.lt_irrefl 0)]
    cases outcome : p.step (.expr e) with
    | error x =>
      rw [outcome] at came
      cases came
    | ok found =>
      rw [outcome] at came
      cases came
      cases found <;> exact congrArg Except.ok node
  rw [Pass.expr, replaced]
  rfl

private theorem Expr.IsLeaf.adapt (leaf : e.IsLeaf) {p : Pass} (spares : p.step.Spares []) : e.adapt p = .ok e := by
  cases e with
  | column | literal => exact Pass.expr_eq (spares.operand _ (by simp [Node.kind, Expr.kind, operandKinds]))
  | _ => exact leaf.elim

private theorem PlainCall.adapt {out : Expr} (plain : PlainCall name e) {p : Pass} (spares : p.step.Spares [])
    (turns : p.step.Turns e out) (all : p.skip = 0) : e.adapt p = .ok out := by
  obtain ⟨q, leaves⟩ := plain
  rw [Expr.adapt, Call.adaptParts, adaptExprs_eq fun e member => (leaves e member).adapt (p := p.inner) spares]
  exact Pass.expr_turns turns all

theorem PlainCall.phase {engine : Engine} {rules : List Rule} {out : Expr} (plain : PlainCall name e)
    (spares : ∀ ctx rounds, Step.Spares (Rule.settle ctx rounds rules) []) (turns : (engine.step rules).Turns e out)
    (pos : Position) : engine.phase rules (.statement (.expression pos e)) =
    .ok (.statement (.expression pos out)) := by
  refine Engine.phase_expression (spares _ _) (fun p stepped all => plain.adapt ?_ ?_ all) pos
  · rw [stepped]
    exact spares _ _
  · rw [stepped]
    exact turns

/-! ### The rules on both sides -/

/-- The calls that a rule on the way from a dialect asks for are of functions that only ClickHouse has. -/
theorem inbound_calls {entry : Entry} (member : entry ∈ Registry.standard.entries) {r : Rule}
    (inside : r ∈ entry.rules.inPhase .inbound) :
    r.pattern.kind ≠ "FunctionCall" ∨
      entry = Entry.ofProfile ClickHouse.profile ∧ r.pattern.name ∈ ClickHouse.ownFunctions := by
  obtain own | unmappable := (Entry.mem_inbound member).mp inside
  · left
    obtain ⟨profile, known, rfl⟩ := List.mem_map.mp member
    have each : ∀ profile ∈ [ClickHouse.profile, Doris.profile, Hive.profile, MySql.profile, Oracle.profile,
        Postgres.profile, Presto.profile, Snowflake.profile, Spark.profile, Teradata.profile, Presto.trino],
        ∀ r ∈ profile.inbound, r.pattern.kind ≠ "FunctionCall" := by
      decide +kernel
    exact each profile known r own
  · right
    obtain ⟨source, foreign, rfl, own⟩ := Entry.unmappable_rule member unmappable
    exact ⟨source, own⟩

theorem inbound_none {entry : Entry} (member : entry ∈ Registry.standard.entries) {f : Call}
    (other : entry = Entry.ofProfile ClickHouse.profile → f.name ∉ ClickHouse.ownFunctions)
      (ctx : Context) (rounds : Nat) :
    Rule.settle ctx rounds (entry.rules.inPhase .inbound) (.expr (.call f)) = .ok none := by
  refine Rule.settle_none (fun r inside => Rule.fire_unmatched ?_) rounds
  obtain kind | ⟨source, own⟩ := inbound_calls member inside
  · exact Pattern.matches_kind (Ne.symm kind) ctx
  · have named : r.pattern.name ≠ "" := by
      intro empty
      rw [empty, ClickHouse.ownFunctions_eq] at own
      exact absurd own (by decide)
    have different : f.name ≠ r.pattern.name := fun same => other source (same ▸ own)
    simp [Pattern.matches, Node.name, named, different]

/-- A function that is only renamed gets a name that no rule on the way from the dialect asks for. -/
private theorem inbound_turns {entry : Entry} (member : entry ∈ Registry.standard.entries) {native : String}
    (renames : entry.dialect.Renames native name) (plain : PlainCall name e) (ctx : Context) (rounds : Nat) :
    Step.Turns (Rule.settle ctx rounds (entry.rules.inPhase .inbound)) e e := by
  obtain ⟨pos, leaves⟩ := plain
  refine Step.turns_none (inbound_none member ?_ ctx rounds)
  rintro rfl
  obtain ⟨rule, found, _, mapped, rfl⟩ := renames
  exact ClickHouse.named_foreign found mapped

private theorem outbound_turns {target : Entry} (member : target ∈ Registry.standard.entries) {engine engine' : Engine}
    (left : engine.target = target.dialect) (right : engine'.target = target.dialect) (alike : Alike e e') :
    ∃ out out', Alike out out' ∧ (engine.step (target.rules.inPhase .outbound)).Turns e out ∧
      (engine'.step (target.rules.inPhase .outbound)).Turns e' out' := by
  have blind : ∀ r ∈ target.rules.inPhase .outbound, r.Blind := fun r inside =>
    blind_outbound member r ((Entry.mem_outbound member).mp inside)
  have agree : Agree ((engine.step (target.rules.inPhase .outbound) (.expr e)).map (Option.map Replacement.node))
      ((engine'.step (target.rules.inPhase .outbound) (.expr e')).map (Option.map Replacement.node)) :=
    Rule.settle_agree blind (congrArg Dialect.name (left.trans right.symm)) _ alike
  generalize first : (engine.step _ _).map _ = one at agree
  generalize second : (engine'.step _ _).map _ = two at agree
  cases agree with
  | nothing => exact ⟨e, e', alike, ⟨_, first, rfl⟩, _, second, rfl⟩
  | changed same => exact ⟨_, _, same, ⟨_, first, rfl⟩, _, second, rfl⟩

private theorem apply_alike {first second target : Entry} (left : first ∈ Registry.standard.entries)
    (right : second ∈ Registry.standard.entries) (goal : target ∈ Registry.standard.entries) {n m : String}
    (one : first.dialect.Renames n name) (two : second.dialect.Renames m name) (plain : PlainCall name e)
    (plain' : PlainCall name e') (alike : Alike e e') (pos pos' : Position) :
    ∃ engine engine' out out', Engine.build first target [] = .ok engine ∧ Engine.build second target [] = .ok engine' ∧
      engine.apply (.expression pos e) = .ok (.expression pos out) ∧
      engine'.apply (.expression pos' e') = .ok (.expression pos' out') ∧ Alike out out' := by
  have spares {entry : Entry} (member : entry ∈ Registry.standard.entries) (phase : Phase)
    (ctx : Context) (rounds : Nat) :
      Step.Spares (Rule.settle ctx rounds (entry.rules.inPhase phase)) [] :=
    phase_spares member (fun _ _ listed => absurd listed List.not_mem_nil) ctx rounds
  let engine (source : Entry) : Engine :=
    ⟨source.dialect, target.dialect, source.rules.inPhase .inbound, target.rules.inPhase .outbound⟩
  obtain ⟨out, out', same, turns, turns'⟩ :=
    outbound_turns goal (rfl : (engine first).target = _) (rfl : (engine second).target = _) alike
  have apply {source : Entry} (member : source ∈ Registry.standard.entries) {native : String}
      (renames : source.dialect.Renames native name) {e out : Expr} (plain : PlainCall name e)
      (turns : ((engine source).step (target.rules.inPhase .outbound)).Turns e out) (pos : Position) :
      (engine source).apply (.expression pos e) = .ok (.expression pos out) :=
    Engine.apply_expression (plain.phase (spares member .inbound) (inbound_turns member renames plain _ _) pos)
      (plain.phase (spares goal .outbound) turns pos)
  exact ⟨engine first, engine second, out, out', rfl, rfl, apply left one plain turns pos,
    apply right two plain' turns' pos',
    same⟩

/-! ### Translations of calls -/

/-- A function that two dialects only rename, both to one neutral function, has one translation of its calls with
numbers and plain words, whichever of the two dialects and names they are written in. -/
theorem aliases_translated_alike {t u : Transpiler} (plain : t.Plain) (plain' : u.Plain) {first second target : Entry}
    (left : first ∈ Registry.standard.entries) (right : second ∈ Registry.standard.entries)
    (goal : target ∈ Registry.standard.entries) {n m canonical : String} (one : first.dialect.Renames n canonical)
    (two : second.dialect.Renames m canonical) {args : List String}
    (each : ∀ a ∈ args, PlainArgument first.dialect a ∧ PlainArgument second.dialect a) :
    ∃ text next last, Transpiler.transpile (callText n args) first.name target.name t = (.ok text, next) ∧
      Transpiler.transpile (callText m args) second.name target.name u = (.ok text, last) := by
  obtain ⟨pos, read, parsed, same⟩ := parse_renamed left one fun a listed => (each a listed).1
  obtain ⟨pos', read', parsed', same'⟩ := parse_renamed right two fun a listed => (each a listed).2
  have call' := ((plainCall_fn canonical args).of_bare same').1
  obtain ⟨call, alike⟩ := call'.of_bare (same.trans same'.symm)
  obtain ⟨engine, engine', out, out', built, built', applied, applied', alike⟩ :=
    apply_alike left right goal one two call call' alike pos pos'
  obtain ⟨text, printed, printed'⟩ := alike.prints (registered_available goal)
  obtain ⟨next, translated, _⟩ := plain.transpile left goal parsed built applied
    (printed { dialect := target.dialect, source := some first.dialect.name } rfl rfl)
  obtain ⟨last, translated', _⟩ := plain'.transpile right goal parsed' built' applied'
    (printed' { dialect := target.dialect, source := some second.dialect.name } rfl rfl)
  exact ⟨text, next, last, translated, translated'⟩

theorem deviation_translated : ∃ text next last,
    Transpiler.transpile "std(a)" "mysql" "presto" {} = (.ok text, next) ∧
      Transpiler.transpile "stddev(a)" "doris" "presto" {} = (.ok text, last) := by
  have word (d : Dialect) (keyword : d.isKeyword (Text.upper "a") = false)
      (niladic : d.niladic.find? (Text.upper "a") = none) : PlainArgument d "a" :=
    .inr ⟨⟨_, _, rfl, by decide, by decide⟩, keyword, niladic⟩
  have each : ∀ a ∈ ["a"], PlainArgument MySql.profile.dialect a ∧ PlainArgument Doris.profile.dialect a := by
    rw [List.forall_mem_singleton]
    exact ⟨word _ (by decide +kernel) (by decide +kernel), word _ (by decide +kernel) (by decide +kernel)⟩
  have left : Entry.ofProfile MySql.profile ∈ Registry.standard.entries := by simp [Registry.standard]
  have right : Entry.ofProfile Doris.profile ∈ Registry.standard.entries := by simp [Registry.standard]
  have goal : Entry.ofProfile Presto.profile ∈ Registry.standard.entries := by simp [Registry.standard]
  have alike := aliases_translated_alike Transpiler.plain_initial Transpiler.plain_initial left right goal
    (show MySql.profile.dialect.Renames "std" "STDDEV_POP" by decide +kernel)
    (show Doris.profile.dialect.Renames "stddev" "STDDEV_POP" by decide +kernel) each
  rwa [show callText "std" ["a"] = "std(a)" by decide, show callText "stddev" ["a"] = "stddev(a)" by decide,
    show (Entry.ofProfile MySql.profile).name = "mysql" by decide +kernel,
    show (Entry.ofProfile Doris.profile).name = "doris" by decide +kernel,
    show (Entry.ofProfile Presto.profile).name = "presto" by decide +kernel] at alike

end SqlDialects
