import SqlDialects.Proofs.Canonical
import SqlDialects.Proofs.Engines
import SqlDialects.Proofs.Renaming
import SqlDialects.Proofs.Settling

/-! Translations of expression statements. The rules between two dialects change queries, tables, calls, casts,
intervals and a few operators. A tree of other operators goes through them as it is, so that its translation
is read in the target if the target reads what it prints. -/

namespace SqlDialects

variable {d : Dialect} {ops : List String}

/-! ### Rules that find nothing to change -/

/-- Kinds of nodes, apart from operators, that occur in the operator language. -/
def operandKinds : List String := ["Column", "Literal", "UnaryOp", "Between", "In", "Is", "ExprStmt"]

/-- A step that leaves the nodes of the operator language as they are. -/
structure Step.Spares (step : Step) (ops : List String) : Prop where
  operator : ∀ op ∈ ops, ∀ pos left right, step (.expr (.binary pos op left right)) = .ok none
  operand : ∀ n : Node, n.kind ∈ operandKinds → step n = .ok none

theorem Pass.expr_eq {p : Pass} {e : Expr} (spared : p.step (.expr e) = .ok none) : p.expr e = .ok e := by
  rw [Pass.expr, Pass.node_eq spared]
  rfl

theorem adaptExprs_eq {p : Pass} {es : List Expr} (each : ∀ e ∈ es, e.adapt p = .ok e) :
    adaptExprs p es = .ok es := by
  induction es with
  | nil => rfl
  | cons e rest ih =>
    rw [adaptExprs, each e (by simp), ih fun other member => each other (List.mem_cons_of_mem _ member)]
    rfl

theorem OperatorTree.adapt_eq {e : Expr} (tree : OperatorTree ops d e) {p : Pass} (spares : p.step.Spares ops) :
    e.adapt p = .ok e := by
  induction tree generalizing p with
  | column | number | string => exact Pass.expr_eq (spares.operand _ (by simp [Node.kind, Expr.kind, operandKinds]))
  | binary pos known _ _ first second =>
    rw [Expr.adapt, first (p := p.inner) spares, second (p := p.inner) spares]
    exact Pass.expr_eq (spares.operator _ known pos _ _)
  | negation _ _ inner | minus _ _ inner | isValue _ _ _ _ inner =>
    rw [Expr.adapt, inner (p := p.inner) spares]
    exact Pass.expr_eq (spares.operand _ (by simp [Node.kind, Expr.kind, operandKinds]))
  | between _ _ _ _ _ inner least most =>
    rw [Expr.adapt, inner (p := p.inner) spares, least (p := p.inner) spares, most (p := p.inner) spares]
    exact Pass.expr_eq (spares.operand _ (by simp [Node.kind, Expr.kind, operandKinds]))
  | inList _ _ _ _ _ inner each =>
    rw [Expr.adapt, inner (p := p.inner) spares, adaptExprs_eq fun e member => each e member (p := p.inner) spares]
    exact Pass.expr_eq (spares.operand _ (by simp [Node.kind, Expr.kind, operandKinds]))

theorem Step.pass_step (step : Step) (depth : Nat) : (step.pass depth).step = step := by
  cases depth <;> rfl

/-- What the rules of a phase make of a node. -/
def Engine.step (engine : Engine) (rules : List Rule) : Step :=
  Rule.settle ⟨engine.source, engine.target, engine.run rules 255⟩ rules.length rules

theorem Engine.phase_expression {engine : Engine} {rules : List Rule} {e out : Expr}
    (spares : (engine.step rules).Spares ops)
    (adapted : ∀ p : Pass, p.step = engine.step rules → p.skip = 0 → e.adapt p = .ok out) (pos : Position) :
    engine.phase rules (.statement (.expression pos e)) = .ok (.statement (.expression pos out)) := by
  have stepped : ((engine.step rules).pass 255).step = engine.step rules := Step.pass_step _ 255
  change Node.adapt ((engine.step rules).pass 255) _ = _
  rw [Node.adapt, Node.adaptParts, Statement.adaptParts, adapted ((engine.step rules).pass 255).inner stepped rfl]
  have spared : ((engine.step rules).pass 255).step (.statement (.expression pos out)) = .ok none := by
    rw [stepped]
    exact spares.operand _ (by simp [Node.kind, Statement.kind, operandKinds])
  exact Pass.node_eq spared

/-- The rules on both sides, one after the other. -/
theorem Engine.apply_expression {engine : Engine} {e middle out : Expr} {pos : Position}
    (first : engine.phase engine.inbound (.statement (.expression pos e)) = .ok (.statement (.expression pos middle)))
    (second : engine.phase engine.outbound (.statement (.expression pos middle)) =
      .ok (.statement (.expression pos out))) :
    engine.apply (.expression pos e) = .ok (.expression pos out) := by
  rw [Engine.apply, first]
  change (Engine.phase _ _ _ >>= _) = _
  rw [second]
  rfl

/-! ### The rules of the registered dialects -/

/-- No rule on the way to the dialect replaces the operator. -/
def Profile.Leaves (p : Profile) (op : String) : Prop :=
  ∀ r ∈ p.outbound, r.pattern.kind = "BinaryOp" → r.pattern.name ≠ op

instance (p : Profile) (op : String) : Decidable (p.Leaves op) :=
  inferInstanceAs (Decidable (∀ r ∈ p.outbound, r.pattern.kind = "BinaryOp" → r.pattern.name ≠ op))

/-- What the rules of a profile ask for: no nodes of the operator language but operators by name,
and these on the way to the dialect. -/
structure Profile.Apart (p : Profile) : Prop where
  operand : ∀ r ∈ p.inbound ++ p.outbound, r.pattern.kind ∉ operandKinds
  inbound : ∀ r ∈ p.inbound, r.pattern.kind ≠ "BinaryOp"
  outbound : ∀ r ∈ p.outbound, r.pattern.kind = "BinaryOp" → r.phase = .outbound ∧ r.pattern.name ≠ ""

instance (p : Profile) : Decidable p.Apart :=
  decidable_of_iff ((∀ r ∈ p.inbound ++ p.outbound, r.pattern.kind ∉ operandKinds) ∧
      (∀ r ∈ p.inbound, r.pattern.kind ≠ "BinaryOp") ∧
      ∀ r ∈ p.outbound, r.pattern.kind = "BinaryOp" → r.phase = .outbound ∧ r.pattern.name ≠ "")
    ⟨fun ⟨operand, inbound, outbound⟩ => ⟨operand, inbound, outbound⟩,
      fun apart => ⟨apart.operand, apart.inbound, apart.outbound⟩⟩

theorem registered_apart {entry : Entry} (member : entry ∈ Registry.standard.entries) : entry.profile.Apart := by
  obtain ⟨profile, known, rfl⟩ := List.mem_map.mp member
  clear member
  change profile.Apart
  revert profile
  decide +kernel

private theorem Entry.mem_rules {entry : Entry} (member : entry ∈ Registry.standard.entries) {phase : Phase} {r : Rule}
    (inside : r ∈ entry.rules.inPhase phase) :
    r.phase = phase ∧ (r ∈ entry.profile.inbound ++ entry.profile.outbound ∨ r.pattern.kind = "FunctionCall") := by
  obtain ⟨profile, _, rfl⟩ := List.mem_map.mp member
  obtain ⟨listed, isPhase⟩ := List.mem_filter.mp inside
  refine ⟨by simpa using isPhase, ?_⟩
  obtain own | unmappable := List.mem_append.mp (List.mem_mergeSort.mp listed)
  · exact .inl own
  · obtain ⟨_, _, rfl⟩ := List.mem_map.mp unmappable
    exact .inr rfl

theorem Pattern.matches_kind {pattern : Pattern} {n : Node} (other : n.kind ≠ pattern.kind) (ctx : Context) :
    pattern.matches n ctx = false := by
  simp [Pattern.matches, other]

private theorem settle_spares {rules : List Rule}
    (operand : ∀ r ∈ rules, r.pattern.kind ∉ operandKinds)
    (operator : ∀ r ∈ rules, r.pattern.kind = "BinaryOp" → r.pattern.name ≠ "" ∧ r.pattern.name ∉ ops)
    (ctx : Context) (rounds : Nat) : Step.Spares (Rule.settle ctx rounds rules) ops := by
  constructor
  · intro op known pos left right
    refine Rule.settle_none (fun r member => Rule.fire_unmatched ?_) rounds
    by_cases same : r.pattern.kind = "BinaryOp"
    · obtain ⟨named, absent⟩ := operator r member same
      have other : op ≠ r.pattern.name := fun equal => absent (equal ▸ known)
      simp [Pattern.matches, Node.name, named, other]
    · exact Pattern.matches_kind (Ne.symm same) ctx
  · intro n known
    refine Rule.settle_none (fun r member => Rule.fire_unmatched ?_) rounds
    refine Pattern.matches_kind ?_ ctx
    intro equal
    exact operand r member (equal ▸ known)

/-- Both phases leave the operator language alone. -/
theorem phase_spares {entry : Entry} (member : entry ∈ Registry.standard.entries) {phase : Phase}
    (leaves : phase = .outbound → ∀ op ∈ ops, entry.profile.Leaves op) (ctx : Context) (rounds : Nat) :
    Step.Spares (Rule.settle ctx rounds (entry.rules.inPhase phase)) ops := by
  have apart := registered_apart member
  refine settle_spares ?_ ?_ ctx rounds
  · intro r inside
    obtain ⟨_, own | call⟩ := Entry.mem_rules member inside
    · exact apart.operand r own
    · rw [call]
      decide
  · intro r inside operator
    obtain ⟨isPhase, own | call⟩ := Entry.mem_rules member inside
    · obtain first | second := List.mem_append.mp own
      · exact absurd operator (apart.inbound r first)
      · obtain ⟨isOutbound, named⟩ := apart.outbound r second operator
        exact ⟨named, fun known => leaves (isPhase.symm.trans isOutbound) _ known r second operator rfl⟩
    · rw [call] at operator
      simp at operator

private theorem OperatorTree.apply_eq {source target : Entry} (left : source ∈ Registry.standard.entries)
    (right : target ∈ Registry.standard.entries) (leaves : ∀ op ∈ ops, target.profile.Leaves op) {e : Expr}
    (tree : OperatorTree ops d e) (pos : Position) :
    Engine.apply ⟨source.dialect, target.dialect, source.rules.inPhase .inbound, target.rules.inPhase .outbound⟩
      (.expression pos e) = .ok (.expression pos e) := by
  have phase {rules : List Rule} (spares : ∀ ctx rounds,
    Step.Spares (Rule.settle ctx rounds rules) ops) (engine : Engine) :
      engine.phase rules (.statement (.expression pos e)) = .ok (.statement (.expression pos e)) := by
    refine Engine.phase_expression (spares _ _) (fun p stepped _ => tree.adapt_eq ?_) pos
    rw [stepped]
    exact spares _ _
  exact Engine.apply_expression (phase (phase_spares left fun outbound => by cases outbound) _)
    (phase (phase_spares right fun _ => leaves) _)

/-! ### Translations -/

namespace Transpiler

/-- The engines that are kept are those between registered dialects without further rules. -/
structure Plain (t : Transpiler) : Prop where
  registry : t.registry = .standard
  rules : t.rules = []
  engines : ∀ source ∈ Registry.standard.entries, ∀ target ∈ Registry.standard.entries, ∀ e,
    t.engines.lookup (pairKey source.name target.name) = some e → Engine.build source target [] = .ok e

theorem plain_initial : ({} : Transpiler).Plain := ⟨rfl, rfl, fun _ _ _ _ _ found => by cases found⟩

theorem Plain.current {t : Transpiler} (plain : t.Plain) : t.Current := by
  refine ⟨plain.registry, fun source left target right e kept => ?_⟩
  rw [plain.rules]
  exact plain.engines source left target right e kept

theorem Current.plain {t : Transpiler} (current : t.Current) (unchanged : t.rules = []) : t.Plain := by
  refine ⟨current.registry, unchanged, fun source left target right e kept => ?_⟩
  have built := current.engines source left target right e kept
  rwa [unchanged] at built

/-- An engine without further rules is at hand or built, and kept from then on. -/
private theorem Plain.engine {t : Transpiler} (plain : t.Plain) {source target : Entry}
    (left : source ∈ Registry.standard.entries) (right : target ∈ Registry.standard.entries) :
    ∃ e next, Transpiler.engine source target t = (.ok e, next) ∧
    Engine.build source target [] = .ok e ∧ next.Plain := by
  obtain ⟨next, came, current, rules⟩ := Work.Yields.engine left right t plain.current plain.rules
  exact ⟨_, next, came, rfl, current.plain rules⟩

theorem Plain.transpile {t : Transpiler} (plain : t.Plain) {source target : Entry}
    (left : source ∈ Registry.standard.entries) (right : target ∈ Registry.standard.entries) {sql text : String}
    {s adapted : Statement} {e : Engine} (parsed : Statement.parse source.dialect sql = .ok s)
    (built : Engine.build source target [] = .ok e) (applied : e.apply s = .ok adapted)
    (printed : print source.dialect target.dialect adapted = .ok text) :
    ∃ next, Transpiler.transpile sql source.name target.name t = (.ok text, next) ∧ next.Plain := by
  obtain ⟨engine, next, found, same, kept⟩ := plain.engine left right
  obtain rfl : engine = e := by
    rw [built] at same
    exact (Except.ok.inj same).symm
  have both : pair source.name target.name t = (.ok (source, target), t) := by
    have known : (get : Work Transpiler) t = (.ok t, t) := rfl
    simp only [pair, work_bind, known, plain.registry, lookup_name left, lookup_name right]
    rfl
  have statement : Transpiler.plain (Statement.parse source.dialect sql) t = (.ok s, t) := by
    rw [parsed]
    rfl
  refine ⟨next, ?_, kept⟩
  simp only [Transpiler.transpile, work_bind, both, statement, convert, found, applied, printed]
  rfl

end Transpiler

/-- The translation of an expression whose operators the target keeps is what the expression is
printed as, and it is read in the target unless it begins with two parentheses. -/
theorem translation_read_iff {t : Transpiler} (plain : t.Plain) {source target : Entry}
    (left : source ∈ Registry.standard.entries) (right : target ∈ Registry.standard.entries) {sql : String}
    {pos : Position} {e : Expr} (parsed : Statement.parse source.dialect sql = .ok (.expression pos e))
    (kept : ∀ op ∈ ops, target.dialect.Keeps op ∧ target.profile.Leaves op)
    (tree : OperatorTree ops target.dialect e) :
    ∃ text next, Transpiler.transpile sql source.name target.name t = (.ok text, next) ∧ next.Plain ∧
      ((∃ s, Statement.parse target.dialect text = .ok s) ↔ ¬OpensTwice text) := by
  obtain ⟨text, ts, written⟩ := tree.written (registered_regular right) fun op known => (kept op known).1
  have printed : Transpiler.print source.dialect target.dialect (.expression pos e) = .ok text :=
    written.printed { dialect := target.dialect, source := some source.dialect.name } rfl rfl
  have applied := tree.apply_eq left right (fun op known => (kept op known).2) pos
  obtain ⟨next, translated, held⟩ := plain.transpile left right parsed rfl applied printed
  refine ⟨text, next, translated, held, ?_, ?_⟩
  · rintro ⟨s, read⟩ opens
    obtain ⟨fault, failed⟩ := written.statement_opens opens
    rw [failed] at read
    cases read
  · intro once
    obtain ⟨place, read, again, _⟩ := written.statement_reads once
    exact ⟨_, again⟩

private theorem registered_mySql : Entry.ofProfile MySql.profile ∈ Registry.standard.entries := by
  simp [Registry.standard]

theorem registered_postgres : Entry.ofProfile Postgres.profile ∈ Registry.standard.entries := by
  simp [Registry.standard]

private theorem tree_letter {profile : Profile} (known : profile ∈ [MySql.profile, Postgres.profile]) {name : String}
    (letter : name ∈ ["a", "b", "c"]) : OperatorTree ops profile.dialect (.col name) := by
  refine .column {} ?_
  simp only [List.mem_cons, List.not_mem_nil, or_false] at letter known
  obtain rfl | rfl := known <;> obtain rfl | rfl | rfl := letter <;>
    exact ⟨⟨_, _, rfl, by decide, by decide⟩, by decide +kernel, by decide +kernel⟩

theorem disjunction_translated : ∃ text next,
    Transpiler.transpile "(a OR b) AND NOT c" "mysql" "postgres" {} = (.ok text, next) ∧ next.Plain ∧
      ((∃ s, Statement.parse Postgres.profile.dialect text = .ok s) ↔ ¬OpensTwice text) := by
  have tree (profile : Profile) (known : profile ∈ [MySql.profile, Postgres.profile]) :=
    OperatorTree.binary {} (show "AND" ∈ ["OR", "AND"] by decide)
      (.binary {} (show "OR" ∈ _ by decide) (tree_letter known (show "a" ∈ _ by decide))
        (tree_letter known (show "b" ∈ _ by decide)))
      (.negation {} (tree_letter known (show "c" ∈ _ by decide)))
  obtain ⟨pos, read, parsed, same⟩ := (tree MySql.profile (by simp)).parse_printed registered_mySql
    (by decide +kernel) (show _ = some "(a OR b) AND NOT c" by decide +kernel) (by decide +kernel)
  exact translation_read_iff Transpiler.plain_initial registered_mySql registered_postgres parsed (by decide +kernel)
    ((tree Postgres.profile (by simp)).of_bare same)

private theorem eq_ok_of_toOption {α : Type} {outcome : Except Error α} {a : α} (some : outcome.toOption = some a) :
    outcome = .ok a := by
  cases outcome with
  | error fault => cases some
  | ok value => exact congrArg Except.ok (Option.some.inj some)

/-- An operator that the target does not have is printed all the same. -/
theorem division_translation_unread : ∃ next,
    Transpiler.transpile "a DIV b" "mysql" "postgres" {} = (.ok "a DIV b", next) ∧
      (Statement.parse Postgres.profile.dialect "a DIV b").toOption.isNone := by
  have tree (profile : Profile) (known : profile ∈ [MySql.profile, Postgres.profile]) :=
    OperatorTree.binary {} (show "DIV" ∈ ["DIV"] by decide) (tree_letter known (show "a" ∈ _ by decide))
      (tree_letter known (show "b" ∈ _ by decide))
  obtain ⟨pos, read, parsed, same⟩ := (tree MySql.profile (by simp)).parse_printed registered_mySql
    (by decide +kernel) (show _ = some "a DIV b" by decide +kernel) (by decide +kernel)
  have target := (tree Postgres.profile (by simp)).of_bare same
  have applied := target.apply_eq registered_mySql registered_postgres (by decide +kernel) pos
  have text : (Transpiler.print MySql.profile.dialect Postgres.profile.dialect
      (.expression {} (.binary {} "DIV" (.col "a") (.col "b")))).toOption = some "a DIV b" := by
    decide +kernel
  have printed : Transpiler.print MySql.profile.dialect Postgres.profile.dialect
    (.expression pos read) = .ok "a DIV b" :=
    Printer.ok_of_same (Printer.expr_of_bare same) (eq_ok_of_toOption text)
  obtain ⟨next, translated, _⟩ := Transpiler.plain_initial.transpile registered_mySql registered_postgres parsed rfl
    applied printed
  exact ⟨next, translated, by decide +kernel⟩

end SqlDialects
