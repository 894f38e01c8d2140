import SqlDialects.Proofs.CallNames
import SqlDialects.Tree.Adapt
import SqlDialects.Tree.Visit

/-! Walks that rename calls. A step that does no more than that makes of a tree the same tree with its calls
renamed, wherever they stand. Repeated operands are walked more than once, which makes no difference as long as
no new name is renamed in its turn. -/

namespace SqlDialects

/-! ### Walks that rename -/

section

variable {f g : String → String} {still : Node → Prop} {p : Pass}

/-- A step that renames calls where nothing else is to be done: the other nodes, and the calls under their
new names, are still. -/
structure Step.Renames (step : Step) (f : String → String) (still : Node → Prop) : Prop where
  call : ∀ c : Call, still (.expr (.call (c.named f))) →
    step (.expr (.call c)) = .ok none ∧ f c.name = c.name ∨
      step (.expr (.call c)) = .ok (some ⟨.expr (.call (c.named f)), .args⟩)
  other : ∀ n : Node, (∀ c, n ≠ .expr (.call c)) → still n → step n = .ok none
  marked : ∀ place e, still (.expr e) → still (.expr (.repeated place e))

/-- A walk with such a step, which leaves out the root or nothing. It walks over an operand again without a
change. -/
structure Pass.Renames (p : Pass) (f g : String → String) (still : Node → Prop) : Prop where
  step : p.step.Renames f still
  root : p.skip = 0 ∧ g = f ∨ p.skip = 1 ∧ g = id
  again : ∀ e : Expr, (∀ n ∈ (e.renameWith f id).nodes.tail, still n) →
    p.again 1 (e.renameWith f id) = .ok (e.renameWith f id)
  single : p.visits = none

namespace Pass.Renames

theorem inner (renames : p.Renames f g still) : p.inner.Renames f f still := by
  refine ⟨renames.step, .inl ⟨?_, rfl⟩, renames.again, renames.single⟩
  obtain ⟨none, _⟩ | ⟨one, _⟩ := renames.root
  · simp [Pass.inner, none]
  · simp [Pass.inner, one]

theorem outer (renames : p.Renames f g still) (all : p.skip = 0) : p.outer.Renames f id still :=
  ⟨renames.step, .inr ⟨by simp [Pass.outer, all], rfl⟩, renames.again, renames.single⟩

theorem node_other (renames : p.Renames f g still) {n : Node} (other : ∀ c, n ≠ .expr (.call c))
    (calm : p.skip = 0 → still n) : p.node n = .ok n := by
  unfold Pass.node
  split
  · rfl
  · next all =>
    rw [renames.step.other n other (calm (by omega))]
    rfl

theorem expr_other (renames : p.Renames f g still) {e : Expr} (other : ∀ c, e ≠ .call c)
    (calm : p.skip = 0 → still (.expr e)) : p.expr e = .ok e := by
  rw [Pass.expr, renames.node_other (fun c equal => other c (Node.expr.inj equal)) calm]
  rfl

theorem query_eq (renames : p.Renames f g still) {q : Query} (calm : p.skip = 0 → still (.statement (.query q))) :
    p.query q = .ok q := by
  rw [Pass.query, renames.node_other (by simp) calm]
  rfl

theorem table_eq (renames : p.Renames f g still) {t : TableExpr} (calm : p.skip = 0 → still (.table t)) :
    p.table t = .ok t := by
  rw [Pass.table, renames.node_other (by simp) calm]
  rfl

theorem statement_eq (renames : p.Renames f g still) {s : Statement} (calm : p.skip = 0 → still (.statement s)) :
    p.statement s = .ok s := by
  rw [Pass.statement, renames.node_other (by simp) calm]
  rfl

theorem expr_call (renames : p.Renames f g still) {c : Call} (calm : p.skip = 0 → still (.expr (.call (c.named g)))) :
    p.expr (.call c) = .ok (.call (c.named g)) := by
  have renamed : p.node (.expr (.call c)) = .ok (.expr (.call (c.named g))) := by
    unfold Pass.node
    obtain ⟨all, rfl⟩ | ⟨one, rfl⟩ := renames.root
    · rw [if_neg (by omega)]
      obtain ⟨kept, same⟩ | renamed := renames.step.call c (calm all)
      · rw [kept, Call.named_eq same]
        rfl
      · rw [renamed]
        rfl
    · rw [if_pos (by omega), Call.named_eq (by rfl)]
      rfl
  rw [Pass.expr, renamed]
  rfl

theorem call_eq (renames : p.Renames f g still) {c : Call} (calm : p.skip = 0 → still (.expr (.call (c.named g)))) :
    p.call c = .ok (c.named g) := by
  rw [Pass.call, renames.expr_call calm]
  rfl

theorem still_of_nodes (renames : p.Renames f g still) : ∀ e : Expr, (∀ n ∈ e.nodes, still n) → still (.expr e)
  | .repeated place operand, calm => renames.step.marked place operand (renames.still_of_nodes operand calm)
  | .column .., calm | .star .., calm | .literal .., calm | .param .., calm | .binary .., calm | .unary .., calm
  | .call .., calm | .window .., calm | .cast .., calm | .caseWhen .., calm | .between .., calm | .inList .., calm
  | .inQuery .., calm | .isValue .., calm | .existsQuery .., calm | .subquery .., calm | .interval .., calm
  | .array .., calm | .map .., calm | .struct .., calm | .lambda .., calm | .subscript .., calm
  | .extract .., calm => calm _ (by simp only [Expr.nodes, List.cons_append, List.mem_cons, true_or])

/-- A place stays where neither the step nor a further walk changes the operand. -/
theorem repeated_kept {e : Expr} (place : Place) (kept : p.step (.expr e) = .ok none)
    (again : p.again 1 e = .ok e) (expr : p.expr e = .ok e) : p.repeated place e = .ok (.repeated place e) := by
  cases place <;> simp only [Pass.repeated, again, kept, expr, bind, Except.bind, pure, Except.pure]

private theorem repeated_renamed {c d : Call} (place : Place)
    (renamed : p.step (.expr (.call c)) = .ok (some ⟨.expr (.call d), .args⟩))
    (again : p.again 1 (.call c) = .ok (.call c))
    (expr : p.expr (.call c) = .ok (.call d)) : p.repeated place (.call c) = .ok (.repeated place (.call d)) := by
  cases place <;>
    simp only [Pass.repeated, again, renamed, expr, bind, Except.bind, pure, Except.pure, Pass.apart, Expr.inPlace,
      reduceCtorEq, if_false]

theorem repeated_eq (renames : p.Renames f f still) (place : Place) {e : Expr} (single : e.isRepeated = false)
    (calm : ∀ n ∈ ((Expr.repeated place e).renameWith f f).nodes, still n) :
    p.repeated place (e.renameWith f id) = .ok ((Expr.repeated place e).renameWith f f) := by
  have again := renames.again e fun n held => calm n (List.mem_of_mem_tail (e.tail_nodes_rename f id _ ▸ held))
  by_cases call : ∃ c, e = .call c
  · obtain ⟨c, rfl⟩ := call
    have whole : (Expr.repeated place (.call c)).renameWith f f =
        .repeated place (.call ((c.renameWith f id).named f)) := by
      cases c
      rfl
    rw [whole] at calm ⊢
    have root : still (.expr (.call ((c.renameWith f id).named f))) := calm _ List.mem_cons_self
    have expr := renames.expr_call fun _ => root
    obtain ⟨kept, same⟩ | renamed := renames.step.call _ root
    · rw [Call.named_eq same] at expr ⊢
      exact repeated_kept place kept again expr
    · exact repeated_renamed place renamed again expr
  · have whole : (Expr.repeated place e).renameWith f f = .repeated place (e.renameWith f id) := by
      cases e with
      | call c => exact absurd ⟨c, rfl⟩ call
      | repeated => cases single
      | _ => rfl
    have other : ∀ c, e.renameWith f id ≠ .call c := by
      cases e with
      | call c => exact absurd ⟨c, rfl⟩ call
      | _ => simp only [Expr.renameWith, ne_eq, reduceCtorEq, not_false_eq_true, implies_true]
    rw [whole] at calm ⊢
    have root : still (.expr (e.renameWith f id)) := renames.still_of_nodes _ calm
    have kept := renames.step.other (.expr (e.renameWith f id)) (by simpa using other) root
    exact repeated_kept place kept again (renames.expr_other other fun _ => root)

private theorem calm_cons (renames : p.Renames f g still) {n : Node} {ns : List Node}
    (calm : ∀ m ∈ (n :: ns).drop p.skip, still m) : (p.skip = 0 → still n) ∧ ∀ m ∈ ns, still m := by
  obtain ⟨all, _⟩ | ⟨one, _⟩ := renames.root
  · rw [all] at calm
    exact ⟨fun _ => calm n List.mem_cons_self, fun m held => calm m (List.mem_cons_of_mem n held)⟩
  · rw [one] at calm
    exact ⟨fun none => by omega, calm⟩

end Pass.Renames

private theorem calm_drop {ns : List Node} (calm : ∀ n ∈ ns, still n) (count : Nat) : ∀ n ∈ ns.drop count, still n :=
  fun n held => calm n (List.mem_of_mem_drop held)

private theorem calm_tail {ns : List Node} (calm : ∀ n ∈ ns, still n) : ∀ n ∈ ns.tail, still n :=
  fun n held => calm n (List.mem_of_mem_tail held)

private theorem TypeSpec.mem_nodes (t : TypeSpec) : .type t ∈ t.nodes := by
  cases t
  exact List.mem_cons_self

private theorem Query.mem_nodes (q : Query) : .statement (.query q) ∈ q.nodes := by
  cases q <;> simp only [Query.nodes, List.cons_append, List.mem_cons, true_or]

private theorem TableExpr.mem_nodes (t : TableExpr) : .table t ∈ t.nodes := by
  cases t <;> simp only [TableExpr.nodes, List.cons_append, List.mem_cons, true_or]

private theorem Statement.mem_nodes (s : Statement) : .statement s ∈ s.nodes := by
  cases s with
  | query q => exact q.mem_nodes
  | _ => simp only [Statement.nodes, List.cons_append, List.mem_cons, true_or]

private theorem Call.named_renameWith (f g : String → String) (c : Call) :
    (c.renameWith f id).named g = c.renameWith f g := by
  cases c
  rfl

private theorem Call.parts_renameWith (f g : String → String) (c : Call) :
    (c.renameWith f g).parts = (c.renameWith f id).parts := by
  cases c
  rfl

theorem Pass.node_eq {n : Node} (spared : p.step n = .ok none) : p.node n = .ok n := by
  unfold Pass.node
  split
  · rfl
  · rw [spared]
    rfl

theorem Pass.type_eq {t : TypeSpec} (spared : p.step (.type t) = .ok none) : p.type t = .ok t := by
  rw [Pass.type, Pass.node_eq spared]
  rfl

mutual

theorem TypeSpec.adaptParts_eq : ∀ (t : TypeSpec) {p : Pass}, (∀ n ∈ t.nodes, p.step n = .ok none) →
    t.adaptParts p = .ok t
  | ⟨_, _, _, elems, fields, _⟩, p, spared => by
    obtain ⟨first, second⟩ := List.forall_mem_append.mp (List.forall_mem_cons.mp spared).2
    rw [TypeSpec.adaptParts, adaptElems_eq elems first, adaptFields_eq fields second]
    rfl

theorem adaptElems_eq : ∀ (ts : List TypeSpec) {p : Pass}, (∀ n ∈ elemNodes ts, p.step n = .ok none) →
    adaptElems p ts = .ok ts
  | [], _, _ => rfl
  | t :: ts, p, spared => by
    obtain ⟨first, rest⟩ := List.forall_mem_append.mp spared
    rw [adaptElems, t.adaptParts_eq (p := p.inner) first, adaptElems_eq ts rest]
    change (p.type t >>= _) = _
    rw [Pass.type_eq (first _ t.mem_nodes)]
    rfl

theorem adaptFields_eq : ∀ (fields : List TypeField) {p : Pass}, (∀ n ∈ fieldNodes fields, p.step n = .ok none) →
    adaptFields p fields = .ok fields
  | [], _, _ => rfl
  | ⟨_, t⟩ :: rest, p, spared => by
    obtain ⟨first, others⟩ := List.forall_mem_append.mp spared
    rw [adaptFields, t.adaptParts_eq (p := p.inner) first, adaptFields_eq rest others]
    change (p.type t >>= _) = _
    rw [Pass.type_eq (first _ t.mem_nodes)]
    rfl

end

theorem TypeSpec.adapt_eq {t : TypeSpec} (spared : ∀ n ∈ t.nodes, p.step n = .ok none) : t.adapt p = .ok t := by
  rw [TypeSpec.adapt, t.adaptParts_eq (p := p.inner) spared]
  exact Pass.type_eq (spared _ t.mem_nodes)

private theorem Pass.Renames.type_eq (renames : p.Renames f g still) {t : TypeSpec} (calm : ∀ n ∈ t.nodes, still n) :
    t.adapt p = .ok t := by
  refine TypeSpec.adapt_eq fun n member => renames.step.other n ?_ (calm n member)
  obtain ⟨u, rfl⟩ := t.type_of_mem member
  exact fun _ => Node.noConfusion

private theorem Pass.Renames.query_of_parts (renames : p.Renames f g still) {q : Query} {α : Type}
    {next : Query → Except Error α} (parts : q.adaptParts p.inner = .ok (q.rename f))
    (calm : ∀ n ∈ (q.rename f).nodes, still n) :
    (do next (← p.query (← q.adaptParts p.inner))) = next (q.rename f) := by
  rw [parts]
  change (p.query (q.rename f) >>= next) = _
  rw [renames.query_eq fun _ => calm _ (q.rename f).mem_nodes]
  rfl

private theorem Pass.Renames.marked_eq {operand : Expr} (renames : p.Renames f g still) (place : Place)
    (walks : ∀ {q : Pass} {h : String → String}, q.Renames f h still →
      (∀ n ∈ (operand.renameWith f h).nodes.drop q.skip, still n) → operand.adapt q = .ok (operand.renameWith f h))
    (calm : ∀ n ∈ ((Expr.repeated place operand).renameWith f g).nodes.drop p.skip, still n) :
    (Expr.repeated place operand).adapt p = .ok ((Expr.repeated place operand).renameWith f g) := by
  simp only [Expr.adapt, renames.single]
  by_cases through : (decide (p.skip > 0) || operand.isRepeated) = true
  · rw [if_pos through, walks renames (by simpa [Expr.renameWith, Expr.nodes] using calm)]
    simp [Expr.renameWith, pure, Except.pure, bind, Except.bind]
  · rw [if_neg through]
    obtain ⟨all, single⟩ : p.skip = 0 ∧ operand.isRepeated = false := by simpa using through
    obtain ⟨_, same⟩ | ⟨one, _⟩ := renames.root
    · rw [same] at renames calm ⊢
      rw [all] at calm
      have below : ∀ n ∈ (operand.renameWith f id).nodes.drop p.outer.skip, still n := by
        rw [show p.outer.skip = 1 by simp [Pass.outer, all], List.drop_one]
        intro n held
        exact calm n (List.mem_of_mem_tail (operand.tail_nodes_rename f id _ ▸ held))
      rw [walks (renames.outer all) below]
      exact renames.repeated_eq place single calm
    · omega

mutual

theorem Expr.adapt_renames : ∀ (e : Expr) {p : Pass} {g : String → String}, p.Renames f g still →
    (∀ n ∈ (e.renameWith f g).nodes.drop p.skip, still n) → e.adapt p = .ok (e.renameWith f g)
  | .column .., p, g, renames, calm | .star .., p, g, renames, calm | .literal .., p, g, renames, calm
  | .param .., p, g, renames, calm => by
    simp only [Expr.adapt, Expr.renameWith]
    exact renames.expr_other (by simp) (renames.calm_cons calm).1
  | .binary _ _ left right, p, g, renames, calm | .subscript _ left right, p, g, renames, calm => by
    obtain ⟨root, below⟩ := renames.calm_cons calm
    obtain ⟨first, second⟩ := List.forall_mem_append.mp below
    rw [Expr.adapt, left.adapt_renames renames.inner (calm_drop first _),
      right.adapt_renames renames.inner (calm_drop second _)]
    exact renames.expr_other (by simp) root
  | .unary _ _ operand, p, g, renames, calm | .isValue _ operand _ _, p, g, renames, calm
  | .interval _ operand _, p, g, renames, calm | .lambda _ _ operand, p, g, renames, calm
  | .extract _ _ operand, p, g, renames, calm => by
    obtain ⟨root, below⟩ := renames.calm_cons calm
    rw [Expr.adapt, operand.adapt_renames renames.inner (calm_drop below _)]
    exact renames.expr_other (by simp) root
  | .call c, p, g, renames, calm => by
    obtain ⟨root, below⟩ := renames.calm_cons calm
    rw [Expr.adapt, c.adaptParts_renames renames.inner (c.parts_renameWith f g ▸ below), Expr.renameWith,
      ← c.named_renameWith f g]
    exact renames.expr_call (c.named_renameWith f g ▸ root)
  | .window pos function partitionBy orderBy frame, p, g, renames, calm => by
    simp only [Expr.renameWith, Expr.nodes, List.cons_append] at calm
    obtain ⟨root, below⟩ := renames.calm_cons calm
    simp only [List.forall_mem_append] at below
    obtain ⟨⟨⟨first, parts⟩, order⟩, bounds⟩ := below
    rw [Expr.adapt, function.adapt_renames renames.inner (calm_drop first _),
      adaptExprs_renames partitionBy renames.inner parts, adaptOrder_renames orderBy renames.inner order,
      adaptFrame_renames frame renames.inner bounds]
    exact renames.expr_other (by simp) root
  | .cast pos operand type tolerant, p, g, renames, calm => by
    obtain ⟨root, below⟩ := renames.calm_cons calm
    obtain ⟨first, second⟩ := List.forall_mem_append.mp below
    rw [Expr.adapt, operand.adapt_renames renames.inner (calm_drop first _), renames.inner.type_eq second]
    exact renames.expr_other (by simp) root
  | .caseWhen pos operand arms otherwise, p, g, renames, calm => by
    simp only [Expr.renameWith, Expr.nodes, List.cons_append] at calm
    obtain ⟨root, below⟩ := renames.calm_cons calm
    simp only [List.forall_mem_append] at below
    obtain ⟨⟨first, second⟩, last⟩ := below
    rw [Expr.adapt, adaptOption_renames operand renames.inner first, adaptArms_renames arms renames.inner second,
      adaptOption_renames otherwise renames.inner last]
    exact renames.expr_other (by simp) root
  | .between pos operand low high negated, p, g, renames, calm => by
    simp only [Expr.renameWith, Expr.nodes, List.cons_append] at calm
    obtain ⟨root, below⟩ := renames.calm_cons calm
    simp only [List.forall_mem_append] at below
    obtain ⟨⟨first, second⟩, third⟩ := below
    rw [Expr.adapt, operand.adapt_renames renames.inner (calm_drop first _),
      low.adapt_renames renames.inner (calm_drop second _), high.adapt_renames renames.inner (calm_drop third _)]
    exact renames.expr_other (by simp) root
  | .inList pos operand members negated, p, g, renames, calm => by
    obtain ⟨root, below⟩ := renames.calm_cons calm
    obtain ⟨first, second⟩ := List.forall_mem_append.mp below
    rw [Expr.adapt, operand.adapt_renames renames.inner (calm_drop first _),
      adaptExprs_renames members renames.inner second]
    exact renames.expr_other (by simp) root
  | .inQuery pos operand query negated, p, g, renames, calm => by
    obtain ⟨root, below⟩ := renames.calm_cons calm
    obtain ⟨first, second⟩ := List.forall_mem_append.mp below
    rw [Expr.adapt, operand.adapt_renames renames.inner (calm_drop first _)]
    refine (renames.inner.query_of_parts ?_ second).trans (renames.expr_other (by simp) root)
    exact query.adaptParts_renames renames.inner.inner (calm_tail second)
  | .existsQuery _ query _, p, g, renames, calm | .subquery _ query, p, g, renames, calm => by
    obtain ⟨root, below⟩ := renames.calm_cons calm
    rw [Expr.adapt]
    refine (renames.inner.query_of_parts ?_ below).trans (renames.expr_other (by simp) root)
    exact query.adaptParts_renames renames.inner.inner (calm_tail below)
  | .array _ elems, p, g, renames, calm | .struct _ _ elems, p, g, renames, calm => by
    obtain ⟨root, below⟩ := renames.calm_cons calm
    rw [Expr.adapt, adaptExprs_renames elems renames.inner below]
    exact renames.expr_other (by simp) root
  | .map pos keys values, p, g, renames, calm => by
    simp only [Expr.renameWith, Expr.nodes, List.cons_append] at calm
    obtain ⟨root, below⟩ := renames.calm_cons calm
    obtain ⟨first, second⟩ := List.forall_mem_append.mp below
    rw [Expr.adapt, adaptExprs_renames keys renames.inner first, adaptExprs_renames values renames.inner second]
    exact renames.expr_other (by simp) root
  | .repeated place operand, _, _, renames, calm =>
    renames.marked_eq place (fun walk spared => operand.adapt_renames walk spared) calm

theorem Call.adaptParts_renames : ∀ (c : Call) {p : Pass}, p.Renames f f still →
    (∀ n ∈ (c.renameWith f id).parts, still n) → c.adaptParts p = .ok (c.renameWith f id)
  | ⟨_, _, args, _, orderBy, filter⟩, p, renames, calm => by
    simp only [Call.renameWith, Call.parts, List.forall_mem_append] at calm
    obtain ⟨⟨first, second⟩, third⟩ := calm
    rw [Call.adaptParts, adaptExprs_renames args renames first, adaptOrder_renames orderBy renames second,
      adaptOption_renames filter renames third]
    rfl

theorem adaptExprs_renames : ∀ (es : List Expr) {p : Pass}, p.Renames f f still →
    (∀ n ∈ exprNodes (renameExprs f es), still n) → adaptExprs p es = .ok (renameExprs f es)
  | [], _, _, _ => rfl
  | e :: es, p, renames, calm => by
    obtain ⟨first, rest⟩ := List.forall_mem_append.mp calm
    rw [adaptExprs, e.adapt_renames renames (calm_drop first _), adaptExprs_renames es renames rest]
    rfl

theorem adaptOption_renames : ∀ (e : Option Expr) {p : Pass}, p.Renames f f still →
    (∀ n ∈ optionNodes (renameOption f e), still n) → adaptOption p e = .ok (renameOption f e)
  | none, _, _, _ => rfl
  | some e, p, renames, calm => by
    rw [adaptOption, e.adapt_renames renames (calm_drop calm _)]
    rfl

theorem adaptOrder_renames : ∀ (items : List OrderItem) {p : Pass}, p.Renames f f still →
    (∀ n ∈ orderNodes (renameOrder f items), still n) → adaptOrder p items = .ok (renameOrder f items)
  | [], _, _, _ => rfl
  | ⟨e, _, _⟩ :: rest, p, renames, calm => by
    obtain ⟨first, others⟩ := List.forall_mem_append.mp calm
    rw [adaptOrder, e.adapt_renames renames (calm_drop first _), adaptOrder_renames rest renames others]
    rfl

theorem adaptArms_renames : ∀ (arms : List When) {p : Pass}, p.Renames f f still →
    (∀ n ∈ armNodes (renameArms f arms), still n) → adaptArms p arms = .ok (renameArms f arms)
  | [], _, _, _ => rfl
  | ⟨condition, result⟩ :: rest, p, renames, calm => by
    simp only [renameArms, armNodes, List.forall_mem_append] at calm
    obtain ⟨⟨first, second⟩, others⟩ := calm
    rw [adaptArms, condition.adapt_renames renames (calm_drop first _),
      result.adapt_renames renames (calm_drop second _),
      adaptArms_renames rest renames others]
    rfl

theorem adaptFrame_renames : ∀ (frame : Option Frame) {p : Pass}, p.Renames f f still →
    (∀ n ∈ frameNodes (renameFrame f frame), still n) → adaptFrame p frame = .ok (renameFrame f frame)
  | none, _, _, _ => rfl
  | some ⟨_, first, last⟩, p, renames, calm => by
    obtain ⟨one, other⟩ := List.forall_mem_append.mp calm
    rw [adaptFrame, first.adaptParts_renames renames one, adaptBound_renames last renames other]
    rfl

theorem adaptBound_renames : ∀ (bound : Option FrameBound) {p : Pass}, p.Renames f f still →
    (∀ n ∈ boundNodes (renameBound f bound), still n) → adaptBound p bound = .ok (renameBound f bound)
  | none, _, _, _ => rfl
  | some bound, p, renames, calm => by
    rw [adaptBound, bound.adaptParts_renames renames calm]
    rfl

theorem FrameBound.adaptParts_renames : ∀ (bound : FrameBound) {p : Pass}, p.Renames f f still →
    (∀ n ∈ (bound.rename f).nodes, still n) → bound.adaptParts p = .ok (bound.rename f)
  | ⟨_, offset⟩, p, renames, calm => by
    rw [FrameBound.adaptParts, adaptOption_renames offset renames calm]
    rfl

theorem Query.adaptParts_renames : ∀ (q : Query) {p : Pass}, p.Renames f f still →
    (∀ n ∈ (q.rename f).nodes.tail, still n) → q.adaptParts p = .ok (q.rename f)
  | .select s, p, renames, calm => by
    rw [Query.adaptParts, s.adaptParts_renames renames calm]
    rfl
  | .setOp _ _ _ left right orderBy limit, p, renames, calm => by
    simp only [Query.rename, Query.nodes, List.cons_append, List.tail_cons, List.forall_mem_append] at calm
    obtain ⟨⟨⟨first, second⟩, order⟩, last⟩ := calm
    rw [Query.adaptParts]
    refine (renames.query_of_parts (left.adaptParts_renames renames.inner (calm_tail first)) first).trans ?_
    refine (renames.query_of_parts (right.adaptParts_renames renames.inner (calm_tail second)) second).trans ?_
    rw [adaptOrder_renames orderBy renames order, adaptOption_renames limit renames last]
    rfl

theorem Select.adaptParts_renames : ∀ (s : Select) {p : Pass}, p.Renames f f still →
    (∀ n ∈ (s.rename f).parts, still n) → s.adaptParts p = .ok (s.rename f)
  | ⟨_, ctes, _, items, source, lateralViews, condition, groupBy, having, orderBy, limit, offset⟩,
      p, renames, calm => by
    simp only [Select.rename, Select.parts, List.forall_mem_append, and_assoc] at calm
    obtain ⟨named, listed, tables, views, filtered, grouped, filteredGroups, sorted, most, skipped⟩ := calm
    rw [Select.adaptParts, adaptCtes_renames ctes renames named, adaptItems_renames items renames listed,
      adaptSource_renames source renames tables, adaptViews_renames lateralViews renames views,
      adaptOption_renames condition renames filtered, adaptExprs_renames groupBy renames grouped,
      adaptOption_renames having renames filteredGroups, adaptOrder_renames orderBy renames sorted,
      adaptOption_renames limit renames most, adaptOption_renames offset renames skipped]
    rfl

theorem adaptCtes_renames : ∀ (ctes : List Cte) {p : Pass}, p.Renames f f still →
    (∀ n ∈ cteNodes (renameCtes f ctes), still n) → adaptCtes p ctes = .ok (renameCtes f ctes)
  | [], _, _, _ => rfl
  | ⟨_, _, body⟩ :: rest, p, renames, calm => by
    obtain ⟨first, others⟩ := List.forall_mem_append.mp calm
    rw [adaptCtes, body.adapt_renames renames first, adaptCtes_renames rest renames others]
    rfl

theorem CteBody.adapt_renames : ∀ (body : CteBody) {p : Pass}, p.Renames f f still →
    (∀ n ∈ (body.rename f).nodes, still n) → body.adapt p = .ok (body.rename f)
  | .query q, p, renames, calm => by
    rw [CteBody.adapt]
    exact renames.query_of_parts (q.adaptParts_renames renames.inner (calm_tail calm)) calm
  | .scalar e, p, renames, calm => by
    rw [CteBody.adapt, e.adapt_renames renames (calm_drop calm _)]
    rfl

theorem adaptItems_renames : ∀ (items : List SelectItem) {p : Pass}, p.Renames f f still →
    (∀ n ∈ itemNodes (renameItems f items), still n) → adaptItems p items = .ok (renameItems f items)
  | [], _, _, _ => rfl
  | ⟨e, _⟩ :: rest, p, renames, calm => by
    obtain ⟨first, others⟩ := List.forall_mem_append.mp calm
    rw [adaptItems, e.adapt_renames renames (calm_drop first _), adaptItems_renames rest renames others]
    rfl

theorem adaptViews_renames : ∀ (views : List LateralView) {p : Pass}, p.Renames f f still →
    (∀ n ∈ viewNodes (renameViews f views), still n) → adaptViews p views = .ok (renameViews f views)
  | [], _, _, _ => rfl
  | ⟨_, function, _, _, _⟩ :: rest, p, renames, calm => by
    simp only [renameViews, viewNodes, List.cons_append, List.forall_mem_cons, List.forall_mem_append] at calm
    obtain ⟨root, parts, others⟩ := calm
    rw [adaptViews, function.adaptParts_renames renames.inner (function.parts_renameWith f f ▸ parts),
      adaptViews_renames rest renames others]
    change (p.call _ >>= _) = _
    rw [renames.call_eq fun _ => function.named_renameWith f f ▸ root, function.named_renameWith]
    rfl

theorem adaptSource_renames : ∀ (source : Option TableExpr) {p : Pass}, p.Renames f f still →
    (∀ n ∈ sourceNodes (renameSource f source), still n) → adaptSource p source = .ok (renameSource f source)
  | none, _, _, _ => rfl
  | some t, p, renames, calm => by
    rw [adaptSource, t.adaptParts_renames renames.inner (calm_tail calm)]
    change (p.table _ >>= _) = _
    rw [renames.table_eq fun _ => calm _ (t.rename f).mem_nodes]
    rfl

theorem TableExpr.adaptParts_renames : ∀ (t : TableExpr) {p : Pass}, p.Renames f f still →
    (∀ n ∈ (t.rename f).nodes.tail, still n) → t.adaptParts p = .ok (t.rename f)
  | .ref .., _, _, _ => by simp only [TableExpr.adaptParts, TableExpr.rename, pure, Except.pure]
  | .derived _ query _, p, renames, calm => by
    rw [TableExpr.adaptParts]
    exact renames.query_of_parts (query.adaptParts_renames renames.inner (calm_tail calm)) calm
  | .function _ call _, p, renames, calm => by
    simp only [TableExpr.rename, TableExpr.nodes, List.tail_cons, List.forall_mem_cons] at calm
    obtain ⟨root, parts⟩ := calm
    rw [TableExpr.adaptParts, call.adaptParts_renames renames.inner (call.parts_renameWith f f ▸ parts)]
    change (p.call _ >>= _) = _
    rw [renames.call_eq fun _ => call.named_renameWith f f ▸ root, call.named_renameWith]
    rfl
  | .join _ _ left right condition _, p, renames, calm => by
    simp only [TableExpr.rename, TableExpr.nodes, List.cons_append, List.tail_cons, List.forall_mem_append] at calm
    obtain ⟨⟨first, second⟩, on⟩ := calm
    rw [TableExpr.adaptParts, left.adaptParts_renames renames.inner (calm_tail first),
      right.adaptParts_renames renames.inner (calm_tail second), adaptOption_renames condition renames on]
    change (p.table _ >>= _) = _
    rw [renames.table_eq fun _ => first _ (left.rename f).mem_nodes]
    change (p.table _ >>= _) = _
    rw [renames.table_eq fun _ => second _ (right.rename f).mem_nodes]
    rfl

end

/-! ### Statements -/

private theorem mapM_renames {α : Type} {walk : α → Except Error α} {renamed : α → α} {xs : List α}
    (each : ∀ x ∈ xs, walk x = .ok (renamed x)) : xs.mapM walk = .ok (xs.map renamed) := by
  induction xs with
  | nil => rfl
  | cons x xs ih =>
    rw [List.mapM_cons, each x List.mem_cons_self, ih fun y member => each y (List.mem_cons_of_mem x member)]
    rfl

private theorem calm_flatMap {α : Type} {nodes : α → List Node} {renamed : α → α} {xs : List α}
    (calm : ∀ n ∈ (xs.map renamed).flatMap nodes, still n) {x : α} (member : x ∈ xs) :
    ∀ n ∈ nodes (renamed x), still n :=
  fun n held => calm n (List.mem_flatMap.mpr ⟨_, List.mem_map_of_mem member, held⟩)

private theorem adaptQueryOption_renames (renames : p.Renames f f still) {q : Option Query}
    (calm : ∀ n ∈ ((q.map (·.rename f)).map Query.nodes).getD [], still n) :
    adaptQueryOption p q = .ok (q.map (·.rename f)) := by
  cases q with
  | none => rfl
  | some q => exact renames.query_of_parts (q.adaptParts_renames renames.inner (calm_tail calm)) calm

private theorem ColumnDef.adaptParts_renames (renames : p.Renames f f still) {c : ColumnDef}
    (calm : ∀ n ∈ (c.rename f).nodes, still n) : c.adaptParts p = .ok (c.rename f) := by
  obtain ⟨first, second⟩ := List.forall_mem_append.mp calm
  have type : c.type.adapt p = .ok c.type := renames.type_eq first
  rw [ColumnDef.adaptParts, type, adaptOption_renames _ renames second]
  rfl

private theorem Constraint.adaptParts_renames (renames : p.Renames f f still) {c : Constraint}
    (calm : ∀ n ∈ optionNodes (c.rename f).condition, still n) : c.adaptParts p = .ok (c.rename f) := by
  rw [Constraint.adaptParts, adaptOption_renames _ renames calm]
  rfl

private theorem Partitioning.adaptParts_renames (renames : p.Renames f f still) {keys : Partitioning}
    (calm : ∀ n ∈ exprNodes (keys.rename f).exprs ++ (keys.rename f).columns.flatMap (·.nodes), still n) :
    keys.adaptParts p = .ok (keys.rename f) := by
  obtain ⟨first, second⟩ := List.forall_mem_append.mp calm
  rw [Partitioning.adaptParts, adaptExprs_renames _ renames first,
    mapM_renames fun c member => ColumnDef.adaptParts_renames renames (calm_flatMap second member)]
  rfl

private theorem CreateTable.adaptParts_renames (renames : p.Renames f f still) {t : CreateTable}
    (calm : ∀ n ∈ (t.rename f).parts, still n) : t.adaptParts p = .ok (t.rename f) := by
  simp only [CreateTable.parts, List.forall_mem_append] at calm
  obtain ⟨⟨⟨⟨columns, constraints⟩, sorted⟩, partitions⟩, queried⟩ := calm
  have keys : t.partitioning.mapM (·.adaptParts p) = .ok (t.partitioning.map (·.rename f)) := by
    cases given : t.partitioning with
    | none => rfl
    | some keys =>
      simp only [CreateTable.rename, given, Option.map_some] at partitions
      simp only [Option.mapM_some, Partitioning.adaptParts_renames renames partitions, Option.map_some]
      rfl
  rw [CreateTable.adaptParts, mapM_renames fun c member =>
    ColumnDef.adaptParts_renames renames (calm_flatMap columns member),
    mapM_renames fun c member => Constraint.adaptParts_renames renames (calm_flatMap constraints member),
    adaptExprs_renames _ renames sorted, keys, adaptQueryOption_renames renames queried]
  rfl

theorem Statement.adaptParts_renames {s : Statement} {p : Pass} (renames : p.Renames f f still)
    (calm : ∀ n ∈ (s.rename f).nodes.tail, still n) : s.adaptParts p = .ok (s.rename f) := by
  induction s generalizing p with
  | query q =>
    rw [Statement.adaptParts, q.adaptParts_renames renames calm]
    rfl
  | insert i =>
    obtain ⟨rows, queried⟩ := List.forall_mem_append.mp calm
    rw [Statement.adaptParts, mapM_renames fun row member => adaptExprs_renames row renames (calm_flatMap rows member),
      adaptQueryOption_renames renames queried]
    rfl
  | createTable t =>
    rw [Statement.adaptParts, CreateTable.adaptParts_renames renames calm]
    rfl
  | createView v =>
    rw [Statement.adaptParts]
    exact renames.query_of_parts (v.query.adaptParts_renames renames.inner (calm_tail calm)) calm
  | drop => rfl
  | explain pos mode s ih =>
    rw [Statement.adaptParts, ih renames.inner (calm_tail calm)]
    change (p.statement _ >>= _) = _
    rw [renames.statement_eq fun _ => calm _ (s.rename f).mem_nodes]
    rfl
  | expression pos e =>
    rw [Statement.adaptParts, e.adapt_renames renames (calm_drop calm _)]
    rfl

namespace Step.Renames

variable {step : Step}

/-- At every depth the walk with a step that renames does no more than that, since nothing is left for a
further walk. -/
theorem pass (renames : step.Renames f still) (settled : f ∘ f = f) (depth : Nat) :
    (step.pass depth).Renames f f still := by
  induction depth with
  | zero => exact ⟨renames, .inl ⟨rfl, rfl⟩, fun _ _ => rfl, rfl⟩
  | succ depth ih =>
    refine ⟨renames, .inl ⟨rfl, rfl⟩, fun e calm => ?_, rfl⟩
    have below : ({ step.pass depth with skip := 1 } : Pass).Renames f id still :=
      ⟨ih.step, .inr ⟨rfl, rfl⟩, ih.again, ih.single⟩
    have twice : (e.renameWith f id).renameWith f id = e.renameWith f id := e.renameWith_id_twice settled
    have walked := (e.renameWith f id).adapt_renames below (by rwa [twice, List.drop_one])
    rwa [twice] at walked

/-- The walk over a statement renames its calls, wherever they stand. -/
theorem adapt_statement (renames : step.Renames f still) (settled : f ∘ f = f) (depth : Nat) {s : Statement}
    (calm : ∀ n ∈ (s.rename f).nodes, still n) :
    Node.adapt (step.pass depth) (.statement s) = .ok (.statement (s.rename f)) := by
  have walk := renames.pass settled depth
  rw [Node.adapt, Node.adaptParts, Statement.adaptParts_renames walk.inner (calm_tail calm)]
  exact walk.node_other (by simp) fun _ => calm _ (s.rename f).mem_nodes

end Step.Renames

end

end SqlDialects
