import Mathlib.Data.List.Basic
import SqlDialects.Doris.Bindings
import SqlDialects.Proofs.Reader
import SqlDialects.Proofs.Renaming

/-! What becomes of `WITH value AS name` bindings where a select is inlined. A column that is no more than a bound name
gives way to the value of the name, wherever it stands, also in the body of a lambda with a parameter of that name. One
visit does not enter the value, so a name in it stays, although its own binding is dropped too. Hence no bound name is
left if the names that the select refers to have values without bound names. -/

namespace SqlDialects

variable {α β : Type}

/-! ### Outcomes -/

/-- The outcome is a value for which `good` holds. -/
def Gives (good : α → Prop) (outcome : Except Error α) : Prop := ∃ a, outcome = .ok a ∧ good a

namespace Gives

variable {good : α → Prop} {good' : β → Prop} {outcome : Except Error α}

theorem ok {a : α} (holds : good a) : Gives good (.ok a) := ⟨a, rfl, holds⟩

theorem bind {next : α → Except Error β} (gives : Gives good outcome) (rest : ∀ a, good a → Gives good' (next a)) :
    Gives good' (outcome >>= next) := by
  obtain ⟨a, rfl, holds⟩ := gives
  exact rest a holds

theorem map {f : α → β} (gives : Gives good outcome) (implied : ∀ a, good a → good' (f a)) :
    Gives good' (outcome >>= fun a => pure (f a)) :=
  gives.bind fun a holds => .ok (implied a holds)

end Gives

/-! ### References -/

/-- The name, in lower case, that a column without a qualifier refers to. -/
def Node.reference? : Node → Option String
  | .expr (.column _ [ident]) => some (Text.lower ident.name)
  | _ => none

def references (ns : List Node) : List String := ns.filterMap Node.reference?

theorem references_append (ms ns : List Node) : references (ms ++ ns) = references ms ++ references ns :=
  List.filterMap_append

theorem references_cons {n : Node} (bare : n.reference? = none) (ns : List Node) :
    references (n :: ns) = references ns :=
  List.filterMap_cons_none bare

@[simp] theorem Expr.nodes_inPlace (place : Place) (e : Expr) : (e.inPlace place).nodes = e.nodes := by
  cases e <;> simp only [Expr.inPlace, Expr.nodes]

/-! ### Bindings -/

/-- The references that take the place of a reference. -/
def Dictionary.expansion (b : Dictionary Expr) (name : String) : List String :=
  match b.find? name with
  | some value => references value.nodes
  | none => [name]

/-- The references of the first nodes, with values in the place of bound names, are those of the other nodes. -/
def Dictionary.Expands (b : Dictionary Expr) (old new : List Node) : Prop :=
  references new = (references old).flatMap b.expansion

/-- The node does not refer to a bound name. -/
def Node.Free (b : Dictionary Expr) (n : Node) : Prop := ∀ name ∈ n.reference?, b.find? name = none

instance (b : Dictionary Expr) (n : Node) : Decidable (n.Free b) :=
  inferInstanceAs (Decidable (∀ name ∈ n.reference?, b.find? name = none))

/-- If the node refers to a bound name, the value does not refer to one. -/
def Node.Settled (b : Dictionary Expr) (n : Node) : Prop :=
  ∀ name ∈ n.reference?, ∀ value ∈ b.find? name, ∀ inner ∈ value.nodes, inner.Free b

instance (b : Dictionary Expr) (n : Node) : Decidable (n.Settled b) :=
  inferInstanceAs (Decidable (∀ name ∈ n.reference?, ∀ value ∈ b.find? name, ∀ inner ∈ value.nodes, inner.Free b))

variable {b : Dictionary Expr} {olds news others : List Node}

namespace Dictionary.Expands

theorem nil : b.Expands [] [] := rfl

theorem append {olds' news' : List Node} (first : b.Expands olds news) (second : b.Expands olds' news') :
    b.Expands (olds ++ olds') (news ++ news') := by
  rw [Expands, references_append, references_append, List.flatMap_append, first, second]

theorem under {old new : Node} (expands : b.Expands olds news) (bare : old.reference? = none)
    (bare' : new.reference? = none) : b.Expands (old :: olds) (new :: news) := by
  rw [Expands, references_cons bare, references_cons bare', expands]

/-- A type refers to nothing. -/
theorem of_types (t : TypeSpec) : b.Expands t.nodes t.nodes := by
  have none : references t.nodes = [] := t.filterMap_nodes fun _ => rfl
  rw [Expands, none]
  rfl

/-- Names that are not bound stay. -/
theorem of_free (free : ∀ n ∈ olds, n.Free b) (expands : b.Expands olds news) : references news = references olds := by
  have kept : ∀ name ∈ references olds, b.expansion name = [name] := by
    intro name listed
    obtain ⟨n, member, refers⟩ := List.mem_filterMap.mp listed
    rw [expansion, free n member name refers]
  rw [expands, List.flatMap_congr kept, List.flatMap_singleton']

theorem free (expands : b.Expands olds news) (settled : ∀ n ∈ olds, n.Settled b) : ∀ n ∈ news, n.Free b := by
  intro n member name refers
  have found : name ∈ references news := List.mem_filterMap.mpr ⟨n, member, refers⟩
  rw [expands, List.mem_flatMap] at found
  obtain ⟨reference, listed, found⟩ := found
  obtain ⟨old, oldMember, oldRefers⟩ := List.mem_filterMap.mp listed
  unfold expansion at found
  split at found
  · next value bound =>
    obtain ⟨inner, inside, innerRefers⟩ := List.mem_filterMap.mp found
    exact settled old oldMember reference oldRefers value bound inner inside name innerRefers
  · next unbound =>
    obtain rfl := List.mem_singleton.mp found
    exact unbound

end Dictionary.Expands

/-! ### Visits -/

/-- Visits that put values in the place of bound names. They do so at nodes that are ready, if they come often enough.
-/
structure Visits.Inlines (v : Visits) (b : Dictionary Expr) (ready : Node → Prop) (enough : Nat → Prop) : Prop where
  bare : ∀ count n, n.reference? = none → v.step count n = .ok none
  name : ∀ count pos ident, enough count → ready (.expr (.column pos [ident])) →
    Gives (fun r => ∃ new, r = some { node := .expr new } ∧ b.Expands (Expr.column pos [ident]).nodes new.nodes)
      (v.step count (.expr (.column pos [ident])))
  count : enough v.count
  deeper : ∀ place count, enough count → enough (v.below place count)

namespace Visits

variable {v : Visits} {ready : Node → Prop} {enough : Nat → Prop}

/-- The visits go over the whole tree. -/
@[simp] theorem inner_pass (v : Visits) : v.pass.inner = v.pass := rfl

namespace Inlines

variable (inlines : v.Inlines b ready enough)

include inlines

theorem below (place : Place) : ({ v with count := v.below place v.count } : Visits).Inlines b ready enough :=
  ⟨inlines.bare, inlines.name, inlines.deeper place _ inlines.count, inlines.deeper⟩

theorem node_bare {n : Node} (bare : n.reference? = none) : v.pass.node n = .ok n :=
  Pass.node_eq (inlines.bare _ _ bare)

theorem expr {e : Expr} (bare : (Node.expr e).reference? = none) (expands : b.Expands olds e.nodes) :
    Gives (fun new => b.Expands olds new.nodes) (v.pass.expr e) := by
  rw [Pass.expr, inlines.node_bare bare]
  exact .ok expands

theorem query {q : Query} (expands : b.Expands olds q.nodes) :
    Gives (fun new => b.Expands olds new.nodes) (v.pass.query q) := by
  rw [Pass.query, inlines.node_bare rfl]
  exact .ok expands

theorem table {t : TableExpr} (expands : b.Expands olds t.nodes) :
    Gives (fun new => b.Expands olds new.nodes) (v.pass.table t) := by
  rw [Pass.table, inlines.node_bare rfl]
  exact .ok expands

theorem call {c : Call} (expands : b.Expands olds c.parts) :
    Gives (fun new => b.Expands olds new.parts) (v.pass.call c) := by
  rw [Pass.call, Pass.expr, inlines.node_bare rfl]
  exact .ok expands

theorem type_eq (t : TypeSpec) : t.adapt v.pass = .ok t := by
  refine TypeSpec.adapt_eq fun n member => ?_
  obtain ⟨u, rfl⟩ := t.type_of_mem member
  exact inlines.bare _ _ rfl

theorem column (pos : Position) (path : List Ident) (allowed : ∀ n ∈ (Expr.column pos path).nodes, ready n) :
    Gives (fun new => b.Expands (Expr.column pos path).nodes new.nodes) (v.pass.expr (.column pos path)) := by
  match path with
  | [] | _ :: _ :: _ => exact inlines.expr rfl rfl
  | [ident] =>
    obtain ⟨_, came, new, rfl, expands⟩ := inlines.name _ pos ident inlines.count (allowed _ List.mem_cons_self)
    have stepped : v.pass.step (.expr (.column pos [ident])) = .ok (some { node := .expr new }) := came
    rw [Pass.expr, Pass.node, if_neg (show ¬v.pass.skip > 0 from Nat.lt_irrefl 0), stepped]
    exact .ok expands

end Inlines

end Visits

/-! ### Walks over trees -/

section

variable {ready : Node → Prop} {enough : Nat → Prop}

mutual

theorem Expr.adapt_inlines : ∀ (e : Expr) {v : Visits}, v.Inlines b ready enough → (∀ n ∈ e.nodes, ready n) →
    Gives (fun new => b.Expands e.nodes new.nodes) (e.adapt v.pass)
  | .column pos path, v, inlines, allowed => by
    rw [Expr.adapt]
    exact inlines.column pos path allowed
  | .star .., v, inlines, _ | .literal .., v, inlines, _ | .param .., v, inlines, _ => by
    rw [Expr.adapt]
    exact inlines.expr rfl rfl
  | .binary _ _ left right, v, inlines, allowed | .subscript _ left right, v, inlines, allowed => by
    simp only [Expr.nodes, List.cons_append, List.forall_mem_cons, List.forall_mem_append] at allowed
    rw [Expr.adapt]
    exact (left.adapt_inlines inlines allowed.2.1).bind fun _ first =>
      (right.adapt_inlines inlines allowed.2.2).bind fun _ second =>
      inlines.expr rfl ((first.under rfl rfl).append second)
  | .unary _ _ operand, v, inlines, allowed | .isValue _ operand _ _, v, inlines, allowed
  | .interval _ operand _, v, inlines, allowed | .lambda _ _ operand, v, inlines, allowed
  | .extract _ _ operand, v, inlines, allowed => by
    rw [Expr.adapt]
    exact (operand.adapt_inlines inlines (List.forall_mem_cons.mp allowed).2).bind
      fun _ expands => inlines.expr rfl (expands.under rfl rfl)
  | .call c, v, inlines, allowed => by
    rw [Expr.adapt]
    exact (c.adaptParts_inlines inlines (List.forall_mem_cons.mp allowed).2).bind fun _ expands =>
      inlines.expr rfl (expands.under rfl rfl)
  | .window _ function partitionBy orderBy frame, v, inlines, allowed => by
    simp only [Expr.nodes, List.cons_append, List.forall_mem_cons, List.forall_mem_append] at allowed
    obtain ⟨-, ⟨⟨called, partitioned⟩, sorted⟩, framed⟩ := allowed
    rw [Expr.adapt]
    exact (function.adapt_inlines inlines called).bind fun _ first =>
      (adaptExprs_inlines partitionBy inlines partitioned).bind fun _ second =>
      (adaptOrder_inlines orderBy inlines sorted).bind fun _ third =>
      (adaptFrame_inlines frame inlines framed).bind fun _ fourth =>
      inlines.expr rfl ((((first.under rfl rfl).append second).append third).append fourth)
  | .cast _ operand type _, v, inlines, allowed => by
    simp only [Expr.nodes, List.cons_append, List.forall_mem_cons, List.forall_mem_append] at allowed
    rw [Expr.adapt, v.inner_pass, inlines.type_eq type]
    exact (operand.adapt_inlines inlines allowed.2.1).bind fun _ expands =>
      inlines.expr rfl ((expands.under rfl rfl).append (.of_types type))
  | .caseWhen _ operand arms otherwise, v, inlines, allowed => by
    simp only [Expr.nodes, List.cons_append, List.forall_mem_cons, List.forall_mem_append] at allowed
    obtain ⟨-, ⟨compared, tested⟩, remaining⟩ := allowed
    rw [Expr.adapt]
    exact (adaptOption_inlines operand inlines compared).bind fun _ first =>
      (adaptArms_inlines arms inlines tested).bind fun _ second =>
      (adaptOption_inlines otherwise inlines remaining).bind fun _ third =>
      inlines.expr rfl (((first.under rfl rfl).append second).append third)
  | .between _ operand low high _, v, inlines, allowed => by
    simp only [Expr.nodes, List.cons_append, List.forall_mem_cons, List.forall_mem_append] at allowed
    obtain ⟨-, ⟨compared, least⟩, most⟩ := allowed
    rw [Expr.adapt]
    exact (operand.adapt_inlines inlines compared).bind fun _ first =>
      (low.adapt_inlines inlines least).bind fun _ second =>
      (high.adapt_inlines inlines most).bind fun _ third =>
      inlines.expr rfl (((first.under rfl rfl).append second).append third)
  | .inList _ operand members _, v, inlines, allowed => by
    simp only [Expr.nodes, List.cons_append, List.forall_mem_cons, List.forall_mem_append] at allowed
    rw [Expr.adapt]
    exact (operand.adapt_inlines inlines allowed.2.1).bind fun _ first =>
      (adaptExprs_inlines members inlines allowed.2.2).bind fun _ second =>
      inlines.expr rfl ((first.under rfl rfl).append second)
  | .inQuery _ operand query _, v, inlines, allowed => by
    simp only [Expr.nodes, List.cons_append, List.forall_mem_cons, List.forall_mem_append] at allowed
    rw [Expr.adapt]
    exact (operand.adapt_inlines inlines allowed.2.1).bind fun _ first =>
      (query.adaptParts_inlines inlines allowed.2.2).bind fun _ parts =>
      (inlines.query parts).bind fun _ second =>
      inlines.expr rfl ((first.under rfl rfl).append second)
  | .existsQuery _ query _, v, inlines, allowed | .subquery _ query, v, inlines, allowed => by
    rw [Expr.adapt]
    exact (query.adaptParts_inlines inlines (List.forall_mem_cons.mp allowed).2).bind fun _ parts =>
      (inlines.query parts).bind fun _ expands => inlines.expr rfl (expands.under rfl rfl)
  | .array _ elems, v, inlines, allowed | .struct _ _ elems, v, inlines, allowed => by
    rw [Expr.adapt]
    exact (adaptExprs_inlines elems inlines (List.forall_mem_cons.mp allowed).2).bind fun _ expands =>
      inlines.expr rfl (expands.under rfl rfl)
  | .map _ keys values, v, inlines, allowed => by
    simp only [Expr.nodes, List.cons_append, List.forall_mem_cons, List.forall_mem_append] at allowed
    rw [Expr.adapt]
    exact (adaptExprs_inlines keys inlines allowed.2.1).bind fun _ first =>
      (adaptExprs_inlines values inlines allowed.2.2).bind fun _ second =>
      inlines.expr rfl ((first.under rfl rfl).append second)
  | .repeated place operand, v, inlines, allowed => by
    rw [Expr.adapt]
    exact (operand.adapt_inlines (inlines.below place) allowed).map fun _ expands => expands

theorem Call.adaptParts_inlines : ∀ (c : Call) {v : Visits}, v.Inlines b ready enough → (∀ n ∈ c.parts, ready n) →
    Gives (fun new => b.Expands c.parts new.parts) (c.adaptParts v.pass)
  | ⟨_, _, args, _, orderBy, filter⟩, v, inlines, allowed => by
    simp only [Call.parts, List.forall_mem_append] at allowed
    rw [Call.adaptParts]
    exact (adaptExprs_inlines args inlines allowed.1.1).bind fun _ first =>
      (adaptOrder_inlines orderBy inlines allowed.1.2).bind fun _ second =>
      (adaptOption_inlines filter inlines allowed.2).map fun _ third => (first.append second).append third

theorem adaptExprs_inlines : ∀ (es : List Expr) {v : Visits}, v.Inlines b ready enough → (∀ n ∈ exprNodes es, ready n) →
    Gives (fun new => b.Expands (exprNodes es) (exprNodes new)) (adaptExprs v.pass es)
  | [], _, _, _ => .ok .nil
  | e :: es, v, inlines, allowed => by
    obtain ⟨one, rest⟩ := List.forall_mem_append.mp allowed
    rw [adaptExprs]
    exact (e.adapt_inlines inlines one).bind fun _ first =>
      (adaptExprs_inlines es inlines rest).map fun _ others => first.append others

theorem adaptOption_inlines : ∀ (e : Option Expr) {v : Visits}, v.Inlines b ready enough →
    (∀ n ∈ optionNodes e, ready n) →
    Gives (fun new => b.Expands (optionNodes e) (optionNodes new)) (adaptOption v.pass e)
  | none, _, _, _ => .ok .nil
  | some e, v, inlines, allowed => by
    rw [adaptOption]
    exact (e.adapt_inlines inlines allowed).map fun _ expands => expands

theorem adaptOrder_inlines : ∀ (items : List OrderItem) {v : Visits}, v.Inlines b ready enough →
    (∀ n ∈ orderNodes items, ready n) →
    Gives (fun new => b.Expands (orderNodes items) (orderNodes new)) (adaptOrder v.pass items)
  | [], _, _, _ => .ok .nil
  | ⟨e, _, _⟩ :: rest, v, inlines, allowed => by
    obtain ⟨one, remaining⟩ := List.forall_mem_append.mp allowed
    rw [adaptOrder]
    exact (e.adapt_inlines inlines one).bind fun _ first =>
      (adaptOrder_inlines rest inlines remaining).map fun _ others => first.append others

theorem adaptArms_inlines : ∀ (arms : List When) {v : Visits}, v.Inlines b ready enough →
    (∀ n ∈ armNodes arms, ready n) →
    Gives (fun new => b.Expands (armNodes arms) (armNodes new)) (adaptArms v.pass arms)
  | [], _, _, _ => .ok .nil
  | ⟨condition, result⟩ :: rest, v, inlines, allowed => by
    simp only [armNodes, List.forall_mem_append] at allowed
    rw [adaptArms]
    exact (condition.adapt_inlines inlines allowed.1.1).bind fun _ first =>
      (result.adapt_inlines inlines allowed.1.2).bind fun _ second =>
      (adaptArms_inlines rest inlines allowed.2).map fun _ others => (first.append second).append others

theorem adaptFrame_inlines : ∀ (frame : Option Frame) {v : Visits}, v.Inlines b ready enough →
    (∀ n ∈ frameNodes frame, ready n) →
    Gives (fun new => b.Expands (frameNodes frame) (frameNodes new)) (adaptFrame v.pass frame)
  | none, _, _, _ => .ok .nil
  | some ⟨_, first, last⟩, v, inlines, allowed => by
    obtain ⟨one, other⟩ := List.forall_mem_append.mp allowed
    rw [adaptFrame]
    exact (first.adaptParts_inlines inlines one).bind fun _ expands =>
      (adaptBound_inlines last inlines other).map fun _ expands' => expands.append expands'

theorem adaptBound_inlines : ∀ (bound : Option FrameBound) {v : Visits}, v.Inlines b ready enough →
    (∀ n ∈ boundNodes bound, ready n) →
    Gives (fun new => b.Expands (boundNodes bound) (boundNodes new)) (adaptBound v.pass bound)
  | none, _, _, _ => .ok .nil
  | some bound, v, inlines, allowed => by
    rw [adaptBound]
    exact (bound.adaptParts_inlines inlines allowed).map fun _ expands => expands

theorem FrameBound.adaptParts_inlines : ∀ (bound : FrameBound) {v : Visits}, v.Inlines b ready enough →
    (∀ n ∈ bound.nodes, ready n) → Gives (fun new => b.Expands bound.nodes new.nodes) (bound.adaptParts v.pass)
  | ⟨_, offset⟩, v, inlines, allowed => by
    rw [FrameBound.adaptParts]
    exact (adaptOption_inlines offset inlines allowed).map fun _ expands => expands

theorem Query.adaptParts_inlines : ∀ (q : Query) {v : Visits}, v.Inlines b ready enough → (∀ n ∈ q.nodes, ready n) →
    Gives (fun new => b.Expands q.nodes new.nodes) (q.adaptParts v.pass)
  | .select s, v, inlines, allowed => by
    rw [Query.adaptParts]
    exact (s.adaptParts_inlines inlines (List.forall_mem_cons.mp allowed).2).map fun _ inlined =>
      inlined.1.under rfl rfl
  | .setOp _ _ _ left right orderBy limit, v, inlines, allowed => by
    simp only [Query.nodes, List.cons_append, List.forall_mem_cons, List.forall_mem_append] at allowed
    obtain ⟨-, ⟨⟨before, after⟩, sorted⟩, limited⟩ := allowed
    rw [Query.adaptParts]
    exact (left.adaptParts_inlines inlines before).bind fun _ parts => (inlines.query parts).bind fun _ first =>
      (right.adaptParts_inlines inlines after).bind fun _ parts => (inlines.query parts).bind fun _ second =>
      (adaptOrder_inlines orderBy inlines sorted).bind fun _ third =>
      (adaptOption_inlines limit inlines limited).map fun _ fourth =>
        (((first.under rfl rfl).append second).append third).append fourth

theorem Select.adaptParts_inlines : ∀ (s : Select) {v : Visits}, v.Inlines b ready enough → (∀ n ∈ s.parts, ready n) →
    Gives (fun new => b.Expands s.parts new.parts ∧
      new.ctes.map Cte.isQuery = s.ctes.map Cte.isQuery) (s.adaptParts v.pass)
  | ⟨_, ctes, _, items, source, lateralViews, condition, groupBy, having, orderBy, limit, offset⟩, v,
      inlines, allowed => by
    simp only [Select.parts, List.forall_mem_append, and_assoc] at allowed
    obtain ⟨named, listed, tables, views, filtered, grouped, filteredGroups, sorted, most, skipped⟩ := allowed
    rw [Select.adaptParts]
    exact (adaptCtes_inlines ctes inlines named).bind fun _ ⟨first, kinds⟩ =>
      (adaptItems_inlines items inlines listed).bind fun _ second =>
      (adaptSource_inlines source inlines tables).bind fun _ third =>
      (adaptViews_inlines lateralViews inlines views).bind fun _ fourth =>
      (adaptOption_inlines condition inlines filtered).bind fun _ fifth =>
      (adaptExprs_inlines groupBy inlines grouped).bind fun _ sixth =>
      (adaptOption_inlines having inlines filteredGroups).bind fun _ seventh =>
      (adaptOrder_inlines orderBy inlines sorted).bind fun _ eighth =>
      (adaptOption_inlines limit inlines most).bind fun _ ninth =>
      (adaptOption_inlines offset inlines skipped).map fun _ tenth =>
        ⟨((((((((first.append second).append third).append fourth).append fifth).append sixth).append seventh).append
          eighth).append ninth).append tenth, kinds⟩

theorem adaptCtes_inlines : ∀ (ctes : List Cte) {v : Visits}, v.Inlines b ready enough →
    (∀ n ∈ cteNodes ctes, ready n) →
    Gives (fun new => b.Expands (cteNodes ctes) (cteNodes new) ∧ new.map Cte.isQuery = ctes.map Cte.isQuery)
      (adaptCtes v.pass ctes)
  | [], _, _, _ => .ok ⟨.nil, rfl⟩
  | ⟨_, _, body⟩ :: rest, v, inlines, allowed => by
    obtain ⟨one, remaining⟩ := List.forall_mem_append.mp allowed
    rw [adaptCtes]
    exact (body.adapt_inlines inlines one).bind fun _ ⟨first, kind⟩ =>
      (adaptCtes_inlines rest inlines remaining).map fun _ ⟨others, kinds⟩ =>
        ⟨first.append others, by simp only [List.map_cons, Cte.isQuery, kind, kinds]⟩

theorem CteBody.adapt_inlines : ∀ (body : CteBody) {v : Visits}, v.Inlines b ready enough →
    (∀ n ∈ body.nodes, ready n) →
    Gives (fun new => b.Expands body.nodes new.nodes ∧ new.isQuery = body.isQuery) (body.adapt v.pass)
  | .query q, v, inlines, allowed => by
    rw [CteBody.adapt]
    exact (q.adaptParts_inlines inlines allowed).bind fun _ parts =>
      (inlines.query parts).map fun _ expands => ⟨expands, rfl⟩
  | .scalar e, v, inlines, allowed => by
    rw [CteBody.adapt]
    exact (e.adapt_inlines inlines allowed).map fun _ expands => ⟨expands, rfl⟩

theorem adaptItems_inlines : ∀ (items : List SelectItem) {v : Visits}, v.Inlines b ready enough →
    (∀ n ∈ itemNodes items, ready n) →
    Gives (fun new => b.Expands (itemNodes items) (itemNodes new)) (adaptItems v.pass items)
  | [], _, _, _ => .ok .nil
  | ⟨e, _⟩ :: rest, v, inlines, allowed => by
    obtain ⟨one, remaining⟩ := List.forall_mem_append.mp allowed
    rw [adaptItems]
    exact (e.adapt_inlines inlines one).bind fun _ first =>
      (adaptItems_inlines rest inlines remaining).map fun _ others => first.append others

theorem adaptViews_inlines : ∀ (views : List LateralView) {v : Visits}, v.Inlines b ready enough →
    (∀ n ∈ viewNodes views, ready n) →
    Gives (fun new => b.Expands (viewNodes views) (viewNodes new)) (adaptViews v.pass views)
  | [], _, _, _ => .ok .nil
  | ⟨_, function, _, _, _⟩ :: rest, v, inlines, allowed => by
    simp only [viewNodes, List.cons_append, List.forall_mem_cons, List.forall_mem_append] at allowed
    rw [adaptViews]
    exact (function.adaptParts_inlines inlines allowed.2.1).bind fun _ parts => (inlines.call parts).bind fun _ first =>
      (adaptViews_inlines rest inlines allowed.2.2).map fun _ others => (first.under rfl rfl).append others

theorem adaptSource_inlines : ∀ (source : Option TableExpr) {v : Visits}, v.Inlines b ready enough →
    (∀ n ∈ sourceNodes source, ready n) →
    Gives (fun new => b.Expands (sourceNodes source) (sourceNodes new)) (adaptSource v.pass source)
  | none, _, _, _ => .ok .nil
  | some t, v, inlines, allowed => by
    rw [adaptSource]
    exact (t.adaptParts_inlines inlines allowed).bind fun _ parts => (inlines.table parts).map fun _ expands => expands

theorem TableExpr.adaptParts_inlines : ∀ (t : TableExpr) {v : Visits}, v.Inlines b ready enough →
    (∀ n ∈ t.nodes, ready n) →
    Gives (fun new => b.Expands t.nodes new.nodes) (t.adaptParts v.pass)
  | .ref .., _, _, _ => by
    rw [TableExpr.adaptParts]
    exact .ok rfl
  | .derived _ query _, v, inlines, allowed => by
    rw [TableExpr.adaptParts]
    exact (query.adaptParts_inlines inlines (List.forall_mem_cons.mp allowed).2).bind fun _ parts =>
      (inlines.query parts).map fun _ expands => expands.under rfl rfl
  | .function _ call _, v, inlines, allowed => by
    simp only [TableExpr.nodes, List.forall_mem_cons] at allowed
    rw [TableExpr.adaptParts]
    exact (call.adaptParts_inlines inlines allowed.2.2).bind fun _ parts =>
      (inlines.call parts).map fun _ expands => (expands.under rfl rfl).under rfl rfl
  | .join _ _ left right condition _, v, inlines, allowed => by
    simp only [TableExpr.nodes, List.cons_append, List.forall_mem_cons, List.forall_mem_append] at allowed
    obtain ⟨-, ⟨before, after⟩, joined⟩ := allowed
    rw [TableExpr.adaptParts]
    exact (left.adaptParts_inlines inlines before).bind fun _ parts => (inlines.table parts).bind fun _ first =>
      (right.adaptParts_inlines inlines after).bind fun _ parts => (inlines.table parts).bind fun _ second =>
      (adaptOption_inlines condition inlines joined).map fun _ third =>
        ((first.under rfl rfl).append second).append third

end

end

/-! ### Selects -/

/-- The select without its bindings to values. -/
def Select.queriesOnly (s : Select) : Select := { s with ctes := s.ctes.filter Cte.isQuery }

namespace Doris

section

variable {select : Position} {times : Cell → Nat} {inside : Cell → Expr → Except Error Expr}
    {pos : Position} {ident : Ident}

/-- A name that is not bound stays. -/
theorem standing_free (free : (Node.expr (.column pos [ident])).Free b) (visits : Nat) :
    standing select b visits pos ident = .column pos [ident] := by
  cases visits with
  | zero => rfl
  | succ visits => rw [standing, free _ rfl]

/-- What a visit puts in a name's place. No later visit changes it, if nothing in the value is bound. -/
theorem standing_expands (settled : (Node.expr (.column pos [ident])).Settled b) (visits : Nat) :
    references (standing select b (visits + 1) pos ident).nodes = b.expansion (Text.lower ident.name) ∧
      ∀ n ∈ (standing select b (visits + 1) pos ident).nodes, n.Free b := by
  rw [standing, Dictionary.expansion]
  cases bound : b.find? (Text.lower ident.name) with
  | none =>
    refine ⟨rfl, fun n member => ?_⟩
    obtain rfl := List.mem_singleton.mp member
    rintro name ⟨⟩
    exact bound
  | some value =>
    have free := settled _ rfl value bound
    dsimp only
    split
    · next equal => cases equal
    · next equal =>
      cases equal
      rw [standing_free (free _ List.mem_cons_self)]
      exact ⟨rfl, free⟩
    · next equal =>
      cases equal
      rw [Expr.nodes_inPlace]
      exact ⟨rfl, free⟩

theorem substitute_bare (visits : Nat) {n : Node} (bare : n.reference? = none) :
    substitute select b inside visits n = .ok none := by
  unfold substitute
  split
  · cases bare
  · rfl

theorem substitute_name {visits : Nat} {refs : List String}
    (same : references (standing select b visits pos ident).nodes = refs)
    (within : ∀ cell value, standing select b visits pos ident = .repeated (.bound cell) value →
      Gives (fun new => references new.nodes = references value.nodes) (inside cell value)) :
    Gives (fun r => ∃ new, r = some { node := .expr new } ∧ references new.nodes = refs)
      (substitute select b inside visits (.expr (.column pos [ident]))) := by
  simp only [substitute]
  split
  · next cell value stands =>
    rw [stands] at same
    exact (within cell value stands).map fun new kept => ⟨.repeated (.bound cell) new, rfl, kept.trans same⟩
  · exact .ok ⟨_, rfl, same⟩

/-- Visits change nothing where nothing is bound. -/
theorem visits_free (count : Nat) :
    (visits select b times inside count).Inlines b (Node.Free b) (fun _ => True) where
  bare count _ bare := substitute_bare count bare
  name count pos ident _ free := by
    have stands : standing select b count pos ident = .column pos [ident] := standing_free free count
    have expands : (references (Expr.column pos [ident]).nodes).flatMap b.expansion = [Text.lower ident.name] := by
      have unbound := free _ rfl
      change b.expansion (Text.lower ident.name) ++ [] = _
      rw [List.append_nil, Dictionary.expansion, unbound]
    refine substitute_name ?_ fun cell value equal => ?_
    · rw [stands, expands]
      rfl
    · rw [stands] at equal
      cases equal
  count := trivial
  deeper _ _ _ := trivial

/-- A value without bound names keeps its references. -/
theorem inside_free (depth : Nat) (cell : Cell) {value : Expr} (free : ∀ n ∈ value.nodes, n.Free b) :
    Gives (fun new => references new.nodes = references value.nodes)
    (Doris.inside select b times (depth + 1) cell value) := by
  obtain ⟨new, came, expands⟩ := value.adapt_inlines (visits_free (times cell)) free
  exact ⟨new, came, expands.of_free free⟩

/-- Visits put the values in the place of the names. -/
theorem visits_settled (depth : Nat) :
    (visits select b times (Doris.inside select b times (depth + 1)) 1).Inlines b (Node.Settled b) (0 < ·) where
  bare count _ bare := substitute_bare count bare
  name count pos ident some settled := by
    obtain ⟨before, rfl⟩ := Nat.exists_eq_add_one_of_ne_zero (Nat.ne_of_gt some)
    obtain ⟨same, free⟩ : references (standing select b (before + 1) pos ident).nodes = _ ∧ _ :=
      standing_expands settled before
    have expands : (references (Expr.column pos [ident]).nodes).flatMap b.expansion =
      b.expansion (Text.lower ident.name) :=
      List.append_nil _
    refine substitute_name (same.trans expands.symm) fun cell value stands => ?_
    rw [stands] at free
    exact inside_free depth cell free
  count := Nat.one_pos
  deeper place count some := by
    cases place with
    | first | second => exact Nat.mul_pos Nat.two_pos some
    | bound cell => exact Nat.lt_of_lt_of_le some (Nat.le_max_left _ _)

end

theorem scalarBindings_bound {ctes : List Cte} {cte : Cte} (member : cte ∈ ctes) (scalar : cte.isQuery = false) :
    (scalarBindings ctes).find? (Text.lower cte.name.name) ≠ none := by
  obtain ⟨name, columns, query | value⟩ := cte
  · cases scalar
  · intro unbound
    rw [scalarBindings, Dictionary.ofList, Dictionary.find?, List.lookup_eq_none_iff] at unbound
    refine absurd (unbound (Text.lower name.name, value) ?_) (by simp)
    rw [Dictionary.entries_insertAll, List.append_nil, List.mem_reverse, List.mem_filterMap]
    exact ⟨_, member, rfl⟩

theorem labelItem_expr (b : Dictionary Expr) (item : SelectItem) : (labelItem b item).expr = item.expr := by
  unfold labelItem
  split
  · split <;> rfl
  · rfl

theorem itemNodes_labelItem (b : Dictionary Expr) (items : List SelectItem) :
    itemNodes (items.map (labelItem b)) = itemNodes items := by
  induction items with
  | nil => rfl
  | cons item items ih =>
    have split (item : SelectItem) (rest : List SelectItem) :
        itemNodes (item :: rest) = item.expr.nodes ++ itemNodes rest := by
      cases item
      rfl
    rw [List.map_cons, split, split, labelItem_expr, ih]

/-- The labels that items get are no nodes. -/
theorem parts_unbind (s : Select) : (unbind s).parts = s.queriesOnly.parts := by
  obtain ⟨pos, ctes, distinct, items, source, views, condition, groupBy, having, orderBy, limit, offset⟩ := s
  simp only [unbind, Select.queriesOnly, Select.parts, itemNodes_labelItem]

/-- Inlining drops the bindings to values and puts the values where the names stood. No reference to one of them is
left if the names that the select refers to have values without such names. -/
theorem scalars_inlined {s : Select} (binds : ∃ cte ∈ s.ctes, cte.isQuery = false)
    (settled : ∀ n ∈ s.queriesOnly.parts, n.Settled (scalarBindings s.ctes)) :
    ∃ new, inlineScalars s = .ok (some new) ∧ (∀ cte ∈ new.ctes, cte.isQuery = true) ∧
      (scalarBindings s.ctes).Expands s.queriesOnly.parts new.parts ∧
      ∀ n ∈ new.parts, ∀ cte ∈ s.ctes, cte.isQuery = false → n.reference? ≠ some (Text.lower cte.name.name) := by
  obtain ⟨depth, given⟩ : ∃ depth, (scalarBindings s.ctes).entries.length = depth + 1 := by
    obtain ⟨cte, member, scalar⟩ := binds
    have bound := scalarBindings_bound member scalar
    refine Nat.exists_eq_add_one_of_ne_zero fun empty => bound ?_
    rw [Dictionary.find?, List.eq_nil_of_length_eq_zero empty, List.lookup_nil]
  have parts : (unbind s).parts = s.queriesOnly.parts := parts_unbind s
  let times := timesVisited (unbind s) (scalarBindings s.ctes) (depth + 1)
  have inlines : (visits s.pos (scalarBindings s.ctes) times
      (Doris.inside s.pos (scalarBindings s.ctes) times (depth + 1)) 1).Inlines _ _ _ := visits_settled depth
  obtain ⟨new, walked, expands, kinds⟩ := (unbind s).adaptParts_inlines inlines (parts ▸ settled)
  rw [parts] at expands
  refine ⟨new, ?_, ?_, expands, ?_⟩
  · simp only [inlineScalars, given, Nat.add_eq_zero_iff, Nat.one_ne_zero, and_false, if_false]
    change ((unbind s).adaptParts (visits s.pos _ times _ 1).pass >>= _) = _
    rw [walked]
    rfl
  · intro cte member
    have kept : cte.isQuery ∈ (s.ctes.filter Cte.isQuery).map Cte.isQuery := kinds ▸ List.mem_map_of_mem member
    obtain ⟨old, listed, same⟩ := List.mem_map.mp kept
    rw [← same]
    exact (List.mem_filter.mp listed).2
  · intro n member cte listed scalar refers
    exact scalarBindings_bound listed scalar (expands.free settled n member _ refers)

/-- `WITH y + 1 AS a SELECT ARRAY_MAP(x -> x + A, t.a)`. -/
def shifted : Select where
  ctes := [⟨⟨"a", false⟩, [], .scalar (.binary {} "+" (.col "y") (.num "1"))⟩]
  items := [⟨.fn "ARRAY_MAP" [.lambda {} [⟨"x", false⟩] (.binary {} "+" (.col "x") (.col "A")),
    .column {} [⟨"t", false⟩, ⟨"a", false⟩]], none⟩]

theorem shifted_inlined : (∃ cte ∈ shifted.ctes, cte.isQuery = false) ∧
    (∀ n ∈ shifted.queriesOnly.parts, n.Settled (scalarBindings shifted.ctes)) ∧
    ∃ new, inlineScalars shifted = .ok (some new) ∧ (∀ cte ∈ new.ctes, cte.isQuery = true) ∧
      (scalarBindings shifted.ctes).Expands shifted.queriesOnly.parts new.parts ∧
      ∀ n ∈ new.parts, ∀ cte ∈ shifted.ctes, cte.isQuery = false →
        n.reference? ≠ some (Text.lower cte.name.name) := by
  have binds : ∃ cte ∈ shifted.ctes, cte.isQuery = false := ⟨_, List.mem_cons_self, rfl⟩
  have settled : ∀ n ∈ shifted.queriesOnly.parts, n.Settled (scalarBindings shifted.ctes) := by decide +kernel
  exact ⟨binds, settled, scalars_inlined binds settled⟩

/-- A select inside has put `F(x)` in two places. In `WITH y + 1 AS x, z AS y SELECT (SELECT F(x) + F(x))` names are
replaced twice in it, and so the name in the value of `x` gives way too. -/
example :
    let twice (inner : Expr) : List SelectItem :=
      let value := .repeated (.bound ⟨{}, "b"⟩) (.fn "F" [inner])
      [⟨.subquery {} (.select { items := [⟨.binary {} "+" value value, none⟩] }), none⟩]
    let ctes : List Cte := [⟨⟨"x", false⟩, [], .scalar (.binary {} "+" (.col "y") (.num "1"))⟩,
      ⟨⟨"y", false⟩, [], .scalar (.col "z")⟩]
    inlineScalars { ctes, items := twice (.col "x") } = .ok (some
      { items := twice (.repeated (.bound ⟨{}, "x"⟩) (.binary {} "+" (.col "z") (.num "1"))) }) := by
  with_unfolding_all rfl

/-- `WITH 1 AS a, a + 1 AS b SELECT b`. -/
def chained : Select where
  ctes := [⟨⟨"a", false⟩, [], .scalar (.num "1")⟩, ⟨⟨"b", false⟩, [], .scalar (.binary {} "+" (.col "a") (.num "1"))⟩]
  items := [⟨.col "b", none⟩]

/-- `WITH 1 AS x SELECT ARRAY_MAP(x -> x + 1, arr)`. -/
def shadowed : Select where
  ctes := [⟨⟨"x", false⟩, [], .scalar (.num "1")⟩]
  items := [⟨.fn "ARRAY_MAP" [.lambda {} [⟨"x", false⟩] (.binary {} "+" (.col "x") (.num "1")), .col "arr"], none⟩]

/-- The value of a binding brings in the name of another one, which nothing declares any more, and a parameter of a
lambda gives way to the value of a binding of its name. -/
theorem name_left_and_parameter_replaced :
    inlineScalars chained = .ok (some { items :=
      [⟨.repeated (.bound ⟨{}, "b"⟩) (.binary {} "+" (.col "a") (.num "1")), some ⟨"b", false⟩⟩] }) ∧
    inlineScalars shadowed = .ok (some { items := [⟨.fn "ARRAY_MAP"
      [.lambda {} [⟨"x", false⟩] (.binary {} "+" (.num "1") (.num "1")), .col "arr"], none⟩] }) := by
  constructor <;> with_unfolding_all rfl

end Doris

end SqlDialects
