import SqlDialects.Proofs.CallOrder
import SqlDialects.Tree.Adapt

/-! Walks that stop at calls of certain functions. A step that refuses such calls, and leaves no others behind,
makes the whole walk stop at the first of them from the leaves up; without one of them the walk comes to an end
and has left none behind. -/

namespace SqlDialects

variable {α β : Type}

/-! ### Outcomes -/

/-- What a walk stops at, the error that it stops with, and the errors that it may have besides. -/
structure Watch where
  refused : String → Bool
  fault : Mention → Error
  other : Error → Prop

namespace Watch

variable {w : Watch} {ms others : List Mention}

/-- No call of a refused function. -/
def Clean (w : Watch) (ms : List Mention) : Prop := ∀ m ∈ ms, w.refused m.name = false

@[simp] theorem clean_nil : w.Clean [] := nofun

@[simp] theorem clean_append : w.Clean (ms ++ others) ↔ w.Clean ms ∧ w.Clean others := List.forall_mem_append

@[simp] theorem clean_cons {m : Mention} : w.Clean (m :: ms) ↔ w.refused m.name = false ∧ w.Clean ms :=
  List.forall_mem_cons

/-- No function is refused at all. -/
def Idle (w : Watch) : Prop := ∀ name, w.refused name = false

theorem Idle.clean (idle : w.Idle) (ms : List Mention) : w.Clean ms := fun m _ => idle m.name

/-- The outcome of a walk that comes to calls in the order of the list. -/
def Reports (w : Watch) (ms : List Mention) (good : α → Prop) : Except Error α → Prop
  | .ok a => w.Clean ms ∧ good a
  | .error x => w.other x ∨ ∃ m, ms.find? (w.refused ·.name) = some m ∧ x = w.fault m

namespace Reports

variable {good : α → Prop} {outcome : Except Error α}

theorem ok {a : α} (holds : good a) : w.Reports [] good (.ok a) := ⟨clean_nil, holds⟩

theorem imp {good' : α → Prop} (reports : w.Reports ms good outcome) (implied : ∀ a, good a → good' a) :
    w.Reports ms good' outcome := by
  cases outcome with
  | ok a => exact ⟨reports.1, implied a reports.2⟩
  | error x => exact reports

/-- A walk over a list and then over another one. -/
theorem bind {good' : β → Prop} {next : α → Except Error β} (reports : w.Reports ms good outcome)
    (rest : ∀ a, w.Clean ms → good a → w.Reports others good' (next a)) :
    w.Reports (ms ++ others) good' (outcome >>= next) := by
  cases outcome with
  | error x =>
    obtain harmless | ⟨m, found, rfl⟩ := reports
    · exact .inl harmless
    · exact .inr ⟨m, by rw [List.find?_append, found]; rfl, rfl⟩
  | ok a =>
    obtain ⟨clean, holds⟩ := reports
    have later := rest a clean holds
    have none : ms.find? (w.refused ·.name) = none := List.find?_eq_none.mpr fun m member => by simp [clean m member]
    change w.Reports _ _ (next a)
    cases came : next a with
    | ok b =>
      rw [came] at later
      exact ⟨clean_append.mpr ⟨clean, later.1⟩, later.2⟩
    | error x =>
      rw [came] at later
      simpa [Reports, List.find?_append, none] using later

/-- What comes after the walk over a list comes to no calls any more. -/
theorem andThen {good' : β → Prop} {next : α → Except Error β} (reports : w.Reports ms good outcome)
    (rest : ∀ a, good a → w.Reports [] good' (next a)) : w.Reports ms good' (outcome >>= next) := by
  have both := reports.bind fun a _ holds => rest a holds
  rwa [List.append_nil] at both

theorem map {good' : β → Prop} {f : α → β} (reports : w.Reports ms good outcome)
    (implied : ∀ a, good a → good' (f a)) :
    w.Reports ms good' (outcome >>= fun a => pure (f a)) :=
  reports.andThen fun a holds => .ok (implied a holds)

theorem congr (reports : w.Reports ms good outcome) (same : ms = others) : w.Reports others good outcome :=
  same ▸ reports

theorem drop (reports : w.Reports ms good outcome) (clean : w.Clean ms) : w.Reports [] good outcome := by
  cases outcome with
  | ok a => exact .ok reports.2
  | error x =>
    obtain harmless | ⟨m, found, _⟩ := reports
    · exact .inl harmless
    · have refused := List.find?_some found
      simp [clean m (List.mem_of_find?_eq_some found)] at refused

/-- Where nothing is refused it makes no difference which calls there are. -/
theorem idle (reports : w.Reports ms good outcome) (idle : w.Idle) (others : List Mention) :
    w.Reports others good outcome := by
  have dropped := reports.drop (idle.clean ms)
  cases outcome with
  | ok a => exact ⟨idle.clean others, dropped.2⟩
  | error x => exact .inl (dropped.resolve_right fun ⟨_, found, _⟩ => nomatch found)

end Reports

end Watch

/-! ### Steps and walks -/

namespace Node

/-- Whether a step is given the node: the marks of repeated operands are not. -/
def isPlain : Node → Bool
  | .expr e => !e.isRepeated
  | _ => true

def own : Node → List Mention
  | .expr e => e.own
  | _ => []

def beneath : Node → List Mention
  | .expr e => e.beneath
  | n => n.calls

theorem calls_eq (n : Node) : n.calls = n.beneath ++ n.own := by
  cases n with
  | expr e => exact e.calls_eq
  | _ => exact (List.append_nil _).symm

end Node

variable {w : Watch} {p : Pass}

/-- A step that stops at a refused call. Either it replaces nothing but queries, and these by queries, or
nothing is refused and a replacement of the wrong sort is no error to be told of. -/
structure Step.Watched (step : Step) (w : Watch) : Prop where
  node : ∀ n : Node, n.isPlain → w.Clean n.beneath →
    w.Reports n.own (fun r => ∀ new ∈ r, w.Clean new.node.calls) (step n)
  placed : (w.Idle ∧ ∀ old new sort, w.other (.misplaced old new sort)) ∨
    ∀ n r, step n = .ok (some r) → ∃ old new, n = .statement (.query old) ∧ r.node = .statement (.query new)

/-- What becomes of an expression whose own node is left out. -/
structure Watch.Spared (w : Watch) (e new : Expr) : Prop where
  clean : w.Clean new.beneath
  own : new.own = e.own
  isRepeated : new.isRepeated = e.isRepeated

/-- A walk that leaves out the root or nothing. Where nothing is refused it may leave out more. -/
structure Pass.Watched (p : Pass) (w : Watch) : Prop where
  step : p.step.Watched w
  levels : p.skip ≤ 1 ∨ w.Idle
  again : ∀ levels e, levels ≠ 0 → levels = 1 ∨ w.Idle → w.Clean e.beneath →
    w.Reports [] (w.Spared e) (p.again levels e)
  visits : ∀ v ∈ p.visits, ∀ count, (v.step count).Watched w

/-- A walk that leaves out nothing. -/
structure Pass.Whole (p : Pass) (w : Watch) : Prop extends p.Watched w where
  all : p.skip = 0 ∨ w.Idle

namespace Pass

theorem Watched.inner (watched : p.Watched w) : p.inner.Whole w := by
  have all : p.inner.skip = 0 ∨ w.Idle := watched.levels.imp_left fun few => by
    simp only [Pass.inner]
    omega
  exact ⟨⟨watched.step, all.imp_left fun none => by omega, watched.again, watched.visits⟩, all⟩

theorem Watched.outer (watched : p.Watched w) (none : p.skip = 0) : p.outer.Watched w :=
  ⟨watched.step, .inl (by simp [Pass.outer, none]), watched.again, watched.visits⟩

theorem Watched.below (watched : p.Watched w) {v : Visits} (given : v ∈ p.visits) (place : Place) :
    (p.below v place).Watched w := by
  refine ⟨watched.visits v given _, watched.levels, watched.again, ?_⟩
  rintro _ ⟨⟩
  exact watched.visits v given

/-- What fills the place of a node: a wrong sort is no error to be told of, or there is none. -/
def Fits (w : Watch) (n m : Node) : Prop :=
  (∀ old new sort, w.other (.misplaced old new sort)) ∨ m = n ∨
    ∃ old new, n = .statement (.query old) ∧ m = .statement (.query new)

theorem Whole.node (whole : p.Whole w) {n : Node} (plain : n.isPlain) (clean : w.Clean n.beneath) :
    w.Reports n.own (fun m => w.Clean m.calls ∧ Fits w n m) (p.node n) := by
  unfold Pass.node
  split
  · next some =>
    have idle : w.Idle := whole.all.resolve_left (by omega)
    exact (Watch.Reports.ok ⟨idle.clean _, .inr (.inl rfl)⟩).idle idle _
  · have report := whole.step.node n plain clean
    cases came : p.step n with
    | error x =>
      rw [came] at report
      exact report
    | ok replaced =>
      rw [came] at report
      obtain ⟨own, good⟩ := report
      cases replaced with
      | none => exact ⟨own, n.calls_eq ▸ Watch.clean_append.mpr ⟨clean, own⟩, .inr (.inl rfl)⟩
      | some r =>
        refine ⟨own, good r rfl, ?_⟩
        obtain ⟨_, harmless⟩ | queries := whole.step.placed
        · exact .inl harmless
        · exact .inr (.inr (queries n r came))

variable {q : Query} {t : TableExpr} {s : Statement} {c : Call} {e : Expr}

theorem Whole.query (whole : p.Whole w) (clean : w.Clean q.calls) :
    w.Reports [] (fun new => w.Clean new.calls) (p.query q) := by
  refine (whole.node (n := .statement (.query q)) rfl clean).bind fun m _ ⟨clean, fits⟩ => ?_
  obtain harmless | rfl | ⟨_, _, _, rfl⟩ := fits
  · split
    · exact .ok clean
    · exact .inl (harmless _ _ _)
  · exact .ok clean
  · exact .ok clean

theorem Whole.statement (whole : p.Whole w) (clean : w.Clean s.calls) :
    w.Reports [] (fun new => w.Clean new.calls) (p.statement s) := by
  refine (whole.node (n := .statement s) rfl clean).bind fun m _ ⟨clean, fits⟩ => ?_
  obtain harmless | rfl | ⟨_, _, _, rfl⟩ := fits
  · split
    · exact .ok clean
    · exact .inl (harmless _ _ _)
  · exact .ok clean
  · exact .ok clean

theorem Whole.table (whole : p.Whole w) (clean : w.Clean t.calls) :
    w.Reports [] (fun new => w.Clean new.calls) (p.table t) := by
  refine (whole.node (n := .table t) rfl clean).bind fun m _ ⟨clean, fits⟩ => ?_
  obtain harmless | rfl | ⟨_, _, other, _⟩ := fits
  · split
    · exact .ok clean
    · exact .inl (harmless _ _ _)
  · exact .ok clean
  · cases other

theorem Whole.type (whole : p.Whole w) (t : TypeSpec) : w.Reports [] (fun _ => True) (p.type t) := by
  refine (whole.node (n := .type t) rfl Watch.clean_nil).bind fun m _ ⟨_, fits⟩ => ?_
  obtain harmless | rfl | ⟨_, _, other, _⟩ := fits
  · split
    · exact .ok trivial
    · exact .inl (harmless _ _ _)
  · exact .ok trivial
  · cases other

theorem Whole.expr (whole : p.Whole w) (plain : e.isRepeated = false) (clean : w.Clean e.beneath) :
    w.Reports e.own (fun new => w.Clean new.calls ∧
      ((∀ old new sort, w.other (.misplaced old new sort)) ∨ new = e)) (p.expr e) := by
  refine (whole.node (n := .expr e) (by simp [Node.isPlain, plain]) clean).andThen fun m held => ?_
  obtain ⟨clean, harmless | rfl | ⟨_, _, other, _⟩⟩ := held
  · split
    · exact .ok ⟨clean, .inl harmless⟩
    · exact .inl (harmless _ _ _)
  · exact .ok ⟨clean, .inr rfl⟩
  · cases other

/-- A call in a place that nothing but a call can fill. -/
theorem Whole.call (whole : p.Whole w) (clean : w.Clean c.inner) :
    w.Reports [c.mention] (fun new => w.Clean (new.inner ++ [new.mention])) (p.call c) := by
  refine (whole.expr (e := .call c) rfl clean).andThen fun new held => ?_
  obtain ⟨clean, harmless | rfl⟩ := held
  · split
    · exact .ok clean
    · exact .inl (harmless _ _ _)
  · exact .ok clean

/-- The calls of an expression that a walk comes to. -/
def reached (p : Pass) (e : Expr) : List Mention := e.beneath ++ if p.skip = 0 then e.own else []

/-- What becomes of an expression. -/
structure Keeps (p : Pass) (w : Watch) (e new : Expr) : Prop where
  clean : p.skip = 0 → w.Clean new.calls
  spared : p.skip ≠ 0 → w.Spared e new

theorem Keeps.marked {q : Pass} {new : Expr} (kept : q.Keeps w e new) (same : q.skip = p.skip) (place : Place) :
    p.Keeps w (.repeated place e) (.repeated place new) := by
  refine ⟨fun all => kept.clean (same.trans all), fun some => ?_⟩
  have spared := kept.spared (same ▸ some)
  exact ⟨spared.clean, spared.own, rfl⟩

/-- An expression whose parts have been walked over. -/
theorem Watched.root (watched : p.Watched w) {old : Expr} (plain : e.isRepeated = false)
    (single : old.isRepeated = false) (clean : w.Clean e.beneath) (same : e.own = old.own) :
    w.Reports (if p.skip = 0 then old.own else []) (p.Keeps w old) (p.expr e) := by
  by_cases all : p.skip = 0
  · have whole : p.Whole w := ⟨watched, .inl all⟩
    rw [if_pos all, ← same]
    exact (whole.expr plain clean).imp fun new held => ⟨fun _ => held.1, fun some => absurd all some⟩
  · have stays : p.expr e = .ok e := by
      simp only [Pass.expr, Pass.node, if_pos (Nat.pos_of_ne_zero all)]
      rfl
    rw [stays, if_neg all]
    exact .ok ⟨fun none => absurd none all, fun _ => ⟨clean, same, plain.trans single.symm⟩⟩

/-- What a walk that leaves nothing out makes of an expression. -/
theorem Whole.part (whole : p.Whole w) {outcome : Except Error Expr}
    (report : w.Reports (p.reached e) (p.Keeps w e) outcome) :
    w.Reports e.calls (fun new => w.Clean new.calls) outcome := by
  by_cases all : p.skip = 0
  · rw [reached, if_pos all, ← e.calls_eq] at report
    exact report.imp fun new kept => kept.clean all
  · have idle : w.Idle := whole.all.resolve_left all
    exact (report.imp fun new _ => idle.clean _).idle idle _

theorem Watched.change (watched : p.Watched w) (plain : e.isRepeated = false) (clean : w.Clean e.beneath) :
    w.Reports e.own (fun r => w.Clean e.own ∧ (r = none ∨ w.Idle)) (p.step (.expr e)) := by
  have report := watched.step.node (.expr e) (by simp [Node.isPlain, plain]) clean
  cases came : p.step (.expr e) with
  | error x =>
    rw [came] at report
    exact report
  | ok replaced =>
    rw [came] at report
    refine ⟨report.1, report.1, ?_⟩
    cases replaced with
    | none => exact .inl rfl
    | some r =>
      obtain ⟨idle, _⟩ | queries := watched.step.placed
      · exact .inr idle
      · obtain ⟨_, _, other, _⟩ := queries _ r came
        cases other

/-- A place of a repeated operand whose parts have been walked over. -/
theorem Whole.repeated (whole : p.Whole w) (place : Place) (plain : e.isRepeated = false)
    (clean : w.Clean e.beneath) :
    w.Reports e.own (fun new => w.Clean new.calls) (p.repeated place e) := by
  have unchanged {old : Expr} (new : Expr) (spared : w.Spared old new) (own : w.Clean old.own) :
      w.Clean new.calls := by
    rw [new.calls_eq, spared.own]
    exact Watch.clean_append.mpr ⟨spared.clean, own⟩
  -- Where the step changes the operand, nothing is refused.
  have again (idle : w.Idle) (levels : Nat) (some : levels ≠ 0) {old : Expr} (plain : old.isRepeated = false) :
      w.Reports [] (fun new => new.isRepeated = false) (p.again levels old) :=
    (whole.again levels old some (.inr idle) (idle.clean _)).imp fun _ spared => spared.isRepeated.trans plain
  have changed (idle : w.Idle) (kept : Kept) {new : Expr} (plain : new.isRepeated = false) :
      w.Reports [] (fun new => w.Clean new.calls) (do return p.apart place kept (← p.expr new)) :=
    ((whole.root plain plain (idle.clean _) rfl).idle idle []).map fun _ _ => idle.clean _
  cases place with
  | first =>
    refine (whole.change plain clean).andThen fun r ⟨own, held⟩ => ?_
    cases r with
    | none =>
      exact (whole.again 1 e (by decide) (.inl rfl) clean).map fun new spared => unchanged new spared own
    | some r =>
      have idle : w.Idle := held.resolve_left nofun
      dsimp only
      split
      · exact (again idle 2 (by decide) plain).andThen fun _ plain => changed idle _ plain
      · exact (again idle 1 (by decide) plain).andThen fun _ plain => changed idle _ plain
      · exact (again idle 1 (by decide) plain).andThen fun _ plain => changed idle _ plain
      · exact (again idle 1 (by decide) plain).andThen fun _ plain =>
          (again idle 1 (by decide) plain).andThen fun _ plain => changed idle _ plain
  | second =>
    refine (whole.again 1 e (by decide) (.inl rfl) clean).bind fun twice _ spared => ?_
    rw [← spared.own]
    have plain := spared.isRepeated.trans plain
    refine (whole.change plain spared.clean).andThen fun r ⟨own, held⟩ => ?_
    cases r with
    | none => exact .ok (unchanged twice spared (spared.own ▸ own))
    | some r =>
      have idle : w.Idle := held.resolve_left nofun
      dsimp only
      split
      · exact (again idle 1 (by decide) plain).andThen fun _ plain => changed idle _ plain
      · exact changed idle _ plain
  | bound => exact (whole.expr plain clean).map fun _ ⟨clean, _⟩ => clean

end Pass

/-! ### Walks over trees -/

mutual

theorem TypeSpec.adaptParts_reports : ∀ (t : TypeSpec) {p : Pass}, p.Whole w →
    w.Reports [] (fun _ => True) (t.adaptParts p)
  | ⟨_, _, _, elems, fields, _⟩, p, whole => by
    rw [TypeSpec.adaptParts]
    exact (adaptElems_reports elems whole).bind fun _ _ _ =>
      (adaptFields_reports fields whole).map fun _ _ => trivial

theorem adaptElems_reports : ∀ (ts : List TypeSpec) {p : Pass}, p.Whole w →
    w.Reports [] (fun _ => True) (adaptElems p ts)
  | [], _, _ => .ok trivial
  | t :: ts, p, whole => by
    rw [adaptElems]
    exact (t.adaptParts_reports whole.inner).bind fun new _ _ => (whole.type new).bind fun _ _ _ =>
      (adaptElems_reports ts whole).map fun _ _ => trivial

theorem adaptFields_reports : ∀ (fields : List TypeField) {p : Pass}, p.Whole w →
    w.Reports [] (fun _ => True) (adaptFields p fields)
  | [], _, _ => .ok trivial
  | ⟨_, t⟩ :: rest, p, whole => by
    rw [adaptFields]
    exact (t.adaptParts_reports whole.inner).bind fun new _ _ => (whole.type new).bind fun _ _ _ =>
      (adaptFields_reports rest whole).map fun _ _ => trivial

end

theorem TypeSpec.adapt_reports (whole : p.Whole w) (t : TypeSpec) : w.Reports [] (fun _ => True) (t.adapt p) :=
  (t.adaptParts_reports whole.inner).bind fun new _ _ => whole.type new

theorem Pass.Watched.marked {operand : Expr} (watched : p.Watched w) (place : Place)
    (walks : ∀ {q : Pass}, q.Watched w → w.Reports (q.reached operand) (q.Keeps w operand) (operand.adapt q)) :
    w.Reports (p.reached (.repeated place operand)) (p.Keeps w (.repeated place operand))
      ((Expr.repeated place operand).adapt p) := by
  rw [Expr.adapt]
  split
  · next given => exact (walks (watched.below given place)).map fun _ kept => kept.marked (p := p) rfl place
  split
  · exact (walks watched).map fun _ kept => kept.marked (p := p) rfl place
  · next apart =>
    obtain ⟨all, plain⟩ : p.skip = 0 ∧ operand.isRepeated = false := by simpa using apart
    have whole : p.Whole w := ⟨watched, .inl all⟩
    have report := walks (watched.outer all)
    rw [Pass.reached, if_neg (by simp [Pass.outer]), List.append_nil] at report
    rw [Pass.reached, if_pos all]
    refine report.bind fun new _ kept => ?_
    have spared := kept.spared (by simp [Pass.outer])
    have own : new.own = operand.own := spared.own
    refine ((whole.repeated place (spared.isRepeated.trans plain) spared.clean).imp fun _ clean => ?_).congr own
    exact ⟨fun _ => clean, fun some => absurd all some⟩

mutual

theorem Expr.adapt_reports : ∀ (e : Expr) {p : Pass}, p.Watched w → w.Reports (p.reached e) (p.Keeps w e) (e.adapt p)
  | .column .., p, watched | .star .., p, watched | .literal .., p, watched | .param .., p, watched => by
    rw [Expr.adapt]
    exact watched.root rfl rfl Watch.clean_nil rfl
  | .binary _ _ left right, p, watched | .subscript _ left right, p, watched => by
    have whole := watched.inner
    simp only [Pass.reached, Expr.beneath, Expr.calls, Expr.adapt, List.append_assoc]
    exact (whole.part (left.adapt_reports whole.toWatched)).bind fun _ _ first =>
      (whole.part (right.adapt_reports whole.toWatched)).bind fun _ _ second =>
      watched.root rfl rfl (Watch.clean_append.mpr ⟨first, second⟩) rfl
  | .unary _ _ operand, p, watched | .isValue _ operand _ _, p, watched | .interval _ operand _, p, watched
  | .lambda _ _ operand, p, watched | .extract _ _ operand, p, watched => by
    have whole := watched.inner
    simp only [Pass.reached, Expr.beneath, Expr.calls, Expr.adapt]
    exact (whole.part (operand.adapt_reports whole.toWatched)).bind fun _ _ clean => watched.root rfl rfl clean rfl
  | .call c, p, watched => by
    simp only [Pass.reached, Expr.beneath, Expr.adapt]
    exact (c.adaptParts_reports watched.inner).bind fun _ _ ⟨clean, same⟩ =>
      watched.root rfl rfl clean (congrArg (fun m => [m]) same)
  | .window _ function partitionBy orderBy frame, p, watched => by
    have whole := watched.inner
    simp only [Pass.reached, Expr.beneath, Expr.calls, Expr.adapt, List.append_assoc]
    exact (whole.part (function.adapt_reports whole.toWatched)).bind fun _ _ called =>
      (adaptExprs_reports partitionBy whole).bind fun _ _ parts =>
      (adaptOrder_reports orderBy whole).bind fun _ _ order =>
      (adaptFrame_reports frame whole).bind fun _ _ bounds =>
      watched.root rfl rfl (by simp [Expr.beneath, Expr.calls, called, parts, order, bounds]) rfl
  | .cast _ operand type _, p, watched => by
    have whole := watched.inner
    simp only [Pass.reached, Expr.beneath, Expr.calls, Expr.adapt]
    exact (whole.part (operand.adapt_reports whole.toWatched)).bind fun _ _ clean =>
      (type.adapt_reports whole).bind fun _ _ _ => watched.root rfl rfl clean rfl
  | .caseWhen _ operand arms otherwise, p, watched => by
    have whole := watched.inner
    simp only [Pass.reached, Expr.beneath, Expr.calls, Expr.adapt, List.append_assoc]
    exact (adaptOption_reports operand whole).bind fun _ _ first =>
      (adaptArms_reports arms whole).bind fun _ _ second =>
      (adaptOption_reports otherwise whole).bind fun _ _ last =>
      watched.root rfl rfl (by simp [Expr.beneath, Expr.calls, first, second, last]) rfl
  | .between _ operand low high _, p, watched => by
    have whole := watched.inner
    simp only [Pass.reached, Expr.beneath, Expr.calls, Expr.adapt, List.append_assoc]
    exact (whole.part (operand.adapt_reports whole.toWatched)).bind fun _ _ first =>
      (whole.part (low.adapt_reports whole.toWatched)).bind fun _ _ least =>
      (whole.part (high.adapt_reports whole.toWatched)).bind fun _ _ most =>
      watched.root rfl rfl (by simp [Expr.beneath, Expr.calls, first, least, most]) rfl
  | .inList _ operand members _, p, watched => by
    have whole := watched.inner
    simp only [Pass.reached, Expr.beneath, Expr.calls, Expr.adapt, List.append_assoc]
    exact (whole.part (operand.adapt_reports whole.toWatched)).bind fun _ _ first =>
      (adaptExprs_reports members whole).bind fun _ _ second =>
      watched.root rfl rfl (Watch.clean_append.mpr ⟨first, second⟩) rfl
  | .inQuery _ operand query _, p, watched => by
    have whole := watched.inner
    simp only [Pass.reached, Expr.beneath, Expr.calls, Expr.adapt, List.append_assoc]
    exact (whole.part (operand.adapt_reports whole.toWatched)).bind fun _ _ first =>
      (query.adaptParts_reports whole.inner).bind fun _ _ parts => (whole.query parts).bind fun _ _ second =>
      watched.root rfl rfl (Watch.clean_append.mpr ⟨first, second⟩) rfl
  | .existsQuery _ query _, p, watched | .subquery _ query, p, watched => by
    have whole := watched.inner
    simp only [Pass.reached, Expr.beneath, Expr.calls, Expr.adapt]
    exact (query.adaptParts_reports whole.inner).bind fun _ _ parts => (whole.query parts).bind fun _ _ clean =>
      watched.root rfl rfl clean rfl
  | .array _ elems, p, watched | .struct _ _ elems, p, watched => by
    simp only [Pass.reached, Expr.beneath, Expr.calls, Expr.adapt]
    exact (adaptExprs_reports elems watched.inner).bind fun _ _ clean => watched.root rfl rfl clean rfl
  | .map _ keys values, p, watched => by
    simp only [Pass.reached, Expr.beneath, Expr.calls, Expr.adapt, List.append_assoc]
    exact (adaptExprs_reports keys watched.inner).bind fun _ _ first =>
      (adaptExprs_reports values watched.inner).bind fun _ _ second =>
      watched.root rfl rfl (Watch.clean_append.mpr ⟨first, second⟩) rfl
  | .repeated place operand, _, watched => watched.marked place fun walk => operand.adapt_reports walk

theorem Call.adaptParts_reports : ∀ (c : Call) {p : Pass}, p.Whole w →
    w.Reports c.inner (fun new => w.Clean new.inner ∧ new.mention = c.mention) (c.adaptParts p)
  | ⟨_, _, args, _, orderBy, filter⟩, p, whole => by
    simp only [Call.inner, Call.adaptParts, List.append_assoc]
    exact (adaptExprs_reports args whole).bind fun _ _ first =>
      (adaptOrder_reports orderBy whole).bind fun _ _ order =>
      (adaptOption_reports filter whole).map fun _ last =>
        ⟨by simp [Call.inner, first, order, last], rfl⟩

theorem adaptExprs_reports : ∀ (es : List Expr) {p : Pass}, p.Whole w →
    w.Reports (exprCalls es) (fun new => w.Clean (exprCalls new)) (adaptExprs p es)
  | [], _, _ => .ok Watch.clean_nil
  | e :: es, p, whole => by
    rw [exprCalls, adaptExprs]
    exact (whole.part (e.adapt_reports whole.toWatched)).bind fun _ _ first =>
      (adaptExprs_reports es whole).map fun _ rest =>
        by simp [exprCalls, first, rest]

theorem adaptOption_reports : ∀ (e : Option Expr) {p : Pass}, p.Whole w →
    w.Reports (optionCalls e) (fun new => w.Clean (optionCalls new)) (adaptOption p e)
  | none, _, _ => .ok Watch.clean_nil
  | some e, p, whole => by
    rw [optionCalls, adaptOption]
    exact (whole.part (e.adapt_reports whole.toWatched)).map fun _ clean => clean

theorem adaptOrder_reports : ∀ (items : List OrderItem) {p : Pass}, p.Whole w →
    w.Reports (orderCalls items) (fun new => w.Clean (orderCalls new)) (adaptOrder p items)
  | [], _, _ => .ok Watch.clean_nil
  | ⟨e, _, _⟩ :: rest, p, whole => by
    rw [orderCalls, adaptOrder]
    exact (whole.part (e.adapt_reports whole.toWatched)).bind fun _ _ first =>
      (adaptOrder_reports rest whole).map fun _ others =>
        by simp [orderCalls, first, others]

theorem adaptArms_reports : ∀ (arms : List When) {p : Pass}, p.Whole w →
    w.Reports (armCalls arms) (fun new => w.Clean (armCalls new)) (adaptArms p arms)
  | [], _, _ => .ok Watch.clean_nil
  | ⟨condition, result⟩ :: rest, p, whole => by
    simp only [armCalls, adaptArms, List.append_assoc]
    exact (whole.part (condition.adapt_reports whole.toWatched)).bind fun _ _ first =>
      (whole.part (result.adapt_reports whole.toWatched)).bind fun _ _ second =>
      (adaptArms_reports rest whole).map fun _ others =>
        by simp [armCalls, first, second, others]

theorem adaptFrame_reports : ∀ (frame : Option Frame) {p : Pass}, p.Whole w →
    w.Reports (frameCalls frame) (fun new => w.Clean (frameCalls new)) (adaptFrame p frame)
  | none, _, _ => .ok Watch.clean_nil
  | some ⟨_, first, last⟩, p, whole => by
    rw [frameCalls, adaptFrame]
    exact (first.adaptParts_reports whole).bind fun _ _ one =>
      (adaptBound_reports last whole).map fun _ other =>
        by simp [frameCalls, one, other]

theorem adaptBound_reports : ∀ (bound : Option FrameBound) {p : Pass}, p.Whole w →
    w.Reports (boundCalls bound) (fun new => w.Clean (boundCalls new)) (adaptBound p bound)
  | none, _, _ => .ok Watch.clean_nil
  | some bound, p, whole => by
    rw [boundCalls, adaptBound]
    exact (bound.adaptParts_reports whole).map fun _ clean => clean

theorem FrameBound.adaptParts_reports : ∀ (bound : FrameBound) {p : Pass}, p.Whole w →
    w.Reports bound.calls (fun new => w.Clean new.calls) (bound.adaptParts p)
  | ⟨_, offset⟩, p, whole => by
    rw [FrameBound.calls, FrameBound.adaptParts]
    exact (adaptOption_reports offset whole).map fun _ clean => clean

theorem Query.adaptParts_reports : ∀ (q : Query) {p : Pass}, p.Whole w →
    w.Reports q.calls (fun new => w.Clean new.calls) (q.adaptParts p)
  | .select s, p, whole => by
    rw [Query.calls, Query.adaptParts]
    exact (s.adaptParts_reports whole).map fun _ clean => clean
  | .setOp _ _ _ left right orderBy limit, p, whole => by
    simp only [Query.calls, Query.adaptParts, List.append_assoc]
    exact (left.adaptParts_reports whole.inner).bind fun _ _ parts => (whole.query parts).bind fun _ _ first =>
      (right.adaptParts_reports whole.inner).bind fun _ _ parts => (whole.query parts).bind fun _ _ second =>
      (adaptOrder_reports orderBy whole).bind fun _ _ order =>
      (adaptOption_reports limit whole).map fun _ last =>
        by simp [Query.calls, first, second, order, last]

theorem Select.adaptParts_reports : ∀ (s : Select) {p : Pass}, p.Whole w →
    w.Reports s.calls (fun new => w.Clean new.calls) (s.adaptParts p)
  | ⟨_, ctes, _, items, source, lateralViews, condition, groupBy, having, orderBy, limit, offset⟩, p, whole => by
    simp only [Select.calls, Select.adaptParts, List.append_assoc]
    exact (adaptCtes_reports ctes whole).bind fun _ _ named =>
      (adaptItems_reports items whole).bind fun _ _ listed =>
      (adaptSource_reports source whole).bind fun _ _ tables =>
      (adaptViews_reports lateralViews whole).bind fun _ _ views =>
      (adaptOption_reports condition whole).bind fun _ _ filtered =>
      (adaptExprs_reports groupBy whole).bind fun _ _ grouped =>
      (adaptOption_reports having whole).bind fun _ _ filteredGroups =>
      (adaptOrder_reports orderBy whole).bind fun _ _ sorted =>
      (adaptOption_reports limit whole).bind fun _ _ most =>
      (adaptOption_reports offset whole).map fun _ skipped =>
        (by simp [Select.calls, named, listed, tables, views, filtered, grouped, filteredGroups, sorted, most,
          skipped])

theorem adaptCtes_reports : ∀ (ctes : List Cte) {p : Pass}, p.Whole w →
    w.Reports (cteCalls ctes) (fun new => w.Clean (cteCalls new)) (adaptCtes p ctes)
  | [], _, _ => .ok Watch.clean_nil
  | ⟨_, _, body⟩ :: rest, p, whole => by
    rw [cteCalls, adaptCtes]
    exact (body.adapt_reports whole).bind fun _ _ first =>
      (adaptCtes_reports rest whole).map fun _ others =>
        by simp [cteCalls, first, others]

theorem CteBody.adapt_reports : ∀ (body : CteBody) {p : Pass}, p.Whole w →
    w.Reports body.calls (fun new => w.Clean new.calls) (body.adapt p)
  | .query q, p, whole => by
    rw [CteBody.calls, CteBody.adapt]
    exact (q.adaptParts_reports whole.inner).andThen fun _ parts => (whole.query parts).map fun _ clean => clean
  | .scalar e, p, whole => by
    rw [CteBody.calls, CteBody.adapt]
    exact (whole.part (e.adapt_reports whole.toWatched)).map fun _ clean => clean

theorem adaptItems_reports : ∀ (items : List SelectItem) {p : Pass}, p.Whole w →
    w.Reports (itemCalls items) (fun new => w.Clean (itemCalls new)) (adaptItems p items)
  | [], _, _ => .ok Watch.clean_nil
  | ⟨e, _⟩ :: rest, p, whole => by
    rw [itemCalls, adaptItems]
    exact (whole.part (e.adapt_reports whole.toWatched)).bind fun _ _ first =>
      (adaptItems_reports rest whole).map fun _ others =>
        by simp [itemCalls, first, others]

theorem adaptViews_reports : ∀ (views : List LateralView) {p : Pass}, p.Whole w →
    w.Reports (viewCalls views) (fun new => w.Clean (viewCalls new)) (adaptViews p views)
  | [], _, _ => .ok Watch.clean_nil
  | ⟨_, function, _, _, _⟩ :: rest, p, whole => by
    rw [viewCalls, adaptViews]
    refine (function.adaptParts_reports whole.inner).bind fun _ _ ⟨parts, same⟩ => ?_
    rw [← same]
    exact (whole.call parts).bind fun _ _ first =>
      (adaptViews_reports rest whole).map fun _ others =>
        by simpa [viewCalls, others] using first

theorem adaptSource_reports : ∀ (source : Option TableExpr) {p : Pass}, p.Whole w →
    w.Reports (sourceCalls source) (fun new => w.Clean (sourceCalls new)) (adaptSource p source)
  | none, _, _ => .ok Watch.clean_nil
  | some t, p, whole => by
    rw [sourceCalls, adaptSource]
    exact (t.adaptParts_reports whole.inner).andThen fun _ parts => (whole.table parts).map fun _ clean => clean

theorem TableExpr.adaptParts_reports : ∀ (t : TableExpr) {p : Pass}, p.Whole w →
    w.Reports t.calls (fun new => w.Clean new.calls) (t.adaptParts p)
  | .ref .., _, _ => by
    rw [TableExpr.calls, TableExpr.adaptParts]
    exact .ok Watch.clean_nil
  | .derived _ query _, p, whole => by
    rw [TableExpr.calls, TableExpr.adaptParts]
    exact (query.adaptParts_reports whole.inner).andThen fun _ parts => (whole.query parts).map fun _ clean => clean
  | .function _ call _, p, whole => by
    rw [TableExpr.calls, TableExpr.adaptParts]
    refine (call.adaptParts_reports whole.inner).bind fun _ _ ⟨parts, same⟩ => ?_
    rw [← same]
    exact (whole.call parts).map fun _ clean => clean
  | .join _ _ left right condition _, p, whole => by
    simp only [TableExpr.calls, TableExpr.adaptParts, List.append_assoc]
    exact (left.adaptParts_reports whole.inner).bind fun _ _ parts => (whole.table parts).bind fun _ _ first =>
      (right.adaptParts_reports whole.inner).bind fun _ _ parts => (whole.table parts).bind fun _ _ second =>
      (adaptOption_reports condition whole).map fun _ last =>
        by simp [TableExpr.calls, first, second, last]

end

/-! ### Statements -/

private theorem mapM_reports {calls : α → List Mention} {walk : α → Except Error α} {xs : List α}
    (each : ∀ x ∈ xs, w.Reports (calls x) (fun new => w.Clean (calls new)) (walk x)) :
    w.Reports (xs.flatMap calls) (fun news => w.Clean (news.flatMap calls)) (xs.mapM walk) := by
  induction xs with
  | nil => exact .ok Watch.clean_nil
  | cons x xs ih =>
    rw [List.mapM_cons, List.flatMap_cons]
    exact (each x List.mem_cons_self).bind fun _ _ first =>
      (ih fun y member => each y (List.mem_cons_of_mem x member)).map fun _ rest => by simp [first, rest]

private theorem adaptQueryOption_reports (whole : p.Whole w) (q : Option Query) :
    w.Reports (queryCalls q) (fun new => w.Clean (queryCalls new)) (adaptQueryOption p q) := by
  cases q with
  | none => exact .ok Watch.clean_nil
  | some q =>
    exact (q.adaptParts_reports whole.inner).andThen fun _ parts => (whole.query parts).map fun _ clean => clean

private theorem ColumnDef.adaptParts_reports (whole : p.Whole w) (c : ColumnDef) :
    w.Reports (optionCalls c.defaultValue) (fun new => w.Clean (optionCalls new.defaultValue)) (c.adaptParts p) :=
  (c.type.adapt_reports whole).bind fun _ _ _ => (adaptOption_reports c.defaultValue whole).map fun _ clean => clean

private theorem Constraint.adaptParts_reports (whole : p.Whole w) (c : Constraint) :
    w.Reports (optionCalls c.condition) (fun new => w.Clean (optionCalls new.condition)) (c.adaptParts p) :=
  (adaptOption_reports c.condition whole).map fun _ clean => clean

private theorem partitioning_reports (whole : p.Whole w) (keys : Option Partitioning) :
    w.Reports (partitioningCalls keys) (fun new => w.Clean (partitioningCalls new)) (keys.mapM (·.adaptParts p)) := by
  cases keys with
  | none => exact .ok Watch.clean_nil
  | some keys =>
    have parts : w.Reports (partitioningCalls (some keys)) (fun new => w.Clean (partitioningCalls (some new)))
        (keys.adaptParts p) :=
      (adaptExprs_reports keys.exprs whole).bind fun _ _ first =>
        (mapM_reports fun c _ => c.adaptParts_reports whole).map fun _ second => by
          simp [partitioningCalls, first, second]
    rw [Option.mapM_some]
    exact parts.map fun _ clean => clean

private theorem CreateTable.adaptParts_reports (whole : p.Whole w) (t : CreateTable) :
    w.Reports t.calls (fun new => w.Clean new.calls) (t.adaptParts p) := by
  simp only [CreateTable.calls, CreateTable.adaptParts, List.append_assoc]
  exact (mapM_reports fun c _ => c.adaptParts_reports whole).bind fun _ _ columns =>
    (mapM_reports fun c _ => c.adaptParts_reports whole).bind fun _ _ constraints =>
    (adaptExprs_reports t.sortKey whole).bind fun _ _ sorted =>
    (partitioning_reports whole t.partitioning).bind fun _ _ partitions =>
    (adaptQueryOption_reports whole t.query).map fun _ queried => by
      simp [columns, constraints, sorted, partitions, queried]

theorem Statement.adaptParts_reports (s : Statement) {p : Pass} (whole : p.Whole w) :
    w.Reports s.calls (fun new => w.Clean new.calls) (s.adaptParts p) := by
  induction s generalizing p with
  | query q => exact (q.adaptParts_reports whole).map fun _ clean => clean
  | insert i =>
    exact (mapM_reports fun row _ => adaptExprs_reports row whole).bind fun _ _ rows =>
      (adaptQueryOption_reports whole i.query).map fun _ queried => by simp [Statement.calls, rows, queried]
  | createTable t => exact (t.adaptParts_reports whole).map fun _ clean => clean
  | createView v =>
    exact (v.query.adaptParts_reports whole.inner).andThen fun _ parts => (whole.query parts).map fun _ clean => clean
  | drop => exact .ok Watch.clean_nil
  | explain _ _ s ih => exact (ih whole.inner).andThen fun _ parts => (whole.statement parts).map fun _ clean => clean
  | expression _ e => exact (whole.part (e.adapt_reports whole.toWatched)).map fun _ clean => clean

/-- What a walk over a statement ends with: a statement, unless a wrong sort is no error to be told of. -/
def Watch.Ends (w : Watch) (n : Node) : Prop :=
  (∀ old new sort, w.other (.misplaced old new sort)) ∨ ∃ s, n = .statement s

/-- Visits with such steps go over a tree in the same way. -/
theorem Visits.watched {v : Visits} (watched : ∀ count, (v.step count).Watched w) : v.pass.Whole w := by
  refine ⟨⟨watched _, .inl (Nat.zero_le 1), fun _ _ _ _ clean => .ok ⟨clean, rfl, rfl⟩, ?_⟩, .inl rfl⟩
  rintro _ ⟨⟩
  exact watched

namespace Step.Watched

variable {step : Step}

/-- At every depth the walk with such a step stops at refused calls. -/
theorem pass (watched : step.Watched w) (depth : Nat) : (step.pass depth).Whole w := by
  induction depth with
  | zero =>
    exact ⟨⟨watched, .inl (Nat.zero_le 1), fun _ _ _ _ clean => .ok ⟨clean, rfl, rfl⟩, by rintro _ ⟨⟩⟩, .inl rfl⟩
  | succ depth ih =>
    refine ⟨⟨watched, .inl (Nat.zero_le 1), fun levels e some few clean => ?_, by rintro _ ⟨⟩⟩, .inl rfl⟩
    have below : ({ step.pass depth with skip := levels } : Pass).Watched w :=
      ⟨ih.step, few.imp_left Nat.le_of_eq, ih.again, ih.visits⟩
    have report := e.adapt_reports below
    rw [Pass.reached, if_neg some, List.append_nil] at report
    exact (report.drop clean).imp fun _ kept => kept.spared some

/-- The walk over a statement stops at the first refused call from the leaves up. -/
theorem adapt_statement (watched : step.Watched w) (depth : Nat) (s : Statement) :
    w.Reports s.calls w.Ends (Node.adapt (step.pass depth) (.statement s)) := by
  have whole := watched.pass (w := w) depth
  have parts : w.Reports s.calls (fun n => ∃ new, n = .statement new ∧ w.Clean new.calls)
      (Node.adaptParts (step.pass depth).inner (.statement s)) :=
    (s.adaptParts_reports whole.inner).map fun new clean => ⟨new, rfl, clean⟩
  refine parts.andThen fun n held => ?_
  obtain ⟨new, rfl, clean⟩ := held
  refine (whole.node (n := .statement new) rfl clean).imp fun _ ⟨_, fits⟩ => ?_
  obtain harmless | rfl | ⟨_, last, _, rfl⟩ := fits
  · exact .inl harmless
  · exact .inr ⟨new, rfl⟩
  · exact .inr ⟨.query last, rfl⟩

end Step.Watched

end SqlDialects
