import SqlDialects.Proofs.Settling
import SqlDialects.Proofs.Watch
import SqlDialects.Registry

/-! Functions that only one dialect has. On the way to another dialect a tree is refused exactly if it calls such a
function, and the error names the first of these calls from the leaves up. -/

namespace SqlDialects

/-! ### Rules that refuse nothing -/

/-- An error that is not about a function without a counterpart. -/
def Error.Mapped (x : Error) : Prop := ∀ function source target pos, x ≠ .unmappable function source target pos

/-- A watch that stops at nothing. -/
def Watch.idle : Watch := ⟨fun _ => false, fun m => .unmappable m.name "" "" m.pos, Error.Mapped⟩

namespace Rule

/-- A rule that has an outcome for every node. -/
def Total (r : Rule) : Prop := ∀ ctx n, ∃ out, r.fire? ctx n = .ok out

theorem total_of_transform {r : Rule} {transform : Transform} (is : r.transform = some transform)
    (total : ∀ ctx n, ∃ out, transform ctx n = .ok out) : r.Total := by
  intro ctx n
  simp only [fire?, is]
  split
  · exact total ctx n
  · exact ⟨none, rfl⟩

@[simp] theorem total_onCall (target canonical : String) (step : Call → Option Expr) :
    (onCall target canonical step).Total := by
  refine total_of_transform rfl fun ctx n => ?_
  split
  · exact ⟨_, rfl⟩
  · exact ⟨_, rfl⟩

@[simp] theorem total_sameArgs (target canonical native : String) : (sameArgs target canonical native).Total :=
  total_onCall target canonical _

@[simp] theorem total_native (target canonical native : String) (order : List Nat) :
    (Rule.native target canonical native order).Total := by
  refine total_of_transform rfl fun ctx n => ?_
  split
  · exact ⟨_, rfl⟩
  · exact ⟨_, rfl⟩

@[simp] theorem total_format (target canonical native : String) (i : Nat) (pattern : DatePattern) :
    (format target canonical native i pattern).Total := total_onCall target canonical _

theorem total_unitCalls (target diff add : String) (style : UnitStyle) :
    ∀ r ∈ unitCalls target diff add style, r.Total := by
  intro r member
  obtain ⟨unit, _, listed⟩ := List.mem_flatMap.mp member
  simp only [List.mem_cons, List.not_mem_nil, or_false] at listed
  obtain rfl | rfl | rfl := listed <;> exact total_onCall _ _ _

theorem total_intervalCalls (target add : String) : ∀ r ∈ intervalCalls target add, r.Total := by
  simp [intervalCalls]

end Rule

@[simp] theorem Presto.total_regexpLike (name : String) : (regexpLike name).Total := by
  refine Rule.total_of_transform rfl fun ctx n => ?_
  split <;> exact ⟨_, rfl⟩

@[simp] theorem Postgres.total_arrow (canonical op : String) : (arrow canonical op).Total := by
  refine Rule.total_of_transform rfl fun ctx n => ?_
  split
  · split <;> exact ⟨_, rfl⟩
  · exact ⟨_, rfl⟩

@[simp] theorem Postgres.total_regexp : regexp.Total := by
  refine Rule.total_of_transform rfl fun ctx n => ?_
  split <;> exact ⟨_, rfl⟩

theorem Hive.total_rules (target : String) : ∀ r ∈ rules target, r.Total := by
  simp [rules]

namespace Doris

/-- All of Doris's rules but the one that walks over a query itself. -/
theorem total_rules : ∀ r ∈ rules, r.Total ∨ r = inlineScalarWith := by
  simp only [rules, List.forall_mem_cons, List.not_mem_nil, false_implies, implies_true, and_true, or_true, true_and]
  refine ⟨.inl ?_, .inl ?_, .inl ?_, .inl ?_, .inl ?_, .inl ?_⟩ <;>
    refine Rule.total_of_transform rfl fun ctx n => ?_
  · split
    · split <;> exact ⟨_, rfl⟩
    · exact ⟨_, rfl⟩
  · split
    · split <;> exact ⟨_, rfl⟩
    · exact ⟨_, rfl⟩
  · split <;> exact ⟨_, rfl⟩
  · dsimp only
    split <;> exact ⟨_, rfl⟩
  · split <;> exact ⟨_, rfl⟩
  · split
    · split <;> exact ⟨_, rfl⟩
    · exact ⟨_, rfl⟩

end Doris

private theorem presto_total (name : String) (aliases : List String) :
    ∀ r ∈ (Presto.profileOf name aliases).outbound, r.Total := by
  refine List.forall_mem_append.mpr ⟨List.forall_mem_append.mpr ⟨?_, ?_⟩, by simp⟩
  · exact Rule.total_unitCalls _ _ _ _
  · exact Rule.total_intervalCalls _ _

theorem total_outbound {entry : Entry} (member : entry ∈ Registry.standard.entries) :
    ∀ r ∈ entry.profile.outbound, r.Total ∨ r = Doris.inlineScalarWith := by
  have all {rules : List Rule} (total : ∀ r ∈ rules, r.Total) : ∀ r ∈ rules, r.Total ∨ r = Doris.inlineScalarWith :=
    fun r inside => .inl (total r inside)
  obtain ⟨profile, known, rfl⟩ := List.mem_map.mp member
  clear member
  change ∀ r ∈ profile.outbound, _
  simp only [List.mem_cons, List.not_mem_nil, or_false] at known
  obtain rfl | rfl | rfl | rfl | rfl | rfl | rfl | rfl | rfl | rfl | rfl := known
  · exact nofun
  · exact Doris.total_rules
  · exact all (List.forall_mem_append.mpr ⟨Hive.total_rules "hive", by simp [Hive.readDate]⟩)
  · exact all (List.forall_mem_append.mpr ⟨Rule.total_unitCalls _ _ _ _, by simp⟩)
  · exact all (by simp [Oracle.profile])
  · exact all (by simp [Postgres.profile])
  · exact all (presto_total _ _)
  · refine all (List.forall_mem_append.mpr ⟨List.forall_mem_append.mpr ⟨?_, ?_⟩, by simp⟩)
    · exact Rule.total_unitCalls _ _ _ _
    · exact Rule.total_intervalCalls _ _
  · exact all (List.forall_mem_append.mpr ⟨Hive.total_rules "spark", by simp⟩)
  · exact all (by simp [Teradata.profile])
  · exact all (presto_total _ _)

/-! ### The walk to the target -/

private theorem idle_idle : Watch.idle.Idle := fun _ => rfl

private theorem mapped_misplaced (old new : String) (sort : NodeSort) : (Error.misplaced old new sort).Mapped :=
  fun _ _ _ _ equal => nomatch equal

private theorem idle_watched {step : Step} (mapped : ∀ n x, step n = .error x → x.Mapped) : step.Watched .idle where
  node n _ _ := by
    cases came : step n with
    | ok r => exact ⟨idle_idle.clean _, fun new _ => idle_idle.clean _⟩
    | error x => exact .inl (mapped n x came)
  placed := .inl ⟨idle_idle, mapped_misplaced⟩

private theorem mapped_of_idle {α : Type} {ms : List Mention} {good : α → Prop} {x : Error}
    (report : Watch.idle.Reports ms good (.error x)) : x.Mapped :=
  (report.drop (idle_idle.clean ms)).resolve_right fun ⟨_, found, _⟩ => nomatch found

section

variable (select : Position) (bindings : Dictionary Expr) (times : Cell → Nat)

private theorem visits_watched {inside : Cell → Expr → Except Error Expr}
    (mapped : ∀ cell value x, inside cell value = .error x → x.Mapped) (count : Nat) :
    (Doris.visits select bindings times inside count).pass.Whole .idle := by
  refine Visits.watched fun count => idle_watched fun n x failed => ?_
  simp only [Doris.visits, Doris.substitute] at failed
  split at failed
  · split at failed
    · next cell value _ =>
      cases came : inside cell value with
      | ok new =>
        rw [came] at failed
        cases failed
      | error y =>
        rw [came] at failed
        cases failed
        exact mapped cell value _ came
    · cases failed
  · cases failed

private theorem inside_mapped (depth : Nat) (cell : Cell) (value : Expr) (x : Error)
    (failed : Doris.inside select bindings times depth cell value = .error x) : x.Mapped := by
  induction depth generalizing cell value x with
  | zero =>
    cases failed
    exact fun _ _ _ _ equal => by cases equal
  | succ depth ih =>
    have whole := visits_watched select bindings times ih (times cell)
    have report := value.adapt_reports whole.toWatched
    rw [show value.adapt _ = _ from failed] at report
    exact mapped_of_idle report

end

private theorem inlineScalars_mapped {s : Select} {x : Error} (failed : Doris.inlineScalars s = .error x) :
    x.Mapped := by
  unfold Doris.inlineScalars at failed
  dsimp only at failed
  split at failed
  · cases failed
  · have report : Watch.idle.Reports [] (fun _ => True) (.error x : Except Error (Option Select)) := by
      rw [← failed]
      exact ((Select.adaptParts_reports _ (visits_watched _ _ _ (inside_mapped _ _ _ _) 1)).map fun _ _ =>
        trivial).idle idle_idle []
    exact mapped_of_idle report

private theorem inlineScalarWith_mapped {ctx : Context} {n : Node} {x : Error}
    (failed : Doris.inlineScalarWith.fire? ctx n = .error x) : x.Mapped := by
  unfold Rule.fire? Doris.inlineScalarWith at failed
  dsimp only at failed
  split at failed
  · split at failed
    · next s _ =>
      cases inlined : Doris.inlineScalars s with
      | ok out =>
        rw [inlined] at failed
        cases failed
      | error y =>
        rw [inlined] at failed
        cases failed
        exact inlineScalars_mapped inlined
    · cases failed
  · cases failed

/-- No rule on the way to a target is about functions without a counterpart. -/
theorem mapped_outbound {entry : Entry} (member : entry ∈ Registry.standard.entries) {r : Rule}
    (inside : r ∈ entry.rules.inPhase .outbound) {ctx : Context} {n : Node} {x : Error}
    (failed : r.fire? ctx n = .error x) : x.Mapped := by
  obtain total | rfl := total_outbound member r ((Entry.mem_outbound member).mp inside)
  · obtain ⟨out, came⟩ := total ctx n
    rw [came] at failed
    cases failed
  · exact inlineScalarWith_mapped failed

private theorem outbound_watched {entry : Entry} (member : entry ∈ Registry.standard.entries) (ctx : Context)
    (rounds : Nat) : Step.Watched (Rule.settle ctx rounds (entry.rules.inPhase .outbound)) .idle := by
  refine idle_watched fun n x failed => ?_
  have makes : Rule.Makes (fun _ => True) Error.Mapped (Rule.settle ctx rounds (entry.rules.inPhase .outbound) n) := by
    refine Rule.settle_makes (fun _ => True) (fun _ => True) (fun r inside n _ => ?_) (fun _ _ => trivial) rounds
      trivial
    cases fired : r.fire? ctx n with
    | error y => exact mapped_outbound member inside fired
    | ok out => cases out <;> trivial
  rw [failed] at makes
  exact makes

/-! ### Functions that a table marks -/

namespace Dictionary

variable {α : Type} {key : String} {value : α}

private theorem mem_visible (seen : List String) (entries : List (String × α)) :
    (key, value) ∈ current.visible seen entries ↔ key ∉ seen ∧ entries.lookup key = some value := by
  induction entries generalizing seen with
  | nil => simp [current.visible]
  | cons pair rest ih =>
    obtain ⟨first, held⟩ := pair
    rw [current.visible, List.lookup_cons]
    by_cases hidden : first ∈ seen
    · rw [if_pos (by simpa using hidden), ih]
      refine and_congr_right fun unseen => ?_
      have apart : (key == first) = false := beq_false_of_ne fun same => unseen (same ▸ hidden)
      rw [apart]
    · rw [if_neg (by simpa using hidden), List.mem_cons, ih, Prod.mk.injEq]
      by_cases same : key = first
      · subst same
        simp [hidden, eq_comm]
      · rw [beq_false_of_ne same]
        simp [same]

/-- The entries that are listed are those that are found. -/
theorem mem_current (d : Dictionary α) : (key, value) ∈ d.current ↔ d.find? key = some value := by
  simp [current, find?, mem_visible]

theorem find?_insertEach (d : Dictionary α) (keys : List String) (other : String) :
    (d.insertEach value keys).find? other = if other ∈ keys then some value else d.find? other := by
  unfold insertEach insertAll
  induction keys generalizing d with
  | nil => simp
  | cons key rest ih =>
    rw [List.map_cons, List.foldl_cons, ih, find?_insert]
    by_cases later : other ∈ rest
    · simp [later]
    · by_cases same : other = key <;> simp [later, same]

end Dictionary

/-! ### The walk from ClickHouse -/

namespace ClickHouse

/-- The names that calls of functions which only ClickHouse has are given. -/
def ownFunctions : List String := unmappable.map Text.upper

/-- The dialect before the functions that only it has. -/
private def shared : Dialect :=
  typeBase
  |>.withPairs (arraySpellings ++ bitmapSpellings ++ networkSpellings ++ textSpellings ++
      dateSpellings ++ aggregateSpellings)
  |>.withRenames renames
  |>.withShape 1 (Reshape.castTo (.named "DATETIME"))
    ["toDateTime", "toDateTime64", "toDateTimeOrNull", "toDateTime64OrNull", "toDateTime32"]
  |> withCasts
  |> withDates
  |> withRest

private theorem functions_eq :
    dialect.functions = shared.functions.insertEach .unmapped (unmappable.map Text.lower) := rfl

theorem ownFunctions_eq : ownFunctions =
    ["RUNNINGACCUMULATE", "RUNNINGDIFFERENCE", "RUNNINGDIFFERENCESTARTINGWITHFIRSTVALUE", "FINALIZEAGGREGATION",
      "SEQUENCEMATCH", "SEQUENCECOUNT", "ARRAYFOLD", "DICTGET", "DICTGETORDEFAULT", "DICTGETORNULL", "DICTHAS",
      "JOINGET"] := by
  have upper : String.toList ∘ Text.upper = fun w => w.toList.map Text.upperChar := funext Text.toList_upper
  rw [← List.map_inj_right fun _ _ => String.toList_inj.mp, ownFunctions, List.map_map, upper]
  decide +kernel

private theorem shared_entries : ∀ entry ∈ shared.functions.entries,
    entry.2.unmappable = false ∧ entry.2.name ∉ ownFunctions := by
  rw [ownFunctions_eq]
  decide +kernel

/-- The entries of the dialect's table for functions that only it has. -/
private def marked : List (String × FunctionRule) := dialect.functions.current.filter (·.2.unmappable)

private theorem mem_ownFunctions {name : String} :
    name ∈ ownFunctions ↔ ∃ entry ∈ marked, Text.upper entry.1 = name := by
  have letters : ∀ native ∈ unmappable,
      (native.toList.map Text.lowerChar).map Text.upperChar = native.toList.map Text.upperChar := by
    decide +kernel
  have cased (native : String) (member : native ∈ unmappable) : Text.upper (Text.lower native) = Text.upper native := by
    rw [← String.toList_inj, Text.toList_upper, Text.toList_lower, Text.toList_upper, letters native member]
  constructor
  · intro listed
    obtain ⟨native, member, rfl⟩ := List.mem_map.mp listed
    refine ⟨(Text.lower native, .unmapped), List.mem_filter.mpr ⟨?_, rfl⟩, cased native member⟩
    rw [Dictionary.mem_current, functions_eq, Dictionary.find?_insertEach, if_pos (List.mem_map_of_mem member)]
  · rintro ⟨⟨key, rule⟩, member, rfl⟩
    obtain ⟨current, kept⟩ := List.mem_filter.mp member
    rw [Dictionary.mem_current, functions_eq, Dictionary.find?_insertEach] at current
    split at current
    · next listed =>
      obtain ⟨native, known, rfl⟩ := List.mem_map.mp listed
      exact List.mem_map.mpr ⟨native, known, (cased native known).symm⟩
    · have inside : (key, rule) ∈ shared.functions.entries := by
        obtain ⟨front, back, split, _⟩ := List.lookup_eq_some_iff.mp current
        simp [split]
      rw [(shared_entries _ inside).1] at kept
      cases kept

example : "joinGet" ∉ ownFunctions ∧ "JOINGET" ∈ ownFunctions := by decide +kernel

theorem named_foreign {native : String} {rule : FunctionRule} (found : dialect.function? native = some rule)
    (mapped : rule.unmappable = false) : rule.name ∉ ownFunctions := by
  rw [Dialect.function?, functions_eq, Dictionary.find?_insertEach] at found
  split at found
  · cases found
    cases mapped
  · obtain ⟨front, back, split, _⟩ := List.lookup_eq_some_iff.mp found
    exact (shared_entries (Text.lower native, rule) (by simp [split])).2

variable {m : Mention}

private theorem mem_itemCalls_iff {items : List SelectItem} :
    m ∈ itemCalls items ↔ ∃ item ∈ items, m ∈ item.expr.calls := by
  induction items with
  | nil => simp [itemCalls]
  | cons item rest ih =>
    cases item
    simp [itemCalls, ih]

private theorem mem_viewCalls_iff {views : List LateralView} :
    m ∈ viewCalls views ↔ ∃ view ∈ views, m ∈ view.function.inner ∨ m = view.function.mention := by
  induction views with
  | nil => simp [viewCalls]
  | cons view rest ih =>
    cases view
    simp [viewCalls, ih, or_assoc]

private theorem explodeItem_calls (index : Nat) (item : SelectItem) :
    (∀ m ∈ (explodeItem index item).1.expr.calls, m ∈ item.expr.calls) ∧
      ∀ view ∈ (explodeItem index item).2, view.function.name = "EXPLODE" ∧
        ∀ m ∈ view.function.inner, m ∈ item.expr.calls := by
  unfold explodeItem
  split
  · next f called =>
    split
    · next x _ args =>
      refine ⟨by simp [Expr.calls], ?_⟩
      rintro view ⟨rfl⟩
      refine ⟨rfl, fun m inside => ?_⟩
      obtain ⟨_, _, arguments, _, _, _⟩ := f
      obtain rfl : arguments = [x] := args
      rw [called]
      simp only [Call.moved, Call.inner, exprCalls, orderCalls, optionCalls, List.append_nil] at inside
      simp [Expr.calls, Call.inner, exprCalls, inside]
    · exact ⟨fun m inside => inside, by simp⟩
  · exact ⟨fun m inside => inside, by simp⟩

private theorem exploded_calls {s : Select} {exploded : List (SelectItem × Option LateralView)}
    (known : ∀ x ∈ exploded, ∃ item ∈ s.items, ∃ index, explodeItem index item = x) :
    ∀ m ∈ ({ s with
          items := exploded.map Prod.fst
          lateralViews := s.lateralViews ++ exploded.filterMap Prod.snd } : Select).calls,
      m ∈ s.calls ∨ m.name = "EXPLODE" := by
  intro m inside
  have items : m ∈ itemCalls (exploded.map Prod.fst) → m ∈ itemCalls s.items := by
    rw [mem_itemCalls_iff, mem_itemCalls_iff]
    rintro ⟨_, listed, held⟩
    obtain ⟨x, member, rfl⟩ := List.mem_map.mp listed
    obtain ⟨item, own, index, rfl⟩ := known x member
    exact ⟨item, own, (explodeItem_calls index item).1 m held⟩
  have views : m ∈ viewCalls (s.lateralViews ++ exploded.filterMap Prod.snd) →
      m ∈ viewCalls s.lateralViews ∨ m ∈ itemCalls s.items ∨ m.name = "EXPLODE" := by
    rw [mem_viewCalls_iff, mem_viewCalls_iff, mem_itemCalls_iff]
    rintro ⟨view, listed, held⟩
    obtain old | new := List.mem_append.mp listed
    · exact .inl ⟨view, old, held⟩
    · obtain ⟨x, member, same⟩ := List.mem_filterMap.mp new
      obtain ⟨item, own, index, rfl⟩ := known x member
      have calls := (explodeItem_calls index item).2 view same
      obtain below | rfl := held
      · exact .inr (.inl ⟨item, own, calls.2 m below⟩)
      · exact .inr (.inr calls.1)
  cases s
  simp only [Select.calls, List.mem_append] at inside items views ⊢
  grind

private theorem arrayJoinItems_fire (ctx : Context) (n : Node) :
    arrayJoinItems.fire? ctx n = .ok none ∨ ∃ old new, n = .statement (.query (.select old)) ∧
      arrayJoinItems.fire? ctx n = .ok (some (.statement (.query (.select new)))) ∧
      ∀ m ∈ new.calls, m ∈ old.calls ∨ m.name = "EXPLODE" := by
  unfold Rule.fire? arrayJoinItems
  dsimp only
  split
  · split
    · next s _ =>
      split
      · refine .inr ⟨s, _, rfl, rfl, exploded_calls fun x member => ?_⟩
        obtain ⟨⟨item, index⟩, pair, rfl⟩ := List.mem_map.mp member
        exact ⟨item, List.mem_of_getElem? (List.mem_zipIdx_iff_getElem?.mp pair), index, rfl⟩
      · exact .inl rfl
    · exact .inl rfl
  · exact .inl rfl

end ClickHouse

/-- What a walk from ClickHouse stops at. -/
def Watch.leaving (target : String) : Watch where
  refused name := target != "clickhouse" && ClickHouse.ownFunctions.contains name
  fault m := .unmappable m.name "clickhouse" target m.pos
  other _ := False

namespace ClickHouse

variable {ctx : Context} {target : String}

private theorem unmappable_call (source : ctx.source.name = "clickhouse") {native : String}
    (named : Text.upper native ≠ "") (c : Call) : (Rule.unmappable "clickhouse" native).fire? ctx (.expr (.call c)) =
      if c.name = Text.upper native ∧ ctx.isCross then ctx.unmappable c else .ok none := by
  have matched : (Rule.unmappable "clickhouse" native).pattern.matches (.expr (.call c)) ctx =
      (c.name == Text.upper native) := by
    simp [Rule.unmappable, Pattern.matches, Pattern.matchesArity, source, Node.kind, Expr.kind, Node.name,
      beq_false_of_ne named]
  unfold Rule.fire?
  rw [matched]
  by_cases same : c.name = Text.upper native <;> by_cases cross : ctx.isCross <;> simp [Rule.unmappable, same, cross]

private theorem unmappable_other {native : String} {n : Node} (other : ∀ c, n ≠ .expr (.call c)) :
    (Rule.unmappable "clickhouse" native).fire? ctx n = .ok none := by
  simp only [Rule.fire?, Rule.unmappable]
  split
  · rfl
  · rfl

/-- Rules on the way from ClickHouse. -/
private def Inbound (rules : List Rule) : Prop :=
  ∀ r, r ∈ rules ↔ r = arrayJoinItems ∨ ∃ entry ∈ marked, r = Rule.unmappable "clickhouse" entry.1

variable {rules : List Rule}

private theorem upper_marked {entry : String × FunctionRule} (known : entry ∈ marked) : Text.upper entry.1 ≠ "" :=
  fun empty => absurd (mem_ownFunctions.mpr ⟨entry, known, empty⟩) (by simp [ownFunctions_eq])

private theorem isCross_eq (source : ctx.source.name = "clickhouse") (towards : ctx.target.name = target) :
    ctx.isCross = (target != "clickhouse") := by
  rw [Context.isCross, source, towards]
  simp only [bne, BEq.comm]

private theorem fault_eq (source : ctx.source.name = "clickhouse") (towards : ctx.target.name = target) (c : Call) :
    (ctx.unmappable c : Except Error (Option Node)) = .error ((Watch.leaving target).fault c.mention) := by
  simp [Context.unmappable, Watch.leaving, Call.mention, source, towards]

private theorem arrayJoinItems_other {n : Node} (other : ∀ s, n ≠ .statement (.query (.select s))) :
    arrayJoinItems.fire? ctx n = .ok none := by
  obtain same | ⟨old, _, rfl, _⟩ := arrayJoinItems_fire ctx n
  · exact same
  · exact absurd rfl (other old)

/-- A select stays one, and gets no calls of marked functions. -/
private theorem settle_select (inbound : Inbound rules) (s : Select) (rounds : Nat) :
    Rule.settle ctx rounds rules (.statement (.query (.select s))) = .ok none ∨
      ∃ new r, Rule.settle ctx rounds rules (.statement (.query (.select s))) = .ok (some r) ∧
        r.node = .statement (.query (.select new)) ∧
        ((Watch.leaving target).Clean s.calls → (Watch.leaving target).Clean new.calls) := by
  let good (m : Node) : Prop := ∃ new, m = .statement (.query (.select new)) ∧
    ((Watch.leaving target).Clean s.calls → (Watch.leaving target).Clean new.calls)
  have makes : Rule.Makes (fun r => good r.node) (fun _ => False)
      (Rule.settle ctx rounds rules (.statement (.query (.select s)))) := by
    refine Rule.settle_makes good good (fun r member m held => ?_) (fun _ held => held) _ ⟨s, rfl, id⟩
    obtain rfl | ⟨entry, known, rfl⟩ := (inbound r).mp member
    · obtain same | ⟨old, new, rfl, came, calls⟩ := arrayJoinItems_fire ctx m
      · rw [same]
        trivial
      · rw [came]
        obtain ⟨_, ⟨rfl⟩, kept⟩ := held
        refine ⟨new, rfl, fun clean m inside => ?_⟩
        obtain old | name := calls m inside
        · exact kept clean m old
        · simp [Watch.leaving, name, ownFunctions_eq]
    · obtain ⟨_, rfl, _⟩ := held
      rw [unmappable_other (by simp)]
      trivial
  cases came : Rule.settle ctx rounds rules (.statement (.query (.select s))) with
  | error x =>
    rw [came] at makes
    exact makes.elim
  | ok out =>
    rw [came] at makes
    cases out with
    | none => exact .inl rfl
    | some r =>
      obtain ⟨new, changed, kept⟩ := makes
      exact .inr ⟨new, r, rfl, changed, kept⟩

private theorem settle_refused (inbound : Inbound rules) (source : ctx.source.name = "clickhouse")
    (towards : ctx.target.name = target) {c : Call}
      (refused : (Watch.leaving target).refused c.name = true) (rounds : Nat) :
    Rule.settle ctx (rounds + 1) rules (.expr (.call c)) = .error ((Watch.leaving target).fault c.mention) := by
  have makes : Rule.Makes (fun _ => False) (fun x => x = (Watch.leaving target).fault c.mention)
      (Rule.settle ctx (rounds + 1) rules (.expr (.call c))) := by
    refine Rule.settle_makes (· = .expr (.call c)) (fun _ => False) (fun r member m same => ?_)
      (fun _ => False.elim) _ rfl
    subst same
    obtain rfl | ⟨entry, known, rfl⟩ := (inbound r).mp member
    · rw [arrayJoinItems_other (by simp)]
      trivial
    · rw [unmappable_call source (upper_marked known), fault_eq source towards]
      split <;> trivial
  cases came : Rule.settle ctx (rounds + 1) rules (.expr (.call c)) with
  | error x =>
    rw [came] at makes
    exact congrArg Except.error makes
  | ok out =>
    rw [came] at makes
    cases out with
    | some r => exact makes.elim
    | none =>
      -- The rule of the function is among the rules, so they cannot all leave the call alone.
      obtain ⟨different, own⟩ : target ≠ "clickhouse" ∧ c.name ∈ ownFunctions := by
        simpa [Watch.leaving] using refused
      obtain ⟨entry, known, same⟩ := mem_ownFunctions.mp own
      have quiet := (Rule.settle_none_iff rounds).mp came _ ((inbound _).mpr (.inr ⟨entry, known, rfl⟩))
      rw [unmappable_call source (upper_marked known),
        if_pos ⟨same.symm, by simp [isCross_eq source towards, different]⟩, fault_eq source towards] at quiet
      cases quiet

/-- Nothing else is changed. -/
private theorem settle_allowed (inbound : Inbound rules) (source : ctx.source.name = "clickhouse")
    (towards : ctx.target.name = target) {n : Node} (other : ∀ s, n ≠ .statement (.query (.select s)))
    (allowed : ∀ c, n = .expr (.call c) → (Watch.leaving target).refused c.name = false) (rounds : Nat) :
    Rule.settle ctx (rounds + 1) rules n = .ok none := by
  refine (Rule.settle_none_iff rounds).mpr fun r member => ?_
  obtain rfl | ⟨entry, known, rfl⟩ := (inbound r).mp member
  · exact arrayJoinItems_other other
  · by_cases call : ∃ c, n = .expr (.call c)
    · obtain ⟨c, rfl⟩ := call
      rw [unmappable_call source (upper_marked known), if_neg]
      rintro ⟨same, crosses⟩
      have stays := allowed c rfl
      have own := mem_ownFunctions.mpr ⟨entry, known, same.symm⟩
      rw [isCross_eq source towards] at crosses
      simp [Watch.leaving, own, crosses] at stays
    · exact unmappable_other fun c equal => call ⟨c, equal⟩

private theorem settle_inbound (inbound : Inbound rules) (source : ctx.source.name = "clickhouse")
    (towards : ctx.target.name = target) (n : Node) (rounds : Nat) :
    (∃ c, n = .expr (.call c) ∧ (Watch.leaving target).refused c.name = true ∧
        Rule.settle ctx (rounds + 1) rules n = .error ((Watch.leaving target).fault c.mention)) ∨
      (Rule.settle ctx (rounds + 1) rules n = .ok none ∧
        ∀ c, n = .expr (.call c) → (Watch.leaving target).refused c.name = false) ∨
      ∃ old new r, n = .statement (.query (.select old)) ∧
        Rule.settle ctx (rounds + 1) rules n = .ok (some r) ∧
        r.node = .statement (.query (.select new)) ∧
        ((Watch.leaving target).Clean old.calls → (Watch.leaving target).Clean new.calls) := by
  by_cases select : ∃ s, n = .statement (.query (.select s))
  · obtain ⟨s, rfl⟩ := select
    obtain came | ⟨new, r, came, changed, kept⟩ := settle_select inbound s (rounds + 1)
    · exact .inr (.inl ⟨came, by simp⟩)
    · exact .inr (.inr ⟨s, new, r, rfl, came, changed, kept⟩)
  by_cases refused : ∃ c, n = .expr (.call c) ∧ (Watch.leaving target).refused c.name = true
  · obtain ⟨c, rfl, refused⟩ := refused
    exact .inl ⟨c, rfl, refused, settle_refused inbound source towards refused rounds⟩
  · have allowed (c : Call) (call : n = .expr (.call c)) : (Watch.leaving target).refused c.name = false :=
      Bool.eq_false_iff.mpr fun stops => refused ⟨c, call, stops⟩
    exact .inr (.inl ⟨settle_allowed inbound source towards (fun s equal => select ⟨s, equal⟩) allowed rounds, allowed⟩)

theorem leaving_watched (inbound : Inbound rules) (source : ctx.source.name = "clickhouse")
    (towards : ctx.target.name = target) : Step.Watched (Rule.settle ctx rules.length rules) (.leaving target) := by
  obtain ⟨rounds, size⟩ : ∃ rounds, rules.length = rounds + 1 :=
    ⟨_, (Nat.succ_pred_eq_of_pos (List.length_pos_of_mem ((inbound _).mpr (.inl rfl)))).symm⟩
  rw [size]
  constructor
  · intro n plain clean
    obtain ⟨c, rfl, refused, came⟩ | ⟨came, allowed⟩ | ⟨old, new, r, rfl, came, changed, kept⟩ :=
      settle_inbound inbound source towards n rounds
    · rw [came]
      exact .inr ⟨c.mention, by simp [Node.own, Expr.own, Call.mention, refused], rfl⟩
    · rw [came]
      refine ⟨?_, nofun⟩
      cases n with
      | expr e =>
        cases e with
        | call c => simp [Node.own, Expr.own, Call.mention, allowed c rfl]
        | repeated => cases plain
        | _ => exact Watch.clean_nil
      | _ => exact Watch.clean_nil
    · rw [came]
      refine ⟨Watch.clean_nil, ?_⟩
      rintro _ ⟨rfl⟩
      rw [changed]
      exact kept clean
  · right
    intro n r came
    obtain ⟨_, _, _, other⟩ | ⟨other, _⟩ | ⟨old, new, _, rfl, other, changed, _⟩ :=
      settle_inbound inbound source towards n rounds
    · rw [came] at other
      cases other
    · rw [came] at other
      cases other
    · rw [came] at other
      cases other
      exact ⟨_, _, rfl, changed⟩

private theorem registered : Entry.ofProfile profile ∈ Registry.standard.entries := by
  simp [Registry.standard]

private theorem dialect_name : dialect.name = "clickhouse" := by decide +kernel

private theorem rules_inbound : Inbound ((Entry.ofProfile profile).rules.inPhase .inbound) := by
  intro r
  rw [Entry.mem_inbound registered]
  refine or_congr List.mem_singleton ?_
  simp only [Profile.unmappableRules, Entry.dialect, Entry.ofProfile, profile, dialect_name, marked, List.mem_map,
    eq_comm]

end ClickHouse

theorem Entry.unmappable_rule {entry : Entry} (member : entry ∈ Registry.standard.entries) {r : Rule}
    (listed : r ∈ Profile.unmappableRules entry.dialect) : entry = Entry.ofProfile ClickHouse.profile ∧
      ∃ native, r = .unmappable "clickhouse" native ∧ Text.upper native ∈ ClickHouse.ownFunctions := by
  obtain ⟨profile, known, rfl⟩ := List.mem_map.mp member
  clear member
  have others : ∀ profile ∈ [Doris.profile, Hive.profile, MySql.profile, Oracle.profile, Postgres.profile,
      Presto.profile, Snowflake.profile, Spark.profile, Teradata.profile, Presto.trino],
      ∀ entry ∈ profile.dialect.functions.entries, entry.2.unmappable = false := by
    decide +kernel
  obtain ⟨⟨native, rule⟩, marked, rfl⟩ := List.mem_map.mp listed
  obtain rfl | other := List.mem_cons.mp known
  · exact ⟨rfl, native, by rw [← ClickHouse.dialect_name]; rfl, ClickHouse.mem_ownFunctions.mpr ⟨_, marked, rfl⟩⟩
  · obtain ⟨current, unmapped⟩ := List.mem_filter.mp marked
    obtain ⟨front, back, split, _⟩ := List.lookup_eq_some_iff.mp ((Dictionary.mem_current _).mp current)
    have mapped := others profile other (native, rule) (split ▸ List.mem_append_cons_self)
    rw [mapped] at unmapped
    cases unmapped

/-! ### The whole way -/

section

variable {target : Entry}

private theorem apply_cases (member : target ∈ Registry.standard.entries) (s : Statement) :
    let e : Engine := ⟨ClickHouse.dialect, target.dialect, (Entry.ofProfile ClickHouse.profile).rules.inPhase .inbound,
      target.rules.inPhase .outbound⟩
    (∃ m, s.calls.find? ((Watch.leaving target.name).refused ·.name) = some m ∧
        e.apply s = .error ((Watch.leaving target.name).fault m)) ∨
      (Watch.leaving target.name).Clean s.calls ∧ ∀ x, e.apply s = .error x → x.Mapped := by
  intro e
  have inbound : (Watch.leaving target.name).Reports s.calls (Watch.leaving target.name).Ends
      (e.phase e.inbound (.statement s)) := by
    have watched (again : Node → Except Error Node) : Step.Watched (Rule.settle ⟨e.source, e.target, again⟩
        e.inbound.length e.inbound) (.leaving target.name) :=
      ClickHouse.leaving_watched ClickHouse.rules_inbound ClickHouse.dialect_name rfl
    rw [Engine.phase, Engine.againDepth, Engine.run]
    exact (watched _).adapt_statement _ s
  rw [Engine.apply]
  cases came : e.phase e.inbound (.statement s) with
  | error x =>
    rw [came] at inbound
    obtain impossible | ⟨m, found, rfl⟩ := inbound
    · exact impossible.elim
    · exact .inl ⟨m, found, rfl⟩
  | ok n =>
    rw [came] at inbound
    obtain ⟨clean, harmless | ⟨new, rfl⟩⟩ := inbound
    · exact (harmless "" "" .call).elim
    · refine .inr ⟨clean, fun x failed => ?_⟩
      have outbound : Watch.idle.Reports new.calls Watch.idle.Ends (e.phase e.outbound (.statement new)) := by
        rw [Engine.phase, Engine.againDepth, Engine.run]
        exact (outbound_watched member _ _).adapt_statement _ new
      change (e.phase e.outbound (.statement new) >>= _) = _ at failed
      cases last : e.phase e.outbound (.statement new) with
      | error y =>
        rw [last] at outbound failed
        cases failed
        exact mapped_of_idle outbound
      | ok n =>
        rw [last] at failed
        cases n <;> cases failed <;> exact fun _ _ _ _ equal => nomatch equal

private theorem mem_calls_iff {s : Statement} {m : Mention} :
    m ∈ s.calls ↔ ∃ c, .expr (.call c) ∈ s.nodes ∧ c.mention = m := by
  rw [s.mem_calls, mentioned, List.mem_filterMap]
  constructor
  · rintro ⟨n, node, held⟩
    unfold Node.mention? at held
    split at held
    · cases held
      exact ⟨_, node, rfl⟩
    · cases held
  · rintro ⟨c, node, rfl⟩
    exact ⟨_, node, rfl⟩

/-- On the way from ClickHouse to another dialect a statement is refused for a function without a counterpart
exactly if it calls one that only ClickHouse has. The error names the first of these calls from the leaves up. On
the way to ClickHouse itself there is no such error. -/
theorem own_functions_stay (member : target ∈ Registry.standard.entries) :
    ∃ e, Engine.build (Entry.ofProfile ClickHouse.profile) target [] = .ok e ∧ ∀ s : Statement,
      (target.name ≠ "clickhouse" →
        ((∃ function source towards pos, e.apply s = .error (.unmappable function source towards pos)) ↔
          ∃ c, .expr (.call c) ∈ s.nodes ∧ c.name ∈ ClickHouse.ownFunctions) ∧
        ∀ m, s.calls.find? (fun m => ClickHouse.ownFunctions.contains m.name) = some m →
          e.apply s = .error (.unmappable m.name "clickhouse" target.name m.pos)) ∧
      (target.name = "clickhouse" →
        ∀ function source towards pos, e.apply s ≠ .error (.unmappable function source towards pos)) := by
  refine ⟨_, rfl, fun s => ⟨fun other => ?_, fun same => ?_⟩⟩
  · have refused (name : String) :
        (Watch.leaving target.name).refused name = ClickHouse.ownFunctions.contains name := by
      simp [Watch.leaving, other]
    obtain ⟨m, found, failed⟩ | ⟨clean, mapped⟩ := apply_cases member s
    · simp only [refused] at found
      have own : m.name ∈ ClickHouse.ownFunctions := by simpa using List.find?_some found
      refine ⟨⟨fun _ => ?_, fun _ => ⟨_, _, _, _, failed⟩⟩, fun first same => ?_⟩
      · obtain ⟨c, node, rfl⟩ := mem_calls_iff.mp (List.mem_of_find?_eq_some found)
        exact ⟨c, node, own⟩
      · rw [found] at same
        cases same
        exact failed
    · have none : ∀ m ∈ s.calls, m.name ∉ ClickHouse.ownFunctions := fun m called own => by
        have stays := clean m called
        rw [refused] at stays
        simp [own] at stays
      refine ⟨⟨?_, ?_⟩, ?_⟩
      · rintro ⟨_, _, _, _, failed⟩
        exact absurd rfl (mapped _ failed _ _ _ _)
      · rintro ⟨c, node, own⟩
        exact absurd own (none _ (mem_calls_iff.mpr ⟨c, node, rfl⟩))
      · intro m found
        have own := List.find?_some found
        exact absurd (by simpa using own) (none m (List.mem_of_find?_eq_some found))
  · obtain ⟨m, found, _⟩ | ⟨_, mapped⟩ := apply_cases member s
    · have refused := List.find?_some found
      simp [Watch.leaving, same] at refused
    · exact fun _ _ _ _ failed => absurd rfl (mapped _ failed _ _ _ _)

end

/-- Of two such calls, one inside the other, the inner one is named. -/
theorem inner_call_named : ∃ e,
    Engine.build (Entry.ofProfile ClickHouse.profile) (Entry.ofProfile Doris.profile) [] = .ok e ∧
      e.apply (.expression ⟨0, 1, 1⟩ (.call { pos := ⟨0, 1, 1⟩, name := "RUNNINGDIFFERENCE", args := [
        .call { pos := ⟨18, 1, 19⟩, name := "DICTGET", args := [.col "a"] }] })) =
        .error (.unmappable "DICTGET" "clickhouse" "doris" ⟨18, 1, 19⟩) := by
  obtain ⟨e, built, outcome⟩ := own_functions_stay
    (show Entry.ofProfile Doris.profile ∈ Registry.standard.entries by simp [Registry.standard])
  have named : (Entry.ofProfile Doris.profile).name = "doris" := rfl
  have own : "DICTGET" ∈ ClickHouse.ownFunctions :=
    List.mem_map.mpr ⟨"dictGet", by simp [ClickHouse.unmappable],
      String.toList_inj.mp ((Text.toList_upper _).trans (by decide +kernel))⟩
  refine ⟨e, built, ?_⟩
  obtain ⟨_, first⟩ := (outcome _).1 (by simp [named])
  rw [← named]
  refine first ⟨"DICTGET", ⟨18, 1, 19⟩⟩ ?_
  simp [Statement.calls, Expr.calls, Call.inner, exprCalls, Expr.col, orderCalls, optionCalls, Call.mention, own]

end SqlDialects
