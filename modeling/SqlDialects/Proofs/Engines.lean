import Mathlib.Data.List.Nodup
import SqlDialects.Service

/-! Engines that are kept. As long as every kept engine is one that the rules in force give, keeping engines makes
no difference: what a conversion comes to is a function of the rules and the text, and the engines that it leaves
are again those of the rules. -/

namespace SqlDialects

/-! ### Names of dialects -/

private theorem names_distinct : (Registry.standard.entries.map Entry.name).Nodup := by
  decide +kernel

private theorem entry_eq {entry other : Entry} (member : entry ∈ Registry.standard.entries)
    (member' : other ∈ Registry.standard.entries) (same : entry.name = other.name) : entry = other :=
  List.inj_on_of_nodup_map names_distinct member member' same

theorem lookup_name {entry : Entry} (member : entry ∈ Registry.standard.entries) :
    Registry.standard.lookup entry.name = .ok entry := by
  have found : (Registry.standard.find? entry.name).map Entry.name = some entry.name := by
    obtain ⟨profile, known, rfl⟩ := List.mem_map.mp member
    clear member
    revert profile
    decide +kernel
  obtain ⟨other, search, same⟩ := Option.map_eq_some_iff.mp found
  have inside : other ∈ Registry.standard.entries := List.mem_of_find?_eq_some search
  rw [Registry.lookup, search, entry_eq inside member same]

theorem lookup_ok_iff {registry : Registry} {name : String} {entry : Entry} :
    registry.lookup name = .ok entry ↔ registry.find? name = some entry := by
  unfold Registry.lookup
  cases registry.find? name with
  | none => exact ⟨nofun, nofun⟩
  | some other => simp

private theorem pairKey_inj {source target other last : Entry} (left : source ∈ Registry.standard.entries)
    (right : target ∈ Registry.standard.entries) (left' : other ∈ Registry.standard.entries)
    (right' : last ∈ Registry.standard.entries)
    (same : Transpiler.pairKey source.name target.name = Transpiler.pairKey other.name last.name) :
    source = other ∧ target = last := by
  have letters : ∀ entry ∈ Registry.standard.entries, '>' ∉ entry.name.toList := by
    decide +kernel
  have texts : source.name.toList ++ '>' :: target.name.toList = other.name.toList ++ '>' :: last.name.toList := by
    simpa [Transpiler.pairKey] using congrArg String.toList same
  obtain ⟨first, _, second⟩ := (List.append_cons_inj_of_notMem (letters _ left) (letters _ right)).mp texts
  exact ⟨entry_eq left left' (String.toList_inj.mp first), entry_eq right right' (String.toList_inj.mp second)⟩

/-! ### Engines of the rules in force -/

/-- What is found once the entries of a key are gone. -/
theorem lookup_filter {β : Type} (key : String) (table : List (String × β)) (name : String) :
    (table.filter (·.1 != key)).lookup name = if name = key then none else table.lookup name := by
  induction table with
  | nil => simp
  | cons entry rest ih =>
    obtain ⟨first, value⟩ := entry
    by_cases dropped : first = key
    · subst dropped
      rw [List.filter_cons_of_neg (by simp), ih, List.lookup_cons]
      by_cases hit : name = first
      · rw [if_pos hit, if_pos hit]
      · rw [if_neg hit, if_neg hit, beq_false_of_ne hit]
    · rw [List.filter_cons_of_pos (by simpa using dropped), List.lookup_cons, List.lookup_cons, ih]
      by_cases hit : name = first
      · simp only [hit, if_neg dropped]
      · rw [beq_false_of_ne hit]

/-- The engine that rules give a pair of dialects. -/
def Engine.under (rules : List Rule) (source target : Entry) : Except RuleFault Engine :=
  Engine.build source target (Rule.forTarget rules target.name)

namespace Transpiler

/-- Every engine that is kept for registered dialects is the one that the rules in force give. -/
structure Current (t : Transpiler) : Prop where
  registry : t.registry = .standard
  engines : ∀ source ∈ Registry.standard.entries, ∀ target ∈ Registry.standard.entries, ∀ e,
    t.engines.lookup (pairKey source.name target.name) = some e → Engine.under t.rules source target = .ok e

theorem current_fresh (rules : List Rule) : ({ rules } : Transpiler).Current :=
  ⟨rfl, fun _ _ _ _ _ found => by cases found⟩

/-- Other rules leave no engine that could be out of date. -/
theorem current_swap {t : Transpiler} (registry : t.registry = .standard) (rules : List Rule) :
    (t.swap rules).Current :=
  ⟨registry, fun _ _ _ _ _ found => by cases found⟩

theorem lookup_store_self (t : Transpiler) (key : String) (e : Engine) :
    (t.store key e).engines.lookup key = some e := by
  rw [store, List.lookup_cons_self]

private theorem lookup_store {t : Transpiler} {key other : String} (apart : other ≠ key) (e : Engine) :
    (t.store key e).engines.lookup other = t.engines.lookup other := by
  rw [store, List.lookup_cons, beq_false_of_ne apart, lookup_filter, if_neg apart]

variable {t : Transpiler} {source target : Entry} {e : Engine}

/-- A further engine may be kept exactly if it is the one that the rules in force give. -/
theorem Current.store_iff (current : t.Current) (left : source ∈ Registry.standard.entries)
    (right : target ∈ Registry.standard.entries) :
    (t.store (pairKey source.name target.name) e).Current ↔ Engine.under t.rules source target = .ok e := by
  constructor
  · intro kept
    exact kept.engines source left target right e (lookup_store_self t _ e)
  · refine fun built => ⟨current.registry, fun other left' last right' kept found => ?_⟩
    by_cases same : pairKey other.name last.name = pairKey source.name target.name
    · obtain ⟨rfl, rfl⟩ := pairKey_inj left' right' left right same
      rw [lookup_store_self] at found
      exact Option.some.inj found ▸ built
    · rw [lookup_store same] at found
      exact current.engines other left' last right' kept found

/-! ### Conversions with given engines -/

def noted (event : String) (source target : Entry) (error : Error) : Failure :=
  { error, notice := some ⟨event, source.name, target.name, error⟩ }

section

variable (engines : Entry → Entry → Except RuleFault Engine)

def convertWith (source target : Entry) (s : Statement) : Except Failure String := do
  let e ← (engines source target).mapError ({ error := .rules · })
  let adapted ← (e.apply s).mapError (noted "rewrite failed" source target)
  (print source.dialect target.dialect adapted).mapError (noted "generate failed" source target)

/-- The statements of a script, counted from `index`. -/
def convertAllWith (source target : Entry) (index : Nat) : List Statement → Except Failure (List String)
  | [] => .ok []
  | s :: rest => do
    let text ← (convertWith engines source target s).mapError fun failure =>
      { failure with error := .statement index failure.error }
    return text :: (← convertAllWith source target (index + 1) rest)

def pairOf (source target : String) : Except Failure (Entry × Entry) := do
  let source ← (Registry.standard.lookup source).mapError ({ error := · })
  let target ← (Registry.standard.lookup target).mapError ({ error := · })
  return (source, target)

def transpileWith (sql source target : String) : Except Failure String := do
  let (source, target) ← pairOf source target
  let s ← (Statement.parse source.dialect sql).mapError ({ error := · })
  convertWith engines source target s

def transpileAllWith (sql source target : String) : Except Failure (List String) := do
  let (source, target) ← pairOf source target
  let statements ← (Statement.parseAll source.dialect sql).mapError ({ error := · })
  convertAllWith engines source target 1 statements

def outcomeWith (o : Order) : Except Failure (List String) :=
  if o.all then transpileAllWith engines o.sql o.source o.target
  else do return [← transpileWith engines o.sql o.source o.target]

end

theorem pairOf_ok_iff {source target : String} {first second : Entry} : pairOf source target = .ok (first, second) ↔
    Registry.standard.find? source = some first ∧ Registry.standard.find? target = some second := by
  rw [← lookup_ok_iff, ← lookup_ok_iff, pairOf]
  cases Registry.standard.lookup source with
  | error fault => exact ⟨nofun, nofun⟩
  | ok one =>
    cases Registry.standard.lookup target with
    | error fault => exact ⟨nofun, nofun⟩
    | ok other =>
      constructor
      · intro found
        cases found
        exact ⟨rfl, rfl⟩
      · rintro ⟨left, right⟩
        cases left
        cases right
        rfl

theorem pairOf_registered {source target : String} {first second : Entry}
    (found : pairOf source target = .ok (first, second)) :
    first ∈ Registry.standard.entries ∧ second ∈ Registry.standard.entries := by
  obtain ⟨left, right⟩ := pairOf_ok_iff.mp found
  exact ⟨List.mem_of_find?_eq_some left, List.mem_of_find?_eq_some right⟩

/-! ### Work with current engines -/

theorem work_bind {α β : Type} (w : Work α) (f : α → Work β) (t : Transpiler) : (w >>= f) t =
    match w t with
    | (.ok a, next) => f a next
    | (.error failure, next) => (.error failure, next) := by
  change ExceptT.bind w f t = _
  simp only [ExceptT.bind, ExceptT.mk]
  change StateT.bind w _ t = _
  simp only [StateT.bind]
  obtain ⟨outcome, next⟩ := w t
  cases outcome <;> rfl

theorem engine_apply (source target : Entry) (t : Transpiler) : engine source target t =
    match t.engines.lookup (pairKey source.name target.name) with
    | some e => (.ok e, t)
    | none =>
      match Engine.under t.rules source target with
      | .ok e => (.ok e, t.store (pairKey source.name target.name) e)
      | .error fault => (.error { error := .rules fault }, t) := by
  have known : (get : Work Transpiler) t = (.ok t, t) := rfl
  simp only [engine, work_bind, known, view, Engine.under]
  cases t.engines.lookup (pairKey source.name target.name) with
  | some e => rfl
  | none => cases Engine.build source target (Rule.forTarget t.rules target.name) <;> rfl

/-- With these rules in force and current engines the work has this outcome, and leaves the rules in force and
the engines current. -/
def Work.Yields {α : Type} (rules : List Rule) (w : Work α) (outcome : Except Failure α) : Prop :=
  ∀ t : Transpiler, t.Current → t.rules = rules → ∃ next, w t = (outcome, next) ∧ next.Current ∧ next.rules = rules

namespace Work.Yields

variable {α β : Type} {rules : List Rule} {w : Work α} {outcome : Except Failure α}

theorem returned (a : α) : Yields rules (pure a : Work α) (.ok a) := fun t current same => ⟨t, rfl, current, same⟩

theorem plain (outcome : Except Error α) : Yields rules (Transpiler.plain outcome)
    (outcome.mapError ({ error := · })) := by
  intro t current same
  refine ⟨t, ?_, current, same⟩
  cases outcome <;> rfl

theorem failed (failure : Failure) : Yields rules (throw failure : Work α) (.error failure) :=
  fun t current same => ⟨t, rfl, current, same⟩

theorem bind (first : Yields rules w outcome) {f : α → Work β} {g : α → Except Failure β}
    (rest : ∀ a, outcome = .ok a → Yields rules (f a) (g a)) : Yields rules (w >>= f) (outcome >>= g) := by
  intro t current same
  obtain ⟨next, came, current', same'⟩ := first t current same
  cases outcome with
  | error failure =>
    refine ⟨next, ?_, current', same'⟩
    rw [work_bind, came]
    rfl
  | ok a =>
    obtain ⟨last, went, held⟩ := rest a rfl next current' same'
    refine ⟨last, ?_, held⟩
    rw [work_bind, came]
    exact went

theorem relabel (first : Yields rules w outcome) (words : Failure → Failure) :
    Yields rules (tryCatch w fun failure => throw (words failure)) (outcome.mapError words) := by
  intro t current same
  obtain ⟨next, came, held⟩ := first t current same
  refine ⟨next, ?_, held⟩
  change ExceptT.tryCatch w _ t = _
  simp only [ExceptT.tryCatch, ExceptT.mk]
  change StateT.bind w _ t = _
  simp only [StateT.bind]
  rw [came]
  cases outcome <;> rfl

/-- An engine is at hand or built, and kept from then on. -/
theorem engine (left : source ∈ Registry.standard.entries) (right : target ∈ Registry.standard.entries) :
    Yields rules (Transpiler.engine source target)
      ((Engine.under rules source target).mapError ({ error := .rules · })) := by
  rintro t current rfl
  rw [engine_apply]
  cases kept : t.engines.lookup (pairKey source.name target.name) with
  | some e =>
    rw [current.engines source left target right e kept]
    exact ⟨t, rfl, current, rfl⟩
  | none =>
    cases built : Engine.under t.rules source target with
    | error fault => exact ⟨t, rfl, current, rfl⟩
    | ok e => exact ⟨_, rfl, (current.store_iff left right).mpr built, rfl⟩

theorem pair (source target : String) : Yields rules (Transpiler.pair source target) (pairOf source target) := by
  intro t current same
  have looked : Yields rules _ _ := (plain (Registry.standard.lookup source)).bind fun first _ =>
    (plain (Registry.standard.lookup target)).bind fun second _ => returned (first, second)
  obtain ⟨next, came, held⟩ := looked t current same
  refine ⟨next, ?_, held⟩
  have known : (get : Work Transpiler) t = (.ok t, t) := rfl
  rw [Transpiler.pair, work_bind, known]
  simp only [current.registry]
  exact came

theorem convert (left : source ∈ Registry.standard.entries)
    (right : target ∈ Registry.standard.entries) (s : Statement) :
    Yields rules (Transpiler.convert source target s) (convertWith (Engine.under rules) source target s) := by
  refine (engine left right).bind fun e _ => ?_
  cases e.apply s with
  | error fault => exact failed _
  | ok adapted =>
    change Yields rules _ ((print source.dialect target.dialect adapted).mapError _)
    dsimp only
    cases print source.dialect target.dialect adapted with
    | error fault => exact failed _
    | ok text => exact returned text

theorem convertAll (left : source ∈ Registry.standard.entries) (right : target ∈ Registry.standard.entries)
    (statements : List Statement) (index : Nat) : Yields rules (Transpiler.convertAll source target index statements)
      (convertAllWith (Engine.under rules) source target index statements) := by
  induction statements generalizing index with
  | nil => exact returned []
  | cons s rest ih =>
    exact ((convert left right s).relabel _).bind fun text _ => (ih (index + 1)).bind fun texts _ =>
      returned (text :: texts)

theorem transpile (sql source target : String) :
    Yields rules (Transpiler.transpile sql source target) (transpileWith (Engine.under rules) sql source target) := by
  refine (pair source target).bind fun (first, second) found => ?_
  obtain ⟨left, right⟩ := pairOf_registered found
  exact (plain _).bind fun s _ => convert left right s

theorem transpileAll (sql source target : String) :
    Yields rules (Transpiler.transpileAll sql source target)
    (transpileAllWith (Engine.under rules) sql source target) := by
  refine (pair source target).bind fun (first, second) found => ?_
  obtain ⟨left, right⟩ := pairOf_registered found
  exact (plain _).bind fun statements _ => convertAll left right statements 1

theorem order (o : Order) : Yields rules (Service.orderWork o) (outcomeWith (Engine.under rules) o) := by
  unfold Service.orderWork outcomeWith
  split
  · exact transpileAll o.sql o.source o.target
  · exact (transpile o.sql o.source o.target).bind fun text _ => returned [text]

end Work.Yields

end Transpiler

end SqlDialects
