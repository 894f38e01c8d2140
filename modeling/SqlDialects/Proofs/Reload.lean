import SqlDialects.Proofs.Engines

/-! Other rules for a transpiler in use. Rules are checked for every dialect by itself, which suffices for every pair
of dialects, since whether an engine can be built depends on the target alone. Until the next reload every order is
then served with the engines of these rules. -/

namespace SqlDialects

namespace Transpiler

variable {rules : List Rule}

/-! ### Rules that are accepted -/

private theorem under_source {source target : Entry} {e : Engine} (built : Engine.under rules source target = .ok e)
    (other : Entry) : ∃ e, Engine.under rules other target = .ok e := by
  unfold Engine.under Engine.build at *
  cases given : Engine.outboundWith target (Rule.forTarget rules target.name) with
  | error fault =>
    rw [given] at built
    cases built
  | ok outbound => exact ⟨_, rfl⟩

/-- Rules are accepted exactly if they give an engine for every pair of registered dialects. -/
theorem rulesFault_none_iff : rulesFault? .standard rules = none ↔ ∀ source ∈ Registry.standard.entries,
    ∀ target ∈ Registry.standard.entries, ∃ e, Engine.under rules source target = .ok e := by
  constructor
  · intro clear source _ target member
    have checked := List.findSome?_eq_none_iff.mp clear target (List.mem_mergeSort.mpr member)
    cases built : Engine.under rules target target with
    | error fault =>
      rw [Engine.under] at built
      rw [built] at checked
      cases checked
    | ok e => exact under_source built source
  · intro built
    refine List.findSome?_eq_none_iff.mpr fun entry listed => ?_
    have member := List.mem_mergeSort.mp listed
    obtain ⟨e, found⟩ := built entry member entry member
    rw [Engine.under] at found
    rw [found]

private theorem engines_of_accepted (clear : rulesFault? .standard rules = none) :
    ∃ engines : Entry → Entry → Engine, ∀ source ∈ Registry.standard.entries,
      ∀ target ∈ Registry.standard.entries, Engine.under rules source target = .ok (engines source target) := by
  classical
  have built := rulesFault_none_iff.mp clear
  have each : ∀ source target, ∃ e, source ∈ Registry.standard.entries → target ∈ Registry.standard.entries →
      Engine.under rules source target = .ok e := by
    intro source target
    by_cases known : source ∈ Registry.standard.entries ∧ target ∈ Registry.standard.entries
    · obtain ⟨e, found⟩ := built source known.1 target known.2
      exact ⟨e, fun _ _ => found⟩
    · exact ⟨⟨source.dialect, target.dialect, [], []⟩, fun left right => absurd ⟨left, right⟩ known⟩
  choose engines found using each
  exact ⟨engines, fun source left target right => found source target left right⟩

/-! ### One call after another -/

/-- A call for other rules. If they are refused everything stays. -/
def reload (rules : List Rule) : Work Unit := do
  match (← get).setRules rules with
  | .ok next => set next
  | .error error => throw { error }

theorem reload_apply (rules : List Rule) (t : Transpiler) : reload rules t = match t.setRules rules with
    | .ok next => (.ok (), next)
    | .error error => (.error { error }, t) := by
  have known : (get : Work Transpiler) t = (.ok t, t) := rfl
  rw [reload, work_bind, known]
  dsimp only
  cases t.setRules rules <;> rfl

theorem Current.reload {t : Transpiler} (current : t.Current) (rules : List Rule) : (reload rules t).2.Current := by
  rw [reload_apply, setRules]
  cases rulesFault? t.registry rules with
  | some fault => exact current
  | none => exact current_swap current.registry rules

/-- The transpiler after a list of orders. -/
def afterOrders (t : Transpiler) (orders : List Order) : Transpiler :=
  orders.foldl (fun t o => (Service.orderWork o t).2) t

theorem Current.afterOrders {t : Transpiler} (current : t.Current) (orders : List Order) :
    (t.afterOrders orders).Current ∧ (t.afterOrders orders).rules = t.rules := by
  induction orders generalizing t with
  | nil => exact ⟨current, rfl⟩
  | cons o rest ih =>
    obtain ⟨next, came, held, same⟩ := Work.Yields.order o t current rfl
    have step : (Service.orderWork o t).2 = next := by rw [came]
    rw [Transpiler.afterOrders, List.foldl_cons, step, ← same]
    exact ih held

private theorem outcomeWith_congr {engines others : Entry → Entry → Except RuleFault Engine}
    (same : ∀ source ∈ Registry.standard.entries, ∀ target ∈ Registry.standard.entries,
      engines source target = others source target) (o : Order) : outcomeWith engines o = outcomeWith others o := by
  have one {source target : Entry} (left : source ∈ Registry.standard.entries)
      (right : target ∈ Registry.standard.entries) (s : Statement) :
      convertWith engines source target s = convertWith others source target s := by
    simp only [convertWith, same source left target right]
  have all {source target : Entry} (left : source ∈ Registry.standard.entries)
      (right : target ∈ Registry.standard.entries) (statements : List Statement) (index : Nat) :
      convertAllWith engines source target index statements = convertAllWith others source target index statements := by
    induction statements generalizing index with
    | nil => rfl
    | cons s rest ih => simp only [convertAllWith, one left right, ih]
  unfold outcomeWith transpileAllWith transpileWith
  cases found : pairOf o.source o.target with
  | error failure => rfl
  | ok pair =>
    obtain ⟨left, right⟩ := pairOf_registered found
    simp only [bind, Except.bind, one left right, all left right]

/-- An order that fails for another reason than the rules: no dialect has the name, the text is none of the source's,
or there is a note of the statement that could not be adapted or printed. -/
def Unfit (o : Order) (failure : Failure) : Prop :=
  (∃ name, Registry.standard.lookup name = .error failure.error) ∨
    (∃ entry ∈ Registry.standard.entries, Statement.parse entry.dialect o.sql = .error failure.error ∨
      Statement.parseAll entry.dialect o.sql = .error failure.error) ∨
    failure.notice.isSome

section

variable {α β ε δ : Type}

private theorem bind_eq_error {x : Except ε α} {f : α → Except ε β} {fault : ε} (failed : x >>= f = .error fault) :
    x = .error fault ∨ ∃ a, x = .ok a ∧ f a = .error fault := by
  cases x with
  | error other => exact .inl (congrArg Except.error (Except.error.inj failed))
  | ok a => exact .inr ⟨a, rfl, failed⟩

private theorem mapError_eq_error {x : Except ε α} {f : ε → δ} {fault : δ} (failed : x.mapError f = .error fault) :
    ∃ first, x = .error first ∧ f first = fault := by
  cases x with
  | error first => exact ⟨first, rfl, Except.error.inj failed⟩
  | ok a => cases failed

end

section

variable {engines : Entry → Entry → Engine} {source target : Entry} {failure : Failure}

private theorem convertWith_noted {s : Statement}
    (failed : convertWith (fun source target => .ok (engines source target)) source target s = .error failure) :
    failure.notice.isSome := by
  obtain unbuilt | ⟨e, -, failed⟩ := bind_eq_error failed
  · cases unbuilt
  obtain unfit | ⟨adapted, -, failed⟩ := bind_eq_error failed
  · obtain ⟨error, -, rfl⟩ := mapError_eq_error unfit
    rfl
  · obtain ⟨error, -, rfl⟩ := mapError_eq_error failed
    rfl

private theorem convertAllWith_noted {statements : List Statement} {index : Nat}
    (failed : convertAllWith (fun source target => .ok (engines source target)) source target index statements =
      .error failure) : failure.notice.isSome := by
  induction statements generalizing index with
  | nil => cases failed
  | cons s rest ih =>
    obtain unfit | ⟨text, -, failed⟩ := bind_eq_error failed
    · obtain ⟨first, cause, rfl⟩ := mapError_eq_error unfit
      have noted := convertWith_noted cause
      exact noted
    · obtain unfit | ⟨texts, -, done⟩ := bind_eq_error failed
      · exact ih unfit
      · cases done

private theorem pairOf_unknown {source target : String} (failed : pairOf source target = .error failure) :
    ∃ name, Registry.standard.lookup name = .error failure.error := by
  obtain unknown | ⟨first, -, failed⟩ := bind_eq_error failed
  · obtain ⟨error, cause, rfl⟩ := mapError_eq_error unknown
    exact ⟨source, cause⟩
  · obtain unknown | ⟨second, -, done⟩ := bind_eq_error failed
    · obtain ⟨error, cause, rfl⟩ := mapError_eq_error unknown
      exact ⟨target, cause⟩
    · cases done

private theorem outcomeWith_unfit {o : Order}
    (failed : outcomeWith (fun source target => .ok (engines source target)) o = .error failure) : Unfit o failure := by
  unfold outcomeWith at failed
  split at failed
  · obtain unknown | ⟨⟨first, second⟩, found, failed⟩ := bind_eq_error failed
    · exact .inl (pairOf_unknown unknown)
    obtain unread | ⟨statements, -, failed⟩ := bind_eq_error failed
    · obtain ⟨error, cause, rfl⟩ := mapError_eq_error unread
      exact .inr (.inl ⟨first, (pairOf_registered found).1, .inr cause⟩)
    · exact .inr (.inr (convertAllWith_noted failed))
  · obtain failed | ⟨text, -, done⟩ := bind_eq_error failed
    · obtain unknown | ⟨⟨first, second⟩, found, failed⟩ := bind_eq_error failed
      · exact .inl (pairOf_unknown unknown)
      obtain unread | ⟨s, -, failed⟩ := bind_eq_error failed
      · obtain ⟨error, cause, rfl⟩ := mapError_eq_error unread
        exact .inr (.inl ⟨first, (pairOf_registered found).1, .inl cause⟩)
      · exact .inr (.inr (convertWith_noted failed))
    · cases done

end

/-- A reload changes nothing or succeeds as a whole. It succeeds only if there is an engine for every pair of
registered dialects, and then all later orders are served with these engines, so that an order that fails is itself
unfit. -/
theorem reload_all_or_nothing (t : Transpiler) (known : t.registry = .standard) (rules : List Rule) :
    (∃ fault, reload rules t = (.error { error := .rules fault }, t)) ∨
      ∃ engines : Entry → Entry → Engine, reload rules t = (.ok (), t.swap rules) ∧
        (∀ source ∈ Registry.standard.entries, ∀ target ∈ Registry.standard.entries,
          Engine.build source target (Rule.forTarget rules target.name) = .ok (engines source target)) ∧
        ∀ (earlier : List Order) (o : Order), (Service.orderWork o ((t.swap rules).afterOrders earlier)).1 =
          outcomeWith (fun source target => .ok (engines source target)) o ∧
          ∀ failure, (Service.orderWork o ((t.swap rules).afterOrders earlier)).1 = .error failure →
            Unfit o failure := by
  rw [reload_apply, setRules, known]
  cases checked : rulesFault? .standard rules with
  | some fault => exact .inl ⟨fault, rfl⟩
  | none =>
    obtain ⟨engines, built⟩ := engines_of_accepted checked
    refine .inr ⟨engines, rfl, built, fun earlier o => ?_⟩
    obtain ⟨current, same⟩ := (current_swap known rules).afterOrders earlier
    obtain ⟨next, came, _⟩ := Work.Yields.order o _ current same
    have served := outcomeWith_congr built o
    rw [came]
    exact ⟨served, fun failure failed => outcomeWith_unfit (served.symm.trans failed)⟩

/-- One rename for a dialect that has no outbound rules of its own. -/
def oneRename : List Rule := [Rule.rename "clickhouse" "F" "G"]

theorem oneRename_accepted : rulesFault? .standard oneRename = none := by
  have fits : ∀ entry ∈ Registry.standard.entries, (Engine.under oneRename entry entry).isOk = true := by
    decide +kernel
  refine rulesFault_none_iff.mpr fun source _ target member => ?_
  cases built : Engine.under oneRename target target with
  | error fault =>
    have fit := fits target member
    rw [built] at fit
    cases fit
  | ok e => exact under_source built source

theorem oneRename_reload : ∃ engines : Entry → Entry → Engine,
    reload oneRename {} = (.ok (), ({} : Transpiler).swap oneRename) ∧
      (∀ source ∈ Registry.standard.entries, ∀ target ∈ Registry.standard.entries,
        Engine.build source target (Rule.forTarget oneRename target.name) = .ok (engines source target)) ∧
      ∀ (earlier : List Order) (o : Order),
        (Service.orderWork o ((({} : Transpiler).swap oneRename).afterOrders earlier)).1 =
          outcomeWith (fun source target => .ok (engines source target)) o ∧
        ∀ failure, (Service.orderWork o ((({} : Transpiler).swap oneRename).afterOrders earlier)).1 = .error failure →
          Unfit o failure := by
  obtain ⟨fault, refused⟩ | accepted := reload_all_or_nothing {} rfl oneRename
  · rw [reload_apply, setRules, oneRename_accepted] at refused
    cases refused
  · exact accepted

end Transpiler

end SqlDialects
