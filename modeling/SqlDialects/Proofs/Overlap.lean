import Mathlib.Data.List.Induction
import Mathlib.Logic.Function.Basic
import SqlDialects.Proofs.Reload

/-! Calls that overlap. A client gets an engine in two sections: it looks for a kept engine and, if there is none,
keeps the one that it has built from the rules it has seen. Other clients and reloads may come in between. The kept
engines stay those of the rules in force exactly if nobody keeps an engine that these rules do not give. A client
that has seen the rules before a reload can do just that, and the engine then serves everybody after it. -/

namespace SqlDialects

/-- A dialect that can be named. -/
abbrev Registered := { entry : Entry // entry ∈ Registry.standard.entries }

def Registered.mySql : Registered := ⟨Entry.ofProfile MySql.profile, by simp [Registry.standard]⟩

def Registered.clickHouse : Registered := ⟨Entry.ofProfile ClickHouse.profile, by simp [Registry.standard]⟩

/-- How far a client has come with the engine of a pair. -/
inductive Client
  | idle
  /-- No engine was kept; these rules were in force. -/
  | building (source target : Registered) (seen : List Rule)
  | served (source target : Registered) (e : Engine)
  | refused (failure : Failure)

def Client.isBuilding : Client → Bool
  | .building .. => true
  | _ => false

/-- What is done at once while no other section is. -/
inductive Section (ι : Type)
  | look (client : ι) (source target : Registered)
  | store (client : ι)
  | swap (rules : List Rule)

/-- A transpiler with its clients. -/
structure Shared (ι : Type) where
  transpiler : Transpiler := {}
  client : ι → Client := fun _ => .idle

namespace Shared

open Transpiler Registered

variable {ι : Type} [DecidableEq ι]

/-- A client that is building an engine keeps it before it looks again. -/
def step (s : Shared ι) : Section ι → Shared ι
  | .look i source target =>
    if (s.client i).isBuilding then s
    else match s.transpiler.view (pairKey source.val.name target.val.name) with
      | (some e, _) => { s with client := Function.update s.client i (.served source target e) }
      | (none, rules) => { s with client := Function.update s.client i (.building source target rules) }
  | .store i =>
    match s.client i with
    | .building source target seen =>
      match Engine.under seen source target with
      | .ok e =>
        { transpiler := s.transpiler.store (pairKey source.val.name target.val.name) e
          client := Function.update s.client i (.served source target e) }
      | .error fault => { s with client := Function.update s.client i (.refused { error := .rules fault }) }
    | _ => s
  | .swap rules => { s with transpiler := (reload rules s.transpiler).2 }

def run (s : Shared ι) (sections : List (Section ι)) : Shared ι := sections.foldl step s

theorem run_concat (s : Shared ι) (sections : List (Section ι)) (last : Section ι) :
    s.run (sections ++ [last]) = (s.run sections).step last := by
  rw [run, List.foldl_append]
  rfl

/-! ### Engines that may be kept -/

/-- The rules in force give every engine that the section keeps. -/
def Timely (s : Shared ι) : Section ι → Prop
  | .store i => ∀ source target seen e, s.client i = .building source target seen →
      Engine.under seen source target = .ok e → Engine.under s.transpiler.rules source target = .ok e
  | .look .. | .swap _ => True

theorem step_current_iff {s : Shared ι} (current : s.transpiler.Current) (next : Section ι) :
    (s.step next).transpiler.Current ↔ s.Timely next := by
  cases next with
  | look i source target =>
    have same : (s.step (.look i source target)).transpiler = s.transpiler := by
      simp only [step]
      split
      · rfl
      · split <;> rfl
    rw [same]
    exact iff_of_true current trivial
  | store i =>
    constructor
    · intro held source target seen e building built
      refine (current.store_iff source.property target.property).mp ?_
      simpa only [step, building, built] using held
    · intro timely
      cases state : s.client i with
      | building source target seen =>
        cases built : Engine.under seen source target with
        | error fault => simpa only [step, state, built] using current
        | ok e =>
          simp only [step, state, built]
          exact (current.store_iff source.property target.property).mpr (timely source target seen e state built)
      | _ => simpa only [step, state] using current
  | swap rules => exact iff_of_true (current.reload rules) trivial

private theorem run_current_iff {s : Shared ι} (current : s.transpiler.Current) (sections : List (Section ι)) :
    (∀ earlier, earlier <+: sections → (s.run earlier).transpiler.Current) ↔
      ∀ earlier next, earlier ++ [next] <+: sections → (s.run earlier).Timely next := by
  constructor
  · intro held earlier next front
    have before := held earlier ((List.prefix_append earlier [next]).trans front)
    have after := held _ front
    rw [run_concat] at after
    exact (step_current_iff before next).mp after
  · -- A run is taken apart at its end, where the engines have been current up to the last section.
    intro timely earlier
    induction earlier using List.reverseRecOn with
    | nil => exact fun _ => current
    | append_singleton earlier next ih =>
      intro front
      have before := ih ((List.prefix_append earlier [next]).trans front)
      rw [run_concat]
      exact (step_current_iff before next).mpr (timely earlier next front)

/-- Where the kept engines are current, a call begins with the engine or with the rules in force. -/
private theorem look_current {s : Shared ι} (current : s.transpiler.Current) {i : ι}
    (free : (s.client i).isBuilding = false) (source target : Registered) :
    (∃ e, (s.step (.look i source target)).client i = .served source target e ∧
      Engine.under s.transpiler.rules source target = .ok e) ∨
    (s.step (.look i source target)).client i = .building source target s.transpiler.rules := by
  cases kept : s.transpiler.engines.lookup (pairKey source.val.name target.val.name) with
  | some e =>
    refine .inl ⟨e, ?_, current.engines source source.property target target.property e kept⟩
    simp [step, free, view, kept]
  | none =>
    refine .inr ?_
    simp [step, free, view, kept]

/-- In a run that starts with current engines they stay so exactly if every section is timely. As long as they are,
a call gets the engine of the rules that are in force when it begins, or builds its engine from them. -/
theorem engines_current_iff_timely {s : Shared ι} (current : s.transpiler.Current) (sections : List (Section ι)) :
    ((∀ earlier, earlier <+: sections → (s.run earlier).transpiler.Current) ↔
      ∀ earlier next, earlier ++ [next] <+: sections → (s.run earlier).Timely next) ∧
    ((∀ earlier next, earlier ++ [next] <+: sections → (s.run earlier).Timely next) →
      ∀ earlier, earlier <+: sections → ∀ i source target, ((s.run earlier).client i).isBuilding = false →
        (∃ e, ((s.run earlier).step (.look i source target)).client i = .served source target e ∧
          Engine.under (s.run earlier).transpiler.rules source target = .ok e) ∨
        ((s.run earlier).step (.look i source target)).client i =
          .building source target (s.run earlier).transpiler.rules) := by
  refine ⟨run_current_iff current sections, fun timely earlier front i source target free => ?_⟩
  exact look_current ((run_current_iff current sections).mpr timely earlier front) free source target

/-- An engine that is kept before a reload is gone after it, and the next client builds its own. -/
theorem engine_kept_before_reload :
    (({} : Shared Bool).run [.look false mySql clickHouse, .store false]).transpiler.Current ∧
    (({} : Shared Bool).run [.look false mySql clickHouse, .store false, .swap oneRename]).transpiler.Current := by
  have timely : ∀ earlier next, earlier ++ [next] <+: [.look false mySql clickHouse, .store false, .swap oneRename] →
      (({} : Shared Bool).run earlier).Timely next := by
    rintro earlier next ⟨rest, same⟩
    cases next with
    | look | swap => trivial
    | store i =>
      match earlier, same with
      | [first], same =>
        obtain ⟨rfl, rfl, _⟩ : first = .look false mySql clickHouse ∧ i = false ∧ _ := by simpa using same
        intro source target seen e building built
        have started : Client.building mySql clickHouse [] = .building source target seen := building
        cases started
        exact built
      | [], same | [_, _], same | _ :: _ :: _ :: _, same => simp at same
  have kept := (engines_current_iff_timely (s := {}) (current_fresh []) _).1.mpr timely
  exact ⟨kept _ ⟨_, rfl⟩, kept _ ⟨[], rfl⟩⟩

private theorem clickHouse_outbound : clickHouse.val.rules.inPhase .outbound = [] := by
  refine List.filter_eq_nil_iff.mpr fun r listed => ?_
  have inbound : ∀ r ∈ ClickHouse.profile.inbound ++ ClickHouse.profile.outbound, r.phase = .inbound := by
    decide +kernel
  obtain own | unmappable := List.mem_append.mp (List.mem_mergeSort.mp listed)
  · simp [inbound r own]
  · obtain ⟨_, _, rfl⟩ := List.mem_map.mp unmappable
    simp [Rule.unmappable]

/-- A reload while a client builds an engine: the client keeps the engine of the old rules afterwards, and who comes
later gets it. -/
theorem old_engine_served : ∃ e, Engine.under oneRename mySql clickHouse ≠ .ok e ∧
    (({} : Shared Bool).run [.look false mySql clickHouse, .swap oneRename, .store false]).transpiler.rules =
    oneRename ∧
    ¬(({} : Shared Bool).run [.look false mySql clickHouse, .swap oneRename, .store false]).transpiler.Current ∧
    (({} : Shared Bool).run [.look false mySql clickHouse, .swap oneRename, .store false,
      .look true mySql clickHouse]).client true = .served mySql clickHouse e := by
  obtain ⟨e, built, bare⟩ : ∃ e, Engine.under [] mySql clickHouse = .ok e ∧ e.outbound = [] :=
    ⟨_, rfl, clickHouse_outbound⟩
  have changed : ∃ e, Engine.under oneRename mySql clickHouse = .ok e ∧ e.outbound = oneRename := by
    refine ⟨_, rfl, ?_⟩
    change (RuleSet.arrange oneRename).inPhase .outbound = oneRename
    simp [RuleSet.arrange, RuleSet.inPhase, oneRename, Rule.rename]
  have swapped : (reload oneRename {}).2 = ({} : Transpiler).swap oneRename := by
    rw [reload_apply, setRules, oneRename_accepted]
  have stale : Engine.under oneRename mySql clickHouse ≠ .ok e := by
    intro same
    obtain ⟨other, renamed, outbound⟩ := changed
    obtain rfl : e = other := Except.ok.inj (same.symm.trans renamed)
    cases bare.symm.trans outbound
  have after : (({} : Shared Bool).run [.look false mySql clickHouse, .swap oneRename, .store false]).transpiler =
      (({} : Transpiler).swap oneRename).store (pairKey mySql.val.name clickHouse.val.name) e := by
    simp [run, step, Client.isBuilding, view, swapped, built]
  refine ⟨e, stale, ?_, ?_, ?_⟩
  · rw [after]
    rfl
  · rw [after]
    intro current
    exact stale (current.engines mySql mySql.property clickHouse clickHouse.property e (lookup_store_self _ _ e))
  · simp [run, step, Client.isBuilding, view, swapped, built, store]

end Shared

end SqlDialects
