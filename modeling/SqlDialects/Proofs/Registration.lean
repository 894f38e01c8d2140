import Mathlib.Data.List.Nodup
import SqlDialects.Proofs.RuleOrder

/-! Rules are registered in any order. Whether a list of rules is accepted depends on the rules in it and not on
their places, and the names of an accepted list are distinct, so the order of application has no ties: the set
that is made from the list is the same for each of its orders. -/

namespace SqlDialects

namespace Rule

/-- A rule that is complete by itself. -/
structure Complete (r : Rule) : Prop where
  named : r.name ≠ ""
  kind : r.pattern.kind ≠ ""
  transform : r.transform.isSome

/-- The first rule is applied before the second one: it has the higher priority, or the same one and the more
specific pattern, or both are the same and its name comes first. -/
def Precedes (a b : Rule) : Prop :=
  b.priority < a.priority ∨ a.priority = b.priority ∧ (b.pattern.specificity < a.pattern.specificity ∨
    a.pattern.specificity = b.pattern.specificity ∧ a.name < b.name)

theorem fault_none_iff {seen : List String} {r : Rule} :
    r.fault? seen = none ↔ r.Complete ∧ r.name ∉ seen := by
  unfold fault?
  constructor
  · intro clear
    split at clear
    · cases clear
    split at clear
    · cases clear
    split at clear
    · cases clear
    split at clear
    · cases clear
    next named kind transform fresh =>
      exact ⟨⟨named, kind, by simpa [Option.isSome_iff_ne_none] using transform⟩, by simpa using fresh⟩
  · rintro ⟨⟨named, kind, transform⟩, fresh⟩
    simp [named, kind, Option.isSome_iff_ne_none.mp transform, fresh]

theorem conflicts_comm (a b : Rule) : a.conflicts b = b.conflicts a := by
  unfold conflicts Pattern.overlaps
  simp only [Bool.beq_comm (a := a.phase), Bool.beq_comm (a := a.priority), Bool.beq_comm (a := a.pattern.specificity)]
  grind

theorem name_eq_of_before {a b : Rule} (first : before a b = true) (second : before b a = true) : a.name = b.name := by
  rw [before_iff] at first second
  unfold Outranks at first second
  obtain higher | ⟨_, _, name⟩ := first
  · omega
  obtain higher | ⟨_, _, name'⟩ := second
  · omega
  · exact String.le_antisymm name name'

theorem precedes_of_before {a b : Rule} (goes : before a b = true) (different : a.name ≠ b.name) : a.Precedes b := by
  obtain (higher | ⟨priority, specific⟩) | ⟨priority, specificity, name⟩ := before_iff.mp goes
  · exact .inl higher
  · exact .inr ⟨priority, .inl specific⟩
  · have earlier : a.name < b.name := by
      by_contra late
      exact different (String.le_antisymm name (String.not_lt.mp late))
    exact .inr ⟨priority, .inr ⟨specificity, earlier⟩⟩

end Rule

namespace RuleSet

variable {rules other : List Rule} {set : RuleSet}

/-! ### What is accepted -/

theorem firstFault_none_iff {seen : List String} : firstFault seen rules = none ↔
    (∀ r ∈ rules, r.Complete ∧ r.name ∉ seen) ∧ (rules.map Rule.name).Nodup := by
  induction rules generalizing seen with
  | nil => simp [firstFault]
  | cons r rs ih =>
    rw [firstFault, Option.orElse_eq_or, Option.or_eq_none_iff, Rule.fault_none_iff, ih, List.forall_mem_cons,
      List.map_cons, List.nodup_cons]
    simp only [List.mem_cons, not_or, List.mem_map, not_exists, not_and]
    constructor
    · rintro ⟨first, rest, distinct⟩
      exact ⟨⟨first, fun s member => ⟨(rest s member).1, (rest s member).2.2⟩⟩,
        fun s member => (rest s member).2.1, distinct⟩
    · rintro ⟨⟨first, rest⟩, fresh, distinct⟩
      exact ⟨first, fun s member => ⟨(rest s member).1, fresh s member, (rest s member).2⟩, distinct⟩

theorem firstConflict_none_iff : firstConflict rules = none ↔ rules.Pairwise fun a b => a.conflicts b = false := by
  refine ⟨pairwise_of_firstConflict, fun apart => ?_⟩
  induction apart with
  | nil => rfl
  | cons first _ ih =>
    rw [firstConflict, List.find?_eq_none.mpr fun b member => by simp [first b member]]
    exact ih

/-- What makes a list of rules acceptable. -/
structure Sound (rules : List Rule) : Prop where
  complete : ∀ r ∈ rules, r.Complete
  distinct : (rules.map Rule.name).Nodup
  apart : rules.Pairwise fun a b => a.conflicts b = false

theorem sound_iff : Sound rules ↔ fault? rules = none := by
  rw [fault?, Option.orElse_eq_or, Option.or_eq_none_iff, firstFault_none_iff, firstConflict_none_iff]
  simp only [List.not_mem_nil, not_false_eq_true, and_true]
  exact ⟨fun sound => ⟨⟨sound.complete, sound.distinct⟩, sound.apart⟩,
    fun ⟨⟨complete, distinct⟩, apart⟩ => ⟨complete, distinct, apart⟩⟩

theorem ofList_ok_iff : ofList rules = .ok set ↔ Sound rules ∧ set = arrange rules := by
  rw [sound_iff, ofList]
  cases fault? rules with
  | some fault => simp
  | none => simp [eq_comm]

/-- A list is accepted in each of its orders. -/
theorem Sound.perm (sound : Sound rules) (same : rules.Perm other) : Sound other where
  complete r member := sound.complete r (same.mem_iff.mpr member)
  distinct := (same.map Rule.name).nodup_iff.mp sound.distinct
  apart := (same.pairwise_iff fun free => by rwa [Rule.conflicts_comm] at free).mp sound.apart

/-! ### The set that is made from a list -/

/-- Rules with distinct names have one order. -/
theorem arrange_congr (sound : Sound rules) (same : rules.Perm other) : arrange rules = arrange other := by
  have perm : (arrange rules).rules.Perm (arrange other).rules :=
    (arrange_perm rules).trans (same.trans (arrange_perm other).symm)
  have equal : (arrange rules).rules = (arrange other).rules := by
    refine List.Perm.eq_of_pairwise ?_ (arrange_pairwise rules) (arrange_pairwise other) perm
    intro a b first second goes back
    have inside := (arrange_perm rules).mem_iff.mp first
    have alsoInside := same.mem_iff.mpr ((arrange_perm other).mem_iff.mp second)
    exact List.inj_on_of_nodup_map sound.distinct inside alsoInside (Rule.name_eq_of_before goes back)
  exact congrArg RuleSet.mk equal

theorem arrange_precedes (sound : Sound rules) : (arrange rules).rules.Pairwise Rule.Precedes := by
  have distinct : ((arrange rules).rules.map Rule.name).Nodup :=
    ((arrange_perm rules).map Rule.name).nodup_iff.mpr sound.distinct
  exact ((arrange_pairwise rules).and (List.pairwise_map.mp distinct)).imp fun ⟨goes, different⟩ =>
    Rule.precedes_of_before goes different

/-- A list of rules is accepted exactly if any other order of it is, and then the names and the rules of each phase
are the same sequences for both: those of the rules in descending priority, then in descending specificity, then by
name. -/
theorem registration_order_irrelevant (same : rules.Perm other) :
    ((∃ set, ofList rules = .ok set) ↔ ∃ set, ofList other = .ok set) ∧
    ∀ set set', ofList rules = .ok set → ofList other = .ok set' →
      set.names = set'.names ∧ (∀ phase, set.inPhase phase = set'.inPhase phase) ∧
      set.rules.Perm rules ∧ set.rules.Pairwise Rule.Precedes ∧
      ∀ phase, (set.inPhase phase).Pairwise Rule.Precedes := by
  refine ⟨?_, ?_⟩
  · simp only [ofList_ok_iff, exists_and_left, exists_eq, and_true]
    exact ⟨fun sound => sound.perm same, fun sound => sound.perm same.symm⟩
  · intro set set' accepted accepted'
    obtain ⟨sound, rfl⟩ := ofList_ok_iff.mp accepted
    obtain ⟨_, rfl⟩ := ofList_ok_iff.mp accepted'
    have equal := arrange_congr sound same
    have ordered := arrange_precedes sound
    exact ⟨by rw [equal], fun phase => by rw [equal], arrange_perm rules, ordered, fun phase => ordered.filter _⟩

/-- A rename and a more urgent one of the same calls, registered in either order. -/
theorem renames_in_either_order : ∃ (plain urgent : Rule) (set set' : RuleSet),
    plain = Rule.rename "doris" "DAYOFWEEK" "DOW" ∧ urgent = { plain with name := "urgent", priority := 100 } ∧
    ofList [urgent, plain] = .ok set ∧ ofList [plain, urgent] = .ok set' ∧
    set.names = ["urgent", "doris:rename:dayofweek"] ∧ set.names = set'.names := by
  let plain := Rule.rename "doris" "DAYOFWEEK" "DOW"
  let urgent := { plain with name := "urgent", priority := 100 }
  have accepted : ofList [urgent, plain] = .ok _ := ofList_eq_ok (by decide +kernel)
  obtain ⟨acceptable, agree⟩ := registration_order_irrelevant (List.Perm.swap plain urgent [])
  obtain ⟨set', accepted'⟩ := acceptable.mp ⟨_, accepted⟩
  have sorted : [urgent, plain].Pairwise fun a b => Rule.before a b = true := by decide
  refine ⟨plain, urgent, _, set', rfl, rfl, accepted, accepted', ?_, (agree _ _ accepted accepted').1⟩
  rw [arrange, List.mergeSort_of_pairwise sorted]
  decide +kernel

end RuleSet

end SqlDialects
