import Mathlib.Data.List.Pairwise
import SqlDialects.Rule.Set

/-! The first rule that matches a node. Patterns that match one node overlap, whatever each of them pins, so
the rules of a set never meet at a node with the same priority and specificity, and the order of application
puts the highest of those that match first. -/

namespace SqlDialects

variable {n : Node} {ctx : Context}

/-! ### Patterns -/

private theorem pinned_eq {α : Type} {unset value first second : α}
    (left : first = unset ∨ value = first) (right : second = unset ∨ value = second) :
    first = unset ∨ second = unset ∨ first = second := by
  obtain free | equal := left
  · exact .inl free
  obtain free | same := right
  · exact .inr (.inl free)
  · exact .inr (.inr (equal.symm.trans same))

/-- Different arities ask for different numbers of arguments. -/
private theorem arity_eq {p q : Pattern} (first : p.matchesArity n = true) (second : q.matchesArity n = true) :
    p.arity = 0 ∨ q.arity = 0 ∨ p.arity = q.arity := by
  unfold Pattern.matchesArity Pattern.noArgs at first second
  by_cases free : p.arity = 0
  · exact .inl free
  by_cases alsoFree : q.arity = 0
  · exact .inr (.inl alsoFree)
  simp only [beq_eq_false_iff_ne.mpr free, beq_eq_false_iff_ne.mpr alsoFree, Bool.false_or] at first second
  split at first
  · next c =>
    simp only [beq_iff_eq] at first second
    split at first <;> split at second
    · next left right => exact .inr (.inr (left.trans right.symm))
    · simp only [List.isEmpty_iff.mp first, List.length_nil, beq_iff_eq] at second
      exact absurd second.symm alsoFree
    · simp only [List.isEmpty_iff.mp second, List.length_nil, beq_iff_eq] at first
      exact absurd first.symm free
    · simp only [beq_iff_eq] at first second
      exact .inr (.inr (first.symm.trans second))
  · cases first

theorem Pattern.overlaps_of_matches {p q : Pattern} (first : p.matches n ctx = true) (second : q.matches n ctx = true) :
    p.overlaps q = true := by
  simp only [Pattern.matches, Bool.and_eq_true, Bool.or_eq_true, beq_iff_eq] at first second
  obtain ⟨⟨⟨⟨kind, source⟩, target⟩, name⟩, arity⟩ := first
  obtain ⟨⟨⟨⟨kind', source'⟩, target'⟩, name'⟩, arity'⟩ := second
  simp only [Pattern.overlaps, Bool.and_eq_true, Bool.or_eq_true, beq_iff_eq, or_assoc]
  exact ⟨⟨⟨⟨kind.symm.trans kind', pinned_eq name name'⟩, arity_eq arity arity'⟩, pinned_eq source source'⟩,
    pinned_eq target target'⟩

/-! ### The order of application -/

namespace Rule

/-- The first rule goes before the second one by its rank, whatever their names are. -/
def Outranks (a b : Rule) : Prop :=
  b.priority < a.priority ∨ a.priority = b.priority ∧ b.pattern.specificity < a.pattern.specificity

/-- Two rules of one rank that both match a node. -/
def Tie (n : Node) (ctx : Context) (a b : Rule) : Prop :=
  a.priority = b.priority ∧ a.pattern.specificity = b.pattern.specificity ∧
    a.pattern.matches n ctx = true ∧ b.pattern.matches n ctx = true

variable {a b c : Rule}

theorem Outranks.irrefl (a : Rule) : ¬a.Outranks a := by
  simp [Outranks]

theorem Outranks.trans (first : a.Outranks b) (second : b.Outranks c) : a.Outranks c := by
  unfold Outranks at *
  omega

theorem Tie.symm (tie : Tie n ctx a b) : Tie n ctx b a :=
  ⟨tie.1.symm, tie.2.1.symm, tie.2.2.2, tie.2.2.1⟩

/-- A rule that goes before another one is of a higher rank, or of the same rank with an earlier name. -/
theorem before_iff : before a b = true ↔ a.Outranks b ∨
    a.priority = b.priority ∧ a.pattern.specificity = b.pattern.specificity ∧ a.name ≤ b.name := by
  unfold before Outranks
  split
  · next different => simp only [gt_iff_lt, decide_eq_true_eq]; omega
  split
  · next different => simp only [gt_iff_lt, decide_eq_true_eq]; omega
  · next priority specificity =>
    simp only [ne_eq, Decidable.not_not] at priority specificity
    simp [priority, specificity]

theorem before_trans (first : before a b = true) (second : before b c = true) : before a c = true := by
  rw [before_iff] at *
  obtain higher | ⟨priority, specificity, name⟩ := first
  · obtain lower | ⟨priority, specificity, _⟩ := second
    · exact .inl (higher.trans lower)
    · exact .inl (by unfold Outranks at *; omega)
  · obtain lower | ⟨priority', specificity', name'⟩ := second
    · exact .inl (by unfold Outranks at *; omega)
    · exact .inr ⟨priority.trans priority', specificity.trans specificity', String.le_trans name name'⟩

theorem before_total (a b : Rule) : (before a b || before b a) = true := by
  rw [Bool.or_eq_true, before_iff, before_iff]
  obtain low | priority | high := Int.lt_trichotomy a.priority b.priority
  · exact .inr (.inl (.inl low))
  · obtain low | specificity | high := Nat.lt_trichotomy a.pattern.specificity b.pattern.specificity
    · exact .inr (.inl (.inr ⟨priority.symm, low⟩))
    · obtain name | name := String.le_total a.name b.name
      · exact .inl (.inr ⟨priority, specificity, name⟩)
      · exact .inr (.inr ⟨priority.symm, specificity.symm, name⟩)
    · exact .inl (.inl (.inr ⟨priority, high⟩))
  · exact .inl (.inl (.inl high))

end Rule

/-! ### Accepted lists -/

namespace RuleSet

variable {rules : List Rule} {set : RuleSet} {phase : Phase}

private theorem conflicts_of_tie {a b : Rule} (same : a.phase = b.phase) (tie : Rule.Tie n ctx a b) :
    a.conflicts b = true := by
  obtain ⟨priority, specificity, first, second⟩ := tie
  simp [Rule.conflicts, same, priority, specificity, Pattern.overlaps_of_matches first second]

theorem pairwise_of_firstConflict (clear : firstConflict rules = none) :
    rules.Pairwise fun a b => a.conflicts b = false := by
  induction rules with
  | nil => exact .nil
  | cons a rest ih =>
    unfold firstConflict at clear
    split at clear
    · cases clear
    · next apart =>
      refine .cons ?_ (ih clear)
      intro b member
      simpa using List.find?_eq_none.mp apart b member

theorem ofList_ok (accepted : ofList rules = .ok set) :
    firstConflict rules = none ∧ set = arrange rules := by
  unfold ofList at accepted
  split at accepted
  · cases accepted
  · next clear =>
    cases accepted
    refine ⟨?_, rfl⟩
    unfold fault? at clear
    cases single : firstFault [] rules with
    | some fault => simp [single] at clear
    | none => simpa [single] using clear

theorem ofList_eq_ok (clear : fault? rules = none) : ofList rules = .ok (arrange rules) := by
  rw [ofList, clear]

theorem mem_inPhase (accepted : ofList rules = .ok set) (r : Rule) :
    r ∈ set.inPhase phase ↔ r ∈ rules ∧ r.phase = phase := by
  rw [(ofList_ok accepted).2]
  simp [inPhase, arrange, List.mem_mergeSort]

theorem arrange_pairwise (rules : List Rule) : (arrange rules).rules.Pairwise fun a b => Rule.before a b = true :=
  List.pairwise_mergeSort (fun a b c => Rule.before_trans (a := a) (b := b) (c := c)) Rule.before_total rules

theorem arrange_perm (rules : List Rule) : (arrange rules).rules.Perm rules := List.mergeSort_perm rules Rule.before

theorem pairwise_tie (accepted : ofList rules = .ok set) (phase : Phase) (n : Node) (ctx : Context) :
    (set.inPhase phase).Pairwise fun a b => ¬Rule.Tie n ctx a b := by
  obtain ⟨clear, rfl⟩ := ofList_ok accepted
  have apart : rules.Pairwise fun a b => a.phase = b.phase → ¬Rule.Tie n ctx a b := by
    refine (pairwise_of_firstConflict clear).imp ?_
    intro a b free same tie
    rw [conflicts_of_tie same tie] at free
    cases free
  have sorted : (arrange rules).rules.Pairwise fun a b => a.phase = b.phase → ¬Rule.Tie n ctx a b := by
    refine (List.Perm.pairwise_iff ?_ (arrange_perm rules)).mpr apart
    intro a b free same tie
    exact free same.symm tie.symm
  refine (sorted.filter _).imp_of_mem ?_
  intro a b left right free
  have first : a.phase = phase := by simpa using (List.mem_filter.mp left).2
  have second : b.phase = phase := by simpa using (List.mem_filter.mp right).2
  exact free (first.trans second.symm)

theorem pairwise_before (accepted : ofList rules = .ok set) (phase : Phase) :
    (set.inPhase phase).Pairwise fun a b => Rule.before a b = true := by
  rw [(ofList_ok accepted).2]
  exact (arrange_pairwise rules).filter _

private theorem first_outranks (accepted : ofList rules = .ok set) {r other : Rule}
    (found : (set.inPhase phase).find? (·.pattern.matches n ctx) = some r) (member : other ∈ set.inPhase phase)
    (matched : other.pattern.matches n ctx = true) (different : other ≠ r) : r.Outranks other := by
  obtain ⟨first, earlier, later, split, passed⟩ := List.find?_eq_some_iff_append.mp found
  have ordered := pairwise_before accepted phase
  have untied := pairwise_tie accepted phase n ctx
  rw [split] at member ordered untied
  rw [List.mem_append, List.mem_cons] at member
  obtain inside | rfl | inside := member
  · have unmatched := passed other inside
    simp [matched] at unmatched
  · exact absurd rfl different
  have goes := (List.pairwise_cons.mp (List.pairwise_append.mp ordered).2.1).1 other inside
  have free := (List.pairwise_cons.mp (List.pairwise_append.mp untied).2.1).1 other inside
  obtain higher | ⟨priority, specificity, _⟩ := Rule.before_iff.mp goes
  · exact higher
  · exact absurd ⟨priority, specificity, first, matched⟩ free

/-- In a set made from a list of rules, no two rules of a phase that match a node have the same priority and
specificity, and the first match is the one of the highest rank. -/
theorem first_match_unique (accepted : ofList rules = .ok set) (phase : Phase) (n : Node) (ctx : Context) :
    (∀ r, r ∈ set.inPhase phase ↔ r ∈ rules ∧ r.phase = phase) ∧
    ((set.inPhase phase).Pairwise fun a b => ¬Rule.Tie n ctx a b) ∧
    ∀ r, (set.inPhase phase).find? (·.pattern.matches n ctx) = some r ↔
      r ∈ set.inPhase phase ∧ r.pattern.matches n ctx = true ∧
        ∀ other ∈ set.inPhase phase, other.pattern.matches n ctx = true → other ≠ r → r.Outranks other := by
  refine ⟨mem_inPhase accepted, pairwise_tie accepted phase n ctx, fun r => ⟨?_, ?_⟩⟩
  · intro found
    refine ⟨List.mem_of_find?_eq_some found, by simpa using List.find?_some found, ?_⟩
    intro other member matched different
    exact first_outranks accepted found member matched different
  · rintro ⟨member, matched, highest⟩
    cases found : (set.inPhase phase).find? (·.pattern.matches n ctx) with
    | none => exact absurd matched (List.find?_eq_none.mp found r member)
    | some first =>
      by_cases same : first = r
      · rw [same]
      have below := first_outranks accepted found member matched (Ne.symm same)
      have above := highest first (List.mem_of_find?_eq_some found) (by simpa using List.find?_some found) same
      exact absurd (below.trans above) (Rule.Outranks.irrefl _)

/-- The more urgent of two rules with one pattern is the first match, although it was listed last. -/
theorem urgent_rule_first : ∃ plain urgent set, plain = Rule.rename "doris" "DAYOFWEEK" "DOW" ∧
    urgent = { plain with name := "urgent", priority := 100 } ∧ ofList [plain, urgent] = .ok set ∧
    (set.inPhase .outbound).find? (·.pattern.matches (.expr (.fn "DAYOFWEEK" [.col "d"]))
      ⟨{ name := "mysql" }, { name := "doris" }, .ok⟩) = some urgent := by
  have accepted := ofList_eq_ok (show fault? [Rule.rename "doris" "DAYOFWEEK" "DOW",
    { Rule.rename "doris" "DAYOFWEEK" "DOW" with name := "urgent", priority := 100 }] = none by decide +kernel)
  refine ⟨_, _, _, rfl, rfl, accepted, ?_⟩
  obtain ⟨members, _, first⟩ := first_match_unique accepted .outbound (.expr (.fn "DAYOFWEEK" [.col "d"]))
    ⟨{ name := "mysql" }, { name := "doris" }, .ok⟩
  refine (first _).mpr ⟨(members _).mpr ⟨by simp, rfl⟩, by decide, ?_⟩
  intro other member _ different
  have listed := ((members other).mp member).1
  simp only [List.mem_cons, List.not_mem_nil, or_false] at listed
  obtain rfl | rfl := listed
  · exact .inl (by decide)
  · exact absurd rfl different

end RuleSet

end SqlDialects
