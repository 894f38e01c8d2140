import SqlDialects.Engine

/-! Rules applied to one node until none changes it. What every single rule keeps of a node, all of them keep. -/

namespace SqlDialects

namespace Rule

variable {ctx : Context} {rules : List Rule} {n : Node}

/-- An outcome that leaves a node, changes it into a good one, or is an error that may be. -/
def Makes {α : Type} (good : α → Prop) (other : Error → Prop) : Except Error (Option α) → Prop
  | .ok none => True
  | .ok (some a) => good a
  | .error x => other x

variable {good : Node → Prop} {other : Error → Prop}

private theorem firstChange_makes (each : ∀ r ∈ rules, Makes good other (r.fire? ctx n)) :
    Makes (fun found => good found.1.node ∧ found.2 ⊆ rules) other (firstChange ctx n rules) := by
  induction rules with
  | nil => trivial
  | cons r rs ih =>
    have first := each r List.mem_cons_self
    have rest := ih fun s member => each s (List.mem_cons_of_mem r member)
    rw [firstChange]
    cases fired : r.fire? ctx n with
    | error x =>
      rw [fired] at first
      exact first
    | ok out =>
      rw [fired] at first
      cases out with
      | some m => exact ⟨first, List.subset_cons_self r rs⟩
      | none =>
        cases later : firstChange ctx n rs with
        | error x =>
          rw [later] at rest
          exact rest
        | ok out =>
          rw [later] at rest
          cases out with
          | none => trivial
          | some found => exact ⟨rest.1, List.cons_subset_cons r rest.2⟩

theorem settle_makes (before good : Node → Prop) {other : Error → Prop}
    (each : ∀ r ∈ rules, ∀ n, before n → Makes good other (r.fire? ctx n)) (again : ∀ n, good n → before n)
    (rounds : Nat) (start : before n) :
    Makes (fun m => good m.node) other (settle ctx rounds rules n) := by
  induction rounds generalizing n rules with
  | zero => trivial
  | succ rounds ih =>
    have first := firstChange_makes fun r member => each r member n start
    rw [settle]
    cases found : firstChange ctx n rules with
    | error x =>
      rw [found] at first
      exact first
    | ok out =>
      rw [found] at first
      cases out with
      | none => trivial
      | some change =>
        have rest := ih (fun r member => each r (first.2 member)) (again _ first.1)
        simp only [bind, Except.bind]
        cases later : settle ctx rounds change.2 change.1.node with
        | error x =>
          rw [later] at rest
          exact rest
        | ok out =>
          rw [later] at rest
          cases out with
          | none => exact first.1
          | some last => exact rest

/-- The rules leave a node exactly if each of them does. -/
theorem settle_none_iff (rounds : Nat) :
    settle ctx (rounds + 1) rules n = .ok none ↔ ∀ r ∈ rules, r.fire? ctx n = .ok none := by
  have first : firstChange ctx n rules = .ok none ↔ ∀ r ∈ rules, r.fire? ctx n = .ok none := by
    induction rules with
    | nil => simp [firstChange]
    | cons r rs ih =>
      rw [List.forall_mem_cons, ← ih, firstChange]
      cases r.fire? ctx n with
      | error x => simp [bind, Except.bind]
      | ok out =>
        cases out with
        | some m => simp [bind, Except.bind, pure, Except.pure]
        | none =>
          rcases firstChange ctx n rs with x | _ | found <;> simp [bind, Except.bind, pure, Except.pure]
  rw [← first, settle]
  rcases firstChange ctx n rules with x | _ | found
  · simp [bind, Except.bind]
  · simp [bind, Except.bind, pure, Except.pure]
  · simp only [bind, Except.bind]
    rcases settle ctx rounds found.2 found.1.node with x | _ | last <;> simp [pure, Except.pure]

theorem settle_none (quiet : ∀ r ∈ rules, r.fire? ctx n = .ok none) (rounds : Nat) :
    settle ctx rounds rules n = .ok none := by
  cases rounds with
  | zero => rfl
  | succ rounds => exact (settle_none_iff rounds).mpr quiet

theorem fire_unmatched {r : Rule} (apart : r.pattern.matches n ctx = false) : r.fire? ctx n = .ok none := by
  unfold fire?
  rw [apart]
  cases r.transform <;> rfl

/-- Rules that make one change of a node, and nothing more of what comes of it, put that in its place. -/
theorem settle_once {m : Node} (fires : ∃ r ∈ rules, r.fire? ctx n = .ok (some m))
    (only : ∀ r ∈ rules, r.fire? ctx n = .ok none ∨ r.fire? ctx n = .ok (some m))
    (still : ∀ r ∈ rules, r.fire? ctx m = .ok none) :
    (settle ctx rules.length rules n).map (Option.map Replacement.node) = .ok (some m) := by
  obtain ⟨r, member, fired⟩ := fires
  obtain ⟨rounds, length⟩ := Nat.exists_eq_succ_of_ne_zero (Nat.ne_of_gt (List.length_pos_of_mem member))
  rw [length]
  have each : ∀ s ∈ rules, ∀ k, k = n ∨ k = m → Makes (· = m) (fun _ => False) (s.fire? ctx k) := by
    rintro s inside k (rfl | rfl)
    · obtain none | same := only s inside
      · rw [none]
        trivial
      · rw [same]
        rfl
    · rw [still s inside]
      trivial
  have makes := settle_makes _ _ each (fun k same => .inr same) (rounds + 1) (.inl rfl)
  have changes : settle ctx (rounds + 1) rules n ≠ .ok none := by
    intro none
    have quiet := (settle_none_iff rounds).mp none r member
    rw [fired] at quiet
    cases quiet
  generalize settle ctx (rounds + 1) rules n = outcome at makes changes
  cases outcome with
  | error x => exact makes.elim
  | ok change =>
    cases change with
    | none => exact absurd rfl changes
    | some replaced => exact congrArg (fun node => Except.ok (some node)) makes

end Rule

/-! ### Rules of the registered dialects -/

private theorem registered_phases {entry : Entry} (member : entry ∈ Registry.standard.entries) :
    (∀ r ∈ entry.profile.inbound, r.phase = .inbound) ∧ ∀ r ∈ entry.profile.outbound, r.phase = .outbound := by
  obtain ⟨profile, known, rfl⟩ := List.mem_map.mp member
  clear member
  change (∀ r ∈ profile.inbound, r.phase = .inbound) ∧ ∀ r ∈ profile.outbound, r.phase = .outbound
  revert profile
  decide +kernel

private theorem unmappable_phase {d : Dialect} {r : Rule} (listed : r ∈ Profile.unmappableRules d) :
    r.phase = .inbound := by
  obtain ⟨_, _, rfl⟩ := List.mem_map.mp listed
  rfl

private theorem mem_inPhase {entry : Entry} (member : entry ∈ Registry.standard.entries) {phase : Phase} {r : Rule} :
    r ∈ entry.rules.inPhase phase ↔ r ∈ entry.profile.rules ∧ r.phase = phase := by
  obtain ⟨profile, _, rfl⟩ := List.mem_map.mp member
  simp [RuleSet.inPhase, Entry.ofProfile, RuleSet.arrange]

/-- Rules on the way from a dialect: its own ones, and those for functions that only it has. -/
theorem Entry.mem_inbound {entry : Entry} (member : entry ∈ Registry.standard.entries) {r : Rule} :
    r ∈ entry.rules.inPhase .inbound ↔ r ∈ entry.profile.inbound ∨ r ∈ Profile.unmappableRules entry.dialect := by
  obtain ⟨inbound, outbound⟩ := registered_phases member
  rw [mem_inPhase member, Profile.rules, List.mem_append, List.mem_append]
  constructor
  · rintro ⟨(own | own) | unmappable, phase⟩
    · exact .inl own
    · rw [outbound r own] at phase
      cases phase
    · exact .inr unmappable
  · rintro (own | unmappable)
    · exact ⟨.inl (.inl own), inbound r own⟩
    · exact ⟨.inr unmappable, unmappable_phase unmappable⟩

theorem Entry.mem_outbound {entry : Entry} (member : entry ∈ Registry.standard.entries) {r : Rule} :
    r ∈ entry.rules.inPhase .outbound ↔ r ∈ entry.profile.outbound := by
  obtain ⟨inbound, outbound⟩ := registered_phases member
  rw [mem_inPhase member, Profile.rules, List.mem_append, List.mem_append]
  constructor
  · rintro ⟨(own | own) | unmappable, phase⟩
    · rw [inbound r own] at phase
      cases phase
    · exact own
    · rw [unmappable_phase unmappable] at phase
      cases phase
  · intro own
    exact ⟨.inl (.inr own), outbound r own⟩

end SqlDialects
