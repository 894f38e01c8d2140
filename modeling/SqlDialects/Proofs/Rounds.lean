import SqlDialects.Proofs.Settling

/-! A node settles in rounds. In each round the first rule that matches and changes the node takes its place among
the spent rules, so the rules that are left get fewer whatever becomes of the node: rules may feed one another in
circles, and change the node's kind and with it the rules that match. The rounds end with a node that none of the
rules left changes, or with the error of the first one that does not leave it. -/

namespace SqlDialects

namespace Rule

variable {ctx : Context} {rules rest fired left : List Rule} {r : Rule} {n m last : Node}

/-! ### What a rule does to a node -/

/-- The rule does not match the node, or it matches and makes nothing of it. -/
def Leaves (r : Rule) (ctx : Context) (n : Node) : Prop :=
  ∀ transform, r.transform = some transform → r.pattern.matches n ctx = true → transform ctx n = .ok none

/-- The rule matches the node and makes another one of it. -/
def Changes (r : Rule) (ctx : Context) (n m : Node) : Prop :=
  ∃ transform, r.transform = some transform ∧ r.pattern.matches n ctx = true ∧ transform ctx n = .ok (some m)

/-- The rule matches the node and stops with an error. -/
def Fails (r : Rule) (ctx : Context) (n : Node) (x : Error) : Prop :=
  ∃ transform, r.transform = some transform ∧ r.pattern.matches n ctx = true ∧ transform ctx n = .error x

theorem fire_cases (r : Rule) (ctx : Context) (n : Node) :
    (r.fire? ctx n = .ok none ∧ r.Leaves ctx n) ∨ (∃ m, r.fire? ctx n = .ok (some m) ∧ r.Changes ctx n m) ∨
      ∃ x, r.fire? ctx n = .error x ∧ r.Fails ctx n x := by
  unfold fire?
  cases held : r.transform with
  | none => exact .inl ⟨rfl, fun transform other => by simp [held] at other⟩
  | some transform =>
    by_cases matched : r.pattern.matches n ctx = true
    · simp only [matched, if_true]
      cases outcome : transform ctx n with
      | error x => exact .inr (.inr ⟨x, rfl, transform, held, matched, outcome⟩)
      | ok out =>
        cases out with
        | none => exact .inl ⟨rfl, fun other same _ => by cases held.symm.trans same; exact outcome⟩
        | some m => exact .inr (.inl ⟨m, rfl, transform, held, matched, outcome⟩)
    · exact .inl ⟨by simp [matched], fun _ _ also => absurd also matched⟩

/-! ### Rounds -/

/-- The first of the rules that changes the node is spent. -/
inductive Round (ctx : Context) (n : Node) : List Rule → Rule → Node → List Rule → Prop
  | fires {earlier later : List Rule} {r : Rule} {m : Node} (passed : ∀ s ∈ earlier, s.Leaves ctx n)
      (changed : r.Changes ctx n m) : Round ctx n (earlier ++ r :: later) r m (earlier ++ later)

/-- Rounds that lead from a node to another one, with the rules that have fired and the rules that are left. -/
inductive Rounds (ctx : Context) : List Rule → Node → List Rule → List Rule → Node → Prop
  | stop {rules : List Rule} {n : Node} : Rounds ctx rules n [] rules n
  | next {rules rest fired left : List Rule} {r : Rule} {n m last : Node} (round : Round ctx n rules r m rest)
      (rounds : Rounds ctx rest m fired left last) : Rounds ctx rules n (r :: fired) left last

/-- The first of the rules that does not leave the node stops with an error. -/
def Stops (ctx : Context) (n : Node) (rules : List Rule) (x : Error) : Prop :=
  ∃ earlier r later, rules = earlier ++ r :: later ∧ (∀ s ∈ earlier, s.Leaves ctx n) ∧ r.Fails ctx n x

/-- What is returned where the rounds have come to a node: the node, if a rule has fired at all, and no rule left
changes it; or the error that stops the next round. -/
def Ends (ctx : Context) (fired left : List Rule) (last : Node) : Except Error (Option Replacement) → Prop
  | .ok none => fired = [] ∧ ∀ r ∈ left, r.Leaves ctx last
  | .ok (some replaced) => fired ≠ [] ∧ replaced.node = last ∧ ∀ r ∈ left, r.Leaves ctx last
  | .error x => Stops ctx last left x

theorem Round.perm (round : Round ctx n rules r m rest) : (r :: rest).Perm rules := by
  cases round with
  | fires => exact List.perm_middle.symm

theorem Rounds.perm (rounds : Rounds ctx rules n fired left last) : (fired ++ left).Perm rules := by
  induction rounds with
  | stop => exact .refl _
  | next round _ ih => exact (ih.cons _).trans round.perm

theorem Round.weaken (round : Round ctx n rules r m rest) {first : Rule} (passed : first.Leaves ctx n) :
    Round ctx n (first :: rules) r m (first :: rest) := by
  cases round with
  | fires earlier changed => exact .fires (List.forall_mem_cons.mpr ⟨passed, earlier⟩) changed

theorem firstChange_cases (ctx : Context) (n : Node) (rules : List Rule) :
    (firstChange ctx n rules = .ok none ∧ ∀ r ∈ rules, r.Leaves ctx n) ∨
    (∃ r replaced rest, firstChange ctx n rules = .ok (some (replaced, rest)) ∧
      Round ctx n rules r replaced.node rest) ∨
    ∃ x, firstChange ctx n rules = .error x ∧ Stops ctx n rules x := by
  induction rules with
  | nil => exact .inl ⟨rfl, nofun⟩
  | cons r rs ih =>
    rw [firstChange]
    obtain ⟨fired, leaves⟩ | ⟨m, fired, changes⟩ | ⟨x, fired, fails⟩ := fire_cases r ctx n
    · rw [fired]
      obtain ⟨later, all⟩ | ⟨s, replaced, rest, later, round⟩ | ⟨x, later, first, s, others, rfl, passed, fails⟩ := ih
      · exact .inl ⟨by rw [later]; rfl, List.forall_mem_cons.mpr ⟨leaves, all⟩⟩
      · exact .inr (.inl ⟨s, replaced, r :: rest, by rw [later]; rfl, round.weaken leaves⟩)
      · exact .inr (.inr ⟨x, by rw [later]; rfl, r :: first, s, others, rfl,
          List.forall_mem_cons.mpr ⟨leaves, passed⟩, fails⟩)
    · have first : Round ctx n ([] ++ r :: rs) r m ([] ++ rs) := .fires nofun changes
      exact .inr (.inl ⟨r, ⟨m, r.keeps⟩, rs, by rw [fired]; rfl, first⟩)
    · exact .inr (.inr ⟨x, by rw [fired]; rfl, [], r, rs, rfl, nofun, fails⟩)

/-- As many rounds as there are rules are enough: there is always a run of rounds behind the outcome. -/
theorem settle_rounds (ctx : Context) {rounds : Nat} (enough : rules.length ≤ rounds) (n : Node) :
    ∃ fired left last, Rounds ctx rules n fired left last ∧ Ends ctx fired left last (settle ctx rounds rules n) := by
  induction rounds generalizing rules n with
  | zero =>
    obtain rfl : rules = [] := List.length_eq_zero_iff.mp (by omega)
    exact ⟨[], [], n, .stop, rfl, nofun⟩
  | succ rounds ih =>
    rw [settle]
    obtain ⟨found, leaves⟩ | ⟨r, replaced, rest, found, round⟩ | ⟨x, found, stops⟩ := firstChange_cases ctx n rules
    · rw [found]
      exact ⟨[], rules, n, .stop, rfl, leaves⟩
    · rw [found]
      have shorter := round.perm.length_eq
      simp only [List.length_cons] at shorter
      obtain ⟨fired, left, last, more, ends⟩ := ih (show rest.length ≤ rounds by omega) replaced.node
      refine ⟨r :: fired, left, last, .next round more, ?_⟩
      simp only [bind, Except.bind]
      cases outcome : settle ctx rounds rest replaced.node with
      | error x =>
        rw [outcome] at ends
        exact ends
      | ok out =>
        rw [outcome] at ends
        cases out with
        | none =>
          obtain ⟨rfl, leaves⟩ := ends
          cases more
          exact ⟨List.cons_ne_nil _ _, rfl, leaves⟩
        | some final => exact ⟨List.cons_ne_nil _ _, ends.2⟩
    · rw [found]
      exact ⟨[], rules, n, .stop, stops⟩

/-- Whatever the rules are, a node settles in at most as many rounds as there are rules. In each round the first rule
in order that matches and changes the node fires, each rule fires at most once, and where no rule stops with an error
the outcome is a node that every rule that has not fired leaves as it is. -/
theorem rounds_end_in_normal_form (ctx : Context) (rules : List Rule) (n : Node) :
    ∃ fired left last, Rounds ctx rules n fired left last ∧ fired.length ≤ rules.length ∧ (fired ++ left).Perm rules ∧
      Ends ctx fired left last (settle ctx rules.length rules n) := by
  obtain ⟨fired, left, last, rounds, ends⟩ := settle_rounds ctx (Nat.le_refl rules.length) n
  have few : fired.length ≤ rules.length := by
    rw [← rounds.perm.length_eq, List.length_append]
    exact Nat.le_add_right _ _
  exact ⟨fired, left, last, rounds, few, rounds.perm, ends⟩

/-- Two renames that undo each other fire once each. -/
example : settle ⟨{ name := "mysql" }, { name := "doris" }, .ok⟩ 2 [rename "doris" "F" "G", rename "doris" "G" "F"]
    (.expr (.fn "F" [])) = .ok (some ⟨.expr (.fn "F" []), .args⟩) := rfl

end Rule

end SqlDialects
