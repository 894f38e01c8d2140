import Mathlib.Data.List.Perm.Basic
import SqlDialects.Proofs.Engines
import SqlDialects.Proofs.Reach
import SqlDialects.Proofs.RuleOrder
import SqlDialects.Proofs.Settling

/-! Renames that users write. A call that has been renamed is matched again, so a new name that is renamed in
its turn is followed, each rename being spent once it has fired. Where no rule of the target's own asks for
what comes of this, the tree for the printer is the tree with all names followed to their ends. -/

namespace SqlDialects

/-! ### Following renames -/

/-- The name at the end of the renames that start with one. A rename that has been followed is no longer in
the table. -/
def chase : Nat → List (String × String) → String → String
  | 0, _, name => name
  | rounds + 1, table, name =>
    match table.lookup name with
    | none => name
    | some next => chase rounds (table.filter (·.1 != name)) next

/-- The name that calls of a function end up with, each rename being followed at most once. -/
def follow (table : List (String × String)) (name : String) : String := chase table.length table name

section

variable {table other : List (String × String)} {name next : String}

private theorem filter_swap (table : List (String × String)) (first second : String) :
    (table.filter (·.1 != first)).filter (·.1 != second) = (table.filter (·.1 != second)).filter (·.1 != first) := by
  simp only [List.filter_filter, Bool.and_comm]

private theorem chase_none (missing : table.lookup name = none) (rounds : Nat) : chase rounds table name = name := by
  cases rounds with
  | zero => rfl
  | succ rounds => rw [chase, missing]

private theorem chase_congr (same : ∀ name, table.lookup name = other.lookup name) (rounds : Nat) (name : String) :
    chase rounds table name = chase rounds other name := by
  induction rounds generalizing table other name with
  | zero => rfl
  | succ rounds ih =>
    rw [chase, chase, same name]
    cases other.lookup name with
    | none => rfl
    | some next => exact ih (fun key => by rw [lookup_filter, lookup_filter, same]) next

private theorem length_filter_lt (found : table.lookup name = some next) :
    (table.filter (·.1 != name)).length < table.length := by
  obtain ⟨front, back, rfl, _⟩ := List.lookup_eq_some_iff.mp found
  exact List.length_filter_lt_length_iff_exists.mpr ⟨(name, next), by simp, by simp⟩

private theorem chase_rounds {rounds more : Nat} (enough : table.length ≤ rounds) (also : table.length ≤ more)
    (name : String) : chase rounds table name = chase more table name := by
  -- A rename that is followed leaves the table, so no more rounds are needed than the table is long.
  induction rounds generalizing more table name with
  | zero =>
    have empty : table = [] := List.length_eq_zero_iff.mp (by omega)
    rw [empty, chase_none rfl, chase_none rfl]
  | succ rounds ih =>
    cases found : table.lookup name with
    | none => rw [chase_none found, chase_none found]
    | some next =>
      have shorter := length_filter_lt found
      obtain ⟨more, rfl⟩ := Nat.exists_eq_succ_of_ne_zero (show more ≠ 0 by omega)
      simp only [chase, found]
      exact ih (by omega) (by omega) next

theorem follow_none (missing : table.lookup name = none) : follow table name = name := chase_none missing _

theorem follow_some (found : table.lookup name = some next) :
    follow table name = follow (table.filter (·.1 != name)) next := by
  have shorter := length_filter_lt found
  obtain ⟨rounds, size⟩ := Nat.exists_eq_succ_of_ne_zero (show table.length ≠ 0 by omega)
  rw [follow, size, chase, found]
  exact chase_rounds (by omega) (Nat.le_refl _) next

/-- Renames that are followed from a table without a key, up to a name that is not in the table, are followed
from the whole table just as well. -/
private theorem follow_extend {key : String} (size : Nat) (bound : table.length ≤ size)
    (free : table.lookup (follow (table.filter (·.1 != key)) name) = none) :
    follow table name = follow (table.filter (·.1 != key)) name := by
  induction size generalizing table name with
  | zero =>
    rw [List.length_eq_zero_iff.mp (by omega : table.length = 0)]
    rfl
  | succ size ih =>
    cases found : (table.filter (·.1 != key)).lookup name with
    | none =>
      rw [follow_none found] at free ⊢
      exact follow_none free
    | some next =>
      have kept : name ≠ key ∧ table.lookup name = some next := by
        rw [lookup_filter] at found
        split at found
        · cases found
        · next different => exact ⟨different, found⟩
      rw [follow_some found, filter_swap] at free ⊢
      rw [follow_some kept.2]
      have shorter := length_filter_lt kept.2
      refine ih (by omega) ?_
      rw [lookup_filter]
      split
      · rfl
      · exact free

/-- Where the renames end, nothing is renamed any more. -/
theorem follow_follow (table : List (String × String)) (name : String) :
    follow table (follow table name) = follow table name := by
  induction size : table.length using Nat.strongRecOn generalizing table name with
  | ind size ih =>
  cases found : table.lookup name with
  | none => rw [follow_none found, follow_none found]
  | some next =>
    have settled := ih _ (size ▸ length_filter_lt found) (table.filter (·.1 != name)) next rfl
    rw [← follow_some found] at settled
    by_cases back : follow table name = name
    · rw [back, back]
    · cases turn : table.lookup (follow table name) with
      | none => exact follow_none turn
      | some last =>
        -- The end is renamed in its turn only if it has been passed before; from there the renames lead to it again.
        have kept : (table.filter (·.1 != name)).lookup (follow table name) = some last := by
          rw [lookup_filter, if_neg back, turn]
        rw [follow_some kept] at settled
        have free : (table.filter (·.1 != follow table name)).lookup
            (follow ((table.filter (·.1 != follow table name)).filter (·.1 != name)) last) = none := by
          rw [filter_swap, settled, lookup_filter, if_pos rfl]
        rw [follow_some turn, follow_extend _ (Nat.le_refl _) free, filter_swap, settled]

theorem lookup_iff_mem (distinct : (table.map Prod.fst).Nodup) :
    table.lookup name = some next ↔ (name, next) ∈ table := by
  constructor
  · intro found
    obtain ⟨front, back, rfl, _⟩ := List.lookup_eq_some_iff.mp found
    simp
  · intro member
    obtain ⟨front, back, rfl⟩ := List.append_of_mem member
    refine List.lookup_eq_some_iff.mpr ⟨front, back, rfl, ?_⟩
    intro entry inside
    rw [List.map_append, List.nodup_append] at distinct
    have apart := distinct.2.2 entry.1 (List.mem_map_of_mem inside) name (by simp)
    simpa using Ne.symm apart

theorem follow_perm (distinct : (table.map Prod.fst).Nodup) (perm : table.Perm other) :
    follow table = follow other := by
  have same (name : String) : table.lookup name = other.lookup name := by
    ext next
    rw [lookup_iff_mem distinct, lookup_iff_mem ((perm.map Prod.fst).nodup_iff.mp distinct), perm.mem_iff]
  funext name
  rw [follow, follow, perm.length_eq, chase_congr same]

end

/-! ### Rules of renames -/

/-- The rule that users write for calls of a function towards a dialect. -/
def Rename.override (target : String) (entry : String × String) : Rule :=
  { Rule.rename target entry.1 entry.2 with
    name := "override:" ++ (Rule.rename target entry.1 entry.2).name, priority := Rename.priority }

@[simp] theorem Rename.phase_override (target : String) (entry : String × String) :
    (Rename.override target entry).phase = .outbound := rfl

@[simp] theorem Rename.priority_override (target : String) (entry : String × String) :
    (Rename.override target entry).priority = Rename.priority := rfl

@[simp] theorem Rename.pattern_override (target : String) (entry : String × String) :
    (Rename.override target entry).pattern = { kind := "FunctionCall", name := entry.1, target } := rfl

section

variable {ctx : Context} {target : String} {own : List Rule}

private theorem Rename.fire_call (towards : ctx.target.name = target) {entry : String × String} (named : entry.1 ≠ "")
    (c : Call) : (Rename.override target entry).fire? ctx (.expr (.call c)) =
      .ok (if c.name = entry.1 then some (.expr (.call { c with name := entry.2 })) else none) := by
  exact Rule.fire_rename_call (.inr towards.symm) named c

private theorem Rename.fire_other (entry : String × String) {n : Node} (other : ∀ c, n ≠ .expr (.call c)) :
    (Rename.override target entry).fire? ctx n = .ok none :=
  Rule.fire_rename_other other

/-- No rule of a list changes the node. -/
def Rule.Silent (rules : List Rule) (ctx : Context) (n : Node) : Prop := ∀ r ∈ rules, r.fire? ctx n = .ok none

variable {table : List (String × String)} {c : Call} {next : String}

private theorem firstChange_renamed (towards : ctx.target.name = target) (named : ∀ entry ∈ table, entry.1 ≠ "")
    (distinct : (table.map Prod.fst).Nodup) (found : table.lookup c.name = some next) :
    Rule.firstChange ctx (.expr (.call c)) (table.map (Rename.override target) ++ own) =
      .ok (some (⟨.expr (.call { c with name := next }), .args⟩,
        (table.filter (·.1 != c.name)).map (Rename.override target) ++ own)) := by
  induction table with
  | nil => cases found
  | cons entry rest ih =>
    obtain ⟨first, value⟩ := entry
    rw [List.map_cons, List.nodup_cons] at distinct
    rw [List.map_cons, List.cons_append, Rule.firstChange,
      Rename.fire_call towards (named _ List.mem_cons_self)]
    by_cases same : c.name = first
    · have last : next = value := by simpa [List.lookup_cons, same] using found.symm
      have kept : rest.filter (·.1 != c.name) = rest := by
        refine List.filter_eq_self.mpr fun entry member => ?_
        have apart : entry.1 ≠ first := by
          rintro rfl
          exact distinct.1 (List.mem_map.mpr ⟨entry, member, rfl⟩)
        simpa [same] using apart
      rw [List.filter_cons_of_neg (by simp [same]), kept, last]
      simp only [same, if_true]
      rfl
    · have later : rest.lookup c.name = some next := by
        rwa [List.lookup_cons, beq_false_of_ne same] at found
      simp only [same, if_false]
      rw [List.filter_cons_of_pos (by simpa using Ne.symm same)]
      change (Rule.firstChange ctx _ _ >>= _) = _
      rw [ih (fun entry member => named entry (List.mem_cons_of_mem _ member)) distinct.2 later]
      rfl

/-- Where the other rules leave calls of the last name alone, a call gets that name and nothing else changes. -/
private theorem settle_call (towards : ctx.target.name = target) (named : ∀ entry ∈ table, entry.1 ≠ "")
    (distinct : (table.map Prod.fst).Nodup) {rounds : Nat} (enough : table.length ≤ rounds)
    (silent : Rule.Silent own ctx (.expr (.call (c.named (follow table))))) :
    Rule.settle ctx rounds (table.map (Rename.override target) ++ own) (.expr (.call c)) = .ok
      (if (table.lookup c.name).isSome then some ⟨.expr (.call (c.named (follow table))), .args⟩ else none) := by
  -- Every round spends the rename of the call's name: the rest of the table is settled for the new name.
  induction rounds generalizing table c with
  | zero =>
    rw [List.length_eq_zero_iff.mp (by omega : table.length = 0)]
    rfl
  | succ rounds ih =>
    cases found : table.lookup c.name with
    | none =>
      rw [Call.named_eq (follow_none found)] at silent
      refine Rule.settle_none (fun r member => ?_) _
      obtain override | own := List.mem_append.mp member
      · obtain ⟨entry, inside, rfl⟩ := List.mem_map.mp override
        have apart : c.name ≠ entry.1 := by simpa using List.lookup_eq_none_iff.mp found entry inside
        rw [Rename.fire_call towards (named entry inside), if_neg apart]
      · exact silent r own
    | some next =>
      have shorter := length_filter_lt found
      have last : follow table c.name = follow (table.filter (·.1 != c.name)) next := follow_some found
      have renamed : ({ c with name := next } : Call).named (follow (table.filter (·.1 != c.name))) =
          c.named (follow table) := by
        simp only [Call.named, last]
      rw [Rule.settle, firstChange_renamed towards named distinct found]
      change (Rule.settle ctx rounds _ _ >>= _) = _
      rw [ih (fun entry member => named entry (List.mem_of_mem_filter member))
        (distinct.sublist (List.filter_sublist.map _)) (by omega) (renamed ▸ silent), renamed]
      cases turn : (table.filter (·.1 != c.name)).lookup next with
      | none =>
        rw [← renamed, Call.named_eq (follow_none turn)]
        rfl
      | some _ => rfl

private theorem settle_renames (towards : ctx.target.name = target) (named : ∀ entry ∈ table, entry.1 ≠ "")
    (distinct : (table.map Prod.fst).Nodup) {rounds : Nat} (enough : table.length ≤ rounds) {still : Node → Prop}
    (silent : ∀ n, still n → Rule.Silent own ctx n)
    (marked : ∀ place e, still (.expr e) → still (.expr (.repeated place e))) :
    Step.Renames (Rule.settle ctx rounds (table.map (Rename.override target) ++ own)) (follow table) still where
  call c calm := by
    rw [settle_call towards named distinct enough (silent _ calm)]
    cases found : table.lookup c.name with
    | none => exact .inl ⟨rfl, follow_none found⟩
    | some _ => exact .inr rfl
  other n other calm := by
    refine Rule.settle_none (fun r member => ?_) _
    obtain override | own := List.mem_append.mp member
    · obtain ⟨entry, _, rfl⟩ := List.mem_map.mp override
      exact Rename.fire_other entry other
    · exact silent n calm r own
  marked := marked

end

/-! ### Accepted renames -/

/-- The renames towards one dialect: the neutral names of functions with their new names. -/
def Rename.table (target : Entry) (renames : List Rename) : List (String × String) :=
  (renames.filter fun r => (Registry.standard.find? r.target).any (·.name == target.name)).map fun r =>
    (Text.upper (Text.trim r.function), Text.trim r.newName)

section

variable {renames : List Rename} {rules : List Rule}

private theorem names_nonempty {entry : Entry} (member : entry ∈ Registry.standard.entries) : entry.name ≠ "" := by
  have checked : ∀ entry ∈ Registry.standard.entries, entry.name ≠ "" := by decide +kernel
  exact checked entry member

private theorem Rename.rule_eq {r : Rename} {first : Rule} (read : r.rule .standard = .ok first) :
    ∃ entry, Registry.standard.find? r.target = some entry ∧ Text.upper (Text.trim r.function) ≠ "" ∧
      first = Rename.override entry.name (Text.upper (Text.trim r.function), Text.trim r.newName) := by
  unfold Rename.rule Registry.lookup at read
  cases found : Registry.standard.find? r.target with
  | none =>
    rw [found] at read
    cases read
  | some entry =>
    rw [found] at read
    by_cases empty : Text.upper (Text.trim r.function) = "" ∨ Text.trim r.newName = ""
    · simp [bind, Except.bind, empty] at read
    · simp [bind, Except.bind, empty] at read
      cases read
      exact ⟨entry, rfl, fun unnamed => empty (.inl unnamed), rfl⟩

/-- The rules of accepted renames that can apply towards a dialect. -/
private theorem forTarget_eq (target : Entry) (read : Rename.rules .standard renames = .ok rules) :
    Rule.forTarget rules target.name = (Rename.table target renames).map (Rename.override target.name) ∧
      ∀ entry ∈ Rename.table target renames, entry.1 ≠ "" := by
  unfold Rename.rules at read
  revert read
  generalize 1 = index
  intro read
  induction renames generalizing index rules with
  | nil =>
    cases read
    exact ⟨rfl, nofun⟩
  | cons r rest ih =>
    unfold Rename.rulesFrom at read
    cases first : r.rule .standard with
    | error e =>
      rw [first] at read
      cases read
    | ok rule =>
      rw [first] at read
      cases later : Rename.rulesFrom .standard (index + 1) rest with
      | error e =>
        simp only [later] at read
        cases read
      | ok others =>
        simp only [later] at read
        cases read
        obtain ⟨entry, found, named, rfl⟩ := Rename.rule_eq first
        obtain ⟨same, others⟩ := ih (index + 1) later
        have known := names_nonempty (List.mem_of_find?_eq_some found)
        unfold Rename.table Rule.forTarget at *
        by_cases towards : entry.name = target.name
        · rw [List.filter_cons_of_pos (by simp [towards]), List.filter_cons_of_pos (by simp [found, towards])]
          refine ⟨?_, List.forall_mem_cons.mpr ⟨named, others⟩⟩
          rw [List.map_cons, List.map_cons, same, towards]
        · rw [List.filter_cons_of_neg (by simp [towards, known]), List.filter_cons_of_neg (by simp [found, towards])]
          exact ⟨same, others⟩

private theorem split_of_pairwise {high : Rule → Bool} {list : List Rule}
    (ordered : list.Pairwise fun a b => high b = true → high a = true) :
    list = list.filter high ++ list.filter (!high ·) := by
  induction list with
  | nil => rfl
  | cons r rest ih =>
    obtain ⟨first, others⟩ := List.pairwise_cons.mp ordered
    by_cases ranks : high r = true
    · rw [List.filter_cons_of_pos ranks, List.filter_cons_of_neg (by simp [ranks]), List.cons_append, ← ih others]
    · have low : rest.filter high = [] := List.filter_eq_nil_iff.mpr fun b inside ranked =>
        ranks (first b inside ranked)
      rw [low, List.nil_append] at ih
      rw [List.filter_cons_of_neg ranks, low, List.filter_cons_of_pos (by simpa using ranks),
        List.nil_append, ← ih others]

private theorem exists_map_eq {α β : Type} {f : α → β} {xs : List β} {ys : List α} (perm : xs.Perm (ys.map f)) :
    ∃ zs : List α, xs = zs.map f ∧ zs.Perm ys := by
  have related : List.Forall₂ (fun x y => x = f y) (ys.map f) ys :=
    List.forall₂_map_left_iff.mpr (List.forall₂_same.mpr fun _ _ => rfl)
  obtain ⟨zs, equal, perm⟩ := List.perm_comp_forall₂ perm related
  refine ⟨zs, ?_, perm⟩
  rwa [← List.forall₂_map_right_iff, List.forall₂_eq_eq_eq] at equal

private theorem distinct_of_conflicts {target : String} {table : List (String × String)}
    (clear : (table.map (Rename.override target)).Pairwise fun a b => a.conflicts b = false) :
    (table.map Prod.fst).Nodup := by
  refine List.pairwise_map.mpr ((List.pairwise_map.mp clear).imp ?_)
  intro a b free same
  have conflict : (Rename.override target a).conflicts (Rename.override target b) = true := by
    simp [Rule.conflicts, Pattern.overlaps, same]
  rw [conflict] at free
  cases free

/-- Whether a rule ranks as high as the renames. -/
private def Rule.ranksHigh (r : Rule) : Bool := decide (Rename.priority ≤ r.priority)

@[simp] private theorem Rename.ranksHigh_override (target : String) (entry : String × String) :
    (Rename.override target entry).ranksHigh = true := by
  simp [Rule.ranksHigh]

/-- The own rules of a registered dialect rank below the renames. -/
private theorem registered_ranksLow {target : Entry} (member : target ∈ Registry.standard.entries) :
    ∀ r ∈ target.profile.outbound, r.ranksHigh = false := by
  obtain ⟨profile, known, rfl⟩ := List.mem_map.mp member
  clear member
  change ∀ r ∈ profile.outbound, r.ranksHigh = false
  revert profile
  decide +kernel

private theorem Rule.ranksHigh_of_before {a b : Rule} (before : a.before b = true) (high : b.ranksHigh = true) :
    a.ranksHigh = true := by
  have above : b.priority ≤ a.priority := by
    obtain (higher | ⟨same, _⟩) | ⟨same, _⟩ := Rule.before_iff.mp before <;> omega
  simp only [Rule.ranksHigh, decide_eq_true_eq] at high ⊢
  omega

private theorem ranksHigh_perm {target : Entry} (member : target ∈ Registry.standard.entries)
    {table : List (String × String)} {set : RuleSet}
    (accepted : RuleSet.ofList (target.profile.outbound ++ table.map (Rename.override target.name)) = .ok set) :
    ((set.inPhase .outbound).filter Rule.ranksHigh).Perm (table.map (Rename.override target.name)) := by
  have none : (target.profile.outbound.filter (·.phase == .outbound)).filter Rule.ranksHigh = [] := by
    refine List.filter_eq_nil_iff.mpr fun r inside => ?_
    simp [registered_ranksLow member r (List.mem_of_mem_filter inside)]
  have all : ((table.map (Rename.override target.name)).filter (·.phase == .outbound)).filter Rule.ranksHigh =
      table.map (Rename.override target.name) := by
    rw [List.filter_filter]
    refine List.filter_eq_self.mpr fun r inside => ?_
    obtain ⟨entry, _, rfl⟩ := List.mem_map.mp inside
    simp
  have perm := ((List.mergeSort_perm (target.profile.outbound ++ table.map (Rename.override target.name))
    Rule.before).filter (·.phase == .outbound)).filter Rule.ranksHigh
  rw [List.filter_append, List.filter_append, none, all] at perm
  rw [(RuleSet.ofList_ok accepted).2]
  exact perm

private theorem outbound_split {target : Entry} (member : target ∈ Registry.standard.entries)
    {table : List (String × String)} {list : List Rule}
    (built : Engine.outboundWith target (table.map (Rename.override target.name)) = .ok list) :
    (table.map Prod.fst).Nodup ∧ ∃ (pairs : List (String × String)) (own : List Rule),
      list = pairs.map (Rename.override target.name) ++ own ∧ pairs.Perm table ∧
      ∀ r ∈ own, r ∈ target.profile.outbound := by
  unfold Engine.outboundWith at built
  by_cases empty : table = []
  · subst empty
    cases built
    exact ⟨.nil, [], _, rfl, .nil, fun r inside => (Entry.mem_outbound member).mp inside⟩
  rw [if_neg (by simpa using empty)] at built
  cases accepted : RuleSet.ofList (target.profile.outbound ++ table.map (Rename.override target.name)) with
  | error fault =>
    rw [accepted] at built
    cases built
  | ok set =>
    have outbound : (table.map (Rename.override target.name)).find? (·.phase == .inbound) = none := by
      simp
    rw [accepted] at built
    simp only [outbound, bind, Except.bind, pure, Except.pure, Except.ok.injEq] at built
    subst built
    have clear := RuleSet.pairwise_of_firstConflict (RuleSet.ofList_ok accepted).1
    refine ⟨distinct_of_conflicts (List.pairwise_append.mp clear).2.1, ?_⟩
    -- The set is ordered by priority, and no rule of the dialect has that of a rename.
    obtain ⟨pairs, equal, perm⟩ := exists_map_eq (ranksHigh_perm member accepted)
    have split := split_of_pairwise ((RuleSet.pairwise_before accepted .outbound).imp Rule.ranksHigh_of_before)
    refine ⟨pairs, _, split.trans (by rw [equal]), perm, ?_⟩
    intro r inside
    obtain ⟨listed, ranked⟩ := List.mem_filter.mp inside
    obtain own | override := List.mem_append.mp ((RuleSet.mem_inPhase accepted r).mp listed).1
    · exact own
    · obtain ⟨entry, _, rfl⟩ := List.mem_map.mp override
      simp at ranked

private theorem setRules_ok {t next : Transpiler} (registry : t.registry = .standard)
    (accepted : t.setRules rules = .ok next) {target : Entry} (member : target ∈ Registry.standard.entries) :
    next.rules = rules ∧ ∃ list, Engine.outboundWith target (Rule.forTarget rules target.name) = .ok list := by
  unfold Transpiler.setRules at accepted
  cases fault : Transpiler.rulesFault? t.registry rules with
  | some fault =>
    rw [fault] at accepted
    cases accepted
  | none =>
    rw [fault] at accepted
    cases accepted
    refine ⟨rfl, ?_⟩
    rw [registry] at fault
    have listed : target ∈ Registry.standard.sorted := List.mem_mergeSort.mpr member
    have built := List.findSome?_eq_none_iff.mp fault target listed
    unfold Engine.build at built
    cases held : Engine.outboundWith target (Rule.forTarget rules target.name) with
    | error fault =>
      rw [held] at built
      cases built
    | ok list => exact ⟨list, rfl⟩

/-- No own rule of the target changes the node on the way from the source, whatever becomes of the trees that
rules send through the phase again. -/
def Entry.Ignores (target source : Entry) (n : Node) : Prop :=
  ∀ again, Rule.Silent target.profile.outbound ⟨source.dialect, target.dialect, again⟩ n

private theorem Entry.ignores_of_unmatched {target source : Entry} {nodes : List Node} (apart : ∀ n ∈ nodes,
    ∀ r ∈ target.profile.outbound, r.pattern.matches n ⟨source.dialect, target.dialect, .ok⟩ = false) :
    ∀ n ∈ nodes, target.Ignores source n :=
  fun n held _ r inside => Rule.fire_unmatched (apart n held r inside)

private theorem registered_named {entry : Entry} (member : entry ∈ Registry.standard.entries) :
    (∀ r ∈ entry.profile.outbound, r.pattern.name ≠ "") ∨ entry.profile.outbound = Doris.rules := by
  obtain ⟨profile, known, rfl⟩ := List.mem_map.mp member
  have checked : ∀ profile ∈ [ClickHouse.profile, Hive.profile, MySql.profile, Oracle.profile, Postgres.profile,
      Presto.profile, Snowflake.profile, Spark.profile, Teradata.profile, Presto.trino],
      ∀ r ∈ profile.outbound, r.pattern.name ≠ "" := by
    decide +kernel
  obtain rfl | other := List.mem_cons.mp (List.perm_middle.mem_iff.mp
    (show profile ∈ [ClickHouse.profile] ++ Doris.profile :: [Hive.profile, MySql.profile,
      Oracle.profile, Postgres.profile,
      Presto.profile, Snowflake.profile, Spark.profile, Teradata.profile, Presto.trino] from known))
  · exact .inr rfl
  · exact .inl (checked profile other)

private theorem Entry.ignores_marked {target source : Entry}
    (member : target ∈ Registry.standard.entries) (place : Place)
    (e : Expr) : target.Ignores source (.expr (.repeated place e)) := by
  intro again r inside
  obtain named | doris := registered_named member
  · refine Rule.fire_unmatched ?_
    simp [Pattern.matches, Node.name, named r inside]
  · -- A pattern without a name matches the mark as well, but what the rule asks of the node is not there.
    rw [doris] at inside
    simp only [Doris.rules, List.mem_cons, List.not_mem_nil, or_false] at inside
    obtain rfl | rfl | rfl | rfl | rfl | rfl | rfl := inside <;> exact ite_self _

/-- With accepted renames in force there is an engine towards every dialect, and where the dialect's own rules
ask for nothing its step renames calls. -/
private theorem build_renames (read : Rename.rules .standard renames = .ok rules) {t next : Transpiler}
    (registry : t.registry = .standard) (accepted : t.setRules rules = .ok next) (source : Entry) {target : Entry}
    (member : target ∈ Registry.standard.entries) :
    ((Rename.table target renames).map Prod.fst).Nodup ∧
    ∃ e, Engine.build source target (Rule.forTarget next.rules target.name) = .ok e ∧
      ∀ again, Step.Renames (Rule.settle ⟨e.source, e.target, again⟩ e.outbound.length e.outbound)
        (follow (Rename.table target renames)) (target.Ignores source) := by
  obtain ⟨same, list, built⟩ := setRules_ok registry accepted member
  obtain ⟨table, named⟩ := forTarget_eq target read
  rw [table] at built
  obtain ⟨distinct, pairs, own, rfl, perm, part⟩ := outbound_split member built
  have apart := (perm.map Prod.fst).nodup_iff.mpr distinct
  refine ⟨distinct, ⟨source.dialect, target.dialect, source.rules.inPhase .inbound,
    pairs.map (Rename.override target.name) ++ own⟩, ?_, fun again => ?_⟩
  · rw [same, table, Engine.build, built]
    rfl
  · rw [← follow_perm apart perm]
    exact settle_renames rfl (fun entry inside => named entry (perm.mem_iff.mp inside)) apart (by simp)
      (fun n ignored r inside => ignored again r (part r inside)) fun place e _ => Entry.ignores_marked member place e

end

/-- The walk of an engine at a depth. -/
def Engine.walk (e : Engine) (rules : List Rule) (depth : Nat) : Pass :=
  Step.pass (Rule.settle ⟨e.source, e.target, e.run rules depth⟩ rules.length rules) depth

private theorem Call.name_adaptParts {p : Pass} {c d : Call} (adapted : c.adaptParts p = .ok d) : d.name = c.name := by
  cases c
  simp only [Call.adaptParts, bind, Except.bind] at adapted
  iterate 3
    split at adapted
    · cases adapted
  cases adapted
  rfl

/-- Towards a dialect with accepted renames every call, wherever it stands and whatever is done around it, gets
the name at the end of the renames that start with its own and keeps what it has, if no own rule of the dialect
asks for calls of that name. A statement changes in nothing else where the dialect's own rules ask for none of
the nodes. A new name that is not renamed in its turn is the end. -/
theorem renames_followed {renames : List Rename} {rules : List Rule} (read : Rename.rules .standard renames = .ok rules)
    {t next : Transpiler} (registry : t.registry = .standard) (accepted : t.setRules rules = .ok next)
    (source : Entry) {target : Entry} (member : target ∈ Registry.standard.entries) :
    ∃ e, Engine.build source target (Rule.forTarget next.rules target.name) = .ok e ∧
      (∀ function newName, (function, newName) ∈ Rename.table target renames →
        (∀ entry ∈ Rename.table target renames, entry.1 ≠ newName) →
        follow (Rename.table target renames) function = newName) ∧
      (∀ depth c d, c.adaptParts (e.walk e.outbound depth).inner = .ok d →
        target.Ignores source (.expr (.call (d.named (follow (Rename.table target renames))))) →
        d.name = c.name ∧ (Expr.call c).adapt (e.walk e.outbound depth) =
          .ok (.call (d.named (follow (Rename.table target renames))))) ∧
      ∀ s : Statement, (∀ n ∈ (s.rename (follow (Rename.table target renames))).nodes, target.Ignores source n) →
        e.phase e.outbound (.statement s) = .ok (.statement (s.rename (follow (Rename.table target renames)))) := by
  obtain ⟨distinct, e, built, step⟩ := build_renames read registry accepted source member
  have settled := funext (follow_follow (Rename.table target renames))
  refine ⟨e, built, ?_, ?_, ?_⟩
  · intro function newName inside last
    rw [follow_some ((lookup_iff_mem distinct).mpr inside)]
    refine follow_none (List.lookup_eq_none_iff.mpr fun entry kept => ?_)
    simpa using Ne.symm (last entry (List.mem_of_mem_filter kept))
  · intro depth c d adapted ignored
    have walk : (e.walk e.outbound depth).Renames _ _ _ := (step _).pass settled depth
    refine ⟨Call.name_adaptParts adapted, ?_⟩
    rw [Expr.adapt, adapted]
    exact walk.expr_call fun _ => ignored
  · intro s ignored
    exact (step _).adapt_statement settled _ ignored

/-! ### Renames that meet -/

private theorem outboundWith_ok {target : Entry} {table : List (String × String)} (fits : table = [] ∨
    RuleSet.fault? (target.profile.outbound ++ table.map (Rename.override target.name)) = none) :
    ∃ list, Engine.outboundWith target (table.map (Rename.override target.name)) = .ok list := by
  obtain rfl | clear := fits
  · exact ⟨_, rfl⟩
  · unfold Engine.outboundWith
    split
    · exact ⟨_, rfl⟩
    · have outbound : (table.map (Rename.override target.name)).find? (·.phase == .inbound) = none := by
        simp
      rw [RuleSet.ofList_eq_ok clear]
      simp only [outbound]
      exact ⟨_, rfl⟩

private theorem renames_accepted {renames : List Rename} (read : (Rename.rules .standard renames).isOk = true)
    (fits : ∀ entry ∈ Registry.standard.entries, Rename.table entry renames = [] ∨
      RuleSet.fault? (entry.profile.outbound ++ (Rename.table entry renames).map (Rename.override entry.name)) = none) :
    ∃ rules next, Rename.rules .standard renames = .ok rules ∧ ({} : Transpiler).setRules rules = .ok next := by
  cases given : Rename.rules .standard renames with
  | error e =>
    rw [given] at read
    cases read
  | ok rules =>
    have clear : Transpiler.rulesFault? .standard rules = none := by
      refine List.findSome?_eq_none_iff.mpr fun entry listed => ?_
      obtain ⟨list, built⟩ := outboundWith_ok (fits entry (List.mem_mergeSort.mp listed))
      rw [Engine.build, (forTarget_eq entry given).1, built]
      rfl
    exact ⟨rules, ({} : Transpiler).swap rules, rfl, by rw [Transpiler.setRules, clear]⟩

/-- Two renames of which the second one takes over from the first. -/
def Rename.chain : List Rename := [⟨"postgres", "f", "G"⟩, ⟨"postgres", "g", "H"⟩]

private theorem chain_accepted : ∃ rules next, Rename.rules .standard Rename.chain = .ok rules ∧
    ({} : Transpiler).setRules rules = .ok next :=
  renames_accepted (by decide +kernel) (by decide +kernel)

private theorem follow_chain : ∀ name ∈ ["F", "G"],
    follow (Rename.table (Entry.ofProfile Postgres.profile) Rename.chain) name = "H" := by
  decide +kernel

-- Renames in a circle lead back to where they start.
example : follow [("F", "G"), ("G", "H"), ("H", "F")] "G" = "G" := by decide +kernel

/-- The statement that selects one value. -/
def Statement.selecting (e : Expr) : Statement := .query (.select { items := [⟨e, none⟩] })

private theorem rename_selecting (f : String → String) (e : Expr) :
    (Statement.selecting e).rename f = .selecting (e.renameWith f f) := rfl

private theorem renameWith_fn (f : String → String) (name : String) (args : List Expr) :
    (Expr.fn name args).renameWith f f = .fn (f name) (renameExprs f args) := rfl

/-- A rename can take over from another one: calls of `F` do not get the name that their rename gives. -/
theorem chained_rename_overtaken : ∃ rules next e, Rename.rules .standard Rename.chain = .ok rules ∧
    ({} : Transpiler).setRules rules = .ok next ∧
    Engine.build (Entry.ofProfile MySql.profile) (Entry.ofProfile Postgres.profile)
      (Rule.forTarget next.rules "postgres") = .ok e ∧
    ("F", "G") ∈ Rename.table (Entry.ofProfile Postgres.profile) Rename.chain ∧
    e.phase e.outbound (.statement (.selecting (.fn "F" [.col "x"]))) =
      .ok (.statement (.selecting (.fn "H" [.col "x"]))) := by
  obtain ⟨rules, next, read, accepted⟩ := chain_accepted
  obtain ⟨_, e, built, step⟩ := build_renames read rfl accepted (Entry.ofProfile MySql.profile)
    (show Entry.ofProfile Postgres.profile ∈ Registry.standard.entries by simp [Registry.standard])
  refine ⟨rules, next, e, read, accepted, built, by decide +kernel, ?_⟩
  have ignored : ∀ n ∈ ((Statement.selecting (.fn "F" [.col "x"])).rename (follow (Rename.table
      (Entry.ofProfile Postgres.profile) Rename.chain))).nodes,
      (Entry.ofProfile Postgres.profile).Ignores (Entry.ofProfile MySql.profile) n :=
    Entry.ignores_of_unmatched (by decide +kernel)
  have renamed : e.phase e.outbound (.statement (.selecting (.fn "F" [.col "x"]))) = _ :=
    (step _).adapt_statement (funext (follow_follow _)) _ ignored
  rw [renamed, rename_selecting, renameWith_fn, follow_chain "F" (by simp)]
  rfl

/-- Calls of both functions get the last name. -/
theorem nested_calls_followed : ∃ rules next e, Rename.rules .standard Rename.chain = .ok rules ∧
    ({} : Transpiler).setRules rules = .ok next ∧
    Engine.build (Entry.ofProfile MySql.profile) (Entry.ofProfile Postgres.profile)
      (Rule.forTarget next.rules "postgres") = .ok e ∧
    follow (Rename.table (Entry.ofProfile Postgres.profile) Rename.chain) "G" = "H" ∧
    e.phase e.outbound (.statement (.selecting (.fn "F" [.fn "G" [.col "x"], .col "y"]))) =
      .ok (.statement (.selecting (.fn "H" [.fn "H" [.col "x"], .col "y"]))) := by
  obtain ⟨rules, next, read, accepted⟩ := chain_accepted
  obtain ⟨e, built, last, _, whole⟩ := renames_followed read rfl accepted (Entry.ofProfile MySql.profile)
    (show Entry.ofProfile Postgres.profile ∈ Registry.standard.entries by simp [Registry.standard])
  refine ⟨rules, next, e, read, accepted, built, last "G" "H" (by decide +kernel) (by decide +kernel), ?_⟩
  have ignored : ∀ n ∈ ((Statement.selecting (.fn "F" [.fn "G" [.col "x"], .col "y"])).rename (follow (Rename.table
      (Entry.ofProfile Postgres.profile) Rename.chain))).nodes,
      (Entry.ofProfile Postgres.profile).Ignores (Entry.ofProfile MySql.profile) n :=
    Entry.ignores_of_unmatched (by decide +kernel)
  rw [whole _ ignored, rename_selecting, renameWith_fn, renameExprs, renameWith_fn, follow_chain "F" (by simp),
    follow_chain "G" (by simp)]
  rfl

end SqlDialects
