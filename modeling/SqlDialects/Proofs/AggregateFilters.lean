import SqlDialects.Doris.Rules

/-! Aggregates over the rows that satisfy a condition, with the condition folded into their first argument. An
aggregate that passes over `NULL` has the same value on all rows as it had on the rows where the condition is true. Of
the calls over `*` this holds for the plain `COUNT(*)`: for others the argument is lost. -/

namespace SqlDialects

/-- What an aggregate sees of a row: the values of its arguments and of the expressions that it orders by, `none` for
`NULL`. -/
structure Occurrence (α : Type) where
  args : List (Option α)
  keys : List (Option α)

def Occurrence.first {α : Type} (o : Occurrence α) : Option α := o.args.head?.join

/-- Values of expressions in rows, and of aggregates over what they see of the rows. An aggregate is known by its name
and by whether it is `DISTINCT`; its order has a direction for each of the expressions it orders by. -/
structure Evaluation (ρ α : Type) where
  value : ρ → Expr → Option α
  isTrue : α → Bool
  number : Nat → α
  aggregate : (name : String) → (distinct : Bool) → (order : List (Bool × Option Bool)) → List (Occurrence α) → Option α

namespace Evaluation

variable {ρ α : Type} (E : Evaluation ρ α)

/-- Whether a condition is true in a row, so neither false nor unknown. -/
def holds (condition : Expr) (row : ρ) : Bool := (E.value row condition).any E.isTrue

def selects (f : Call) (row : ρ) : Bool := f.filter.all (E.holds · row)

def sees (f : Call) (row : ρ) : Occurrence α :=
  ⟨f.args.map (E.value row), f.orderBy.map fun item => E.value row item.expr⟩

/-- The value of a call of an aggregate on a table. -/
def call (f : Call) (rows : List ρ) : Option α :=
  E.aggregate f.name f.distinct (f.orderBy.map fun item => (item.descending, item.nullsFirst))
    ((rows.filter (E.selects f)).map (E.sees f))

theorem call_filter {f : Call} {condition : Expr} (filtered : f.filter = some condition) (rows : List ρ) :
    E.call f rows = E.call { f with filter := none } (rows.filter (E.holds condition)) := by
  have selects : E.selects f = E.holds condition := by
    funext row
    rw [selects, filtered, Option.all_some]
  have all (rows : List ρ) : rows.filter (E.selects { f with filter := none }) = rows :=
    List.filter_eq_self.mpr fun row _ => by simp [Evaluation.selects]
  rw [call, call, selects, all]
  rfl

/-- The aggregate of a call passes over the rows in which its first argument is `NULL`. -/
def Ignores (f : Call) : Prop := ∀ order seen,
  E.aggregate f.name f.distinct order seen = E.aggregate f.name f.distinct order (seen.filter (·.first.isSome))

/-- What is known of expressions and of `COUNT`, which counts the rows where its argument is not `NULL` and thus, for
`*`, all rows. -/
structure Lawful : Prop where
  caseWhen : ∀ row pos condition result, E.value row (.caseWhen pos none [⟨condition, result⟩] none) =
    if E.holds condition row then E.value row result else none
  one : ∀ row, (E.value row (.num "1")).isSome
  star : ∀ row pos, (E.value row (.star pos [])).isSome
  count : ∀ order seen, E.aggregate "COUNT" false order seen = some (E.number (seen.countP (·.first.isSome)))

end Evaluation

namespace Doris

/-- The first argument is no `*`, but for that of the plain `COUNT(*)`. -/
def Foldable (f : Call) : Prop := ∀ pos table rest, f.args = .star pos table :: rest →
  f.name = "COUNT" ∧ f.distinct = false ∧ table = []

variable {ρ α : Type}

/-- Rows that are not selected are not counted after the change, and the others are seen as before. -/
private theorem filter_sees {seen seen' : ρ → Occurrence α} {selects : ρ → Bool} (rows : List ρ)
    (same : ∀ row, selects row = true → seen' row = seen row)
    (dropped : ∀ row, selects row = false → (seen' row).first = none) :
    (rows.map seen').filter (·.first.isSome) = ((rows.filter selects).map seen).filter (·.first.isSome) := by
  induction rows with
  | nil => rfl
  | cons row rows ih =>
    cases selected : selects row with
    | true => rw [List.map_cons, List.filter_cons_of_pos selected, List.map_cons,
        same row selected, List.filter_cons, ih,
        List.filter_cons]
    | false =>
      rw [List.map_cons, List.filter_cons_of_neg (by simp [dropped row selected]), ih,
        List.filter_cons_of_neg (by simp [selected])]

/-- The call without its condition, which stands in its first argument now. -/
def folded (f : Call) (condition x : Expr) (rest : List Expr) : Call :=
  { f with filter := none, args := .caseWhen condition.pos none [⟨condition, x⟩] none :: rest }

variable {E : Evaluation ρ α} (lawful : E.Lawful) {f : Call} {condition x : Expr} {rest : List Expr}

include lawful

private theorem first_folded (row : ρ) : (E.sees (folded f condition x rest) row).first =
    if E.holds condition row then E.value row x else none := by
  simp [Evaluation.sees, Occurrence.first, folded, lawful.caseWhen]

omit lawful in
private theorem call_folded (rows : List ρ) : E.call (folded f condition x rest) rows =
    E.aggregate f.name f.distinct (f.orderBy.map fun item => (item.descending, item.nullsFirst))
      (rows.map (E.sees (folded f condition x rest))) := by
  have all : rows.filter (E.selects (folded f condition x rest)) = rows :=
    List.filter_eq_self.mpr fun row _ => by simp [Evaluation.selects, folded]
  rw [Evaluation.call, all]
  rfl

/-- An aggregate that passes over `NULL` passes over the rows for which the condition is not true. -/
private theorem folded_ignoring (filtered : f.filter = some condition)
    (given : f.args = x :: rest) (ignores : E.Ignores f)
    (rows : List ρ) : E.call (folded f condition x rest) rows = E.call f rows := by
  have selects (row : ρ) : E.selects f row = E.holds condition row := by simp [Evaluation.selects, filtered]
  have kept : (rows.map (E.sees (folded f condition x rest))).filter (·.first.isSome) =
      ((rows.filter (E.selects f)).map (E.sees f)).filter (·.first.isSome) := by
    refine filter_sees rows (fun row selected => ?_) fun row dropped => ?_
    · rw [selects] at selected
      simp [Evaluation.sees, folded, given, lawful.caseWhen, selected]
    · rw [selects] at dropped
      simp [first_folded lawful, dropped]
  rw [call_folded, Evaluation.call, ignores, kept, ← ignores]

private theorem folded_counting {pos : Position} (filtered : f.filter = some condition)
    (given : f.args = .star pos [] :: rest)
    (named : f.name = "COUNT") (plain : f.distinct = false) (rows : List ρ) :
    E.call (folded f condition (.num "1") rest) rows = E.call f rows := by
  have same (row : ρ) : (E.sees (folded f condition (.num "1") rest) row).first.isSome =
      ((E.sees f row).first.isSome && E.selects f row) := by
    have star : (E.sees f row).first.isSome = true := by simp [Evaluation.sees, Occurrence.first, given, lawful.star]
    have one := lawful.one row
    rw [first_folded lawful, star, Bool.true_and, Evaluation.selects, filtered, Option.all_some]
    split
    · next holds => rw [one, holds]
    · next holds => rw [Bool.eq_false_iff.mpr holds, Option.isSome_none]
  rw [call_folded, Evaluation.call, named, plain, lawful.count, lawful.count, List.countP_map, List.countP_map,
    List.countP_filter]
  simp only [Function.comp_def, same]

omit lawful

/-- A condition on an aggregate is folded into its first argument, and all else stays. On every table the aggregate
has the value that it had on the rows where the condition is true, if it passes over `NULL` or is the plain
`COUNT(*)`. -/
theorem filterToCase_keeps_value (filtered : f.filter = some condition)
    (named : f.name ≠ "SUM") (given : f.args = x :: rest)
    (foldable : Foldable f) : ∃ g, filterToCase f = some g ∧ g.filter = none ∧
      (g.name = f.name ∧ g.distinct = f.distinct ∧ g.orderBy = f.orderBy ∧ g.args.tail = rest) ∧
      ∀ {ρ α : Type} (E : Evaluation ρ α), E.Lawful → E.Ignores f → ∀ rows,
        E.call g rows = E.call { f with filter := none } (rows.filter (E.holds condition)) := by
  by_cases star : ∃ pos table, x = .star pos table
  · obtain ⟨pos, table, rfl⟩ := star
    obtain ⟨counts, plain, rfl⟩ := foldable pos table rest given
    refine ⟨folded f condition (.num "1") rest, ?_, rfl, ⟨rfl, rfl, rfl, rfl⟩, fun E lawful _ rows => ?_⟩
    · simp [filterToCase, filtered, given, named, folded]
    · rw [← E.call_filter filtered, folded_counting lawful filtered given counts plain]
  · refine ⟨folded f condition x rest, ?_, rfl, ⟨rfl, rfl, rfl, rfl⟩, fun E lawful ignores rows => ?_⟩
    · cases x with
      | star pos table => exact absurd ⟨pos, table, rfl⟩ star
      | _ => simp [filterToCase, filtered, given, named, folded]
    · rw [← E.call_filter filtered, folded_ignoring lawful filtered given ignores]

/-! ### Rows that are numbers -/

/-- Columns and whole rows are the number of the row; conditions on them tell zero from others. -/
def numberIn (row : Nat) : Expr → Option Nat
  | .caseWhen _ none [⟨condition, result⟩] none =>
    if (numberIn row condition).any (· != 0) then numberIn row result else none
  | .column .. | .star .. => some row
  | _ => some 1
termination_by e => sizeOf e

/-- Every aggregate counts the values that are not `NULL`, or only the different ones of them. -/
def counting : Evaluation Nat Nat where
  value := numberIn
  isTrue n := n != 0
  number n := n
  aggregate _ distinct _ seen :=
    let values := seen.filterMap Occurrence.first
    some (if distinct then values.eraseDups.length else values.length)

private theorem filterMap_first (seen : List (Occurrence Nat)) :
    (seen.filter (·.first.isSome)).filterMap Occurrence.first = seen.filterMap Occurrence.first := by
  induction seen with
  | nil => rfl
  | cons o seen ih => cases value : o.first <;> simp [value, ih]

theorem counting_lawful : counting.Lawful where
  caseWhen row pos condition result := by
    simp only [counting, Evaluation.holds]
    rw [numberIn]
    rfl
  one row := by simp [counting, Expr.num, numberIn]
  star row pos := by simp [counting, numberIn]
  count order seen := by simp [counting, List.length_filterMap_eq_countP]

theorem counting_ignores (f : Call) : counting.Ignores f := fun _ seen => by simp only [counting, filterMap_first]

/-- `COUNT(DISTINCT x) FILTER (WHERE a)`. -/
def countDistinct (x : Expr) : Call :=
  { name := "COUNT", args := [x], distinct := true, filter := some (.column {} [⟨"a", false⟩]) }

/-- The different values of a column in the rows where it is not zero. -/
theorem distinct_values_counted : ∃ g, filterToCase (countDistinct (.column {} [⟨"a", false⟩])) =
    some g ∧ g.filter = none ∧
    counting.call g [0, 1, 2, 2] = some 2 := by
  obtain ⟨g, made, none, -, exact⟩ := filterToCase_keeps_value (f :=
    countDistinct (.column {} [⟨"a", false⟩])) rfl (by decide)
    rfl (by rintro _ _ _ ⟨⟩)
  refine ⟨g, made, none, ?_⟩
  rw [exact counting counting_lawful (counting_ignores _)]
  simp [countDistinct, Evaluation.call, List.filter_cons, Evaluation.holds, Evaluation.selects, Evaluation.sees,
    Occurrence.first, counting, numberIn]
  decide

/-- Two different rows of a table are counted as one: a one stands in the place of either. -/
theorem distinct_rows_lost : ∃ g, filterToCase (countDistinct (.star {} [⟨"t", false⟩])) = some g ∧
    ∃ E : Evaluation Nat Nat, E.Lawful ∧ E.Ignores (countDistinct (.star {} [⟨"t", false⟩])) ∧
      E.call g [1, 2] ≠ E.call { countDistinct (.star {} [⟨"t", false⟩]) with filter := none }
        ([1, 2].filter (E.holds (.column {} [⟨"a", false⟩]))) := by
  refine ⟨folded (countDistinct (.star {} [⟨"t", false⟩])) (.column {} [⟨"a", false⟩]) (.num "1") [], rfl, counting,
    counting_lawful, counting_ignores _, ?_⟩
  simp [countDistinct, folded, Evaluation.call, List.filter_cons, Evaluation.holds, Evaluation.selects, Evaluation.sees,
    Occurrence.first, counting, numberIn, Expr.num]
  decide

end Doris

end SqlDialects
