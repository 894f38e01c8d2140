import Mathlib.Data.List.TakeWhile
import SqlDialects.Proofs.Decimals

/-! Intervals with a fractional number in finer units. Units that have a finer one form chains that end after a few
steps. A fractional number is carried down its chain to the first unit in which it is whole, and nothing is lost on
the way. -/

namespace SqlDialects

namespace DateUnit

/-- The unit some steps down the chain of finer units, and how many of it one of the given unit is. -/
def finerBy : Nat → String → Option (Int × String)
  | 0, unit => some (1, unit)
  | steps + 1, unit => do
    let (next, factor) ← finer.lookup unit
    let (n, last) ← finerBy steps next
    return (factor * n, last)

variable {unit : String}

theorem finerBy_succ {steps : Nat} {n : Int} {last : String} : finerBy (steps + 1) unit = some (n, last) ↔
    ∃ next factor m, finer.lookup unit = some (next, factor) ∧
    finerBy steps next = some (m, last) ∧ factor * m = n := by
  rw [finerBy]
  cases finer.lookup unit with
  | none => simp
  | some entry =>
    obtain ⟨next, factor⟩ := entry
    cases found : finerBy steps next with
    | none => simp [found]
    | some reached =>
      obtain ⟨m, unit'⟩ := reached
      simp [found, and_comm]

/-- How many entries the table of finer units has from a unit on. -/
private def entriesFrom (unit : String) : Nat := (finer.dropWhile (·.1 != unit)).length

private theorem entriesFrom_finer : ∀ entry ∈ finer, entriesFrom entry.2.1 < entriesFrom entry.1 := by
  decide

/-- Every step goes forward in the table, so a chain has at most as many steps as the table has entries. -/
theorem finerBy_short {steps : Nat} {n : Int} {last : String} (reached : finerBy steps unit = some (n, last)) :
    steps ≤ finer.length := by
  suffices ahead : steps ≤ entriesFrom unit from le_trans ahead (List.length_dropWhile_le ..)
  induction steps generalizing unit n with
  | zero => exact Nat.zero_le _
  | succ steps ih =>
    obtain ⟨next, factor, m, found, rest, -⟩ := finerBy_succ.mp reached
    obtain ⟨before, after, entries, -⟩ := List.lookup_eq_some_iff.mp found
    have member : (unit, next, factor) ∈ finer := by rw [entries]; simp
    exact Nat.succ_le_of_lt (lt_of_le_of_lt (ih rest) (entriesFrom_finer _ member))

end DateUnit

open DateUnit

/-- The number has no fraction. -/
def IsWhole (v : ℚ) : Prop := ∃ n : Int, v = n

/-- The number of a unit is whole after some steps down the chain, in a unit that is `n` times finer, and not before. -/
structure FirstWhole (v : ℚ) (unit : String) (steps : Nat) (n : Int) (last : String) : Prop where
  reached : finerBy steps unit = some (n, last)
  whole : IsWhole (v * n)
  first : ∀ fewer < steps, ∀ m between, finerBy fewer unit = some (m, between) → ¬IsWhole (v * m)

variable {v : ℚ} {unit last : String} {steps : Nat} {n : Int}

private theorem firstWhole_here (whole : IsWhole v) :
    FirstWhole v unit steps n last ↔ steps = 0 ∧ n = 1 ∧ last = unit := by
  have once : IsWhole (v * (1 : Int)) := by rwa [Int.cast_one, mul_one]
  constructor
  · intro found
    obtain rfl | later := Nat.eq_zero_or_pos steps
    · obtain ⟨rfl, rfl⟩ : (1, unit) = (n, last) := Option.some.inj found.reached
      exact ⟨rfl, rfl, rfl⟩
    · exact absurd once (found.first 0 later 1 unit rfl)
  · rintro ⟨rfl, rfl, rfl⟩
    exact ⟨rfl, once, fun fewer earlier => absurd earlier (Nat.not_lt_zero fewer)⟩

private theorem firstWhole_later (fractional : ¬IsWhole v) : FirstWhole v unit steps n last ↔
    ∃ fewer next factor m, steps = fewer + 1 ∧ finer.lookup unit = some (next, factor) ∧ n = factor * m ∧
      FirstWhole (v * factor) next fewer m last := by
  constructor
  · rintro ⟨reached, whole, first⟩
    obtain _ | fewer := steps
    · obtain ⟨rfl, rfl⟩ : (1, unit) = (n, last) := Option.some.inj reached
      rw [Int.cast_one, mul_one] at whole
      exact absurd whole fractional
    · obtain ⟨next, factor, m, entry, rest, rfl⟩ := finerBy_succ.mp reached
      rw [Int.cast_mul, ← mul_assoc] at whole
      refine ⟨fewer, next, factor, m, rfl, entry, rfl, rest, whole, fun earlier before k between found => ?_⟩
      have missed := first (earlier + 1) (Nat.succ_lt_succ before) _ between
        (finerBy_succ.mpr ⟨next, factor, k, entry, found, rfl⟩)
      rwa [Int.cast_mul, ← mul_assoc] at missed
  · rintro ⟨fewer, next, factor, m, rfl, entry, rfl, reached, whole, first⟩
    refine ⟨finerBy_succ.mpr ⟨next, factor, m, entry, reached, rfl⟩, by rwa [Int.cast_mul, ← mul_assoc], ?_⟩
    rintro (_ | earlier) before k between found
    · obtain ⟨rfl, rfl⟩ : (1, unit) = (k, between) := Option.some.inj found
      rwa [Int.cast_one, mul_one]
    · obtain ⟨_, _, k, entry', rest, rfl⟩ := finerBy_succ.mp found
      obtain ⟨rfl, rfl⟩ : (next, factor) = _ := Option.some.inj (entry.symm.trans entry')
      rw [Int.cast_mul, ← mul_assoc]
      exact first earlier (Nat.lt_of_succ_lt_succ before) k between rest

theorem exists_firstWhole (reached : finerBy steps unit = some (n, last)) (whole : IsWhole (v * n)) :
    ∃ steps n last, FirstWhole v unit steps n last := by
  classical
  have some : ∃ steps n last, finerBy steps unit = some (n, last) ∧ IsWhole (v * n) := ⟨steps, n, last, reached, whole⟩
  obtain ⟨n, last, reached, whole⟩ := Nat.find_spec some
  exact ⟨Nat.find some, n, last, reached, whole, fun fewer earlier m between found whole =>
    Nat.find_min some earlier ⟨m, between, found, whole⟩⟩

/-- The search finds the first whole number, if the chain is not longer than the search. -/
private theorem refine_eq_some {fuel : Nat} {d w : Decimal} : Expr.refine fuel d unit = some (w, last) ↔
    ∃ steps < fuel, ∃ n, FirstWhole d.value unit steps n last ∧ w = d.mul (.ofInt n) := by
  induction fuel generalizing d unit with
  | zero => simp [Expr.refine]
  | succ fuel ih =>
    rw [Expr.refine]
    by_cases integral : d.isIntegral
    · have once : d.mul (.ofInt 1) = d := by simp [Decimal.mul, Decimal.ofInt]
      simp [integral, firstWhole_here ((Decimal.isIntegral_iff d).mp integral), once, and_comm, eq_comm]
    rw [if_neg integral]
    simp only [firstWhole_later fun whole => integral ((Decimal.isIntegral_iff d).mpr whole)]
    cases finer.lookup unit with
    | none => simp
    | some entry =>
      obtain ⟨next, factor⟩ := entry
      have twice (m : Int) : (d.mul (.ofInt factor)).mul (.ofInt m) = d.mul (.ofInt (factor * m)) := by
        simp [Decimal.mul, Decimal.ofInt, mul_assoc]
      simp only [ih, Decimal.value_mul, Decimal.value_ofInt]
      constructor
      · rintro ⟨steps, inside, m, found, rfl⟩
        exact ⟨steps + 1, Nat.succ_lt_succ inside, factor * m, ⟨steps, next, factor, m, rfl, rfl, rfl, found⟩, twice m⟩
      · rintro ⟨_, inside, _, ⟨steps, _, _, m, rfl, ⟨⟩, rfl, found⟩, rfl⟩
        exact ⟨steps, Nat.lt_of_succ_lt_succ inside, m, found, (twice m).symm⟩

/-- No chain is longer than the search. -/
private theorem search_eq_some {d w : Decimal} : Expr.refine (finer.length + 1) d unit = some (w, last) ↔
    ∃ steps n, FirstWhole d.value unit steps n last ∧ w = d.mul (.ofInt n) := by
  rw [refine_eq_some]
  constructor
  · rintro ⟨steps, -, n, found, product⟩
    exact ⟨steps, n, found, product⟩
  · rintro ⟨steps, n, found, product⟩
    exact ⟨steps, Nat.lt_succ_of_le (finerBy_short found.reached), n, found, product⟩

/-- A fractional number of a unit becomes a whole number of the first unit of the chain that allows one, written
without a point. It stays as it is if no unit of the chain does. -/
theorem integralInterval?_first {text : String} (decimal : Decimal.number? text = some v) (pos litPos : Position)
    (kind : LiteralKind) (unit : String) :
    (∀ e, Expr.integralInterval? pos (.literal litPos kind text) unit = some e ↔
      ¬IsWhole v ∧ ∃ steps n last, FirstWhole v unit steps n last ∧
        ∃ whole : Int, v * n = whole ∧ e = .interval pos (.literal litPos .number whole.repr) last) ∧
    (Expr.integralInterval? pos (.literal litPos kind text) unit = none ↔
      IsWhole v ∨ ∀ steps n last, finerBy steps unit = some (n, last) → ¬IsWhole (v * n)) := by
  obtain ⟨d, read, rfl⟩ := Option.map_eq_some_iff.mp decimal
  have integral := Decimal.isIntegral_iff d
  by_cases whole : IsWhole d.value
  · have none : Expr.integralInterval? pos (.literal litPos kind text) unit = none := by
      simp [Expr.integralInterval?, read, integral.mpr whole]
    rw [none]
    exact ⟨fun e => iff_of_false (by simp) fun fractional => fractional.1 whole, iff_of_true rfl (.inl whole)⟩
  have search : Expr.integralInterval? pos (.literal litPos kind text) unit =
      (Expr.refine (finer.length + 1) d unit).map fun found =>
      .interval pos (.literal litPos .number found.1.toText) found.2 := by
    have fractional : d.isIntegral = false := Bool.eq_false_iff.mpr fun found => whole (integral.mp found)
    simp only [Expr.integralInterval?, read, Option.bind_eq_bind, Option.bind_some, fractional,
      Bool.false_eq_true, if_false]
    rw [Option.map_eq_bind]
    rfl
  rw [search]
  refine ⟨fun e => ?_, ?_⟩
  · rw [Option.map_eq_some_iff, and_iff_right whole]
    constructor
    · rintro ⟨⟨w, last⟩, found, rfl⟩
      obtain ⟨steps, n, first, rfl⟩ := search_eq_some.mp found
      obtain ⟨number, exact⟩ := first.whole
      refine ⟨steps, n, last, first, number, exact, ?_⟩
      rw [Decimal.toText_whole (n := number) (by simpa using exact)]
    · rintro ⟨steps, n, last, first, number, exact, rfl⟩
      refine ⟨(d.mul (.ofInt n), last), search_eq_some.mpr ⟨steps, n, first, rfl⟩, ?_⟩
      rw [Decimal.toText_whole (n := number) (by simpa using exact)]
  · rw [Option.map_eq_none_iff, or_iff_right whole]
    constructor
    · intro lost steps n last reached exact
      obtain ⟨steps, n, last, first⟩ := exists_firstWhole reached exact
      rw [search_eq_some.mpr ⟨steps, n, first, rfl⟩] at lost
      cases lost
    · intro nowhere
      rw [Option.eq_none_iff_forall_ne_some]
      rintro ⟨w, last⟩ found
      obtain ⟨steps, n, first, -⟩ := search_eq_some.mp found
      exact nowhere steps n last first.reached first.whole

/-- One and a half weeks are 252 hours, since ten and a half days are not a whole number of days. -/
theorem integralInterval?_weeks : Decimal.number? "1.5" = some (3 / 2) ∧
    Expr.integralInterval? {} (.literal {} .number "1.5") "WEEK" =
    some (.interval {} (.literal {} .number "252") "HOUR") := by
  have decimal : Decimal.number? "1.5" = some (3 / 2) := by
    have read : Decimal.ofText? "1.5" = some ⟨15, -1⟩ := by decide
    rw [Decimal.number?, read, Option.map_some, Decimal.value]
    norm_num
  have odd (k : Int) (parity : k % 2 = 1) : ¬IsWhole (k / 2 : ℚ) := by
    rintro ⟨n, equal⟩
    have double : (k : ℚ) = (n * 2 : Int) := by
      rw [Int.cast_mul, ← equal]
      norm_num
    have exact : k = n * 2 := Int.cast_injective double
    omega
  have fractional : ¬IsWhole (3 / 2) := odd 3 rfl
  have first : FirstWhole (3 / 2) "WEEK" 2 168 "HOUR" := by
    refine ⟨by decide, ⟨252, by norm_num⟩, fun fewer earlier m between found => ?_⟩
    obtain rfl | rfl : fewer = 0 ∨ fewer = 1 := by omega
    · obtain ⟨rfl, rfl⟩ : (1, "WEEK") = (m, between) := Option.some.inj found
      simpa using fractional
    · obtain ⟨rfl, rfl⟩ : (7, "DAY") = (m, between) := Option.some.inj found
      have days := odd 21 rfl
      norm_num at days ⊢
      exact days
  exact ⟨decimal, ((integralInterval?_first decimal {} {} .number "WEEK").1 _).mpr
    ⟨fractional, 2, 168, "HOUR", first, 252, by norm_num, rfl⟩⟩

end SqlDialects
