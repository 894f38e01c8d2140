import Mathlib.Algebra.Order.Ring.Rat
import Mathlib.Data.List.DropRight
import Mathlib.Tactic.FieldSimp
import Mathlib.Tactic.Ring
import SqlDialects.Proofs.NativeTypes

/-! Decimals as rational numbers. Arithmetic on decimals is arithmetic on the numbers they stand for, and the text of a
decimal is read back as a decimal that stands for the same number. -/

namespace SqlDialects

namespace Decimal

open Token

/-- The number that a decimal stands for. -/
def value (d : Decimal) : ℚ := d.digits * 10 ^ d.exponent

/-- The number that a text stands for, if it is the text of a decimal. -/
def number? (text : String) : Option ℚ := (ofText? text).map value

private theorem ten : (10 : ℚ) ≠ 0 := by norm_num

/-! ### Arithmetic -/

@[simp] theorem value_ofInt (n : Int) : (ofInt n).value = n := by simp [value, ofInt]

@[simp] theorem value_neg (a : Decimal) : a.neg.value = -a.value := by simp [value, neg]

@[simp] theorem value_mul (a b : Decimal) : (a.mul b).value = a.value * b.value := by
  simp only [value, mul, Int.cast_mul, zpow_add₀ ten]
  ring

theorem unitsAt_value {d : Decimal} {exponent : Int} (below : exponent ≤ d.exponent) :
    (d.unitsAt exponent : ℚ) * 10 ^ exponent = d.value := by
  have steps : (((d.exponent - exponent).toNat : Int) : Int) + exponent = d.exponent := by omega
  have power : (10 : ℚ) ^ (d.exponent - exponent).toNat * 10 ^ exponent = 10 ^ d.exponent := by
    rw [← zpow_natCast, ← zpow_add₀ ten, steps]
  have units : (d.unitsAt exponent : ℚ) = d.digits * 10 ^ (d.exponent - exponent).toNat := by simp [unitsAt]
  rw [units, mul_assoc, power, value]

@[simp] theorem value_add (a b : Decimal) : (a.add b).value = a.value + b.value := by
  simp only [← unitsAt_value (min_le_left a.exponent b.exponent), ← unitsAt_value (min_le_right a.exponent b.exponent),
    ← add_mul]
  simp [value, add]

theorem value_sign (d : Decimal) : (d.digits = 0 ↔ d.value = 0) ∧ (0 < d.digits ↔ 0 < d.value) := by
  have positive : (0 : ℚ) < 10 ^ d.exponent := zpow_pos (by norm_num) _
  simp [value, positive, positive.ne']

theorem value_places {d : Decimal} (fractional : d.exponent < 0) : d.value * 10 ^ (-d.exponent).toNat = d.digits := by
  have power : (10 : ℚ) ^ d.exponent * 10 ^ (-d.exponent).toNat = 1 := by
    rw [← zpow_natCast, ← zpow_add₀ ten, Int.toNat_of_nonneg (by omega), add_neg_cancel, zpow_zero]
  rw [value, mul_assoc, power, mul_one]

theorem isIntegral_iff (d : Decimal) : d.isIntegral = true ↔ ∃ n : Int, d.value = n := by
  simp only [isIntegral, Bool.or_eq_true, decide_eq_true_eq, beq_iff_eq]
  by_cases natural : 0 ≤ d.exponent
  · refine iff_of_true (.inl natural) ⟨d.unitsAt 0, ?_⟩
    rw [← unitsAt_value natural, zpow_zero, mul_one]
  have scaled := value_places (lt_of_not_ge natural)
  have nonzero : (10 : ℚ) ^ (-d.exponent).toNat ≠ 0 := pow_ne_zero _ ten
  rw [or_iff_right (by omega), ← Int.dvd_iff_emod_eq_zero]
  constructor
  · rintro ⟨n, product⟩
    refine ⟨n, mul_right_cancel₀ nonzero ?_⟩
    rw [scaled, product, Nat.pow_eq]
    push_cast
    ring
  · rintro ⟨n, whole⟩
    refine ⟨n, ?_⟩
    rw [whole] at scaled
    have exact : ((n * (10 ^ (-d.exponent).toNat : Nat) : Int) : ℚ) = d.digits := by exact_mod_cast scaled
    rw [mul_comm]
    exact_mod_cast exact.symm

/-! ### Texts -/

/-- What stands in front of the power of ten. -/
def mantissa (cs : List Char) : List Char := cs.takeWhile fun c => !(c == 'e' || c == 'E')

/-- The places behind the point. -/
def places (cs : List Char) : List Char := ((mantissa cs).dropWhile (· != '.')).drop 1

/-- The digits in front of the power of ten, with their sign and without the point. -/
def significand (cs : List Char) : List Char := (mantissa cs).takeWhile (· != '.') ++ places cs

/-- The power of ten that a text ends with. -/
def power? (cs : List Char) : Option Int :=
  match cs.dropWhile fun c => !(c == 'e' || c == 'E') with
  | [] => some 0
  | _ :: power => readInt? power

/-- The power of ten of the last digit, if there is at most one point. -/
def exponent? (cs : List Char) : Option Int := (power? cs).bind fun power =>
  let exponent := power - (places cs).length
  if fits 32 power && !(places cs).contains '.' && fits 32 exponent then some exponent else none

theorem ofText?_eq (text : String) : ofText? text =
    (exponent? text.toList).bind fun exponent => (readInt? (significand text.toList)).map fun n => ⟨n, exponent⟩ := by
  unfold ofText? exponent? power? significand places mantissa
  generalize text.toList = cs
  simp only [Option.bind_eq_bind]
  generalize readInt? (_ ++ _) = digits
  generalize ((cs.takeWhile fun c => !(c == 'e' || c == 'E')).dropWhile (· != '.')).drop 1 = places
  -- With a power of ten and without one the same checks follow.
  cases cs.dropWhile fun c => !(c == 'e' || c == 'E')
  all_goals
    rw [Option.bind_assoc]
    refine Option.bind_congr fun power _ => ?_
    generalize fits 32 power = small
    generalize places.contains '.' = twice
    generalize fits 32 (power - places.length) = fit
    cases small <;> cases twice <;> cases fit <;> cases digits <;> rfl

private theorem digit_plain {c : Char} (plain : c.isDigit = true ∨ c = '-') :
    (c != '.') = true ∧ (c == 'e' || c == 'E') = false := by
  obtain digit | rfl := plain
  · have differs (d : Char) (other : d.isDigit = false) : c ≠ d := by
      rintro rfl
      rw [other] at digit
      cases digit
    simp [differs '.' rfl, differs 'e' rfl, differs 'E' rfl]
  · decide

/-- A text is read by its digits and by the number of places behind the point; the point stands only before such
places. -/
theorem ofText?_places {front fraction : List Char} (plain : ∀ c ∈ front, c.isDigit = true ∨ c = '-')
    (digits : ∀ c ∈ fraction, c.isDigit = true) {n : Int} (read : readInt? (front ++ fraction) = some n)
    (short : fraction.length ≤ 2 ^ 31) :
    ofText? (String.ofList (front ++ if fraction.isEmpty then [] else '.' :: fraction)) =
      some ⟨n, -fraction.length⟩ := by
  generalize tail : (if fraction.isEmpty then [] else '.' :: fraction) = point
  have unmarked : ∀ c ∈ front ++ point, (!(c == 'e' || c == 'E')) = true := by
    intro c member
    rw [Bool.not_eq_true']
    obtain early | late := List.mem_append.mp member
    · exact (digit_plain (plain c early)).2
    · subst tail
      split at late
      · cases late
      · obtain rfl | inside := List.mem_cons.mp late
        · decide
        · exact (digit_plain (.inl (digits c inside))).2
  have whole : mantissa (front ++ point) = front ++ point := List.takeWhile_eq_self_iff.mpr unmarked
  have behind : places (front ++ point) = fraction := by
    rw [places, whole, List.dropWhile_append_of_pos fun c member => (digit_plain (plain c member)).1]
    subst tail
    cases fraction <;> simp
  have shown : significand (front ++ point) = front ++ fraction := by
    rw [significand, behind, whole, List.takeWhile_append_of_pos fun c member => (digit_plain (plain c member)).1]
    subst tail
    cases fraction <;> simp
  have once : '.' ∉ fraction := fun member => absurd (digits _ member) (by decide)
  have small : fits 32 (-fraction.length) = true := by
    simp only [fits, Bool.and_eq_true, decide_eq_true_eq]
    norm_num
    omega
  have zero : power? (front ++ point) = some 0 := by rw [power?, List.dropWhile_eq_nil_iff.mpr unmarked]
  simp [ofText?_eq, exponent?, zero, behind, shown, once, read, small, show fits 32 0 = true by decide]

private theorem repr_plain (n : Int) : readInt? n.repr.toList = some n ∧ ∀ c ∈ n.repr.toList,
    c.isDigit = true ∨ c = '-' := by
  rw [Int.repr_eq_if]
  split
  · rw [(readInt?_repr n.toNat).1]
    exact ⟨by rw [Int.toNat_of_nonneg ‹_›], fun c member => .inl ((digits_repr n.toNat).2 c member)⟩
  · have text : ("-" ++ (-n).toNat.repr).toList = '-' :: (-n).toNat.repr.toList := String.toList_append
    rw [text, (readInt?_repr (-n).toNat).2]
    refine ⟨by congr 1; omega, fun c member => ?_⟩
    obtain rfl | inside := List.mem_cons.mp member
    · exact .inr rfl
    · exact .inl ((digits_repr (-n).toNat).2 c inside)

/-- Zeros at the end of the fraction are not shown. -/
private theorem zeros_dropped (ds : List Char) :
    ∃ zeros, (ds.reverse.dropWhile (· == '0')).reverse ++ List.replicate zeros '0' = ds := by
  refine ⟨(ds.reverse.takeWhile (· == '0')).length, ?_⟩
  have zeros : (ds.reverse.takeWhile (· == '0')).reverse =
    List.replicate (ds.reverse.takeWhile (· == '0')).length '0' := by
    rw [List.eq_replicate_iff]
    refine ⟨List.length_reverse, fun c member => ?_⟩
    simpa using List.mem_takeWhile_imp (List.mem_reverse.mp member)
  rw [← zeros, ← List.reverse_append, List.takeWhile_append_dropWhile, List.reverse_reverse]

private theorem padded_digits (n places : Nat) :
    ∃ whole fraction, List.replicate (places + 1 - n.repr.toList.length) '0' ++ n.repr.toList = whole ++ fraction ∧
      whole ≠ [] ∧ fraction.length = places ∧ (∀ c ∈ whole ++ fraction, c.isDigit = true) ∧
      Nat.ofDigitChars 10 (whole ++ fraction) 0 = n := by
  generalize padded : List.replicate (places + 1 - n.repr.toList.length) '0' ++ n.repr.toList = all
  have long : places < all.length := by
    rw [← padded, List.length_append, List.length_replicate]
    omega
  refine ⟨all.take (all.length - places), all.drop (all.length - places),
    (List.take_append_drop ..).symm, ?_, ?_, ?_, ?_⟩
  · rw [ne_eq, List.take_eq_nil_iff]
    rintro (none | rfl)
    · omega
    · cases long
  · rw [List.length_drop]
    omega
  · rw [List.take_append_drop, ← padded]
    intro c member
    obtain zero | shown := List.mem_append.mp member
    · rw [List.eq_of_mem_replicate zero]
      rfl
    · exact (digits_repr n).2 c shown
  · rw [List.take_append_drop, ← padded, Nat.ofDigitChars_append, Nat.ofDigitChars_replicate_zero, mul_zero,
      Nat.toList_repr, Nat.ofDigitChars_ten_toDigits]

private theorem readInt?_signed {n : Int} {ds : List Char} {zeros : Nat} (nonempty : ds ≠ [])
    (digits : ∀ c ∈ ds, c.isDigit = true) (counted : 10 ^ zeros * Nat.ofDigitChars 10 ds 0 = n.natAbs) :
    ∃ k : Int, k * 10 ^ zeros = n ∧ readInt? ((if n < 0 then ['-'] else []) ++ ds) = some k := by
  obtain ⟨positive, negative⟩ := readInt?_digits nonempty digits
  generalize Nat.ofDigitChars 10 ds 0 = m at counted positive negative
  have exact : (m * 10 ^ zeros : Int) = n.natAbs := by
    rw [← counted, Nat.cast_mul, mul_comm]
    push_cast
    rfl
  by_cases below : n < 0
  · refine ⟨-m, ?_, by simpa [below] using negative⟩
    rw [neg_mul, exact]
    omega
  · refine ⟨m, ?_, by simpa [below] using positive⟩
    rw [exact]
    omega

theorem number?_toText {d : Decimal} (small : -2 ^ 31 ≤ d.exponent) : number? d.toText = some d.value := by
  unfold toText
  split
  · next natural =>
    obtain ⟨read, plain⟩ := repr_plain (d.unitsAt 0)
    have whole := @ofText?_places _ [] plain (by simp) _ (by rwa [List.append_nil]) (by simp)
    simp only [List.isEmpty_nil, if_true, List.append_nil, String.ofList_toList] at whole
    rw [number?, whole, Option.map_some, ← unitsAt_value natural]
    simp [value]
  · next fractional =>
    obtain ⟨whole, fraction, padded, nonempty, places, digits, counted⟩ :=
      padded_digits d.digits.natAbs (-d.exponent).toNat
    obtain ⟨zeros, dropped⟩ := zeros_dropped fraction
    have split_at : (whole ++ fraction).length - (-d.exponent).toNat = whole.length := by
      rw [List.length_append, places, Nat.add_sub_cancel]
    simp only [padded, split_at, List.take_left, List.drop_left]
    generalize (fraction.reverse.dropWhile (· == '0')).reverse = shown at dropped ⊢
    subst dropped
    rw [List.length_append, List.length_replicate] at places
    rw [← List.append_assoc, Nat.ofDigitChars_append, Nat.ofDigitChars_replicate_zero] at counted
    have solid : ∀ c ∈ whole ++ shown, c.isDigit = true := fun c member => digits c (by
      rw [← List.append_assoc]
      exact List.mem_append_left _ member)
    obtain ⟨n, scaled, read⟩ := readInt?_signed (List.append_ne_nil_of_left_ne_nil nonempty shown) solid counted
    rw [← List.append_assoc] at read
    have signed : ∀ c ∈ (if d.digits < 0 then ['-'] else []) ++ whole, c.isDigit = true ∨ c = '-' := by
      intro c member
      obtain sign | early := List.mem_append.mp member
      · split at sign
        · exact .inr (List.mem_singleton.mp sign)
        · cases sign
      · exact .inl (solid c (List.mem_append_left _ early))
    have text := ofText?_places signed (fun c member => solid c (List.mem_append_right _ member)) read (by omega)
    rw [number?, text, Option.map_some, value, value, ← scaled]
    have exponent : d.exponent = -(shown.length : Int) - zeros := by omega
    rw [exponent, zpow_sub₀ ten, zpow_natCast]
    push_cast
    congr 1
    field_simp

theorem ofText?_exponent {text : String} {d : Decimal} (read : ofText? text = some d) : -2 ^ 31 ≤ d.exponent := by
  rw [ofText?_eq] at read
  obtain ⟨exponent, checked, found⟩ := Option.bind_eq_some_iff.mp read
  obtain ⟨n, -, rfl⟩ := Option.map_eq_some_iff.mp found
  obtain ⟨power, -, checked⟩ := Option.bind_eq_some_iff.mp checked
  obtain ⟨fit, ⟨⟩⟩ := Option.ite_none_right_eq_some.mp checked
  simp only [fits, Bool.and_eq_true, decide_eq_true_eq] at fit
  exact fit.2.1

private theorem toDigits_zeros {q : Nat} (positive : 0 < q) (places : Nat) :
    Nat.toDigits 10 (q * 10 ^ places) = Nat.toDigits 10 q ++ List.replicate places '0' := by
  induction places with
  | zero => simp
  | succ places ih =>
    have zero : Nat.toDigits 10 0 = ['0'] := rfl
    have nonzero : 0 < q * 10 ^ places := Nat.mul_pos positive (Nat.pow_pos (by omega))
    have longer := Nat.toDigits_append_toDigits (b := 10) (d := 0) (by omega) nonzero (by omega)
    rw [List.replicate_succ', ← List.append_assoc, ← ih, ← zero, longer]
    congr 1
    ring

/-- The digits of a whole number with zeros behind it, as many as it has places, and the padding in front. -/
private theorem padded_whole (q places : Nat) :
    List.replicate (places + 1 - (q * 10 ^ places).repr.toList.length) '0' ++ (q * 10 ^ places).repr.toList =
      q.repr.toList ++ List.replicate places '0' := by
  simp only [Nat.toList_repr]
  obtain rfl | positive := Nat.eq_zero_or_pos q
  · simp [← List.replicate_succ', List.replicate_succ]
  · have long : 0 < (Nat.toDigits 10 q).length := List.length_pos_of_ne_nil Nat.toDigits_ne_nil
    rw [toDigits_zeros positive, List.length_append, List.length_replicate,
      show places + 1 - ((Nat.toDigits 10 q).length + places) = 0 by omega, List.replicate_zero, List.nil_append]

theorem toText_whole {d : Decimal} {n : Int} (whole : d.value = n) : d.toText = n.repr := by
  unfold toText
  split
  · next natural =>
    rw [← unitsAt_value natural, zpow_zero, mul_one] at whole
    rw [Int.cast_injective whole]
  · next fractional =>
    have scaled : d.digits = n * 10 ^ (-d.exponent).toNat := by
      have exact := value_places (lt_of_not_ge fractional)
      rw [whole] at exact
      exact_mod_cast exact.symm
    generalize (-d.exponent).toNat = places at scaled
    have size : d.digits.natAbs = n.natAbs * 10 ^ places := by rw [scaled, Int.natAbs_mul, Int.natAbs_pow]; rfl
    have negative : d.digits < 0 ↔ n < 0 := by
      have positive : (0 : Int) < 10 ^ places := Int.pow_pos (by omega)
      rw [scaled]
      constructor
      · exact fun below => Int.neg_of_mul_neg_left below positive
      · exact fun below => Int.mul_neg_of_neg_of_pos below positive
    have zeros : (List.replicate places '0').dropWhile (· == '0') = [] := by simp
    simp only [size, padded_whole, negative, List.length_append, List.length_replicate, Nat.add_sub_cancel,
      List.take_left, List.drop_left, List.reverse_replicate, zeros, List.reverse_nil, List.isEmpty_nil, if_true,
      List.append_nil]
    obtain below | natural := lt_or_ge n 0
    · have size : n.natAbs = (-n).toNat := by omega
      rw [Int.repr_eq_if, if_pos below, if_neg (not_le.mpr below), size, ← String.toList_inj, String.toList_ofList,
        String.toList_append]
      rfl
    · have size : n.natAbs = n.toNat := by omega
      rw [Int.repr_eq_if, if_neg (not_lt.mpr natural), if_pos natural, size, List.nil_append, String.ofList_toList]

end Decimal

end SqlDialects
