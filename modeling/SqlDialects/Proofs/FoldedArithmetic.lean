import SqlDialects.Proofs.Aliases
import SqlDialects.Proofs.CaseValues
import SqlDialects.Proofs.Decimals

/-! Arithmetic on expressions that folds numbers. A product, a sum with a whole number and a negative have the values
that they are made for, whatever columns and calls mean. The negative of a number is taken on its text: it is right
exactly for texts of decimals that have no other sign than a minus at the very start. -/

namespace SqlDialects

/-- Values of expressions in which numbers are what their texts say and the operators are those of arithmetic. Of
products only those with a whole number are known. All other expressions may have any value. -/
structure Reading (value : Expr → ℚ) : Prop where
  number : ∀ {pos text q}, Decimal.number? text = some q → value (.literal pos .number text) = q
  sum : ∀ pos a b, value (.binary pos "+" a b) = value a + value b
  difference : ∀ pos a b, value (.binary pos "-" a b) = value a - value b
  negative : ∀ pos a, value (.unary pos "-" a) = -value a
  product : ∀ a (factor : Int), value (.binary {} "*" a (.num factor.repr)) = value a * value (.num factor.repr)

namespace Decimal

theorem number?_repr (n : Int) : number? n.repr = some (n : ℚ) := by
  have read := number?_toText (d := .ofInt n) (by norm_num [ofInt])
  rwa [toText_whole (value_ofInt n), value_ofInt] at read

/-- No sign stands in front of the digits, but for a minus at the very start. -/
def PlainlySigned (text : String) : Prop := ∀ front ∈ ["+", ".+", ".-"], ¬front.toList <+: text.toList

private theorem readInt?_minus (ds : List Char) :
    readInt? ('-' :: ds) = if ds.head? = some '+' ∨
    ds.head? = some '-' then none else (readInt? ds).map fun n => -n := by
  cases ds with
  | nil => rfl
  | cons d ds =>
    have digits (signed : d.isDigit = false) : readInt? ('-' :: d :: ds) = none := by simp [readInt?, signed]
    by_cases plus : d = '+'
    · subst plus
      rw [if_pos (.inl rfl), digits (by decide)]
    by_cases minus : d = '-'
    · subst minus
      rw [if_pos (.inr rfl), digits (by decide)]
    rw [if_neg (by simp [plus, minus])]
    conv_rhs => rw [readInt?.eq_def]
    simp [readInt?, plus, minus]

private theorem number?_minus (cs : List Char) : number? (String.ofList ('-' :: cs)) =
    if (significand cs).head? = some '+' ∨ (significand cs).head? = some '-' then none
    else (number? (String.ofList cs)).map fun q => -q := by
  have exponent : exponent? ('-' :: cs) = exponent? cs := by simp [exponent?, power?, places, mantissa]
  have shown : significand ('-' :: cs) = '-' :: significand cs := by simp [significand, places, mantissa]
  rw [number?, number?, ofText?_eq, ofText?_eq, String.toList_ofList, String.toList_ofList, exponent,
    shown, readInt?_minus]
  split
  · cases exponent? cs <;> rfl
  · rw [Option.map_map, Option.map_bind, Option.map_bind]
    refine Option.bind_congr fun exponent _ => ?_
    simp only [Function.comp_apply, Option.map_map]
    congr 1
    funext n
    simp [value]

private theorem mantissa_cons (c : Char) (cs : List Char) :
    mantissa (c :: cs) = if c = 'e' ∨ c = 'E' then [] else c :: mantissa cs := by
  by_cases marked : c = 'e' ∨ c = 'E'
  · rw [mantissa, if_pos marked, List.takeWhile_cons_of_neg (by simpa [or_iff_not_imp_left] using marked)]
  · rw [mantissa, if_neg marked, List.takeWhile_cons_of_pos (by simpa using marked), mantissa]

/-- The sign of the digits stands in front of the text or behind a point in front of it. -/
private theorem signed_iff (cs : List Char) : (significand cs).head? = some '+' ∨ (significand cs).head? = some '-' ↔
    ∃ front ∈ ["+", "-", ".+", ".-"], front.toList <+: cs := by
  obtain _ | ⟨c, cs⟩ := cs
  · decide
  by_cases marked : c = 'e' ∨ c = 'E'
  · have empty : significand (c :: cs) = [] := by simp [significand, places, mantissa_cons, marked]
    obtain rfl | rfl := marked <;> simp [empty]
  by_cases point : c = '.'
  · subst point
    have behind : significand ('.' :: cs) = mantissa cs := by simp [significand, places, mantissa_cons]
    rw [behind]
    obtain _ | ⟨d, ds⟩ := cs
    · decide
    rw [mantissa_cons]
    by_cases last : d = 'e' ∨ d = 'E'
    · obtain rfl | rfl := last <;> simp
    · rw [if_neg last]
      simp [eq_comm]
  · have first : (significand (c :: cs)).head? = some c := by simp [significand, mantissa_cons, marked, point]
    simp [first, Ne.symm point, eq_comm (a := c)]

/-- A minus sign at the start is taken away. -/
private theorem number?_unsigned {rest : List Char} {q : ℚ} (decimal : number? (String.ofList ('-' :: rest)) = some q) :
    number? (String.ofList rest) = some (-q) ∧ PlainlySigned (String.ofList ('-' :: rest)) := by
  rw [number?_minus] at decimal
  split at decimal
  · cases decimal
  obtain ⟨positive, read, rfl⟩ := Option.map_eq_some_iff.mp decimal
  exact ⟨by rw [read, neg_neg], by simp [PlainlySigned]⟩

/-- A minus sign is put in front of a text that does not start with one. -/
private theorem number?_signed {text : String} {q : ℚ} (decimal : number? text = some q)
    (first : text.toList.head? ≠ some '-') : number? ("-" ++ text) = some (-q) ↔ PlainlySigned text := by
  have characters : "-" ++ text = String.ofList ('-' :: text.toList) := by
    rw [← String.toList_inj, String.toList_ofList, String.toList_append]
    rfl
  have minus : ¬['-'] <+: text.toList := by
    rintro ⟨rest, shape⟩
    rw [← shape] at first
    exact first rfl
  have plain : PlainlySigned text ↔ ¬∃ front ∈ ["+", "-", ".+", ".-"], front.toList <+: text.toList := by
    simp [PlainlySigned, minus]
  rw [characters, number?_minus, plain, ← signed_iff, String.ofList_toList, decimal]
  split
  · next signed => exact iff_of_false (by simp) (not_not_intro signed)
  · next unsigned => exact iff_of_true rfl unsigned

end Decimal

namespace Expr

open Decimal

variable {value : Expr → ℚ} (reading : Reading value)

include reading

private theorem value_num (n : Int) : value (.num n.repr) = n := reading.number (number?_repr n)

private theorem value_folded {d : Decimal} (small : -2 ^ 31 ≤ d.exponent) (pos : Position) :
    value (.literal pos .number d.toText) = d.value :=
  reading.number (number?_toText small)

private theorem value_read {text : String} {d : Decimal} (read : ofText? text = some d) (pos : Position) :
    value (.literal pos .number text) = d.value :=
  reading.number (by rw [number?, read, Option.map_some])

theorem value_scale (e : Expr) (factor : Int) : value (e.scale factor) = factor * value e := by
  have product : value (.binary {} "*" e (num factor.repr)) = factor * value e := by
    rw [reading.product, value_num reading, mul_comm]
  unfold scale
  split
  · split
    · next d read =>
      have small : -2 ^ 31 ≤ (d.mul (.ofInt factor)).exponent := by simpa [mul, ofInt] using ofText?_exponent read
      rw [value_folded reading small, value_read reading read, value_mul, value_ofInt, mul_comm]
    · exact product
  · exact product

/-- A number behind an expression, under the operator that its sign asks for. -/
private theorem value_term {d : Decimal} (small : -2 ^ 31 ≤ d.exponent) (left : Expr) (pos litPos : Position) :
    value (if d.digits = 0 then left
      else if d.digits > 0 then .binary pos "+" left (.literal litPos .number d.toText)
      else .binary pos "-" left (.literal litPos .number d.neg.toText)) = value left + d.value := by
  split
  · next zero => rw [(value_sign d).1.mp zero, add_zero]
  split
  · rw [reading.sum, value_folded reading small]
  · rw [reading.difference, value_folded reading (d := d.neg) small, value_neg, sub_neg_eq_add]

theorem value_plus (e : Expr) (delta : Int) : value (e.plus delta) = value e + delta := by
  have small {d : Decimal} (read : -2 ^ 31 ≤ d.exponent) : -2 ^ 31 ≤ (d.add (.ofInt delta)).exponent := by
    simp only [add, ofInt]
    omega
  unfold plus
  extract_lets sum
  have unfolded : value sum = value e + delta := by
    simp only [sum]
    split
    · rw [reading.sum, value_num reading]
    · rw [reading.difference, value_num reading, Int.cast_neg, sub_neg_eq_add]
  clear_value sum
  split
  · next zero => rw [zero, Int.cast_zero, add_zero]
  split
  · split
    · next d read =>
      rw [value_folded reading (small (ofText?_exponent read)), value_read reading read, value_add, value_ofInt]
    · exact unfolded
  · next pos op left litPos text =>
    split
    · next known =>
      split
      · next d read =>
        -- The number on the right, with the sign that the operator gives it.
        generalize same : (if op = "-" then d.neg else d) = signed
        have bound : -2 ^ 31 ≤ signed.exponent := by
          have exponent : signed.exponent = d.exponent := by
            rw [← same]
            split <;> rfl
          rw [exponent]
          exact ofText?_exponent read
        have whole : value (.binary pos op left (.literal litPos .number text)) = value left + signed.value := by
          simp only [Bool.or_eq_true, decide_eq_true_eq] at known
          obtain rfl | rfl := known
          · rw [reading.sum, value_read reading read, ← same, if_neg (by decide)]
          · rw [reading.difference, value_read reading read, sub_eq_add_neg, ← same, if_pos rfl, value_neg]
        rw [whole, add_assoc, ← value_ofInt, ← value_add]
        exact value_term reading (small bound) left pos litPos
      · exact unfolded
    · exact unfolded
  · exact unfolded

omit reading

/-- The only numbers whose negative is wrong are those that are no decimals or have another sign than a minus at the
start. -/
def Negatable (e : Expr) : Prop :=
  ∀ pos text, e = .literal pos .number text → (number? text).isSome ∧ PlainlySigned text

/-- The reading in which all that is not arithmetic has the given values. -/
def denote (free : Expr → ℚ) : Expr → ℚ
  | .literal pos .number text => (number? text).getD (free (.literal pos .number text))
  | .binary _ "+" a b => denote free a + denote free b
  | .binary _ "-" a b => denote free a - denote free b
  | .binary _ "*" a b => denote free a * denote free b
  | .unary _ "-" a => -denote free a
  | e => free e

theorem reading_denote (free : Expr → ℚ) : Reading (denote free) where
  number decimal := by rw [denote, decimal, Option.getD_some]
  sum pos a b := by rw [denote]
  difference pos a b := by rw [denote]
  negative pos a := by rw [denote]
  product a factor := by rw [denote]

private theorem negate_number (pos : Position) (text : String) : ∃ negated,
    negate (.literal pos .number text) = .literal pos .number negated ∧
      ∀ q, number? text = some q → (number? negated = some (-q) ↔ PlainlySigned text) := by
  by_cases first : text.toList.head? = some '-'
  · obtain ⟨rest, shape⟩ := List.head?_eq_some_iff.mp first
    have characters : text = String.ofList ('-' :: rest) := by rw [← shape, String.ofList_toList]
    refine ⟨String.ofList rest, by simp only [negate, shape], fun q decimal => ?_⟩
    rw [characters] at decimal ⊢
    obtain ⟨read, plain⟩ := number?_unsigned decimal
    exact iff_of_true read plain
  · refine ⟨"-" ++ text, ?_, fun q decimal => number?_signed decimal first⟩
    rw [negate]
    split
    · next shape => exact absurd (by rw [shape]; rfl) first
    · rfl

/-- The negative is right in every reading exactly if the expression is no number, or one that can be negated on its
text. -/
theorem value_negate_iff (e : Expr) : (∀ {value}, Reading value → value e.negate = -value e) ↔ e.Negatable := by
  constructor
  · rintro exact pos text rfl
    obtain ⟨negated, same, plain⟩ := negate_number pos text
    -- Whatever all texts that are no numbers stand for, the negated text stands for the negative.
    have each (c : ℚ) : (number? negated).getD c = -(number? text).getD c := by
      have negative := exact (reading_denote fun _ => c)
      rwa [same, denote, denote] at negative
    cases decimal : number? text with
    | none =>
      have one := each 1
      have two := each 2
      rw [decimal, Option.getD_none] at one two
      cases known : number? negated <;> rw [known] at one two
      · exact absurd one (show (1 : ℚ) ≠ -1 by decide)
      · exact absurd (one.symm.trans two) (by norm_num)
    | some q =>
      refine ⟨rfl, (plain q decimal).mp ?_⟩
      have one := each (1 - q)
      rw [decimal, Option.getD_some] at one
      cases known : number? negated <;> rw [known] at one
      · exact absurd (sub_eq_neg_self.mp one) one_ne_zero
      · exact congrArg some one
  · intro negatable value reading
    by_cases number : ∃ pos text, e = .literal pos .number text
    · obtain ⟨pos, text, rfl⟩ := number
      obtain ⟨negated, same, plain⟩ := negate_number pos text
      obtain ⟨known, signed⟩ := negatable pos text rfl
      obtain ⟨q, decimal⟩ := Option.isSome_iff_exists.mp known
      rw [same, reading.number ((plain q decimal).mpr signed), reading.number decimal]
    · unfold negate
      split
      · exact absurd ⟨_, _, rfl⟩ number
      · rw [reading.negative, neg_neg]
      · exact reading.negative _ _

end Expr

/-! ### Inclusive ranges -/

/-- The dialects whose ranges include their stop. -/
def sequencers : List Profile := [Presto.profile, Presto.trino, Spark.profile]

private theorem sequencers_registered : ∀ p ∈ sequencers, Entry.ofProfile p ∈ Registry.standard.entries := by
  simp [sequencers, Registry.standard]

private theorem sequencers_read {p : Profile} (member : p ∈ sequencers) :
    p.dialect.functions.find? "sequence" = some (.shape 2 Reshape.sequence) := by
  have other (d : Dialect) (minArgs : Nat) (reshape : Reshape) (names : List String)
      (other : "sequence" ∉ names.map Text.lower) :
      (d.withShape minArgs reshape names).functions.find? "sequence" = d.functions.find? "sequence" := by
    rw [Dialect.find?_withShape, if_neg other]
  have self (d : Dialect) : (d.withShape 2 Reshape.sequence ["sequence"]).functions.find? "sequence" =
      some (.shape 2 Reshape.sequence) := by
    rw [Dialect.find?_withShape, if_pos (by decide +kernel)]
  have spelled (d : Dialect) (pairs : List (String × String)) :
      (d.withSpellings pairs).functions.find? "sequence" = d.functions.find? "sequence" := rfl
  simp only [sequencers, List.mem_cons, List.not_mem_nil, or_false] at member
  obtain rfl | rfl | rfl := member
  · simp (disch := decide +kernel) only [Presto.profile, Presto.profileOf, Presto.dialect, spelled, self, other]
  · simp (disch := decide +kernel) only [Presto.trino, Presto.profileOf, Presto.dialect, spelled, self, other]
  · simp (disch := decide +kernel) only [Spark.profile, self, other]

private theorem sequencers_write {p : Profile} (member : p ∈ sequencers) : ∃ place,
    p.outbound[place]? = some (.onCall p.dialect.name "ARRAY_RANGE" Spark.sequenceCall) ∧
      (∀ r ∈ p.outbound.eraseIdx place, r.pattern.kind ≠ "FunctionCall" ∨ r.pattern.name ≠ "" ∧
        r.pattern.name ≠ "ARRAY_RANGE") ∧
      ∀ r ∈ p.outbound, r.pattern.kind ≠ "FunctionCall" ∨ r.pattern.name ≠ "" ∧ r.pattern.name ≠ "SEQUENCE" := by
  simp only [sequencers, List.mem_cons, List.not_mem_nil, or_false] at member
  obtain rfl | rfl | rfl := member
  · exact ⟨33, rfl, by decide, by decide⟩
  · exact ⟨33, rfl, by decide, by decide⟩
  · exact ⟨10, rfl, by decide, by decide⟩

/-- The only rule for calls of `ARRAY_RANGE` is the one that writes them as ranges with their stop. -/
private theorem outbound_range {p : Profile} (member : p ∈ sequencers) :
    .onCall p.dialect.name "ARRAY_RANGE" Spark.sequenceCall ∈ p.outbound ∧ ∀ r ∈ p.outbound,
      r = .onCall p.dialect.name "ARRAY_RANGE" Spark.sequenceCall ∨
        r.pattern.kind ≠ "FunctionCall" ∨ r.pattern.name ≠ "" ∧ r.pattern.name ≠ "ARRAY_RANGE" := by
  obtain ⟨place, held, others, -⟩ := sequencers_write member
  refine ⟨List.mem_of_getElem? held, fun r inside => ?_⟩
  obtain ⟨i, found⟩ := List.getElem?_of_mem inside
  by_cases same : i = place
  · subst same
    rw [held] at found
    exact .inl (Option.some.inj found).symm
  · exact .inr (others r (List.mem_eraseIdx_iff_getElem?.mpr ⟨i, same, found⟩))

variable {p : Profile} {f : Call} {first last : Expr} {rest : List Expr}

private theorem resolveCall_sequence (member : p ∈ sequencers) {spelling : String}
    (named : Text.lower spelling = "sequence") (given : f.args = first :: last :: rest) (c : Cursor) :
    Parser.resolveCall p.dialect f spelling c = .ok (f.become "ARRAY_RANGE" (first :: last.plus 1 :: rest), c) := by
  have found : p.dialect.function? spelling = some (.shape 2 Reshape.sequence) := by
    rw [Dialect.function?, named, sequencers_read member]
  have enough : ¬f.args.length < 2 := by simp [given]
  simp only [Parser.resolveCall, found, FunctionRule.shape, Bool.false_eq_true, enough, if_false, if_true]
  simp only [Reshape.sequence, given]
  rfl

private theorem fire_range {ctx : Context} (towards : ctx.target = p.dialect) (given : f.args = first :: last :: rest)
    (named : f.name = "ARRAY_RANGE") :
    (Rule.onCall p.dialect.name "ARRAY_RANGE" Spark.sequenceCall).fire? ctx (.expr (.call f)) =
      .ok (some (.expr (f.become "SEQUENCE" (first :: last.plus (-1) :: rest)))) := by
  simp [Rule.fire?, Rule.onCall, Rule.callPattern, Pattern.matches, Pattern.matchesArity,
    Node.kind, Expr.kind, Node.name,
    towards, named, Spark.sequenceCall, given]

private theorem range_turns (member : p ∈ sequencers) {engine : Engine} (towards : engine.target = p.dialect)
    (given : f.args = first :: last :: rest) (named : f.name = "ARRAY_RANGE") :
    (engine.step ((Entry.ofProfile p).rules.inPhase .outbound)).Turns (.call f)
      (f.become "SEQUENCE" (first :: last.plus (-1) :: rest)) := by
  have registered := sequencers_registered p member
  have own (r : Rule) : r ∈ (Entry.ofProfile p).rules.inPhase .outbound ↔ r ∈ p.outbound :=
    Entry.mem_outbound registered
  obtain ⟨listed, only⟩ := outbound_range member
  obtain ⟨-, -, -, still⟩ := sequencers_write member
  unfold Step.Turns Engine.step
  generalize context : Context.mk engine.source engine.target _ = ctx
  have goal : ctx.target = p.dialect := by rw [← context, towards]
  refine ⟨some (.expr (f.become "SEQUENCE" (first :: last.plus (-1) :: rest))), Rule.settle_once
    ⟨_, (own _).mpr listed, fire_range goal given named⟩ (fun r inside => ?_) (fun r inside => ?_), rfl⟩
  · obtain rfl | kind | ⟨asks, other⟩ := only r ((own r).mp inside)
    · exact .inr (fire_range goal given named)
    · exact .inl (Rule.fire_unmatched (Pattern.matches_kind (Ne.symm kind) ctx))
    · exact .inl (Rule.fire_unmatched (by simp [Pattern.matches, Node.name, asks, named, Ne.symm other]))
  · obtain kind | ⟨asks, other⟩ := still r ((own r).mp inside)
    · exact Rule.fire_unmatched (Pattern.matches_kind (Ne.symm kind) ctx)
    · exact Rule.fire_unmatched (by simp [Pattern.matches, Node.name, Call.become, Call.moved, asks, Ne.symm other])

/-- Scaling an expression and adding a whole number to it are exact in every reading. So is its negative, exactly if
it is no number, or the text of the number can be negated. A range with its stop, from one dialect to another, keeps
its stop. -/
theorem folded_arithmetic_exact (e : Expr) (n : Int) :
    (∀ {value}, Reading value → value (e.scale n) = n * value e ∧ value (e.plus n) = value e + n) ∧
    ((∀ {value}, Reading value → value e.negate = -value e) ↔ e.Negatable) ∧
    ∀ source ∈ sequencers, ∀ target ∈ sequencers, ∀ (f : Call) (spelling : String)
      (first last : Expr) (rest : List Expr),
      Text.lower spelling = "sequence" → f.args = first :: last :: rest → ∃ stop bound,
        (∀ c, Parser.resolveCall source.dialect f spelling c =
          .ok (f.become "ARRAY_RANGE" (first :: stop :: rest), c)) ∧
        (∀ engine : Engine, engine.target = target.dialect →
          (engine.step ((Entry.ofProfile source).rules.inPhase .inbound)).Turns
          (f.become "ARRAY_RANGE" (first :: stop :: rest))
            (f.become "ARRAY_RANGE" (first :: stop :: rest)) ∧
          (engine.step ((Entry.ofProfile target).rules.inPhase .outbound)).Turns
          (f.become "ARRAY_RANGE" (first :: stop :: rest))
            (f.become "SEQUENCE" (first :: bound :: rest))) ∧
        ∀ {value}, Reading value → value stop = value last + 1 ∧ value bound = value last := by
  refine ⟨fun reading => ⟨Expr.value_scale reading e n, Expr.value_plus reading e n⟩, Expr.value_negate_iff e, ?_⟩
  intro source reads target writes f spelling first last rest named given
  refine ⟨last.plus 1, (last.plus 1).plus (-1), resolveCall_sequence reads named given, fun engine towards => ⟨?_, ?_⟩,
    fun reading => ⟨?_, ?_⟩⟩
  · refine Step.turns_none (inbound_none (sequencers_registered source reads) ?_ _ _)
    intro _
    rw [ClickHouse.ownFunctions_eq]
    change "ARRAY_RANGE" ∉ _
    decide
  · exact range_turns writes towards rfl rfl
  · rw [Expr.value_plus reading, Int.cast_one]
  · rw [Expr.value_plus reading, Expr.value_plus reading, Int.cast_neg, Int.cast_one, add_neg_cancel_right]

/-- A range up to 10.5 is read with 11.5 as its stop, and written with 10.5. -/
theorem half_range_kept : Text.lower "SEQUENCE" = "sequence" ∧ ∃ stop bound,
    (∀ c, Parser.resolveCall Presto.profile.dialect { name := "SEQUENCE", args :=
      [.num "1", .num "10.5"] } "SEQUENCE" c =
      .ok (.call { name := "ARRAY_RANGE", args := [.num "1", stop] }, c)) ∧
    Expr.denote (fun _ => 0) stop = 23 / 2 ∧ Expr.denote (fun _ => 0) bound = 21 / 2 := by
  have named : Text.lower "SEQUENCE" = "sequence" := by decide +kernel
  obtain ⟨stop, bound, read, -, exact⟩ := (folded_arithmetic_exact (.num "10.5") 1).2.2
    Presto.profile (by simp [sequencers]) Spark.profile (by simp [sequencers])
    { name := "SEQUENCE", args := [.num "1", .num "10.5"] } "SEQUENCE" (.num "1") (.num "10.5") [] named rfl
  obtain ⟨more, same⟩ := exact (Expr.reading_denote fun _ => 0)
  have last : Expr.denote (fun _ => 0) (.num "10.5") = 21 / 2 := by
    have text : Decimal.ofText? "10.5" = some ⟨105, -1⟩ := by decide
    refine (Expr.reading_denote fun _ => 0).number ?_
    rw [Decimal.number?, text, Option.map_some, Decimal.value]
    norm_num
  refine ⟨named, stop, bound, read, ?_, same.trans last⟩
  rw [more, last]
  norm_num

/-- Two dashes in front of a number are no number, and what is taken for the negative of it is. A dash alone loses its
text. -/
theorem dashes_not_negated : (∃ value, Reading value ∧ value (Expr.num "--5").negate ≠ -value (.num "--5")) ∧
    (Expr.num "-").negate = .num "" := by
  refine ⟨⟨Expr.denote fun _ => 0, Expr.reading_denote _, ?_⟩, rfl⟩
  have dashed : Decimal.ofText? "--5" = none := by decide
  have single : Decimal.ofText? "-5" = some ⟨-5, 0⟩ := by decide
  have free : Expr.denote (fun _ => 0) (.num "--5") = 0 := by simp [Expr.num, Expr.denote, Decimal.number?, dashed]
  have negated : Expr.denote (fun _ => 0) (Expr.num "--5").negate = -5 := by
    have decimal : Decimal.number? "-5" = some (-5) := by simp [Decimal.number?, single, Decimal.value]
    exact (Expr.reading_denote fun _ => 0).number decimal
  rw [free, negated]
  norm_num

end SqlDialects
