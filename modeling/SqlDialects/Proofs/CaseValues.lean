import SqlDialects.Parser.Expr
import SqlDialects.Proofs.Unmappable

/-! What `DECODE` and the `CASE` that it is read as evaluate to. `DECODE` takes two `NULL`s for the same value, while a
`CASE` over an operand compares by the equality of the language, which is true of no `NULL`. -/

namespace SqlDialects

/-- Values of expressions, `none` for `NULL`, with the equality of the values that are not. -/
structure Valuation (α : Type) where
  value : Expr → Option α
  equal : α → α → Bool

namespace Valuation

variable {α : Type} (v : Valuation α)

/-- The operator `=`, which is unknown if a side is `NULL`. -/
def equals (a b : Option α) : Option Bool := do
  return v.equal (← a) (← b)

/-- The result of the first arm whose condition is equal to the operand. -/
def caseValue (operand : Expr) (otherwise : Option Expr) : List When → Option α
  | [] => otherwise.bind v.value
  | arm :: arms =>
    if v.equals (v.value operand) (v.value arm.condition) = some true then v.value arm.result
    else caseValue operand otherwise arms

/-- Goes through `s1, r1, s2, r2, ...` for the first search value that passes the test. A last argument without a
partner is the default, which is `NULL` if there is none. -/
def pick (test : Option α → Bool) : List Expr → Option α
  | search :: result :: rest => if test (v.value search) then v.value result else pick test rest
  | [otherwise] => v.value otherwise
  | [] => none

/-- Whether `DECODE` takes two values for the same one. -/
def same (a b : Option α) : Bool := v.equals a b == some true || (a.isNone && b.isNone)

def decode (operand : Expr) (args : List Expr) : Option α := v.pick (v.same (v.value operand)) args

/-- The default among the arguments after the operand. -/
def fallback (args : List Expr) : Option α := v.pick (fun _ => false) args

variable {v} {operand : Expr} {a : α}

theorem same_none : v.same none = Option.isNone := by
  funext b
  simp [same, equals]

theorem same_some : v.same (some a) = fun b => v.equals (some a) b == some true := by
  funext b
  simp [same]

/-- Two more arguments change neither the parity nor which argument is without a partner. -/
private theorem partnerless_pair (search result : Expr) (rest : List Expr) :
    (if (search :: result :: rest).length % 2 = 1 then (search :: result :: rest).getLast? else none) =
      if rest.length % 2 = 1 then rest.getLast? else none := by
  have parity : (search :: result :: rest).length % 2 = rest.length % 2 := by
    simp only [List.length_cons]
    omega
  rw [parity]
  cases rest with
  | nil => rfl
  | cons => simp only [List.getLast?_cons_cons]

/-- A `CASE` over the pairs of a list of arguments goes through them with the test of its operand, if the last one of
an odd number of them is its default. -/
theorem caseValue_pairUp (args : List Expr) :
    v.caseValue operand (if args.length % 2 = 1 then args.getLast? else none)
        ((Reshape.pairUp args).map fun (search, result) => ⟨search, result⟩) =
      v.pick (fun b => v.equals (v.value operand) b == some true) args := by
  induction args using Reshape.pairUp.induct with
  | case1 search result rest ih =>
    rw [partnerless_pair]
    simp only [Reshape.pairUp, List.map_cons, caseValue, pick, beq_iff_eq]
    split
    · rfl
    · exact ih
  | case2 args short =>
    cases args with
    | nil => rfl
    | cons search rest =>
      cases rest with
      | nil => rfl
      | cons result rest => exact absurd rfl (short search result rest)

/-- The `CASE` evaluates to what `DECODE` does exactly if, where the operand is `NULL`, the result beside the first
`NULL` among the search values is the default. -/
theorem caseValue_eq_decode_iff (args : List Expr) :
    v.caseValue operand (if args.length % 2 = 1 then args.getLast? else none)
        ((Reshape.pairUp args).map fun (search, result) => ⟨search, result⟩) = v.decode operand args ↔
      (v.value operand = none → v.pick Option.isNone args = v.fallback args) := by
  rw [caseValue_pairUp, decode]
  cases known : v.value operand with
  | none =>
    have never : (fun b => v.equals none b == some true) = fun _ => false := rfl
    rw [same_none, never]
    exact ⟨fun equal _ => equal.symm, fun equal => (equal rfl).symm⟩
  | some a =>
    rw [same_some]
    exact ⟨fun _ missing => absurd missing (Option.some_ne_none a), fun _ => rfl⟩

end Valuation

/-! ### Calls of `DECODE` -/

/-- The dialect reads `DECODE` with at least three arguments as a `CASE`. -/
def Dialect.ReadsDecode (d : Dialect) : Prop := d.functions.find? "decode" = some (.shape 3 Reshape.decode)

theorem Dialect.find?_withShape (d : Dialect) (minArgs : Nat) (reshape : Reshape) (names : List String) (key : String) :
    (d.withShape minArgs reshape names).functions.find? key =
      if key ∈ names.map Text.lower then some (.shape minArgs reshape) else d.functions.find? key :=
  Dictionary.find?_insertEach ..

theorem readsDecode_decode (d : Dialect) : (d.withShape 3 Reshape.decode ["decode"]).ReadsDecode := by
  have listed : "decode" ∈ ["decode"].map Text.lower := by decide +kernel
  rw [Dialect.ReadsDecode, Dialect.find?_withShape, if_pos listed]

theorem readsDecode_withShape (d : Dialect) (minArgs : Nat) (reshape : Reshape) {names : List String}
    (other : "decode" ∉ names.map Text.lower) : (d.withShape minArgs reshape names).ReadsDecode ↔ d.ReadsDecode := by
  rw [Dialect.ReadsDecode, Dialect.find?_withShape, if_neg other, Dialect.ReadsDecode]

theorem readsDecode_withSpellings (d : Dialect) (pairs : List (String × String)) :
    (d.withSpellings pairs).ReadsDecode ↔ d.ReadsDecode := Iff.rfl

/-- The dialects that have the function. -/
def decoders : List Dialect := [Oracle.profile.dialect, Snowflake.profile.dialect, Teradata.profile.dialect]

theorem decoders_read {d : Dialect} (member : d ∈ decoders) : d.ReadsDecode := by
  simp only [decoders, List.mem_cons, List.not_mem_nil, or_false] at member
  obtain rfl | rfl | rfl := member
  · simp (disch := decide +kernel) only [Oracle.profile, ↓readsDecode_withShape, ↓readsDecode_decode]
  · simp only [Snowflake.profile, ↓readsDecode_decode]
  · simp (disch := decide +kernel) only [Teradata.profile, ↓readsDecode_withSpellings, ↓readsDecode_withShape,
      ↓readsDecode_decode]

namespace Parser

variable {d : Dialect} {f : Call} {spelling : String} {operand search result : Expr} {rest : List Expr}

theorem resolveCall_decode (reads : d.ReadsDecode) (named : Text.lower spelling = "decode")
    (given : f.args = operand :: search :: result :: rest) (c : Cursor) :
    resolveCall d f spelling c =
      .ok (.caseWhen f.pos (some operand)
        ((Reshape.pairUp (search :: result :: rest)).map fun (search, result) => ⟨search, result⟩)
        (if (search :: result :: rest).length % 2 = 1 then (search :: result :: rest).getLast? else none), c) := by
  have found : d.function? spelling = some (.shape 3 Reshape.decode) := by rw [Dialect.function?, named, reads]
  have enough : ¬f.args.length < 3 := by simp [given]
  have pairs : ¬(search :: result :: rest).length < 2 := by simp
  simp only [resolveCall, found, FunctionRule.shape, Bool.false_eq_true, enough, if_false, if_true]
  simp only [Reshape.decode, given, pairs, if_false]
  rfl

/-- A call of `DECODE` with a search value and its result is read as a `CASE` over the first argument. For all values
of the arguments it evaluates to what `DECODE` does, unless the operand is `NULL` and the result beside the first
`NULL` among the search values is not the default. -/
theorem decode_value_iff (member : d ∈ decoders) (named : Text.lower spelling = "decode")
    (given : f.args = operand :: search :: result :: rest) : ∃ arms otherwise,
      (∀ c, resolveCall d f spelling c = .ok (.caseWhen f.pos (some operand) arms otherwise, c)) ∧
      ∀ {α : Type} (v : Valuation α),
        v.caseValue operand otherwise arms = v.decode operand (search :: result :: rest) ↔
          (v.value operand = none →
            v.pick Option.isNone (search :: result :: rest) = v.fallback (search :: result :: rest)) :=
  ⟨_, _, resolveCall_decode (decoders_read member) named given, fun _ => Valuation.caseValue_eq_decode_iff _⟩

/-- Literals of numbers have their text as value; everything else is `NULL`. -/
def numbersOnly : Valuation String where
  value
    | .literal _ .number text => some text
    | _ => none
  equal := (· == ·)

theorem number_decoded : ∃ arms otherwise,
    (∀ c, resolveCall Oracle.profile.dialect { name := "DECODE", args :=
      [.num "2", .null, .num "1", .num "2", .num "3"] }
      "DECODE" c = .ok (.caseWhen {} (some (.num "2")) arms otherwise, c)) ∧
    numbersOnly.caseValue (.num "2") otherwise arms =
    numbersOnly.decode (.num "2") [.null, .num "1", .num "2", .num "3"] := by
  have oracle : Oracle.profile.dialect ∈ decoders := by simp [decoders]
  have named : Text.lower "DECODE" = "decode" := by decide +kernel
  obtain ⟨arms, otherwise, read, exact⟩ := decode_value_iff oracle named
    (f := { name := "DECODE", args := [.num "2", .null, .num "1", .num "2", .num "3"] }) rfl
  exact ⟨arms, otherwise, read, (exact numbersOnly).mpr fun missing => absurd missing (Option.some_ne_none _)⟩

/-- `DECODE(NULL, NULL, 1, 2)` is 1, and the `CASE` that it is read as is 2. -/
theorem null_search_unmatched : ∃ arms otherwise,
    (∀ c, resolveCall Oracle.profile.dialect { name := "DECODE", args :=
      [.null, .null, .num "1", .num "2"] } "DECODE" c =
      .ok (.caseWhen {} (some .null) arms otherwise, c)) ∧
    numbersOnly.decode .null [.null, .num "1", .num "2"] = some "1" ∧
    numbersOnly.caseValue .null otherwise arms = some "2" := by
  have oracle : Oracle.profile.dialect ∈ decoders := by simp [decoders]
  have named : Text.lower "DECODE" = "decode" := by decide +kernel
  exact ⟨_, _, resolveCall_decode (decoders_read oracle) named rfl, rfl, rfl⟩

end Parser

end SqlDialects
