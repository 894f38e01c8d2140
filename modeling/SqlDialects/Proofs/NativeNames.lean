import SqlDialects.Proofs.CallText

/-! Names under which a dialect's table knows the functions that it only renames. Such a name is a word that no
syntax of its own claims, however its letters are cased. -/

namespace SqlDialects

/-! ### Letters in lower case -/

namespace Text

/-- Only these two of the characters above ASCII have a lower case in ASCII. -/
private theorem lowerRuns_ascii : ∀ run ∈ lowerRuns, run.first + run.shift < 0x80 →
    run.first = run.last ∧ run.first ∈ [0x130, 0x212a] := by
  decide +kernel

/-- Within ASCII the case of a letter decides neither its place in a word nor its lower case. -/
private theorem ascii_cases : ∀ n < 0x80, (isIdentChar (lowerChar (Char.ofNat n)) → isIdentChar (Char.ofNat n)) ∧
    (isIdentStart (lowerChar (Char.ofNat n)) → isIdentStart (Char.ofNat n)) ∧
    lowerChar (upperChar (Char.ofNat n)) = lowerChar (Char.ofNat n) := by
  decide +kernel

theorem ident_of_lowerChar {c : Char} (ident : isIdentChar (lowerChar c)) : isIdentChar c := by
  by_cases ascii : c.toNat < 0x80
  · have same := (ascii_cases c.toNat ascii).1
    rw [Char.ofNat_toNat] at same
    exact same ident
  · simp [isIdentChar, isIdentStart, Nat.le_of_not_lt ascii]

theorem start_of_lowerChar {c : Char} (start : isIdentStart (lowerChar c)) : isIdentStart c := by
  by_cases ascii : c.toNat < 0x80
  · have same := (ascii_cases c.toNat ascii).2.1
    rw [Char.ofNat_toNat] at same
    exact same start
  · simp [isIdentStart, Nat.le_of_not_lt ascii]

theorem lowerChar_upperChar {c : Char} (ident : isIdentChar (lowerChar c)) (ascii : (lowerChar c).toNat < 0x80)
    (upper : (upperChar c).toNat < 0x80) : lowerChar (upperChar c) = lowerChar c := by
  by_cases low : c.toNat < 0x80
  · have same := (ascii_cases c.toNat low).2.2
    rwa [Char.ofNat_toNat] at same
  · suffices moved : c.toNat ∈ [0x130, 0x212a] by
      have stay : ∀ n ∈ [0x130, 0x212a], ¬(upperChar (Char.ofNat n)).toNat < 0x80 := by decide
      have same := stay c.toNat moved
      rw [Char.ofNat_toNat] at same
      contradiction
    rw [lowerChar, if_neg low, shiftBy] at ascii ident
    cases found : lowerRuns.find? (·.covers c.toNat) with
    | none =>
      rw [found] at ascii
      exact absurd ascii low
    | some run =>
      simp only [found] at ascii ident
      have member := List.mem_of_find?_eq_some found
      have covered := List.find?_some found
      simp only [CaseRun.covers, Bool.and_eq_true, decide_eq_true_eq] at covered
      have positive : (Char.ofNat (c.toNat + run.shift).toNat).toNat ≠ 0 := by
        intro zero
        rw [← Char.ofNat_toNat (Char.ofNat _), zero] at ident
        exact absurd ident (by decide)
      have stands := toNat_ofNat (c.toNat + run.shift).toNat
      obtain ⟨single, listed⟩ := lowerRuns_ascii run member (by omega)
      obtain same : c.toNat = run.first := by omega
      rwa [same]

/-- A byte of ASCII stands for itself, and any other character takes several bytes that are not ASCII. -/
private theorem utf8_ascii {c : Char} (ascii : (String.utf8EncodeChar c).all (· < 0x80)) :
    (String.utf8EncodeChar c).map (fun b => Char.ofNat b.toNat) = [c] := by
  simp only [String.utf8EncodeChar] at ascii ⊢
  split at ascii
  case isTrue small =>
    have fits : c.val.toNat < UInt8.size := Nat.lt_of_le_of_lt small (by decide)
    rw [if_pos small, List.map_singleton, UInt8.toNat_ofNat_of_lt' fits]
    exact congrArg ([·]) (Char.ofNat_toNat c)
  case isFalse =>
    exfalso
    split at ascii
    · simp [UInt8.lt_iff_toNat_lt] at ascii
      omega
    · split at ascii <;> simp [UInt8.lt_iff_toNat_lt] at ascii <;> omega

theorem toList_of_bytes {s : String} (ascii : s.toByteArray.data.toList.all (· < 0x80)) :
    s.toList = s.toByteArray.data.toList.map fun b => Char.ofNat b.toNat := by
  have bytes : s.toByteArray.data.toList = s.toList.flatMap String.utf8EncodeChar := by
    conv => lhs; rw [← String.utf8Encode_toList, List.utf8Encode]
    simp
  rw [bytes] at ascii ⊢
  generalize s.toList = cs at ascii
  induction cs with
  | nil => rfl
  | cons c cs ih =>
    rw [List.flatMap_cons, List.all_append, Bool.and_eq_true] at ascii
    rw [List.flatMap_cons, List.map_append, ← ih ascii.2, utf8_ascii ascii.1, List.singleton_append]

end Text

/-! ### Tables step by step -/

/-- Words that a call cannot start with, letter by letter in lower case. -/
def claimedWords : List (List Char) := [['n', 'u', 'l', 'l'], ['t', 'r', 'u', 'e'], ['f', 'a', 'l', 's', 'e'],
  ['n', 'o', 't'], ['c', 'a', 's', 'e'], ['i', 'n', 't', 'e', 'r', 'v', 'a', 'l'], ['c', 'a', 's', 't'],
  ['t', 'r', 'y', '_', 'c', 'a', 's', 't'], ['s', 'a', 'f', 'e', '_', 'c', 'a', 's', 't'],
  ['e', 'x', 'i', 's', 't', 's'], ['e', 'x', 't', 'r', 'a', 'c', 't'], ['t', 'r', 'i', 'm'],
  ['s', 'e', 'l', 'e', 'c', 't'], ['w', 'i', 't', 'h'], ['i', 'n', 's', 'e', 'r', 't'],
  ['c', 'r', 'e', 'a', 't', 'e'], ['d', 'r', 'o', 'p'], ['e', 'x', 'p', 'l', 'a', 'i', 'n']]

private theorem claimed_letters :
    (ownSyntax ++ statementWords).map (fun w => w.toList.map Text.lowerChar) = claimedWords ∧
      (ownSyntax ++ statementWords).all fun w => w.toList.all (·.toNat < 0x80) := by
  decide +kernel

/-- The lower-case letters of a word of ASCII characters that no syntax claims. -/
def NativeLetters (letters : List Char) : Prop :=
  letters.head?.any isIdentStart ∧ letters.all (fun c => isIdentChar c && c.toNat < 0x80) ∧ letters ∉ claimedWords

instance (letters : List Char) : Decidable (NativeLetters letters) := inferInstanceAs (Decidable (_ ∧ _ ∧ _))

/-- A word of ASCII characters that no syntax claims in any case. -/
def NativeName (name : String) : Prop := NativeLetters (name.toList.map Text.lowerChar)

-- Bytes are at hand where a text has to be decoded, which counts in a table of many names.
instance (name : String) : Decidable (NativeName name) :=
  if ascii : name.toByteArray.data.toList.all (· < 0x80) then
    decidable_of_iff (NativeLetters ((name.toByteArray.data.toList.map fun b => Char.ofNat b.toNat).map Text.lowerChar))
      (by rw [NativeName, Text.toList_of_bytes ascii])
  else inferInstanceAs (Decidable (NativeLetters _))

/-- Every function that the table only renames goes by a native name, with any number of arguments. -/
def Dictionary.Native (functions : Dictionary FunctionRule) : Prop :=
  ∀ entry ∈ functions.entries, entry.2.reshape = none → entry.2.unmappable = false →
    entry.2 = .rename entry.2.name ∧ entry.2.name ≠ "" ∧ ∃ name, NativeName name ∧ entry.1 = Text.lower name

theorem NativeName.same {name other : String} (native : NativeName name) (same : Text.lower other = Text.lower name) :
    IsWord other ∧ Text.upper other ∉ ownSyntax ++ statementWords := by
  have letters : other.toList.map Text.lowerChar = name.toList.map Text.lowerChar := by
    rw [← Text.toList_lower, same, Text.toList_lower]
  obtain ⟨starts, all, unclaimed⟩ := native
  rw [← letters] at starts all unclaimed
  simp only [List.all_map, List.all_eq_true, Function.comp_apply, Bool.and_eq_true, decide_eq_true_eq] at all
  constructor
  · cases shape : other.toList with
    | nil => simp [shape] at starts
    | cons c cs =>
      rw [shape] at starts all
      refine ⟨c, cs, shape, Text.start_of_lowerChar (by simpa using starts),
        List.all_eq_true.mpr fun other member => ?_⟩
      exact Text.ident_of_lowerChar (all other (List.mem_cons_of_mem c member)).1
  · intro claimed
    have upper := List.all_eq_true.mp claimed_letters.2 _ claimed
    simp only [Text.toList_upper, List.all_map, List.all_eq_true, Function.comp_apply, decide_eq_true_eq] at upper
    rw [← claimed_letters.1] at unclaimed
    refine unclaimed (List.mem_map.mpr ⟨_, claimed, ?_⟩)
    rw [Text.toList_upper, List.map_map]
    exact List.map_congr_left fun c member => Text.lowerChar_upperChar (all c member).1
      (all c member).2 (upper c member)

theorem Dictionary.native_insert {functions : Dictionary FunctionRule} {rule : FunctionRule} {name : String}
    (fine : rule.reshape = none → rule.unmappable = false → rule = .rename rule.name ∧
      rule.name ≠ "" ∧ NativeName name) :
    (functions.insert (Text.lower name) rule).Native ↔ functions.Native := by
  constructor
  · exact fun held entry member => held entry (List.mem_cons_of_mem _ member)
  · intro held entry member unshaped mapped
    obtain rfl | old := List.mem_cons.mp member
    · obtain ⟨plain, named, native⟩ := fine unshaped mapped
      exact ⟨plain, named, name, native, rfl⟩
    · exact held entry old unshaped mapped

namespace Dialect

/-- The dialect's table of functions has native names only. -/
def Native (d : Dialect) : Prop := d.functions.Native

variable {d : Dialect}

theorem native_of_functions {other : Dialect} (native : other.Native)
    (same : d.functions = other.functions) : d.Native := by
  rw [Native, same]
  exact native

theorem native_foldl {α : Type} {step : Dialect → α → Dialect} (list : List α)
    (kept : ∀ a ∈ list, ∀ d, (step d a).Native ↔ d.Native) : (list.foldl step d).Native ↔ d.Native :=
  list.foldlRecOn (motive := fun last => last.Native ↔ d.Native) step Iff.rfl
    fun _ sofar a member => (kept a member _).trans sofar

theorem native_withFunction {rule : FunctionRule} {names : List String}
    (fine : rule.reshape = none → rule.unmappable = false →
      rule = .rename rule.name ∧ rule.name ≠ "" ∧ ∀ name ∈ names, NativeName name) :
    (d.withFunction rule names).Native ↔ d.Native := by
  suffices entered : ∀ (keys : List String) (functions : Dictionary FunctionRule), keys ⊆ names →
      ((functions.insertEach rule (keys.map Text.lower)).Native ↔ functions.Native) from
    entered names d.functions (List.Subset.refl _)
  intro keys functions inside
  induction keys generalizing functions with
  | nil => rfl
  | cons key keys ih =>
    have first : (functions.insert (Text.lower key) rule).Native ↔ functions.Native := by
      refine Dictionary.native_insert fun unshaped mapped => ?_
      obtain ⟨plain, named, natives⟩ := fine unshaped mapped
      exact ⟨plain, named, natives key (inside List.mem_cons_self)⟩
    exact (ih _ fun _ later => inside (List.mem_cons_of_mem key later)).trans first

theorem native_withShape (minArgs : Nat) (reshape : Reshape) (names : List String) :
    (d.withShape minArgs reshape names).Native ↔ d.Native :=
  native_withFunction fun unshaped => nomatch unshaped

theorem native_withRenames {pairs : List (String × String)} (each : ∀ pair ∈ pairs, NativeName pair.1 ∧ pair.2 ≠ "") :
    (d.withRenames pairs).Native ↔ d.Native := by
  refine native_foldl pairs fun pair member d => native_withFunction fun _ _ => ?_
  exact ⟨rfl, (each pair member).2, by simpa using (each pair member).1⟩

theorem native_withPairs {pairs : List (String × String)} (each : ∀ pair ∈ pairs, NativeName pair.2 ∧ pair.1 ≠ "") :
    (d.withPairs pairs).Native ↔ d.Native := by
  refine native_foldl pairs fun pair member d => native_withFunction fun _ _ => ?_
  exact ⟨rfl, (each pair member).2, by simpa using (each pair member).1⟩

/-! The other steps leave the functions as they are. -/

theorem native_withSpellings (pairs : List (String × String)) : (d.withSpellings pairs).Native ↔ d.Native := Iff.rfl

theorem native_withType (rule : TypeRule) (names : List String) : (d.withType rule names).Native ↔ d.Native := Iff.rfl

theorem native_withTypeNames (pairs : List (String × String)) : (d.withTypeNames pairs).Native ↔ d.Native := Iff.rfl

theorem native_withoutTypes (names : List String) : (d.withoutTypes names).Native ↔ d.Native := Iff.rfl

theorem native_withReserved (words : List String) : (d.withReserved words).Native ↔ d.Native := Iff.rfl

theorem native_withInfix (pairs : List (String × InfixOp)) : (d.withInfix pairs).Native ↔ d.Native := Iff.rfl

theorem native_withNiladic (pairs : List (String × String)) : (d.withNiladic pairs).Native ↔ d.Native := Iff.rfl

end Dialect

open Dialect

/-! ### The registered dialects -/

theorem Ansi.native_dialect (name : String) : (Ansi.dialect name).Native := by
  simp (disch := decide) only [Ansi.dialect, ↓native_withShape, ↓native_withRenames]
  exact fun _ member => nomatch member

theorem Presto.native_dialect (name : String) (aliases : List String) : (Presto.dialect name aliases).Native := by
  simp (disch := decide) only [Presto.dialect, ↓native_withShape, ↓native_withRenames, ↓native_withSpellings,
    ↓native_withPairs, ↓native_withTypeNames, ↓native_withoutTypes, ↓native_withType, List.foldl_cons, List.foldl_nil]
  exact native_of_functions (Ansi.native_dialect name) rfl

theorem Hive.native_base (name : String) : (Hive.base name).Native := by
  simp (disch := decide) only [Hive.base, ↓native_withShape, ↓native_withRenames, ↓native_withSpellings,
    ↓native_withPairs]
  rw [native_foldl Hive.casts fun cast _ d => native_withShape 1 _ [cast.1]]
  exact native_of_functions (Ansi.native_dialect name) rfl

private theorem ClickHouse.native_withCasts (d : Dialect) : (ClickHouse.withCasts d).Native ↔ d.Native := by
  simp only [ClickHouse.withCasts, ↓native_withShape]
  rw [native_foldl, native_foldl]
  · rintro ⟨suffix, typeName, zero⟩ _ d
    simp only [↓native_withShape]
    split
    · simp only [↓native_withShape]
    · split
      · rfl
      · simp only [↓native_withShape]
  · rintro ⟨bits, precision⟩ _ d
    simp only [↓native_withShape]

private theorem ClickHouse.native_withDates (d : Dialect) : (ClickHouse.withDates d).Native ↔ d.Native := by
  simp only [ClickHouse.withDates, ↓native_withShape]
  exact native_foldl ClickHouse.units fun word _ d => by simp only [↓native_withShape]

private theorem ClickHouse.native_withRest (d : Dialect) : (ClickHouse.withRest d).Native ↔ d.Native := by
  simp only [ClickHouse.withRest, ↓native_withShape, List.foldl_cons, List.foldl_nil]
  rw [native_withFunction fun _ _ => ⟨rfl, by decide, by decide⟩]
  simp only [↓native_withShape]

theorem ClickHouse.native_dialect : ClickHouse.dialect.Native := by
  have unmapped (d : Dialect) : (d.withFunction .unmapped ClickHouse.unmappable).Native ↔ d.Native :=
    native_withFunction fun _ mapped => nomatch mapped
  simp (disch := decide +kernel) only [ClickHouse.dialect, ClickHouse.typeBase, ↓native_withShape, ↓native_withRenames,
    ↓native_withSpellings, ↓native_withPairs, ↓ClickHouse.native_withRest, ↓ClickHouse.native_withDates,
    ↓ClickHouse.native_withCasts, ↓unmapped, ↓native_withType, ↓native_withTypeNames, ↓native_withoutTypes,
    ↓native_withReserved]
  exact native_of_functions (Ansi.native_dialect "clickhouse") rfl

/-- The dialects that add steps of their own to a table that they share. -/
private theorem extended_native : ∀ profile ∈ [Postgres.profile, Doris.profile, MySql.profile, Oracle.profile,
    Snowflake.profile, Teradata.profile, Spark.profile, Hive.profile], profile.dialect.Native := by
  simp (disch := decide) only [List.forall_mem_cons, List.not_mem_nil, false_imp_iff, implies_true, and_true,
    Postgres.profile, Doris.profile, MySql.profile, Oracle.profile, Snowflake.profile, Teradata.profile, Spark.profile,
    ↓native_withShape, ↓native_withRenames, ↓native_withSpellings, ↓native_withPairs, ↓native_withTypeNames,
    ↓native_withoutTypes, ↓native_withReserved, ↓native_withInfix, ↓native_withNiladic, ↓native_withType]
  refine ⟨?_, ?_, ?_, ?_, ?_, ?_, ?_, ?_⟩
  · exact native_of_functions (Ansi.native_dialect "postgres") rfl
  · exact native_of_functions (Ansi.native_dialect "doris") rfl
  · exact native_of_functions (Ansi.native_dialect "mysql") rfl
  · exact native_of_functions (Ansi.native_dialect "oracle") rfl
  · exact native_of_functions (Ansi.native_dialect "snowflake") rfl
  · exact native_of_functions (Ansi.native_dialect "teradata") rfl
  · exact native_of_functions (Hive.native_base "spark") rfl
  · exact native_of_functions (Hive.native_base "hive") rfl

theorem registered_native {entry : Entry} (member : entry ∈ Registry.standard.entries) : entry.dialect.Native := by
  obtain ⟨profile, known, rfl⟩ := List.mem_map.mp member
  change profile.dialect.Native
  simp only [List.mem_cons, List.not_mem_nil, or_false] at known
  obtain rfl | rfl | rfl | rfl | rfl | rfl | rfl | rfl | rfl | rfl | rfl := known
  · exact ClickHouse.native_dialect
  · exact extended_native _ (by simp)
  · exact extended_native _ (by simp)
  · exact extended_native _ (by simp)
  · exact extended_native _ (by simp)
  · exact extended_native _ (by simp)
  · exact Presto.native_dialect "presto" ["athena"]
  · exact extended_native _ (by simp)
  · exact extended_native _ (by simp)
  · exact extended_native _ (by simp)
  · exact Presto.native_dialect "trino" []

/-! ### Calls under native names -/

/-- The dialect's table gives the function another name and leaves its arguments as they are. -/
def Dialect.Renames (d : Dialect) (native canonical : String) : Prop :=
  ∃ rule, d.function? native = some rule ∧ rule.reshape = none ∧ rule.unmappable = false ∧ rule.name = canonical

instance (d : Dialect) (native canonical : String) : Decidable (d.Renames native canonical) :=
  decidable_of_iff ((d.function? native).any
      fun rule => rule.reshape.isNone && !rule.unmappable && rule.name == canonical) (by
    simp [Option.any_eq_true, Dialect.Renames, and_assoc])

variable {d : Dialect} {native canonical : String}

private theorem Dialect.Native.rule (held : d.Native) (renames : d.Renames native canonical) :
    d.function? native = some (.rename canonical) ∧ canonical ≠ "" ∧
      ∃ name, NativeName name ∧ Text.lower native = Text.lower name := by
  obtain ⟨rule, found, unshaped, mapped, rfl⟩ := renames
  obtain ⟨before, after, entries, _⟩ := List.lookup_eq_some_iff.mp found
  obtain ⟨plain, named, name, isNative, same⟩ := held (Text.lower native, rule) (by simp [entries]) unshaped mapped
  exact ⟨found.trans (congrArg some plain), named, name, isNative, same⟩

/-- A call of a function that is only renamed is a call under the other name, whatever its arguments. -/
theorem Dialect.Native.resolveCall (held : d.Native) (renames : d.Renames native canonical) (f : Call) (c : Cursor) :
    Parser.resolveCall d f native c = .ok (.call { f with name := canonical }, c) := by
  obtain ⟨found, named, _⟩ := held.rule renames
  simp only [Parser.resolveCall, found, FunctionRule.rename, Bool.false_eq_true, Nat.not_lt_zero, named, if_false]
  rfl

theorem Dialect.Native.word (held : d.Native) (renames : d.Renames native canonical) :
    IsWord native ∧ Text.upper native ∉ ownSyntax ++ statementWords := by
  obtain ⟨_, _, name, isNative, same⟩ := held.rule renames
  exact isNative.same same

theorem parse_renamed {entry : Entry} (member : entry ∈ Registry.standard.entries)
    (renames : entry.dialect.Renames native canonical) {args : List String}
    (each : ∀ a ∈ args, PlainArgument entry.dialect a) :
    ∃ pos read, Statement.parse entry.dialect (callText native args) = .ok (.expression pos read) ∧
      read.bare = (Expr.fn canonical (args.map argumentTree)).bare := by
  have held := registered_native member
  obtain ⟨isWord, ordinary⟩ := held.word renames
  exact parse_callText member isWord ordinary (held.resolveCall renames) each

example : callText "groupArray" ["a", "1"] = "groupArray(a, 1)" := by decide +kernel

end SqlDialects
