import SqlDialects.Proofs.TypeTexts
import SqlDialects.Proofs.TypeTokens

/-! Native types in their own dialect. What is printed of such a type is read back as a type with the same name and the
same numbers, and with nothing inside: it is the same type exactly if nothing was inside. -/

namespace SqlDialects

/-! ### Letters in upper case -/

namespace Text

/-- The code points of a run. -/
private def points (run : CaseRun) : List Nat :=
  (List.range ((run.last - run.first) / run.step + 1)).map fun i => run.first + i * run.step

/-- Where a run moves a code point. -/
private def image (run : CaseRun) (n : Nat) : Nat := (n + run.shift).toNat

private theorem mem_points {run : CaseRun} {n : Nat} (covered : run.covers n = true) : n ∈ points run := by
  simp only [CaseRun.covers, Bool.and_eq_true, decide_eq_true_eq, beq_iff_eq] at covered
  obtain ⟨⟨low, high⟩, whole⟩ := covered
  refine List.mem_map.mpr ⟨(n - run.first) / run.step, ?_, ?_⟩
  · exact List.mem_range.mpr (Nat.lt_succ_of_le (Nat.div_le_div_right (by omega)))
  · rw [Nat.div_mul_cancel (Nat.dvd_of_mod_eq_zero whole)]
    omega

/-- No letter in upper case is one that some run moves. -/
private theorem upperRuns_apart : (upperRuns.all fun run => upperRuns.all fun other =>
    (image run run.last).blt other.first || other.last.blt (image run run.first) ||
      (points run).all fun n => !other.covers (image run n)) = true := by
  decide +kernel

private theorem not_covers_image {run other : CaseRun} (member : run ∈ upperRuns) (also : other ∈ upperRuns) {n : Nat}
    (covered : run.covers n = true) : other.covers (image run n) = false := by
  have point := mem_points covered
  simp only [CaseRun.covers, Bool.and_eq_true, decide_eq_true_eq] at covered
  have checked := List.all_eq_true.mp (List.all_eq_true.mp upperRuns_apart run member) other also
  rw [Bool.or_eq_true, Bool.or_eq_true, Nat.blt_eq, Nat.blt_eq, List.all_eq_true] at checked
  obtain (before | beyond) | apart := checked
  · have below : image run n ≤ image run run.last := by simp only [image]; omega
    simp [CaseRun.covers, Nat.not_le_of_lt (Nat.lt_of_le_of_lt below before)]
  · have above : image run run.first ≤ image run n := by simp only [image]; omega
    simp [CaseRun.covers, Nat.not_le_of_lt (Nat.lt_of_lt_of_le beyond above)]
  · simpa using apart n point

private theorem upperRuns_letters : (upperRuns.all fun run => (points run).all fun n =>
    isIdentStart (Char.ofNat (image run n)) &&
      ((0x80).ble (image run n) || (Char.ofNat (image run n)).toUpper == Char.ofNat (image run n))) = true := by
  decide +kernel

private theorem upperChar_ascii : ∀ n < 0x80, upperChar (upperChar (Char.ofNat n)) = upperChar (Char.ofNat n) ∧
    (isIdentStart (Char.ofNat n) → isIdentStart (upperChar (Char.ofNat n))) ∧
    (isIdentChar (Char.ofNat n) → isIdentChar (upperChar (Char.ofNat n))) := by
  decide +kernel

/-- A letter is in upper case after one step. Letters stay letters, and characters of a word stay such characters. -/
theorem upperChar_letter (c : Char) : upperChar (upperChar c) = upperChar c ∧
    (isIdentStart c → isIdentStart (upperChar c)) ∧ (isIdentChar c → isIdentChar (upperChar c)) := by
  by_cases ascii : c.toNat < 0x80
  · have checked := upperChar_ascii c.toNat ascii
    rwa [Char.ofNat_toNat] at checked
  have wide {c : Char} (large : ¬c.toNat < 0x80) : isIdentStart c = true := by
    simp [isIdentStart, Nat.le_of_not_lt large]
  suffices settled : upperChar (upperChar c) = upperChar c ∧ isIdentStart (upperChar c) = true from
    ⟨settled.1, fun _ => settled.2, fun _ => by simp [isIdentChar, settled.2]⟩
  cases found : upperRuns.find? (·.covers c.toNat) with
  | none =>
    have same : upperChar c = c := by rw [upperChar, if_neg ascii, shiftBy, found]
    rw [same]
    exact ⟨same, wide ascii⟩
  | some run =>
    have moved : upperChar c = Char.ofNat (image run c.toNat) := by
      rw [upperChar, if_neg ascii, shiftBy, found]
      rfl
    have member := List.mem_of_find?_eq_some found
    have covered : run.covers c.toNat = true := by simpa using List.find?_some found
    have letters := List.all_eq_true.mp (List.all_eq_true.mp upperRuns_letters run member) c.toNat (mem_points covered)
    rw [Bool.and_eq_true, Bool.or_eq_true, Nat.ble_eq, beq_iff_eq] at letters
    obtain ⟨starts, settled⟩ := letters
    rw [moved]
    refine ⟨?_, starts⟩
    have visible : (Char.ofNat (image run c.toNat)).toNat = image run c.toNat := by
      refine (toNat_ofNat _).resolve_right fun zero => ?_
      rw [← Char.ofNat_toNat (Char.ofNat (image run c.toNat)), zero] at starts
      exact absurd starts (by decide)
    rw [upperChar, visible]
    split
    · exact settled.resolve_left (by omega)
    · have none : upperRuns.find? (·.covers (Char.ofNat (image run c.toNat)).toNat) = none := by
        rw [visible]
        exact List.find?_eq_none.mpr fun other also => by simp [not_covers_image member also covered]
      rw [shiftBy, none]

theorem upper_upper (s : String) : upper (upper s) = upper s := by
  rw [← String.toList_inj, toList_upper, toList_upper, List.map_map]
  exact List.map_congr_left fun c _ => (upperChar_letter c).1

end Text

/-! ### Words -/

theorem IsWord.upper {text : String} (word : IsWord text) : IsWord (Text.upper text) := by
  obtain ⟨c, cs, shape, starts, all⟩ := word
  refine ⟨Text.upperChar c, cs.map Text.upperChar, by rw [Text.toList_upper, shape, List.map_cons], ?_, ?_⟩
  · exact (Text.upperChar_letter c).2.1 starts
  · rw [List.all_map, List.all_eq_true]
    exact fun c member => (Text.upperChar_letter c).2.2 (List.all_eq_true.mp all c member)

/-- A name as the reader makes it: an upper-case word, alone or with a word that continues it or with a zone. -/
inductive TypeName : String → Prop
  | word {name : String} (shape : IsWord name) (upper : Text.upper name = name) : TypeName name
  | continued {first next : String} (known : next ∈ Parser.continuationsOf first) : TypeName (first ++ " " ++ next)
  | zoned {time zone : String} (timed : time ∈ ["TIMESTAMP", "TIME"]) (known : zone ∈ Parser.zones) :
      TypeName (time ++ zone)

theorem extensible_typeName : Parser.Extensible TypeName :=
  ⟨fun _ _ _ known => .continued known, fun _ timed _ _ known => .zoned timed known⟩

private theorem registered_zones : ∀ entry ∈ Registry.standard.entries, ∀ time ∈ ["TIMESTAMP", "TIME"],
    ∀ zone ∈ Parser.zones, (entry.dialect.types.find? (time ++ zone)).isSome = true := by
  decide +kernel

open Token SqlDialects.Parser

variable {d : Dialect}

theorem spellsBefore_isWord {lexicon : Lexicon} (regular : lexicon.Regular) {text : String} (shape : IsWord text) :
    SpellsBefore lexicon (StopsAt isIdentChar) text.toList [Token.word lexicon text] := by
  obtain ⟨c, cs, shape, starts, all⟩ := shape
  exact spellsBefore_word regular shape starts all

private theorem continuation_words {first next : String} (known : next ∈ continuationsOf first) :
    ∀ w ∈ [first, next], IsWord w ∧ Text.upper w = w := by
  have checked : ∀ pair ∈ typeContinuations, ∀ next ∈ pair.2, ∀ w ∈ [pair.1, next],
      IsWord w ∧ w.toList.map Text.upperChar = w.toList := by
    decide
  intro w member
  cases held : typeContinuations.lookup first with
  | none => simp [continuationsOf, held] at known
  | some list =>
    obtain ⟨before, after, entries, _⟩ := List.lookup_eq_some_iff.mp held
    have entry : (first, list) ∈ typeContinuations := by simp [entries]
    obtain ⟨shape, upper⟩ := checked (first, list) entry next (by simpa [continuationsOf, held] using known) w member
    exact ⟨shape, Text.upper_eq upper⟩

theorem TypeName.spells (regular : d.toLexicon.Regular) {name : String} (named : TypeName name)
    (unzoned : ∀ time ∈ ["TIMESTAMP", "TIME"], ∀ zone ∈ Parser.zones, name ≠ time ++ zone) :
    ∃ words, SpellsName d name words ∧ SpellsBefore d.toLexicon (StopsAt isIdentChar) name.toList words := by
  cases named with
  | word shape upper =>
    have single := SpellsName.single (d := d) name
    rw [upper] at single
    exact ⟨_, single, spellsBefore_isWord regular shape⟩
  | @continued first next known =>
    have words := continuation_words known
    obtain ⟨shape, upper⟩ := words first (by simp)
    obtain ⟨shape', upper'⟩ := words next (by simp)
    have named : SpellsName d (Text.upper first ++ " " ++ Text.upper next) _ := .continued (by rwa [upper, upper'])
    rw [upper, upper'] at named
    refine ⟨_, named, ?_⟩
    have text : (first ++ " " ++ next).toList = first.toList ++ ' ' :: next.toList := by simp [String.toList_append]
    rw [text]
    refine (spellsBefore_isWord regular shape).append
      ((spellsBefore_isWord regular shape').blank regular) fun tail _ => ?_
    rintro c ⟨⟩
    decide
  | zoned timed known => exact absurd rfl (unzoned _ timed _ known)

/-! ### Numbers -/

private theorem digit_ne {c : Char} (digit : c.isDigit = true) : c ≠ '-' ∧ c ≠ '+' := by
  constructor <;> (rintro rfl; exact absurd digit (by decide))

/-- Digits are read as the number they count up to, and behind a minus sign as its negative. -/
theorem readInt?_digits {ds : List Char} (nonempty : ds ≠ []) (digits : ∀ c ∈ ds, c.isDigit = true) :
    Decimal.readInt? ds = some (Nat.ofDigitChars 10 ds 0 : Int) ∧
      Decimal.readInt? ('-' :: ds) = some (-(Nat.ofDigitChars 10 ds 0 : Int)) := by
  rw [Nat.ofDigitChars_eq_foldl]
  obtain ⟨c, cs, rfl⟩ := List.exists_cons_of_ne_nil nonempty
  obtain ⟨noMinus, noPlus⟩ := digit_ne (digits c List.mem_cons_self)
  have all : (c :: cs).all Char.isDigit = true := List.all_eq_true.mpr digits
  refine ⟨?_, ?_⟩
  · rw [Decimal.readInt?]
    · simp only [List.isEmpty_cons, Bool.not_false, all, Bool.and_self, if_true]
    · exact fun ds equal => noMinus (List.cons.inj equal).1
    · exact fun ds equal => noPlus (List.cons.inj equal).1
  · simp only [Decimal.readInt?, List.isEmpty_cons, Bool.not_false, all, Bool.and_self, if_true, Option.map_some]

theorem readInt?_repr (n : Nat) :
    Decimal.readInt? n.repr.toList = some (n : Int) ∧ Decimal.readInt? ('-' :: n.repr.toList) = some (-n : Int) := by
  have value : Nat.ofDigitChars 10 n.repr.toList 0 = n := by rw [Nat.toList_repr, Nat.ofDigitChars_ten_toDigits]
  have read := readInt?_digits (digits_repr n).1 (digits_repr n).2
  rwa [value] at read

/-- The text of a number is read as the number. -/
theorem leadingInt?_repr {n : Int} (fits : Decimal.fits 64 n) : NativeType.leadingInt? n.repr = some n := by
  have taken (m : Nat) : m.repr.toList.takeWhile Char.isDigit = m.repr.toList := by
    have whole : (m.repr.toList ++ []).takeWhile Char.isDigit = _ := List.takeWhile_append_of_pos (digits_repr m).2
    simpa only [List.append_nil, List.takeWhile_nil] using whole
  rw [Int.repr_eq_if]
  split
  · next natural =>
    have value : (n.toNat : Int) = n := Int.toNat_of_nonneg natural
    obtain ⟨c, cs, shape⟩ := List.exists_cons_of_ne_nil (digits_repr n.toNat).1
    obtain ⟨noMinus, noPlus⟩ := digit_ne ((digits_repr n.toNat).2 c (by simp [shape]))
    have read := (readInt?_repr n.toNat).1
    have all := taken n.toNat
    rw [shape] at read all
    simp [NativeType.leadingInt?, shape, noMinus, noPlus, all, read, value, fits]
  · next negative =>
    have value : -((-n).toNat : Int) = n := by omega
    have read := (readInt?_repr (-n).toNat).2
    have all := taken (-n).toNat
    have text : ("-" ++ (-n).toNat.repr).toList = '-' :: (-n).toNat.repr.toList := String.toList_append
    unfold NativeType.leadingInt?
    rw [text]
    rw [value] at read
    generalize (-n).toNat.repr.toList = ds at read all
    simp [all, read, fits]

/-! ### Native types -/

/-- The numbers of a parsed type are read back. -/
theorem intParams_repr {params : List Int} (sized : ∀ n ∈ params, Decimal.fits 64 n) :
    (params.map Int.repr).filterMap NativeType.leadingInt? = params := by
  induction params with
  | nil => rfl
  | cons n params ih =>
    rw [List.map_cons, List.filterMap_cons_some (leadingInt?_repr (sized n List.mem_cons_self)),
      ih fun m member => sized m (List.mem_cons_of_mem n member)]

/-- A native type with a name of its own dialect and nothing inside is read from the text of its name and numbers. -/
theorem native_reads {d : Dialect} (regular : d.toLexicon.Regular) {name : String} (unknown : d.types.find? name = none)
    (named : TypeName name) (unzoned : ∀ time ∈ ["TIMESTAMP", "TIME"], ∀ zone ∈ Parser.zones, name ≠ time ++ zone)
    {params : List Int} (sized : ∀ n ∈ params, Decimal.fits 64 n) :
    ∃ read, parseType d (name ++ Printer.typeParams params) = .ok read ∧
      read.bare = ({ name, params, native := true } : TypeSpec) := by
  obtain ⟨words, spells, text⟩ := named.spells regular unzoned
  obtain ⟨us, group, whole⟩ := spellsBefore_params regular text params
  have means (n : NativeType) (same : n.bare = ((params.map Element.number).foldl NativeType.add
    { pos := {}, name }).bare) :
      ∃ read, spelled d n = .ok read ∧ read.bare = ({ name, params, native := true } : TypeSpec).bare := by
    rw [foldl_numbers] at same
    simp only [NativeType.bare, NativeType.mk.injEq, List.nil_append] at same
    obtain ⟨_, rfl, written, args, fields, _⟩ := same
    refine ⟨_, by rw [spelled, unknown], ?_⟩
    rw [TypeSpec.bare, TypeSpec.bare, NativeType.intParams, written, intParams_repr sized, args, fields]
  have closed (tail : List Char) (breaks : Breaks tail) : Closes tail := fun c held => .inl (breaks c held)
  exact (spells.reads group means).parse (whole.weaken closed)

/-- The names in a text are words, in quotes or not. -/
def NamesWords (lexicon : Lexicon) (sql : String) : Prop :=
  ∀ tokens, Token.tokenize lexicon sql = .ok tokens → ∀ token ∈ tokens, token.isQuoted = true → IsWord token.text

/-- A native type printed for its own dialect is read back with its name and its numbers and nothing else: it is the
same type exactly if no type is inside it. -/
theorem native_type_reread_iff {entry : Entry} (member : entry ∈ Registry.standard.entries)
    {sql : String} {t : TypeSpec}
    (parsed : parseType entry.dialect sql = .ok t) (native : t.native = true)
    (unknown : entry.dialect.types.find? t.name = none) (words : NamesWords entry.dialect.toLexicon sql) :
    ∃ text u, (entry.dialect.printerFrom entry.dialect).typeSpec t = .ok text ∧ parseType entry.dialect text = .ok u ∧
      u.equal { t with elems := [], fields := [] } = true ∧ (u.equal t = true ↔ t.elems = [] ∧ t.fields = []) := by
  have regular := (registered_regular member).lexicon
  have formed : t.Formed TypeName := by
    refine parseType_delivers (registered_reads member) extensible_typeName
      (fun tokens lexed token listed name => ?_) parsed
    obtain ⟨upper, shape⟩ := tokensFrom_named lexed listed name
    have word : IsWord token.text := shape.elim (words tokens lexed token listed) id
    rw [upper]
    exact .word word.upper (Text.upper_upper token.text)
  obtain ⟨named, sized⟩ : TypeName t.name ∧ ∀ n ∈ t.params, Decimal.fits 64 n := by
    cases formed with
    | native _ named sized _ _ => exact ⟨named, sized⟩
    | canonical canonical => rw [native] at canonical; cases canonical
  have unzoned : ∀ time ∈ ["TIMESTAMP", "TIME"], ∀ zone ∈ Parser.zones, t.name ≠ time ++ zone := by
    intro time timed zone known equal
    have found := registered_zones entry member time timed zone known
    rw [← equal, unknown] at found
    cases found
  obtain ⟨u, read, same⟩ := native_reads regular unknown named unzoned sized
  have accepted : (entry.dialect.printerFrom entry.dialect).refuses t = false := by
    rw [← Dialect.refusesFrom_eq, Dialect.refusesFrom, if_pos native, bne_self_eq_false]
  refine ⟨_, u, Printer.typeSpec_native native accepted, read, ?_, ?_⟩
  · rw [TypeSpec.equal_iff, same, TypeSpec.bare, native]
    rfl
  · obtain ⟨pos, name, params, elems, fields, native'⟩ := t
    obtain rfl : native' = true := native
    rw [TypeSpec.equal_iff, same, TypeSpec.bare, bareElems_eq, bareFields_eq, TypeSpec.mk.injEq]
    simp only [true_and, and_true, eq_comm (a := []), List.map_eq_nil_iff]

/-- Two numbers. -/
theorem native_numbers_kept : ∃ t text u, parseType ClickHouse.profile.dialect "Foo(1, 2)" = .ok t ∧ t.native = true ∧
    ClickHouse.profile.dialect.types.find? t.name = none ∧ NamesWords ClickHouse.profile.dialect.toLexicon "Foo(1, 2)" ∧
    (ClickHouse.profile.dialect.printerFrom ClickHouse.profile.dialect).typeSpec t = .ok text ∧
    parseType ClickHouse.profile.dialect text = .ok u ∧ u.equal t = true := by
  obtain ⟨t, parsed, checked⟩ := ok_of_any (x := parseType ClickHouse.profile.dialect "Foo(1, 2)")
    (p := fun t => t.native && (ClickHouse.profile.dialect.types.find? t.name).isNone &&
      t.elems.isEmpty && t.fields.isEmpty)
    (by decide +kernel)
  simp only [Bool.and_eq_true, List.isEmpty_iff, Option.isNone_iff_eq_none] at checked
  obtain ⟨⟨⟨native, unknown⟩, elems⟩, fields⟩ := checked
  have words : NamesWords ClickHouse.profile.dialect.toLexicon "Foo(1, 2)" := by
    have unquoted : ((tokenize ClickHouse.profile.dialect.toLexicon "Foo(1, 2)").toOption.all fun tokens =>
        tokens.all fun token => !token.isQuoted) = true := by decide +kernel
    intro tokens lexed token listed quoted
    rw [lexed] at unquoted
    have bare := List.all_eq_true.mp unquoted token listed
    rw [quoted] at bare
    cases bare
  have member : Entry.ofProfile ClickHouse.profile ∈ Registry.standard.entries := by simp [Registry.standard]
  obtain ⟨text, u, printed, read, _, exact⟩ := native_type_reread_iff member parsed native unknown words
  exact ⟨t, text, u, parsed, native, unknown, words, printed, read, exact.mpr ⟨elems, fields⟩⟩

/-- The states of an aggregate function lose the function and the type of its argument, and a name in quotes that is no
word is read back as another one or not at all. -/
theorem native_types_lost : (∃ t u, parseType ClickHouse.profile.dialect "AggregateFunction(sum, UInt64)" = .ok t ∧
      t.native = true ∧ ClickHouse.profile.dialect.types.find? t.name = none ∧
      (ClickHouse.profile.dialect.printerFrom ClickHouse.profile.dialect).typeSpec t = .ok "AGGREGATEFUNCTION" ∧
      parseType ClickHouse.profile.dialect "AGGREGATEFUNCTION" = .ok u ∧ u.equal t = false) ∧
    ∃ t, parseType Postgres.profile.dialect "\x22my type\x22" = .ok t ∧ t.native = true ∧
      Postgres.profile.dialect.types.find? t.name = none ∧
      (Postgres.profile.dialect.printerFrom Postgres.profile.dialect).typeSpec t = .ok "MY TYPE" ∧
      (parseType Postgres.profile.dialect "MY TYPE").isOk = false := by
  refine ⟨?_, ?_⟩
  · obtain ⟨t, parsed, checked⟩ := ok_of_any (x := parseType ClickHouse.profile.dialect
      "AggregateFunction(sum, UInt64)")
      (p := fun t => t.native && t.name == "AGGREGATEFUNCTION" && t.params.isEmpty && !t.elems.isEmpty)
      (by decide +kernel)
    obtain ⟨u, read, bare⟩ := ok_of_any (x := parseType ClickHouse.profile.dialect "AGGREGATEFUNCTION")
      (p := fun u => u.elems.isEmpty) (by decide +kernel)
    simp only [Bool.and_eq_true, beq_iff_eq, List.isEmpty_iff, Bool.not_eq_true',
      List.isEmpty_eq_false_iff] at checked bare
    obtain ⟨⟨⟨native, name⟩, params⟩, inside⟩ := checked
    have accepted : (ClickHouse.profile.dialect.printerFrom ClickHouse.profile.dialect).refuses t = false := by
      rw [← Dialect.refusesFrom_eq, Dialect.refusesFrom, if_pos native, bne_self_eq_false]
    refine ⟨t, u, parsed, native, by rw [name]; decide +kernel, ?_, read, ?_⟩
    · rw [Printer.typeSpec_native native accepted, name, params]
      rfl
    · rw [Bool.eq_false_iff, Ne, TypeSpec.equal_iff]
      intro same
      have elems := congrArg TypeSpec.elems same
      rw [u.elems_bare, t.elems_bare, bare, List.map_nil, eq_comm, List.map_eq_nil_iff] at elems
      exact inside elems
  · obtain ⟨t, parsed, checked⟩ := ok_of_any (x := parseType Postgres.profile.dialect "\x22my type\x22")
      (p := fun t => t.native && t.name == "MY TYPE" && t.params.isEmpty) (by decide +kernel)
    simp only [Bool.and_eq_true, beq_iff_eq, List.isEmpty_iff] at checked
    obtain ⟨⟨native, name⟩, params⟩ := checked
    have accepted : (Postgres.profile.dialect.printerFrom Postgres.profile.dialect).refuses t = false := by
      rw [← Dialect.refusesFrom_eq, Dialect.refusesFrom, if_pos native, bne_self_eq_false]
    refine ⟨t, parsed, native, by rw [name]; decide +kernel, ?_, by decide +kernel⟩
    rw [Printer.typeSpec_native native accepted, name, params]
    rfl

end SqlDialects
