import Mathlib.Data.List.SplitBy
import SqlDialects.Proofs.Boundaries
import SqlDialects.Proofs.Canonical
import SqlDialects.Proofs.ParsedShapes

/-! Numbers of a tree. They are spelled in the text, or made by the functions of a dialect, and behind their signs the
lexer reads them as numbers. The exception are numbers out of the quotes of intervals: a text of digits, points and
dashes there becomes a number with that text, and is printed as it is; for the lexer it is a number only if it
consists of digits with at most one point, and digits follow the point. -/

namespace SqlDialects

open Token SqlDialects.Parser

/-! ### What the lexer reads as a number -/

namespace Token

variable {lexicon : Lexicon}

theorem readLexeme_number {pos : Position} {c : Char} {cs : List Char} {lexeme : Lexeme}
    (read : readLexeme lexicon pos c cs = .ok lexeme) (kind : lexeme.kind = .number) :
    (c.isDigit || (c = '.' && cs.head?.any Char.isDigit)) = true ∧
    (lexeme.text, lexeme.rest) = readNumber (c :: cs) := by
  unfold readLexeme at read
  split at read
  · split at read <;> cases read
    cases kind
  split at read
  · split at read <;> cases read
    cases kind
  split at read
  · split at read <;> cases read
    cases kind
  split at read
  · cases read
    cases kind
  split at read
  · next starts =>
    cases read
    exact ⟨starts, rfl⟩
  -- What is left are words, brackets and operators.
  split at read
  · cases read
    dsimp only at kind
    split at kind <;> cases kind
  split at read
  · cases read
    cases kind
  split at read
  · cases read
    cases kind
  split at read
  · cases read
    dsimp only at kind
    split at kind <;> cases kind
  · cases read

theorem isNumber_of_mem (regular : lexicon.Regular) {sql : String} {tokens : List Token}
    (read : tokenize lexicon sql = .ok tokens) {t : Token} (member : t ∈ tokens) (kind : t.kind = .number) :
    IsNumber t.text := by
  obtain ⟨_, c, rest, lexeme, taken, same, text, _⟩ := lexeme_of_mem read member (by simp [kind])
  -- Without what follows it the number begins in the same way, and takes all characters.
  obtain ⟨part, _, alone⟩ := readLexeme_part regular taken
  obtain ⟨starts, whole⟩ := readLexeme_number (alone {}) (same ▸ kind)
  dsimp only at whole
  have splits : lexeme.text = c :: part := by rw [← readNumber_splits (c :: part), ← whole, List.append_nil]
  rw [IsNumber, text, String.toList_ofList]
  exact ⟨⟨c, part, splits, by simpa using starts⟩, splits ▸ whole.symm⟩

theorem IsNumber.unsigned {text : String} (number : IsNumber text) : unsigned text = text := by
  obtain ⟨⟨c, cs, shape, starts⟩, _⟩ := number
  refine if_neg fun sign => ?_
  rw [shape, List.head?_cons, Option.some.injEq] at sign
  subst sign
  obtain digit | ⟨point, _⟩ := starts
  · cases digit
  · cases point

private theorem takeWhile_digits (cs : List Char) : ∀ c ∈ cs.takeWhile Char.isDigit, c.isDigit = true :=
  List.all_eq_true.mp List.all_takeWhile

/-- The part from the point on has digits, if it is there. -/
theorem readFraction_cases {leading : Bool} {cs : List Char}
    (follows : leading = true → ∃ d ds, cs = '.' :: d :: ds ∧ d.isDigit = true) :
    (readFraction leading cs).1 = [] ∧ leading = false ∨
      ∃ ds, (readFraction leading cs).1 = '.' :: ds ∧ ds ≠ [] ∧ ∀ d ∈ ds, d.isDigit = true := by
  have noPoint (other : ∀ d ds, cs ≠ '.' :: d :: ds) : leading = false := by
    rw [Bool.eq_false_iff]
    intro begins
    obtain ⟨d, ds, shape, _⟩ := follows begins
    exact other d ds shape
  unfold readFraction
  split
  · next ds =>
    split
    · next d ds =>
      split
      · next known =>
        have digit : d.isDigit = true := by
          cases leading with
          | false => simpa using known
          | true =>
            obtain ⟨_, _, shape, digit⟩ := follows rfl
            cases shape
            exact digit
        refine .inr ⟨_, rfl, ?_, takeWhile_digits _⟩
        rw [List.takeWhile_cons_of_pos digit]
        exact List.cons_ne_nil _ _
      · next unknown =>
        refine .inl ⟨rfl, ?_⟩
        simp only [Bool.or_eq_true, not_or, Bool.not_eq_true] at unknown
        exact unknown.2
    · have none := noPoint (by simp)
      rw [none, if_neg Bool.false_ne_true]
      exact .inl ⟨rfl, rfl⟩
  · next apart => exact .inl ⟨rfl, noPoint fun d ds shape => apart _ shape⟩

/-- A number without a hexadecimal mark is read from its whole part on. -/
private theorem readNumber_unmarked {c : Char} {cs : List Char}
    (unmarked : ∀ d ∈ (readNumber (c :: cs)).1, d ≠ 'x' ∧ d ≠ 'X') :
    readNumber (c :: cs) = readNumber.readDecimal (c :: cs) := by
  by_cases hex : c = '0' ∧ cs.head?.any (fun d => d == 'x' || d == 'X') = true
  · obtain ⟨rfl, begins⟩ := hex
    cases cs with
    | nil => cases begins
    | cons d cs =>
      have mark : d = 'x' ∨ d = 'X' := by simpa using begins
      have other := unmarked d (by simp [readNumber, mark])
      obtain rfl | rfl := mark
      · exact absurd rfl other.1
      · exact absurd rfl other.2
  · by_cases zero : c = '0'
    · refine readNumber_decimal fun d held => ?_
      have shape : cs.head? = some d := held
      simpa [zero, shape] using hex
    · simp [readNumber, zero]

private theorem readExponent_plain {cs : List Char} (plain : ∀ c ∈ (readExponent cs).1, c ≠ 'e' ∧ c ≠ 'E') :
    (readExponent cs).1 = [] := by
  unfold readExponent at plain ⊢
  split
  · next e d ds =>
    split
    · next power =>
      have letter : e = 'e' ∨ e = 'E' := by simp_all
      have other := plain e (by simp [power])
      simp_all
    · rfl
  · rfl

theorem isDecimal_of_readNumber {c : Char} {cs : List Char}
    (starts : (c.isDigit || (c = '.' && cs.head?.any Char.isDigit)) = true)
    (numeric : ∀ d ∈ (readNumber (c :: cs)).1, (d.isDigit || d == '.' || d == '-') = true) :
    IsDecimal (readNumber (c :: cs)).1 := by
  have letters : ∀ d ∈ (readNumber (c :: cs)).1, ∀ l ∈ ['x', 'X', 'e', 'E'], d ≠ l := by
    rintro d member l known rfl
    have facts : ∀ l ∈ ['x', 'X', 'e', 'E'], (l.isDigit || l == '.' || l == '-') = false := forall_of_all (by decide)
    have shown := numeric d member
    rw [facts d known] at shown
    cases shown
  have decimal : readNumber (c :: cs) = readNumber.readDecimal (c :: cs) :=
    readNumber_unmarked fun d member => ⟨letters d member 'x' (by simp), letters d member 'X' (by simp)⟩
  rw [decimal] at letters ⊢
  let whole := (c :: cs).takeWhile Char.isDigit
  let left := (c :: cs).dropWhile Char.isDigit
  let fraction := readFraction whole.isEmpty left
  have parts : (readNumber.readDecimal (c :: cs)).1 = whole ++ fraction.1 ++ (readExponent fraction.2).1 := rfl
  rw [parts] at letters ⊢
  rw [readExponent_plain fun d member => ⟨letters d (by simp [member]) 'e' (by simp),
    letters d (by simp [member]) 'E' (by simp)⟩,
    List.append_nil]
  have follows : whole.isEmpty = true → ∃ d ds, left = '.' :: d :: ds ∧ d.isDigit = true := by
    intro empty
    have noDigit : ¬c.isDigit = true := by
      intro digit
      rw [show whole = c :: _ from List.takeWhile_cons_of_pos digit] at empty
      cases empty
    have rest : left = c :: cs := List.dropWhile_cons_of_neg noDigit
    cases cs with
    | nil => simp [noDigit] at starts
    | cons d ds =>
      obtain ⟨rfl, digit⟩ : c = '.' ∧ d.isDigit = true := by simpa [noDigit] using starts
      exact ⟨d, ds, rest, digit⟩
  have digits : ∀ d ∈ whole, d.isDigit = true := takeWhile_digits _
  obtain ⟨none, begins⟩ | ⟨ds, some, nonempty, tail⟩ := readFraction_cases follows
  · rw [show fraction.1 = [] from none, List.append_nil]
    exact .whole (List.isEmpty_eq_false_iff.mp begins) digits
  · rw [show fraction.1 = '.' :: ds from some]
    exact .point digits nonempty tail

theorem isNumber_of_isDecimal {text : String} (decimal : IsDecimal text.toList) : IsNumber text := by
  have chars := decimal.chars
  unfold IsNumber
  generalize text.toList = cs at decimal chars
  cases decimal with
  | whole some digits =>
    obtain ⟨c, cs, rfl⟩ := List.exists_cons_of_ne_nil some
    refine ⟨⟨c, cs, rfl, .inl (digits c List.mem_cons_self)⟩, ?_⟩
    have read := readNumber_digits some digits (show EndsNumber [] from fun d held => by cases held)
    rwa [List.append_nil] at read
  | @point cs ds digits some fraction =>
    refine ⟨?_, ?_⟩
    · cases cs with
      | nil =>
        obtain ⟨d, ds, rfl⟩ := List.exists_cons_of_ne_nil some
        exact ⟨'.', d :: ds, rfl, .inr ⟨rfl, by simp [fraction]⟩⟩
      | cons c cs => exact ⟨c, cs ++ '.' :: ds, rfl, .inl (digits c List.mem_cons_self)⟩
    · have unmarked : ∀ d ∈ (cs ++ '.' :: ds).tail.head?, (d == 'x' || d == 'X') = false := by
        intro d held
        have known := chars d (List.mem_of_mem_tail (List.mem_of_mem_head? held))
        rw [Bool.eq_false_iff]
        intro mark
        have letter : d = 'x' ∨ d = 'X' := by simpa using mark
        obtain rfl | rfl := letter <;> exact absurd known (by decide)
      have taken : (cs ++ '.' :: ds).takeWhile Char.isDigit = cs := by
        rw [List.takeWhile_append_of_pos digits, List.takeWhile_cons_of_neg (by decide), List.append_nil]
      have dropped : (cs ++ '.' :: ds).dropWhile Char.isDigit = '.' :: ds := by
        rw [List.dropWhile_append_of_pos digits, List.dropWhile_cons_of_neg (by decide)]
      have all : (ds ++ []).takeWhile Char.isDigit = ds ++ [].takeWhile Char.isDigit :=
        List.takeWhile_append_of_pos fraction
      have none : (ds ++ []).dropWhile Char.isDigit = [].dropWhile Char.isDigit := List.dropWhile_append_of_pos fraction
      rw [List.takeWhile_nil, List.append_nil] at all
      rw [List.dropWhile_nil, List.append_nil] at none
      rw [readNumber_decimal unmarked, readNumber.readDecimal, taken, dropped]
      cases ds with
      | nil => exact absurd rfl some
      | cons d ds =>
        have digit := fraction d List.mem_cons_self
        simp only [readFraction, digit, Bool.true_or, if_true, all, none, readExponent, List.append_nil]

theorem readsAs_number_iff (regular : lexicon.Regular) {text : String} :
    ReadsAs lexicon text (number text) ↔ IsNumber text := by
  constructor
  · rintro ⟨t, last, read, same, _⟩
    have kind : t.kind = .number := congrArg Token.kind same
    have whole : t.text = text := congrArg Token.text same
    exact whole ▸ isNumber_of_mem regular read List.mem_cons_self kind
  · exact fun number => (spells_number regular number).readsAs

theorem tokenize_number_iff (regular : lexicon.Regular) {text : String}
    (numeric : ∀ c ∈ text.toList, (c.isDigit || c == '.' || c == '-') = true) :
    ReadsAs lexicon text (number text) ↔ IsDecimal text.toList := by
  refine (readsAs_number_iff regular).trans ⟨fun number => ?_, isNumber_of_isDecimal⟩
  obtain ⟨⟨c, cs, shape, starts⟩, whole⟩ := number
  have taken : (readNumber (c :: cs)).1 = text.toList := by rw [← shape, whole]
  rw [← taken] at numeric ⊢
  exact isDecimal_of_readNumber (by simpa using starts) numeric

end Token

/-! ### Intervals -/

theorem Text.words_solid {text : String} (some : text ≠ "") (solid : ∀ c ∈ text.toList, Text.isBlank c = false) :
    Text.words text = [text] := by
  have nonempty : text.toList ≠ [] := fun empty => some (String.toList_eq_nil_iff.mp empty)
  have chain : text.toList.IsChain fun a b => (Text.isBlank a == Text.isBlank b) = true := by
    refine List.Pairwise.isChain (List.pairwise_of_forall_mem_list fun a first b second => ?_)
    rw [solid a first, solid b second]
    rfl
  rw [Text.words, List.splitBy_of_isChain nonempty chain]
  obtain ⟨c, cs, shape⟩ := List.exists_cons_of_ne_nil nonempty
  have kept : text.toList.head?.any (!Text.isBlank ·) = true := by simp [shape, solid c]
  simp only [List.filter_cons, kept, if_true, List.filter_nil, List.map_cons, List.map_nil, String.ofList_toList]

namespace Parser

variable {d : Dialect}

theorem reads_interval (pos : Position) {text word unit : String} (single : Text.words text = [text])
    (known : DateUnit.ofText? word = some unit) (high : Nat) :
    ReadsOperand d high (.interval pos (numberOrString pos text) unit)
      [Token.word d.toLexicon "INTERVAL", { kind := .string, text, pos := {}, stop := 0 },
        Token.word d.toLexicon word] := by
  intro depth c tail enough continues binds shown
  have current : c.current.bare = Token.word d.toLexicon "INTERVAL" := shown.current
  have upper : c.current.upper = "INTERVAL" := by
    rw [← upper_bare, current, upper_word]
    exact Text.upper_eq (by decide)
  have second := shown.advance
  have isString : c.advance.current.kind = .string := by rw [← kind_bare, second.current]
  have inside : c.advance.current.text = text := by rw [← text_bare, second.current]
  have third := second.advance
  have unitWord : c.advance.advance.current.isWord = true := by rw [← isWord_bare, third.current, isWord_word]
  have unitText : c.advance.advance.current.text = word := by rw [← text_bare, third.current]; rfl
  have nonempty : tail ≠ [] := by
    obtain ⟨t, rest, rfl, _⟩ := continues
    exact List.cons_ne_nil t rest
  have left : c.advance.advance.advance.Shows tail := third.advance' nonempty
  have read : intervalExpr (grammar d depth) c =
      .ok (.interval c.current.pos (numberOrString c.advance.current.pos text) unit, c.advance.advance.advance) := by
    simp only [intervalExpr, bind_apply, position_apply, ok_bind, advance_apply, current_apply, isString,
      if_true, inside, single,
      unitText, known, unitWord, pure_apply]
  have special : specialWord d (grammar d depth) c =
    .ok (some (.interval c.current.pos (numberOrString c.advance.current.pos text) unit),
      c.advance.advance.advance) := by
    simp only [specialWord, bind_apply, get_apply, ok_bind, upper, map_apply, read]
  have kind : c.current.kind = .word ∨ c.current.kind = .keyword := by
    have isWord : c.current.isWord = true := by rw [← isWord_bare, current, isWord_word]
    simpa [Token.isWord, or_comm] using isWord
  refine ⟨.interval c.current.pos (numberOrString c.advance.current.pos text) unit,
    c.advance.advance.advance, ?_, left, rfl⟩
  obtain kind | kind := kind <;>
    simp only [operandStep, bind_apply, current_apply, ok_bind, kind, wordExpr, special, pure_apply]

end Parser

/-- An interval of days with the text between its quotes. -/
def intervalText (lexicon : Lexicon) (text : String) :
    String := "INTERVAL " ++ (Printer.quoteString lexicon text ++ " DAY")

theorem spells_intervalText {lexicon : Lexicon} (regular : lexicon.Regular) (text : String) :
    Spells lexicon (intervalText lexicon text).toList
      [word lexicon "INTERVAL", { kind := .string, text, pos := {}, stop := 0 }, word lexicon "DAY"] := by
  have interval : Spells lexicon "INTERVAL".toList [word lexicon "INTERVAL"] :=
    spells_word regular (show "INTERVAL".toList = 'I' :: "NTERVAL".toList from rfl) (by decide) (by decide)
  have day : Spells lexicon "DAY".toList [word lexicon "DAY"] :=
    spells_word regular (show "DAY".toList = 'D' :: "AY".toList from rfl) (by decide) (by decide)
  have whole := interval.spaced regular ((spells_string regular text).spaced regular day)
  simpa [intervalText, String.toList_append] using whole

theorem Expr.interval_of_bare {read : Expr} {kind : LiteralKind} {value unit : String}
    (same : read.bare = (Expr.interval {} (.literal {} kind value) unit).bare) :
    ∃ start place, read = .interval start (.literal place kind value) unit := by
  cases read with
  | interval start inner unit' =>
    cases inner with
    | literal place kind' value' =>
      simp only [Expr.bare, Expr.interval.injEq, Expr.literal.injEq, true_and] at same
      obtain ⟨⟨rfl, rfl⟩, rfl⟩ := same
      exact ⟨start, place, rfl⟩
    | _ => cases same
  | _ => cases same

namespace Numeric

variable {text : String} (numeric : Numeric text)

include numeric

theorem words : Text.words text = [text] := by
  refine Text.words_solid numeric.1 fun c member => ?_
  have known := numeric.2 c member
  simp only [Bool.or_eq_true, beq_iff_eq] at known
  obtain (digit | rfl) | rfl := known
  · simp only [Char.isDigit, Bool.and_eq_true, decide_eq_true_eq] at digit
    have low : '0'.toNat ≤ c.toNat := digit.1
    have high : c.toNat ≤ '9'.toNat := digit.2
    have bounds : 48 ≤ c.toNat ∧ c.toNat ≤ 57 := ⟨low, high⟩
    simp only [Text.isBlank, Bool.or_eq_false_iff, Bool.and_eq_false_iff, decide_eq_false_iff_not, beq_eq_false_iff_ne]
    omega
  · decide
  · decide

theorem number : numberOrString {} text = .literal {} .number text := by
  have all : text.toList.all (fun c => c.isDigit || c == '.' || c == '-') = true := List.all_eq_true.mpr numeric.2
  simp only [numberOrString, all, bne_iff_ne.mpr numeric.1, Bool.and_self, if_true]

theorem unsigned : ∀ c ∈ (unsigned text).toList, (c.isDigit || c == '.' || c == '-') = true := by
  intro c member
  unfold SqlDialects.unsigned at member
  split at member
  · rw [String.toList_ofList] at member
    exact numeric.2 c (List.mem_of_mem_tail member)
  · exact numeric.2 c member

end Numeric

theorem eq_of_quotedIn {entry : Entry} (member : entry ∈ Registry.standard.entries) {text quoted : String}
    (inside : entry.QuotedIn (intervalText entry.dialect.toLexicon text) quoted) : quoted = text := by
  obtain ⟨tokens, read, t, listed, kind, rfl⟩ := inside
  obtain ⟨found, same, equal⟩ := (spells_intervalText (registered_regular member).lexicon text).tokenize
  obtain rfl := Except.ok.inj (read.symm.trans same)
  have bare : t.bare ∈ tokens.map Token.bare := List.mem_map_of_mem listed
  simp only [equal, List.cons_append, List.nil_append, List.mem_cons, List.not_mem_nil, or_false] at bare
  have isWord (text : String) : (word entry.dialect.toLexicon text).kind ≠ .string := by
    unfold word
    dsimp only
    split <;> simp
  have same : t.bare.kind = .string := kind
  obtain known | known | known | known := bare
  · exact absurd (known ▸ same) (isWord _)
  · exact congrArg Token.text known
  · exact absurd (known ▸ same) (isWord _)
  · rw [known] at same
    cases same

/-- In every dialect an interval with digits, points and dashes between its quotes holds a number with that text. -/
theorem parse_interval {entry : Entry} (member : entry ∈ Registry.standard.entries)
    {text : String} (numeric : Numeric text) :
    ∃ pos start place, Statement.parse entry.dialect (intervalText entry.dialect.toLexicon text) =
      .ok (.expression pos (.interval start (.literal place .number text) "DAY")) := by
  have regular := (registered_regular member).lexicon
  let ts : List Token := [word entry.dialect.toLexicon "INTERVAL", { kind := .string, text, pos := {}, stop := 0 },
    word entry.dialect.toLexicon "DAY"]
  have days : DateUnit.ofText? "DAY" = some "DAY" := by decide +kernel
  have reads : Reads entry.dialect 1 0 (.interval {} (.literal {} .number text) "DAY") ts := by
    rw [← numeric.number]
    exact (reads_interval {} numeric.words days 0).reads 1
  have ordinary : ∀ t ∈ ts.take 2, t.Ordinary := by
    have interval : (word entry.dialect.toLexicon "INTERVAL").Ordinary := by
      intro known listed
      have upper : Text.upper "INTERVAL" = "INTERVAL" := Text.upper_eq (by decide)
      rw [is_word, upper, beq_eq_false_iff_ne]
      rintro rfl
      exact absurd listed (by decide)
    simp only [ts, List.take_succ_cons, List.take_zero, List.forall_mem_cons, List.not_mem_nil,
      false_imp_iff, implies_true,
      and_true]
    exact ⟨interval, fun _ _ => rfl⟩
  obtain ⟨pos, read, parsed, same⟩ :=
    statement_of_value (spells_intervalText regular text) ordinary (by simp [isOp_word]) fun c shown =>
      reads.value Nat.zero_lt_one shown
  obtain ⟨start, place, rfl⟩ := Expr.interval_of_bare same
  exact ⟨pos, start, place, parsed⟩

theorem printed_interval (d : Dialect) (start place : Position) (text : String) :
    ({ dialect := d } : Printer).expr (.interval start (.literal place .number text) "DAY") =
      .ok ("INTERVAL " ++ text ++ " DAY") := by
  have plain : (Expr.literal place .number text).atLevel Prec.access text = text := rfl
  have printed : ({ dialect := d } : Printer).expr (.interval start (.literal place .number text) "DAY") =
      .ok ("INTERVAL " ++ (Expr.literal place .number text).atLevel Prec.access text ++ " " ++ "DAY") := rfl
  rw [printed, plain, String.append_assoc]
  rfl

/-! ### Numbers of a tree -/

namespace Entry

/-- A number that is no decimal behind its sign, in the quotes of a string of the text, perhaps without minus signs that
stand in front of it. -/
def QuotesNumber (entry : Entry) (sql value : String) : Prop :=
  ∃ text word, entry.QuotedIn sql text ∧ word ∈ Text.words text ∧ Numeric word ∧ ¬IsDecimal (unsigned word).toList ∧
    ∃ signs, word.toList = List.replicate signs '-' ++ value.toList

variable {entry : Entry} {sql : String}

/-- The first minus sign goes to those in front of the number. -/
theorem QuotesNumber.unsign {cs : List Char} (quotes : entry.QuotesNumber sql (String.ofList ('-' :: cs))) :
    entry.QuotesNumber sql (String.ofList cs) := by
  obtain ⟨text, word, quoted, inside, numeric, odd, signs, split⟩ := quotes
  refine ⟨text, word, quoted, inside, numeric, odd, signs + 1, ?_⟩
  rw [split, String.toList_ofList, String.toList_ofList, List.replicate_succ', List.append_assoc, List.singleton_append]

/-- The numbers of a tree are those of the lexer behind their signs, and those that the text has in quotes. -/
abbrev numerals (entry : Entry) (sql : String) : Numerals where
  Admits text := IsNumber (unsigned text) ∨ entry.QuotesNumber sql text
  decimal _ decimal := .inl (isNumber_of_isDecimal decimal)
  unsign cs admitted := by
    obtain number | quotes := admitted
    · rw [unsigned_minus] at number
      exact .inl (number.unsigned.symm ▸ number)
    · exact .inr quotes.unsign

theorem admits_number (regular : entry.dialect.toLexicon.Regular) {text : String} (number : entry.NumberIn sql text) :
    (entry.numerals sql).Admits text := by
  obtain ⟨tokens, read, t, member, kind, rfl⟩ := number
  have spelled := isNumber_of_mem regular read member kind
  exact .inl (spelled.unsigned.symm ▸ spelled)

theorem admits_quoted {text word : String} (quoted : entry.QuotedIn sql text) (inside : word ∈ Text.words text)
    (numeric : Numeric word) : (entry.numerals sql).Admits word := by
  by_cases decimal : IsDecimal (unsigned word).toList
  · exact .inl (isNumber_of_isDecimal decimal)
  · exact .inr ⟨text, word, quoted, inside, numeric, decimal, 0, rfl⟩

end Entry

/-- Behind its sign every number of a statement is read as that number and nothing else, unless it comes out of quotes
and is no decimal there. In every dialect digits, points and dashes between the quotes of an interval become a number
with that text, which is printed as it is; without its sign it is read as one number exactly if it is a decimal. -/
theorem parsed_numbers {entry : Entry} (member : entry ∈ Registry.standard.entries) :
    (∀ sql s, Statement.parse entry.dialect sql = .ok s →
      ∀ pos value, .expr (.literal pos .number value) ∈ s.nodes ++ s.propertyNodes →
        ReadsAs entry.dialect.toLexicon (unsigned value) (number (unsigned value)) ∨ entry.QuotesNumber sql value) ∧
    ∀ text, Numeric text → ∃ pos start place, Statement.parse entry.dialect
    (intervalText entry.dialect.toLexicon text) =
        .ok (.expression pos (.interval start (.literal place .number text) "DAY")) ∧
      ({ dialect := entry.dialect } : Printer).expr (.interval start (.literal place .number text) "DAY") =
        .ok ("INTERVAL " ++ text ++ " DAY") ∧
      (ReadsAs entry.dialect.toLexicon (unsigned text) (number (unsigned text)) ↔
        IsDecimal (unsigned text).toList) := by
  have regular := (registered_regular member).lexicon
  refine ⟨fun sql s parsed pos value inside => ?_, fun text numeric => ?_⟩
  · have shaped := @parsed_wellShaped (entry.numerals sql) entry member sql
      (fun _ number => Entry.admits_number regular number)
      (fun _ quoted _ inside numeric => Entry.admits_quoted quoted inside numeric) s parsed
    have admitted : (entry.numerals sql).Admits value := (shaped _ inside).2
    exact admitted.imp_left (readsAs_number_iff regular).mpr
  · obtain ⟨pos, start, place, parsed⟩ := parse_interval member numeric
    exact ⟨pos, start, place, parsed, printed_interval _ start place text, tokenize_number_iff regular numeric.unsigned⟩

/-- Half a day is read as a number with a sign. -/
theorem half_day_is_number : ∃ s pos, Statement.parse MySql.profile.dialect "INTERVAL '-0.5' DAY" = .ok s ∧
    .expr (.literal pos .number "-0.5") ∈ s.nodes ++ s.propertyNodes ∧
    ReadsAs MySql.profile.dialect.toLexicon "0.5" (number "0.5") := by
  have member : Entry.ofProfile MySql.profile ∈ Registry.standard.entries := by simp [Registry.standard]
  have regular := (registered_regular member).lexicon
  have written : intervalText MySql.profile.dialect.toLexicon "-0.5" = "INTERVAL '-0.5' DAY" := by decide +kernel
  have plain : unsigned "-0.5" = "0.5" := by decide
  have numeric : Numeric "-0.5" := ⟨by decide, forall_of_all (by decide)⟩
  have decimal : IsDecimal (unsigned "-0.5").toList := by
    rw [plain]
    exact @IsDecimal.point ['0'] ['5'] (forall_of_all (by decide)) (List.cons_ne_nil _ _) (forall_of_all (by decide))
  obtain ⟨everywhere, intervals⟩ := parsed_numbers member
  obtain ⟨pos, start, place, parsed, _⟩ := intervals "-0.5" numeric
  rw [show (Entry.ofProfile MySql.profile).dialect = MySql.profile.dialect from rfl, written] at parsed
  have inside : .expr (.literal place .number "-0.5") ∈
      (Statement.expression pos (.interval start (.literal place .number "-0.5") "DAY")).nodes ++ [] := by
    simp [Statement.nodes, Expr.nodes]
  refine ⟨_, place, parsed, inside, ?_⟩
  obtain reads | ⟨text, word, quoted, held, _, odd, _⟩ := everywhere _ _ parsed place "-0.5" inside
  · rwa [plain] at reads
  · obtain rfl := eq_of_quotedIn member (written.symm ▸ quoted)
    rw [numeric.words, List.mem_singleton] at held
    exact absurd (held ▸ decimal) odd

/-- Two dashes are no part of a number, and open a comment in what is printed, so that it has no unit. -/
theorem dashes_open_comment : ∃ pos start place, Statement.parse MySql.profile.dialect "INTERVAL '1--2' DAY" =
      .ok (.expression pos (.interval start (.literal place .number "1--2") "DAY")) ∧
    ({ dialect := MySql.profile.dialect } : Printer).expr (.interval start (.literal place .number "1--2") "DAY") =
      .ok "INTERVAL 1--2 DAY" ∧
    ¬ReadsAs MySql.profile.dialect.toLexicon (unsigned "1--2") (number (unsigned "1--2")) ∧
    (Statement.parse MySql.profile.dialect "INTERVAL 1--2 DAY").isOk = false := by
  have numeric : Numeric "1--2" := ⟨by decide, forall_of_all (by decide)⟩
  have member : Entry.ofProfile MySql.profile ∈ Registry.standard.entries := by simp [Registry.standard]
  have quoted : intervalText MySql.profile.dialect.toLexicon "1--2" = "INTERVAL '1--2' DAY" := by decide +kernel
  obtain ⟨pos, start, place, parsed⟩ := parse_interval member numeric
  refine ⟨pos, start, place, quoted ▸ parsed, printed_interval _ start place "1--2", fun reads => ?_, by decide +kernel⟩
  have decimal := (tokenize_number_iff (registered_regular member).lexicon numeric.unsigned).mp reads
  have dash : '-' ∈ (unsigned "1--2").toList := by decide
  exact absurd (decimal.chars '-' dash) (by decide)

end SqlDialects
