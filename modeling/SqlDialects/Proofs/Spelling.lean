import SqlDialects.Printer.Basic
import SqlDialects.Proofs.Bare
import SqlDialects.Proofs.Lexer

/-! Texts and the tokens they spell. A text spells its tokens when they are read from it in front
of everything that breaks off after it; such texts are put together with blanks, commas and
parentheses between them. -/

namespace SqlDialects

/-- The text is a single word. -/
def IsWord (text : String) : Prop := ∃ c cs, text.toList = c :: cs ∧ isIdentStart c ∧ cs.all isIdentChar

theorem isWord_iff {text : String} :
    IsWord text ↔ text.toList.head?.any isIdentStart = true ∧ text.toList.tail.all isIdentChar = true := by
  unfold IsWord
  cases text.toList with
  | nil => simp
  | cons c cs =>
    constructor
    · rintro ⟨_, _, ⟨⟩, starts, all⟩
      exact ⟨starts, all⟩
    · rintro ⟨starts, all⟩
      exact ⟨c, cs, rfl, starts, all⟩

instance (text : String) : Decidable (IsWord text) := decidable_of_iff _ isWord_iff.symm

namespace Token

variable {lexicon : Lexicon}

/-- The text is read as the tokens, whatever breaks off after it. -/
def Spells (lexicon : Lexicon) (cs : List Char) (ts : List Token) : Prop :=
  ∀ (tail : List Char) (pos : Position), Breaks tail → ∃ tokens next,
    tokens.map bare = ts ∧
      scan lexicon pos (cs ++ tail) = (scan lexicon next tail).map (tokens ++ ·)

/-- A bare word, a keyword if the dialect knows it as one. -/
def word (lexicon : Lexicon) (text : String) : Token :=
  { kind := if lexicon.isKeyword (Text.upper text) then .keyword else .word, text,
    upper := Text.upper text, pos := {}, stop := 0 }

/-- An operator. -/
def operator (text : String) : Token := { kind := .operator, text, pos := {}, stop := 0 }

/-- A bracket or comma. -/
def punctuation (text : String) : Token := { kind := .punctuation, text, pos := {}, stop := 0 }

/-- The end token. -/
def finish : Token := { kind := .finish, pos := {}, stop := 0 }

private theorem map_append {outcome : Except Error (List Token)} (front back : List Token) :
    ((outcome.map (back ++ ·)).map (front ++ ·)) = outcome.map ((front ++ back) ++ ·) := by
  cases outcome <;> simp [Except.map]

theorem spells_nil : Spells lexicon [] [] := by
  intro tail pos _
  refine ⟨[], pos, rfl, ?_⟩
  cases held : scan lexicon pos tail <;> simp [Except.map, held]

theorem Spells.append {front back : List Char} {ts us : List Token} (first : Spells lexicon front ts)
    (broken : Breaks back) (nonempty : back ≠ []) (last : Spells lexicon back us) :
    Spells lexicon (front ++ back) (ts ++ us) := by
  intro tail pos after
  have inside : Breaks (back ++ tail) := by
    cases back with
    | nil => exact absurd rfl nonempty
    | cons c cs => exact broken
  obtain ⟨frontTokens, middle, rfl, scanned⟩ := first (back ++ tail) pos inside
  obtain ⟨backTokens, next, rfl, finished⟩ := last tail middle after
  refine ⟨frontTokens ++ backTokens, next, by simp, ?_⟩
  rw [List.append_assoc, scanned, finished, map_append]

/-! ### Gaps -/

theorem skipGap_still {pos : Position} {c : Char} {cs : List Char}
    (solid : c ∉ [' ', '\t', '\n', '\r', '#']) (dash : c = '-' → cs.head? ≠ some '-')
    (slash : c = '/' → cs.head? ≠ some '*') :
    skipGap lexicon .code pos (c :: cs) = .ok (pos, c :: cs) := by
  simp only [List.mem_cons, List.not_mem_nil, or_false, not_or] at solid
  rw [skipGap]
  · simp [solid]
  · intro more first second
    exact dash first (by rw [second]; rfl)
  · intro more first second
    exact slash first (by rw [second]; rfl)

theorem skipGap_blank {pos : Position} {cs : List Char} :
    skipGap lexicon .code pos (' ' :: cs) = skipGap lexicon .code (pos.next ' ') cs := by
  rw [skipGap] <;> simp

theorem Spells.blank (regular : lexicon.Regular) {cs : List Char} {ts : List Token}
    (spelled : Spells lexicon cs ts) : Spells lexicon (' ' :: cs) ts := by
  intro tail pos broken
  obtain ⟨tokens, next, equal, scanned⟩ := spelled tail (pos.next ' ') broken
  refine ⟨tokens, next, equal, ?_⟩
  rw [← scanned]
  exact scan_congr regular skipGap_blank

/-! ### Single tokens -/

theorem spells_lexeme (regular : lexicon.Regular) {c : Char} {cs text : List Char} {kind : TokenKind}
    (solid : c ∉ [' ', '\t', '\n', '\r', '#']) (dash : c = '-' → cs.head? ≠ some '-')
    (slash : c = '/' → cs.head? ≠ some '*') (read : ∀ pos, readLexeme lexicon pos c cs = .ok ⟨kind, text, []⟩) :
    Spells lexicon (c :: cs)
      [{ kind, text := String.ofList text, upper := (⟨kind, text, []⟩ : Lexeme).upper, pos := {}, stop := 0 }] := by
  intro tail pos broken
  have still : skipGap lexicon .code pos (c :: (cs ++ tail)) = .ok (pos, c :: (cs ++ tail)) := by
    apply skipGap_still solid
    · intro isDash equal
      cases cs with
      | nil => exact absurd (broken '-' equal) (by decide)
      | cons next cs => exact dash isDash equal
    · intro isSlash equal
      cases cs with
      | nil => exact absurd (broken '*' equal) (by decide)
      | cons next cs => exact slash isSlash equal
  exact ⟨[_], _, rfl, scan_lexeme regular still (readLexeme_append regular broken (read pos))⟩

theorem Spells.lexeme (regular : lexicon.Regular) {c : Char} {front back text : List Char} {kind : TokenKind}
    {ts : List Token}
    (still : ∀ pos tail, skipGap lexicon .code pos (c :: (front ++ (back ++ tail))) =
      .ok (pos, c :: (front ++ (back ++ tail))))
    (read : ∀ pos tail, readLexeme lexicon pos c (front ++ (back ++ tail)) = .ok ⟨kind, text, back ++ tail⟩)
    (spelled : Spells lexicon back ts) :
    Spells lexicon (c :: (front ++ back))
      ({ kind, text := String.ofList text, upper := (⟨kind, text, []⟩ : Lexeme).upper, pos :=
        {}, stop := 0 } :: ts) := by
  intro tail pos broken
  have scanned := scan_lexeme regular (still pos tail) (read pos tail)
  obtain ⟨tokens, next, rfl, rest⟩ := spelled tail (after pos (c :: (front ++ (back ++ tail))) (back ++ tail)) broken
  refine ⟨(⟨kind, text, back ++ tail⟩ : Lexeme).token pos (after pos (c :: (front ++ (back ++ tail))) (back ++ tail)) ::
    tokens, next, rfl, ?_⟩
  rw [List.cons_append, List.append_assoc, scanned, rest]
  cases scan lexicon next tail <;> rfl

/-- A character of its own before a text, none of whose first characters it joins. -/
theorem Spells.cons (regular : lexicon.Regular) {c : Char} {cs : List Char} {kind : TokenKind} {ts : List Token}
    (still : ∀ pos tail, skipGap lexicon .code pos (c :: (cs ++ tail)) = .ok (pos, c :: (cs ++ tail)))
    (read : ∀ pos tail, readLexeme lexicon pos c (cs ++ tail) = .ok ⟨kind, [c], cs ++ tail⟩)
    (plain : kind = .operator ∨ kind = .punctuation) (spelled : Spells lexicon cs ts) :
    Spells lexicon (c :: cs)
      ({ kind, text := String.ofList [c], pos := {}, stop := 0 } :: ts) := by
  have whole : Spells lexicon (c :: ([] ++ cs)) _ := Spells.lexeme regular still read spelled
  obtain rfl | rfl := plain <;> exact whole

/-! The characters that start a token are no quotes of a regular lexicon. -/

theorem not_string (regular : lexicon.Regular) {c : Char} (plain : c ∉ ['\x27', '\x22', '\x60']) :
    ¬lexicon.stringQuotes.contains c = true := by
  intro held
  exact plain (regular.quotes c (List.mem_append_left _ (by simpa using held)))

theorem not_name (regular : lexicon.Regular) {c : Char} (plain : c ∉ ['\x27', '\x22', '\x60']) :
    ¬lexicon.identQuotes.contains c = true := by
  intro held
  exact plain (regular.quotes c (List.mem_append_right _ (by simpa using held)))

theorem not_digit {c : Char} (starts : isIdentStart c) : c.isDigit = false := by
  -- The classes of letters are opened by hand: they are ranges of code points.
  have ranges : isIdentStart c = (decide (c.val ≥ 'A'.val ∧ c.val ≤ 'Z'.val) ||
      (decide (c.val ≥ 'a'.val) && decide (c.val ≤ 'z'.val)) || c == '_' || decide (0x80 ≤ c.toNat)) := rfl
  simp only [ranges, Bool.or_eq_true, beq_iff_eq, decide_eq_true_eq, Bool.and_eq_true,
    UInt32.le_iff_toNat_le, ge_iff_le,
    Char.toNat] at starts
  rw [Char.isDigit, Bool.eq_false_iff]
  simp only [ne_eq, Bool.and_eq_true, decide_eq_true_eq, UInt32.le_iff_toNat_le, ge_iff_le]
  rintro ⟨low, high⟩
  rcases starts with ((⟨least, _⟩ | ⟨least, _⟩) | rfl) | least
  · simp at *; omega
  · simp at *; omega
  · simp at *
  · simp at *; omega

private theorem ne_of_start {c d : Char} (starts : isIdentStart c) (other : isIdentStart d = false) :
    c ≠ d := by
  rintro rfl
  simp [starts] at other

theorem readLexeme_word (regular : lexicon.Regular) (pos : Position) {c : Char} {cs tail : List Char}
    (starts : isIdentStart c) (all : cs.all isIdentChar) (stops : ∀ x ∈ tail.head?, isIdentChar x = false) :
    readLexeme lexicon pos c (cs ++ tail) =
      .ok ⟨if lexicon.isKeyword (Text.upper (String.ofList (c :: cs))) then .keyword else .word, c :: cs, tail⟩ := by
  have plain : c ∉ ['\x27', '\x22', '\x60'] := by
    intro member
    simp only [List.mem_cons, List.not_mem_nil, or_false] at member
    obtain rfl | rfl | rfl := member <;> exact absurd starts (by decide)
  have inside : ∀ x ∈ c :: cs, isIdentChar x = true := by simpa [isIdentChar, starts] using all
  have taken : (c :: cs ++ tail).takeWhile isIdentChar = c :: cs := by
    rw [List.takeWhile_append_of_pos inside]
    cases tail with
    | nil => simp
    | cons x tail => simp [stops x rfl]
  have dropped : (c :: cs ++ tail).dropWhile isIdentChar = tail := by
    rw [List.dropWhile_append_of_pos inside]
    cases tail with
    | nil => rfl
    | cons x tail => simp [stops x rfl]
  rw [List.cons_append] at taken dropped
  unfold readLexeme
  rw [if_neg (not_string regular plain), if_neg (not_name regular plain)]
  rw [if_neg (by simp [ne_of_start starts (show isIdentStart '$' = false by decide)])]
  rw [if_neg (ne_of_start starts (by decide))]
  rw [if_neg (by simp [not_digit starts, ne_of_start starts (show isIdentStart '.' = false by decide)])]
  rw [if_pos starts, taken, dropped]

/-- The characters that start a word start neither a gap nor a comment. -/
theorem start_solid {c : Char} (starts : isIdentStart c) :
    c ∉ [' ', '\t', '\n', '\r', '#'] ∧ c ≠ '-' ∧ c ≠ '/' := by
  refine ⟨fun member => ?_, ne_of_start starts (by decide), ne_of_start starts (by decide)⟩
  simp only [List.mem_cons, List.not_mem_nil, or_false] at member
  obtain rfl | rfl | rfl | rfl | rfl := member <;> exact absurd starts (by decide)

theorem spells_word (regular : lexicon.Regular) {text : String} {c : Char} {cs : List Char}
    (shape : text.toList = c :: cs) (starts : isIdentStart c) (all : cs.all isIdentChar) :
    Spells lexicon text.toList [word lexicon text] := by
  obtain ⟨solid, noDash, noSlash⟩ := start_solid starts
  have read (pos : Position) : readLexeme lexicon pos c cs = .ok
      ⟨if lexicon.isKeyword (Text.upper (String.ofList (c :: cs))) then .keyword else .word, c :: cs, []⟩ := by
    have none : ∀ x ∈ ([] : List Char).head?, isIdentChar x = false := by simp
    have whole := readLexeme_word regular pos starts all none
    rwa [List.append_nil] at whole
  have spelled := spells_lexeme regular solid (fun equal => absurd equal noDash)
    (fun equal => absurd equal noSlash) read
  have upper : Text.upper (String.ofList (c :: cs)) = Text.upper text := by
    rw [← shape, String.ofList_toList]
  rw [shape]
  simp only [word, Lexeme.upper, upper] at spelled ⊢
  rw [← shape, String.ofList_toList] at spelled
  split at spelled <;> simp_all

theorem Spells.named (regular : lexicon.Regular) {text : String} {c x : Char} {cs back : List Char} {ts : List Token}
    (shape : text.toList = c :: cs) (starts : isIdentStart c) (all : cs.all isIdentChar) (stops : isIdentChar x = false)
    (spelled : Spells lexicon (x :: back) ts) :
    Spells lexicon (text.toList ++ x :: back) (word lexicon text :: ts) := by
  obtain ⟨solid, noDash, noSlash⟩ := start_solid starts
  have still (pos : Position) (tail : List Char) : skipGap lexicon .code pos (c :: (cs ++ (x :: back ++ tail))) =
      .ok (pos, c :: (cs ++ (x :: back ++ tail))) :=
    skipGap_still solid (fun equal => absurd equal noDash) (fun equal => absurd equal noSlash)
  have stopped (tail : List Char) : ∀ y ∈ (x :: back ++ tail).head?, isIdentChar y = false := by
    rintro y ⟨⟩
    exact stops
  have whole := Spells.lexeme regular still (fun pos tail =>
    readLexeme_word regular pos starts all (stopped tail)) spelled
  have upper : Text.upper (String.ofList (c :: cs)) = Text.upper text := by
    rw [← shape, String.ofList_toList]
  rw [shape]
  simp only [word, Lexeme.upper, upper] at whole ⊢
  rw [← shape, String.ofList_toList] at whole
  split at whole <;> simp_all

/-- The text is read as one number. -/
def IsNumber (text : String) : Prop :=
  (∃ c cs, text.toList = c :: cs ∧ (c.isDigit ∨ c = '.' ∧ cs.head?.any Char.isDigit)) ∧
    readNumber text.toList = (text.toList, [])

theorem spells_number (regular : lexicon.Regular) {text : String} (number : IsNumber text) :
    Spells lexicon text.toList [{ kind := .number, text, pos := {}, stop := 0 }] := by
  obtain ⟨⟨c, cs, shape, starts⟩, whole⟩ := number
  have digitOrPoint : c.isDigit = true ∨ c = '.' := starts.imp id And.left
  have differs {d : Char} (other : d.isDigit = false) (noPoint : d ≠ '.') : c ≠ d := by
    rintro rfl
    rcases digitOrPoint with digit | point
    · rw [digit] at other; cases other
    · exact noPoint point
  have plain : c ∉ ['\x27', '\x22', '\x60'] := by
    simp [differs (show '\x27'.isDigit = false by decide), differs (show '\x22'.isDigit = false by decide),
      differs (show '\x60'.isDigit = false by decide)]
  have solid : c ∉ [' ', '\t', '\n', '\r', '#'] := by
    simp [differs (show ' '.isDigit = false by decide), differs (show '\t'.isDigit = false by decide),
      differs (show '\n'.isDigit = false by decide), differs (show '\r'.isDigit = false by decide),
      differs (show '#'.isDigit = false by decide)]
  rw [shape] at whole ⊢
  have read (pos : Position) : readLexeme lexicon pos c cs = .ok ⟨.number, c :: cs, []⟩ := by
    unfold readLexeme
    rw [if_neg (not_string regular plain), if_neg (not_name regular plain)]
    rw [if_neg (by simp [differs (show '$'.isDigit = false by decide)])]
    rw [if_neg (differs (by decide) (by decide)), if_pos (by simpa using starts), whole]
  have spelled := spells_lexeme regular solid
    (fun equal => absurd equal (differs (by decide) (by decide)))
    (fun equal => absurd equal (differs (by decide) (by decide))) read
  simpa [Lexeme.upper, ← shape, String.ofList_toList] using spelled

/-! ### Strings -/

/-- Marks that quote names and strings. -/
def marks : List Char := ['\x27', '\x22', '\x60']

private theorem readQuoted_cons {escapes : Bool} {mark c : Char} {cs text rest : List Char}
    (different : c ≠ mark) (free : ¬(escapes && c = '\\') = true)
    (read : readQuoted escapes mark cs = some (text, rest)) :
    readQuoted escapes mark (c :: cs) = some (c :: text, rest) := by
  cases cs with
  | nil => cases read
  | cons d ds => rw [readQuoted, if_neg free, if_neg different, read, Option.map_some]

theorem readQuoted_stringBody {escapes : Bool} {mark : Char} (isMark : mark ∈ marks) (value : List Char) :
    readQuoted escapes mark (Printer.stringBody mark escapes value ++ [mark]) = some (value, []) := by
  have plain : mark ≠ '\\' := by rintro rfl; exact absurd isMark (by decide)
  have noLetter : mark ∉ Printer.escapeLetters := by
    simp only [marks, List.mem_cons, List.not_mem_nil, or_false] at isMark
    obtain rfl | rfl | rfl := isMark <;> decide
  have doubledMark {cs text : List Char} (read : readQuoted escapes mark cs = some (text, [])) :
      readQuoted escapes mark (mark :: mark :: cs) = some (mark :: text, []) := by
    simp [readQuoted, plain, read]
  have doubledSlash {cs text : List Char} (isOn : escapes = true)
      (read : readQuoted escapes mark cs = some (text, [])) :
      readQuoted escapes mark ('\\' :: '\\' :: cs) = some ('\\' :: text, []) := by
    simp [readQuoted, isOn] at read ⊢
    exact read
  fun_induction Printer.stringBody mark escapes value with
  | case1 => simp [readQuoted]
  | case2 => exact doubledMark (by simp [readQuoted])
  | case3 c _ isSlash =>
    simp only [Bool.and_eq_true, decide_eq_true_eq] at isSlash
    obtain ⟨rfl, isOn⟩ := isSlash
    exact doubledSlash isOn (by simp [readQuoted])
  | case4 c different other =>
    exact readQuoted_cons different (by simpa [and_comm] using other) (by simp [readQuoted])
  | case5 next cs ih => exact doubledMark ih
  | case6 c next cs _ isSlash letter ih =>
    simp only [Bool.and_eq_true, decide_eq_true_eq] at isSlash
    obtain ⟨rfl, isOn⟩ := isSlash
    have member : next ∈ Printer.escapeLetters := by simpa using letter
    have notSlash : next ≠ '\\' := by rintro rfl; exact absurd member (by decide)
    have notMark : next ≠ mark := by rintro rfl; exact noLetter member
    have visible : next.toNat ≠ 0 := by
      simp only [Printer.escapeLetters, List.mem_cons, List.not_mem_nil, or_false] at member
      obtain rfl | rfl | rfl | rfl | rfl | rfl | rfl | rfl := member <;> decide
    simp only [List.cons_append]
    rw [readQuoted, if_pos (by simpa using isOn), if_neg (by simp [notSlash, notMark]), if_neg visible, ih]
    rfl
  | case7 c next cs _ isSlash _ ih =>
    simp only [Bool.and_eq_true, decide_eq_true_eq] at isSlash
    obtain ⟨rfl, isOn⟩ := isSlash
    exact doubledSlash isOn ih
  | case8 c next cs different other ih =>
    exact readQuoted_cons different (by simpa [and_comm] using other) ih

theorem spells_string (regular : lexicon.Regular) (value : String) :
    Spells lexicon (Printer.quoteString lexicon value).toList
      [{ kind := .string, text := value, pos := {}, stop := 0 }] := by
  obtain ⟨mark, quotes, first⟩ := List.exists_cons_of_ne_nil regular.strings
  have isQuote : mark ∈ lexicon.stringQuotes := by simp [first]
  have isMark : mark ∈ marks := regular.quotes mark (List.mem_append_left _ isQuote)
  have solid : mark ∉ [' ', '\t', '\n', '\r', '#'] ∧ mark ≠ '-' ∧ mark ≠ '/' := by
    simp only [marks, List.mem_cons, List.not_mem_nil, or_false] at isMark
    obtain rfl | rfl | rfl := isMark <;> decide
  have read (pos : Position) : readLexeme lexicon pos mark
      (Printer.stringBody mark lexicon.backslashEscapes value.toList ++ [mark]) =
        .ok ⟨.string, value.toList, []⟩ := by
    unfold readLexeme
    rw [if_pos (by simpa using isQuote), readQuoted_stringBody isMark]
  have spelled := spells_lexeme regular solid.1 (fun equal => absurd equal solid.2.1)
    (fun equal => absurd equal solid.2.2) read
  simpa [Printer.quoteString, first, Lexeme.upper] using spelled

/-! ### Operators and brackets -/

private theorem single_plain : ∀ c ∈ singleOperators, c ∉ ['\x27', '\x22', '\x60'] ∧ c ≠ '$' ∧ c ≠ '?' ∧
    c ≠ '.' ∧ c.isDigit = false ∧ isIdentStart c = false ∧ brackets.contains c = false :=
  forall_of_all (by decide)

theorem readLexeme_single (regular : lexicon.Regular) {pos : Position} {c : Char} {cs : List Char}
    (single : c ∈ singleOperators) : readLexeme lexicon pos c cs =
      match lexicon.longOperators.find? fun op => op.toList.isPrefixOf (c :: cs) with
      | some op => .ok ⟨.operator, op.toList, (c :: cs).drop op.length⟩
      | none => .ok ⟨if c = ':' then .punctuation else .operator, [c], cs⟩ := by
  obtain ⟨plain, noDollar, noMark, noPoint, noDigit, noWord, noBracket⟩ := single_plain c single
  unfold readLexeme
  rw [if_neg (not_string regular plain), if_neg (not_name regular plain), if_neg (by simp [noDollar]),
    if_neg noMark, if_neg (by simp [noDigit, noPoint]), if_neg (by simp [noWord]),
    if_neg (by rw [noBracket]; decide)]
  cases lexicon.longOperators.find? fun op => op.toList.isPrefixOf (c :: cs) with
  | some op => rfl
  | none => exact if_pos (by simpa using single)

theorem single_solid : ∀ c ∈ singleOperators, c ≠ '#' → c ∉ [' ', '\t', '\n', '\r', '#'] :=
  forall_of_all (by decide)

private theorem find_longOperators {op : String} (member : op ∈ lexicon.longOperators) :
    (lexicon.longOperators.find? fun other => other.toList.isPrefixOf op.toList) = some op := by
  have sorted : lexicon.longOperators.Pairwise fun a b => decide (b.utf8ByteSize ≤ a.utf8ByteSize) = true := by
    apply List.pairwise_mergeSort
    · intro a b c first second
      simp only [decide_eq_true_eq] at first second ⊢
      omega
    · intro a b
      simp only [Bool.or_eq_true, decide_eq_true_eq]
      omega
  cases held : lexicon.longOperators.find? fun other => other.toList.isPrefixOf op.toList with
  | none => exact absurd (List.find?_eq_none.mp held op member) (by simp)
  | some other =>
    obtain ⟨taken, before, after, split, passed⟩ := List.find?_eq_some_iff_append.mp held
    rw [split, List.mem_append, List.mem_cons] at member
    obtain earlier | rfl | later := member
    · exact absurd (passed op earlier) (by simp)
    · rfl
    rw [split] at sorted
    have shorter := (List.pairwise_cons.mp (List.pairwise_append.mp sorted).2.1).1 op later
    obtain ⟨rest, whole⟩ : other.toList <+: op.toList := by simpa using taken
    have joined : op = other ++ String.ofList rest := by
      rw [← String.toList_inj, String.toList_append, String.toList_ofList, whole]
    have sizes : op.utf8ByteSize = other.utf8ByteSize + (String.ofList rest).utf8ByteSize := by
      rw [joined, String.utf8ByteSize_append]
    have nothing : (String.ofList rest).utf8ByteSize = 0 := by
      simp only [decide_eq_true_eq] at shorter
      omega
    rw [joined, String.utf8ByteSize_eq_zero_iff.mp nothing, String.append_empty]

theorem spells_long (regular : lexicon.Regular) {op : String} {c : Char} {cs : List Char}
    (shape : op.toList = c :: cs) (solid : c ≠ '#') (dash : c = '-' → cs.head? ≠ some '-')
    (slash : c = '/' → cs.head? ≠ some '*') (known : op ∈ Lexicon.baseOperators ++ lexicon.operators) :
    Spells lexicon op.toList [operator op] := by
  have member : op ∈ lexicon.longOperators := by rwa [Lexicon.longOperators, List.mem_mergeSort]
  have singles := (Lexicon.mem_longOperators member regular).2
  have single := singles c (by simp [shape])
  have read (pos : Position) : readLexeme lexicon pos c cs = .ok ⟨.operator, op.toList, []⟩ := by
    have found := find_longOperators member
    rw [shape] at found
    have size : (c :: cs).drop op.length = [] := by
      rw [← String.length_toList, shape, List.drop_length]
    simp only [readLexeme_single regular single, found, size]
  have spelled := spells_lexeme regular (single_solid c single solid) dash slash read
  rw [String.ofList_toList] at spelled
  rw [shape]
  exact spelled

theorem spells_single (regular : lexicon.Regular) {op : String} {c : Char} (shape : op.toList = [c])
    (single : c ∈ singleOperators) (solid : c ∉ ['#', ':']) : Spells lexicon op.toList [operator op] := by
  have absent : (lexicon.longOperators.find? fun other => other.toList.isPrefixOf [c]) = none := by
    apply List.find?_eq_none.mpr
    intro other member isPrefix
    have taken : other.toList <+: [c] := by simpa using isPrefix
    have short := taken.length_le
    have several := (Lexicon.mem_longOperators member regular).1
    simp only [List.length_cons, List.length_nil] at short
    omega
  have notColon : c ≠ ':' := by rintro rfl; simp at solid
  have read (pos : Position) : readLexeme lexicon pos c [] = .ok ⟨.operator, [c], []⟩ := by
    rw [readLexeme_single regular single, absent]
    simp [notColon]
  have blank := single_solid c single (by rintro rfl; simp at solid)
  have spelled := spells_lexeme regular blank (by simp) (by simp) read
  rw [← shape, String.ofList_toList] at spelled
  exact spelled

theorem Spells.sign (regular : lexicon.Regular) {mark : Char} (known : mark ∈ ['-', '+'])
    {cs : List Char} {ts : List Token}
    (clear : ∃ c rest, cs = c :: rest ∧ c ∉ singleOperators) (spelled : Spells lexicon cs ts) :
    Spells lexicon (mark :: cs) (operator (String.ofList [mark]) :: ts) := by
  have facts : ∀ mark ∈ ['-', '+'], mark ∉ [' ', '\t', '\n', '\r', '#'] ∧ mark ≠ '/' ∧ mark ≠ ':' ∧
    mark ∈ singleOperators :=
    forall_of_all (by decide)
  obtain ⟨solid, noSlash, noColon, single⟩ := facts mark known
  obtain ⟨c, rest, rfl, clear⟩ := clear
  have absent (tail : List Char) :
      (lexicon.longOperators.find? fun op => op.toList.isPrefixOf (mark :: (c :: rest ++ tail))) = none := by
    apply List.find?_eq_none.mpr
    intro op member isPrefix
    obtain ⟨several, singles⟩ := Lexicon.mem_longOperators member regular
    have taken : op.toList <+: mark :: c :: (rest ++ tail) := by simpa using isPrefix
    obtain ⟨left, equal⟩ := taken
    match shape : op.toList with
    | [] | [_] => simp [shape] at several
    | first :: second :: more =>
      rw [shape] at equal
      simp only [List.cons_append, List.cons.injEq] at equal
      exact clear (equal.2.1 ▸ singles second (by simp [shape]))
  refine Spells.cons regular ?_ ?_ (.inl rfl) spelled
  · intro pos tail
    apply skipGap_still solid
    · intro _ equal
      simp only [List.cons_append, List.head?_cons, Option.some.injEq] at equal
      exact clear (equal ▸ by decide)
    · intro equal
      exact absurd equal noSlash
  · intro pos tail
    rw [readLexeme_single regular single, absent]
    simp [noColon]

theorem readLexeme_bracket (regular : lexicon.Regular) {pos : Position} {c : Char} {cs : List Char}
    (bracket : c ∈ ['(', ')', ',']) : readLexeme lexicon pos c cs = .ok ⟨.punctuation, [c], cs⟩ := by
  have facts : ∀ c ∈ ['(', ')', ','], c ∉ ['\x27', '\x22', '\x60'] ∧ c ≠ '$' ∧ c ≠ '?' ∧ c ≠ '.' ∧
      c.isDigit = false ∧ isIdentStart c = false ∧ brackets.contains c = true := forall_of_all (by decide)
  obtain ⟨plain, noDollar, noMark, noPoint, noDigit, noWord, isBracket⟩ := facts c bracket
  unfold readLexeme
  rw [if_neg (not_string regular plain), if_neg (not_name regular plain), if_neg (by simp [noDollar]),
    if_neg noMark, if_neg (by simp [noDigit, noPoint]), if_neg (by simp [noWord]), if_pos isBracket]

/-- A parenthesis or comma before a text. -/
theorem Spells.bracket (regular : lexicon.Regular) {c : Char} {cs : List Char} {ts : List Token}
    (bracket : c ∈ ['(', ')', ',']) (spelled : Spells lexicon cs ts) :
    Spells lexicon (c :: cs) (punctuation (String.ofList [c]) :: ts) := by
  have facts : ∀ c ∈ ['(', ')', ','], c ∉ [' ', '\t', '\n', '\r', '#'] ∧ c ≠ '-' ∧ c ≠ '/' :=
    forall_of_all (by decide)
  obtain ⟨solid, noDash, noSlash⟩ := facts c bracket
  refine Spells.cons regular ?_ (fun pos tail => readLexeme_bracket regular bracket) (.inr rfl) spelled
  intro pos tail
  exact skipGap_still solid (fun equal => absurd equal noDash) (fun equal => absurd equal noSlash)

theorem Spells.paren (regular : lexicon.Regular) {cs : List Char} {ts : List Token}
    (spelled : Spells lexicon cs ts) :
    Spells lexicon ('(' :: (cs ++ [')'])) (punctuation "(" :: (ts ++ [punctuation ")"])) := by
  have close : Spells lexicon [')'] [punctuation ")"] := Spells.bracket regular (by decide) spells_nil
  exact Spells.bracket regular (by decide) (spelled.append (breaks_cons (by decide)) (by simp) close)

/-- Two texts with a blank between them. -/
theorem Spells.spaced (regular : lexicon.Regular) {front back : List Char} {ts us : List Token}
    (first : Spells lexicon front ts) (last : Spells lexicon back us) :
    Spells lexicon (front ++ ' ' :: back) (ts ++ us) :=
  first.append (breaks_cons (by decide)) (by simp) (last.blank regular)

/-- Two texts with a comma and a blank between them. -/
theorem Spells.comma (regular : lexicon.Regular) {front back : List Char} {ts us : List Token}
    (first : Spells lexicon front ts) (last : Spells lexicon back us) :
    Spells lexicon (front ++ ',' :: ' ' :: back) (ts ++ punctuation "," :: us) :=
  first.append (breaks_cons (by decide)) (by simp) (Spells.bracket regular (by decide) (last.blank regular))

theorem Spells.tokenize {text : String} {ts : List Token}
    (spelled : Spells lexicon text.toList ts) :
    ∃ tokens, tokenize lexicon text = .ok tokens ∧ tokens.map bare = ts ++ [finish] := by
  obtain ⟨tokens, next, rfl, scanned⟩ := spelled [] Position.start breaks_nil
  have ended : scan lexicon next [] = .ok [{ kind := .finish, pos := next, stop := next.offset }] :=
    scan_finish rfl
  rw [List.append_nil, ended] at scanned
  refine ⟨_, (tokenize_eq_scan text).trans scanned, ?_⟩
  simp [finish, bare]

end Token

end SqlDialects
