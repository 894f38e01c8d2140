import SqlDialects.Token.Lexer

/-! What the lexer does with a text, without its bound on rounds. Every reader leaves a suffix of
what it was given, so the number of characters bounds the rounds and the tokens depend on the place
and the characters alone. What follows a token cannot change it as long as it starts with a
character that no token continues with. -/

namespace SqlDialects

theorem forall_of_all {p : Char → Prop} [DecidablePred p] {cs : List Char} (checked : cs.all (fun c => decide (p c))) :
    ∀ c ∈ cs, p c := by
  simpa using checked

/-- Lexical rules as every dialect has them: three marks serve as quotes, and operators are made of
the characters that are operators by themselves. -/
structure Lexicon.Regular (lexicon : Lexicon) : Prop where
  strings : lexicon.stringQuotes ≠ []
  quotes : ∀ c ∈ lexicon.stringQuotes ++ lexicon.identQuotes, c ∈ ['\x27', '\x22', '\x60']
  operators : ∀ op ∈ lexicon.operators,
    2 ≤ op.toList.length ∧ ∀ c ∈ op.toList, c ∈ Token.singleOperators

instance (lexicon : Lexicon) : Decidable lexicon.Regular :=
  decidable_of_iff (!lexicon.stringQuotes.isEmpty &&
      (lexicon.stringQuotes ++ lexicon.identQuotes).all (['\x27', '\x22', '\x60'].contains ·) &&
      lexicon.operators.all fun op => 2 ≤ op.toList.length && op.toList.all (Token.singleOperators.contains ·))
    ⟨fun checked => by
      simp only [Bool.and_eq_true, Bool.not_eq_true', List.isEmpty_eq_false_iff, List.all_eq_true,
        List.contains_iff_mem,
        decide_eq_true_eq] at checked
      exact ⟨checked.1.1, checked.1.2, checked.2⟩,
    fun regular => by
      simp only [Bool.and_eq_true, Bool.not_eq_true', List.isEmpty_eq_false_iff, List.all_eq_true,
        List.contains_iff_mem,
        decide_eq_true_eq]
      exact ⟨⟨regular.strings, regular.quotes⟩, regular.operators⟩⟩

namespace Token

variable {lexicon : Lexicon}

/-- Characters that end every token before them. -/
def isBreak (c : Char) : Bool := c == ' ' || c == '\t' || c == '\n' || c == '\r' || c == ')' || c == ','

/-- Texts that end every token before them. -/
def Breaks (tail : List Char) : Prop := ∀ c ∈ tail.head?, isBreak c

theorem breaks_nil : Breaks [] := by simp [Breaks]

theorem breaks_cons {c : Char} {cs : List Char} (isBroken : isBreak c) : Breaks (c :: cs) := by
  simpa [Breaks] using isBroken

private theorem isBreak_cases {c : Char} (isBroken : isBreak c) :
    c = ' ' ∨ c = '\t' ∨ c = '\n' ∨ c = '\r' ∨ c = ')' ∨ c = ',' := by
  simpa [isBreak, or_assoc] using isBroken

private theorem stops_at {p : Char → Bool} (fails : [' ', '\t', '\n', '\r', ')', ','].all (!p ·))
    {tail : List Char} (broken : Breaks tail) : ∀ c ∈ tail.head?, p c = false := by
  intro c held
  obtain rfl | rfl | rfl | rfl | rfl | rfl := isBreak_cases (broken c held) <;> simp_all

theorem Lexicon.mem_longOperators {op : String} (member : op ∈ lexicon.longOperators)
    (regular : lexicon.Regular) : 2 ≤ op.toList.length ∧ ∀ c ∈ op.toList, c ∈ singleOperators := by
  rw [Lexicon.longOperators, List.mem_mergeSort, List.mem_append] at member
  obtain base | own := member
  · simp only [Lexicon.baseOperators, List.mem_cons, List.not_mem_nil, or_false] at base
    obtain rfl | rfl | rfl | rfl | rfl := base <;> exact ⟨by decide, forall_of_all (by decide)⟩
  · exact regular.operators op own

/-! ### What a reader leaves -/

theorem skipGap_suffix {gap : Gap} {pos next : Position} {cs rest : List Char}
    (skipped : skipGap lexicon gap pos cs = .ok (next, rest)) : rest <:+ cs := by
  fun_induction skipGap lexicon gap pos cs with
  | case1 => cases skipped
  | case2 => cases skipped; exact List.suffix_refl _
  | case3 pos cs ih => exact (ih skipped).trans ⟨['-', '-'], rfl⟩
  | case4 pos cs ih => exact (ih skipped).trans ⟨['/', '*'], rfl⟩
  | case5 pos c cs _ _ _ ih => exact (ih skipped).trans ⟨[c], rfl⟩
  | case6 pos c cs _ _ _ _ ih => exact (ih skipped).trans ⟨[c], rfl⟩
  | case7 => cases skipped; exact List.suffix_refl _
  | case8 pos c cs ih => exact (ih skipped).trans ⟨[c], rfl⟩
  | case9 _ pos cs ih => exact (ih skipped).trans ⟨['*', '/'], rfl⟩
  | case10 _ pos c cs _ ih => exact (ih skipped).trans ⟨[c], rfl⟩

theorem readQuoted_suffix {escapes : Bool} {mark : Char} {cs text rest : List Char}
    (read : readQuoted escapes mark cs = some (text, rest)) : rest <:+ cs := by
  fun_induction readQuoted escapes mark cs generalizing text rest with
  | case1 => cases read
  | case2 => cases read; exact List.nil_suffix
  | case3 => cases read
  | case4 c d cs _ _ ih | case6 c d cs _ _ _ ih =>
    obtain ⟨⟨inner, left⟩, held, equal⟩ := Option.map_eq_some_iff.mp read
    cases equal
    exact (ih held).trans ⟨[c, d], rfl⟩
  | case5 => cases read
  | case7 cs _ ih =>
    obtain ⟨⟨inner, left⟩, held, equal⟩ := Option.map_eq_some_iff.mp read
    cases equal
    exact (ih held).trans ⟨[mark, mark], rfl⟩
  | case8 => cases read; exact ⟨[mark], rfl⟩
  | case9 c d cs _ _ ih =>
    obtain ⟨⟨inner, left⟩, held, equal⟩ := Option.map_eq_some_iff.mp read
    cases equal
    exact (ih held).trans ⟨[c], rfl⟩

theorem readTemplate_suffix {cs text rest : List Char} (read : readTemplate cs = some (text, rest)) :
    ∃ c left, cs = c :: left ∧ rest <:+ left := by
  induction cs generalizing text rest with
  | nil => cases read
  | cons c cs ih =>
    refine ⟨c, cs, rfl, ?_⟩
    unfold readTemplate at read
    split at read
    · cases read; exact List.suffix_refl _
    · obtain ⟨⟨inner, left⟩, held, equal⟩ := Option.map_eq_some_iff.mp read
      cases equal
      obtain ⟨d, more, rfl, suffix⟩ := ih held
      exact suffix.trans ⟨[d], rfl⟩

theorem readFraction_suffix (leading : Bool) (cs : List Char) : (readFraction leading cs).2 <:+ cs := by
  unfold readFraction
  split
  · split
    · split
      · exact (List.dropWhile_suffix _).trans ⟨['.'], rfl⟩
      · exact List.suffix_refl _
    · split
      · exact List.nil_suffix
      · exact List.suffix_refl _
  · exact List.suffix_refl _

theorem readExponent_suffix (cs : List Char) : (readExponent cs).2 <:+ cs := by
  unfold readExponent
  split
  · split
    · exact (List.dropWhile_suffix _).trans ⟨[_, _], rfl⟩
    · exact List.suffix_refl _
  · exact List.suffix_refl _

private theorem readDecimal_rest (cs : List Char) : (readNumber.readDecimal cs).2 =
    (readExponent (readFraction (cs.takeWhile Char.isDigit).isEmpty (cs.dropWhile Char.isDigit)).2).2 :=
  rfl

private theorem readDecimal_suffix {c : Char} {cs : List Char}
    (starts : c.isDigit ∨ c = '.' ∧ cs.head?.any Char.isDigit) :
    (readNumber.readDecimal (c :: cs)).2 <:+ cs := by
  rw [readDecimal_rest]
  refine (readExponent_suffix _).trans ?_
  obtain digit | ⟨rfl, digit⟩ := starts
  · rw [List.dropWhile_cons_of_pos digit]
    exact (readFraction_suffix _ _).trans (List.dropWhile_suffix _)
  · cases cs with
    | nil => simp at digit
    | cons d ds =>
      have isDigit : d.isDigit = true := by simpa using digit
      have stays : ('.' :: d :: ds).dropWhile Char.isDigit = '.' :: d :: ds := rfl
      simp only [stays, readFraction, isDigit, Bool.true_or, ↓reduceIte]
      exact List.dropWhile_suffix _

theorem readNumber_suffix {c : Char} {cs : List Char}
    (starts : c.isDigit ∨ c = '.' ∧ cs.head?.any Char.isDigit) : (readNumber (c :: cs)).2 <:+ cs := by
  unfold readNumber
  split
  · rename_i equal
    cases equal
    split
    · exact (List.dropWhile_suffix _).trans ⟨[_], rfl⟩
    · exact readDecimal_suffix starts
  · exact readDecimal_suffix starts

/-- A token takes the character that it starts with. -/
theorem readLexeme_suffix {pos : Position} {c : Char} {cs : List Char} {lexeme : Lexeme}
    (regular : lexicon.Regular) (read : readLexeme lexicon pos c cs = .ok lexeme) :
    lexeme.rest <:+ cs := by
  unfold readLexeme at read
  by_cases string : lexicon.stringQuotes.contains c = true
  · rw [if_pos string] at read
    cases held : readQuoted lexicon.backslashEscapes c cs with
    | none => rw [held] at read; cases read
    | some found => rw [held] at read; cases read; exact readQuoted_suffix held
  rw [if_neg string] at read
  by_cases name : lexicon.identQuotes.contains c = true
  · rw [if_pos name] at read
    cases held : readQuoted false c cs with
    | none => rw [held] at read; cases read
    | some found => rw [held] at read; cases read; exact readQuoted_suffix held
  rw [if_neg name] at read
  by_cases opened : (c = '$' && cs.head? = some '\x7b') = true
  · rw [if_pos opened] at read
    cases held : readTemplate (c :: cs) with
    | none => rw [held] at read; cases read
    | some found =>
      rw [held] at read
      cases read
      obtain ⟨d, left, equal, suffix⟩ := readTemplate_suffix held
      cases equal
      exact suffix
  rw [if_neg opened] at read
  by_cases mark : c = '?'
  · rw [if_pos mark] at read
    cases read
    exact List.suffix_refl _
  rw [if_neg mark] at read
  by_cases digit : (c.isDigit || (c = '.' && cs.head?.any Char.isDigit)) = true
  · rw [if_pos digit] at read
    cases read
    exact readNumber_suffix (by simpa using digit)
  rw [if_neg digit] at read
  by_cases starts : isIdentStart c = true
  · rw [if_pos starts] at read
    cases read
    have inside : isIdentChar c = true := by simp [isIdentChar, starts]
    simp only [List.dropWhile_cons_of_pos inside]
    exact List.dropWhile_suffix _
  rw [if_neg starts] at read
  by_cases bracket : brackets.contains c = true
  · rw [if_pos bracket] at read
    cases read
    exact List.suffix_refl _
  rw [if_neg bracket] at read
  cases found : lexicon.longOperators.find? fun op => op.toList.isPrefixOf (c :: cs) with
  | some op =>
    rw [found] at read
    cases read
    have several := (Lexicon.mem_longOperators (List.mem_of_find?_eq_some found) regular).1
    rw [String.length_toList] at several
    cases size : op.length with
    | zero => omega
    | succ n => exact List.drop_suffix n cs
  | none =>
    rw [found] at read
    by_cases single : singleOperators.contains c = true
    · simp only [if_pos single] at read
      cases read
      exact List.suffix_refl _
    · simp only [if_neg single] at read
      cases read

/-! ### What follows a token -/

private theorem takeWhile_stop {p : Char → Bool} {tail : List Char}
    (stops : ∀ c ∈ tail.head?, p c = false) (cs : List Char) :
    (cs ++ tail).takeWhile p = cs.takeWhile p ∧ (cs ++ tail).dropWhile p = cs.dropWhile p ++ tail := by
  induction cs with
  | nil =>
    cases tail with
    | nil => simp
    | cons d ds => simp [stops d rfl]
  | cons c cs ih =>
    by_cases held : p c
    · simp [held, ih]
    · simp [held]

private theorem head?_append_any {p : Char → Bool} {tail : List Char}
    (stops : ∀ c ∈ tail.head?, p c = false) (cs : List Char) :
    (cs ++ tail).head?.any p = cs.head?.any p := by
  cases cs with
  | nil =>
    cases tail with
    | nil => rfl
    | cons d ds => simp [stops d rfl]
  | cons c cs => rfl

theorem readQuoted_append {escapes : Bool} {mark : Char} {cs text rest tail : List Char}
    (plain : mark ≠ '\\') (clear : ∀ c ∈ tail.head?, c ≠ mark)
    (read : readQuoted escapes mark cs = some (text, rest)) :
    readQuoted escapes mark (cs ++ tail) = some (text, rest ++ tail) := by
  fun_induction readQuoted escapes mark cs generalizing text rest with
  | case1 => cases read
  | case2 =>
    cases read
    cases tail with
    | nil => simp [readQuoted]
    | cons d ds => simp [readQuoted, plain, clear d rfl]
  | case3 => cases read
  | case4 c d cs escaped same ih =>
    obtain ⟨⟨inner, left⟩, held, equal⟩ := Option.map_eq_some_iff.mp read
    cases equal
    simp only [List.cons_append, readQuoted, escaped, same, ↓reduceIte, ih held, Option.map_some]
  | case5 => cases read
  | case6 c d cs escaped other visible ih =>
    obtain ⟨⟨inner, left⟩, held, equal⟩ := Option.map_eq_some_iff.mp read
    cases equal
    simp only [List.cons_append, readQuoted, escaped, ↓reduceIte, ih held, Option.map_some]
    rw [if_neg other, if_neg visible]
  | case7 cs free ih =>
    obtain ⟨⟨inner, left⟩, held, equal⟩ := Option.map_eq_some_iff.mp read
    cases equal
    simp only [List.cons_append, readQuoted, free, ↓reduceIte, ih held, Option.map_some]
    rfl
  | case8 d cs free different =>
    cases read
    simp only [List.cons_append, readQuoted, free, different, ↓reduceIte]
    rfl
  | case9 c d cs free different ih =>
    obtain ⟨⟨inner, left⟩, held, equal⟩ := Option.map_eq_some_iff.mp read
    cases equal
    have longer := ih held
    simp only [List.cons_append] at longer
    simp only [List.cons_append, readQuoted, free, different, ↓reduceIte, longer, Option.map_some]
    rfl

theorem readTemplate_append {cs text rest : List Char} (tail : List Char)
    (read : readTemplate cs = some (text, rest)) :
    readTemplate (cs ++ tail) = some (text, rest ++ tail) := by
  induction cs generalizing text rest with
  | nil => cases read
  | cons c cs ih =>
    unfold readTemplate at read
    split at read
    · cases read; simp_all [readTemplate]
    · obtain ⟨⟨inner, left⟩, held, equal⟩ := Option.map_eq_some_iff.mp read
      cases equal
      simp_all [readTemplate]

private theorem readFraction_append {tail : List Char} (broken : Breaks tail) (leading : Bool)
    (cs : List Char) : readFraction leading (cs ++ tail) =
      ((readFraction leading cs).1, (readFraction leading cs).2 ++ tail) := by
  have digits := stops_at (p := Char.isDigit) (by decide) broken
  have noPoint := stops_at (p := (· == '.')) (by decide) broken
  cases cs with
  | nil =>
    cases tail with
    | nil => rfl
    | cons d ds =>
      have different : d ≠ '.' := by simpa using noPoint d rfl
      simp [readFraction, different]
  | cons c cs =>
    by_cases point : c = '.'
    · subst point
      cases cs with
      | nil =>
        cases tail with
        | nil => cases leading <;> rfl
        | cons d ds =>
          have isDigit := digits d rfl
          cases leading <;> simp [readFraction, isDigit]
      | cons d ds =>
        obtain ⟨taken, dropped⟩ := takeWhile_stop digits (d :: ds)
        simp only [List.cons_append] at taken dropped
        simp only [readFraction, List.cons_append, taken, dropped]
        split <;> simp
    · simp [readFraction, point]

private theorem readExponent_append {tail : List Char} (broken : Breaks tail) (cs : List Char) :
    readExponent (cs ++ tail) = ((readExponent cs).1, (readExponent cs).2 ++ tail) := by
  have digits := stops_at (p := Char.isDigit) (by decide) broken
  have noMark := stops_at (p := fun c => c == 'e' || c == 'E') (by decide) broken
  have noSign := stops_at (p := fun c => c.isDigit || c == '+' || c == '-') (by decide) broken
  match cs with
  | [] =>
    match tail with
    | [] => rfl
    | [d] => rfl
    | d :: e :: ds =>
      have different := noMark d rfl
      simp_all [readExponent]
  | [c] =>
    match tail with
    | [] => rfl
    | d :: ds =>
      have different := noSign d rfl
      simp_all [readExponent]
  | c :: d :: cs =>
    obtain ⟨taken, dropped⟩ := takeWhile_stop digits cs
    simp only [readExponent, List.cons_append, taken, dropped]
    split <;> simp

private theorem readDecimal_append {tail : List Char} (broken : Breaks tail) (cs : List Char) :
    readNumber.readDecimal (cs ++ tail) =
      ((readNumber.readDecimal cs).1, (readNumber.readDecimal cs).2 ++ tail) := by
  obtain ⟨taken, dropped⟩ := takeWhile_stop (stops_at (p := Char.isDigit) (by decide) broken) cs
  simp only [readNumber.readDecimal, taken, dropped, readFraction_append broken,
    readExponent_append broken]

/-- Only a mark after a zero makes a number hexadecimal. -/
theorem readNumber_decimal {cs : List Char} (noMark : ∀ d ∈ cs.tail.head?, (d == 'x' || d == 'X') = false) :
    readNumber cs = readNumber.readDecimal cs := by
  unfold readNumber
  split
  · rename_i d ds
    have different := noMark d rfl
    simp only [Bool.or_eq_false_iff, beq_eq_false_iff_ne, ne_eq] at different
    simp [different]
  · rfl

theorem readNumber_append {tail : List Char} (broken : Breaks tail) (cs : List Char) :
    readNumber (cs ++ tail) = ((readNumber cs).1, (readNumber cs).2 ++ tail) := by
  have noMark := stops_at (p := fun c => c == 'x' || c == 'X') (by decide) broken
  have hexes := stops_at (p := isHexDigit) (by decide) broken
  match cs with
  | [] =>
    cases tail with
    | nil => rfl
    | cons d ds =>
      have notZero := stops_at (p := (· == '0')) (by decide) broken d rfl
      have whole : readNumber (d :: ds) = readNumber.readDecimal (d :: ds) := by
        unfold readNumber
        split
        · rename_i equal
          cases equal
          simp at notZero
        · rfl
      rw [List.nil_append, whole, show readNumber [] = readNumber.readDecimal [] from rfl]
      exact readDecimal_append broken []
  | [c] =>
    rw [readNumber_decimal (by simpa using noMark), readNumber_decimal (by simp)]
    exact readDecimal_append broken [c]
  | c :: d :: cs =>
    obtain ⟨taken, dropped⟩ := takeWhile_stop hexes cs
    have decimal := readDecimal_append broken (c :: d :: cs)
    unfold readNumber
    by_cases zero : c = '0'
    · subst zero
      simp only [List.cons_append, taken, dropped] at decimal ⊢
      split
      · rfl
      · exact decimal
    · simpa [zero] using decimal

private theorem longOperator_append {tail : List Char} (regular : lexicon.Regular) (broken : Breaks tail)
    (cs : List Char) :
    (lexicon.longOperators.find? fun op => op.toList.isPrefixOf (cs ++ tail)) =
      lexicon.longOperators.find? fun op => op.toList.isPrefixOf cs := by
  have same : ∀ op ∈ lexicon.longOperators,
      op.toList.isPrefixOf (cs ++ tail) = op.toList.isPrefixOf cs := by
    intro op member
    have inside := (Lexicon.mem_longOperators member regular).2
    have foreign : ∀ c ∈ tail.head?, c ∉ op.toList := by
      intro c held member
      have isSingle := inside c member
      have notSingle := stops_at (p := singleOperators.contains) (by decide) broken c held
      simp_all
    revert foreign
    generalize op.toList = characters
    clear inside
    intro foreign
    induction characters generalizing cs with
    | nil => simp
    | cons x xs ih =>
      cases cs with
      | nil =>
        cases tail with
        | nil => rfl
        | cons d ds =>
          have different : x ≠ d := fun equal => foreign d rfl (by simp [equal])
          simp [List.isPrefixOf_cons_cons, different]
      | cons c cs =>
        simp only [List.cons_append, List.isPrefixOf_cons_cons]
        rw [ih cs fun c held member => foreign c held (by simp [member])]
  generalize lexicon.longOperators = operators at same
  induction operators with
  | nil => rfl
  | cons op operators ih =>
    have head := same op (by simp)
    have rest := ih fun other member => same other (by simp [member])
    simp only [List.find?_cons, head, rest]

private theorem readQuoted_break {escapes : Bool} {c : Char} {cs tail text rest : List Char} (regular : lexicon.Regular)
    (isQuote : c ∈ lexicon.stringQuotes ++ lexicon.identQuotes) (broken : Breaks tail)
    (held : readQuoted escapes c cs = some (text, rest)) :
    readQuoted escapes c (cs ++ tail) = some (text, rest ++ tail) := by
  have mark := regular.quotes c isQuote
  refine readQuoted_append ?_ ?_ held
  · rintro rfl
    simp at mark
  · rintro d member rfl
    obtain rfl | rfl | rfl | rfl | rfl | rfl := isBreak_cases (broken d member) <;> revert mark <;> decide

private theorem head_brace_append {tail : List Char} (broken : Breaks tail) (cs : List Char) :
    ((cs ++ tail).head? = some '\x7b') = (cs.head? = some '\x7b') := by
  have same := head?_append_any (stops_at (p := (· == '\x7b')) (by decide) broken) cs
  cases cs <;> cases tail <;> simp_all

private theorem drop_operator_append {cs tail : List Char} {op : String}
    (found : (lexicon.longOperators.find? fun op => op.toList.isPrefixOf cs) = some op) :
    (cs ++ tail).drop op.length = cs.drop op.length ++ tail := by
  have taken : op.toList <+: cs := by simpa using List.find?_some found
  refine List.drop_append_of_le_length ?_
  rw [← String.length_toList]
  exact taken.length_le

/-- A token is the same whatever breaks off after it. -/
theorem readLexeme_append {pos : Position} {c : Char} {cs tail : List Char} {lexeme : Lexeme}
    (regular : lexicon.Regular) (broken : Breaks tail)
    (read : readLexeme lexicon pos c cs = .ok lexeme) :
    readLexeme lexicon pos c (cs ++ tail) = .ok { lexeme with rest := lexeme.rest ++ tail } := by
  have brace := head_brace_append broken cs
  have digit := head?_append_any (stops_at (p := Char.isDigit) (by decide) broken) cs
  have words := takeWhile_stop (stops_at (p := isIdentChar) (by decide) broken) (c :: cs)
  have operators := longOperator_append regular broken (c :: cs)
  have number := readNumber_append broken (c :: cs)
  simp only [List.cons_append] at words operators number
  rw [readLexeme]
  simp only [brace, digit, words, operators, number]
  revert read
  fun_cases readLexeme lexicon pos c cs with
  | case1 string text rest held =>
    rintro ⟨⟩
    rw [if_pos string, readQuoted_break regular (List.mem_append_left _ (by simpa using string)) broken held]
  | case2 => rintro ⟨⟩
  | case3 string name text rest held =>
    rintro ⟨⟩
    rw [if_neg string, if_pos name, readQuoted_break regular
      (List.mem_append_right _ (by simpa using name)) broken held]
  | case4 => rintro ⟨⟩
  | case5 string name opened text rest held =>
    rintro ⟨⟩
    have longer := readTemplate_append tail held
    rw [List.cons_append] at longer
    rw [if_neg string, if_neg name, if_pos opened, longer]
  | case6 => rintro ⟨⟩
  | case7 string name closed mark =>
    rintro ⟨⟩
    rw [if_neg string, if_neg name, if_neg closed, if_pos mark]
  | case8 string name closed mark starts text rest taken =>
    rintro ⟨⟩
    rw [if_neg string, if_neg name, if_neg closed, if_neg mark, if_pos starts, taken]
  | case9 string name closed mark noNumber starts =>
    rintro ⟨⟩
    rw [if_neg string, if_neg name, if_neg closed, if_neg mark, if_neg noNumber, if_pos starts]
  | case10 string name closed mark noNumber noWord bracket =>
    rintro ⟨⟩
    rw [if_neg string, if_neg name, if_neg closed, if_neg mark, if_neg noNumber, if_neg noWord, if_pos bracket]
  | case11 string name closed mark noNumber noWord noBracket op found =>
    rintro ⟨⟩
    rw [if_neg string, if_neg name, if_neg closed, if_neg mark, if_neg noNumber, if_neg noWord, if_neg noBracket, found]
    simp only [← List.cons_append, drop_operator_append found]
  | case12 string name closed mark noNumber noWord noBracket missing single =>
    rintro ⟨⟩
    rw [if_neg string, if_neg name, if_neg closed, if_neg mark, if_neg noNumber, if_neg noWord,
      if_neg noBracket, missing]
    exact if_pos single
  | case13 => rintro ⟨⟩

/-! ### The tokens of a text -/

/-- The tokens from a place on. -/
def scan (lexicon : Lexicon) (pos : Position) (cs : List Char) : Except Error (List Token) :=
  tokensFrom lexicon (cs.length + 1) pos cs

theorem tokenize_eq_scan (sql : String) :
    tokenize lexicon sql = scan lexicon Position.start sql.toList := by
  rw [tokenize, scan, String.length_toList]

private theorem tokensFrom_fuel (regular : lexicon.Regular) {fuel other : Nat} {pos : Position}
    {cs : List Char} (enough : cs.length < fuel) (also : cs.length < other) :
    tokensFrom lexicon fuel pos cs = tokensFrom lexicon other pos cs := by
  induction fuel generalizing other pos cs with
  | zero => omega
  | succ fuel ih =>
    obtain ⟨other, rfl⟩ := Nat.exists_eq_succ_of_ne_zero (show other ≠ 0 by omega)
    simp only [tokensFrom]
    cases skipped : skipGap lexicon .code pos cs with
    | error e => rfl
    | ok found =>
      obtain ⟨start, rest⟩ := found
      have left := (skipGap_suffix skipped).length_le
      cases rest with
      | nil => rfl
      | cons c rest =>
        simp only [List.length_cons] at left
        cases read : readLexeme lexicon start c rest with
        | error e => simp only [read]
        | ok lexeme =>
          have shorter := (readLexeme_suffix regular read).length_le
          simp only [read]
          rw [ih (by omega) (by omega : _ < other)]

/-- Rounds beyond the number of characters change nothing. -/
theorem tokensFrom_eq_scan (regular : lexicon.Regular) {fuel : Nat} {pos : Position} {cs : List Char}
    (enough : cs.length < fuel) : tokensFrom lexicon fuel pos cs = scan lexicon pos cs :=
  tokensFrom_fuel regular enough (Nat.lt_succ_self _)

theorem scan_finish {pos next : Position} {cs : List Char}
    (skipped : skipGap lexicon .code pos cs = .ok (next, [])) :
    scan lexicon pos cs = .ok [{ kind := .finish, pos := next, stop := next.offset }] := by
  simp only [scan, tokensFrom, skipped]

/-- The tokens depend on what is left after the gap in front of them. -/
theorem scan_congr (regular : lexicon.Regular) {pos other : Position} {cs ds : List Char}
    (same : skipGap lexicon .code pos cs = skipGap lexicon .code other ds) :
    scan lexicon pos cs = scan lexicon other ds := by
  have enough : cs.length < max cs.length ds.length + 1 := by omega
  have also : ds.length < max cs.length ds.length + 1 := by omega
  rw [← tokensFrom_eq_scan regular enough, ← tokensFrom_eq_scan regular also]
  simp only [tokensFrom, same]

/-- The place after a token, of whose text `rest` is left. -/
def after (start : Position) (cs rest : List Char) : Position :=
  start.advance (cs.take (cs.length - rest.length))

/-- The token that a lexeme becomes. -/
def Lexeme.token (lexeme : Lexeme) (start next : Position) : Token :=
  { kind := lexeme.kind, text := String.ofList lexeme.text, upper := lexeme.upper, pos := start,
    stop := next.offset }

theorem scan_lexeme (regular : lexicon.Regular) {pos start : Position} {c : Char} {cs rest : List Char}
    {lexeme : Lexeme} (skipped : skipGap lexicon .code pos cs = .ok (start, c :: rest))
    (read : readLexeme lexicon start c rest = .ok lexeme) :
    scan lexicon pos cs = (scan lexicon (after start (c :: rest) lexeme.rest) lexeme.rest).map
      (lexeme.token start (after start (c :: rest) lexeme.rest) :: ·) := by
  have left := (skipGap_suffix skipped).length_le
  have shorter := (readLexeme_suffix regular read).length_le
  simp only [List.length_cons] at left
  rw [scan]
  simp only [tokensFrom, skipped, read]
  rw [tokensFrom_eq_scan regular (by omega)]
  cases equal : scan lexicon (after start (c :: rest) lexeme.rest) lexeme.rest with
  | error e => simp_all [after, Except.map]
  | ok tokens => simp_all [after, Except.map, Lexeme.token]

end Token

end SqlDialects
