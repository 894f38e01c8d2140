import SqlDialects.Proofs.Spelling

/-! The part of a text that a token takes, read alone. A reader finds the end of its token with the help of
the characters behind it, but they only tell it where to stop: without them it stops in the same place,
because then the text ends there. So the part spells its token in front of everything that breaks off. -/

namespace SqlDialects.Token

variable {lexicon : Lexicon}

/-! ### One reader at a time -/

theorem readQuoted_part {escapes : Bool} {mark : Char} {cs text rest : List Char}
    (read : readQuoted escapes mark cs = some (text, rest)) :
    ∃ part, cs = part ++ rest ∧ readQuoted escapes mark part = some (text, []) := by
  fun_induction readQuoted escapes mark cs generalizing text rest with
  | case1 => cases read
  | case2 =>
    cases read
    exact ⟨[mark], rfl, by simp [readQuoted]⟩
  | case3 => cases read
  | case4 c d cs escaped same ih =>
    obtain ⟨⟨inner, left⟩, held, equal⟩ := Option.map_eq_some_iff.mp read
    cases equal
    obtain ⟨part, rfl, alone⟩ := ih held
    refine ⟨c :: d :: part, rfl, ?_⟩
    simp only [readQuoted, escaped, same, ↓reduceIte, alone, Option.map_some]
  | case5 => cases read
  | case6 c d cs escaped other visible ih =>
    obtain ⟨⟨inner, left⟩, held, equal⟩ := Option.map_eq_some_iff.mp read
    cases equal
    obtain ⟨part, rfl, alone⟩ := ih held
    refine ⟨c :: d :: part, rfl, ?_⟩
    simp only [readQuoted, escaped, ↓reduceIte, alone, Option.map_some]
    rw [if_neg other, if_neg visible]
  | case7 cs free ih =>
    obtain ⟨⟨inner, left⟩, held, equal⟩ := Option.map_eq_some_iff.mp read
    cases equal
    obtain ⟨part, rfl, alone⟩ := ih held
    refine ⟨mark :: mark :: part, rfl, ?_⟩
    simp only [readQuoted, free, ↓reduceIte, alone, Option.map_some]
    rfl
  | case8 d cs free different =>
    cases read
    exact ⟨[mark], rfl, by simp [readQuoted]⟩
  | case9 c d cs free different ih =>
    obtain ⟨⟨inner, left⟩, held, equal⟩ := Option.map_eq_some_iff.mp read
    cases equal
    obtain ⟨part, split, alone⟩ := ih held
    cases part with
    | nil => cases alone
    | cons x part =>
      cases split
      refine ⟨c :: d :: part, rfl, ?_⟩
      simp only [readQuoted, free, different, ↓reduceIte, alone, Option.map_some]
      rfl

theorem readTemplate_part {cs text rest : List Char} (read : readTemplate cs = some (text, rest)) :
    ∃ part, cs = part ++ rest ∧ readTemplate part = some (text, []) := by
  induction cs generalizing text rest with
  | nil => cases read
  | cons c cs ih =>
    unfold readTemplate at read
    split at read
    next closes =>
      cases read
      exact ⟨[c], rfl, by simp [readTemplate, closes]⟩
    next goes =>
      obtain ⟨⟨inner, left⟩, held, equal⟩ := Option.map_eq_some_iff.mp read
      cases equal
      obtain ⟨part, rfl, alone⟩ := ih held
      exact ⟨c :: part, rfl, by simp [readTemplate, goes, alone]⟩

private theorem takeWhile_alone {p : Char → Bool} {tail : List Char} (stops : ∀ c ∈ tail.head?, p c = false)
    (cs : List Char) :
    (cs.takeWhile p ++ tail).takeWhile p = cs.takeWhile p ∧ (cs.takeWhile p ++ tail).dropWhile p = tail := by
  have all : ∀ c ∈ cs.takeWhile p, p c = true := List.all_eq_true.mp List.all_takeWhile
  constructor
  · rw [List.takeWhile_append_of_pos all]
    cases tail with
    | nil => simp
    | cons c tail => simp [stops c rfl]
  · rw [List.dropWhile_append_of_pos all]
    cases tail with
    | nil => simp
    | cons c tail => simp [stops c rfl]

private theorem takeWhile_itself (p : Char → Bool) (cs : List Char) :
    (cs.takeWhile p).takeWhile p = cs.takeWhile p ∧ (cs.takeWhile p).dropWhile p = [] := by
  have alone := takeWhile_alone (p := p) (fun c (held : c ∈ ([] : List Char).head?) => nomatch held) cs
  rwa [List.append_nil] at alone

private theorem readExponent_head (cs : List Char) :
    ∀ c ∈ (readExponent cs).1.head?, c.isDigit = false ∧ c ≠ '.' := by
  unfold readExponent
  split
  · split
    next e d cs isMark =>
      intro c held
      cases held
      simp only [Bool.and_eq_true, Bool.or_eq_true, decide_eq_true_eq] at isMark
      obtain ⟨rfl | rfl, _⟩ := isMark <;> decide
    next => simp
  · simp

private theorem readExponent_alone (cs : List Char) : readExponent (readExponent cs).1 = ((readExponent cs).1, []) := by
  have digits := takeWhile_itself Char.isDigit
  fun_cases readExponent cs with
  | case1 e d cs isMark => simp [readExponent, isMark, digits cs]
  | case2 => rfl
  | case3 => rfl

private theorem readFraction_point {leading : Bool} {cs : List Char}
    (known : (cs.head?.any Char.isDigit || leading) = true) :
    readFraction leading ('.' :: cs) = ('.' :: cs.takeWhile Char.isDigit, cs.dropWhile Char.isDigit) := by
  cases cs with
  | nil =>
    have leads : leading = true := by simpa using known
    simp [readFraction, leads]
  | cons d cs =>
    have either : (d.isDigit || leading) = true := by simpa using known
    simp [readFraction, either]

/-- A fraction is read in front of everything that is neither a digit nor a point. -/
private theorem readFraction_alone {tail : List Char} (stops : ∀ c ∈ tail.head?, c.isDigit = false ∧ c ≠ '.')
    (leading : Bool) (cs : List Char) :
    readFraction leading ((readFraction leading cs).1 ++ tail) = ((readFraction leading cs).1, tail) := by
  have digits := takeWhile_alone (p := Char.isDigit) fun c held => (stops c held).1
  have none : readFraction leading tail = ([], tail) := by
    cases tail with
    | nil => rfl
    | cons c tail => simp [readFraction, (stops c rfl).2]
  fun_cases readFraction leading cs with
  | case1 d cs known =>
    have still : (((d :: cs).takeWhile Char.isDigit ++ tail).head?.any Char.isDigit || leading) = true := by
      by_cases digit : d.isDigit = true
      · simp [digit]
      · have leads : leading = true := by simpa [digit] using known
        rw [leads, Bool.or_true]
    obtain ⟨taken, dropped⟩ := digits (d :: cs)
    rw [List.cons_append, readFraction_point still, taken, dropped]
  | case2 => exact none
  | case3 leads =>
    have still : (tail.head?.any Char.isDigit || leading) = true := by rw [leads, Bool.or_true]
    have taken : tail.takeWhile Char.isDigit = [] := (digits []).1
    have dropped : tail.dropWhile Char.isDigit = tail := (digits []).2
    rw [List.cons_append, List.nil_append, readFraction_point still, taken, dropped]
  | case4 => exact none
  | case5 => exact none

private theorem readFraction_head (leading : Bool) (cs : List Char) :
    ∀ c ∈ (readFraction leading cs).1.head?, c.isDigit = false := by
  have point : '.'.isDigit = false := by decide
  fun_cases readFraction leading cs <;> simp [point]

private theorem readDecimal_alone (cs : List Char) :
    readNumber.readDecimal (readNumber.readDecimal cs).1 = ((readNumber.readDecimal cs).1, []) := by
  let whole := cs.takeWhile Char.isDigit
  let fraction := readFraction whole.isEmpty (cs.dropWhile Char.isDigit)
  let exponent := readExponent fraction.2
  have stops : ∀ c ∈ (fraction.1 ++ exponent.1).head?, c.isDigit = false := by
    intro c held
    cases part : fraction.1 with
    | nil =>
      rw [part] at held
      exact (readExponent_head _ c held).1
    | cons x xs =>
      rw [part] at held
      apply readFraction_head whole.isEmpty (cs.dropWhile Char.isDigit)
      show c ∈ fraction.1.head?
      rw [part]
      exact held
  obtain ⟨taken, dropped⟩ := takeWhile_alone stops cs
  have between : readFraction whole.isEmpty (fraction.1 ++ exponent.1) = (fraction.1, exponent.1) :=
    readFraction_alone (readExponent_head _) _ _
  have last : readExponent exponent.1 = (exponent.1, []) := readExponent_alone _
  show readNumber.readDecimal (whole ++ fraction.1 ++ exponent.1) = (whole ++ fraction.1 ++ exponent.1, [])
  rw [List.append_assoc]
  simp only [readNumber.readDecimal, whole, taken, dropped]
  simp only [whole] at between
  rw [between]
  simp only [last, List.append_assoc]

private theorem readFraction_splits (leading : Bool) (cs : List Char) :
    (readFraction leading cs).1 ++ (readFraction leading cs).2 = cs := by
  fun_cases readFraction leading cs <;> simp

private theorem readExponent_splits (cs : List Char) : (readExponent cs).1 ++ (readExponent cs).2 = cs := by
  fun_cases readExponent cs <;> simp

private theorem readDecimal_splits (cs : List Char) :
    (readNumber.readDecimal cs).1 ++ (readNumber.readDecimal cs).2 = cs := by
  let fraction := readFraction (cs.takeWhile Char.isDigit).isEmpty (cs.dropWhile Char.isDigit)
  calc cs.takeWhile Char.isDigit ++ fraction.1 ++ (readExponent fraction.2).1 ++ (readExponent fraction.2).2
    _ = cs.takeWhile Char.isDigit ++ (fraction.1 ++ fraction.2) := by
      rw [List.append_assoc, readExponent_splits, List.append_assoc]
    _ = cs := by rw [readFraction_splits, List.takeWhile_append_dropWhile]

private theorem readNumber_eq_decimal {cs : List Char}
    (noMark : ∀ x more, cs = '0' :: x :: more → ¬(x = 'x' || x = 'X') = true) :
    readNumber cs = readNumber.readDecimal cs := by
  unfold readNumber
  split
  next x more => rw [if_neg (noMark x more rfl)]
  next => rfl

theorem readNumber_splits (cs : List Char) : (readNumber cs).1 ++ (readNumber cs).2 = cs := by
  fun_cases readNumber cs with
  | case1 => simp
  | case2 => exact readDecimal_splits _
  | case3 => exact readDecimal_splits _

theorem readNumber_alone (cs : List Char) : readNumber (readNumber cs).1 = ((readNumber cs).1, []) := by
  have decimal (noMark : ∀ x more, cs = '0' :: x :: more → ¬(x = 'x' || x = 'X') = true) :
      readNumber (readNumber cs).1 = ((readNumber cs).1, []) := by
    have splits := readDecimal_splits cs
    rw [readNumber_eq_decimal noMark, readNumber_eq_decimal, readDecimal_alone]
    intro x more equal
    rw [equal] at splits
    exact noMark x _ splits.symm
  by_cases hex : ∃ x more, cs = '0' :: x :: more ∧ (x = 'x' || x = 'X') = true
  · obtain ⟨x, more, rfl, isMark⟩ := hex
    have digits := takeWhile_itself isHexDigit more
    simp [readNumber, isMark, digits]
  · apply decimal
    intro x more equal isMark
    exact hex ⟨x, more, equal, isMark⟩

private theorem readNumber_point {d : Char} (digit : d.isDigit = true) (cs : List Char) :
    ∃ more, (readNumber ('.' :: d :: cs)).1 = '.' :: d :: more := by
  have noDigit : ('.' :: d :: cs).takeWhile Char.isDigit = [] := rfl
  have none : ('.' :: d :: cs).dropWhile Char.isDigit = '.' :: d :: cs := rfl
  rw [readNumber_eq_decimal (by simp), readNumber.readDecimal]
  simp [noDigit, none, readFraction, digit]

/-! ### Any token -/

private theorem head_of_part {part rest : List Char} {d : Char} (held : part.head? = some d) :
    (part ++ rest).head? = some d := by
  cases part with
  | nil => cases held
  | cons x part => exact held

private theorem isPrefixOf_mono {op part cs : List Char} (leads : part <+: cs) (held : op.isPrefixOf part = true) :
    op.isPrefixOf cs = true := by
  rw [List.isPrefixOf_iff_prefix] at held ⊢
  exact held.trans leads

private theorem longOperator_part {cs part : List Char} {op : String} (leads : part <+: cs)
    (whole : op.toList.isPrefixOf part = true)
    (found : (lexicon.longOperators.find? fun op => op.toList.isPrefixOf cs) = some op) :
    (lexicon.longOperators.find? fun op => op.toList.isPrefixOf part) = some op := by
  rw [List.find?_eq_some_iff_append] at found ⊢
  obtain ⟨_, before, behind, split, longer⟩ := found
  refine ⟨whole, before, behind, split, ?_⟩
  intro other member
  rw [Bool.not_eq_true', Bool.eq_false_iff]
  intro held
  have absent := longer other member
  rw [isPrefixOf_mono leads held] at absent
  cases absent

private theorem noOperator_part {cs part : List Char} (leads : part <+: cs)
    (missing : (lexicon.longOperators.find? fun op => op.toList.isPrefixOf cs) = none) :
    (lexicon.longOperators.find? fun op => op.toList.isPrefixOf part) = none := by
  rw [List.find?_eq_none] at missing ⊢
  intro op member held
  exact missing op member (isPrefixOf_mono leads held)

section

variable {c : Char} (part : List Char) {rest : List Char}

private theorem unopened_part (closed : ¬(c = '$' && (part ++ rest).head? = some '\x7b') = true) :
    ¬(c = '$' && part.head? = some '\x7b') = true := by
  simp only [Bool.and_eq_true, decide_eq_true_eq] at closed ⊢
  rintro ⟨dollar, held⟩
  exact closed ⟨dollar, head_of_part held⟩

private theorem unnumbered_part (noNumber : ¬(c.isDigit || (c = '.' && (part ++ rest).head?.any Char.isDigit)) = true) :
    ¬(c.isDigit || (c = '.' && part.head?.any Char.isDigit)) = true := by
  simp only [Bool.or_eq_true, Bool.and_eq_true, decide_eq_true_eq, Option.any_eq_true] at noNumber ⊢
  rintro (digit | ⟨point, d, held, digit⟩)
  · exact noNumber (.inl digit)
  · exact noNumber (.inr ⟨point, d, head_of_part held, digit⟩)

end

section

variable {c : Char} {cs text rest : List Char}

/-- A dollar sign closes nothing, so the brace behind it belongs to the part. -/
private theorem readTemplate_opened (next : cs.head? = some '\x7b')
    (held : readTemplate ('$' :: cs) = some (text, rest)) :
    ∃ part, cs = part ++ rest ∧ part.head? = some '\x7b' ∧ readTemplate ('$' :: part) = some (text, []) := by
  obtain ⟨part, split, alone⟩ := readTemplate_part held
  cases part with
  | nil => cases alone
  | cons x behind =>
    cases behind with
    | nil =>
      cases split
      cases alone
    | cons d part =>
      cases split
      exact ⟨d :: part, rfl, next, alone⟩

/-- A number is the same without what follows it. If a point begins it, the digit behind the point belongs to it. -/
private theorem readNumber_part (starts : (c.isDigit || (c = '.' && cs.head?.any Char.isDigit)) = true)
    (number : readNumber (c :: cs) = (text, rest)) :
    ∃ part, cs = part ++ rest ∧ text = c :: part ∧ (c.isDigit || (c = '.' && part.head?.any Char.isDigit)) = true ∧
      readNumber (c :: part) = (c :: part, []) := by
  have splits := readNumber_splits (c :: cs)
  have alone := readNumber_alone (c :: cs)
  obtain ⟨part, rfl⟩ : rest <:+ cs := by
    have suffix : (readNumber (c :: cs)).2 <:+ cs := readNumber_suffix (by simpa using starts)
    rwa [number] at suffix
  rw [number] at splits alone
  obtain rfl : text = c :: part := List.append_cancel_right splits
  refine ⟨part, rfl, rfl, ?_, alone⟩
  cases part with
  | cons x part => exact starts
  | nil =>
    simp only [Bool.or_eq_true, Bool.and_eq_true, decide_eq_true_eq, Option.any_eq_true] at starts
    obtain digit | ⟨rfl, d, next, digit⟩ := starts
    · rw [digit, Bool.true_or]
    · obtain ⟨behind, rfl⟩ : ∃ behind, rest = d :: behind := by
        cases rest with
        | nil => cases next
        | cons x behind =>
          cases next
          exact ⟨behind, rfl⟩
      obtain ⟨more, longer⟩ := readNumber_point digit behind
      rw [List.nil_append] at number
      rw [number] at longer
      cases longer

private theorem longOperator_characters (regular : lexicon.Regular) {op : String}
    (found : (lexicon.longOperators.find? fun op => op.toList.isPrefixOf (c :: cs)) = some op) :
    ∃ part rest, op.toList = c :: part ∧ cs = part ++ rest := by
  have several := (Lexicon.mem_longOperators (List.mem_of_find?_eq_some found) regular).1
  obtain ⟨rest, split⟩ : op.toList <+: c :: cs := by simpa using List.find?_some found
  cases characters : op.toList with
  | nil => simp [characters] at several
  | cons x part =>
    rw [characters] at split
    cases split
    exact ⟨part, rest, rfl, rfl⟩

end

/-- A token is the same without what follows it. Every reader that was tried before and did not start still
does not start, since the part offers no characters but those that it saw. -/
theorem readLexeme_part (regular : lexicon.Regular) {pos : Position} {c : Char} {cs : List Char} {lexeme : Lexeme}
    (read : readLexeme lexicon pos c cs = .ok lexeme) :
    ∃ part, cs = part ++ lexeme.rest ∧
      ∀ other, readLexeme lexicon other c part = .ok ⟨lexeme.kind, lexeme.text, []⟩ := by
  revert read
  fun_cases readLexeme lexicon pos c cs with
  | case1 string text rest held =>
    rintro ⟨⟩
    obtain ⟨part, rfl, alone⟩ := readQuoted_part held
    refine ⟨part, rfl, fun other => ?_⟩
    rw [readLexeme, if_pos string, alone]
  | case2 => rintro ⟨⟩
  | case3 string name text rest held =>
    rintro ⟨⟩
    obtain ⟨part, rfl, alone⟩ := readQuoted_part held
    refine ⟨part, rfl, fun other => ?_⟩
    rw [readLexeme, if_neg string, if_pos name, alone]
  | case4 => rintro ⟨⟩
  | case5 string name opened text rest held =>
    rintro ⟨⟩
    simp only [Bool.and_eq_true, decide_eq_true_eq] at opened
    obtain ⟨rfl, next⟩ := opened
    obtain ⟨part, rfl, next, alone⟩ := readTemplate_opened next held
    refine ⟨part, rfl, fun other => ?_⟩
    rw [readLexeme, if_neg string, if_neg name, if_pos (by simpa using next), alone]
  | case6 => rintro ⟨⟩
  | case7 string name closed mark =>
    rintro ⟨⟩
    refine ⟨[], rfl, fun other => ?_⟩
    rw [readLexeme, if_neg string, if_neg name, if_neg (unopened_part [] closed), if_pos mark]
  | case8 string name closed mark starts text rest number =>
    rintro ⟨⟩
    obtain ⟨part, rfl, rfl, still, alone⟩ := readNumber_part starts number
    refine ⟨part, rfl, fun other => ?_⟩
    rw [readLexeme, if_neg string, if_neg name, if_neg (unopened_part part closed), if_neg mark, if_pos still, alone]
  | case9 string name closed mark noNumber starts text kind =>
    rintro ⟨⟩
    have inside : isIdentChar c = true := by simp [isIdentChar, starts]
    have all : (cs.takeWhile isIdentChar).all isIdentChar = true := List.all_takeWhile
    have taken : text = c :: cs.takeWhile isIdentChar := List.takeWhile_cons_of_pos inside
    refine ⟨cs.takeWhile isIdentChar, ?_, fun other => ?_⟩
    · show cs = _ ++ (c :: cs).dropWhile isIdentChar
      rw [List.dropWhile_cons_of_pos inside, List.takeWhile_append_dropWhile]
    · have ends : ∀ x ∈ ([] : List Char).head?, isIdentChar x = false := by simp
      have alone := readLexeme_word regular other starts all ends
      rw [List.append_nil] at alone
      simp only [alone, kind, taken]
  | case10 string name closed mark noNumber noWord bracket =>
    rintro ⟨⟩
    refine ⟨[], rfl, fun other => ?_⟩
    rw [readLexeme, if_neg string, if_neg name, if_neg (unopened_part [] closed), if_neg mark,
      if_neg (unnumbered_part [] noNumber), if_neg noWord, if_pos bracket]
  | case11 string name closed mark noNumber noWord noBracket op found =>
    rintro ⟨⟩
    obtain ⟨part, rest, whole, rfl⟩ := longOperator_characters regular found
    refine ⟨part, ?_, fun other => ?_⟩
    · show _ = part ++ (c :: (part ++ rest)).drop op.length
      rw [← String.length_toList, whole, ← List.cons_append, List.drop_left]
    · have alone : (lexicon.longOperators.find? fun op => op.toList.isPrefixOf (c :: part)) = some op := by
        apply longOperator_part ⟨rest, rfl⟩ _ found
        exact List.isPrefixOf_iff_prefix.mpr (whole ▸ List.prefix_refl _)
      rw [readLexeme, if_neg string, if_neg name, if_neg (unopened_part part closed), if_neg mark,
        if_neg (unnumbered_part part noNumber), if_neg noWord, if_neg noBracket, alone]
      simp [← String.length_toList, whole]
  | case12 string name closed mark noNumber noWord noBracket missing single =>
    rintro ⟨⟩
    refine ⟨[], rfl, fun other => ?_⟩
    rw [readLexeme, if_neg string, if_neg name, if_neg (unopened_part [] closed), if_neg mark,
      if_neg (unnumbered_part [] noNumber), if_neg noWord, if_neg noBracket, noOperator_part ⟨cs, rfl⟩ missing]
    exact if_pos single
  | case13 => rintro ⟨⟩

/-! ### The part spells its token -/

/-- Characters at which the skipper stands: no blank, and no comment that starts there. -/
private structure Stands (lexicon : Lexicon) (c : Char) (cs : List Char) : Prop where
  solid : c ∉ [' ', '\t', '\n', '\r']
  hash : c = '#' → lexicon.hashComments = false
  dash : c = '-' → cs.head? ≠ some '-'
  slash : c = '/' → cs.head? ≠ some '*'

private theorem stands_of_skipGap {gap : Gap} {pos next : Position} {c : Char} {cs rest : List Char}
    (skipped : skipGap lexicon gap pos cs = .ok (next, c :: rest)) : Stands lexicon c rest := by
  fun_induction skipGap lexicon gap pos cs with
  | case1 | case2 => cases skipped
  | case3 _ _ ih | case4 _ _ ih | case5 _ _ _ _ _ _ ih | case6 _ _ _ _ _ _ _ ih => exact ih skipped
  | case7 pos c cs noDash noSlash noBlank noHash =>
    cases skipped
    simp only [Bool.or_eq_true, Bool.and_eq_true, decide_eq_true_eq, not_or] at noBlank noHash
    refine ⟨by simp [noBlank], ?_, ?_, ?_⟩
    · intro isHash
      rw [Bool.eq_false_iff]
      intro hashes
      exact noHash ⟨isHash, hashes⟩
    · rintro rfl held
      obtain ⟨more, equal⟩ := List.head?_eq_some_iff.mp held
      exact noDash more rfl equal
    · rintro rfl held
      obtain ⟨more, equal⟩ := List.head?_eq_some_iff.mp held
      exact noSlash more rfl equal
  | case8 _ _ _ ih | case9 _ _ _ ih | case10 _ _ _ _ _ ih => exact ih skipped

private theorem Stands.skipGap {pos : Position} {c : Char} {cs : List Char} (stands : Stands lexicon c cs) :
    skipGap lexicon .code pos (c :: cs) = .ok (pos, c :: cs) := by
  obtain ⟨solid, hash, dash, slash⟩ := stands
  simp only [List.mem_cons, List.not_mem_nil, or_false, not_or] at solid
  rw [Token.skipGap]
  · by_cases isHash : c = '#'
    · simp [solid, hash isHash]
    · simp [solid, isHash]
  · rintro more rfl rfl
    exact dash rfl rfl
  · rintro more rfl rfl
    exact slash rfl rfl

private theorem Stands.part {c : Char} {part rest tail : List Char} (stands : Stands lexicon c (part ++ rest))
    (broken : Breaks tail) : Stands lexicon c (part ++ tail) := by
  have apart {d : Char} (other : isBreak d = false) (held : (part ++ rest).head? ≠ some d) :
      (part ++ tail).head? ≠ some d := by
    cases part with
    | cons x part => exact held
    | nil =>
      intro next
      rw [broken d next] at other
      cases other
  exact ⟨stands.solid, stands.hash, fun isDash => apart (by decide) (stands.dash isDash),
    fun isSlash => apart (by decide) (stands.slash isSlash)⟩

theorem spells_part (regular : lexicon.Regular) {pos next : Position} {c : Char}
    {before cs : List Char} {lexeme : Lexeme}
    (skipped : skipGap lexicon .code pos before = .ok (next, c :: cs))
    (read : readLexeme lexicon next c cs = .ok lexeme) :
    ∃ part, cs = part ++ lexeme.rest ∧ Spells lexicon (c :: part) [(lexeme.token {} {}).bare] := by
  obtain ⟨part, rfl, alone⟩ := readLexeme_part regular read
  have stands := stands_of_skipGap skipped
  refine ⟨part, rfl, ?_⟩
  intro tail start broken
  have scanned := scan_lexeme regular (stands.part broken).skipGap (readLexeme_append regular broken (alone start))
  exact ⟨[lexeme.token start (after start (c :: (part ++ tail)) tail)], _, rfl, scanned⟩

end SqlDialects.Token
