import SqlDialects.Proofs.Boundaries
import SqlDialects.Proofs.Climbing

/-! Columns of several parts: names with points between them, each a word or in quotes. The parser takes the parts one
by one, and a word behind a point may be a keyword. -/

namespace SqlDialects

open Token

variable {d : Dialect} {lexicon : Lexicon}

/-! ### Names and their texts -/

/-- A name in quotes or a word. -/
def Ident.IsName (id : Ident) : Prop := id.quoted = false → IsWord id.name

/-- A word that is a column by itself: it starts no statement, is not reserved, has no syntax of its own and is no
call. -/
structure Ident.IsColumn (d : Dialect) (id : Ident) : Prop where
  starts : Text.upper id.name ∉ statementWords
  free : d.isReserved (Text.upper id.name) = false
  ordinary : Text.upper id.name ∉ ["NULL", "TRUE", "FALSE", "NOT", "CASE", "INTERVAL"]
  niladic : d.niladic.find? (Text.upper id.name) = none

/-- A name as it is written, in quotes or not. -/
def Ident.spelling (lexicon : Lexicon) (id : Ident) : String :=
  if id.quoted then Printer.quoteIdent lexicon id.name else id.name

def Ident.token (lexicon : Lexicon) (id : Ident) : Token :=
  if id.quoted then quotedWord id.name else word lexicon id.name

/-- The text of a column. -/
def columnText (lexicon : Lexicon) (first : Ident) (rest : List Ident) : String :=
  ".".intercalate ((first :: rest).map (Ident.spelling lexicon))

def columnTokens (lexicon : Lexicon) (first : Ident) (rest : List Ident) : List Token :=
  first.token lexicon :: rest.flatMap fun id => [punctuation ".", id.token lexicon]

theorem Ident.token_ordinary {id : Ident} (column : id.quoted = false → id.IsColumn d) :
    (id.token lexicon).Ordinary := by
  intro w known
  unfold Ident.token
  split
  · rfl
  · next bare =>
    rw [is_word, beq_eq_false_iff_ne]
    rintro rfl
    exact (column (by simpa using bare)).starts known

/-! ### Tokens of a column -/

/-- What ends a name, in quotes or not. -/
def EndsName : List Char → Prop := StopsAt fun c => isIdentChar c || marks.contains c

theorem spellsBefore_name (regular : lexicon.Regular) (quotes : lexicon.QuotesNames) {id : Ident} (name : id.IsName) :
    SpellsBefore lexicon EndsName (id.spelling lexicon).toList [id.token lexicon] := by
  unfold Ident.spelling Ident.token
  split
  · refine (spellsBefore_quotedName regular quotes id.name).weaken fun tail ends c held => ?_
    exact (Bool.or_eq_false_iff.mp (ends c held)).2
  · next bare =>
    obtain ⟨c, cs, shape, starts, all⟩ := name (by simpa using bare)
    refine (spellsBefore_word regular shape starts all).weaken fun tail ends c held => ?_
    exact (Bool.or_eq_false_iff.mp (ends c held)).1

theorem spellsBefore_point (regular : lexicon.Regular) :
    SpellsBefore lexicon (StopsAt Char.isDigit) ['.'] [punctuation "."] := by
  have read (pos : Position) (tail : List Char) (stops : StopsAt Char.isDigit tail) :
      readLexeme lexicon pos '.' ([] ++ tail) = .ok ⟨.punctuation, ['.'], tail⟩ := by
    have noNumber : (tail.head?.any Char.isDigit) = false := by
      cases first : tail.head? with
      | none => rfl
      | some c => exact stops c first
    unfold readLexeme
    rw [if_neg (not_string regular (by decide)), if_neg (not_name regular (by decide)), if_neg (by simp),
      if_neg (by decide), if_neg (by simp [noNumber]), if_neg (by decide), if_pos (by decide), List.nil_append]
  exact spellsBefore_lexeme regular (by decide) (by decide) (fun dash => absurd dash (by decide)) read

private theorem spelling_first (quotes : lexicon.QuotesNames) (regular : lexicon.Regular)
    {id : Ident} (name : id.IsName)
    (tail : List Char) : StopsAt Char.isDigit ((id.spelling lexicon).toList ++ tail) := by
  unfold Ident.spelling
  split
  · obtain ⟨mark, others, first⟩ := List.exists_cons_of_ne_nil quotes.names
    have isMark : mark ∈ marks := regular.quotes mark (List.mem_append_right _ (by simp [first]))
    have noDigit : ∀ mark ∈ marks, mark.isDigit = false := forall_of_all (by decide)
    rintro c held
    obtain rfl : mark = c := by simpa [Printer.quoteIdent, first] using held
    exact noDigit mark isMark
  · next bare =>
    obtain ⟨c, cs, shape, starts, _⟩ := name (by simpa using bare)
    rintro e held
    obtain rfl : c = e := by simpa [shape] using held
    exact not_digit starts

theorem spellsBefore_column (regular : lexicon.Regular) (quotes : lexicon.QuotesNames)
    {first : Ident} {rest : List Ident}
    (names : ∀ id ∈ first :: rest, id.IsName) :
    SpellsBefore lexicon EndsName (columnText lexicon first rest).toList (columnTokens lexicon first rest) := by
  induction rest generalizing first with
  | nil => simpa [columnText, columnTokens] using spellsBefore_name regular quotes (names first List.mem_cons_self)
  | cons second rest ih =>
    obtain ⟨name, others⟩ := List.forall_mem_cons.mp names
    have shape : (columnText lexicon first (second :: rest)).toList =
        (first.spelling lexicon).toList ++ ('.' :: (columnText lexicon second rest).toList) := by
      simp [columnText, String.intercalate_cons_cons]
    have tokens : columnTokens lexicon first (second :: rest) =
        [first.token lexicon] ++ ([punctuation "."] ++ columnTokens lexicon second rest) := rfl
    rw [shape, tokens]
    have begins (tail : List Char) : StopsAt Char.isDigit ((columnText lexicon second rest).toList ++ tail) := by
      have start := spelling_first quotes regular (others second List.mem_cons_self)
      cases rest with
      | nil => simpa [columnText] using start tail
      | cons third rest => simpa [columnText, String.intercalate_cons_cons] using start ('.' :: _)
    refine (spellsBefore_name regular quotes name).append
      ((spellsBefore_point regular).append (ih others) fun tail _ => begins tail) fun tail _ => ?_
    rintro c ⟨⟩
    decide

theorem spells_column (regular : lexicon.Regular) (quotes : lexicon.QuotesNames) {first : Ident} {rest : List Ident}
    (names : ∀ id ∈ first :: rest, id.IsName) :
    Spells lexicon (columnText lexicon first rest).toList (columnTokens lexicon first rest) := by
  refine (spellsBefore_column regular quotes names).weaken fun tail broken c held => ?_
  have ends := broken c held
  simp only [isBreak, Bool.or_eq_true, beq_iff_eq] at ends
  obtain ((((rfl | rfl) | rfl) | rfl) | rfl) | rfl := ends <;> decide

/-! ### Reading a column -/

namespace Parser

open Cursor

variable {c : Cursor} {id first : Ident} {rest : List Ident} {ts : List Token}

/-- A word or a name in quotes is taken as an identifier. -/
theorem anyIdent_shows (shown : c.Shows (id.token d.toLexicon :: ts)) : anyIdent c = .ok (id, c.advance) := by
  have current : c.current.bare = id.token d.toLexicon := shown.current
  have text : c.current.text = id.name := by
    rw [← text_bare, current, Ident.token]
    split <;> rfl
  have quoted : c.current.isQuoted = id.quoted := by
    rw [← isQuoted_bare, current, Ident.token]
    split
    · next isOn => rw [isOn]; rfl
    · next isOff =>
      rw [Bool.not_eq_true] at isOff
      rw [isOff]
      unfold word isQuoted
      split <;> rfl
  have name : (c.current.isWord || c.current.isQuoted || c.current.isTemplate) = true := by
    cases isOn : id.quoted with
    | true => rw [quoted, isOn, Bool.or_true, Bool.true_or]
    | false =>
      have isWord : c.current.isWord = true := by
        rw [← isWord_bare, current, Ident.token, isOn]
        exact isWord_word ..
      rw [isWord, Bool.true_or, Bool.true_or]
  rw [anyIdent_apply, if_pos name, text, quoted]

private theorem pathStep_name (shown : c.Shows (punctuation "." :: id.token d.toLexicon :: ts)) (more : ts ≠ [])
    (path : List Ident) : pathStep (path, false) c = .ok (some (id :: path, false), c.advance.advance) ∧
      c.advance.advance.Shows ts := by
  have point : c.current.isOp "." = true := by
    rw [← isOp_bare, shown.current]
    decide
  have after : c.advance.Shows (id.token d.toLexicon :: ts) := shown.advance
  have noStar : c.advance.current.isOp "*" = false := by
    rw [← isOp_bare, after.current, Ident.token]
    split
    · rfl
    · exact isOp_word ..
  refine ⟨?_, after.advance' more⟩
  simp only [pathStep, Bool.false_eq_true, if_false, bind_apply, acceptOp_apply, point, if_true, ok_bind, noStar,
    anyIdent_shows after, pure_apply]

private theorem iterate_path (shown : c.Shows ((rest.flatMap fun id => [punctuation ".", id.token d.toLexicon]) ++ ts))
    (continues : Continues d ts) (path : List Ident) {fuel : Nat} (enough : rest.length < fuel) :
    ∃ next, iterate fuel pathStep (path, false) c = .ok ((rest.reverse ++ path, false), next) ∧ next.Shows ts := by
  obtain ⟨fuel, rfl⟩ := Nat.exists_eq_succ_of_ne_zero (show fuel ≠ 0 by omega)
  obtain ⟨t, tail, rfl, noNumber, _, noOp, _⟩ := continues
  induction rest generalizing c path fuel with
  | nil =>
    have current := shown.current
    have noPoint : c.current.isOp "." = false := by
      rw [← isOp_bare, current]
      exact noOp "." (by decide)
    have notNumber : c.current.kind ≠ .number := by
      rw [← kind_bare, current]
      exact noNumber
    refine ⟨c, iterate_none ?_, shown⟩
    simp only [pathStep, bind_apply, acceptOp_apply, ok_bind, noPoint, get_apply, notNumber,
      Bool.false_eq_true, if_false,
      decide_false, Bool.false_and, pure_apply]
  | cons id rest ih =>
    rw [List.length_cons] at enough
    obtain ⟨fuel, rfl⟩ := Nat.exists_eq_succ_of_ne_zero (show fuel ≠ 0 by omega)
    have more : (rest.flatMap fun id => [punctuation ".", id.token d.toLexicon]) ++ t :: tail ≠ [] := by simp
    obtain ⟨stepped, after⟩ := pathStep_name shown more path
    obtain ⟨next, done, left⟩ := ih (id :: path) fuel (by omega) after
    have shorter : c.advance.advance.rest.length < c.rest.length := by
      refine shown.shorter after ?_
      rw [List.flatMap_cons, List.append_assoc, List.length_append]
      exact Nat.lt_add_of_pos_left (Nat.succ_pos 1)
    refine ⟨next, ?_, left⟩
    rw [iterate_some stepped shorter, done, List.reverse_cons, List.append_assoc]
    rfl

theorem columnExpr_shows {g : Grammar} (shown : c.Shows (columnTokens d.toLexicon first rest ++ ts))
    (continues : Continues d ts) :
    ∃ next, columnExpr d g c = .ok (.column c.current.pos (first :: rest), next) ∧ next.Shows ts := by
  have nonempty : (rest.flatMap fun id => [punctuation ".", id.token d.toLexicon]) ++ ts ≠ [] := by
    obtain ⟨t, tail, rfl, _⟩ := continues
    simp
  have after : c.advance.Shows ((rest.flatMap fun id => [punctuation ".", id.token d.toLexicon]) ++ ts) :=
    shown.advance' nonempty
  have enough : rest.length < c.advance.bound + 1 := by
    rw [after.bound_eq, List.length_append, List.length_flatMap]
    simp only [List.length_cons, List.length_nil, List.map_const', List.sum_replicate_nat]
    omega
  obtain ⟨next, done, left⟩ := iterate_path after continues [first] enough
  have noCall : next.current.isOp "(" = false := by
    obtain ⟨t, tail, rfl, _, _, noOp, _⟩ := continues
    rw [← isOp_bare, left.current]
    exact noOp "(" (by decide)
  refine ⟨next, ?_, left⟩
  simp only [columnExpr, bind_apply, position_apply, ok_bind, anyIdent_shows shown, loop_apply, done,
    Bool.false_eq_true, if_false, curOp_apply, noCall, Bool.false_and, pure_apply]
  simp

theorem reads_columnPath (column : first.quoted = false → first.IsColumn d) (pos : Position) (high : Nat) :
    ReadsOperand d high (.column pos (first :: rest)) (columnTokens d.toLexicon first rest) := by
  intro depth c tail _ continues _ shown
  obtain ⟨next, named, left⟩ := columnExpr_shows (g := grammar d depth) shown continues
  refine ⟨.column c.current.pos (first :: rest), next, ?_, left, rfl⟩
  have current : c.current.bare = first.token d.toLexicon := shown.current
  cases quoted : first.quoted with
  | true =>
    have kind : c.current.kind = .quotedWord := by
      rw [← kind_bare, current, Ident.token, quoted]
      rfl
    simp only [operandStep, bind_apply, current_apply, ok_bind, kind, named]
  | false =>
    obtain ⟨_, free, ordinary, niladic⟩ := column quoted
    have isWord : c.current.bare = word d.toLexicon first.name := by
      rw [current, Ident.token, quoted]
      rfl
    have upper : c.current.upper = Text.upper first.name := congrArg Token.upper isWord
    have kinds : c.current.kind = .keyword ∨ c.current.kind = .word := by
      rw [← kind_bare, isWord, word]
      split
      · exact .inl rfl
      · exact .inr rfl
    have name : isName d.toLexicon c.current = true := by
      obtain kind | kind := kinds
      · simp [isName, kind, upper, free]
      · simp [isName, kind]
    -- behind the first name there is a point or what comes behind the column
    obtain ⟨t, more, peeked, noString, noOp, noArrow⟩ : ∃ t more, c.Shows (first.token d.toLexicon :: t :: more) ∧
        t.kind ≠ .string ∧ (∀ op ∈ ["(", "["], t.isOp op = false) ∧ (d.lambdas && t.isOp "->") = false := by
      cases rest with
      | nil =>
        obtain ⟨t, more, rfl, _, noString, noOp, noArrow⟩ := continues
        exact ⟨t, more, shown, noString, fun op member => noOp op (List.mem_cons_of_mem "." member), noArrow⟩
      | cons id rest =>
        refine ⟨punctuation ".", _, shown, by decide, by decide, Bool.and_eq_false_iff.mpr (.inr (by decide))⟩
    have column : wordExpr d (grammar d depth) c = columnExpr d (grammar d depth) c := by
      refine wordExpr_column (upper ▸ ordinary) name (upper ▸ niladic) ?_ ?_ ?_
      · rw [← kind_bare, peeked.peek]
        exact noString
      · intro op member
        rw [← isOp_bare, peeked.peek]
        exact noOp op member
      · rw [← isOp_bare, peeked.peek, noArrow]
    obtain kind | kind := kinds <;>
      simp only [operandStep, bind_apply, current_apply, ok_bind, kind, column, named]

end Parser

end SqlDialects
