import SqlDialects.Proofs.Columns

/-! The operator language over columns of several parts. These are the values that stand in the clauses of a query: what
is printed of one is read back in front of whatever ends it, and no word that belongs to `SELECT` itself begins it. -/

namespace SqlDialects

open Token SqlDialects.Parser

variable {d : Dialect} {id first : Ident} {rest : List Ident}

/-- Words behind `SELECT` that are no part of its first item. -/
def selectWords : List String := ["DISTINCT", "ALL", "TOP"]

/-- A name that is read again with its own quoting: in quotes, or a word that needs none. -/
def Ident.Kept (d : Dialect) (id : Ident) : Prop :=
  id.quoted = false → IsWord id.name ∧ d.isReserved (Text.upper id.name) = false

theorem Ident.Kept.isName (kept : id.Kept d) : id.IsName := fun bare => (kept bare).1

/-- A column whose parts are read again as they are written. -/
structure KeptColumn (d : Dialect) (first : Ident) (rest : List Ident) : Prop where
  names : ∀ id ∈ first :: rest, id.Kept d
  plain : first.quoted = false → first.IsColumn d ∧ Text.upper first.name ∉ selectWords
  later : ∀ id ∈ rest, id.quoted = false → Text.upper id.name ∉ statementWords

/-- Trees of operators that the dialect keeps, over columns, numbers and strings. -/
inductive ValueTree (d : Dialect) : Expr → Prop
  | column {first : Ident} {rest : List Ident} (pos : Position) (kept : KeptColumn d first rest) :
    ValueTree d (.column pos (first :: rest))
  | number {value : String} (pos : Position) (number : IsNumber value) : ValueTree d (.literal pos .number value)
  | string (pos : Position) (value : String) : ValueTree d (.literal pos .string value)
  | binary {op : String} {left right : Expr} (pos : Position) (keeps : d.Keeps op) (first : ValueTree d left)
    (second : ValueTree d right) : ValueTree d (.binary pos op left right)
  | negation {operand : Expr} (pos : Position) (inner : ValueTree d operand) : ValueTree d (.unary pos "NOT" operand)
  | minus {operand : Expr} (pos : Position) (inner : ValueTree d operand) : ValueTree d (.unary pos "-" operand)
  | between {operand low high : Expr} (pos : Position) (negated : Bool) (inner : ValueTree d operand)
    (least : ValueTree d low) (most : ValueTree d high) : ValueTree d (.between pos operand low high negated)
  | inList {operand : Expr} {members : List Expr} (pos : Position) (negated : Bool) (inner : ValueTree d operand)
    (nonempty : members ≠ []) (each : ∀ member ∈ members, ValueTree d member) :
    ValueTree d (.inList pos operand members negated)
  | isValue {operand : Expr} {value : String} (pos : Position) (negated : Bool) (inner : ValueTree d operand)
    (known : value ∈ ["NULL", "TRUE", "FALSE"]) : ValueTree d (.isValue pos operand negated value)

/-! ### Columns -/

theorem Ident.Kept.printed (kept : id.Kept d) {p : Printer} (target : p.dialect = d) (unkeyed : p.keyed = false) :
    p.ident id = id.spelling d.toLexicon := by
  subst target
  obtain ⟨name, quoted⟩ := id
  cases quoted with
  | true => simp [Printer.ident, Ident.spelling]
  | false =>
    obtain ⟨word, free⟩ := kept rfl
    exact Printer.ident_word unkeyed word free

theorem path_printed (names : ∀ id ∈ first :: rest, id.Kept d) {p : Printer} (target : p.dialect = d)
    (unkeyed : p.keyed = false) : p.path (first :: rest) = columnText d.toLexicon first rest := by
  have same : (first :: rest).map p.ident = (first :: rest).map (Ident.spelling d.toLexicon) := by
    apply List.map_congr_left
    intro id member
    exact (names id member).printed target unkeyed
  rw [Printer.path, same, columnText]

theorem columnText_shape (regular : d.toLexicon.Regular) (quotes : d.QuotesNames)
    (name : first.IsName) (rest : List Ident) :
    ∃ c cs, (columnText d.toLexicon first rest).toList = c :: cs ∧ (c ∈ marks ∨ isIdentStart c = true) := by
  obtain ⟨c, cs, shape, starts⟩ : ∃ c cs, (first.spelling d.toLexicon).toList = c :: cs ∧
      (c ∈ marks ∨ isIdentStart c = true) := by
    unfold Ident.spelling
    split
    · obtain ⟨mark, others, named⟩ := List.exists_cons_of_ne_nil quotes.names
      have isMark := regular.quotes mark (List.mem_append_right _ (by simp [named]))
      exact ⟨mark, _, by simp [Printer.quoteIdent, named]; rfl, .inl isMark⟩
    · next bare =>
      obtain ⟨c, cs, shape, starts, _⟩ := name (by simpa using bare)
      exact ⟨c, cs, shape, .inr starts⟩
  cases rest with
  | nil => exact ⟨c, cs, by simpa [columnText] using shape, starts⟩
  | cons second rest =>
    have whole : (columnText d.toLexicon first (second :: rest)).toList =
        (first.spelling d.toLexicon).toList ++ '.' :: (columnText d.toLexicon second rest).toList := by
      simp [columnText, String.intercalate_cons_cons]
    rw [whole, shape]
    exact ⟨c, _, rfl, starts⟩

theorem columnTokens_ordinary (kept : KeptColumn d first rest) :
    ∀ t ∈ columnTokens d.toLexicon first rest, t.Ordinary := by
  intro t member
  simp only [columnTokens, List.mem_cons, List.mem_flatMap, List.not_mem_nil, or_false] at member
  obtain rfl | ⟨id, inside, rfl | rfl⟩ := member
  · exact Ident.token_ordinary fun bare => (kept.plain bare).1
  · decide
  · intro w known
    unfold Ident.token
    split
    · rfl
    · next bare =>
      rw [is_word, beq_eq_false_iff_ne]
      rintro rfl
      exact kept.later id inside (by simpa using bare) known

theorem Ident.isOp_token (lexicon : Lexicon) (id : Ident) (op : String) : (id.token lexicon).isOp op = false := by
  unfold Ident.token
  split
  · rfl
  · exact isOp_word ..

theorem written_path (regular : d.Regular) (quotes : d.QuotesNames) (kept : KeptColumn d first rest) (pos : Position) :
    Written d (.column pos (first :: rest)) (.column pos (first :: rest)) (columnText d.toLexicon first rest)
      (columnTokens d.toLexicon first rest) := by
  have column (bare : first.quoted = false) : first.IsColumn d := (kept.plain bare).1
  have names : ∀ id ∈ first :: rest, id.IsName := fun id member => (kept.names id member).isName
  obtain ⟨c, cs, shape, starts⟩ := columnText_shape regular.lexicon quotes (names first List.mem_cons_self) rest
  have clear : c ∉ '(' :: singleOperators := by
    have facts : ∀ c ∈ '(' :: singleOperators, c ∉ marks ∧ isIdentStart c = false := forall_of_all (by decide)
    intro single
    obtain mark | starts := starts
    · exact (facts c single).1 mark
    · rw [(facts c single).2] at starts
      cases starts
  refine ⟨leveled_plain rfl ⟨rfl, .inr rfl⟩, ?_, spells_column regular.lexicon quotes names, ?_,
    by simp [Expr.bare], ?_, ?_,
    ?_, ?_, fun _ => grows_operand ⟨rfl, rfl⟩ (reads_columnPath column pos _)⟩
  · intro p target unkeyed
    rw [Printer.expr_column, path_printed kept.names target unkeyed]
  · exact (reads_columnPath column pos _).reads _
  · refine ⟨_, _, rfl, Ident.token_ordinary column, fun mark _ => Ident.isOp_token .., ?_⟩
    cases rest with
    | nil => simp
    | cons second rest =>
      rintro u ⟨⟩
      decide
  · exact fun inside => absurd inside (by simp)
  · exact fun _ => ⟨c, cs, shape, fun single => clear (List.mem_cons_of_mem _ single)⟩
  · rw [shape]
    refine begins_cons ?_ (Ident.isOp_token ..) (columnTokens_ordinary kept)
    rw [beq_eq_false_iff_ne]
    rintro rfl
    exact clear List.mem_cons_self

theorem ValueTree.written (regular : d.Regular) (quotes : d.QuotesNames) {e : Expr} (tree : ValueTree d e) :
    ∃ text ts, Written d e e text ts := by
  induction tree with
  | column pos kept => exact ⟨_, _, written_path regular quotes kept pos⟩
  | number pos number => exact ⟨_, _, written_number regular number pos⟩
  | string pos value => exact ⟨_, _, written_string regular value pos⟩
  | binary pos keeps _ _ first second =>
    obtain ⟨_, _, first⟩ := first
    obtain ⟨_, _, second⟩ := second
    exact written_binary regular keeps pos first second
  | negation pos _ written =>
    obtain ⟨_, _, written⟩ := written
    exact written_negation regular pos written
  | minus pos _ written =>
    obtain ⟨_, _, written⟩ := written
    exact written_minus regular pos written
  | between pos negated _ _ _ written least most =>
    obtain ⟨_, _, written⟩ := written
    obtain ⟨_, _, least⟩ := least
    obtain ⟨_, _, most⟩ := most
    exact written_between regular (regular.ansi "AND" (by decide)) pos negated written least most
  | inList pos negated _ nonempty _ written members =>
    obtain ⟨_, _, written⟩ := written
    obtain ⟨first, rest, rfl⟩ := List.exists_cons_of_ne_nil nonempty
    obtain ⟨_, _, _, list⟩ := written_list regular (List.forall₂_same.mpr members)
    exact written_inList regular pos negated written list
  | isValue pos negated _ known written =>
    obtain ⟨_, _, written⟩ := written
    exact written_isValue regular pos negated written known

/-! ### The first word -/

/-- The token is none of the words behind `SELECT` and no star. -/
def Token.StartsItem (t : Token) : Prop := (∀ w ∈ selectWords, t.is w = false) ∧ t.isOp "*" = false

/-- In front of a blank the text has a first token that starts an item. -/
def BeginsItem (lexicon : Lexicon) (cs : List Char) : Prop :=
  Leads lexicon (fun ts => ∃ t more, ts = t :: more ∧ t.StartsItem) (cs ++ [' '])

private theorem BeginsItem.append {lexicon : Lexicon} {front : List Char}
    (begins : BeginsItem lexicon front) (back : List Char) :
    BeginsItem lexicon (front ++ ' ' :: back) := by
  have whole : front ++ ' ' :: back ++ [' '] = (front ++ [' ']) ++ (back ++ [' ']) := by simp
  rw [BeginsItem, whole]
  exact Leads.append begins _

private theorem beginsItem_tokens {lexicon : Lexicon} {ends : List Char → Prop} {front : List Char} {t : Token}
    {ts : List Token} (spelled : SpellsBefore lexicon ends front (t :: ts)) (starts : t.StartsItem)
    (back : List Char) (meets : ∀ tail, ends (back ++ ' ' :: tail)) : BeginsItem lexicon (front ++ back) := by
  have last : Leads lexicon (fun _ => True) (back ++ [' ']) := leads_any fun _ => trivial
  have whole := spelled.leads last fun tail => by simpa using meets tail
  rw [BeginsItem, List.append_assoc]
  refine whole.weaken ?_
  rintro _ ⟨more, rfl, _⟩
  exact ⟨t, ts ++ more, rfl, starts⟩

/-- What breaks off may stand in front of the blank. -/
private theorem beginsItem_spelled {lexicon : Lexicon} {cs : List Char} {t : Token} {ts : List Token}
    (spelled : Spells lexicon cs (t :: ts)) (starts : t.StartsItem) : BeginsItem lexicon cs := by
  have begins := beginsItem_tokens spelled.before starts [] fun tail => breaks_cons (by decide)
  rwa [List.append_nil] at begins

private theorem beginsItem_paren (regular : d.Regular) (text : String) :
    BeginsItem d.toLexicon (Printer.paren true text).toList := by
  have shape : (Printer.paren true text).toList = ['('] ++ (text ++ ")").toList := by simp [Printer.paren]
  rw [shape]
  exact beginsItem_tokens (spellsBefore_bracket regular.lexicon (by decide))
    ⟨fun w _ => rfl, by decide⟩ _ fun _ => trivial

private theorem BeginsItem.atLevel (regular : d.Regular) {e : Expr} {text : String}
    (begins : BeginsItem d.toLexicon text.toList)
    (level : Nat) : BeginsItem d.toLexicon (e.atLevel level text).toList := by
  unfold Expr.atLevel
  by_cases low : e.prec < level
  · simpa [low] using beginsItem_paren regular text
  · simpa [low, Printer.paren] using begins

private theorem BeginsItem.operand (regular : d.Regular) {e : Expr} {text : String}
    (begins : BeginsItem d.toLexicon text.toList)
    (level : Nat) (back : String) (gap : ∃ cs, back.toList = ' ' :: cs) :
    BeginsItem d.toLexicon (e.atLevel level text ++ back).toList := by
  obtain ⟨cs, gap⟩ := gap
  rw [String.toList_append, gap]
  exact (begins.atLevel regular level).append cs

private theorem clear_behind_minus {operand : Expr} {text : String} {ts : List Token}
    (written : Written d operand operand text ts) :
    ∃ inner c cs, ({ dialect := d } : Printer).expr (.unary {} "-" operand) = .ok ("-" ++ inner) ∧
      inner.toList = c :: cs ∧ c ∉ singleOperators := by
  have printed := written.printed { dialect := d } rfl rfl
  have enclosed : ∃ c cs, (Printer.paren true text).toList = c :: cs ∧ c ∉ singleOperators :=
    ⟨'(', text.toList ++ [')'], by simp [Printer.paren], by decide⟩
  cases starts : operand.startsWithMinus with
  | true =>
    obtain ⟨c, cs, shape⟩ := enclosed
    refine ⟨Printer.paren true text, c, cs, ?_, shape⟩
    simp [Printer.expr_unary, printed, bind, Except.bind, starts, pure, Except.pure]
  | false =>
    obtain ⟨c, cs, shape⟩ : ∃ c cs, (operand.atLevel Prec.sign text).toList = c :: cs ∧ c ∉ singleOperators := by
      by_cases low : operand.prec < Prec.sign
      · simpa [Expr.atLevel, low] using enclosed
      · have levels := written.leveled.operand starts (Nat.not_lt.mp low)
        simpa [Expr.atLevel, Printer.paren, low] using written.clear levels.1
    refine ⟨operand.atLevel Prec.sign text, c, cs, ?_, shape⟩
    simp [Printer.expr_unary, printed, bind, Except.bind, starts, pure, Except.pure]

/-- The text of a tree can stand directly behind `SELECT`. -/
theorem ValueTree.beginsItem (regular : d.Regular) (quotes : d.QuotesNames) {e : Expr}
    (tree : ValueTree d e) {text : String}
    (printed : ({ dialect := d } : Printer).expr e = .ok text) : BeginsItem d.toLexicon text.toList := by
  induction tree generalizing text with
  | @column first rest pos kept =>
    have written := written_path regular quotes kept pos
    obtain rfl : columnText d.toLexicon first rest = text :=
      Except.ok.inj ((written.printed _ rfl rfl).symm.trans printed)
    refine beginsItem_spelled written.spelled ⟨fun w known => ?_, Ident.isOp_token ..⟩
    cases quoted : first.quoted with
    | true => simp [Ident.token, quoted, quotedWord, Token.is, isWord]
    | false =>
      rw [Ident.token, quoted, if_neg (by decide), is_word, beq_eq_false_iff_ne]
      rintro rfl
      exact (kept.plain quoted).2 known
  | number pos number =>
    cases printed
    exact beginsItem_spelled (spells_number regular.lexicon number) ⟨fun w _ => rfl, rfl⟩
  | string pos value =>
    cases printed
    exact beginsItem_spelled (spells_string regular.lexicon value) ⟨fun w _ => rfl, rfl⟩
  | @binary op left right pos keeps first second ih _ =>
    obtain ⟨leftText, leftPrinted, printed⟩ := ok_of_bind printed
    obtain ⟨rightText, _, printed⟩ := ok_of_bind printed
    cases printed
    have begins := (ih leftPrinted).operand regular (e := left) (leftLevel op)
      (" " ++ op ++ " " ++ right.atLevel (binaryPrec op + 1) rightText) ⟨_, by simp; rfl⟩
    simpa [String.append_assoc] using begins
  | @negation operand pos inner ih =>
    rw [Printer.expr_unary] at printed
    obtain ⟨operandText, _, printed⟩ := ok_of_bind printed
    cases printed
    have known : "NOT" ∈ ["IN", "BETWEEN", "IS", "NOT", "AND", "NULL", "TRUE", "FALSE"] := by decide
    have begins : BeginsItem d.toLexicon "NOT".toList := by
      refine beginsItem_spelled (spells_word regular.lexicon
        (show "NOT".toList = 'N' :: ['O', 'T'] from rfl) (by decide)
        (by decide)) ⟨fun w member => ?_, isOp_word ..⟩
      rw [is_word, upper_words "NOT" known]
      revert w
      decide
    have shape : ("NOT " ++ operand.atLevel Prec.negation operandText).toList =
        "NOT".toList ++ ' ' :: (operand.atLevel Prec.negation operandText).toList := by simp
    rw [shape]
    exact begins.append _
  | @minus operand pos inner ih =>
    obtain ⟨_, _, written⟩ := inner.written regular quotes
    obtain ⟨behind, c, cs, own, shape, clear⟩ := clear_behind_minus written
    obtain rfl : "-" ++ behind = text := Except.ok.inj (own.symm.trans printed)
    have parts : ("-" ++ behind).toList = ['-'] ++ behind.toList := by simp
    rw [parts]
    refine beginsItem_tokens (spellsBefore_mark regular.lexicon (by decide) (by decide))
      ⟨fun w _ => rfl, by decide⟩ _ fun tail => ?_
    rw [shape]
    rintro e ⟨⟩
    simpa using clear
  | @between operand low high pos negated inner least most ih =>
    obtain ⟨operandText, operandPrinted, printed⟩ := ok_of_bind printed
    obtain ⟨lowText, _, printed⟩ := ok_of_bind printed
    obtain ⟨highText, _, printed⟩ := ok_of_bind printed
    cases printed
    have begins := (ih operandPrinted).operand regular (e := operand) (Prec.comparison + 1)
      ((if negated then " NOT" else "") ++ " BETWEEN " ++ low.atLevel (Prec.comparison + 1) lowText ++ " AND " ++
        high.atLevel (Prec.comparison + 1) highText) (by cases negated <;> exact ⟨_, by simp; rfl⟩)
    simpa [String.append_assoc] using begins
  | @inList operand members pos negated inner _ _ ih =>
    obtain ⟨operandText, operandPrinted, printed⟩ := ok_of_bind printed
    obtain ⟨texts, _, printed⟩ := ok_of_bind printed
    cases printed
    have begins := (ih operandPrinted).operand regular (e := operand) (Prec.comparison + 1)
      ((if negated then " NOT" else "") ++ " IN (" ++ Printer.commas texts ++ ")")
      (by cases negated <;> exact ⟨_, by simp; rfl⟩)
    simpa [String.append_assoc] using begins
  | @isValue operand value pos negated inner _ ih =>
    obtain ⟨operandText, operandPrinted, printed⟩ := ok_of_bind printed
    cases printed
    have begins := (ih operandPrinted).operand regular (e := operand) (Prec.comparison + 1)
      (" IS " ++ (if negated then "NOT " else "") ++ value) ⟨_, by simp; rfl⟩
    simpa [String.append_assoc] using begins

/-- A text that is read as some tokens begins with the first of them. -/
theorem BeginsItem.head {lexicon : Lexicon} {cs : List Char} {t : Token} {ts : List Token}
    (begins : BeginsItem lexicon cs) (spelled : Spells lexicon cs (t :: ts)) : t.StartsItem := by
  obtain ⟨tokens, next, shown, scanned⟩ := spelled [' '] Position.start (breaks_cons (by decide))
  have ended : scan lexicon next [' '] = .ok [_] := scan_finish skipGap_blank
  rw [ended] at scanned
  obtain ⟨first, more, same, starts⟩ := begins [] Position.start _ ((congrArg _ (List.append_nil _)).trans scanned)
  rw [List.map_append, shown] at same
  rw [(List.cons.inj same).1]
  exact starts

end SqlDialects
