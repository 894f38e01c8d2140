import Mathlib.Data.List.Forall2
import SqlDialects.Proofs.Climbing
import SqlDialects.Registry

/-! Printing and reading back. A tree of the operator language, its text and its tokens belong
together: the printer writes the tree as the text, the lexer reads the text as the tokens, and the
parser reads the tokens as the tree. Parentheses are written exactly where the levels of the two
sides would disagree without them. -/

namespace SqlDialects

open Token SqlDialects.Parser

variable {d : Dialect} {ops : List String}

/-- The lowest level at which the parser has to be for the first token to lead to the whole tree.
Prefix operators and operands are read at every level. -/
def Expr.opening : Expr → Nat
  | .unary .. => Prec.access + 1
  | e => e.prec

/-- The printer writes the tree as the text. -/
def Prints (d : Dialect) (e : Expr) (text : String) : Prop :=
  ∀ p : Printer, p.dialect = d → p.keyed = false → p.expr e = .ok text

/-- How a text begins, and that no query is in it: as many parentheses open in front of the text as
in front of the tokens. -/
structure Begins (cs : List Char) (ts : List Token) : Prop where
  words : ∀ t ∈ ts, t.Ordinary
  opens : (cs.takeWhile (· == '(')).length = (ts.takeWhile (·.isOp "(")).length

/-- How the levels of a tree go together, in front of the tree and behind a sign. -/
structure Expr.Leveled (e : Expr) : Prop where
  positive : 0 < e.opening
  climbs : e.prec ≤ e.opening
  negated : Prec.negation ≤ e.prec → Prec.negation + 1 ≤ e.opening
  signed : e.startsWithMinus → e.prec ≤ Prec.access
  operand : e.startsWithMinus = false → Prec.sign ≤ e.prec → Prec.sign + 1 ≤ e.prec ∧ Prec.sign + 1 ≤ e.opening

/-- A tree with an operator at its root. -/
def Expr.IsOperator : Expr → Prop
  | .binary .. | .unary .. => True
  | _ => False

/-- The tokens turn any operand into what `after` makes of it. They bind like a subscript, and end like one or like a
sign with its operand. -/
def Suffix (d : Dialect) (us : List Token) (after : Expr → Expr) : Prop :=
  ∀ first, Extends d Prec.access Prec.sign first (after first) us

/-- The text of the tree `shown` and its tokens, which are read as the tree `read`. A suffix behind a tree that binds
tighter than comparisons goes to its last operand, so that a tree of operators stays one. -/
structure Written (d : Dialect) (shown read : Expr) (text : String) (ts : List Token) : Prop where
  leveled : shown.Leveled
  printed : Prints d shown text
  spelled : Spells d.toLexicon text.toList ts
  reads : Reads d shown.opening shown.prec read ts
  noQuery : ∀ pos query negated, read.bare ≠ .existsQuery pos query negated
  headed : Headed ts
  several : shown.prec ≤ Prec.access → 2 ≤ ts.length
  clear : Prec.sign < shown.prec → ∃ c cs, text.toList = c :: cs ∧ c ∉ singleOperators
  begins : Begins text.toList ts
  grows : Prec.comparison < shown.prec → ∀ us after, Suffix d us after → ∃ grown,
    Reads d (min shown.opening Prec.access) (min shown.prec Prec.sign) grown (ts ++ us) ∧
      (Prec.access < shown.prec → grown = after read) ∧ (shown.prec ≤ Prec.access → grown.IsOperator)

/-- The tree in a place that requires a binding power of at least `level`. -/
structure Placed (d : Dialect) (level : Nat) (shown read : Expr) (text : String) (ts : List Token) : Prop where
  printed : Prints d shown text
  spelled : Spells d.toLexicon (shown.atLevel level text).toList ts
  reads : Reads d level level read ts
  headed : Headed ts
  begins : Begins (shown.atLevel level text).toList ts
  grows : Prec.comparison < level → level ≤ Prec.sign → ∀ us after, Suffix d us after → ∃ grown,
    Reads d level level grown (ts ++ us) ∧ (shown.prec < level ∨ Prec.access < shown.prec → grown = after read) ∧
      (level ≤ shown.prec → shown.prec ≤ Prec.access → grown.IsOperator)

/-! ### First tokens -/

theorem Parser.Headed.append {ts us : List Token} (headed : Headed ts)
    (next : ∀ u ∈ us.head?, ∀ mark ∈ [",", ")"], u.isOp mark = false) : Headed (ts ++ us) := by
  obtain ⟨t, rest, rfl, words, marks, second⟩ := headed
  refine ⟨t, rest ++ us, rfl, words, marks, ?_⟩
  cases rest with
  | nil => simpa using next
  | cons u rest => simpa using second

theorem Parser.Headed.cons {t : Token} {ts : List Token} (headed : Headed ts) (rest : List Token)
    (words : t.Ordinary) (marks : ∀ mark ∈ [",", ")"], t.isOp mark = false) :
    Headed (t :: (ts ++ rest)) := by
  obtain ⟨u, us, rfl, _, second, _⟩ := headed
  exact ⟨t, u :: us ++ rest, rfl, words, marks, by simpa using second⟩

theorem Parser.headed_single {t : Token} (words : t.Ordinary)
    (marks : ∀ mark ∈ [",", ")"], t.isOp mark = false) : Headed [t] :=
  ⟨t, [], rfl, words, marks, by simp⟩

/-! ### Parentheses at the beginning -/

private theorem takeWhile_stop {α : Type} {p : α → Bool} {b : α} (stops : p b = false) (front back : List α) :
    (front ++ b :: back).takeWhile p = front.takeWhile p := by
  induction front with
  | nil => simp [stops]
  | cons a front ih => simp [List.takeWhile_cons, ih]

theorem Begins.append {cs rest : List Char} {ts us : List Token} {c : Char} {t : Token} (begins : Begins cs ts)
    (char : (c == '(') = false) (token : t.isOp "(" = false) (words : ∀ u ∈ t :: us, u.Ordinary) :
    Begins (cs ++ c :: rest) (ts ++ t :: us) := by
  refine ⟨?_, ?_⟩
  · intro u member
    obtain first | last := List.mem_append.mp member
    · exact begins.words u first
    · exact words u last
  · rw [takeWhile_stop (p := (· == '(')) char, takeWhile_stop (p := fun t : Token => t.isOp "(") token, begins.opens]

theorem Begins.paren {cs : List Char} {ts : List Token} (begins : Begins cs ts) :
    Begins ('(' :: (cs ++ [')'])) (punctuation "(" :: (ts ++ [punctuation ")"])) := by
  have inner : Begins (cs ++ [')']) (ts ++ [punctuation ")"]) := begins.append (by decide) (by decide) (by decide)
  refine ⟨?_, ?_⟩
  · intro u member
    obtain rfl | last := List.mem_cons.mp member
    · decide
    · exact inner.words u last
  · rw [List.takeWhile_cons_of_pos (by decide), List.takeWhile_cons_of_pos (by decide), List.length_cons,
      List.length_cons, inner.opens]

theorem begins_cons {c : Char} {cs : List Char} {t : Token} {ts : List Token} (char : (c == '(') = false)
    (token : t.isOp "(" = false) (words : ∀ u ∈ t :: ts, u.Ordinary) : Begins (c :: cs) (t :: ts) := by
  refine ⟨words, ?_⟩
  simp [char, token]

/-! ### Levels -/

private theorem binaryPrec_levels (op : String) :
    binaryPrec op = 1 ∨ binaryPrec op = 2 ∨ binaryPrec op = 4 ∨ binaryPrec op = 9 ∨ binaryPrec op = 10 := by
  unfold binaryPrec
  split
  · exact .inl rfl
  split
  · exact .inr (.inl rfl)
  split
  · exact .inr (.inr (.inr (.inl rfl)))
  split
  · exact .inr (.inr (.inr (.inr rfl)))
  · exact .inr (.inr (.inl rfl))

theorem leveled_binary (pos : Position) (op : String) (left right : Expr) :
    (Expr.binary pos op left right).Leveled := by
  -- no operator binds exactly as tightly as `NOT` or a sign
  have levels := binaryPrec_levels op
  refine ⟨?_, Nat.le_refl _, ?_, fun starts => by simp [Expr.startsWithMinus] at starts, fun _ high => ?_⟩ <;>
    simp only [Expr.opening, Expr.prec_binary, Prec.negation, Prec.sign] at * <;> omega

theorem leveled_negation (pos : Position) (operand : Expr) : (Expr.unary pos "NOT" operand).Leveled := by
  constructor <;> simp [Expr.opening, Expr.startsWithMinus, Prec.negation, Prec.access, Prec.sign]

theorem leveled_minus (pos : Position) (operand : Expr) : (Expr.unary pos "-" operand).Leveled := by
  constructor <;> simp [Expr.opening, Expr.startsWithMinus, Prec.negation, Prec.access, Prec.sign]

/-- Trees without a sign in front that are compared or are operands. -/
theorem leveled_plain {e : Expr} (plain : e.startsWithMinus = false)
    (level : e.opening = e.prec ∧ (e.prec = Prec.comparison ∨ e.prec = Prec.access + 1)) : e.Leveled := by
  obtain ⟨opened, levels⟩ := level
  refine ⟨?_, Nat.le_of_eq opened.symm, ?_, fun starts => ?_, fun _ high => ?_⟩
  · rw [opened]
    simp only [Prec.comparison, Prec.access] at levels
    omega
  · rw [opened]
    simp only [Prec.comparison, Prec.access, Prec.negation] at levels ⊢
    omega
  · rw [plain] at starts
    cases starts
  · rw [opened]
    simp only [Prec.comparison, Prec.access, Prec.sign] at levels high ⊢
    omega

theorem Written.whole {shown read : Expr} {text : String} {ts : List Token} (written : Written d shown read text ts) :
    Reads d 1 0 read ts :=
  written.reads.mono written.leveled.positive (Nat.zero_le _)

theorem Written.paren (regular : d.Regular) {shown read : Expr} {text : String} {ts : List Token}
    (written : Written d shown read text ts) (inner : shown.prec ≤ Prec.access) :
    Spells d.toLexicon ('(' :: (text.toList ++ [')'])) (punctuation "(" :: (ts ++ [punctuation ")"])) ∧
      (∀ low high, Reads d low high read (punctuation "(" :: (ts ++ [punctuation ")"]))) ∧
      Headed (punctuation "(" :: (ts ++ [punctuation ")"])) ∧
      Begins ('(' :: (text.toList ++ [')'])) (punctuation "(" :: (ts ++ [punctuation ")"])) := by
  have whole := written.whole
  refine ⟨written.spelled.paren regular.lexicon, ?_, written.headed.cons _ (by decide) (by decide),
    written.begins.paren⟩
  intro low high
  exact (whole.paren written.headed (written.several inner) high).reads low

/-- Parentheses make up for a level that the tree does not reach by itself. -/
theorem Written.placed (regular : d.Regular) {shown read : Expr} {text : String} {ts : List Token}
    (written : Written d shown read text ts) {level : Nat} (below : level ≤ Prec.access + 1) :
    ∃ us, Placed d level shown read text us := by
  by_cases low : shown.prec < level
  · obtain ⟨spelled, reads, headed, begins⟩ := written.paren regular (by omega)
    have same : (shown.atLevel level text).toList = '(' :: (text.toList ++ [')']) := by
      simp [Expr.atLevel, Printer.paren, low]
    refine ⟨_, written.printed, same ▸ spelled, reads level level, headed, same ▸ begins, ?_⟩
    intro _ bound us after suffix
    have extended := (reads Prec.access Prec.access).extend (suffix read) (Nat.le_refl _) (Nat.le_refl _)
    exact ⟨_, extended.mono (Nat.le_trans bound (by decide)) bound, fun _ => rfl,
      fun high => absurd low (Nat.not_lt.mpr high)⟩
  · have climbs := written.leveled.climbs
    have same : shown.atLevel level text = text := by simp [Expr.atLevel, Printer.paren, low]
    refine ⟨ts, written.printed, same.symm ▸ written.spelled, written.reads.mono (by omega) (by omega), written.headed,
      same.symm ▸ written.begins, ?_⟩
    intro above bound us after suffix
    obtain ⟨grown, reads, operand, inside⟩ := written.grows (by omega) us after suffix
    have inner : level ≤ Prec.access := Nat.le_trans bound (by decide)
    refine ⟨grown, reads.mono (by omega) (by omega), fun outside => ?_, fun _ => inside⟩
    exact operand (outside.resolve_left low)

/-! ### Operands -/

private theorem words_upper {w : String}
    (known : w ∈ ["IN", "BETWEEN", "IS", "NOT", "AND", "NULL", "TRUE", "FALSE"]) :
    (word d.toLexicon w).Ordinary := by
  intro other member
  rw [is_word, upper_words w known]
  revert w other
  decide

theorem Printer.ident_word {p : Printer} {name : String} (unkeyed : p.keyed = false)
    (isWord : ∃ c cs, name.toList = c :: cs ∧ isIdentStart c ∧ cs.all isIdentChar)
    (free : p.dialect.isReserved (Text.upper name) = false) : p.ident ⟨name, false⟩ = name := by
  obtain ⟨c, cs, shape, starts, all⟩ := isWord
  have noTemplate : name.startsWith "$\x7b" = false := by
    rw [String.startsWith_string_eq_false_iff, shape]
    intro taken
    have first : '$' = c := (List.cons_prefix_cons.mp taken).1
    rw [← first] at starts
    exact absurd starts (by decide)
  have noDigit : c.isDigit = false := not_digit starts
  have bare : Printer.needsQuotes p.dialect.toLexicon name = false := by
    simp [Printer.needsQuotes, free, shape, noDigit, starts, all]
  simp [Printer.ident, noTemplate, unkeyed, bare]

private theorem printed_column {name : String} (plain : PlainWord d name) (pos : Position) (p : Printer)
    (target : p.dialect = d) (unkeyed : p.keyed = false) : p.expr (.column pos [⟨name, false⟩]) = .ok name := by
  subst target
  have free : p.dialect.isReserved (Text.upper name) = false := by
    have keyword := plain.keyword
    simp only [Lexicon.isKeyword, Bool.or_eq_false_iff] at keyword
    exact keyword.2
  simp [Printer.expr_column, Printer.path, Printer.ident_word unkeyed plain.shape free]

theorem grows_operand {e : Expr} {ts : List Token} (operand : e.opening = Prec.access + 1 ∧ e.prec = Prec.access + 1)
    (reads : ReadsOperand d Prec.access e ts) (us : List Token) (after : Expr → Expr) (suffix : Suffix d us after) :
    ∃ grown, Reads d (min e.opening Prec.access) (min e.prec Prec.sign) grown (ts ++ us) ∧
      (Prec.access < e.prec → grown = after e) ∧ (e.prec ≤ Prec.access → grown.IsOperator) := by
  rw [operand.1, operand.2]
  refine ⟨after e, (reads.reads Prec.access).extend (suffix e) (Nat.le_refl _) (Nat.le_refl _),
    fun _ => rfl, fun low => ?_⟩
  exact absurd low (Nat.not_succ_le_self _)

theorem written_column (regular : d.Regular) {name : String} (plain : PlainWord d name) (pos : Position) :
    Written d (.column pos [⟨name, false⟩]) (.column pos [⟨name, false⟩]) name [word d.toLexicon name] := by
  obtain ⟨c, cs, shape, starts, all⟩ := plain.shape
  have words : (word d.toLexicon name).Ordinary := by
    intro w member
    rw [is_word, beq_eq_false_iff_ne]
    rintro rfl
    have known := regular.keywords _ (List.mem_append_right ["NULL", "TRUE", "FALSE", "NOT", "CASE", "INTERVAL"] member)
    rw [plain.keyword] at known
    cases known
  refine ⟨leveled_plain rfl ⟨rfl, .inr rfl⟩, printed_column plain pos, spells_word regular.lexicon shape starts all, ?_,
    by simp [Expr.bare], ?_, ?_, ?_, ?_, fun _ => grows_operand ⟨rfl, rfl⟩ (reads_column regular pos plain _)⟩
  · exact (reads_column regular pos plain _).reads _
  · exact headed_single words (fun mark _ => isOp_word ..)
  · simp
  · intro _
    refine ⟨c, cs, shape, ?_⟩
    intro single
    have facts : ∀ c ∈ singleOperators, isIdentStart c = false := forall_of_all (by decide)
    rw [facts c single] at starts
    cases starts
  · rw [shape]
    refine begins_cons ?_ (isOp_word ..) (by simpa using words)
    rw [beq_eq_false_iff_ne]
    rintro rfl
    exact absurd starts (by decide)

theorem written_number (regular : d.Regular) {value : String} (number : IsNumber value) (pos : Position) :
    Written d (.literal pos .number value) (.literal pos .number value) value
      [{ kind := .number, text := value, pos := {}, stop := 0 }] := by
  have facts : ∀ c ∈ '(' :: singleOperators, c.isDigit = false ∧ c ≠ '.' := forall_of_all (by decide)
  obtain ⟨c, cs, shape, starts⟩ := number.1
  have clear : c ∉ '(' :: singleOperators := by
    intro single
    obtain digit | point := starts
    · rw [(facts c single).1] at digit
      cases digit
    · exact (facts c single).2 point.1
  have unsigned : (Expr.literal pos .number value).startsWithMinus = false := by
    rw [Expr.startsWithMinus, String.startsWith_string_eq_false_iff, shape]
    intro taken
    have first : '-' = c := (List.cons_prefix_cons.mp taken).1
    exact clear (first ▸ by decide)
  refine ⟨leveled_plain unsigned ⟨rfl, .inr rfl⟩, fun p _ _ => by simp [Printer.expr_literal, Printer.literal],
    spells_number regular.lexicon number, ?_, by simp [Expr.bare], ?_, ?_, ?_, ?_,
    fun _ => grows_operand ⟨rfl, rfl⟩ (reads_number pos value _)⟩
  · exact (reads_number pos value _).reads _
  · exact headed_single (fun w _ => rfl) (fun mark _ => rfl)
  · simp
  · exact fun _ => ⟨c, cs, shape, fun single => clear (List.mem_cons_of_mem _ single)⟩
  · rw [shape]
    refine begins_cons ?_ rfl ?_
    · rw [beq_eq_false_iff_ne]
      rintro rfl
      exact clear (by simp)
    · simp [Ordinary, Token.is, Token.isWord]

theorem written_string (regular : d.Regular) (value : String) (pos : Position) :
    Written d (.literal pos .string value) (.literal pos .string value) (Printer.quoteString d.toLexicon value)
      [{ kind := .string, text := value, pos := {}, stop := 0 }] := by
  obtain ⟨mark, quotes, first⟩ := List.exists_cons_of_ne_nil regular.lexicon.strings
  have isMark := regular.lexicon.quotes mark (List.mem_append_left _ (by simp [first]))
  have facts : ∀ c ∈ '(' :: singleOperators, c ∉ ['\x27', '\x22', '\x60'] := forall_of_all (by decide)
  have shape : (Printer.quoteString d.toLexicon value).toList =
      mark :: (Printer.stringBody mark d.backslashEscapes value.toList ++ [mark]) := by
    simp [Printer.quoteString, first]
  refine ⟨leveled_plain rfl ⟨rfl, .inr rfl⟩,
    fun p target _ => by simp [Printer.expr_literal, Printer.literal, Printer.string, target],
    spells_string regular.lexicon value, ?_, by simp [Expr.bare], ?_, ?_, ?_, ?_,
    fun _ => grows_operand ⟨rfl, rfl⟩ (reads_string pos value _)⟩
  · exact (reads_string pos value _).reads _
  · exact headed_single (fun w _ => rfl) (fun mark _ => rfl)
  · simp
  · exact fun _ => ⟨mark, _, shape, fun single => facts mark (List.mem_cons_of_mem _ single) isMark⟩
  · rw [shape]
    refine begins_cons ?_ rfl ?_
    · rw [beq_eq_false_iff_ne]
      rintro rfl
      exact facts '(' (by simp) isMark
    · simp [Ordinary, Token.is, Token.isWord]

/-! ### Operators -/

private theorem Parser.Headed.nonempty {ts : List Token} (headed : Headed ts) : 1 ≤ ts.length := by
  obtain ⟨t, rest, rfl, _⟩ := headed
  simp

theorem leftLevel_climbs (op : String) : binaryPrec op ≤ leftLevel op := by
  unfold leftLevel
  split <;> omega

/-- Two operands with an operator between them, whose tokens are read in some way. -/
theorem written_infix (regular : d.Regular) {op : String} {t : Token} (spelled : Spells d.toLexicon op.toList [t])
    (marks : ∀ mark ∈ ["(", ",", ")"], t.isOp mark = false) (ordinary : t.Ordinary) (pos : Position)
    {left right left' read : Expr} {leftText rightText : String} {ts us : List Token}
    (first : Placed d (leftLevel op) left left' leftText ts) (printed : Prints d right rightText)
    (second : Spells d.toLexicon (right.atLevel (binaryPrec op + 1) rightText).toList us) (words : ∀ u ∈ us, u.Ordinary)
    (reads : Reads d (binaryPrec op) (binaryPrec op) read (ts ++ t :: us))
    (noQuery : ∀ pos query negated, read.bare ≠ .existsQuery pos query negated)
    (grows : Prec.comparison < binaryPrec op → ∀ vs after, Suffix d vs after →
      ∃ grown, Reads d (binaryPrec op) (binaryPrec op) grown (ts ++ t :: us ++ vs) ∧ grown.IsOperator) :
    ∃ text vs, Written d (.binary pos op left right) read text vs := by
  have levels := binaryPrec_levels op
  refine ⟨left.atLevel (leftLevel op) leftText ++ " " ++ op ++ " " ++ right.atLevel (binaryPrec op + 1) rightText,
    ts ++ t :: us, leveled_binary .., ?_, ?_, reads, noQuery, ?_, ?_, ?_, ?_, ?_⟩
  · intro p target unkeyed
    simp only [Printer.expr_binary, first.printed p target unkeyed, printed p target unkeyed]
    rfl
  · have joined := first.spelled.spaced regular.lexicon (spelled.spaced regular.lexicon second)
    simpa using joined
  · apply first.headed.append
    intro u isHead mark member
    have same : t = u := by simpa using isHead
    rw [← same]
    exact marks mark (List.mem_cons_of_mem _ member)
  · intro _
    have nonempty := first.headed.nonempty
    simp only [List.length_append, List.length_cons]
    omega
  · intro above
    simp only [Expr.prec_binary, Prec.sign] at above
    omega
  · have shape : (left.atLevel (leftLevel op) leftText ++ " " ++ op ++ " " ++
        right.atLevel (binaryPrec op + 1) rightText).toList = (left.atLevel (leftLevel op) leftText).toList ++
        ' ' :: (op.toList ++ ' ' :: (right.atLevel (binaryPrec op + 1) rightText).toList) := by simp
    rw [shape]
    refine first.begins.append (by decide) (marks "(" (by decide)) ?_
    · intro u member w known
      obtain rfl | later := List.mem_cons.mp member
      · exact ordinary w known
      · exact words u later w known
  · intro above vs after suffix
    obtain ⟨grown, reads, isOperator⟩ := grows above vs after suffix
    refine ⟨grown, reads.mono (Nat.min_le_left _ _) (Nat.min_le_left _ _), fun operand => ?_, fun _ => isOperator⟩
    rw [Expr.prec_binary, Prec.access] at operand
    omega

theorem written_binary (regular : d.Regular) {op : String} (keeps : d.Keeps op) (pos : Position)
    {left right left' right' : Expr} {leftText rightText : String} {ts us : List Token}
    (first : Written d left left' leftText ts) (second : Written d right right' rightText us) :
    ∃ text vs, Written d (.binary pos op left right) (.binary pos op left' right') text vs := by
  have levels := binaryPrec_levels op
  have below : leftLevel op ≤ Prec.access + 1 ∧ binaryPrec op + 1 ≤ Prec.access + 1 := by
    unfold leftLevel Prec.comparison Prec.access
    split <;> omega
  obtain ⟨ts, first⟩ := first.placed regular below.1
  obtain ⟨us, second⟩ := second.placed regular below.2
  obtain ⟨t, spelled, joins⟩ := spells_operator regular.lexicon (regular.writes keeps)
  have marks : ∀ mark ∈ ["(", ",", ")"], t.isOp mark = false := fun mark member =>
    joins.marks mark (by revert mark member; decide)
  have ordinary : t.Ordinary := fun w known =>
    joins.words w (List.mem_append_right ["NOT", "IS", "IN", "BETWEEN", "GLOBAL"] known)
  have reads {read : Expr} {us : List Token} (right : Reads d (binaryPrec op + 1) (binaryPrec op + 1) read us) :
      Reads d (binaryPrec op) (binaryPrec op) (.binary pos op left' read) (ts ++ t :: us) :=
    first.reads.extend (Reads.binary keeps joins pos left' (right.mono (Nat.le_refl _) (Nat.le_succ _)))
      (leftLevel_climbs op) (leftLevel_climbs op)
  refine written_infix regular spelled marks ordinary pos first second.printed second.spelled second.begins.words
    (reads second.reads) (by simp [Expr.bare]) ?_
  intro above vs after suffix
  -- a suffix goes to the operand on the right
  obtain ⟨grown, right, _⟩ := second.grows (by omega) (by rw [Prec.sign]; omega) vs after suffix
  refine ⟨.binary pos op left' grown, ?_, trivial⟩
  rw [List.append_assoc]
  exact reads right

theorem written_negation (regular : d.Regular) (pos : Position) {operand operand' : Expr}
    {text : String} {ts : List Token}
    (written : Written d operand operand' text ts) :
    ∃ text vs, Written d (.unary pos "NOT" operand) (.unary pos "NOT" operand') text vs := by
  obtain ⟨us, spelled, reads, headed, begins⟩ : ∃ us,
      Spells d.toLexicon (operand.atLevel Prec.negation text).toList us ∧
      Reads d (Prec.negation + 1) Prec.negation operand' us ∧ Headed us ∧
      ∀ t ∈ us, t.Ordinary := by
    by_cases low : operand.prec < Prec.negation
    · obtain ⟨spelled, reads, headed, begins⟩ :=
        written.paren regular (Nat.le_of_lt (Nat.lt_trans low (by decide)))
      exact ⟨_, by simpa [Expr.atLevel, Printer.paren, low] using spelled, reads _ _, headed, begins.words⟩
    · have levels := written.leveled.negated (by omega)
      refine ⟨ts, ?_, written.reads.mono levels (by omega), written.headed, written.begins.words⟩
      simpa [Expr.atLevel, Printer.paren, low] using written.spelled
  have notSpelled : Spells d.toLexicon "NOT".toList [word d.toLexicon "NOT"] :=
    spells_word regular.lexicon (show "NOT".toList = 'N' :: ['O', 'T'] from rfl) (by decide) (by decide)
  have words : (word d.toLexicon "NOT").Ordinary := words_upper (by decide)
  refine ⟨"NOT " ++ operand.atLevel Prec.negation text, word d.toLexicon "NOT" :: us, leveled_negation .., ?_, ?_, ?_,
    by simp [Expr.bare], ?_, ?_, ?_, ?_, fun above => absurd above (by simp [Prec.negation, Prec.comparison])⟩
  · intro p target unkeyed
    simp only [Printer.expr_unary, written.printed p target unkeyed]
    rfl
  · simpa using notSpelled.spaced regular.lexicon spelled
  · exact (reads.negation pos written.noQuery).reads _
  · simpa using headed.cons [] words (fun mark _ => isOp_word ..)
  · intro _
    have nonempty := headed.nonempty
    simpa using nonempty
  · intro above
    exact absurd above (by simp [Prec.sign, Prec.negation])
  · have shape : ("NOT " ++ operand.atLevel Prec.negation text).toList =
        'N' :: ('O' :: 'T' :: ' ' :: (operand.atLevel Prec.negation text).toList) := by simp
    rw [shape]
    refine begins_cons (by decide) (isOp_word ..) ?_
    intro t member
    obtain rfl | later := List.mem_cons.mp member
    · exact words
    · exact begins t later

theorem written_minus (regular : d.Regular) (pos : Position) {operand operand' : Expr} {text : String} {ts : List Token}
    (written : Written d operand operand' text ts) :
    ∃ text vs, Written d (.unary pos "-" operand) (.unary pos "-" operand') text vs := by
  obtain ⟨inner, us, printed, spelled, reads, headed, words, clear, grows⟩ : ∃ inner us,
      (∀ p : Printer, p.dialect = d → p.keyed = false → p.expr (.unary pos "-" operand) = .ok ("-" ++ inner)) ∧
      Spells d.toLexicon inner.toList us ∧ Reads d (Prec.sign + 1) Prec.sign operand' us ∧ Headed us ∧
      (∀ t ∈ us, t.Ordinary) ∧ (∃ c cs, inner.toList = c :: cs ∧ c ∉ singleOperators) ∧
      ∀ vs after, Suffix d vs after → ∃ grown, Reads d (Prec.sign + 1) Prec.sign grown (us ++ vs) := by
    by_cases low : operand.startsWithMinus ∨ operand.prec < Prec.sign
    · have inside : operand.prec ≤ Prec.access := by
        obtain starts | low := low
        · exact written.leveled.signed starts
        · exact Nat.le_of_lt (Nat.lt_trans low (by decide))
      obtain ⟨spelled, reads, headed, begins⟩ := written.paren regular inside
      refine ⟨"(" ++ text ++ ")", _, ?_, by simpa using spelled, reads _ _, headed, begins.words, ?_,
        fun vs after suffix =>
        ⟨_, (reads Prec.access Prec.access).extend (suffix operand') (Nat.le_refl _) (Nat.le_refl _)⟩⟩
      · intro p target unkeyed
        simp only [Printer.expr_unary, written.printed p target unkeyed]
        obtain starts | low := low
        · simp [bind, Except.bind, starts, Printer.paren, pure, Except.pure]
        · simp [bind, Except.bind, Expr.atLevel, low, Printer.paren, pure, Except.pure]
      · exact ⟨'(', text.toList ++ [')'], by simp, by decide⟩
    · simp only [not_or, Bool.not_eq_true, Nat.not_lt] at low
      have levels := written.leveled.operand low.1 low.2
      refine ⟨text, ts, ?_, written.spelled, written.reads.mono levels.2 low.2, written.headed,
        written.begins.words, written.clear levels.1, ?_⟩
      · intro p target unkeyed
        simp [Printer.expr_unary, written.printed p target unkeyed, bind, Except.bind, low.1,
          Expr.atLevel, Printer.paren,
          Nat.not_lt.mpr low.2, pure, Except.pure]
      · intro vs after suffix
        obtain ⟨grown, reads, _⟩ := written.grows (Nat.lt_of_lt_of_le (by decide) low.2) vs after suffix
        exact ⟨grown, reads.mono (Nat.le_min.mpr ⟨levels.2, Nat.le_refl _⟩) (Nat.le_min.mpr ⟨low.2, Nat.le_refl _⟩)⟩
  have shape : ("-" ++ inner).toList = '-' :: inner.toList := by simp
  refine ⟨"-" ++ inner, operator "-" :: us, leveled_minus .., printed, ?_, ?_, by simp [Expr.bare], ?_, ?_, ?_, ?_, ?_⟩
  · rw [shape]
    exact spelled.sign regular.lexicon (by decide) clear
  · exact (reads.sign (by decide) pos).reads _
  · simpa using headed.cons [] (t := operator "-") (by decide) (by decide)
  · intro _
    have nonempty := headed.nonempty
    simpa using nonempty
  · intro above
    exact absurd above (by simp)
  · rw [shape]
    refine begins_cons (by decide) (by decide) ?_
    intro t member
    obtain rfl | later := List.mem_cons.mp member
    · decide
    · exact words t later
  · intro _ vs after suffix
    obtain ⟨grown, reads⟩ := grows vs after suffix
    exact ⟨_, (reads.sign (by decide) pos).reads _,
      fun operand => absurd operand (by simp [Prec.sign, Prec.access]), fun _ => trivial⟩

/-! ### `BETWEEN`, `IN` and `IS` -/

private theorem spells_upper (regular : d.Regular) {w : String}
    (known : w ∈ ["IN", "BETWEEN", "IS", "NOT", "AND", "NULL", "TRUE", "FALSE"]) :
    Spells d.toLexicon w.toList [word d.toLexicon w] := by
  have shapes : ∀ w ∈ ["IN", "BETWEEN", "IS", "NOT", "AND", "NULL", "TRUE", "FALSE"],
      w.toList.head?.any isIdentStart ∧ w.toList.tail.all isIdentChar := by decide
  obtain ⟨starts, all⟩ := shapes w known
  match shape : w.toList with
  | [] => simp [shape] at starts
  | c :: cs =>
    rw [← shape]
    exact spells_word regular.lexicon shape (by simpa [shape] using starts) (by simpa [shape] using all)

/-- A word after an optional `NOT`. -/
private theorem spells_negatable (regular : d.Regular) (negated : Bool) {cs : List Char} {ts : List Token}
    (spelled : Spells d.toLexicon cs ts) :
    Spells d.toLexicon ((if negated then "NOT " else "").toList ++ cs) (maybeNot d negated ++ ts) := by
  cases negated with
  | false => simpa [maybeNot] using spelled
  | true => simpa [maybeNot] using (spells_upper regular (w := "NOT") (by decide)).spaced regular.lexicon spelled

private theorem written_comparison {operand operand' e e' : Expr} {text : String}
    {ts us : List Token} (regular : d.Regular)
    (placed : Placed d (Prec.comparison + 1) operand operand' text ts) (body : String)
      (level : e.prec = Prec.comparison)
    (opened : e.opening = Prec.comparison) (plain : e.startsWithMinus = false)
    (printed : Prints d e (operand.atLevel (Prec.comparison + 1) text ++ " " ++ body))
    (spelled : Spells d.toLexicon body.toList us) (extended : Extends d Prec.comparison Prec.comparison operand' e' us)
    (noQuery : ∀ pos query negated, e'.bare ≠ .existsQuery pos query negated)
    (first : ∃ w rest, us = word d.toLexicon w :: rest)
    (words : ∀ u ∈ us, u.Ordinary) : ∃ text vs, Written d e e' text vs := by
  obtain ⟨w, rest, rfl⟩ := first
  refine ⟨_, ts ++ word d.toLexicon w :: rest, leveled_plain plain ⟨opened.trans level.symm,
    .inl level⟩, printed, ?_, ?_,
    noQuery, placed.headed.append ?_, ?_, ?_, ?_, fun above => absurd above (by simp [level])⟩
  · simpa using placed.spelled.spaced regular.lexicon spelled
  · rw [level, opened]
    exact placed.reads.extend extended (Nat.le_succ _) (Nat.le_succ _)
  · intro u isHead mark _
    have same : word d.toLexicon w = u := by simpa using isHead
    rw [← same]
    exact isOp_word ..
  · intro _
    have nonempty := placed.headed.nonempty
    simp only [List.length_append, List.length_cons]
    omega
  · intro above
    rw [level] at above
    exact absurd above (by decide)
  · have shape : (operand.atLevel (Prec.comparison + 1) text ++ " " ++ body).toList =
        (operand.atLevel (Prec.comparison + 1) text).toList ++ ' ' :: body.toList := by simp
    rw [shape]
    exact placed.begins.append (by decide) (isOp_word ..) words

private theorem maybeNot_first (negated : Bool) (w : String) (rest : List Token) :
    ∃ v after, maybeNot d negated ++ word d.toLexicon w :: rest = word d.toLexicon v :: after := by
  cases negated with
  | true => exact ⟨"NOT", _, rfl⟩
  | false => exact ⟨w, rest, rfl⟩

private theorem maybeNot_words (negated : Bool) {w : String} {rest : List Token}
    (known : w ∈ ["IN", "BETWEEN", "IS", "NOT", "AND", "NULL", "TRUE", "FALSE"])
    (words : ∀ u ∈ rest, u.Ordinary) :
    ∀ u ∈ maybeNot d negated ++ word d.toLexicon w :: rest, u.Ordinary := by
  intro u member
  rw [List.mem_append, List.mem_cons] at member
  obtain isNot | rfl | later := member
  · cases negated with
    | true =>
      obtain rfl := List.mem_singleton.mp isNot
      exact words_upper (by decide)
    | false => cases isNot
  · exact words_upper known
  · exact words u later

private theorem above_comparison : Prec.comparison + 1 ≤ Prec.access + 1 := by decide

theorem written_between (regular : d.Regular) (keeps : d.Keeps "AND") (pos : Position) (negated : Bool)
    {operand low high operand' low' high' : Expr} {text lowText highText : String} {ts us vs : List Token}
    (written : Written d operand operand' text ts) (least : Written d low low' lowText us)
    (most : Written d high high' highText vs) :
    ∃ text ws, Written d (.between pos operand low high negated) (.between pos operand' low' high' negated) text ws :=
    by
  obtain ⟨ts, placed⟩ := written.placed regular above_comparison
  obtain ⟨us, least⟩ := least.placed regular above_comparison
  obtain ⟨vs, most⟩ := most.placed regular above_comparison
  have spelled := spells_negatable regular negated ((spells_upper regular (w := "BETWEEN") (by decide)).spaced
    regular.lexicon (least.spelled.spaced regular.lexicon ((spells_upper regular (w := "AND") (by decide)).spaced
      regular.lexicon most.spelled)))
  have words : ∀ u ∈ us ++ word d.toLexicon "AND" :: vs, u.Ordinary := by
    intro u member
    rw [List.mem_append, List.mem_cons] at member
    obtain earlier | rfl | later := member
    · exact least.begins.words u earlier
    · exact words_upper (by decide)
    · exact most.begins.words u later
  refine written_comparison regular placed
    ((if negated then "NOT " else "") ++ "BETWEEN " ++ low.atLevel (Prec.comparison + 1) lowText ++ " AND " ++
      high.atLevel (Prec.comparison + 1) highText) rfl rfl rfl ?_ (by simpa using spelled)
    (Reads.between keeps pos operand' negated (least.reads.mono (Nat.le_refl _) (Nat.le_succ _))
      (most.reads.mono (Nat.le_refl _) (Nat.le_succ _))) (by simp [Expr.bare]) (maybeNot_first negated _ _)
    (maybeNot_words negated (by decide) words)
  intro p target unkeyed
  cases negated <;>
    simp [Printer.expr_between, placed.printed p target unkeyed, least.printed p target unkeyed,
      most.printed p target unkeyed,
      bind, Except.bind, pure, Except.pure, ← String.toList_inj]

theorem written_isValue (regular : d.Regular) (pos : Position) (negated : Bool) {operand operand' : Expr}
    {text value : String} {ts : List Token} (written : Written d operand operand' text ts)
    (known : value ∈ ["NULL", "TRUE", "FALSE"]) :
    ∃ text ws, Written d (.isValue pos operand negated value) (.isValue pos operand' negated value) text ws := by
  obtain ⟨ts, placed⟩ := written.placed regular above_comparison
  have spelled := (spells_upper regular (w := "IS") (by decide)).spaced regular.lexicon
    (spells_negatable regular negated
    (spells_upper regular (List.mem_append_right ["IN", "BETWEEN", "IS", "NOT", "AND"] known)))
  have words := maybeNot_words (d := d) negated (List.mem_append_right ["IN", "BETWEEN", "IS", "NOT", "AND"] known)
    (show ∀ u ∈ ([] : List Token), u.Ordinary by simp)
  refine written_comparison regular placed ("IS " ++ (if negated then "NOT " else "") ++ value) rfl rfl rfl ?_
    (by simpa using spelled) (extends_isValue known pos operand' negated) (by simp [Expr.bare]) ⟨"IS", _, rfl⟩
    (maybeNot_words false (by decide) words)
  intro p target unkeyed
  cases negated <;>
    simp [Printer.expr_isValue, placed.printed p target unkeyed, bind, Except.bind, pure,
      Except.pure, ← String.toList_inj]

/-- A list of members, its text and its tokens: those of the first member and those after it. -/
structure WrittenList (d : Dialect) (shown : List Expr) (first : Expr) (rest : List Expr) (texts : List String)
    (ts us : List Token) : Prop where
  printed : ∀ p : Printer, p.dialect = d → p.keyed = false → p.exprs shown = .ok texts
  nonempty : texts ≠ []
  spelled : Spells d.toLexicon (Printer.commas texts).toList (ts ++ us)
  reads : Reads d 1 0 first ts
  listed : Listed d rest us
  headed : Headed ts
  words : ∀ u ∈ ts ++ us, u.Ordinary

theorem written_list (regular : d.Regular) {shown read : Expr} {showns reads : List Expr}
    (each : List.Forall₂ (fun shown read => ∃ text ts, Written d shown read text ts)
      (shown :: showns) (read :: reads)) :
    ∃ texts ts us, WrittenList d (shown :: showns) read reads texts ts us := by
  obtain ⟨⟨text, ts, written⟩, others⟩ := List.forall₂_cons.mp each
  have whole := written.whole
  induction showns generalizing shown read reads text ts with
  | nil =>
    obtain rfl := List.forall₂_nil_left_iff.mp others
    refine ⟨[text], ts, [], ?_, by simp, ?_, whole, .nil, written.headed, by simpa using written.begins.words⟩
    · intro p target unkeyed
      simp [Printer.exprs_cons, Printer.exprs_nil, written.printed p target unkeyed, bind,
        Except.bind, pure, Except.pure]
    · simpa [Printer.commas] using written.spelled
  | cons second rest ih =>
    obtain ⟨nextRead, rest', ⟨nextText, nextTokens, next⟩, later, rfl⟩ := List.forall₂_cons_left_iff.mp others
    obtain ⟨texts, us, vs, list⟩ := ih others later nextText nextTokens next next.whole
    obtain ⟨head, tail, rfl⟩ := List.exists_cons_of_ne_nil list.nonempty
    refine ⟨text :: head :: tail, ts, punctuation "," :: (us ++ vs), ?_, by simp, ?_, whole,
      .cons list.reads list.listed, written.headed, ?_⟩
    · intro p target unkeyed
      have printed := list.printed p target unkeyed
      rw [Printer.exprs_cons, written.printed p target unkeyed, printed]
      rfl
    · have spelled := written.spelled.comma regular.lexicon list.spelled
      simpa [Printer.commas, String.intercalate_cons_cons] using spelled
    · intro u member
      rw [List.mem_append, List.mem_cons] at member
      obtain earlier | rfl | later := member
      · exact written.begins.words u earlier
      · decide
      · exact list.words u later

theorem written_inList (regular : d.Regular) (pos : Position) (negated : Bool) {operand operand' first : Expr}
    {members rest : List Expr} {text : String} {texts : List String} {ts us vs : List Token}
    (written : Written d operand operand' text ts) (list : WrittenList d members first rest texts us vs) :
    ∃ text ws, Written d (.inList pos operand members negated)
    (.inList pos operand' (first :: rest) negated) text ws := by
  obtain ⟨ts, placed⟩ := written.placed regular above_comparison
  have spelled := spells_negatable regular negated ((spells_upper regular (w := "IN") (by decide)).spaced
    regular.lexicon (list.spelled.paren regular.lexicon))
  have words : ∀ u ∈ punctuation "(" :: (us ++ vs ++ [punctuation ")"]), u.Ordinary := by
    intro u member
    rw [List.mem_cons, List.mem_append, List.mem_singleton] at member
    obtain rfl | inside | rfl := member
    · decide
    · exact list.words u inside
    · decide
  refine written_comparison regular placed
    ((if negated then "NOT " else "") ++ "IN (" ++ Printer.commas texts ++ ")") rfl rfl rfl ?_ (by simpa using spelled)
    (list.reads.inList list.listed list.headed pos operand' negated) (by simp [Expr.bare]) (maybeNot_first negated _ _)
    (maybeNot_words negated (by decide) words)
  intro p target unkeyed
  cases negated <;>
    simp [Printer.expr_inList, placed.printed p target unkeyed, list.printed p target unkeyed, bind, Except.bind, pure,
      Except.pure, ← String.toList_inj]

/-! ### Whole trees -/

/-- Every tree of the operator language has a text and tokens, if the dialect keeps its operators. -/
theorem OperatorTree.written (regular : d.Regular) (kept : ∀ op ∈ ops, d.Keeps op) {e : Expr}
    (tree : OperatorTree ops d e) : ∃ text ts, Written d e e text ts := by
  induction tree with
  | column pos plain => exact ⟨_, _, written_column regular plain pos⟩
  | number pos number => exact ⟨_, _, written_number regular number pos⟩
  | string pos value => exact ⟨_, _, written_string regular value pos⟩
  | binary pos known _ _ first second =>
    obtain ⟨_, _, first⟩ := first
    obtain ⟨_, _, second⟩ := second
    exact written_binary regular (kept _ known) pos first second
  | negation pos _ written =>
    obtain ⟨_, _, written⟩ := written
    exact written_negation regular pos written
  | minus pos _ written =>
    obtain ⟨_, _, written⟩ := written
    exact written_minus regular pos written
  | between pos negated _ _ _ written least most =>
    obtain ⟨_, _, written⟩ := written
    obtain ⟨_, _, least⟩ := least
    obtain ⟨_, _, most⟩ := most
    exact written_between regular (regular.ansi "AND" (by decide)) pos negated written least most
  | inList pos negated _ nonempty _ written members =>
    obtain ⟨_, _, written⟩ := written
    obtain ⟨first, rest, rfl⟩ := List.exists_cons_of_ne_nil nonempty
    obtain ⟨_, _, _, list⟩ := written_list regular (List.forall₂_same.mpr members)
    exact written_inList regular pos negated written list
  | isValue pos negated _ known written =>
    obtain ⟨_, _, written⟩ := written
    exact written_isValue regular pos negated written known

theorem Parser.Reads.value {low high : Nat} {e : Expr} {ts : List Token}
    (reads : Reads d low high e ts) (some : 0 < low)
    {c : Cursor} (shown : c.Shows (ts ++ [finish])) :
    ∃ read next, (grammarFor d c).value c = .ok (read, next) ∧ next.current.isFinish = true ∧ read.bare = e.bare := by
  have continues : Continues d [finish] :=
    ⟨finish, [], rfl, by decide, by decide, by decide, Bool.and_eq_false_iff.mpr (.inr (by decide))⟩
  have binds : tailPrec d [finish] = 0 := rfl
  have enough : ts.length ≤ c.bound := by
    rw [shown.bound_eq, List.length_append]
    omega
  obtain ⟨read, next, done, left, same⟩ :=
    reads.ends c.bound enough some continues (by omega) (Nat.le_of_eq binds) shown
  exact ⟨read, next, done, by rw [← isFinish_bare, left.current]; rfl, same⟩

theorem Written.value {e' e : Expr} {text : String} {ts : List Token} (written : Written d e' e text ts) {c : Cursor}
    (shown : c.Shows (ts ++ [finish])) :
    ∃ read next, (grammarFor d c).value c = .ok (read, next) ∧ next.current.isFinish = true ∧ read.bare = e.bare :=
  written.reads.value written.leveled.positive shown

theorem Written.parse {e' e : Expr} {text : String} {ts : List Token} (written : Written d e' e text ts) :
    ∃ read, Expr.parse d text = .ok read ∧ read.bare = e.bare := by
  obtain ⟨c, loaded, shown⟩ := written.spelled.cursor
  obtain ⟨read, next, parsed, ended, same⟩ := written.value shown
  refine ⟨read, ?_, same⟩
  simp only [Expr.parse, run_eq loaded, wholeExpression, bind_apply, parsed, ok_bind, atEnd_apply, ended, Bool.not_true,
    Bool.false_eq_true, if_false, pure_apply, Except.map]

/-! ### The registered dialects -/

theorem registered_regular {entry : Entry} (member : entry ∈ Registry.standard.entries) : entry.dialect.Regular := by
  obtain ⟨profile, known, rfl⟩ := List.mem_map.mp member
  clear member
  change profile.dialect.Regular
  revert profile
  decide +kernel

/-- What is printed of a tree of the common operator language is read back as the same tree, in
every registered dialect. -/
theorem operator_tree_read_back {entry : Entry} (member : entry ∈ Registry.standard.entries) {e : Expr}
    (tree : OperatorTree ansiOperators entry.dialect e) :
    ∃ text read, ({ dialect := entry.dialect } : Printer).expr e = .ok text ∧
      Expr.parse entry.dialect text = .ok read ∧ read.bare = e.bare := by
  have regular := registered_regular member
  obtain ⟨text, ts, written⟩ := tree.written regular regular.ansi
  obtain ⟨read, parsed, same⟩ := written.parse
  exact ⟨text, read, written.printed _ rfl rfl, parsed, same⟩

/-- A sign before a sign, `NOT` over a disjunction and a difference on the right of another. -/
theorem nested_tree_read_back : ∃ e text read,
    e = .unary {} "NOT" (.binary {} "OR" (.binary {} "=" (.unary {} "-" (.unary {} "-" (.col "price"))) (.num "1"))
      (.between {} (.binary {} "-" (.num "1") (.binary {} "-" (.num "2") (.col "price")))
        (.str "it's") (.num "3") true)) ∧
    OperatorTree ansiOperators MySql.profile.dialect e ∧
    ({ dialect := MySql.profile.dialect } : Printer).expr e = .ok text ∧
    Expr.parse MySql.profile.dialect text = .ok read ∧ read.bare = e.bare := by
  have upper : Text.upper "price" = "PRICE" := Text.upper_eq (by decide)
  have plain : PlainWord MySql.profile.dialect "price" :=
    ⟨⟨'p', _, rfl, by decide, by decide⟩, by rw [upper]; decide, by rw [upper]; decide⟩
  have price : OperatorTree ansiOperators MySql.profile.dialect (.col "price") := .column {} plain
  have digit (value : String) (known : value ∈ ["1", "2", "3"]) :
      OperatorTree ansiOperators MySql.profile.dialect (.num value) := by
    apply OperatorTree.number
    simp only [List.mem_cons, List.not_mem_nil, or_false] at known
    obtain rfl | rfl | rfl := known <;> exact ⟨⟨_, _, rfl, .inl (by decide)⟩, by decide⟩
  have one := digit "1" (by decide)
  have tree := OperatorTree.negation {} (.binary {} (show "OR" ∈ ansiOperators by decide)
    (.binary {} (show "=" ∈ ansiOperators by decide) (.minus {} (.minus {} price)) one)
    (.between {} true (.binary {} (show "-" ∈ ansiOperators by decide) one
      (.binary {} (show "-" ∈ ansiOperators by decide)
      (digit "2" (by decide)) price)) (.string {} "it's") (digit "3" (by decide))))
  obtain ⟨text, read, printed, parsed, same⟩ :=
    @operator_tree_read_back (Entry.ofProfile MySql.profile) (by simp [Registry.standard]) _ tree
  exact ⟨_, text, read, rfl, tree, printed, parsed, same⟩

end SqlDialects
