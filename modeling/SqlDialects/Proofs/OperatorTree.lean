import SqlDialects.Printer.Expr
import SqlDialects.Proofs.Reader
import SqlDialects.Proofs.Spelling

/-! The operator language: columns, numbers and strings under operators, `NOT`, `BETWEEN`, `IN` and
`IS`, and the tokens that stand between its operands. -/

namespace SqlDialects

/-- Operators between two operands that every dialect has. -/
def ansiOperators : List String :=
  ["OR", "AND", "LIKE", "=", "<>", "<", "<=", ">", ">=", "+", "-", "*", "/", "%"]

/-- A name that is an identifier by itself: no keyword and no call without parentheses. -/
structure PlainWord (d : Dialect) (name : String) : Prop where
  shape : ∃ c cs, name.toList = c :: cs ∧ isIdentStart c ∧ cs.all isIdentChar
  keyword : d.isKeyword (Text.upper name) = false
  niladic : d.niladic.find? (Text.upper name) = none

/-- Words that start a statement. -/
def statementWords : List String := ["SELECT", "WITH", "INSERT", "CREATE", "DROP", "EXPLAIN"]

/-- Trees of the operator language over the given operators. -/
inductive OperatorTree (ops : List String) (d : Dialect) : Expr → Prop
  | column {name : String} (pos : Position) (plain : PlainWord d name) :
    OperatorTree ops d (.column pos [⟨name, false⟩])
  | number {value : String} (pos : Position) (number : Token.IsNumber value) :
    OperatorTree ops d (.literal pos .number value)
  | string (pos : Position) (value : String) : OperatorTree ops d (.literal pos .string value)
  | binary {op : String} {left right : Expr} (pos : Position) (known : op ∈ ops)
    (first : OperatorTree ops d left) (second : OperatorTree ops d right) :
    OperatorTree ops d (.binary pos op left right)
  | negation {operand : Expr} (pos : Position) (inner : OperatorTree ops d operand) :
    OperatorTree ops d (.unary pos "NOT" operand)
  | minus {operand : Expr} (pos : Position) (inner : OperatorTree ops d operand) :
    OperatorTree ops d (.unary pos "-" operand)
  | between {operand low high : Expr} (pos : Position) (negated : Bool)
    (inner : OperatorTree ops d operand) (least : OperatorTree ops d low)
    (most : OperatorTree ops d high) :
    OperatorTree ops d (.between pos operand low high negated)
  | inList {operand : Expr} {members : List Expr} (pos : Position) (negated : Bool)
    (inner : OperatorTree ops d operand) (nonempty : members ≠ [])
    (each : ∀ member ∈ members, OperatorTree ops d member) :
    OperatorTree ops d (.inList pos operand members negated)
  | isValue {operand : Expr} {value : String} (pos : Position) (negated : Bool)
    (inner : OperatorTree ops d operand) (known : value ∈ ["NULL", "TRUE", "FALSE"]) :
    OperatorTree ops d (.isValue pos operand negated value)

/-- The dialect reads the operator as the printer writes it: as itself and at the same level. -/
def Dialect.Keeps (d : Dialect) (op : String) : Prop :=
  d.infixOps.find? op = some { prec := binaryPrec op, op }

/-- Texts that are read as one token between two operands and start no other construct there: words,
operators of several characters and single ones. -/
def Lexicon.Writes (lexicon : Lexicon) (op : String) : Prop :=
  op ∉ ["NOT", "IS", "IN", "BETWEEN", "GLOBAL"] ++ statementWords ++ [".", "(", "[", "->", "::", ",", ")"] ∧
    (op.toList.head?.any isIdentStart ∧ op.toList.tail.all isIdentChar ∧
        op.toList.map Text.upperChar = op.toList ∨
      op.toList.head?.any (fun c => c ∉ ['#', '-', '/']) ∧
        op ∈ Lexicon.baseOperators ++ lexicon.operators ∨
      op.toList.head?.any (fun c => c ∈ Token.singleOperators && c ∉ ['#', ':']) ∧
        op.toList.tail = [])

instance (lexicon : Lexicon) (op : String) : Decidable (lexicon.Writes op) := inferInstanceAs (Decidable (_ ∧ _))

instance (d : Dialect) (op : String) : Decidable (d.Keeps op) := inferInstanceAs (Decidable (_ = _))

/-- What every registered dialect keeps of the common ground. -/
structure Dialect.Regular (d : Dialect) : Prop where
  lexicon : d.toLexicon.Regular
  ansi : ∀ op ∈ ansiOperators, d.Keeps op
  operators : ∀ entry ∈ d.infixOps.entries, d.Keeps entry.1 → d.toLexicon.Writes entry.1
  keywords : ∀ w ∈ ["NULL", "TRUE", "FALSE", "NOT", "CASE", "INTERVAL"] ++ statementWords, d.isKeyword w = true

instance (d : Dialect) : Decidable d.Regular :=
  decidable_of_iff (d.toLexicon.Regular ∧ (∀ op ∈ ansiOperators, d.Keeps op) ∧
      (∀ entry ∈ d.infixOps.entries, d.Keeps entry.1 → d.toLexicon.Writes entry.1) ∧
      ∀ w ∈ ["NULL", "TRUE", "FALSE", "NOT", "CASE", "INTERVAL"] ++ statementWords, d.isKeyword w = true)
    ⟨fun ⟨lexicon, ansi, operators, keywords⟩ => ⟨lexicon, ansi, operators, keywords⟩,
      fun regular => ⟨regular.lexicon, regular.ansi, regular.operators, regular.keywords⟩⟩

theorem Dialect.Regular.writes {d : Dialect} (regular : d.Regular) {op : String} (keeps : d.Keeps op) :
    d.toLexicon.Writes op := by
  obtain ⟨before, after, split, _⟩ := List.lookup_eq_some_iff.mp keeps
  exact regular.operators (op, { prec := binaryPrec op, op }) (by simp [split]) keeps

theorem Text.upper_eq {s u : String} (mapped : s.toList.map Text.upperChar = u.toList) : Text.upper s = u := by
  rw [Text.upper, ← String.toList_inj, String.toList_map, mapped]

namespace Token

/-- The token starts no statement. -/
def Ordinary (t : Token) : Prop := ∀ w ∈ statementWords, t.is w = false

instance (t : Token) : Decidable t.Ordinary := inferInstanceAs (Decidable (∀ w ∈ statementWords, t.is w = false))

/-- A token between two operands that starts no other construct there. -/
structure Joins (d : Dialect) (op : String) (t : Token) : Prop where
  read : Parser.infixOp? d t = d.infixOps.find? op
  kind : t.kind = .operator ∨ t.isWord
  words : ∀ w ∈ ["NOT", "IS", "IN", "BETWEEN", "GLOBAL"] ++ statementWords, t.is w = false
  marks : ∀ mark ∈ [".", "(", "[", "->", "::", ",", ")"], t.isOp mark = false

variable {d : Dialect}

@[simp] theorem isWord_word (lexicon : Lexicon) (text : String) : (word lexicon text).isWord = true := by
  unfold isWord word
  split <;> rfl

@[simp] theorem upper_word (lexicon : Lexicon) (text : String) : (word lexicon text).upper = Text.upper text := rfl

theorem isOp_word (lexicon : Lexicon) (text mark : String) : (word lexicon text).isOp mark = false := by
  unfold isOp word
  split <;> rfl

theorem is_word (lexicon : Lexicon) (text w : String) : (word lexicon text).is w = (Text.upper text == w) := by
  simp [is]

theorem kind_word (lexicon : Lexicon) (text : String) : (word lexicon text).kind ≠ .operator := by
  unfold word
  split <;> simp_all

theorem spells_operator (regular : d.toLexicon.Regular) {op : String} (writes : d.toLexicon.Writes op) :
    ∃ t, Spells d.toLexicon op.toList [t] ∧ Joins d op t := by
  obtain ⟨ordinary, kinds⟩ := writes
  obtain ⟨c, cs, shape⟩ : ∃ c cs, op.toList = c :: cs := by
    match shape : op.toList with
    | [] => simp [shape] at kinds
    | c :: cs => exact ⟨c, cs, rfl⟩
  rw [shape] at kinds
  simp only [List.head?_cons, Option.any_some, List.tail_cons] at kinds
  obtain ⟨starts, all, upper⟩ | isLong | isSingle := kinds
  · rw [← shape] at upper
    refine ⟨word d.toLexicon op, spells_word regular shape starts all, ?_, .inr (isWord_word ..), ?_, ?_⟩
    · rw [Parser.infixOp?, if_neg (kind_word d.toLexicon op), if_pos (isWord_word ..), upper_word, Text.upper_eq upper]
    · intro w member
      rw [is_word, Text.upper_eq upper, beq_eq_false_iff_ne]
      rintro rfl
      exact ordinary (List.mem_append_left [".", "(", "[", "->", "::", ",", ")"] member)
    · intro mark _
      exact isOp_word ..
  all_goals
    have joins : Joins d op (operator op) := by
      refine ⟨rfl, .inl rfl, fun w _ => rfl, ?_⟩
      intro mark member
      have different : op ≠ mark := by
        rintro rfl
        exact ordinary (List.mem_append_right (["NOT", "IS", "IN", "BETWEEN", "GLOBAL"] ++ statementWords) member)
      simpa [isOp, operator] using different
  · obtain ⟨noHash, noDash, noSlash⟩ : c ≠ '#' ∧ c ≠ '-' ∧ c ≠ '/' := by simpa using isLong.1
    refine ⟨operator op, spells_long regular shape noHash ?_ ?_ isLong.2, joins⟩
    · intro dash
      exact absurd dash noDash
    · intro slash
      exact absurd slash noSlash
  · obtain ⟨single, rfl⟩ := isSingle
    rw [Bool.and_eq_true] at single
    exact ⟨operator op, spells_single regular shape (by simpa using single.1) (by simpa using single.2), joins⟩

end Token

end SqlDialects
