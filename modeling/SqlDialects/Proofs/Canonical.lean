import SqlDialects.Proofs.Reprinting
import SqlDialects.Proofs.RoundTrip

/-! Canonical texts of expression statements. Printing a statement and reading it back changes no
more than places, so the second text is the first one. Two things stand against it: an operator that
the dialect reads at another level than it is printed at, and two parentheses at the beginning, which
announce a query. -/

namespace SqlDialects

open Token SqlDialects.Parser Cursor

variable {d : Dialect} {ops : List String}

/-! ### Trees read elsewhere -/

private theorem nonempty_of_bare {members others : List Expr} (nonempty : members ≠ [])
    (same : bareExprs others = bareExprs members) : others ≠ [] := by
  rintro rfl
  cases members with
  | nil => exact nonempty rfl
  | cons member rest => simp [bareExprs] at same

private theorem members_of_bare {members others : List Expr}
    (each : ∀ member ∈ members, ∀ {other : Expr}, other.bare = member.bare → OperatorTree ops d other)
    (same : bareExprs others = bareExprs members) : ∀ other ∈ others, OperatorTree ops d other := by
  induction members generalizing others with
  | nil =>
    cases others with
    | nil => simp
    | cons other rest => simp [bareExprs] at same
  | cons member members ih =>
    cases others with
    | nil => simp
    | cons other rest =>
      simp only [bareExprs, List.cons.injEq] at same
      intro inner inside
      obtain rfl | later := List.mem_cons.mp inside
      · exact each member (by simp) same.1
      · exact ih (fun outer outside => each outer (List.mem_cons_of_mem _ outside)) same.2 inner later

/-- A tree stays one of the operator language wherever it is read. -/
theorem OperatorTree.of_bare {e : Expr} (tree : OperatorTree ops d e) {other : Expr} (same : other.bare = e.bare) :
    OperatorTree ops d other := by
  induction tree generalizing other with
  | column _ plain =>
    cases other <;> simp [Expr.bare] at same
    rw [same]
    exact .column _ plain
  | number _ isNumber =>
    cases other <;> simp [Expr.bare] at same
    obtain ⟨rfl, rfl⟩ := same
    exact .number _ isNumber
  | string =>
    cases other <;> simp [Expr.bare] at same
    obtain ⟨rfl, rfl⟩ := same
    exact .string _ _
  | binary _ known _ _ first second =>
    cases other <;> simp [Expr.bare] at same
    obtain ⟨rfl, left, right⟩ := same
    exact .binary _ known (first left) (second right)
  | negation _ _ inner =>
    cases other <;> simp [Expr.bare] at same
    obtain ⟨rfl, operand⟩ := same
    exact .negation _ (inner operand)
  | minus _ _ inner =>
    cases other <;> simp [Expr.bare] at same
    obtain ⟨rfl, operand⟩ := same
    exact .minus _ (inner operand)
  | between _ _ _ _ _ inner least most =>
    cases other <;> simp [Expr.bare] at same
    obtain ⟨operand, low, high, rfl⟩ := same
    exact .between _ _ (inner operand) (least low) (most high)
  | inList _ _ _ nonempty _ inner each =>
    cases other <;> simp [Expr.bare] at same
    obtain ⟨operand, members, rfl⟩ := same
    exact .inList _ _ (inner operand) (nonempty_of_bare nonempty members) (members_of_bare each members)
  | isValue _ _ _ known inner =>
    cases other <;> simp [Expr.bare] at same
    obtain ⟨operand, rfl, rfl⟩ := same
    exact .isValue _ _ (inner operand) known

/-! ### Expression statements -/

/-- A query fails where neither its words nor a query in parentheses stand. -/
private theorem queryStep_error {g : Grammar} {c : Cursor} (absent : ∀ t ∈ c.current :: c.rest, t.Ordinary)
    (inner : ∃ fault, g.query c.advance = .error fault) : ∃ fault, queryStep d g c = .error fault := by
  obtain ⟨fault, failed⟩ := inner
  have noWith : accept "WITH" c = .ok (false, c) := by
    simp [accept_apply, absent c.current (by simp) "WITH" (by decide)]
  have noSelect := absent c.current (by simp) "SELECT" (by decide)
  obtain ⟨fault, term⟩ : ∃ fault, queryTerm d g c = .error fault := by
    cases isOpen : c.current.isOp "(" with
    | true => exact ⟨fault, by simp [queryTerm, bind_apply, acceptOp_apply, isOpen, ok_bind, failed, error_bind]⟩
    | false =>
      obtain ⟨fault, missing⟩ : ∃ fault, expect "SELECT" c = .error fault := by
        rw [expect_apply, noSelect]
        exact ⟨_, rfl⟩
      exact ⟨fault, by simp [queryTerm, selectStep, bind_apply, map_apply, acceptOp_apply, isOpen,
        ok_bind, position_apply,
        missing, error_bind]⟩
  exact ⟨fault, by simp [queryStep, withClause, bind_apply, noWith, ok_bind, pure_apply, term, error_bind]⟩

private theorem rest_advance {c : Cursor} {p : Token → Prop} (each : ∀ t ∈ c.current :: c.rest, p t) :
    ∀ t ∈ c.advance.current :: c.advance.rest, p t := by
  cases left : c.rest with
  | nil => simpa [Cursor.advance, left] using each
  | cons next more =>
    intro t member
    exact each t (List.mem_cons_of_mem _ (by simpa [Cursor.advance, left] using member))

private theorem current_advance (c : Cursor) : c.advance.current = c.peek := by
  cases left : c.rest with
  | nil => simp [Cursor.advance, Cursor.peek, Cursor.ahead, left]
  | cons next more => simp [Cursor.advance, Cursor.peek, Cursor.ahead, left]

theorem isOp_finish {t : Token} (finished : t.isFinish = true) (op : String) : t.isOp op = false := by
  have kind : t.kind = .finish := by simpa [isFinish] using finished
  simp [isOp, kind]

/-- There is no query without a word that starts one. -/
private theorem queryStep_fails (depth : Nat) {c : Cursor} (absent : ∀ t ∈ c.current :: c.rest, t.Ordinary) :
    ∃ fault, queryStep d (grammar d depth) c = .error fault := by
  induction depth generalizing c with
  | zero => exact queryStep_error absent ⟨_, rfl⟩
  | succ depth ih => exact queryStep_error absent (ih (rest_advance absent))

/-- The text begins with two parentheses. -/
def OpensTwice (text : String) : Prop := "((".toList <+: text.toList

instance (text : String) : Decidable (OpensTwice text) := inferInstanceAs (Decidable (_ <+: _))

theorem opensTwice_iff {text : String} {ts : List Token} (begins : Begins text.toList ts) :
    OpensTwice text ↔ 2 ≤ (ts.takeWhile (·.isOp "(")).length := by
  rw [OpensTwice, ← begins.opens]
  match text.toList with
  | [] => simp
  | [c] => by_cases first : c = '(' <;> simp [first]
  | c :: d :: rest =>
    by_cases first : c = '('
    · by_cases second : d = '('
      · simp [first, second]
      · simp [first, second, Ne.symm second]
    · simp [first, Ne.symm first]

private theorem ordinary_shown {ts : List Token} (words : ∀ t ∈ ts, t.Ordinary) {c : Cursor}
    (shown : c.Shows (ts ++ [finish])) : ∀ t ∈ c.current :: c.rest, t.Ordinary := by
  refine shown.forall (fun t held => held) ?_
  intro t member
  obtain inside | last := List.mem_append.mp member
  · exact words t inside
  · rw [List.mem_singleton.mp last]
    decide

/-- Two parentheses announce a query. -/
theorem Written.statement_opens {e' e : Expr} {text : String} {ts : List Token} (written : Written d e' e text ts)
    (opens : OpensTwice text) : ∃ fault, Statement.parse d text = .error fault := by
  obtain ⟨c, loaded, shown⟩ := written.spelled.cursor
  have ordinary := ordinary_shown written.begins.words shown
  obtain ⟨fault, failed⟩ := queryStep_fails (d := d) c.bound ordinary
  have twice := (opensTwice_iff written.begins).mp opens
  obtain ⟨first, second, rest, rfl, isFirst, isSecond⟩ : ∃ first second rest, ts = first :: second :: rest ∧
      first.isOp "(" = true ∧ second.isOp "(" = true := by
    match ts with
    | [] => simp at twice
    | [t] => by_cases isOpen : t.isOp "(" <;> simp [isOpen] at twice
    | t :: u :: rest =>
      by_cases isFirst : t.isOp "("
      · by_cases isSecond : u.isOp "("
        · exact ⟨t, u, rest, rfl, isFirst, isSecond⟩
        · simp [isFirst, isSecond] at twice
      · simp [isFirst] at twice
  have isOpen : c.current.isOp "(" = true := by rw [← isOp_bare, shown.current, isFirst]
  have isOpenNext : c.peek.isOp "(" = true := by rw [← isOp_bare, shown.peek, isSecond]
  have is (w : String) (member : w ∈ statementWords) : c.current.is w = false := ordinary c.current (by simp) w member
  have query : (grammarFor d c).query c = .error fault := failed
  refine ⟨fault, ?_⟩
  simp [Statement.parse, run_eq loaded, oneStatement, statement, plainStatement, bind_apply, map_apply, curIs_apply,
    ok_bind, is "DROP" (by decide), is "EXPLAIN" (by decide), is "SELECT" (by decide), is "WITH" (by decide), get_apply,
    isOpen, isOpenNext, query, error_bind, Except.map]

private theorem started {c next : Cursor} {read : Expr} (parsed : (grammarFor d c).value c = .ok (read, next)) :
    c.current.isFinish = false := by
  cases finished : c.current.isFinish with
  | false => rfl
  | true =>
    have kind : c.current.kind = .finish := by simpa [isFinish] using finished
    obtain ⟨fault, failed⟩ : ∃ fault, operandStep d (grammar d c.bound) c = .error fault := by
      simp only [operandStep, bind_apply, current_apply, ok_bind, kind, isOp_finish finished, Bool.false_eq_true,
        if_false]
      exact ⟨_, rfl⟩
    have value : (grammarFor d c).value c = .error fault := by
      change exprStep d (grammar d c.bound) 0 c = _
      rw [exprStep, bind_apply, failed, error_bind]
    rw [value] at parsed
    cases parsed

/-- What the first two tokens are not is not found at the start. -/
private theorem leading_ordinary {ts : List Token} (words : ∀ t ∈ ts.take 2, t.Ordinary) {c : Cursor}
    (shown : c.Shows (ts ++ [finish])) : c.current.Ordinary ∧ c.peek.Ordinary := by
  have blind (t : Token) (held : t.bare.Ordinary) : t.Ordinary := held
  have last : finish.Ordinary := by decide
  match ts, words, shown with
  | [], _, shown =>
    have first : c.current.Ordinary := blind _ (by rwa [shown.current])
    have left : c.rest = [] := by simpa using (List.cons.inj shown).2
    rw [← current_advance, Cursor.advance, left]
    exact ⟨first, first⟩
  | [t], words, shown =>
    exact ⟨blind _ (by rw [shown.current]; exact words t (by simp)), blind _ (by rwa [shown.peek])⟩
  | t :: u :: _, words, shown =>
    exact ⟨blind _ (by rw [shown.current]; exact words t (by simp)),
      blind _ (by rw [shown.peek]; exact words u (by simp))⟩

/-- A text is an expression statement if its tokens are read as an expression up to the end and the first two announce
no other statement. -/
theorem statement_of_value {e : Expr} {text : String} {ts : List Token} (spelled : Spells d.toLexicon text.toList ts)
    (words : ∀ t ∈ ts.take 2, t.Ordinary) (single : (ts.takeWhile (·.isOp "(")).length < 2)
    (values : ∀ c : Cursor, c.Shows (ts ++ [finish]) → ∃ read next, (grammarFor d c).value c = .ok (read, next) ∧
      next.current.isFinish = true ∧ read.bare = e.bare) :
    ∃ pos read, Statement.parse d text = .ok (.expression pos read) ∧ read.bare = e.bare := by
  obtain ⟨c, loaded, shown⟩ := spelled.cursor
  obtain ⟨is, nextIs⟩ := leading_ordinary words shown
  obtain ⟨read, next, parsed, ended, same⟩ := values c shown
  have noQuery : (c.current.isOp "(" && (c.peek.is "SELECT" || c.peek.is "WITH" || c.peek.isOp "(")) = false := by
    rw [nextIs "SELECT" (by decide), nextIs "WITH" (by decide), Bool.false_or, Bool.false_or, Bool.and_eq_false_iff]
    match ts, shown, single with
    | [], shown, _ => exact .inl (by rw [← isOp_bare, shown.current]; rfl)
    | [t], shown, _ => exact .inr (by rw [← isOp_bare, shown.peek]; rfl)
    | t :: u :: rest, shown, single =>
      rw [← isOp_bare (t := c.current), shown.current, ← isOp_bare (t := c.peek), shown.peek]
      cases first : t.isOp "(" with
      | false => exact .inl rfl
      | true =>
        refine .inr ?_
        cases second : u.isOp "(" with
        | false => rfl
        | true =>
          simp only [List.takeWhile_cons, first, second, if_true, List.length_cons] at single
          omega
  have value : expectingStatement (grammarFor d c).value c = .ok (read, next) := by rw [expectingStatement, parsed]
  have expression : expressionStatement (grammarFor d c) c = .ok (.expression c.current.pos read, next) := by
    simp only [expressionStatement, bind_apply, current_apply, ok_bind, started parsed, Bool.false_eq_true, if_false,
      pure_apply, value, ended, Bool.true_or, if_true]
  have noSemicolon : acceptOp ";" next = .ok (false, next) := by
    rw [acceptOp_apply, isOp_finish ended]
    rfl
  refine ⟨c.current.pos, read, ?_, same⟩
  simp only [Statement.parse, run_eq loaded, oneStatement, statement, plainStatement, bind_apply, curIs_apply, ok_bind,
    is "DROP" (by decide), is "EXPLAIN" (by decide), is "SELECT" (by decide), is "WITH" (by decide),
    is "INSERT" (by decide), is "CREATE" (by decide), get_apply, noQuery, expression, noSemicolon, Bool.or_self,
    Bool.false_eq_true, if_false, pure_apply, atEnd_apply, ended, Bool.not_true, Except.map]

theorem Written.statement_reads {e' e : Expr} {text : String} {ts : List Token} (written : Written d e' e text ts)
    (plain : ¬OpensTwice text) :
    ∃ pos read, Statement.parse d text = .ok (.expression pos read) ∧ read.bare = e.bare := by
  rw [opensTwice_iff written.begins, Nat.not_le] at plain
  exact statement_of_value written.spelled (fun t member => written.begins.words t (List.mem_of_mem_take member)) plain
    fun c shown => written.value shown

/-- The canonical text of a statement. -/
def Dialect.canonical (d : Dialect) (sql : String) : Except Error String := do
  let read ← Statement.parse d sql
  ({ dialect := d } : Printer).statement read

/-- A statement that is an expression with operators the dialect keeps has a canonical text. It is
its own canonical text unless it begins with two parentheses. -/
theorem expression_canonical_iff {entry : Entry} (member : entry ∈ Registry.standard.entries) {sql : String}
    {pos : Position} {e : Expr} (parsed : Statement.parse entry.dialect sql = .ok (.expression pos e))
    (kept : ∀ op ∈ ops, entry.dialect.Keeps op) (tree : OperatorTree ops entry.dialect e) :
    ∃ text, entry.dialect.canonical sql = .ok text ∧
      (entry.dialect.canonical text = .ok text ↔ ¬OpensTwice text) := by
  obtain ⟨text, ts, written⟩ := tree.written (registered_regular member) kept
  have printed := written.printed { dialect := entry.dialect } rfl rfl
  refine ⟨text, ?_, ?_, ?_⟩
  · rw [Dialect.canonical, parsed]
    exact printed
  · intro canonical opens
    obtain ⟨fault, failed⟩ := written.statement_opens opens
    rw [Dialect.canonical, failed] at canonical
    cases canonical
  · intro plain
    obtain ⟨place, read, again, same⟩ := written.statement_reads plain
    rw [Dialect.canonical, again]
    exact Printer.ok_of_same (Printer.expr_of_bare same) printed

theorem OperatorTree.parse_printed {entry : Entry} (member : entry ∈ Registry.standard.entries) {e : Expr}
    (kept : ∀ op ∈ ops, entry.dialect.Keeps op) (tree : OperatorTree ops entry.dialect e) {text : String}
    (printed : (({ dialect := entry.dialect } : Printer).expr e).toOption = some text) (plain : ¬OpensTwice text) :
    ∃ pos read, Statement.parse entry.dialect text = .ok (.expression pos read) ∧ read.bare = e.bare := by
  obtain ⟨own, ts, written⟩ := tree.written (registered_regular member) kept
  rw [written.printed _ rfl rfl] at printed
  obtain rfl : own = text := Option.some.inj printed
  exact written.statement_reads plain

/-- A conjunction with a disjunction on its left is its own canonical text. -/
theorem conjunction_canonical : ∃ text, MySql.profile.dialect.canonical "(a OR b) AND NOT c" = .ok text ∧
    (MySql.profile.dialect.canonical text = .ok text ↔ ¬OpensTwice text) := by
  have member : Entry.ofProfile MySql.profile ∈ Registry.standard.entries := by simp [Registry.standard]
  have kept := (registered_regular member).ansi
  have column (name : String) (known : name ∈ ["a", "b", "c"]) :
      OperatorTree ansiOperators MySql.profile.dialect (.col name) := by
    refine .column {} ?_
    simp only [List.mem_cons, List.not_mem_nil, or_false] at known
    obtain rfl | rfl | rfl := known <;> exact ⟨⟨_, _, rfl, by decide, by decide⟩, by decide +kernel, by decide +kernel⟩
  have tree := OperatorTree.binary {} (show "AND" ∈ ansiOperators by decide)
    (.binary {} (show "OR" ∈ ansiOperators by decide) (column "a" (by decide)) (column "b" (by decide)))
    (.negation {} (column "c" (by decide)))
  obtain ⟨pos, read, parsed, same⟩ := tree.parse_printed member kept
    (show _ = some "(a OR b) AND NOT c" by decide +kernel) (by decide +kernel)
  exact expression_canonical_iff member parsed kept (tree.of_bare same)

/-- `XOR` is printed above the level it is read at: the text of a conjunction is that of another
tree. -/
theorem xor_text_not_canonical :
    (MySql.profile.dialect.canonical "(a XOR b) AND c").toOption = some "a XOR b AND c" ∧
      (MySql.profile.dialect.canonical "a XOR b AND c").toOption = some "a XOR (b AND c)" := by
  decide +kernel

end SqlDialects
