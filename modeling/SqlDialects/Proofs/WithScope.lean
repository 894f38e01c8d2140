import SqlDialects.Proofs.Canonical

/-! The scope of a leading `WITH`. The parser hands its entries to the first select of the query, and the printer puts a
select with entries in parentheses wherever it is an operand. So the entries reach a whole query only if the query is
that select. -/

namespace SqlDialects

open SqlDialects.Parser

/-- The select that the text of a query begins with. -/
def Query.leftmost : Query → Select
  | .select s => s
  | .setOp _ _ _ left _ _ _ => left.leftmost

/-- The operator after that select, if it is an operand. -/
def Query.firstOperator? : Query → Option String
  | .select _ => none
  | .setOp _ op _ left _ _ _ => some (left.firstOperator?.getD op)

/-! ### Reading -/

namespace Parser

variable {α : Type} {d : Dialect} {g : Grammar} {c c' : Cursor}

theorem commaList_nonempty {item : Parser α} {items : List α} (done : commaList item c = .ok (items, c')) :
    items ≠ [] := by
  obtain ⟨first, middle, _, rest⟩ := bind_eq_ok done
  obtain ⟨list, last, looped, finished⟩ := bind_eq_ok rest
  cases finished
  rw [loop_apply] at looped
  have kept (items more : List α) (c c' : Cursor) (_ : items ≠ [])
    (stepped : commaStep item items c = .ok (some more, c')) :
      more ≠ [] := by
    obtain ⟨comma, after, _, taken⟩ := bind_eq_ok stepped
    cases comma with
    | false => cases taken
    | true =>
      obtain ⟨item, end', _, added⟩ := bind_eq_ok taken
      cases added
      exact List.cons_ne_nil item items
  have nonempty : list ≠ [] := iterate_keeps kept (List.cons_ne_nil first []) looped
  simpa using nonempty

theorem withClause_nonempty {ctes : List Cte} (leads : c.current.is "WITH" = true)
    (done : withClause d g c = .ok (ctes, c')) : ctes ≠ [] := by
  obtain ⟨found, middle, accepted, rest⟩ := bind_eq_ok done
  rw [accept_apply, leads] at accepted
  cases accepted
  obtain ⟨recursive, start, _, listed⟩ := bind_eq_ok rest
  exact commaList_nonempty listed

theorem leftmost_addCtes (ctes : List Cte) (q : Query) :
    (addCtes ctes q).leftmost.ctes = ctes ++ q.leftmost.ctes := by
  induction q using Query.leftmost.induct with
  | case1 s => rfl
  | case2 pos op all left right orderBy limit ih => exact ih

/-- The entries of a leading `WITH` are found with the first select. -/
theorem queryStep_declares {q : Query} (leads : c.current.is "WITH" = true) (done : queryStep d g c = .ok (q, c')) :
    q.leftmost.ctes ≠ [] := by
  obtain ⟨ctes, start, declared, rest⟩ := bind_eq_ok done
  obtain ⟨first, afterFirst, _, rest⟩ := bind_eq_ok rest
  obtain ⟨body, afterTerms, _, rest⟩ := bind_eq_ok rest
  obtain ⟨tail, last, _, finished⟩ := bind_eq_ok rest
  cases finished
  rw [leftmost_addCtes]
  exact List.append_ne_nil_of_left_ne_nil (withClause_nonempty leads declared) _

end Parser

private theorem not_other {t : Token} (leads : t.is "WITH" = true) :
    ∀ w ∈ ["DROP", "EXPLAIN", "INSERT", "CREATE"], t.is w = false := by
  intro w known
  refine Token.is_unique leads ?_
  rintro rfl
  exact absurd known (by decide)

/-- A text that begins with `WITH` is a query whose first select has the entries. -/
theorem Statement.parse_declares {d : Dialect} {sql : String} {c : Cursor} {q : Query}
    (loaded : Cursor.ofText d.toLexicon sql = .ok c) (leads : c.current.is "WITH" = true)
    (parsed : Statement.parse d sql = .ok (.query q)) : q.leftmost.ctes ≠ [] := by
  obtain ⟨_, _, same, queried⟩ | ⟨other, _⟩ := Statement.parse_plain loaded (not_other leads) parsed
  · cases same
    exact queryStep_declares leads queried
  · simp [Cursor.startsQuery, leads] at other

/-! ### Printing -/

namespace Printer

variable {p : Printer}

/-- Only parentheses stand before the inner text, and the last of them closes before the operator. -/
def ClosesBefore (op inner text : String) : Prop :=
  ∃ opens : String, opens.toList.all (· == '(') ∧ (opens ++ "(" ++ inner ++ ") " ++ op).toList <+: text.toList

theorem ClosesBefore.opens {op inner text : String} (closes : ClosesBefore op inner text) :
    text.toList.head? = some '(' := by
  obtain ⟨opens, marks, rest, starts⟩ := closes
  rw [← starts]
  cases shape : opens.toList with
  | nil => simp [shape]
  | cons c cs =>
    rw [shape, List.all_cons, Bool.and_eq_true, beq_iff_eq] at marks
    simp [shape, marks.1]

theorem cteTexts_nonempty {ctes : List Cte} {entries : List String} (declared : ctes ≠ [])
    (printed : p.cteTexts ctes = .ok entries) : entries ≠ [] := by
  obtain ⟨⟨name, columns, body⟩, rest, rfl⟩ := List.exists_cons_of_ne_nil declared
  obtain ⟨first, _, printed⟩ := ok_of_bind printed
  obtain ⟨others, _, printed⟩ := ok_of_bind printed
  cases printed
  exact List.cons_ne_nil first others

theorem select_with {s : Select} {text : String} (declared : s.ctes ≠ []) (printed : p.select s = .ok text) :
    "WITH ".toList <+: text.toList := by
  obtain ⟨pos, ctes, distinct, items, source, views, condition, groupBy, having, orderBy, limit, offset⟩ := s
  obtain ⟨entries, entered, printed⟩ := ok_of_bind printed
  obtain ⟨itemTexts, _, printed⟩ := ok_of_bind printed
  obtain ⟨sourceText, _, printed⟩ := ok_of_bind printed
  obtain ⟨viewsText, _, printed⟩ := ok_of_bind printed
  obtain ⟨conditionText, _, printed⟩ := ok_of_bind printed
  obtain ⟨groups, _, printed⟩ := ok_of_bind printed
  obtain ⟨havingText, _, printed⟩ := ok_of_bind printed
  obtain ⟨order, _, printed⟩ := ok_of_bind printed
  have nonempty : entries.isEmpty = false := by simpa using cteTexts_nonempty declared entered
  simp only [nonempty, Bool.false_eq_true, if_false] at printed
  -- what follows the entries differs with the order of the last clauses only
  split at printed
  all_goals
    obtain ⟨first, _, printed⟩ := ok_of_bind printed
    obtain ⟨second, _, printed⟩ := ok_of_bind printed
    cases printed
    simp only [String.toList_append, List.append_assoc]
    exact List.prefix_append _ _

theorem setOp_starts {pos : Position} {op : String} {all : Bool} {left right : Query} {orderBy : List OrderItem}
    {limit : Option Expr} {text : String}
      (printed : p.queryText (.setOp pos op all left right orderBy limit) = .ok text) :
    ∃ leftText, p.queryText left = .ok leftText ∧
      (paren (left.needsParens false) leftText ++ " " ++ op).toList <+: text.toList := by
  obtain ⟨leftText, first, printed⟩ := ok_of_bind printed
  obtain ⟨rightText, _, printed⟩ := ok_of_bind printed
  obtain ⟨order, _, printed⟩ := ok_of_bind printed
  obtain ⟨limitText, _, printed⟩ := ok_of_bind printed
  cases printed
  refine ⟨leftText, first, ?_⟩
  simp only [String.toList_append, List.append_assoc, List.prefix_append_right_inj]
  exact List.prefix_append _ _

theorem queryText_encloses : ∀ {q : Query} {op text : String}, q.leftmost.ctes ≠ [] → q.firstOperator? = some op →
    p.queryText q = .ok text → ∃ inner, p.select q.leftmost = .ok inner ∧ ClosesBefore op inner text
  | .select _, _, _, _, operand, _ => nomatch operand
  | .setOp _ own _ (.select s) _ _ _, op, text, declared, operand, printed => by
    obtain ⟨inner, selected, starts⟩ := setOp_starts printed
    obtain rfl : own = op := Option.some.inj operand
    have wrapped : (Query.select s).needsParens false = true := by
      have nonempty : s.ctes.isEmpty = false := by simpa [Query.leftmost] using declared
      simp [Query.needsParens, nonempty]
    refine ⟨inner, selected, "", rfl, ?_⟩
    simpa [wrapped, paren] using starts
  | .setOp _ own _ (.setOp pos inner all left right orderBy limit) _ _ _, op, text, declared, operand, printed => by
    obtain ⟨leftText, leftPrinted, starts⟩ := setOp_starts printed
    obtain ⟨first, selected, opens, marks, inside⟩ :=
      queryText_encloses (q := .setOp pos inner all left right orderBy limit) declared operand leftPrinted
    refine ⟨first, selected, ?_⟩
    cases wrapped : (Query.setOp pos inner all left right orderBy limit).needsParens false with
    | true =>
      have whole : ("(" ++ leftText).toList <+: text.toList := by
        refine List.IsPrefix.trans ?_ starts
        simp [wrapped, paren]
      refine ⟨"(" ++ opens, by simpa using marks, List.IsPrefix.trans ?_ whole⟩
      simpa using inside
    | false =>
      have whole : leftText.toList <+: text.toList := by
        refine List.IsPrefix.trans ?_ starts
        simp [wrapped, paren]
      exact ⟨opens, marks, inside.trans whole⟩

end Printer

/-- A text that begins with `WITH` is printed with `WITH` at its head exactly if it is a single select. In a set
operation the entries are shut in with the first select before the operator that follows it. -/
theorem leading_with_scope {d : Dialect} {sql text : String} {c : Cursor} {q : Query}
    (loaded : Cursor.ofText d.toLexicon sql = .ok c) (leads : c.current.is "WITH" = true)
    (parsed : Statement.parse d sql = .ok (.query q)) (printed : ({ dialect := d } : Printer).queryText q = .ok text) :
    ("WITH ".toList <+: text.toList ↔ q.firstOperator? = none) ∧
      ∀ op, q.firstOperator? = some op → ∃ inner, ({ dialect := d } : Printer).select q.leftmost = .ok inner ∧
        "WITH ".toList <+: inner.toList ∧ Printer.ClosesBefore op inner text := by
  have declared := Statement.parse_declares loaded leads parsed
  have encloses (op : String) (operand : q.firstOperator? = some op) :=
    Printer.queryText_encloses declared operand printed
  refine ⟨⟨?_, ?_⟩, ?_⟩
  · intro heads
    cases operand : q.firstOperator? with
    | none => rfl
    | some op =>
      obtain ⟨inner, _, closes⟩ := encloses op operand
      obtain ⟨rest, starts⟩ := heads
      have opens := closes.opens
      rw [← starts] at opens
      cases opens
  · intro single
    cases q with
    | select s => exact Printer.select_with declared printed
    | setOp => cases single
  · intro op operand
    obtain ⟨inner, selected, closes⟩ := encloses op operand
    exact ⟨inner, selected, Printer.select_with declared selected, closes⟩

example : (MySql.profile.dialect.canonical "WITH w AS (SELECT 1) SELECT a FROM w").toOption =
    some "WITH w AS (SELECT 1) SELECT a FROM w" := by
  decide +kernel

theorem union_scope : ∃ c q text,
    Cursor.ofText MySql.profile.dialect.toLexicon "WITH w AS (SELECT 1) SELECT a FROM w UNION SELECT b FROM w" = .ok c ∧
    c.current.is "WITH" = true ∧
    Statement.parse MySql.profile.dialect "WITH w AS (SELECT 1) SELECT a FROM w UNION SELECT b FROM w" =
    .ok (.query q) ∧
    ({ dialect := MySql.profile.dialect } : Printer).queryText q = .ok text ∧
    ("WITH ".toList <+: text.toList ↔ q.firstOperator? = none) ∧
    ∀ op, q.firstOperator? = some op → ∃ inner,
      ({ dialect := MySql.profile.dialect } : Printer).select q.leftmost = .ok inner ∧
      "WITH ".toList <+: inner.toList ∧ Printer.ClosesBefore op inner text := by
  obtain ⟨c, loaded, leads⟩ := ok_of_any (x := Cursor.ofText MySql.profile.dialect.toLexicon
    "WITH w AS (SELECT 1) SELECT a FROM w UNION SELECT b FROM w") (p := (·.current.is "WITH")) (by decide +kernel)
  obtain ⟨s, parsed, prints⟩ := ok_of_any (x := Statement.parse MySql.profile.dialect
    "WITH w AS (SELECT 1) SELECT a FROM w UNION SELECT b FROM w")
    (p := fun s => (({ dialect := MySql.profile.dialect } : Printer).statement s).toOption.any fun _ => true)
    (by decide +kernel)
  obtain ⟨text, printed, _⟩ := ok_of_any prints
  obtain ⟨q, _, rfl, _⟩ | ⟨other, _⟩ := Statement.parse_plain loaded (not_other leads) parsed
  · exact ⟨c, q, text, loaded, leads, parsed, printed, leading_with_scope loaded leads parsed printed⟩
  · simp [Cursor.startsQuery, leads] at other

/-- The second select of a union reads a name that is declared for the first one only. -/
theorem with_shut_in : (MySql.profile.dialect.canonical
    "WITH w AS (SELECT 1) SELECT a FROM w UNION SELECT b FROM w").toOption =
      some "(WITH w AS (SELECT 1) SELECT a FROM w) UNION SELECT b FROM w" := by
  decide +kernel

end SqlDialects
