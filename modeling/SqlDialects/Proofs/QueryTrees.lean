import SqlDialects.Proofs.Canonical
import SqlDialects.Proofs.WrittenQueries

/-! Set operations and joins of any depth. What is printed of such a query is read back as the same query, unless a
comma join stands on the right of another join or a term without parentheses has an `OFFSET`. -/

namespace SqlDialects

open Token SqlDialects.Parser

variable {d : Dialect}

mutual

/-- Selects over values of the operator language, and set operations over them. -/
inductive QueryTree (d : Dialect) : Query → Prop
  | select {s : Select} (bindings : s.ctes = []) (views : s.lateralViews = []) (nonempty : s.items ≠ [])
    (items : ∀ item ∈ s.items, ItemTree d item) (source : ∀ t ∈ s.source, TableTree d t)
    (condition : ∀ e ∈ s.condition, ValueTree d e) (groups : ∀ e ∈ s.groupBy, ValueTree d e)
    (having : ∀ e ∈ s.having, ValueTree d e) (clauses : TailTree d (Query.select s).tail) : QueryTree d (.select s)
  | setOp {op : String} {left right : Query} {orderBy : List OrderItem} {limit : Option Expr} (pos : Position)
    (known : op ∈ ["UNION", "INTERSECT", "EXCEPT"]) (all : Bool) (first : QueryTree d left) (second : QueryTree d right)
    (shieldedLeft : left.Shielded false) (shieldedRight : right.Shielded true)
      (clauses : TailTree d { orderBy, limit }) :
    QueryTree d (.setOp pos op all left right orderBy limit)

/-- Named tables, queries as tables, and joins of them. -/
inductive TableTree (d : Dialect) : TableExpr → Prop
  | ref {first : Ident} {rest : List Ident} {label : Option Ident} {final : Bool} (pos : Position)
    (kept : ∀ id ∈ first :: rest, id.Kept d) (labelled : KeptLabel d d.hints.bareTableLabels label)
    (modified : final = true → d.hints.finalModifier = true) : TableTree d (.ref pos (first :: rest) label final)
  | derived {q : Query} {label : Option Ident} (pos : Position) (query : QueryTree d q)
    (labelled : KeptLabel d d.hints.bareTableLabels label) : TableTree d (.derived pos q label)
  | comma {left right : TableExpr} (pos : Position) (first : TableTree d left) (second : TableTree d right)
    (stands : right.StandsRight) : TableTree d (.join pos "," left right none [])
  | join {kind : String} {words : List String} {left right : TableExpr} {condition : Option Expr} {shared : List Ident}
    (pos : Position) (form : JoinForm kind words) (first : TableTree d left) (second : TableTree d right)
    (stands : right.StandsRight) (on : ∀ e ∈ condition, ValueTree d e) (names : ∀ id ∈ shared, id.Kept d)
    (single : condition = none ∨ shared = []) : TableTree d (.join pos kind left right condition shared)

end

/-! ### Texts -/

theorem exists_writtenCondition (ready : d.ReadsQueries) {condition : Option Expr} {shared : List Ident}
    (on : ∀ e ∈ condition, ValueTree d e) (names : ∀ id ∈ shared, id.Kept d) (single : condition = none ∨ shared = []) :
    ∃ text ts, WrittenCondition d condition shared text ts := by
  cases condition with
  | some e =>
    obtain rfl : shared = [] := by simpa using single
    obtain ⟨_, _, written⟩ := (on e rfl).exists_written ready
    exact ⟨_, _, .on written⟩
  | none =>
    cases shared with
    | nil => exact ⟨_, _, .missing⟩
    | cons id ids =>
      have each : ∀ other ∈ id :: ids, ∃ text ts, WrittenName d other text ts :=
        fun other member => ⟨_, _, names other member, rfl, rfl⟩
      obtain ⟨_, _, series⟩ := exists_series (List.cons_ne_nil id ids) each
      exact ⟨_, _, .shared series⟩

mutual

theorem QueryTree.written (ready : d.ReadsQueries) {q : Query} (tree : QueryTree d q) :
    ∃ text back ts us, WrittenQuery d q text back ts us :=
  match tree with
  | .select bindings views nonempty items source condition groups having clauses => by
    have value {e : Expr} (tree : ValueTree d e) := tree.exists_written ready
    obtain ⟨_, _, items⟩ := exists_series nonempty fun item member => (items item member).exists_written ready
    obtain ⟨_, _, source⟩ := exists_optional d.toLexicon "FROM" fun t member => (source t member).written ready
    obtain ⟨_, _, condition⟩ := exists_optional d.toLexicon "WHERE" fun e member => value (condition e member)
    obtain ⟨_, _, groups⟩ := exists_listClause d.toLexicon ["GROUP", "BY"] fun e member => value (groups e member)
    obtain ⟨_, _, having⟩ := exists_optional d.toLexicon "HAVING" fun e member => value (having e member)
    exact written_select ready ⟨bindings, views, items, source, condition, groups, having⟩ clauses
  | .setOp pos known all first second shieldedLeft shieldedRight clauses => by
    obtain ⟨_, _, _, _, first⟩ := first.written ready
    obtain ⟨_, _, _, _, second⟩ := second.written ready
    exact written_setOp ready known all first second shieldedLeft shieldedRight clauses pos

theorem TableTree.written (ready : d.ReadsQueries) {t : TableExpr} (tree : TableTree d t) :
    ∃ text ts, WrittenTable d t text ts :=
  match tree with
  | .ref pos kept labelled modified => written_ref ready kept labelled modified pos
  | .derived pos query labelled => by
    obtain ⟨_, _, _, _, written⟩ := query.written ready
    exact written_derived ready (written.whole ready) labelled pos
  | .comma pos first second stands => by
    obtain ⟨_, _, first⟩ := first.written ready
    obtain ⟨_, _, second⟩ := second.written ready
    exact written_comma ready first second stands pos
  | .join pos form first second stands on names single => by
    obtain ⟨_, _, first⟩ := first.written ready
    obtain ⟨_, _, second⟩ := second.written ready
    obtain ⟨_, _, condition⟩ := exists_writtenCondition ready on names single
    exact written_join ready first second stands form condition pos

end

/-! ### Statements -/

/-- What stands behind a statement. -/
def statementEnds : List Head := [.finish, .mark ";"]

/-- The tokens are read as a statement in front of what ends one. Its parts have a level of the grammar for
themselves. -/
def ReadsStatement (d : Dialect) (wanted : Statement → Prop) (ts : List Token) : Prop :=
  ∀ (depth : Nat) (c : Cursor) (tail : List Token), ts.length < depth → Follows d.toLexicon statementEnds tail →
    c.Shows (ts ++ tail) → ∃ s next, Parser.statement d (grammar d (depth + 1)) c = .ok (s, next) ∧
    next.Shows tail ∧ wanted s

theorem ReadsStatement.parse {wanted : Statement → Prop} {text : String} {ts : List Token}
    (reads : ReadsStatement d wanted ts)
    (spelled : Spells d.toLexicon text.toList ts) : ∃ read, Statement.parse d text = .ok read ∧ wanted read := by
  obtain ⟨c, loaded, shown⟩ := spelled.cursor
  have ends : Follows d.toLexicon statementEnds [finish] := ⟨.finish, by decide, by decide, [], rfl⟩
  have size := shown.bound_eq
  rw [List.length_append, List.length_singleton] at size
  obtain ⟨read, next, done, left, held⟩ := reads c.bound c [finish] (by omega) ends shown
  refine ⟨read, ?_, held⟩
  rw [Statement.parse, run_eq loaded]
  have ended : next.current.isFinish = true := by
    rw [← isFinish_bare, left.current]
    rfl
  have noMark : acceptOp ";" next = .ok (false, next) := by
    rw [acceptOp_apply, ← isOp_bare, left.current]
    rfl
  have whole : oneStatement d (grammarFor d c) c = .ok (read, next) := by
    refine bind_ok done (bind_ok noMark (bind_ok (atEnd_apply next) ?_))
    rw [ended]
    rfl
  rw [whole]
  rfl

theorem WholeQuery.statement {q : Query} {text : String} {ts : List Token} (whole : WholeQuery d q text ts) :
    ReadsStatement d (fun s => ∃ read, s = .query read ∧ read.bare = q.bare) ts := by
  intro depth c tail enough follows shown
  have starts := whole.starts.append tail
  have plain (w : String) (other : "SELECT" ≠ w) : c.current.is w = false := by
    obtain ⟨first, rest, shape, opens⟩ := starts.opens
    rw [shape] at shown
    rw [← is_bare, shown.current]
    exact opens.is other
  have isQuery : (c.current.is "SELECT" || c.current.is "WITH" ||
      (c.current.isOp "(" && (c.peek.is "SELECT" || c.peek.is "WITH" || c.peek.isOp "("))) = true := by
    obtain ⟨first, rest, shape, opens⟩ := starts
    rw [shape] at shown
    rw [← is_bare c.current "SELECT", ← isOp_bare c.current, shown.current]
    obtain select | ⟨group, second, more, rfl, opens⟩ := opens
    · rw [select, Bool.true_or, Bool.true_or]
    · rw [Token.OpensQuery, ← shown.peek, is_bare, isOp_bare] at opens
      obtain select | inner := opens
      · simp [group, select]
      · simp [group, inner]
  have within : ∀ head ∈ statementEnds, head ∈ queryEnds := by decide
  obtain ⟨read, next, done, left, same⟩ := whole.parses depth c tail enough (follows.mono within) shown
  refine ⟨.query read, next, ?_, left, read, rfl, same⟩
  refine bind_ok (curIs_apply ..) ?_
  rw [plain "DROP" (by decide), if_neg (by decide)]
  refine bind_ok (curIs_apply ..) ?_
  rw [plain "EXPLAIN" (by decide), if_neg (by decide)]
  refine bind_ok (get_apply c) ?_
  rw [isQuery, if_pos rfl]
  exact bind_ok done rfl

theorem WholeQuery.parse_statement {q : Query} {text : String} {ts : List Token} (whole : WholeQuery d q text ts) :
    ∃ read, Statement.parse d text = .ok (.query read) ∧ read.bare = q.bare := by
  obtain ⟨_, parsed, read, rfl, same⟩ := whole.statement.parse whole.spelled
  exact ⟨read, parsed, same⟩

theorem registered_readsQueries {entry : Entry} (member : entry ∈ Registry.standard.entries) :
    entry.dialect.ReadsQueries := by
  have words : (∀ w ∈ queryWords, entry.dialect.infixOps.find? w = none) ∧
      ∀ w ∈ ["SELECT", "WITH"], entry.dialect.isReserved w = true := by
    obtain ⟨profile, known, rfl⟩ := List.mem_map.mp member
    clear member
    change (∀ w ∈ queryWords, profile.dialect.infixOps.find? w = none) ∧
      ∀ w ∈ ["SELECT", "WITH"], profile.dialect.isReserved w = true
    revert profile
    decide +kernel
  exact ⟨registered_regular member, registered_quotesNames member, words.1, words.2⟩

/-! ### Values of the clauses -/

/-- The values of every `ORDER BY`, `LIMIT` and `OFFSET` of a query and of its terms. -/
def Query.clauseValues : Query → List Expr
  | .select s => s.orderBy.map (·.expr) ++ s.limit.toList ++ s.offset.toList
  | .setOp _ _ _ left right orderBy limit =>
    left.clauseValues ++ right.clauseValues ++ orderBy.map (·.expr) ++ limit.toList

section Clauses

variable {p : Printer}

/-- The value has a text, and this is a part of the whole text. -/
def Printer.Writes (p : Printer) (text : String) (e : Expr) :
    Prop := ∃ own, p.expr e = .ok own ∧ own.toList <:+: text.toList

theorem Printer.Writes.mono {e : Expr} {text whole : String} (writes : p.Writes text e)
    (inside : text.toList <:+: whole.toList) :
    p.Writes whole e := by
  obtain ⟨own, printed, part⟩ := writes
  exact ⟨own, printed, part.trans inside⟩

private theorem infix_left (text back : String) : text.toList <:+: (text ++ back).toList := by
  rw [String.toList_append]
  exact (List.prefix_append ..).isInfix

private theorem infix_right (front text : String) : text.toList <:+: (front ++ text).toList := by
  rw [String.toList_append]
  exact (List.suffix_append ..).isInfix

private theorem infix_commas {own : String} {texts : List String} (member : own ∈ texts) :
    own.toList <:+: (Printer.commas texts).toList := by
  induction texts with
  | nil => cases member
  | cons text texts ih =>
    cases texts with
    | nil =>
      obtain rfl : own = text := by simpa using member
      exact ⟨[], [], by simp [Printer.commas]⟩
    | cons next texts =>
      have shape : Printer.commas (text :: next :: texts) = text ++ ", " ++ Printer.commas (next :: texts) :=
        String.intercalate_cons_cons
      rw [shape]
      obtain rfl | later := List.mem_cons.mp member
      · exact (infix_left own ", ").trans (infix_left ..)
      · exact (ih later).trans (infix_right ..)

private theorem orders_written {items : List OrderItem} {texts : List String}
    (printed : p.orderItems items = .ok texts) :
    ∀ e ∈ items.map (·.expr), p.Writes (Printer.listClause " ORDER BY " texts) e := by
  have each : ∀ e ∈ items.map (·.expr), ∃ text ∈ texts, p.Writes text e := by
    induction items generalizing texts with
    | nil => simp
    | cons item items ih =>
      obtain ⟨e, descending, nullsFirst⟩ := item
      rw [orderItems_cons] at printed
      obtain ⟨own, value, rest⟩ := ok_of_bind printed
      obtain ⟨others, behind, same⟩ := ok_of_bind rest
      cases same
      intro other member
      obtain rfl | later := List.mem_cons.mp member
      · exact ⟨_, List.mem_cons_self, own, value, (infix_left ..).trans (infix_left ..)⟩
      · obtain ⟨text, inside, writes⟩ := ih behind other later
        exact ⟨text, List.mem_cons_of_mem _ inside, writes⟩
  intro e member
  obtain ⟨text, inside, writes⟩ := each e member
  have nonempty : texts.isEmpty = false := by
    cases texts with
    | nil => cases inside
    | cons => rfl
  rw [Printer.listClause, nonempty, if_neg (by decide)]
  exact writes.mono ((infix_commas inside).trans (infix_right ..))

private theorem option_written {value : Option Expr} {own : Option String} {text : String}
    (printed : p.exprOption value = .ok own)
    (inside : ∀ t ∈ own, t.toList <:+: text.toList) : ∀ e ∈ value.toList, p.Writes text e := by
  intro e member
  cases value with
  | none => simp at member
  | some value =>
    obtain rfl : e = value := by simpa using member
    obtain ⟨own, shown, same⟩ := ok_of_bind printed
    cases same
    exact ⟨own, shown, inside own rfl⟩

private theorem tail_written {orderBy : List OrderItem} {limit offset : Option Expr} {orders : List String}
    {limitText offsetText : Option String} (ordered : p.orderItems orderBy = .ok orders)
    (limited : p.exprOption limit = .ok limitText) (shifted : p.exprOption offset = .ok offsetText) :
    ∀ e ∈ orderBy.map (·.expr) ++ limit.toList ++ offset.toList,
    p.Writes (p.tailText orders limitText offsetText) e := by
  have order : (Printer.listClause " ORDER BY " orders).toList <:+: (p.tailText orders limitText offsetText).toList :=
    by
    unfold Printer.tailText
    split <;> exact (infix_left ..).trans (infix_left ..)
  have limit : ∀ t ∈ limitText, t.toList <:+: (p.tailText orders limitText offsetText).toList := by
    rintro t ⟨⟩
    unfold Printer.tailText
    split
    · exact (infix_left t " ROWS ONLY").trans ((infix_right " FETCH FIRST " _).trans (infix_right ..))
    · exact (infix_right " LIMIT " t).trans ((infix_right ..).trans (infix_left ..))
  have offset : ∀ t ∈ offsetText, t.toList <:+: (p.tailText orders limitText offsetText).toList := by
    rintro t ⟨⟩
    unfold Printer.tailText
    split
    · exact (infix_left t " ROWS").trans ((infix_right " OFFSET " _).trans ((infix_right ..).trans (infix_left ..)))
    · exact (infix_right " OFFSET " t).trans (infix_right ..)
  intro e member
  rw [List.append_assoc, List.mem_append, List.mem_append] at member
  obtain inOrder | inLimit | inOffset := member
  · exact (orders_written ordered e inOrder).mono order
  · exact option_written limited limit e inLimit
  · exact option_written shifted offset e inOffset

private theorem select_written {s : Select} {text : String} (printed : p.select s = .ok text) :
    ∀ e ∈ s.orderBy.map (·.expr) ++ s.limit.toList ++ s.offset.toList, p.Writes text e := by
  obtain ⟨_, ctes, distinct, items, source, views, condition, groups, having, orderBy, limit, offset⟩ := s
  rw [Printer.select] at printed
  obtain ⟨_, _, printed⟩ := ok_of_bind printed
  obtain ⟨_, _, printed⟩ := ok_of_bind printed
  obtain ⟨_, _, printed⟩ := ok_of_bind printed
  obtain ⟨_, _, printed⟩ := ok_of_bind printed
  obtain ⟨_, _, printed⟩ := ok_of_bind printed
  obtain ⟨_, _, printed⟩ := ok_of_bind printed
  obtain ⟨_, _, printed⟩ := ok_of_bind printed
  obtain ⟨orders, ordered, printed⟩ := ok_of_bind printed
  obtain ⟨limitText, offsetText, limited, shifted, front, rfl⟩ :
    ∃ limitText offsetText, p.exprOption limit = .ok limitText ∧
      p.exprOption offset = .ok offsetText ∧ ∃ front, text = front ++ p.tailText orders limitText offsetText := by
    dsimp only at printed
    split at printed
    · obtain ⟨offsetText, shifted, printed⟩ := ok_of_bind printed
      obtain ⟨limitText, limited, printed⟩ := ok_of_bind printed
      cases printed
      exact ⟨_, _, limited, shifted, _, rfl⟩
    · obtain ⟨limitText, limited, printed⟩ := ok_of_bind printed
      obtain ⟨offsetText, shifted, printed⟩ := ok_of_bind printed
      cases printed
      exact ⟨_, _, limited, shifted, _, rfl⟩
  intro e member
  exact (tail_written ordered limited shifted e member).mono (infix_right ..)

private theorem infix_paren (needs : Bool) (text : String) : text.toList <:+: (Printer.paren needs text).toList := by
  cases needs with
  | true => exact (infix_right "(" text).trans (infix_left ..)
  | false => exact List.infix_rfl

theorem clauseValues_written (q : Query) {text : String} (printed : p.queryText q = .ok text) :
    ∀ e ∈ q.clauseValues, p.Writes text e := by
  match q with
  | .select s => exact select_written printed
  | .setOp pos op all left right orderBy limit =>
    obtain ⟨leftText, leftPrinted, printed⟩ := ok_of_bind printed
    obtain ⟨rightText, rightPrinted, printed⟩ := ok_of_bind printed
    obtain ⟨orders, ordered, printed⟩ := ok_of_bind printed
    obtain ⟨limitText, limited, printed⟩ := ok_of_bind printed
    cases printed
    have first := clauseValues_written left leftPrinted
    have second := clauseValues_written right rightPrinted
    have clauses := tail_written ordered limited (show p.exprOption none = .ok none from rfl)
    intro e member
    simp only [Query.clauseValues, List.mem_append] at member
    obtain ((inLeft | inRight) | inOrder) | inLimit := member
    · have inside := infix_paren (left.needsParens false) leftText
      refine (first e inLeft).mono (inside.trans ?_)
      simp only [String.append_assoc]
      exact infix_left ..
    · have inside := infix_paren (right.needsParens true) rightText
      exact (second e inRight).mono (inside.trans ((infix_right ..).trans (infix_left ..)))
    · exact (clauses e (by simp [inOrder])).mono (infix_right ..)
    · exact (clauses e (by simp [inLimit])).mono (infix_right ..)

end Clauses

/-! ### Reading back -/

section Registered

variable {entry : Entry}

/-- Set operations of any depth are read back as they are, and no value of their clauses is missing in the text. -/
theorem query_tree_read_back (member : entry ∈ Registry.standard.entries) {q : Query}
    (tree : QueryTree entry.dialect q) :
    ∃ text read, ({ dialect := entry.dialect } : Printer).queryText q = .ok text ∧
      Statement.parse entry.dialect text = .ok (.query read) ∧ read.bare = q.bare ∧
      ∀ e ∈ q.clauseValues, ({ dialect := entry.dialect } : Printer).Writes text e := by
  have ready := registered_readsQueries member
  obtain ⟨_, _, _, _, written⟩ := tree.written ready
  have whole := written.whole ready
  have printed := whole.printed { dialect := entry.dialect } rfl rfl
  obtain ⟨read, parsed, same⟩ := whole.parse_statement
  exact ⟨_, read, printed, parsed, same, clauseValues_written q printed⟩

private theorem letter_kept {name : String} (known : name ∈ ["a", "b", "c", "x", "y"]) :
    KeptColumn MySql.profile.dialect ⟨name, false⟩ [] := by
  simp only [List.mem_cons, List.not_mem_nil, or_false] at known
  have kept {name : String} (word : IsWord name) (free : MySql.profile.dialect.isReserved (Text.upper name) = false)
      (column : Ident.IsColumn MySql.profile.dialect ⟨name, false⟩) (other : Text.upper name ∉ selectWords) :
      KeptColumn MySql.profile.dialect ⟨name, false⟩ [] := by
    refine ⟨fun id only => ?_, fun _ => ⟨column, other⟩, by simp⟩
    obtain rfl := List.mem_singleton.mp only
    exact fun _ => ⟨word, free⟩
  obtain rfl | rfl | rfl | rfl | rfl := known <;>
    exact kept ⟨_, _, rfl, by decide, by decide⟩ (by decide +kernel)
      ⟨by decide +kernel, by decide +kernel, by decide +kernel, by decide +kernel⟩ (by decide +kernel)

private theorem digit_tree (d : Dialect) (value : String) (known : value ∈ ["1", "2"]) : ValueTree d (.num value) := by
  refine .number {} ?_
  simp only [List.mem_cons, List.not_mem_nil, or_false] at known
  obtain rfl | rfl := known <;> exact ⟨⟨_, _, rfl, .inl (by decide)⟩, by decide⟩

private theorem letter_table (name : String) (known : name ∈ ["a", "b", "c", "x", "y"]) :
    TableTree MySql.profile.dialect (.ref {} [⟨name, false⟩] none false) :=
  .ref {} (letter_kept known).names (by nofun) (by nofun)

/-- A union of a select with clauses of its own and one without. -/
theorem union_read_back : ∃ q text read,
    q = .setOp {} "UNION" true
      (.select { items := [{ expr := .col "x" }], source := some (.ref {} [⟨"a", false⟩] none false),
                 limit := some (.num "1") })
      (.select { items := [{ expr := .col "y" }] }) [] (some (.num "2")) ∧
    QueryTree MySql.profile.dialect q ∧ ({ dialect := MySql.profile.dialect } : Printer).queryText q = .ok text ∧
    Statement.parse MySql.profile.dialect text = .ok (.query read) ∧ read.bare = q.bare ∧
    ∀ e ∈ q.clauseValues, ({ dialect := MySql.profile.dialect } : Printer).Writes text e := by
  have column {name : String} (known : name ∈ ["a", "b", "c", "x", "y"]) :
      ∀ item ∈ [({ expr := .col name } : SelectItem)], ItemTree MySql.profile.dialect item := by
    intro item only
    obtain rfl := List.mem_singleton.mp only
    exact .value (.column {} (letter_kept known)) (by nofun)
  have limited (value : String) (known : value ∈ ["1", "2"]) :
    TailTree MySql.profile.dialect { limit := some (.num value) } := by
    refine ⟨by nofun, ?_, by nofun⟩
    rintro e ⟨⟩
    exact digit_tree _ value known
  have source : ∀ t ∈ some (TableExpr.ref {} [⟨"a", false⟩] none false), TableTree MySql.profile.dialect t := by
    rintro t ⟨⟩
    exact letter_table "a" (by decide)
  have first : QueryTree MySql.profile.dialect (.select
      { items := [{ expr := .col "x" }], source := some (.ref {} [⟨"a", false⟩] none false),
        limit := some (.num "1") }) :=
    .select rfl rfl (List.cons_ne_nil _ _) (column (by decide)) source (by nofun) (by nofun) (by nofun)
      (limited "1" (by decide))
  have second : QueryTree MySql.profile.dialect (.select { items := [{ expr := .col "y" }] }) :=
    .select rfl rfl (List.cons_ne_nil _ _) (column (by decide)) (by nofun) (by nofun) (by nofun) (by nofun)
      ⟨by nofun, by nofun, by nofun⟩
  have tree := QueryTree.setOp {} (show "UNION" ∈ ["UNION", "INTERSECT", "EXCEPT"] by decide)
    true first second (.inl rfl) (.inr rfl)
    (limited "2" (by decide))
  obtain ⟨text, read, done⟩ := @query_tree_read_back (Entry.ofProfile MySql.profile)
    (by simp [Registry.standard]) _ tree
  exact ⟨_, text, read, rfl, tree, done⟩

/-- An `OFFSET` of a term is printed without parentheses: in front of the operator the text is not read, and behind it
the offset is read as one of the whole, where it has no place. -/
theorem offset_lost :
    (MySql.profile.dialect.canonical "(SELECT a OFFSET 3) UNION SELECT b").toOption =
    some "SELECT a OFFSET 3 UNION SELECT b" ∧
    (MySql.profile.dialect.canonical "SELECT a OFFSET 3 UNION SELECT b").toOption = none ∧
    (Postgres.profile.dialect.canonical "SELECT a UNION (SELECT b OFFSET 3)").toOption =
    some "SELECT a UNION SELECT b OFFSET 3" ∧
    (Postgres.profile.dialect.canonical "SELECT a UNION SELECT b OFFSET 3").toOption = some "SELECT a UNION SELECT b" ∧
    (MySql.profile.dialect.canonical "SELECT a UNION SELECT b LIMIT 5 OFFSET 3").toOption =
      some "SELECT a UNION SELECT b LIMIT 5" := by
  decide +kernel

/-- A query that reads all columns of the tables. -/
def starSelect (t : TableExpr) : Select := { items := [{ expr := .star {} [] }], source := some t }

theorem starSelect_tree {t : TableExpr} (tree : TableTree d t) : QueryTree d (.select (starSelect t)) := by
  refine .select rfl rfl (List.cons_ne_nil _ _) ?_ ?_ (by nofun) (by nofun) (by nofun) ⟨by nofun, by nofun, by nofun⟩
  · intro item only
    obtain rfl := List.mem_singleton.mp only
    exact .star {}
  · rintro _ ⟨⟩
    exact tree

theorem starSelect_printed {p : Printer} {t : TableExpr} {text : String} (printed : p.table t = .ok text) :
    p.queryText (.select (starSelect t)) = .ok ("SELECT * FROM " ++ text) := by
  have items : p.selectItems [{ expr := .star {} [] }] = .ok ["*"] := rfl
  have source : p.tableOption (some t) = .ok (some text) := by
    rw [Printer.tableOption, printed]
    rfl
  rw [Printer.queryText, starSelect, Printer.select]
  simp only [Printer.cteTexts, items, source, Printer.views, Printer.exprOption, Printer.exprs,
    Printer.orderItems, bind, Except.bind,
    pure, Except.pure]
  have whole : "SELECT *" ++ (" FROM " ++ text) = "SELECT * FROM " ++ text := by
    rw [← String.append_assoc]
    rfl
  split <;> simpa [Printer.tailText, Printer.clause, Printer.listClause, Printer.commas] using whole

/-- Joins of any depth are read back as they are. -/
theorem table_tree_read_back (member : entry ∈ Registry.standard.entries) {t : TableExpr}
    (tree : TableTree entry.dialect t) :
    ∃ text s, ({ dialect := entry.dialect } : Printer).table t = .ok text ∧
      Statement.parse entry.dialect ("SELECT * FROM " ++ text) = .ok (.query (.select s)) ∧
      bareSource s.source = some t.bare := by
  have ready := registered_readsQueries member
  obtain ⟨text, _, table⟩ := tree.written ready
  have own := table.printed { dialect := entry.dialect } rfl rfl
  obtain ⟨_, _, _, _, written⟩ := (starSelect_tree tree).written ready
  have whole := written.whole ready
  have same := (whole.printed { dialect := entry.dialect } rfl rfl).symm.trans (starSelect_printed own)
  obtain ⟨read, parsed, equal⟩ := whole.parse_statement
  rw [Except.ok.inj same] at parsed
  cases read with
  | setOp => cases equal
  | select s =>
    obtain ⟨⟩ := s
    exact ⟨text, _, own, parsed, congrArg Select.source (Query.select.inj equal)⟩

/-- A join on the right of a join. -/
theorem nested_join_read_back : ∃ t text s,
    t = .join {} "JOIN" (.ref {} [⟨"a", false⟩] none false)
      (.join {} "LEFT JOIN" (.ref {} [⟨"b", false⟩] none false)
        (.derived {} (.select (starSelect (.ref {} [⟨"c", false⟩] none false)))
          (some ⟨"y", false⟩)) none [⟨"x", false⟩])
      (some (.binary {} "=" (.col "x") (.num "1"))) [] ∧
    TableTree MySql.profile.dialect t ∧ ({ dialect := MySql.profile.dialect } : Printer).table t = .ok text ∧
    Statement.parse MySql.profile.dialect ("SELECT * FROM " ++ text) = .ok (.query (.select s)) ∧
    bareSource s.source = some t.bare := by
  have member : Entry.ofProfile MySql.profile ∈ Registry.standard.entries := by simp [Registry.standard]
  have label : KeptLabel MySql.profile.dialect false (some ⟨"y", false⟩) := by
    rintro id ⟨⟩
    exact ⟨(letter_kept (by decide)).names _ List.mem_cons_self, by simp⟩
  have shared : ∀ id ∈ [(⟨"x", false⟩ : Ident)], id.Kept MySql.profile.dialect := (letter_kept (by decide)).names
  have keeps := (registered_regular member).ansi "=" (by decide)
  have on : ∀ e ∈ some (Expr.binary {} "=" (.col "x") (.num "1")), ValueTree MySql.profile.dialect e := by
    rintro e ⟨⟩
    exact .binary {} keeps (.column {} (letter_kept (by decide))) (digit_tree _ "1" (by decide))
  have derived := TableTree.derived {} (starSelect_tree (letter_table "c" (by decide))) label
  have inner : TableTree MySql.profile.dialect (.join {} "LEFT JOIN" (.ref {} [⟨"b", false⟩] none false)
      (.derived {} (.select (starSelect (.ref {} [⟨"c", false⟩] none false))) (some ⟨"y", false⟩))
      none [⟨"x", false⟩]) := by
    have known : "LEFT" ∈ ["LEFT", "RIGHT", "FULL", "CROSS"] := by decide
    have listed : ("JOIN", ["JOIN"]) ∈ sidedForms := by decide
    exact .join {} (.sided known listed) (letter_table "b" (by decide)) derived (.inl trivial)
      (by simp) shared (.inl rfl)
  have tree : TableTree MySql.profile.dialect (.join {} "JOIN" (.ref {} [⟨"a", false⟩] none false) _ _ []) :=
    .join {} .plain (letter_table "a" (by decide)) inner (.inr ⟨rfl, .join _ _ _ _ _ (.ref _ _ _ _)⟩)
    on (by simp) (.inr rfl)
  obtain ⟨text, s, done⟩ := @table_tree_read_back (Entry.ofProfile MySql.profile) member _ tree
  exact ⟨_, text, s, rfl, tree, done⟩

/-- A comma join on the right of a join is printed without its parentheses, and a semi join without a side is not
read. -/
theorem group_flattened :
    (MySql.profile.dialect.canonical "SELECT k FROM a, (b, c)").toOption = some "SELECT k FROM a, b, c" ∧
    (MySql.profile.dialect.canonical "SELECT k FROM a JOIN (b, c) ON x").toOption =
    some "SELECT k FROM a JOIN b, c ON x" ∧
    (MySql.profile.dialect.canonical "SELECT k FROM a JOIN b, c ON x").toOption = none ∧
    (MySql.profile.dialect.canonical "SELECT k FROM a INNER SEMI JOIN b").toOption =
    some "SELECT k FROM a SEMI JOIN b" ∧
    (MySql.profile.dialect.canonical "SELECT k FROM a SEMI JOIN b").toOption = none := by
  decide +kernel

end Registered

end SqlDialects
