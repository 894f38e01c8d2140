import SqlDialects.Proofs.QueryClauses

/-! The tables of a `FROM` clause, written and read back. Joins are read from the left, each by a round of the loop,
so the join on the left of another needs no parentheses, and the table on the right is read by itself. -/

namespace SqlDialects

open Token SqlDialects.Parser

variable {d : Dialect} {lexicon : Lexicon} {heads : List Head} {ts us : List Token} {c : Cursor}

/-! ### Names -/

/-- A round of the loop that reads the parts of a name. -/
private def pointStep (parts : List Ident) : Parser (Option (List Ident)) := do
  if ← acceptOp "." then return some ((← anyIdent) :: parts) else return none

private theorem names_repeat {rest : List Ident} (parts : List Ident) {tail : List Token} (more : tail ≠ [])
    (shown : c.Shows ((rest.flatMap fun id => [punctuation ".", id.token d.toLexicon]) ++ tail)) :
    ∃ next, Repeats pointStep parts c (rest.reverse ++ parts) next ∧ next.Shows tail := by
  induction rest generalizing c parts with
  | nil => exact ⟨c, .refl _ _ _, shown⟩
  | cons id rest ih =>
    have point : c.Shows (punctuation "." :: id.token d.toLexicon ::
      ((rest.flatMap fun id => [punctuation ".", id.token d.toLexicon]) ++ tail)) := shown
    have nonempty : (rest.flatMap fun id => [punctuation ".", id.token d.toLexicon]) ++ tail ≠ [] :=
      List.append_ne_nil_of_right_ne_nil _ more
    have after := point.advance.advance' nonempty
    obtain ⟨next, repeats, left⟩ := ih (id :: parts) after
    have isPoint : c.current.isOp "." = true := by
      rw [← isOp_bare, point.current]
      decide
    have stepped : pointStep parts c = .ok (some (id :: parts), c.advance.advance) := by
      refine bind_ok (a := true) (m := c.advance) ?_ (bind_ok (anyIdent_shows point.advance) rfl)
      rw [acceptOp_apply, isPoint, if_pos rfl]
    have shorter := point.shorter after (by simp only [List.length_cons]; omega)
    refine ⟨next, ?_, left⟩
    rw [List.reverse_cons, List.append_assoc]
    exact ((Repeats.refl _ _ _).snoc stepped shorter).trans repeats

theorem dottedName_shows {head : Parser Ident} {first : Ident} {rest : List Ident}
    (taken : head c = .ok (first, c.advance))
    {tail : List Token} (more : tail ≠ []) (noPoint : ∀ m : Cursor, m.Shows tail → m.current.isOp "." = false)
    (shown : c.Shows (columnTokens d.toLexicon first rest ++ tail)) :
    ∃ next, dottedName head c = .ok (first :: rest, next) ∧ next.Shows tail := by
  have shown : c.Shows (first.token d.toLexicon ::
    ((rest.flatMap fun id => [punctuation ".", id.token d.toLexicon]) ++ tail)) := shown
  have after := shown.advance' (List.append_ne_nil_of_right_ne_nil _ more)
  obtain ⟨next, repeats, left⟩ := names_repeat [first] more after
  have stops : pointStep (rest.reverse ++ [first]) next = .ok (none, next) := by
    refine bind_ok (a := false) (m := next) ?_ rfl
    rw [acceptOp_apply, noPoint next left]
    rfl
  refine ⟨next, bind_ok taken (bind_ok (repeats.loop stops) ?_), left⟩
  rw [List.reverse_append, List.reverse_reverse]
  rfl

section Names

variable {first : Ident} {rest : List Ident} {tail : List Token}

theorem qualifiedName_shows (kept : first.Kept d) (more : tail ≠ [])
    (noPoint : ∀ m : Cursor, m.Shows tail → m.current.isOp "." = false)
    (shown : c.Shows (columnTokens d.toLexicon first rest ++ tail)) :
    ∃ next, qualifiedName d.toLexicon c = .ok (first :: rest, next) ∧ next.Shows tail :=
  dottedName_shows (ident_shows kept shown) more noPoint shown

theorem tableName_shows (kept : first.Kept d) (more : tail ≠ [])
    (noPoint : ∀ m : Cursor, m.Shows tail → m.current.isOp "." = false)
    (shown : c.Shows (columnTokens d.toLexicon first rest ++ tail)) :
    ∃ next, tableName d.toLexicon c = .ok (first :: rest, next) ∧ next.Shows tail := by
  refine dottedName_shows (bind_ok (get_apply c) ?_) more noPoint shown
  split
  · exact anyIdent_shows shown
  · exact ident_shows kept shown

end Names

/-! ### What stands behind tables -/

/-- What stands behind the tables of a query or of a group. -/
def fromEnds : List Head := [.finish, .mark ")", .mark ";", .word "WHERE", .word "GROUP", .word "HAVING", .word "ORDER",
  .word "LIMIT", .word "OFFSET", .word "FETCH", .word "UNION", .word "INTERSECT", .word "EXCEPT"]

/-- What stands behind joined tables: also another join. -/
def joinedEnds : List Head :=
  [.mark ",", .word "JOIN", .word "LEFT", .word "RIGHT", .word "FULL", .word "CROSS"] ++ fromEnds

/-- What stands behind one table: also the condition of a join. -/
def tableEnds : List Head := [.word "ON", .word "USING"] ++ joinedEnds

/-- A table that is no join. -/
def TableExpr.IsSingle : TableExpr → Prop
  | .join .. => False
  | _ => True

/-- The table on the left of all joins is one with a name. -/
inductive TableExpr.StartsWithName : TableExpr → Prop
  | ref (pos : Position) (name : List Ident) (label : Option Ident) (final : Bool) :
      StartsWithName (.ref pos name label final)
  | join (pos : Position) (kind : String) {left : TableExpr} (right : TableExpr) (condition : Option Expr)
    (shared : List Ident) (first : left.StartsWithName) : StartsWithName (.join pos kind left right condition shared)

/-- A token behind a parenthesis that opens a group of tables and no query. -/
def Token.StartsGroup (t : Token) : Prop := t.is "SELECT" = false ∧ t.is "WITH" = false ∧ t.isOp "(" = false

/-- Tables with their text and tokens. All of them are read by the rounds of the loop, and one table by itself. -/
structure WrittenTable (d : Dialect) (t : TableExpr) (text : String) (ts : List Token) : Prop where
  printed : ∀ p : Printer, p.dialect = d → p.keyed = false → p.table t = .ok text
  spelled : Spells d.toLexicon text.toList ts
  joined : ∀ (depth : Nat) (c : Cursor) (tail : List Token), ts.length < depth → Follows d.toLexicon joinedEnds tail →
    c.Shows (ts ++ tail) → ∃ first start read next, tableStep d (grammar d depth) c = .ok (first, start) ∧
      Repeats (joinStep d (grammar d depth)) first start read next ∧ next.Shows tail ∧ read.bare = t.bare
  single : t.IsSingle → Parses d (tableStep d) tableEnds (fun read => read.bare = t.bare) ts
  named : t.StartsWithName → ∃ first rest, ts = first :: rest ∧ first.StartsGroup

private theorem joined_of_single {wanted : TableExpr → Prop}
    (single : Parses d (tableStep d) tableEnds wanted ts) (depth : Nat)
    (c : Cursor) (tail : List Token) (enough : ts.length < depth) (follows : Follows d.toLexicon joinedEnds tail)
    (shown : c.Shows (ts ++ tail)) :
    ∃ first start read next, tableStep d (grammar d depth) c = .ok (first, start) ∧
      Repeats (joinStep d (grammar d depth)) first start read next ∧ next.Shows tail ∧ wanted read := by
  have within : ∀ head ∈ joinedEnds, head ∈ tableEnds := fun head member => List.mem_append_right _ member
  obtain ⟨read, next, done, left, same⟩ := single.mono within depth c tail enough follows shown
  exact ⟨read, next, read, next, done, .refl _ _ _, left, same⟩

theorem label_ends : (∀ w ∈ ["AS", "FINAL"], Head.word w ∉ tableEnds) ∧
    ∀ w ∈ queryWords, .word w ∈ tableEnds → w ∈ clauseWords := by
  decide

theorem tableLabel_printed {p : Printer} (target : p.dialect = d) (unkeyed : p.keyed = false) {label : Option Ident}
    (kept : KeptLabel d d.hints.bareTableLabels label) :
    p.tableLabel label = labelText d.toLexicon d.hints.bareTableLabels label := by
  cases label with
  | none => rfl
  | some id =>
    rw [Printer.tableLabel, (kept id rfl).1.printed target unkeyed, target]
    rfl

theorem label_is {bare : Bool} {label : Option Ident} (kept : KeptLabel d bare label) {tail : List Token}
    (follows : Follows d.toLexicon heads tail) {w : String} (clause : w ∈ clauseWords) (other : w ≠ "AS")
    (absent : .word w ∉ heads) (shown : c.Shows (labelTokens d.toLexicon bare label ++ tail)) :
    c.current.is w = false := by
  cases label with
  | none => exact follows.is shown absent
  | some id =>
    obtain ⟨own, free⟩ := kept id rfl
    cases bare with
    | false =>
      have shown : c.Shows (word d.toLexicon "AS" :: id.token d.toLexicon :: tail) := shown
      rw [← is_bare, shown.current, is_word, upper_queryWord "AS" (by decide), beq_eq_false_iff_ne]
      exact other.symm
    | true =>
      have shown : c.Shows (id.token d.toLexicon :: tail) := shown
      rw [← is_bare, shown.current, Ident.token]
      split
      · rfl
      · next bare =>
        rw [is_word, beq_eq_false_iff_ne]
        rintro rfl
        exact free rfl (by simpa using bare) clause

/-! ### Named tables -/

section Named

variable {first : Ident} {rest : List Ident} {label : Option Ident} {final : Bool}

private def finalTokens (lexicon : Lexicon) (final : Bool) : List Token := if final then [word lexicon "FINAL"] else []

private def finalText (final : Bool) : String := if final then " FINAL" else ""

private theorem final_spelled (regular : lexicon.Regular) (final : Bool) :
    SpellsTail lexicon (finalText final).toList (finalTokens lexicon final) := by
  cases final with
  | true =>
    have known : ∀ w ∈ ["FINAL"], w ∈ queryWords := by decide
    exact spellsTail_words regular known
  | false => exact spellsTail_nil

private theorem name_parses (kept : KeptLabel d d.hints.bareTableLabels label) {tail : List Token}
    (follows : Follows d.toLexicon tableEnds tail) (name : List Ident) (pos : Position)
    (shown : c.Shows (finalTokens d.toLexicon final ++
      (labelTokens d.toLexicon d.hints.bareTableLabels label ++ tail))) :
    ∃ next, (do
      let before ← accept "FINAL"
      let label ← label? d.toLexicon
      let final ← if before then pure true else accept "FINAL"
      return .ref pos name label final : Parser TableExpr) c =
      .ok (.ref pos name label final, next) ∧ next.Shows tail := by
  obtain ⟨absent, clauses⟩ := label_ends
  cases final with
  | true =>
    have after : c.advance.Shows (labelTokens d.toLexicon d.hints.bareTableLabels label ++ tail) :=
      Cursor.Shows.advance' shown (List.append_ne_nil_of_right_ne_nil _ follows.nonempty)
    obtain ⟨next, labelled, left⟩ := label_parses kept follows (absent "AS" (by decide)) clauses after
    refine ⟨next, ?_, left⟩
    exact bind_ok (accept_word (by decide) ["FINAL"] (by decide) shown) (bind_ok labelled rfl)
  | false =>
    have shown : c.Shows (labelTokens d.toLexicon d.hints.bareTableLabels label ++ tail) := shown
    have noFinal := label_is kept follows (w := "FINAL") (by decide) (by decide) (absent "FINAL" (by decide)) shown
    obtain ⟨next, labelled, left⟩ := label_parses kept follows (absent "AS" (by decide)) clauses shown
    have ended : accept "FINAL" next = .ok (false, next) := by
      refine accept_none ?_
      simpa using follows.is left (absent "FINAL" (by decide))
    refine ⟨next, ?_, left⟩
    refine bind_ok (accept_none (by simpa using noFinal)) (bind_ok labelled ?_)
    exact bind_ok ended rfl

private theorem behind_name {tail : List Token} (follows : Follows d.toLexicon tableEnds tail) {op : String}
    (absent : .mark op ∉ tableEnds)
    (shown : c.Shows (finalTokens d.toLexicon final ++
      (labelTokens d.toLexicon d.hints.bareTableLabels label ++ tail))) :
    c.current.isOp op = false := by
  cases final with
  | true =>
    have shown : c.Shows (word d.toLexicon "FINAL" ::
      (labelTokens d.toLexicon d.hints.bareTableLabels label ++ tail)) := shown
    rw [← isOp_bare, shown.current]
    exact isOp_word ..
  | false =>
    have shown : c.Shows (labelTokens d.toLexicon d.hints.bareTableLabels label ++ tail) := shown
    cases label with
    | none => exact follows.isOp shown absent
    | some id =>
      generalize d.hints.bareTableLabels = bare at shown
      cases bare with
      | true => exact (congrArg (Token.isOp · op) (Cursor.Shows.current shown)).trans (Ident.isOp_token ..)
      | false => exact (congrArg (Token.isOp · op) (Cursor.Shows.current shown)).trans (isOp_word ..)

private theorem startsGroup_name (ready : d.ReadsQueries) {id : Ident} (kept : id.Kept d) :
    (id.token d.toLexicon).StartsGroup := by
  have noWord (w : String) (start : w ∈ ["SELECT", "WITH"]) : (id.token d.toLexicon).is w = false := by
    unfold Ident.token
    split
    · rfl
    · next bare =>
      have free := (kept (by simpa using bare)).2
      rw [is_word, beq_eq_false_iff_ne]
      rintro rfl
      rw [ready.starts _ start] at free
      cases free
  exact ⟨noWord "SELECT" (by decide), noWord "WITH" (by decide), Ident.isOp_token ..⟩

theorem written_ref (ready : d.ReadsQueries) (kept : ∀ id ∈ first :: rest, id.Kept d)
    (labelled : KeptLabel d d.hints.bareTableLabels label) (modified : final = true → d.hints.finalModifier = true)
    (pos : Position) : ∃ text ts, WrittenTable d (.ref pos (first :: rest) label final) text ts := by
  have regular := ready.regular.lexicon
  have names : ∀ id ∈ first :: rest, id.IsName := fun id member => (kept id member).isName
  refine ⟨columnText d.toLexicon first rest ++ (finalText final ++ labelText d.toLexicon d.hints.bareTableLabels label),
    columnTokens d.toLexicon first rest ++
      (finalTokens d.toLexicon final ++ labelTokens d.toLexicon d.hints.bareTableLabels label), ?_⟩
  have single : Parses d (tableStep d) tableEnds (fun read => read.bare =
    (TableExpr.ref pos (first :: rest) label final).bare)
      (columnTokens d.toLexicon first rest ++
        (finalTokens d.toLexicon final ++ labelTokens d.toLexicon d.hints.bareTableLabels label)) := by
    intro depth c tail enough follows shown
    rw [List.append_assoc, List.append_assoc] at shown
    have more : finalTokens d.toLexicon final ++ (labelTokens d.toLexicon d.hints.bareTableLabels label ++ tail) ≠ [] :=
      List.append_ne_nil_of_right_ne_nil _ (List.append_ne_nil_of_right_ne_nil _ follows.nonempty)
    obtain ⟨middle, named, left⟩ := tableName_shows (kept first List.mem_cons_self) more
      (fun m shown => behind_name follows (by decide) shown) shown
    obtain ⟨next, done, ended⟩ := name_parses labelled follows (first :: rest) c.current.pos left
    have noGroup : c.current.isOp "(" = false := by
      rw [← isOp_bare, Cursor.Shows.current shown]
      exact Ident.isOp_token ..
    refine ⟨.ref c.current.pos (first :: rest) label final, next, bind_ok (get_apply c) ?_, ended, rfl⟩
    rw [noGroup, if_neg (by decide)]
    refine bind_ok named (bind_ok (curOp_apply ..) ?_)
    rw [behind_name follows (by decide) left, if_neg (by decide)]
    exact done
  refine ⟨?_, ?_, joined_of_single single, fun _ => single, fun _ => ?_⟩
  · intro p target unkeyed
    have modifier : (if final && p.dialect.hints.finalModifier then " FINAL" else "") = finalText final := by
      subst target
      cases final with
      | true => simp [modified rfl, finalText]
      | false => rfl
    rw [Printer.table, path_printed kept target unkeyed, tableLabel_printed target unkeyed labelled, modifier,
      String.append_assoc]
  · rw [String.toList_append, String.toList_append]
    exact (spells_column regular ready.quotes names).clauses regular
      ((final_spelled regular final).append regular (label_spelled ready labelled))
  · exact ⟨_, _, rfl, startsGroup_name ready (kept first List.mem_cons_self)⟩

end Named

/-! ### Queries as tables -/

/-- Tokens in parentheses. -/
def enclosed (ts : List Token) : List Token := punctuation "(" :: (ts ++ [punctuation ")"])

theorem enclosed_spelled (regular : lexicon.Regular) {text : String} (spelled : Spells lexicon text.toList ts) :
    Spells lexicon (Printer.paren true text).toList (enclosed ts) := by
  have shape : (Printer.paren true text).toList = '(' :: (text.toList ++ [')']) := by simp [Printer.paren]
  rw [shape]
  exact spelled.paren regular

/-- A token that begins a query. -/
def Token.OpensQuery (t : Token) : Prop := t.is "SELECT" = true ∨ t.isOp "(" = true

theorem Token.OpensQuery.is {t : Token} (opens : t.OpensQuery) {w : String}
    (other : "SELECT" ≠ w) : t.is w = false := by
  obtain select | group := opens
  · exact is_unique select other
  · exact is_of_isOp group w

/-- Tokens of a query. Behind a parenthesis stands the first token of another one. -/
def StartsQuery (ts : List Token) : Prop :=
  ∃ first rest, ts = first :: rest ∧
    (first.is "SELECT" = true ∨ first.isOp "(" = true ∧ ∃ second more, rest = second :: more ∧ second.OpensQuery)

theorem StartsQuery.opens (starts : StartsQuery ts) : ∃ first rest, ts = first :: rest ∧ first.OpensQuery := by
  obtain ⟨first, rest, shape, select | ⟨group, _⟩⟩ := starts
  · exact ⟨first, rest, shape, .inl select⟩
  · exact ⟨first, rest, shape, .inr group⟩

theorem StartsQuery.append (starts : StartsQuery ts) (us : List Token) : StartsQuery (ts ++ us) := by
  obtain ⟨first, rest, rfl, select | ⟨group, second, more, rfl, opens⟩⟩ := starts
  · exact ⟨first, rest ++ us, rfl, .inl select⟩
  · exact ⟨first, _, rfl, .inr ⟨group, second, more ++ us, rfl, opens⟩⟩

theorem StartsQuery.enclosed (starts : StartsQuery ts) : StartsQuery (enclosed ts) := by
  obtain ⟨first, rest, rfl, opens⟩ := starts.opens
  exact ⟨_, _, rfl, .inr ⟨by decide, first, rest ++ [punctuation ")"], rfl, opens⟩⟩

/-- A query with its text and tokens. It is read as it is at the end and in parentheses. -/
structure WholeQuery (d : Dialect) (q : Query) (text : String) (ts : List Token) : Prop where
  printed : ∀ p : Printer, p.dialect = d → p.keyed = false → p.queryText q = .ok text
  spelled : Spells d.toLexicon text.toList ts
  starts : StartsQuery ts
  parses : Parses d (queryStep d) queryEnds (fun read => read.bare = q.bare) ts

section Derived

variable {q : Query} {text : String}

/-- In parentheses the grammar of the inside is one level less deep. -/
theorem WholeQuery.inside (whole : WholeQuery d q text ts) (depth : Nat) {tail : List Token}
    (enough : (enclosed ts).length < depth) (shown : c.Shows (ts ++ punctuation ")" :: tail)) :
    ∃ read next, (grammar d depth).query c = .ok (read, next) ∧ next.Shows (punctuation ")" :: tail) ∧
    read.bare = q.bare := by
  simp only [enclosed, List.length_cons, List.length_append, List.length_nil] at enough
  obtain ⟨depth, rfl⟩ := Nat.exists_eq_succ_of_ne_zero (show depth ≠ 0 by omega)
  have closes : Follows d.toLexicon queryEnds (punctuation ")" :: tail) := ⟨.mark ")", by decide, by decide, _, rfl⟩
  exact whole.parses depth c _ (by omega) closes shown

theorem written_derived (ready : d.ReadsQueries) (whole : WholeQuery d q text ts) {label : Option Ident}
    (labelled : KeptLabel d d.hints.bareTableLabels label) (pos : Position) :
    ∃ text ts, WrittenTable d (.derived pos q label) text ts := by
  have regular := ready.regular.lexicon
  obtain ⟨absent, clauses⟩ := label_ends
  refine ⟨Printer.paren true text ++ labelText d.toLexicon d.hints.bareTableLabels label,
    enclosed ts ++ labelTokens d.toLexicon d.hints.bareTableLabels label, ?_⟩
  have single : Parses d (tableStep d) tableEnds (fun read => read.bare = (TableExpr.derived pos q label).bare)
      (enclosed ts ++ labelTokens d.toLexicon d.hints.bareTableLabels label) := by
    intro depth c tail enough follows shown
    rw [List.length_append] at enough
    obtain ⟨first, rest, rfl, opens⟩ := whole.starts.opens
    have shown : c.Shows (punctuation "(" :: first :: (rest ++ punctuation ")" ::
        (labelTokens d.toLexicon d.hints.bareTableLabels label ++ tail))) := by
      simpa [enclosed] using shown
    have isOpen : c.current.isOp "(" = true := by
      rw [← isOp_bare, shown.current]
      decide
    have isQuery : (c.peek.is "SELECT" || c.peek.is "WITH" || c.peek.isOp "(") = true := by
      rw [Token.OpensQuery, ← shown.peek, is_bare, isOp_bare] at opens
      obtain select | group := opens
      · rw [select, Bool.true_or, Bool.true_or]
      · rw [group, Bool.or_true]
    obtain ⟨read, middle, done, left, same⟩ := whole.inside depth (by omega) shown.advance
    have after := left.advance' (List.append_ne_nil_of_right_ne_nil _ follows.nonempty)
    obtain ⟨next, named, ended⟩ := label_parses labelled follows (absent "AS" (by decide)) clauses after
    refine ⟨.derived c.current.pos read label, next, bind_ok (get_apply c) ?_, ended, ?_⟩
    · rw [isOpen, if_pos rfl]
      refine bind_ok (advance_apply c) ?_
      rw [isQuery, if_pos rfl]
      exact bind_ok done (bind_ok (expectOp_mark left) (bind_ok named rfl))
    · simp only [TableExpr.bare, same]
  refine ⟨?_, ?_, joined_of_single single, fun _ => single, by nofun⟩
  · intro p target unkeyed
    rw [Printer.table, whole.printed p target unkeyed, tableLabel_printed target unkeyed labelled]
    rfl
  · rw [String.toList_append]
    exact (enclosed_spelled regular whole.spelled).clauses regular (label_spelled ready labelled)

end Derived

/-! ### Joins -/

/-- What a join with a side keeps of its rows, and the words for it. -/
def sidedForms : List (String × List String) := [
  ("JOIN", ["JOIN"]), ("SEMI JOIN", ["SEMI", "JOIN"]), ("ANTI JOIN", ["ANTI", "JOIN"])]

/-- What a join is called and the words for it. -/
inductive JoinForm : String → List String → Prop
  | plain : JoinForm "JOIN" ["JOIN"]
  | sided {side form : String} {ws : List String} (known : side ∈ ["LEFT", "RIGHT", "FULL", "CROSS"])
    (listed : (form, ws) ∈ sidedForms) : JoinForm (side ++ " " ++ form) (side :: ws)

section Join

variable {kind : String} {ws : List String}

theorem JoinForm.words (form : JoinForm kind ws) :
    (∀ w ∈ ws, w ∈ queryWords) ∧ wordsText ws = ' ' :: kind.toList ∧ kind ≠ "," := by
  cases form with
  | plain => decide
  | @sided side form ws known listed =>
    have sides : ∀ side ∈ ["LEFT", "RIGHT", "FULL", "CROSS"], side ∈ queryWords := by decide
    have forms : ∀ entry ∈ sidedForms, (∀ w ∈ entry.2, w ∈ queryWords) ∧ wordsText entry.2 = ' ' :: entry.1.toList ∧
        0 < entry.1.length := by decide
    obtain ⟨inside, shape, long⟩ := forms _ listed
    refine ⟨List.forall_mem_cons.mpr ⟨sides side known, inside⟩, by simp [wordsText, shape], fun equal => ?_⟩
    have sizes := congrArg String.length equal
    rw [String.length_append, String.length_append] at sizes
    have blank : " ".length = 1 := by decide
    have comma : ",".length = 1 := by decide
    dsimp only at long
    omega

private theorem word_is {w : String} (known : w ∈ queryWords)
    (shown : c.Shows (word d.toLexicon w :: ts)) (v : String) :
    c.current.is v = (w == v) := by
  rw [← is_bare, shown.current, is_word, upper_queryWord w known]

private theorem word_upper {w : String} (known : w ∈ queryWords) (shown : c.Shows (word d.toLexicon w :: ts)) :
    (if c.current.isWord = true then joinKinds.lookup c.current.upper else none) = joinKinds.lookup w := by
  have isWord : c.current.isWord = true := by
    rw [← isWord_bare, shown.current]
    exact isWord_word ..
  rw [isWord, if_pos rfl, ← upper_bare, shown.current, upper_word, upper_queryWord w known]

private theorem join_accepted {next : Cursor} (shown : c.Shows (word d.toLexicon "JOIN" :: ts)) (more : ts ≠ [])
    {words : Parser String} (read : words next = .ok (kind, c)) :
    (do
      let kind ← words
      if ← accept "JOIN" then return some kind
      set next
      return none : Parser (Option String)) next = .ok (some kind, c.advance) ∧ c.advance.Shows ts :=
  ⟨bind_ok read (bind_ok (accept_word (by decide) ["JOIN"] (by decide) shown) rfl), shown.advance' more⟩

private theorem no_words {w : String} (known : w ∈ queryWords)
    (shown : c.Shows (word d.toLexicon w :: ts)) (words : List String)
    (apart : w ∉ words) : acceptAny words c = .ok (false, c) := by
  refine accept_none (List.any_eq_false.mpr fun v member => ?_)
  rw [word_is known shown, beq_iff_eq]
  rintro rfl
  exact apart member

/-- Behind the side of a join stands what it keeps. -/
private theorem sided_shows {form : String} (listed : (form, ws) ∈ sidedForms) (side : String)
    (shown : c.Shows (ws.map (word d.toLexicon) ++ ts)) :
    ∃ next, (do
      let form ← do
        if ← accept "SEMI" then pure "SEMI JOIN"
        else if ← accept "ANTI" then pure "ANTI JOIN"
        else pure "JOIN"
      let _ ← accept "OUTER"
      return side ++ form : Parser String) c = .ok (side ++ form, next) ∧
      next.Shows (word d.toLexicon "JOIN" :: ts) := by
  simp only [sidedForms, List.mem_cons, List.not_mem_nil, or_false, Prod.mk.injEq] at listed
  obtain ⟨rfl, rfl⟩ | ⟨rfl, rfl⟩ | ⟨rfl, rfl⟩ := listed
  · have shown : c.Shows (word d.toLexicon "JOIN" :: ts) := shown
    have no (w : String) (apart : "JOIN" ∉ [w]) : accept w c = .ok (false, c) := no_words (by decide) shown [w] apart
    refine ⟨c, bind_ok (no "SEMI" (by decide)) (bind_ok (no "ANTI" (by decide)) ?_), shown⟩
    exact bind_ok (pure_apply ..) (bind_ok (no "OUTER" (by decide)) rfl)
  · have shown : c.Shows (word d.toLexicon "SEMI" :: word d.toLexicon "JOIN" :: ts) := shown
    have after := shown.advance
    refine ⟨c.advance, bind_ok (accept_word (by decide) ["SEMI"] (by decide) shown) ?_, after⟩
    exact bind_ok (pure_apply ..) (bind_ok (no_words (by decide) after ["OUTER"] (by decide)) rfl)
  · have shown : c.Shows (word d.toLexicon "ANTI" :: word d.toLexicon "JOIN" :: ts) := shown
    have after := shown.advance
    refine ⟨c.advance, bind_ok (no_words (by decide) shown ["SEMI"] (by decide)) ?_, after⟩
    refine bind_ok (accept_word (by decide) ["ANTI"] (by decide) shown) ?_
    exact bind_ok (pure_apply ..) (bind_ok (no_words (by decide) after ["OUTER"] (by decide)) rfl)

theorem joinKind_shows (form : JoinForm kind ws) (more : ts ≠ []) (shown : c.Shows (ws.map (word d.toLexicon) ++ ts)) :
    ∃ next, joinKind? c = .ok (some kind, next) ∧ next.Shows ts := by
  cases form with
  | plain =>
    have shown : c.Shows (word d.toLexicon "JOIN" :: ts) := shown
    have words : joinWords c = .ok ("JOIN", c) := by
      refine bind_ok (no_words (by decide) shown ["GLOBAL"] (by decide)) ?_
      refine bind_ok (no_words (by decide) shown ["ALL", "ANY"] (by decide)) (bind_ok (current_apply c) ?_)
      rw [word_upper (by decide) shown]
      rfl
    obtain ⟨done, left⟩ := join_accepted shown more words
    refine ⟨c.advance, bind_ok (get_apply c) ?_, left⟩
    rw [word_is (by decide) shown, word_is (by decide) shown]
    exact done
  | @sided side form ws known listed =>
    have sides : ∀ side ∈ ["LEFT", "RIGHT", "FULL", "CROSS"], side ∈ queryWords ∧ side ∉ ["GLOBAL"] ∧
      side ∉ ["ALL", "ANY"] ∧
        side ≠ "ARRAY" ∧ joinKinds.lookup side = some (side ++ " ") := by decide
    have forms : ∀ entry ∈ sidedForms, ∃ w ∈ queryWords, entry.2.head? = some w ∧ w ≠ "ARRAY" := by decide
    obtain ⟨own, noGlobal, noAll, noArray, found⟩ := sides side known
    obtain ⟨w, inside, headed, apart⟩ := forms _ listed
    have shown : c.Shows (word d.toLexicon side :: (ws.map (word d.toLexicon) ++ ts)) := shown
    have nonempty : ws.map (word d.toLexicon) ++ ts ≠ [] := List.append_ne_nil_of_right_ne_nil _ more
    have noPeek : c.peek.is "ARRAY" = false := by
      obtain ⟨rest, rfl⟩ : ∃ rest, ws = w :: rest := List.head?_eq_some_iff.mp headed
      have peeked : c.peek.bare = word d.toLexicon w := Cursor.Shows.peek shown
      rw [← is_bare, peeked, is_word, upper_queryWord w inside, beq_eq_false_iff_ne]
      exact apart
    obtain ⟨middle, done, left⟩ := sided_shows listed (side ++ " ") (shown.advance' nonempty)
    have words : joinWords c = .ok (side ++ " " ++ form, middle) := by
      refine bind_ok (no_words own shown ["GLOBAL"] noGlobal) ?_
      refine bind_ok (no_words own shown ["ALL", "ANY"] noAll) (bind_ok (current_apply c) ?_)
      rw [word_upper own shown, found]
      exact bind_ok (advance_apply c) done
    obtain ⟨done, ended⟩ := join_accepted left more words
    refine ⟨middle.advance, bind_ok (get_apply c) ?_, ended⟩
    rw [word_is own shown, beq_eq_false_iff_ne.mpr noArray, noPeek, Bool.and_false]
    exact done

end Join

section Group

variable {t : TableExpr} {text : String}

/-- Behind the tables of a query or of a group stands no join. -/
theorem joinStep_stops {tail : List Token} (follows : Follows d.toLexicon fromEnds tail)
    (shown : c.Shows tail) (g : Grammar)
    (left : TableExpr) : joinStep d g left c = .ok (none, c) := by
  have no (words : List String) (absent : ∀ w ∈ words, .word w ∉ fromEnds) : acceptAny words c = .ok (false, c) :=
    accept_none (follows.any_is shown absent)
  have noComma : acceptOp "," c = .ok (false, c) := by
    rw [acceptOp_apply, follows.isOp shown (by decide)]
    rfl
  have noKind : (if c.current.isWord = true then joinKinds.lookup c.current.upper else none) = none := by
    obtain ⟨head, member, known, rest, rfl⟩ := follows
    have noSide : ∀ w ∈ queryWords, .word w ∈ fromEnds → joinKinds.lookup w = none := by decide
    obtain rfl | ⟨mark, _, rfl⟩ | ⟨w, listed, rfl⟩ := Head.cases_of_mem known
    · rw [← isWord_bare, shown.current]
      rfl
    · rw [← isWord_bare, shown.current]
      rfl
    · rw [word_upper listed shown]
      exact noSide w listed member
  have words : joinWords c = .ok ("JOIN", c) := by
    refine bind_ok (no ["GLOBAL"] (by decide)) (bind_ok (no ["ALL", "ANY"] (by decide)) (bind_ok (current_apply c) ?_))
    rw [noKind]
    rfl
  have noJoin : joinKind? c = .ok (none, c) := by
    refine bind_ok (get_apply c) ?_
    rw [follows.is shown (by decide), follows.is shown (by decide), Bool.false_and, Bool.or_false, if_neg (by decide)]
    exact bind_ok words (bind_ok (no ["JOIN"] (by decide)) rfl)
  exact bind_ok (position_apply c) (bind_ok noComma (bind_ok noJoin rfl))

theorem WrittenTable.parses (written : WrittenTable d t text ts) :
    Parses d (tablesStep d) fromEnds (fun read => read.bare = t.bare) ts := by
  intro depth c tail enough follows shown
  have within : ∀ head ∈ fromEnds, head ∈ joinedEnds := fun head member => List.mem_append_right _ member
  obtain ⟨first, start, read, next, begun, repeats, left, same⟩ :=
    written.joined depth c tail enough (follows.mono within) shown
  exact ⟨read, next, bind_ok begun (repeats.loop (joinStep_stops follows left _ read)), left, same⟩

/-- What can stand on the right of a join: one table, or a group that is printed in parentheses. A group that begins
with a parenthesis would be taken for a query. -/
def TableExpr.StandsRight (t : TableExpr) : Prop := t.IsSingle ∨ t.needsParens = true ∧ t.StartsWithName

theorem WrittenTable.operand (ready : d.ReadsQueries) (written : WrittenTable d t text ts) (stands : t.StandsRight) :
    ∃ us, Spells d.toLexicon (Printer.paren t.needsParens text).toList us ∧
      Parses d (tableStep d) tableEnds (fun read => read.bare = t.bare) us := by
  obtain single | ⟨parens, named⟩ := stands
  · refine ⟨ts, ?_, written.single single⟩
    have plain : t.needsParens = false := by
      cases t with
      | join => cases single
      | _ => rfl
    rw [plain]
    exact written.spelled
  · rw [parens]
    refine ⟨_, enclosed_spelled ready.regular.lexicon written.spelled, ?_⟩
    intro depth c tail enough follows shown
    obtain ⟨first, rest, rfl, noSelect, noWith, noGroup⟩ := written.named named
    have shown : c.Shows (punctuation "(" :: first :: (rest ++ punctuation ")" :: tail)) :=
      by simpa [enclosed] using shown
    have isOpen : c.current.isOp "(" = true := by
      rw [← isOp_bare, shown.current]
      decide
    have noQuery : (c.peek.is "SELECT" || c.peek.is "WITH" || c.peek.isOp "(") = false := by
      rw [← is_bare, ← is_bare c.peek, ← isOp_bare, shown.peek, noSelect, noWith, noGroup]
      rfl
    simp only [enclosed, List.length_cons, List.length_append, List.length_nil] at enough
    obtain ⟨depth, rfl⟩ := Nat.exists_eq_succ_of_ne_zero (show depth ≠ 0 by omega)
    have closes : Follows d.toLexicon fromEnds (punctuation ")" :: tail) := ⟨.mark ")", by decide, by decide, _, rfl⟩
    obtain ⟨read, middle, done, left, same⟩ :=
      written.parses depth c.advance _ (by rw [List.length_cons]; omega) closes shown.advance
    refine ⟨read, middle.advance, bind_ok (get_apply c) ?_, left.advance' follows.nonempty, same⟩
    rw [isOpen, if_pos rfl]
    refine bind_ok (advance_apply c) ?_
    rw [noQuery, if_neg (by decide)]
    exact bind_ok done (bind_ok (expectOp_mark left) rfl)

end Group

section Conditions

variable {condition : Option Expr} {shared : List Ident} {text : String}

/-- A name that two tables share. -/
def WrittenName (d : Dialect) (id : Ident) (text : String) (ts : List Token) : Prop :=
  id.Kept d ∧ text = id.spelling d.toLexicon ∧ ts = [id.token d.toLexicon]

/-- What stands behind the tables of a join: a condition, names that the tables share, or nothing. -/
inductive WrittenCondition (d : Dialect) : Option Expr → List Ident → String → List Token → Prop
  | missing : WrittenCondition d none [] "" []
  | on {e : Expr} {text : String} {ts : List Token} (written : WrittenValue d e text ts) :
    WrittenCondition d (some e) [] (" ON " ++ text) (word d.toLexicon "ON" :: ts)
  | shared {ids : List Ident} {texts : List String} {ts : List Token} (series : Series (WrittenName d) ids texts ts) :
    WrittenCondition d none ids (" USING " ++ Printer.paren true (Printer.commas texts))
    (word d.toLexicon "USING" :: enclosed ts)

theorem names_printed {p : Printer} (target : p.dialect = d) (unkeyed : p.keyed = false)
    {ids : List Ident} {texts : List String}
    (series : Series (WrittenName d) ids texts ts) : ids.map p.ident = texts := by
  induction series with
  | single own =>
    obtain ⟨kept, rfl, _⟩ := own
    simp [kept.printed target unkeyed]
  | cons own _ ih =>
    obtain ⟨kept, rfl, _⟩ := own
    simp [kept.printed target unkeyed, ih]

theorem name_parses_shared (id : Ident) (text : String) (ts : List Token) (written : WrittenName d id text ts) :
    Parses d (fun _ => anyIdent) [.mark ",", .mark ")"] (· = id) ts := by
  intro depth c tail _ follows shown
  obtain ⟨_, _, rfl⟩ := written
  have shown : c.Shows (id.token d.toLexicon :: tail) := shown
  exact ⟨id, c.advance, anyIdent_shows shown, shown.advance' follows.nonempty, rfl⟩

theorem WrittenCondition.spelled (ready : d.ReadsQueries) (written : WrittenCondition d condition shared text ts) :
    SpellsTail d.toLexicon text.toList ts := by
  have regular := ready.regular.lexicon
  cases written with
  | missing => exact spellsTail_nil
  | on written => simpa using spellsTail_word regular (w := "ON") (by decide) written.spelled
  | shared series =>
    have names := series.spelled regular (by
      rintro id _ _ ⟨kept, rfl, rfl⟩
      exact spells_token regular ready.quotes kept.isName)
    have list := enclosed_spelled regular names
    simpa using spellsTail_word regular (w := "USING") (by decide) list

theorem WrittenCondition.follows (written : WrittenCondition d condition shared text ts) {tail : List Token}
    (follows : Follows d.toLexicon joinedEnds tail) : Follows d.toLexicon tableEnds (ts ++ tail) := by
  cases written with
  | missing => exact follows.mono fun head member => List.mem_append_right _ member
  | on => exact ⟨.word "ON", by decide, by decide, _, rfl⟩
  | shared => exact ⟨.word "USING", by decide, by decide, _, rfl⟩

theorem WrittenCondition.printed (written : WrittenCondition d condition shared text ts)
    {p : Printer} (target : p.dialect = d)
    (unkeyed : p.keyed = false) (head : String) : (do
      match ← p.exprOption condition with
      | some text => return head ++ " ON " ++ text
      | none => return if shared.isEmpty then head else head ++ " USING (" ++ p.idents shared ++ ")" :
          Except Error String) =
    .ok (head ++ text) := by
  cases written with
  | missing => simp [Printer.exprOption, pure, Except.pure, bind, Except.bind]
  | on written => simp [Printer.exprOption, written.printed p target unkeyed, pure, Except.pure, bind,
      Except.bind, String.append_assoc]
  | shared series =>
    have nonempty : shared ≠ [] := by
      rintro rfl
      cases series
    have opens : " USING (" = " USING " ++ "(" := rfl
    simp [Printer.exprOption, nonempty, Printer.idents, names_printed target unkeyed series, Printer.paren,
      pure, Except.pure, bind,
      Except.bind, String.append_assoc]
    rw [opens, String.append_assoc]

theorem WrittenCondition.parses (ready : d.ReadsQueries)
    (written : WrittenCondition d condition shared text ts) (depth : Nat)
    {tail : List Token} (enough : ts.length < depth)
      (follows : Follows d.toLexicon joinedEnds tail) (shown : c.Shows (ts ++ tail))
    (pos : Position) (kind : String) (left right : TableExpr) :
    ∃ read next, (do
      if ← accept "ON" then
        let condition ← (grammar d depth).value
        return some (.join pos kind left right (some condition) [])
      if ← accept "USING" then
        let shared ← identList
        return some (.join pos kind left right none shared)
      return some (.join pos kind left right none []) : Parser (Option TableExpr)) c =
        .ok (some (.join pos kind left right read shared), next) ∧ next.Shows tail ∧
        bareOption read = bareOption condition := by
  cases written with
  | missing =>
    have no (w : String) (absent : .word w ∉ joinedEnds) : accept w c = .ok (false, c) :=
      accept_none (by simpa using follows.is shown absent)
    exact ⟨none, c, bind_ok (no "ON" (by decide)) (bind_ok (no "USING" (by decide)) rfl), shown, rfl⟩
  | @on e text ts written =>
    have shown : c.Shows (word d.toLexicon "ON" :: (ts ++ tail)) := shown
    have known : ∀ head ∈ joinedEnds, head ∈ allHeads := by decide
    have after := shown.advance' (List.append_ne_nil_of_right_ne_nil ts follows.nonempty)
    obtain ⟨read, next, done, left, same⟩ :=
      written.parses ready depth _ tail (Nat.lt_of_succ_lt enough) (follows.mono known) after
    refine ⟨some read, next, ?_, left, congrArg some same⟩
    exact bind_ok (accept_word (by decide) ["ON"] (by decide) shown) (bind_ok done rfl)
  | @shared _ texts ts series =>
    have shown : c.Shows (word d.toLexicon "USING" :: punctuation "(" :: (ts ++ punctuation ")" :: tail)) := by
      simpa [enclosed] using shown
    have opened := shown.advance
    have after := opened.advance' (List.append_ne_nil_of_right_ne_nil ts (List.cons_ne_nil _ tail))
    have closes : Follows d.toLexicon [.mark ")"] (punctuation ")" :: tail) := ⟨.mark ")", by decide, by decide, _, rfl⟩
    obtain ⟨read, middle, done, left, same⟩ :=
      series.parses name_parses_shared (by decide) depth _ _ (by simp [enclosed] at enough; omega) closes after
    rw [List.forall₂_eq_eq_eq] at same
    subst same
    have names : identList c.advance = .ok (read, middle.advance) :=
      bind_ok (expectOp_mark opened) (bind_ok done (bind_ok (expectOp_mark left) rfl))
    have noOn : accept "ON" c = .ok (false, c) := no_words (by decide) shown ["ON"] (by decide)
    refine ⟨none, middle.advance, bind_ok noOn ?_, left.advance' follows.nonempty, rfl⟩
    exact bind_ok (accept_word (by decide) ["USING"] (by decide) shown) (bind_ok names rfl)

end Conditions

section Join

variable {left right : TableExpr} {leftText rightText text kind : String}
    {condition : Option Expr} {shared : List Ident}
  {fs : List Token}

/-- The tokens are read as one more join behind tables that are read as those on the left. -/
private def Joins (d : Dialect) (left joined : TableExpr) (ts : List Token) : Prop :=
  ∀ (depth : Nat) (c : Cursor) (tail : List Token) (read : TableExpr), ts.length < depth →
  Follows d.toLexicon joinedEnds tail →
    c.Shows (ts ++ tail) → read.bare = left.bare →
      ∃ whole next, joinStep d (grammar d depth) read c = .ok (some whole, next) ∧ next.Shows tail ∧
      whole.bare = joined.bare

private theorem written_round (pos : Position) (first : WrittenTable d left leftText ts)
    (printed : ∀ p : Printer, p.dialect = d → p.keyed = false →
      p.table (.join pos kind left right condition shared) = .ok text)
    (spelled : Spells d.toLexicon text.toList (ts ++ us))
    (opens : ∀ tail, Follows d.toLexicon joinedEnds (us ++ tail))
    (joins : Joins d left (.join pos kind left right condition shared) us) (nonempty : us ≠ []) :
    WrittenTable d (.join pos kind left right condition shared) text (ts ++ us) := by
  refine ⟨printed, spelled, ?_, False.elim, ?_⟩
  · intro depth c tail enough follows shown
    rw [List.length_append] at enough
    rw [List.append_assoc] at shown
    obtain ⟨one, start, read, middle, begun, repeats, left, same⟩ :=
      first.joined depth c _ (by omega) (opens tail) shown
    obtain ⟨whole, next, stepped, ended, equal⟩ := joins depth middle tail read (by omega) follows left same
    have shorter := left.shorter ended (by simp [List.length_pos_iff.mpr nonempty])
    exact ⟨one, start, whole, next, begun, repeats.snoc stepped shorter, ended, equal⟩
  · rintro ⟨⟩
    next starts =>
      obtain ⟨one, rest, rfl, group⟩ := first.named starts
      exact ⟨one, rest ++ us, rfl, group⟩

theorem written_comma (ready : d.ReadsQueries) (first : WrittenTable d left leftText ts)
    (second : WrittenTable d right rightText us)
    (stands : right.StandsRight) (pos : Position) :
    ∃ text ts, WrittenTable d (.join pos "," left right none []) text ts := by
  obtain ⟨vs, spelled, parses⟩ := second.operand ready stands
  refine ⟨leftText ++ ", " ++ Printer.paren right.needsParens rightText, ts ++ punctuation "," :: vs, ?_⟩
  refine written_round pos first ?_ ?_ (fun tail => ⟨.mark ",", by decide, by decide, _, rfl⟩) ?_ (List.cons_ne_nil _ _)
  · intro p target unkeyed
    rw [Printer.table, first.printed p target unkeyed, second.printed p target unkeyed]
    rfl
  · simpa using first.spelled.comma ready.regular.lexicon spelled
  · intro depth c tail read enough follows shown same
    have shown : c.Shows (punctuation "," :: (vs ++ tail)) := shown
    have comma : acceptOp "," c = .ok (true, c.advance) := by
      rw [acceptOp_apply, ← isOp_bare, shown.current]
      rfl
    have within : ∀ head ∈ joinedEnds, head ∈ tableEnds := fun head member => List.mem_append_right _ member
    have after := shown.advance' (List.append_ne_nil_of_right_ne_nil vs follows.nonempty)
    obtain ⟨one, next, done, ended, equal⟩ :=
      parses depth _ tail (Nat.lt_of_succ_lt enough) (follows.mono within) after
    refine ⟨.join c.current.pos "," read one none [], next, ?_, ended, ?_⟩
    · exact bind_ok (position_apply c) (bind_ok comma (bind_ok done rfl))
    · simp only [TableExpr.bare, same, equal]

theorem written_join (ready : d.ReadsQueries) (first : WrittenTable d left leftText ts)
    (second : WrittenTable d right rightText us)
    (stands : right.StandsRight) {ws : List String} (form : JoinForm kind ws)
    (written : WrittenCondition d condition shared text fs) (pos : Position) :
    ∃ text ts, WrittenTable d (.join pos kind left right condition shared) text ts := by
  have regular := ready.regular.lexicon
  obtain ⟨vs, spelled, parses⟩ := second.operand ready stands
  obtain ⟨known, shape, noComma⟩ := form.words
  obtain ⟨w, rest, rfl, opens⟩ : ∃ w rest, ws = w :: rest ∧ .word w ∈ joinedEnds := by
    cases form with
    | plain => exact ⟨_, _, rfl, by decide⟩
    | sided member =>
      refine ⟨_, _, rfl, ?_⟩
      simp only [List.mem_cons, List.not_mem_nil, or_false] at member
      obtain rfl | rfl | rfl | rfl := member <;> decide
  refine ⟨leftText ++ (" " ++ kind ++ " ") ++ Printer.paren right.needsParens rightText ++ text,
    ts ++ ((w :: rest).map (word d.toLexicon) ++ (vs ++ fs)), ?_⟩
  refine written_round pos first ?_ ?_ (fun tail => ⟨.word w, opens, by simp [allHeads, known], _, rfl⟩) ?_ (by simp)
  · intro p target unkeyed
    rw [Printer.table, first.printed p target unkeyed, second.printed p target unkeyed]
    simp only [bind, Except.bind, if_neg noComma]
    exact written.printed target unkeyed _
  · have words := spellsTail_words regular known
    have behind := spelled.clauses regular (written.spelled ready)
    have whole := first.spelled.clauses regular (words.append regular (.inr ⟨_, rfl, behind⟩))
    simpa [shape] using whole
  · intro depth c tail read enough follows shown same
    simp only [List.length_append] at enough
    rw [List.append_assoc, List.append_assoc] at shown
    have more : vs ++ (fs ++ tail) ≠ [] :=
      List.append_ne_nil_of_right_ne_nil _ (List.append_ne_nil_of_right_ne_nil _ follows.nonempty)
    obtain ⟨start, named, left⟩ := joinKind_shows form more shown
    obtain ⟨one, middle, done, left, equal⟩ := parses depth start _ (by omega) (written.follows follows) left
    obtain ⟨value, next, ended, left, alike⟩ := written.parses ready depth
      (by omega) follows left c.current.pos kind read one
    have noMark : acceptOp "," c = .ok (false, c) := by
      have shown : c.Shows (word d.toLexicon w :: (rest.map (word d.toLexicon) ++ (vs ++ (fs ++ tail)))) := shown
      rw [acceptOp_apply, ← isOp_bare, shown.current, isOp_word]
      rfl
    refine ⟨.join c.current.pos kind read one value shared, next, ?_, left, ?_⟩
    · exact bind_ok (position_apply c) (bind_ok noMark (bind_ok named (bind_ok done ended)))
    · simp only [TableExpr.bare, same, equal, alike]

end Join

end SqlDialects
