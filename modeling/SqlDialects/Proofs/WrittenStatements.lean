import SqlDialects.Proofs.WrittenColumns

/-! Statements as texts: queries, values, drops, views of a query, and tables of columns or of a query. Each is read
in front of a semicolon as in front of the end. -/

namespace SqlDialects

open Token SqlDialects.Parser

variable {d : Dialect} {lexicon : Lexicon} {c : Cursor}

/-! ### Queries and values -/

theorem operandStep_refuses {g : Grammar} (ends : c.current.isFinish = true ∨ c.current.isOp ";" = true) :
    ∃ fault, operandStep d g c = .error fault := by
  have other (op : String) (apart : ";" ≠ op) : c.current.isOp op = false := by
    obtain finished | mark := ends
    · exact isOp_finish finished op
    · simp only [isOp, Bool.and_eq_true, beq_iff_eq] at mark
      simp [isOp, mark.2, apart]
  have kind : c.current.kind = .finish ∨ c.current.kind = .operator ∨ c.current.kind = .punctuation := by
    obtain finished | mark := ends
    · exact .inl (by simpa [isFinish] using finished)
    · simp only [isOp, Bool.and_eq_true, Bool.or_eq_true, beq_iff_eq] at mark
      exact .inr mark.1
  obtain kind | kind | kind := kind <;>
  · simp only [operandStep, bind_apply, current_apply, ok_bind, kind, other "(" (by decide), other "[" (by decide),
      other "\x7b" (by decide), other "-" (by decide), other "+" (by decide), other "~" (by decide),
      other "!" (by decide),
      other "*" (by decide), Bool.false_eq_true, if_false]
    exact ⟨_, rfl⟩

theorem value_goes_on {depth : Nat} {read : Expr} {next : Cursor}
    (parsed : (grammar d (depth + 1)).value c = .ok (read, next)) :
    c.current.isOp ";" = false ∧ c.current.isFinish = false := by
  have refused (ends : c.current.isFinish = true ∨ c.current.isOp ";" = true) : False := by
    obtain ⟨fault, failed⟩ := operandStep_refuses (d := d) (g := grammar d depth) ends
    have value : (grammar d (depth + 1)).value c = .error fault := by
      change exprStep d (grammar d depth) 0 c = _
      rw [exprStep, bind_apply, failed, error_bind]
    rw [value] at parsed
    cases parsed
  exact ⟨Bool.eq_false_iff.mpr fun mark => refused (.inr mark), Bool.eq_false_iff.mpr fun ended => refused (.inl ended)⟩

theorem WholeQuery.standalone {q : Query} {text : String} {ts : List Token} (whole : WholeQuery d q text ts) :
    Standalone d (fun s => ∃ read, s = .query read ∧ read.bare = q.bare) ts := by
  refine ⟨whole.statement, ?_⟩
  obtain ⟨first, rest, shape, opens⟩ := whole.starts.opens
  refine ⟨first, rest, shape, ?_⟩
  obtain select | group := opens
  · constructor
    · cases held : first.isOp ";" with
      | false => rfl
      | true => exact absurd select (by rw [is_of_isOp held]; decide)
    · cases held : first.isFinish with
      | false => rfl
      | true => exact absurd select (by rw [is_of_isFinish held]; decide)
  · simp only [isOp, Bool.and_eq_true, Bool.or_eq_true, beq_iff_eq] at group
    obtain ⟨kind, text⟩ := group
    refine ⟨by simp [isOp, text], ?_⟩
    obtain kind | kind := kind <;> simp [isFinish, kind]

/-- The token at hand and the next one start no other statement and no query. -/
private theorem leading_value {ts : List Token} (words : ∀ t ∈ ts, t.Ordinary) (nonempty : ts ≠ [])
    (single : (ts.takeWhile (·.isOp "(")).length < 2) {tail : List Token}
      (follows : Follows d.toLexicon statementEnds tail)
    (shown : c.Shows (ts ++ tail)) : c.current.Ordinary ∧
      (c.current.isOp "(" && (c.peek.is "SELECT" || c.peek.is "WITH" || c.peek.isOp "(")) = false := by
  have blind (t : Token) (held : t.bare.Ordinary) : t.Ordinary := held
  obtain ⟨head, member, known, rest, rfl⟩ := follows
  have apart : (∀ w, head ≠ .word w) ∧ head ≠ .mark "(" := by
    simp only [statementEnds, List.mem_cons, List.not_mem_nil, or_false] at member
    obtain rfl | rfl := member <;> simp
  have last : (head.token d.toLexicon).Ordinary ∧ (head.token d.toLexicon).isOp "(" = false := by
    refine ⟨fun w _ => ?_, ?_⟩
    · rw [Head.is_token known, decide_eq_false (apart.1 w)]
    · rw [Head.isOp_token known, decide_eq_false apart.2]
  obtain ⟨t, ts, rfl⟩ := List.exists_cons_of_ne_nil nonempty
  refine ⟨blind _ (by rw [shown.current]; exact words t List.mem_cons_self), ?_⟩
  obtain ⟨u, more, shape, ordinary, apart⟩ : ∃ u more, ts ++ head.token d.toLexicon :: rest = u :: more ∧ u.Ordinary ∧
      (t.isOp "(" = true → u.isOp "(" = false) := by
    cases ts with
    | nil => exact ⟨_, rest, rfl, last.1, fun _ => last.2⟩
    | cons u us =>
      refine ⟨u, _, rfl, words u (by simp), fun first => ?_⟩
      cases second : u.isOp "(" with
      | false => rfl
      | true =>
        simp only [List.takeWhile_cons, first, second, if_true, List.length_cons] at single
        omega
  rw [List.cons_append, shape] at shown
  have next : c.peek.Ordinary := blind _ (by rwa [shown.peek])
  rw [next "SELECT" (by decide), next "WITH" (by decide), Bool.false_or, Bool.false_or, ← isOp_bare, shown.current,
    ← isOp_bare c.peek, shown.peek]
  cases first : t.isOp "(" with
  | false => rfl
  | true => rw [apart first]; rfl

/-- A value is a statement, unless it starts with two parentheses. -/
theorem Written.standalone (ready : d.ReadsQueries) {e : Expr} {text : String} {ts : List Token}
    (written : WrittenValue d e text ts) (plain : ¬OpensTwice text) :
    Standalone d (fun s => ∃ pos read, s = .expression pos read ∧ read.bare = e.bare) ts := by
  have nonempty : ts ≠ [] := by
    obtain ⟨t, rest, rfl, _⟩ := written.headed
    exact List.cons_ne_nil t rest
  rw [opensTwice_iff written.begins, Nat.not_le] at plain
  have within : ∀ head ∈ statementEnds, head ∈ allHeads := by decide
  constructor
  · intro depth c tail enough follows shown
    obtain ⟨is, noQuery⟩ := leading_value written.begins.words nonempty plain follows shown
    obtain ⟨read, next, parsed, left, same⟩ := Written.parses ready written (depth + 1) c tail (by omega)
      (follows.mono within) shown
    refine ⟨.expression c.current.pos read, next, ?_, left, c.current.pos, read, rfl, same⟩
    have ended : (next.current.isFinish || next.current.isOp ";") = true := by
      obtain ⟨head, member, _, rest, rfl⟩ := follows
      rw [← isFinish_bare, ← isOp_bare, left.current]
      simp only [statementEnds, List.mem_cons, List.not_mem_nil, or_false] at member
      obtain rfl | rfl := member <;> rfl
    have value : expectingStatement (grammar d (depth + 1)).value c = .ok (read, next) :=
      by rw [expectingStatement, parsed]
    have expression : expressionStatement (grammar d (depth + 1)) c = .ok (.expression c.current.pos read, next) := by
      simp only [expressionStatement, bind_apply, current_apply, ok_bind, (value_goes_on parsed).2,
        Bool.false_eq_true, if_false,
        pure_apply, value, ended, if_true]
    simp only [statement, plainStatement, bind_apply, curIs_apply, ok_bind, is "DROP" (by decide),
      is "EXPLAIN" (by decide),
      is "SELECT" (by decide), is "WITH" (by decide), is "INSERT" (by decide),
      is "CREATE" (by decide), get_apply, noQuery,
      expression, Bool.or_self, Bool.false_eq_true, if_false]
  · obtain ⟨c, _, shown⟩ := written.spelled.cursor
    have ends : Follows d.toLexicon allHeads [finish] := ⟨.finish, by decide, by decide, [], rfl⟩
    obtain ⟨_, _, parsed, _⟩ := Written.parses ready written (ts.length + 1) c [finish] (by omega) ends shown
    obtain ⟨t, rest, rfl⟩ := List.exists_cons_of_ne_nil nonempty
    have first := value_goes_on parsed
    rw [← isOp_bare, ← isFinish_bare, shown.current] at first
    exact ⟨t, rest, rfl, first⟩

/-! ### Words -/

/-- The words around the names and the query of a statement that makes or drops something. -/
def statementKeywords : List String :=
  ["DROP", "TABLE", "VIEW", "IF", "NOT", "EXISTS", "CREATE", "OR", "REPLACE", "TEMPORARY", "AS"]

theorem upper_statementKeyword : ∀ w ∈ statementKeywords, Text.upper w = w := by
  intro w member
  apply Text.upper_eq
  revert w
  decide

theorem isFinish_word (lexicon : Lexicon) (text : String) : (word lexicon text).isFinish = false := by
  unfold isFinish word
  split <;> rfl

section Keywords

variable {ts : List Token}

theorem spells_keywords (regular : lexicon.Regular) {ws : List String}
    (known : ∀ w ∈ ws, w ∈ statementKeywords) {back : List Char}
    {us : List Token} (spelled : Spells lexicon back us) :
    Spells lexicon ((String.join (ws.map (· ++ " "))).toList ++ back) (ws.map (word lexicon) ++ us) := by
  have shapes : ∀ w ∈ statementKeywords, w.toList.head?.any isIdentStart ∧ w.toList.tail.all isIdentChar := by decide
  induction ws with
  | nil => simpa using spelled
  | cons w ws ih =>
    obtain ⟨own, known⟩ := List.forall_mem_cons.mp known
    have whole := (spells_letters regular (shapes w own)).spaced regular (ih known)
    simpa [String.join_cons] using whole

theorem is_statementKeyword {w : String} (known : w ∈ statementKeywords)
    (shown : c.Shows (word d.toLexicon w :: ts)) (other : String) :
    c.current.is other = (w == other) := by
  rw [← is_bare, shown.current, is_word, upper_statementKeyword w known]

theorem peek_statementKeyword {w : String} (known : w ∈ statementKeywords) {t : Token}
    (shown : c.Shows (t :: word d.toLexicon w :: ts)) : c.peek.is w = true := by
  rw [← is_bare, shown.peek, is_word, upper_statementKeyword w known, beq_self_eq_true]

theorem Cursor.Shows.ahead_two {t u v : Token} (shown : c.Shows (t :: u :: v :: ts)) : (c.ahead 2).bare = v := by
  have found : (c.rest.map Token.bare)[1]? = some v := by
    rw [(List.cons.inj shown).2]
    rfl
  rw [List.getElem?_map, Option.map_eq_some_iff] at found
  obtain ⟨token, inside, same⟩ := found
  simp [Cursor.ahead, inside, same]

end Keywords

/-! ### What is dropped -/

section Drop

variable {first : Ident} {rest : List Ident}

def existsWords (ifExists : Bool) : List String := if ifExists then ["IF", "EXISTS"] else []

def dropTokens (lexicon : Lexicon) (object : String) (ifExists : Bool) (first : Ident)
    (rest : List Ident) : List Token :=
  ("DROP" :: object :: existsWords ifExists).map (word lexicon) ++ columnTokens lexicon first rest

def dropText (lexicon : Lexicon) (object : String) (ifExists : Bool) (first : Ident) (rest : List Ident) : String :=
  "DROP " ++ object ++ " " ++ (if ifExists then "IF EXISTS " else "") ++ columnText lexicon first rest

theorem spells_drop (ready : d.ReadsQueries) {object : String} (known : object ∈ ["TABLE", "VIEW"]) (ifExists : Bool)
    (kept : ∀ id ∈ first :: rest, id.Kept d) :
    Spells d.toLexicon (dropText d.toLexicon object ifExists first rest).toList
      (dropTokens d.toLexicon object ifExists first rest) := by
  have regular := ready.regular.lexicon
  have names := spells_column regular ready.quotes fun id member => (kept id member).isName
  have keywords : ∀ w ∈ "DROP" :: object :: existsWords ifExists, w ∈ statementKeywords := by
    simp only [List.mem_cons, List.not_mem_nil, or_false] at known
    obtain rfl | rfl := known <;> cases ifExists <;> decide
  have shape : (dropText d.toLexicon object ifExists first rest).toList =
      (String.join (("DROP" :: object :: existsWords ifExists).map (· ++ " "))).toList ++
      (columnText d.toLexicon first rest).toList := by
    cases ifExists <;> simp [dropText, existsWords, String.join_cons]
  rw [shape]
  exact spells_keywords regular keywords names

/-- Behind the words for its absence stands the name. -/
theorem exists_shows (ifExists : Bool) {tail : List Token} (follows : Follows d.toLexicon statementEnds tail)
    (shown : c.Shows ((existsWords ifExists).map (word d.toLexicon) ++ (columnTokens d.toLexicon first rest ++ tail))) :
    ∃ next, acceptSeq ["IF", "EXISTS"] c = .ok (ifExists, next) ∧
    next.Shows (columnTokens d.toLexicon first rest ++ tail) := by
  rw [acceptSeq_pair]
  cases ifExists with
  | true =>
    have shown : c.Shows (word d.toLexicon "IF" :: word d.toLexicon "EXISTS" ::
      (columnTokens d.toLexicon first rest ++ tail)) := shown
    have next : c.peek.is "EXISTS" = true := peek_statementKeyword (by decide) shown
    rw [is_statementKeyword (by decide) shown, next]
    refine ⟨c.advance.advance, by simp, ?_⟩
    exact shown.advance.advance' (by simp [columnTokens])
  | false =>
    have shown : c.Shows (columnTokens d.toLexicon first rest ++ tail) := shown
    refine ⟨c, ?_, shown⟩
    have next : c.peek.is "EXISTS" = false := by
      obtain ⟨head, member, known, others, rfl⟩ := follows
      have apart : head ≠ .word "EXISTS" := by
        simp only [statementEnds, List.mem_cons, List.not_mem_nil, or_false] at member
        obtain rfl | rfl := member <;> simp
      cases rest with
      | nil =>
        have second : c.peek.bare = head.token d.toLexicon := Cursor.Shows.peek shown
        rw [← is_bare, second, Head.is_token known, decide_eq_false apart]
      | cons id rest =>
        have second : c.peek.bare = punctuation "." := Cursor.Shows.peek shown
        rw [← is_bare, second]
        rfl
    rw [next, Bool.and_false]
    rfl

theorem drop_standalone {object : String} (known : object ∈ ["TABLE", "VIEW"]) (ifExists : Bool) (kept : first.Kept d) :
    Standalone d (fun s => ∃ pos, s = .drop pos object ifExists (first :: rest))
    (dropTokens d.toLexicon object ifExists first rest) := by
  have listed : ∀ w ∈ ["TABLE", "VIEW"], w ∈ statementKeywords := by decide
  refine ⟨?_, word d.toLexicon "DROP", _, rfl, isOp_word .., isFinish_word ..⟩
  · intro depth c tail enough follows shown
    have noPoint (m : Cursor) (left : m.Shows tail) : m.current.isOp "." = false := follows.isOp left (by decide)
    have start : c.Shows (word d.toLexicon "DROP" :: word d.toLexicon object ::
        ((existsWords ifExists).map (word d.toLexicon) ++ (columnTokens d.toLexicon first rest ++ tail))) := by
      simpa [dropTokens] using shown
    have behindObject := start.advance.advance' (by simp [columnTokens])
    obtain ⟨middle, condition, names⟩ := exists_shows ifExists follows behindObject
    obtain ⟨next, named, left⟩ := qualifiedName_shows kept follows.nonempty noPoint names
    have isDrop : c.current.is "DROP" = true := is_statementKeyword (by decide) start "DROP"
    have is (other : String) := is_statementKeyword (listed object known) start.advance other
    have dropped : dropStatement d c = .ok (.drop c.current.pos object ifExists (first :: rest), next) := by
      simp only [List.mem_cons, List.not_mem_nil, or_false] at known
      obtain rfl | rfl := known
      · have table : c.advance.current.is "TABLE" = true := is "TABLE"
        simp only [dropStatement, bind_apply, position_apply, ok_bind, advance_apply, accept_apply,
          table, if_true, pure_apply,
          condition, named]
      · have table : c.advance.current.is "TABLE" = false := is "TABLE"
        have view : c.advance.current.is "VIEW" = true := is "VIEW"
        simp only [dropStatement, bind_apply, position_apply, ok_bind, advance_apply,
          accept_apply, table, view, if_true,
          Bool.false_eq_true, if_false, pure_apply, condition, named]
    refine ⟨.drop c.current.pos object ifExists (first :: rest), next, ?_, left, _, rfl⟩
    simp only [statement, bind_apply, curIs_apply, ok_bind, isDrop, if_true, dropped]

end Drop

/-! ### What is made -/

section Created

variable {first : Ident} {rest : List Ident} {text object : String} {ts : List Token}

def replaceWords (orReplace : Bool) : List String := if orReplace then ["OR", "REPLACE"] else []

def temporaryWords (temporary : Bool) : List String := if temporary then ["TEMPORARY"] else []

def absentWords (ifNotExists : Bool) : List String := if ifNotExists then ["IF", "NOT", "EXISTS"] else []

/-- The words in front of the name. -/
def createWords (object : String) (orReplace temporary ifNotExists : Bool) : List String :=
  "CREATE" :: (replaceWords orReplace ++ (temporaryWords temporary ++ object :: absentWords ifNotExists))

def createTokens (lexicon : Lexicon) (object : String) (orReplace temporary ifNotExists : Bool) (first : Ident)
    (rest : List Ident) (ts : List Token) : List Token :=
  (createWords object orReplace temporary ifNotExists).map (word lexicon) ++ (columnTokens lexicon first rest ++ ts)

/-- Each word has a blank behind it. -/
def createText (lexicon : Lexicon) (object : String) (orReplace temporary ifNotExists : Bool) (first : Ident)
    (rest : List Ident) (text : String) : String :=
  String.join ((createWords object orReplace temporary ifNotExists).map (· ++ " ")) ++
    (columnText lexicon first rest ++ text)

theorem replaceWords_text (orReplace : Bool) :
    (if orReplace then "OR REPLACE " else "") = String.join ((replaceWords orReplace).map (· ++ " ")) := by
  cases orReplace <;> rfl

theorem temporaryWords_text (temporary : Bool) :
    (if temporary then "TEMPORARY " else "") = String.join ((temporaryWords temporary).map (· ++ " ")) := by
  cases temporary <;> rfl

theorem absentWords_text (ifNotExists : Bool) :
    (if ifNotExists then "IF NOT EXISTS " else "") = String.join ((absentWords ifNotExists).map (· ++ " ")) := by
  cases ifNotExists <;> rfl

theorem spells_create (ready : d.ReadsQueries) (known : object ∈ ["TABLE", "VIEW"])
    (orReplace temporary ifNotExists : Bool) (kept : ∀ id ∈ first :: rest, id.Kept d)
    (spelled : SpellsTail d.toLexicon text.toList ts) :
    Spells d.toLexicon (createText d.toLexicon object orReplace temporary ifNotExists first rest text).toList
      (createTokens d.toLexicon object orReplace temporary ifNotExists first rest ts) := by
  have regular := ready.regular.lexicon
  have names := spells_column regular ready.quotes fun id member => (kept id member).isName
  have keywords : ∀ w ∈ createWords object orReplace temporary ifNotExists, w ∈ statementKeywords := by
    simp only [List.mem_cons, List.not_mem_nil, or_false] at known
    obtain rfl | rfl := known <;> cases orReplace <;> cases temporary <;> cases ifNotExists <;> decide
  rw [createText, String.toList_append, String.toList_append]
  exact spells_keywords regular keywords (names.clauses regular spelled)

theorem spells_as (regular : lexicon.Regular) (spelled : Spells lexicon text.toList ts) :
    Spells lexicon ("AS " ++ text).toList (word lexicon "AS" :: ts) := by
  rw [String.toList_append]
  exact spells_keywords regular (show ∀ w ∈ ["AS"], w ∈ statementKeywords by decide) spelled

theorem spellsTail_as (regular : lexicon.Regular) (spelled : Spells lexicon text.toList ts) :
    SpellsTail lexicon (" AS " ++ text).toList (word lexicon "AS" :: ts) :=
  .inr ⟨("AS " ++ text).toList, by simp, spells_as regular spelled⟩

/-- What is made is none of the words that may stand in front of it. -/
theorem object_apart (known : object ∈ ["TABLE", "VIEW"]) {m : Cursor} {us : List Token}
    (shown : m.Shows (word d.toLexicon object :: us)) : ∀ w ∈ ["OR", "GLOBAL", "LOCAL", "TEMPORARY", "TEMP", "VOLATILE",
      "EXTERNAL", "MULTISET", "SET"], m.current.is w = false := by
  have listed : ∀ w ∈ ["TABLE", "VIEW"], w ∈ statementKeywords := by decide
  have apart : ∀ object ∈ ["TABLE", "VIEW"], ∀ w ∈ ["OR", "GLOBAL", "LOCAL", "TEMPORARY", "TEMP",
    "VOLATILE", "EXTERNAL",
      "MULTISET", "SET"], (object == w) = false := by decide
  intro w member
  rw [is_statementKeyword (listed object known) shown, apart object known w member]

theorem create_replaces (known : object ∈ ["TABLE", "VIEW"]) (orReplace temporary : Bool) {us : List Token}
    (shown : c.Shows ((replaceWords orReplace).map (word d.toLexicon) ++
      ((temporaryWords temporary).map (word d.toLexicon) ++
      word d.toLexicon object :: us))) :
    ∃ next, acceptSeq ["OR", "REPLACE"] c = .ok (orReplace, next) ∧
      next.Shows ((temporaryWords temporary).map (word d.toLexicon) ++ word d.toLexicon object :: us) := by
  cases orReplace with
  | true =>
    have shown : c.Shows (word d.toLexicon "OR" :: word d.toLexicon "REPLACE" ::
      ((temporaryWords temporary).map (word d.toLexicon) ++ word d.toLexicon object :: us)) := shown
    have own : c.current.is "OR" = true := is_statementKeyword (by decide) shown "OR"
    have next : c.peek.is "REPLACE" = true := peek_statementKeyword (by decide) shown
    rw [acceptSeq_pair, own, next]
    exact ⟨c.advance.advance, rfl, shown.advance.advance' (by simp)⟩
  | false =>
    refine ⟨c, acceptSeq_none ?_, shown⟩
    cases temporary with
    | true => exact is_statementKeyword (d := d) (w := "TEMPORARY") (by decide) shown "OR"
    | false => exact object_apart known shown "OR" (by decide)

theorem create_temporary (known : object ∈ ["TABLE", "VIEW"]) (temporary : Bool) {us : List Token}
    (shown : c.Shows ((temporaryWords temporary).map (word d.toLexicon) ++ word d.toLexicon object :: us)) :
    acceptAny ["GLOBAL", "LOCAL"] c = .ok (false, c) ∧
    ∃ next, acceptAny ["TEMPORARY", "TEMP", "VOLATILE"] c = .ok (temporary, next) ∧
      next.Shows (word d.toLexicon object :: us) := by
  cases temporary with
  | true =>
    have is (other : String) := is_statementKeyword (d := d) (w := "TEMPORARY") (by decide) shown other
    refine ⟨accept_none (by simp [is]), c.advance, ?_, Cursor.Shows.advance shown⟩
    rw [acceptAny_apply]
    simp [is]
  | false =>
    have apart := object_apart known shown
    exact ⟨accept_none (by simp [apart]), c, accept_none (by simp [apart]), shown⟩

/-- The words in front of what is made, of which any may be missing. -/
theorem createStatement_shows {g : Grammar} (known : object ∈ ["TABLE", "VIEW"])
    (orReplace temporary : Bool) {us : List Token}
    (more : us ≠ []) (shown : c.Shows (word d.toLexicon "CREATE" :: ((replaceWords orReplace).map (word d.toLexicon) ++
      ((temporaryWords temporary).map (word d.toLexicon) ++ word d.toLexicon object :: us)))) :
    ∃ next, next.Shows us ∧ createStatement d g c = if object =
    "VIEW" then viewStatement d g c.current.pos orReplace temporary next
      else (Statement.createTable <$> tableDefinition d g { pos := c.current.pos, temporary, name := [] }) next := by
  have start := shown.advance' (by simp)
  obtain ⟨second, replaces, left⟩ := create_replaces known orReplace temporary start
  obtain ⟨unscoped, third, lasts, atObject⟩ := create_temporary known temporary left
  have apart := object_apart known atObject
  have external := apart "EXTERNAL" (by decide)
  have noRows : acceptAny ["MULTISET", "SET"] third = .ok (false, third) := accept_none (by simp [apart])
  refine ⟨third.advance, atObject.advance' more, ?_⟩
  simp only [List.mem_cons, List.not_mem_nil, or_false] at known
  obtain rfl | rfl := known
  · have isTable : third.current.is "TABLE" = true := is_statementKeyword (by decide) atObject "TABLE"
    have noView : third.current.is "VIEW" = false := is_statementKeyword (by decide) atObject "VIEW"
    simp only [createStatement, bind_apply, position_apply, ok_bind, advance_apply, replaces, unscoped, lasts,
      accept_apply, external,
      current_apply, noRows, noView, isTable, Bool.false_eq_true, if_false, if_true, pure_apply, map_apply]
    rfl
  · have isView : third.current.is "VIEW" = true := is_statementKeyword (by decide) atObject "VIEW"
    simp only [createStatement, bind_apply, position_apply, ok_bind, advance_apply, replaces, unscoped, lasts,
      accept_apply, external,
      current_apply, noRows, isView, Bool.false_eq_true, if_false, if_true, pure_apply]

/-- The words for the absence of what is made stand in front of its name. -/
theorem absent_shows (ifNotExists : Bool) {t u : Token} {us : List Token} (apart : u.is "NOT" = false)
    (shown : c.Shows ((absentWords ifNotExists).map (word d.toLexicon) ++ t :: u :: us)) :
    ∃ next, acceptSeq ["IF", "NOT", "EXISTS"] c = .ok (ifNotExists, next) ∧ next.Shows (t :: u :: us) := by
  rw [acceptSeq_triple]
  cases ifNotExists with
  | true =>
    have shown : c.Shows (word d.toLexicon "IF" :: word d.toLexicon "NOT" :: word d.toLexicon "EXISTS" ::
      (t :: u :: us)) := shown
    have own : c.current.is "IF" = true := is_statementKeyword (by decide) shown "IF"
    have second : c.peek.is "NOT" = true := peek_statementKeyword (by decide) shown
    have third : (c.ahead 2).is "EXISTS" = true := by
      rw [← is_bare, shown.ahead_two, is_word, upper_statementKeyword "EXISTS" (by decide), beq_self_eq_true]
    rw [own, second, third]
    exact ⟨c.advance.advance.advance, rfl, shown.advance.advance.advance⟩
  | false =>
    have shown : c.Shows (t :: u :: us) := shown
    refine ⟨c, ?_, shown⟩
    have next : c.peek.is "NOT" = false := by rw [← is_bare, shown.peek, apart]
    rw [next, Bool.false_and, Bool.and_false]
    rfl

theorem createdName_shows (ifNotExists : Bool) (kept : first.Kept d) {t : Token} {us : List Token}
    (noPoint : t.isOp "." = false) (noNot : t.is "NOT" = false)
    (shown : c.Shows ((absentWords ifNotExists).map (word d.toLexicon) ++
      (columnTokens d.toLexicon first rest ++ t :: us))) :
    ∃ middle next, acceptSeq ["IF", "NOT", "EXISTS"] c = .ok (ifNotExists, middle) ∧
      qualifiedName d.toLexicon middle = .ok (first :: rest, next) ∧ next.Shows (t :: us) := by
  have ended (m : Cursor) (left : m.Shows (t :: us)) : m.current.isOp "." = false := by
    rw [← isOp_bare, left.current, noPoint]
  obtain ⟨u, others, shape, apart⟩ : ∃ u others, (rest.flatMap fun id => [punctuation ".", id.token d.toLexicon]) ++
      t :: us = u :: others ∧ u.is "NOT" = false := by
    cases rest with
    | nil => exact ⟨_, _, rfl, noNot⟩
    | cons => exact ⟨_, _, rfl, rfl⟩
  have named : columnTokens d.toLexicon first rest ++ t :: us = first.token d.toLexicon :: u :: others := by
    rw [← shape]
    rfl
  rw [named] at shown
  obtain ⟨middle, absent, left⟩ := absent_shows ifNotExists apart shown
  rw [← named] at left
  obtain ⟨next, name, left⟩ := qualifiedName_shows kept (by simp) ended left
  exact ⟨middle, next, absent, name, left⟩

/-- Whatever stands behind its name, what is made is a statement of its own. -/
theorem create_standalone (known : object ∈ ["TABLE", "VIEW"]) (orReplace temporary ifNotExists : Bool)
    {wanted : Statement → Prop}
    (made : ∀ (pos : Position) (depth : Nat) (c : Cursor) (tail : List Token), ts.length < depth →
      Follows d.toLexicon statementEnds tail → c.Shows ((absentWords ifNotExists).map (word d.toLexicon) ++
        (columnTokens d.toLexicon first rest ++ (ts ++ tail))) →
      ∃ s next, (if object = "VIEW" then viewStatement d (grammar d (depth + 1)) pos orReplace temporary c
        else (Statement.createTable <$> tableDefinition d (grammar d (depth + 1)) { pos, temporary, name := [] }) c) =
          .ok (s, next) ∧ next.Shows tail ∧ wanted s) :
    Standalone d wanted (createTokens d.toLexicon object orReplace temporary ifNotExists first rest ts) := by
  refine ⟨?_, word d.toLexicon "CREATE", _, rfl, isOp_word .., isFinish_word ..⟩
  intro depth c tail enough follows shown
  have start : c.Shows (word d.toLexicon "CREATE" :: ((replaceWords orReplace).map (word d.toLexicon) ++
      ((temporaryWords temporary).map (word d.toLexicon) ++ word d.toLexicon object ::
        ((absentWords ifNotExists).map (word d.toLexicon) ++
          (columnTokens d.toLexicon first rest ++ (ts ++ tail)))))) := by
    simpa [createTokens, createWords] using shown
  have fits : ts.length < depth := by
    simp only [createTokens, List.length_append] at enough
    omega
  obtain ⟨second, left, created⟩ :=
    createStatement_shows (g := grammar d (depth + 1)) known orReplace temporary (by simp [columnTokens]) start
  obtain ⟨s, next, parsed, left, held⟩ := made c.current.pos depth second tail fits follows left
  have is (other : String) : c.current.is other = ("CREATE" == other) := is_statementKeyword (by decide) start other
  have noDrop : c.current.is "DROP" = false := is "DROP"
  have noExplain : c.current.is "EXPLAIN" = false := is "EXPLAIN"
  have noSelect : c.current.is "SELECT" = false := is "SELECT"
  have noWith : c.current.is "WITH" = false := is "WITH"
  have noInsert : c.current.is "INSERT" = false := is "INSERT"
  have isCreate : c.current.is "CREATE" = true := is "CREATE"
  have noGroup : c.current.isOp "(" = false := by rw [← isOp_bare, start.current, isOp_word]
  refine ⟨s, next, ?_, left, held⟩
  simp only [statement, plainStatement, bind_apply, curIs_apply, ok_bind, noDrop, noExplain, get_apply, noSelect,
    noWith, noGroup, noInsert, isCreate, Bool.or_self, Bool.false_and, Bool.false_eq_true, if_false, if_true, created,
    parsed]

/-! What stands behind the name. -/

section Query

variable {q : Query} {depth : Nat} {tail : List Token}

theorem WholeQuery.ends_statement (whole : WholeQuery d q text ts) (enough : ts.length < depth)
    (follows : Follows d.toLexicon statementEnds tail) (shown : c.Shows (ts ++ tail)) :
    ∃ read next, (grammar d (depth + 1)).query c = .ok (read, next) ∧ next.Shows tail ∧ read.bare = q.bare := by
  have within : ∀ head ∈ statementEnds, head ∈ queryEnds := by decide
  exact whole.parses depth c tail enough (follows.mono within) shown

theorem view_standalone (whole : WholeQuery d q text ts) (orReplace temporary ifNotExists : Bool)
    (kept : first.Kept d) :
    Standalone d (fun s => ∃ pos read, read.bare = q.bare ∧
        s = .createView { pos, orReplace, temporary, ifNotExists, name := first :: rest, query := read })
      (createTokens d.toLexicon "VIEW" orReplace temporary ifNotExists first rest (word d.toLexicon "AS" :: ts)) := by
  refine create_standalone (by decide) orReplace temporary ifNotExists ?_
  intro pos depth c tail enough follows shown
  have noNot : (word d.toLexicon "AS").is "NOT" = false := by
    rw [is_word, upper_statementKeyword "AS" (by decide)]
    rfl
  obtain ⟨second, third, absent, name, left⟩ := createdName_shows ifNotExists kept (isOp_word ..) noNot shown
  have noGroup : third.current.isOp "(" = false := by rw [← isOp_bare, left.current, isOp_word]
  have isAs : third.current.is "AS" = true := is_statementKeyword (by decide) left "AS"
  have start := left.advance' (List.append_ne_nil_of_right_ne_nil ts follows.nonempty)
  obtain ⟨read, next, query, left, same⟩ := whole.ends_statement (Nat.lt_of_succ_lt enough) follows start
  refine ⟨_, next, (if_pos rfl).trans ?_, left, pos, read, same, rfl⟩
  simp only [viewStatement, bind_apply, absent, ok_bind, name, curOp_apply, noGroup, Bool.false_eq_true, if_false,
    pure_apply, expect_apply, isAs, if_true, query]

/-! ### Clauses of a table -/

theorem clauseStep_stops (follows : Follows d.toLexicon statementEnds tail) (shown : c.Shows tail) (g : Grammar)
    (state : CreateTable × Bool) : clauseStep d g state c = .ok (none, c) := by
  have ends : (c.current.isFinish || c.current.isOp ";") = true := by
    obtain ⟨head, member, known, rest, rfl⟩ := follows
    rw [← isFinish_bare, ← isOp_bare, shown.current]
    simp only [statementEnds, List.mem_cons, List.not_mem_nil, or_false] at member
    obtain rfl | rfl := member
    · rfl
    · exact Bool.or_eq_true_iff.mpr (.inr (by rw [Head.isOp_token known]; rfl))
  have ended : (state.2 || c.current.isFinish || c.current.isOp ";") = true := by
    rw [Bool.or_assoc, ends, Bool.or_true]
  unfold clauseStep
  exact bind_ok (current_apply c) (congrFun (if_pos ended) c)

/-- What stands between the clauses of a table. -/
def clauseGap (d : Dialect) : String := if d.hints.multilineTables then "\n" else " "

theorem clauseGap_layout (d : Dialect) : Text.IsLayout (clauseGap d) ∧ clauseGap d ≠ "" := by
  unfold clauseGap
  split <;> decide

/-- The query of a table is the last of its clauses. -/
inductive WrittenSource (d : Dialect) : Option Query → String → List Token → Prop
  | absent : WrittenSource d none "" []
  | asked {q : Query} {text : String} {ts : List Token} (whole : WholeQuery d q text ts) :
    WrittenSource d (some q) (clauseGap d ++ ("AS " ++ text)) (word d.toLexicon "AS" :: ts)

theorem exists_source (ready : d.ReadsQueries) {query : Option Query} (trees : ∀ q ∈ query, QueryTree d q) :
    ∃ text ts, WrittenSource d query text ts := by
  cases query with
  | none => exact ⟨_, _, .absent⟩
  | some q =>
    obtain ⟨_, _, _, _, written⟩ := (trees q rfl).written ready
    exact ⟨_, _, .asked (written.whole ready)⟩

theorem query_step (whole : WholeQuery d q text ts) (enough : ts.length < depth)
    (follows : Follows d.toLexicon statementEnds tail) (shown : c.Shows (word d.toLexicon "AS" :: (ts ++ tail)))
    (table : CreateTable) :
    ∃ read next, clauseStep d (grammar d (depth + 1)) (table, false) c =
      .ok (some ({ table with query := some read }, true), next) ∧ next.Shows tail ∧ read.bare = q.bare := by
  have start := shown.advance' (List.append_ne_nil_of_right_ne_nil ts follows.nonempty)
  obtain ⟨read, next, parsed, left, same⟩ := whole.ends_statement enough follows start
  have goes : c.current.isFinish = false := by rw [← isFinish_bare, shown.current, isFinish_word]
  have noMark : c.current.isOp ";" = false := by rw [← isOp_bare, shown.current, isOp_word]
  have isAs : c.current.is "AS" = true := is_statementKeyword (by decide) shown "AS"
  have noWith : next.current.is "WITH" = false := follows.is left (by decide)
  have noData : skipDataClause next = .ok ((), next) := by
    simp only [skipDataClause, bind_apply, acceptSeq_none noWith, ok_bind, Bool.not_false, if_true]
    rfl
  refine ⟨read, next, ?_, left, same⟩
  simp only [clauseStep, bind_apply, current_apply, ok_bind, Bool.false_or, goes, noMark, Bool.false_eq_true, if_false,
    accept_apply, isAs, if_true, parsed, noData, pure_apply]

theorem WrittenSource.repeats {query : Option Query} (written : WrittenSource d query text ts)
    (enough : ts.length < depth) (follows : Follows d.toLexicon statementEnds tail) (shown : c.Shows (ts ++ tail))
    (table : CreateTable) (unasked : table.query = none) :
    ∃ read finished next, Repeats (clauseStep d (grammar d (depth + 1))) (table, false) c
      ({ table with query := read }, finished) next ∧ next.Shows tail ∧ read.map Query.bare = query.map Query.bare := by
  cases written with
  | absent =>
    refine ⟨none, false, c, ?_, shown, rfl⟩
    rw [← unasked]
    exact .refl ..
  | @asked q text ts whole =>
    obtain ⟨read, next, stepped, left, same⟩ := query_step whole (Nat.lt_of_succ_lt enough) follows shown table
    refine ⟨some read, true, next, (Repeats.refl ..).snoc stepped (shown.shorter left ?_), left, ?_⟩
    · simp only [List.length_append, List.length_cons]
      omega
    · exact congrArg some same

/-- Words that open a clause about how a table is laid out. -/
def layoutWords : List String := ["ENGINE", "ORDER", "SORTED", "PRIMARY", "NO", "UNIQUE", "INDEX", "DUPLICATE",
  "AGGREGATE", "AUTO", "PARTITION", "PARTITIONED", "CLUSTERED", "DISTRIBUTED"]

theorem layoutClause_none (absent : ∀ w ∈ layoutWords, c.current.is w = false) (g : Grammar) (table : CreateTable)
    (start : Nat) : layoutClause? d g table start c = .ok (none, c) := by
  have no {w : String} (known : w ∈ layoutWords) : c.current.is w = false := absent w known
  have noSeq (w : String) (more : List String) (known : w ∈ layoutWords) : acceptSeq (w :: more) c = .ok (false, c) :=
    acceptSeq_none (no known)
  have noEngine : ¬c.current.is "ENGINE" = true := Bool.eq_false_iff.mp (no (by decide))
  have noIndex :
      ¬(c.current.is "PRIMARY" && c.peek.is "INDEX" || c.current.is "UNIQUE" && c.peek.is "PRIMARY") = true := by
    simp [no (w := "PRIMARY") (by decide), no (w := "UNIQUE") (by decide)]
  have noOther : ¬(c.current.is "INDEX" && c.peek.isOp "(" || c.current.is "UNIQUE" && c.peek.is "INDEX") = true := by
    simp [no (w := "INDEX") (by decide), no (w := "UNIQUE") (by decide)]
  have noKey : ¬(["DUPLICATE", "UNIQUE", "AGGREGATE"].any c.current.is && c.peek.is "KEY") = true := by
    simp [no (w := "DUPLICATE") (by decide), no (w := "UNIQUE") (by decide), no (w := "AGGREGATE") (by decide)]
  have noPartition :
      ¬(c.current.is "AUTO" && c.peek.is "PARTITION" || c.current.is "PARTITION" && c.peek.is "BY") = true := by
    simp [no (w := "AUTO") (by decide), no (w := "PARTITION") (by decide)]
  have noBuckets : ¬((c.current.is "CLUSTERED" || c.current.is "DISTRIBUTED") && c.peek.is "BY") = true := by
    simp [no (w := "CLUSTERED") (by decide), no (w := "DISTRIBUTED") (by decide)]
  unfold layoutClause?
  refine bind_ok (get_apply c) ?_
  refine (congrFun (if_neg noEngine) c).trans ?_
  refine bind_ok (noSeq "ORDER" _ (by decide)) (bind_ok (noSeq "SORTED" _ (by decide))
    (bind_ok (noSeq "PRIMARY" _ (by decide)) (bind_ok (noSeq "NO" _ (by decide)) ?_)))
  refine (congrFun (if_neg noIndex) c).trans ?_
  refine (congrFun (if_neg noOther) c).trans ?_
  refine (congrFun (if_neg noKey) c).trans ?_
  refine (congrFun (if_neg noPartition) c).trans ?_
  refine bind_ok (noSeq "PARTITIONED" _ (by decide)) ?_
  exact (congrFun (if_neg noBuckets) c).trans rfl

def commentTokens (lexicon : Lexicon) : Option String → List Token
  | none => []
  | some text => [word lexicon "COMMENT", stringOf text]

theorem comment_clause {text : String}
    (shown : c.Shows (word d.toLexicon "COMMENT" :: stringOf text :: tail)) (g : Grammar) (table : CreateTable) :
    clauseStep d g (table, false) c = .ok (some ({ table with comment := some text }, false), c.advance.advance) := by
  have is (other : String) : c.current.is other = ("COMMENT" == other) := by
    rw [← is_bare, shown.current, is_word, upper_queryWord "COMMENT" (by decide)]
  have absent : ∀ w ∈ layoutWords, c.current.is w = false := by
    intro w known
    rw [is]
    revert w
    decide
  have goes : c.current.isFinish = false := by rw [← isFinish_bare, shown.current, isFinish_word]
  have isOp (op : String) : c.current.isOp op = false := by rw [← isOp_bare, shown.current, isOp_word]
  have isAs : c.current.is "AS" = false := is "AS"
  have isComment : c.current.is "COMMENT" = true := is "COMMENT"
  have noEqual : c.advance.current.isOp "=" = false := by
    rw [← isOp_bare, shown.advance.current]
    rfl
  have read : stringToken "comment string" c.advance = .ok (text, c.advance.advance) :=
    stringToken_shows shown.advance
  have clause : tableClause d g table c = .ok ({ table with comment := some text }, c.advance.advance) := by
    simp only [tableClause, bind_apply, position_apply, ok_bind, layoutClause_none absent, get_apply, accept_apply,
      isComment, if_true, acceptOp_apply, noEqual, Bool.false_eq_true, if_false, read, pure_apply]
  simp only [clauseStep, bind_apply, current_apply, ok_bind, Bool.false_or, goes, isOp, Bool.false_eq_true, if_false,
    accept_apply, isAs, clause, pure_apply]

theorem comment_repeats (comment : Option String) (more : tail ≠ []) (g : Grammar) (table : CreateTable)
    (unsaid : table.comment = none) (shown : c.Shows (commentTokens d.toLexicon comment ++ tail)) :
    ∃ next, Repeats (clauseStep d g) (table, false) c ({ table with comment }, false) next ∧ next.Shows tail := by
  cases comment with
  | none =>
    refine ⟨c, ?_, shown⟩
    rw [← unsaid]
    exact .refl ..
  | some text =>
    have shown : c.Shows (word d.toLexicon "COMMENT" :: stringOf text :: tail) := shown
    have left := shown.advance.advance' more
    refine ⟨_, (Repeats.refl ..).snoc (comment_clause shown g table) (shown.shorter left ?_), left⟩
    simp only [List.length_cons]
    omega

/-! ### Tables -/

theorem leadingOptions_none (apart : c.current.isOp "," = false) (table : CreateTable) :
    leadingOptions table c = .ok (table, c) := by
  rw [leadingOptions, loop_apply]
  refine iterate_none ?_
  rw [bind_apply, acceptOp_apply, apart]
  rfl

/-- Behind the query of a table nothing is left for its clauses. -/
theorem table_standalone (whole : WholeQuery d q text ts) (temporary ifNotExists : Bool) (kept : first.Kept d) :
    Standalone d (fun s => ∃ pos read, read.bare = q.bare ∧
        s = .createTable { pos, temporary, ifNotExists, name := first :: rest, query := some read })
      (createTokens d.toLexicon "TABLE" false temporary ifNotExists first rest (word d.toLexicon "AS" :: ts)) := by
  refine create_standalone (by decide) false temporary ifNotExists ?_
  intro pos depth c tail enough follows shown
  have noNot : (word d.toLexicon "AS").is "NOT" = false := by
    rw [is_word, upper_statementKeyword "AS" (by decide)]
    rfl
  obtain ⟨second, third, absent, name, left⟩ := createdName_shows ifNotExists kept (isOp_word ..) noNot shown
  have isWord (other : String) : third.current.is other = ("AS" == other) := is_statementKeyword (by decide) left other
  have noLike : third.current.is "LIKE" = false := isWord "LIKE"
  have isOp (op : String) : third.current.isOp op = false := by rw [← isOp_bare, left.current, isOp_word]
  have starts : (third.peek.is "SELECT" || third.peek.isOp "(") = true := by
    obtain ⟨t, us, rfl, opens⟩ := whole.starts.opens
    have shown : third.Shows (word d.toLexicon "AS" :: t :: (us ++ tail)) := left
    rw [← is_bare, ← isOp_bare, shown.peek, Bool.or_eq_true]
    exact opens
  have noCluster : acceptSeq ["ON", "CLUSTER"] third = .ok (false, third) := acceptSeq_none (isWord "ON")
  have noCopy : (third.current.is "AS" && !third.peek.is "SELECT" && !third.peek.is "WITH" && !third.peek.isOp "(") =
      false := by
    obtain select | group := Bool.or_eq_true_iff.mp starts
    · simp [select]
    · simp [group]
  have left : third.Shows (word d.toLexicon "AS" :: (ts ++ tail)) := left
  obtain ⟨read, next, stepped, left', same⟩ := query_step whole (Nat.lt_of_succ_lt enough) follows left
    { pos, temporary, ifNotExists, name := first :: rest }
  have shorter : next.rest.length < third.rest.length := by
    refine left.shorter left' ?_
    simp only [List.length_cons, List.length_append]
    omega
  have clauses := ((Repeats.refl ..).snoc stepped shorter).loop (clauseStep_stops follows left' _ _)
  refine ⟨_, next, (if_neg (by decide)).trans ?_, left', pos, read, same, rfl⟩
  simp only [map_apply, tableDefinition, bind_apply, absent, ok_bind, name, noCluster, leadingOptions_none (isOp ","),
    accept_apply, noLike, get_apply, noCopy, isOp "(", Bool.false_and, Bool.false_eq_true, if_false, pure_apply,
    clauses]

section Columns

variable {columns : List ColumnDef} {texts : List String} {us : List Token}

/-- The columns of a table in parentheses and the clauses behind them. -/
theorem columnTable_standalone (series : Series (WrittenColumn d) columns texts us) (comment : Option String)
    {query : Option Query} (source : WrittenSource d query text ts) (temporary ifNotExists : Bool)
    (kept : first.Kept d) :
    Standalone d (fun s => ∃ pos columns' query', columns'.map ColumnDef.bare = columns.map ColumnDef.bare ∧
        query'.map Query.bare = query.map Query.bare ∧ s = .createTable
          { pos, temporary, ifNotExists, name := first :: rest, columns := columns', comment, query := query' })
      (createTokens d.toLexicon "TABLE" false temporary ifNotExists first rest
        (enclosed us ++ (commentTokens d.toLexicon comment ++ ts))) := by
  refine create_standalone (by decide) false temporary ifNotExists ?_
  intro pos depth c tail enough follows shown
  have shown : c.Shows ((absentWords ifNotExists).map (word d.toLexicon) ++ (columnTokens d.toLexicon first rest ++
      punctuation "(" :: (us ++ punctuation ")" :: (commentTokens d.toLexicon comment ++ (ts ++ tail))))) := by
    simpa [enclosed] using shown
  simp only [enclosed, List.length_append, List.length_cons] at enough
  obtain ⟨second, third, absent, name, left⟩ := createdName_shows ifNotExists kept rfl rfl shown
  have isWord (w : String) : third.current.is w = false := by
    rw [← is_bare, left.current]
    rfl
  have isOp (op : String) : third.current.isOp op = ("(" == op) := by
    rw [← isOp_bare, left.current]
    rfl
  have noCluster : acceptSeq ["ON", "CLUSTER"] third = .ok (false, third) := acceptSeq_none (isWord "ON")
  have noOptions := leadingOptions_none (c := third) (isOp ",")
  have group : third.current.isOp "(" = true := isOp "("
  have apart : ∀ w ∈ elementWords, third.peek.is w = false := by
    obtain ⟨t, vs, rfl, apart⟩ := columns_start series
    have peek : third.peek.bare = t := Cursor.Shows.peek left
    intro w known
    rw [← is_bare, peek, apart w known]
  have noSelect : third.peek.is "SELECT" = false := apart "SELECT" (by decide)
  have noWith : third.peek.is "WITH" = false := apart "WITH" (by decide)
  obtain ⟨columns', middle, elements, atClose, equal⟩ := columns_shows series
    { pos, temporary, ifNotExists, name := first :: rest } (show us.length < depth + 1 by omega)
    (left.advance' (by simp))
  have close : middle.current.isOp ")" = true := by
    rw [← isOp_bare, atClose.current]
    rfl
  have more : ts ++ tail ≠ [] := List.append_ne_nil_of_right_ne_nil ts follows.nonempty
  have behind := atClose.advance' (List.append_ne_nil_of_right_ne_nil _ more)
  obtain ⟨fourth, comments, left⟩ := comment_repeats comment more (grammar d (depth + 1))
    { pos, temporary, ifNotExists, name := first :: rest, columns := columns' } rfl behind
  obtain ⟨query', finished, next, queries, left, same⟩ := source.repeats (show ts.length < depth by omega) follows left
    { pos, temporary, ifNotExists, name := first :: rest, columns := columns', comment } rfl
  have clauses := (comments.trans queries).loop (clauseStep_stops follows left _ _)
  refine ⟨_, next, (if_neg (by decide)).trans ?_, left, pos, columns', query', equal, same, rfl⟩
  simp only [map_apply, tableDefinition, bind_apply, absent, ok_bind, name, noCluster, noOptions, accept_apply, isWord,
    get_apply, group, noSelect, noWith, Bool.not_false, Bool.and_self, Bool.false_and, Bool.false_eq_true, if_false,
    if_true, advance_apply, List.nil_append, elements, expectOp_apply, close, pure_apply, clauses]

/-! What is printed behind the name of such a table. -/

def tableText (d : Dialect) (texts : List String) (comment : Option String) (source : String) : String :=
  " (" ++ Printer.commas texts ++ ")" ++
    (Printer.clause (clauseGap d ++ "COMMENT ") (comment.map (Printer.quoteString d.toLexicon)) ++ source)

section Texts

variable {front : List Char}

theorem Token.Spells.nextClause (regular : d.toLexicon.Regular) {back : List Char} (some : back ≠ [])
    (first : Spells d.toLexicon front us) (last : Spells d.toLexicon back ts) :
    Spells d.toLexicon (front ++ ((clauseGap d).toList ++ back)) (us ++ ts) := by
  obtain ⟨line, nonempty⟩ := clauseGap_layout d
  exact first.append (breaks_layout line nonempty _) (by simp [some]) (last.layout regular line)

theorem spells_comment (regular : d.toLexicon.Regular) (first : Spells d.toLexicon front us)
    (comment : Option String) :
    Spells d.toLexicon (front ++ (Printer.clause (clauseGap d ++ "COMMENT ")
      (comment.map (Printer.quoteString d.toLexicon))).toList) (us ++ commentTokens d.toLexicon comment) := by
  cases comment with
  | none => simpa [Printer.clause, commentTokens] using first
  | some text =>
    have clause := (spells_queryWord regular (w := "COMMENT") (by decide)).spaced regular (spells_string regular text)
    simpa [Printer.clause, commentTokens, stringOf] using first.nextClause regular (by simp) clause

theorem WrittenSource.spelled (regular : d.toLexicon.Regular) (first : Spells d.toLexicon front us)
    {query : Option Query} (written : WrittenSource d query text ts) :
    Spells d.toLexicon (front ++ text.toList) (us ++ ts) := by
  cases written with
  | absent => simpa using first
  | asked whole =>
    rw [String.toList_append]
    exact first.nextClause regular (by simp) (spells_as regular whole.spelled)

theorem spells_tableText (regular : d.toLexicon.Regular) (series : Series (WrittenColumn d) columns texts us)
    (comment : Option String) {query : Option Query} (source : WrittenSource d query text ts) :
    SpellsTail d.toLexicon (tableText d texts comment text).toList
      (enclosed us ++ (commentTokens d.toLexicon comment ++ ts)) := by
  have body := enclosed_spelled regular (series.spelled regular fun _ _ _ own => own.spelled)
  have whole := source.spelled regular (spells_comment regular body comment)
  refine .inr ⟨_, ?_, by simpa using whole⟩
  simp [tableText, Printer.paren]

end Texts

theorem WrittenSource.printed {p : Printer} (unkeyed : p.keyed = false) {query : Option Query}
    (source : WrittenSource p.dialect query text ts) (nonempty : columns.isEmpty = false) (pos : Position)
    (temporary ifNotExists : Bool) (name : List Ident) (comment : Option String) :
    p.tableClauses (clauseGap p.dialect) { pos, temporary, ifNotExists, name, columns, comment, query } =
      .ok (Printer.clause (clauseGap p.dialect ++ "COMMENT ")
        (comment.map (Printer.quoteString p.dialect.toLexicon)) ++ text) := by
  have quoted : p.string = Printer.quoteString p.dialect.toLexicon := rfl
  have undistributed : Printer.clause "" none = "" := rfl
  cases source with
  | absent =>
    simp [Printer.tableClauses, Printer.rawProperties, Printer.keyModel, Printer.propertyLists, Printer.sortKey,
      quoted, undistributed, bind, Except.bind, pure, Except.pure]
  | asked whole =>
    simp [Printer.tableClauses, Printer.rawProperties, Printer.keyModel, Printer.propertyLists, Printer.sortKey,
      quoted, undistributed, Printer.isBareCopy, nonempty, whole.printed p rfl unkeyed, bind, Except.bind,
      pure, Except.pure, String.append_assoc]

theorem columnTable_printed {p : Printer} (unkeyed : p.keyed = false)
    (series : Series (WrittenColumn p.dialect) columns texts us) (comment : Option String) {query : Option Query}
    (source : WrittenSource p.dialect query text ts) (pos : Position) (temporary ifNotExists : Bool)
    (path : p.path (first :: rest) = columnText p.dialect.toLexicon first rest) :
    p.statement (.createTable { pos, temporary, ifNotExists, name := first :: rest, columns, comment, query }) =
      .ok (createText p.dialect.toLexicon "TABLE" false temporary ifNotExists first rest
        (tableText p.dialect texts comment text)) := by
  have nonempty : columns.isEmpty = false := by cases series <;> rfl
  have clauses := source.printed unkeyed nonempty pos temporary ifNotExists (first :: rest) comment
  unfold clauseGap at clauses
  simp only [Printer.statement, Printer.createTable, Printer.tableBody, nonempty, columns_printed series rfl unkeyed,
    clauses]
  simp [Printer.tableHead, createText, createWords, tableText, clauseGap, path, bind, Except.bind, pure,
    Except.pure, String.append_assoc, temporaryWords_text, absentWords_text, replaceWords, String.join_cons,
    String.join_append]

end Columns

end Query

end Created

end SqlDialects
