import SqlDialects.Proofs.Clauses

/-! The parts of a query that hold no query: labels, items, orders, and the clauses behind the terms. Each is written
as a text whose tokens are read as the same part. -/

namespace SqlDialects

open Token SqlDialects.Parser

variable {d : Dialect} {lexicon : Lexicon} {heads : List Head} {ts : List Token} {c : Cursor}

/-- A value that is read as it is written. -/
abbrev WrittenValue (d : Dialect) (e : Expr) (text : String) (ts : List Token) : Prop := Written d e e text ts

theorem ValueTree.exists_written (ready : d.ReadsQueries) {e : Expr} (tree : ValueTree d e) :
    ∃ text ts, WrittenValue d e text ts := tree.written ready.regular ready.quotes

/-! ### Labels -/

/-- A label that is read again with its own quoting. Without `AS` in front of it, it must not start a clause. -/
def KeptLabel (d : Dialect) (bare : Bool) (label : Option Ident) : Prop :=
  ∀ id ∈ label, id.Kept d ∧ (bare = true → id.quoted = false → Text.upper id.name ∉ clauseWords)

def labelTokens (lexicon : Lexicon) (bare : Bool) : Option Ident → List Token
  | none => []
  | some id => if bare then [id.token lexicon] else [word lexicon "AS", id.token lexicon]

/-- The text of a label behind a table or an item. -/
def labelText (lexicon : Lexicon) (bare : Bool) : Option Ident → String
  | none => ""
  | some id => (if bare then " " else " AS ") ++ id.spelling lexicon

theorem spells_token (regular : lexicon.Regular) (quotes : lexicon.QuotesNames) {id : Ident} (name : id.IsName) :
    Spells lexicon (id.spelling lexicon).toList [id.token lexicon] := by
  have names : ∀ other ∈ [id], other.IsName := by simpa using name
  simpa [columnText, columnTokens] using spells_column regular quotes names

theorem label_spelled (ready : d.ReadsQueries) {bare : Bool} {label : Option Ident} (kept : KeptLabel d bare label) :
    SpellsTail d.toLexicon (labelText d.toLexicon bare label).toList (labelTokens d.toLexicon bare label) := by
  cases label with
  | none => exact spellsTail_nil
  | some id =>
    have spelled := spells_token ready.regular.lexicon ready.quotes (kept id rfl).1.isName
    cases bare with
    | true => exact .inr ⟨_, by simp [labelText], spelled⟩
    | false =>
      simpa [labelText, labelTokens] using spellsTail_word ready.regular.lexicon (w := "AS") (by decide) spelled

theorem isName_token {id : Ident} (kept : id.Kept d) : isName d.toLexicon (id.token d.toLexicon) = true := by
  unfold Ident.token
  split
  · rfl
  · next bare =>
    have free := (kept (by simpa using bare)).2
    unfold word isName
    dsimp only
    split <;> simp_all

/-- A name that is read again is an identifier. -/
theorem ident_shows {id : Ident} (kept : id.Kept d) (shown : c.Shows (id.token d.toLexicon :: ts)) :
    Parser.ident d.toLexicon c = .ok (id, c.advance) := by
  have named : isName d.toLexicon c.current = true := by
    have held := isName_token kept
    rwa [← show c.current.bare = id.token d.toLexicon from shown.current] at held
  have taken := anyIdent_shows shown
  rw [anyIdent_apply] at taken
  rw [ident_apply, named, Bool.or_true, if_pos rfl]
  split at taken
  · exact taken
  · cases taken

/-- A label is read again, and nothing is taken for one. -/
theorem label_parses {bare : Bool} {label : Option Ident} (kept : KeptLabel d bare label)
    {tail : List Token} (follows : Follows d.toLexicon heads tail) (noAs : .word "AS" ∉ heads)
    (clauses : ∀ w ∈ queryWords, .word w ∈ heads → w ∈ clauseWords)
    (shown : c.Shows (labelTokens d.toLexicon bare label ++ tail)) :
    ∃ next, label? d.toLexicon c = .ok (label, next) ∧ next.Shows tail := by
  cases label with
  | none =>
    have noLabel := follows.startsLabel shown clauses
    refine ⟨c, ?_, shown⟩
    refine bind_ok (accept_none (by simpa using follows.is shown noAs)) (bind_ok (current_apply c) ?_)
    rw [noLabel]
    rfl
  | some id =>
    obtain ⟨own, free⟩ := kept id rfl
    cases bare with
    | false =>
      have start : c.advance.Shows (id.token d.toLexicon :: tail) := shown.advance
      have noString : c.advance.current.kind ≠ .string := by
        rw [← kind_bare, start.current, Ident.token]
        split
        · simp [quotedWord]
        · unfold word
          dsimp only
          split <;> decide
      refine ⟨c.advance.advance, ?_, start.advance' follows.nonempty⟩
      refine bind_ok (accept_word (by decide) ["AS"] (by decide) shown) (bind_ok (current_apply _) ?_)
      rw [if_neg noString]
      exact bind_ok (anyIdent_shows start) rfl
    | true =>
      have shown : c.Shows (id.token d.toLexicon :: tail) := shown
      have current : c.current.bare = id.token d.toLexicon := shown.current
      have named : isName d.toLexicon c.current = true := by
        have held := isName_token own
        rwa [← current] at held
      have noAs : c.current.is "AS" = false := by
        rw [← is_bare, current, Ident.token]
        split
        · rfl
        · next bare =>
          rw [is_word, beq_eq_false_iff_ne]
          intro equal
          exact free rfl (by simpa using bare) (equal ▸ by decide)
      have starts : startsLabel d.toLexicon c.current = true := by
        have upper : c.current.upper = (id.token d.toLexicon).upper := by rw [← current, upper_bare]
        have quoted : c.current.isQuoted = (id.token d.toLexicon).isQuoted := by rw [← current, isQuoted_bare]
        have isWord : c.current.isWord = (id.token d.toLexicon).isWord := by rw [← current, isWord_bare]
        rw [Parser.startsLabel, named, upper, quoted, isWord, Ident.token]
        split
        · rfl
        · next bare => simp [free rfl (by simpa using bare)]
      refine ⟨c.advance, ?_, shown.advance' follows.nonempty⟩
      refine bind_ok (accept_none (by simpa using noAs)) (bind_ok (current_apply c) ?_)
      rw [starts, if_pos rfl]
      exact bind_ok (ident_shows own shown) rfl

/-! ### Items -/

/-- A star, or a value with a label. -/
inductive ItemTree (d : Dialect) : SelectItem → Prop
  | star (pos : Position) : ItemTree d { expr := .star pos [] }
  | value {e : Expr} {label : Option Ident} (tree : ValueTree d e) (kept : KeptLabel d false label) :
    ItemTree d { expr := e, label }

inductive WrittenItem (d : Dialect) : SelectItem → String → List Token → Prop
  | star (pos : Position) : WrittenItem d { expr := .star pos [] } "*" [operator "*"]
  | value {e : Expr} {label : Option Ident} {text : String} {ts : List Token} (kept : KeptLabel d false label)
    (written : WrittenValue d e text ts) (begins : BeginsItem d.toLexicon text.toList) :
    WrittenItem d { expr := e, label } (text ++ labelText d.toLexicon false label)
    (ts ++ labelTokens d.toLexicon false label)

theorem ItemTree.exists_written (ready : d.ReadsQueries) {item : SelectItem} (tree : ItemTree d item) :
    ∃ text ts, WrittenItem d item text ts := by
  cases tree with
  | star pos => exact ⟨_, _, .star pos⟩
  | value tree kept =>
    obtain ⟨text, ts, written⟩ := tree.exists_written ready
    exact ⟨_, _, .value kept written (tree.beginsItem ready.regular ready.quotes (written.printed _ rfl rfl))⟩

theorem WrittenItem.spelled (ready : d.ReadsQueries) (item : SelectItem) (text : String) (ts : List Token)
    (written : WrittenItem d item text ts) : Spells d.toLexicon text.toList ts := by
  cases written with
  | star => exact spells_single ready.regular.lexicon (c := '*') rfl (by decide) (by decide)
  | value kept written begins =>
    rw [String.toList_append]
    exact written.spelled.clauses ready.regular.lexicon (label_spelled ready kept)

/-- Items that differ in places only. -/
def SelectItem.Alike (read item : SelectItem) : Prop := read.expr.bare = item.expr.bare ∧ read.label = item.label

theorem WrittenItem.parses (ready : d.ReadsQueries) (noAs : .word "AS" ∉ heads)
    (clauses : ∀ w ∈ queryWords, .word w ∈ heads → w ∈ clauseWords) (item : SelectItem)
      (text : String) (ts : List Token)
    (written : WrittenItem d item text ts) : Parses d (selectItem d) heads (SelectItem.Alike · item) ts := by
  intro depth c tail enough follows shown
  cases written with
  | star pos =>
    have star : c.current.isOp "*" = true := by
      rw [← isOp_bare, shown.current]
      decide
    refine ⟨{ expr := .star c.current.pos [] }, c.advance, ?_, shown.advance' follows.nonempty, rfl, rfl⟩
    refine bind_ok (position_apply c) (bind_ok (a := true) (m := c.advance) ?_ rfl)
    rw [acceptOp_apply, star, if_pos rfl]
  | @value e label text ts kept written begins =>
    rw [List.length_append] at enough
    rw [List.append_assoc] at shown
    have noStar : c.current.isOp "*" = false := by
      obtain ⟨t, rest, rfl, _⟩ := written.headed
      rw [← isOp_bare, shown.current]
      exact (begins.head written.spelled).2
    have behind : Follows d.toLexicon allHeads (labelTokens d.toLexicon false label ++ tail) := by
      cases label with
      | none =>
        obtain ⟨head, _, known, rest⟩ := follows
        exact ⟨head, known, known, rest⟩
      | some id => exact ⟨.word "AS", by decide, by decide, _, rfl⟩
    obtain ⟨read, middle, done, left, same⟩ := written.parses ready depth c _ (by omega) behind shown
    obtain ⟨next, labelled, ended⟩ := label_parses kept follows noAs clauses left
    refine ⟨{ expr := read, label }, next, ?_, ended, same, rfl⟩
    refine bind_ok (position_apply c) (bind_ok (a := false) (m := c) ?_ (bind_ok done (bind_ok labelled rfl)))
    rw [acceptOp_apply, noStar]
    rfl

theorem label_printed {p : Printer} (target : p.dialect = d) (unkeyed : p.keyed = false) {label : Option Ident}
    (kept : KeptLabel d false label) : Printer.clause " AS " (label.map p.ident) =
    labelText d.toLexicon false label := by
  cases label with
  | none => rfl
  | some id => simp [Printer.clause, labelText, (kept id rfl).1.printed target unkeyed]

theorem selectItems_cons (p : Printer) (e : Expr) (label : Option Ident) (items : List SelectItem) :
    p.selectItems (⟨e, label⟩ :: items) = (do
      let text ← p.expr e
      return (text ++ Printer.clause " AS " (label.map p.ident)) :: (← p.selectItems items)) := rfl

theorem items_printed {p : Printer} (target : p.dialect = d) (unkeyed : p.keyed = false) {items : List SelectItem}
    {texts : List String} (series : Series (WrittenItem d) items texts ts) : p.selectItems items = .ok texts := by
  have own {item : SelectItem} {text : String} {ts : List Token} (written : WrittenItem d item text ts)
      (items : List SelectItem) : p.selectItems (item :: items) = (p.selectItems items).map (text :: ·) := by
    cases written with
    | star pos =>
      rw [selectItems_cons]
      cases p.selectItems items <;> rfl
    | value kept written begins =>
      rw [selectItems_cons, label_printed target unkeyed kept, written.printed p target unkeyed]
      cases p.selectItems items <;> rfl
  induction series with
  | single written =>
    rw [own written]
    rfl
  | cons written _ ih =>
    rw [own written, ih]
    rfl

/-! ### Orders -/

/-- An item of an order as it is read. -/
def orderItem (g : Grammar) : Parser OrderItem := do
  let expr ← g.value
  let descending ← accept "DESC"
  if !descending then
    let _ ← accept "ASC"
  if ← accept "NULLS" then
    let first ← curIs "FIRST"
    if !(← acceptAny ["FIRST", "LAST"]) then expected "FIRST or LAST"
    return { expr, descending, nullsFirst := some first }
  return { expr, descending }

theorem orderItems_eq (g : Grammar) : orderItems g = commaList (orderItem g) := rfl

/-- The words behind the value of an order. -/
def orderWords (descending : Bool) (nullsFirst : Option Bool) : List String :=
  (if descending then ["DESC"] else []) ++
    match nullsFirst with
    | none => []
    | some first => ["NULLS", if first then "FIRST" else "LAST"]

theorem orderWords_known (descending : Bool) (nullsFirst : Option Bool) :
    ∀ w ∈ orderWords descending nullsFirst, w ∈ queryWords := by
  obtain _ | _ | _ := nullsFirst <;> cases descending <;> decide

inductive WrittenOrder (d : Dialect) : OrderItem → String → List Token → Prop
  | mk {e : Expr} {text : String} {ts : List Token} (descending : Bool) (nullsFirst : Option Bool)
    (written : WrittenValue d e text ts) :
    WrittenOrder d ⟨e, descending, nullsFirst⟩ (text ++ String.ofList (wordsText (orderWords descending nullsFirst)))
      (ts ++ (orderWords descending nullsFirst).map (word d.toLexicon))

/-- Orders that differ in places only. -/
def OrderItem.Alike (read item : OrderItem) : Prop :=
  read.expr.bare = item.expr.bare ∧ read.descending = item.descending ∧ read.nullsFirst = item.nullsFirst

theorem WrittenOrder.spelled (ready : d.ReadsQueries) (item : OrderItem) (text : String) (ts : List Token)
    (written : WrittenOrder d item text ts) : Spells d.toLexicon text.toList ts := by
  obtain ⟨descending, nullsFirst, written⟩ := written
  rw [String.toList_append, String.toList_ofList]
  exact written.spelled.clauses ready.regular.lexicon
    (spellsTail_words ready.regular.lexicon (orderWords_known descending nullsFirst))

private theorem nulls_follows (nullsFirst : Option Bool) {tail : List Token} (follows : Follows lexicon heads tail) :
    Follows lexicon (.word "NULLS" :: heads) ((orderWords false nullsFirst).map (word lexicon) ++ tail) := by
  cases nullsFirst with
  | none => exact follows.mono fun head member => List.mem_cons_of_mem _ member
  | some first => exact ⟨.word "NULLS", by simp, by decide, _, rfl⟩

private theorem nulls_parses {nullsFirst : Option Bool} {tail : List Token} (follows : Follows d.toLexicon heads tail)
    (absent : .word "NULLS" ∉ heads) (shown : c.Shows ((orderWords false nullsFirst).map (word d.toLexicon) ++ tail))
    (e : Expr) (descending : Bool) : ∃ next, (do
      if ← accept "NULLS" then
        let first ← curIs "FIRST"
        if !(← acceptAny ["FIRST", "LAST"]) then expected "FIRST or LAST"
        return { expr := e, descending, nullsFirst := some first }
      return { expr := e, descending } : Parser OrderItem) c =
      .ok (⟨e, descending, nullsFirst⟩, next) ∧ next.Shows tail := by
  cases nullsFirst with
  | none =>
    refine ⟨c, bind_ok (accept_none ?_) rfl, shown⟩
    simpa using follows.is shown absent
  | some first =>
    have shown : c.Shows (word d.toLexicon "NULLS" :: word d.toLexicon (if first then "FIRST" else "LAST") :: tail) :=
      shown
    have after := shown.advance
    have known : (if first then "FIRST" else "LAST") ∈ queryWords := by cases first <;> decide
    have isFirst : c.advance.current.is "FIRST" = first := by
      rw [← is_bare, after.current, is_word, upper_queryWord _ known]
      cases first <;> rfl
    have taken : acceptAny ["FIRST", "LAST"] c.advance = .ok (true, c.advance.advance) :=
      accept_word known _ (by cases first <;> decide) after
    refine ⟨c.advance.advance, ?_, after.advance' follows.nonempty⟩
    refine bind_ok (accept_word (by decide) ["NULLS"] (by decide) shown) (bind_ok (curIs_apply _ _) (bind_ok taken ?_))
    rw [isFirst]
    rfl

private theorem direction_parses {descending : Bool} {nullsFirst : Option Bool} {tail : List Token}
    (follows : Follows d.toLexicon heads tail) (absent : ∀ w ∈ ["DESC", "ASC", "NULLS"], .word w ∉ heads)
    (shown : c.Shows ((orderWords descending nullsFirst).map (word d.toLexicon) ++ tail)) (e : Expr) :
    ∃ next, (do
      let descending ← accept "DESC"
      if !descending then
        let _ ← accept "ASC"
      if ← accept "NULLS" then
        let first ← curIs "FIRST"
        if !(← acceptAny ["FIRST", "LAST"]) then expected "FIRST or LAST"
        return { expr := e, descending, nullsFirst := some first }
      return { expr := e, descending } : Parser OrderItem) c =
      .ok (⟨e, descending, nullsFirst⟩, next) ∧ next.Shows tail := by
  have behind := nulls_follows nullsFirst follows
  cases descending with
  | true =>
    have shown : c.Shows (word d.toLexicon "DESC" ::
      ((orderWords false nullsFirst).map (word d.toLexicon) ++ tail)) := shown
    have start := shown.advance' behind.nonempty
    obtain ⟨next, done, ended⟩ := nulls_parses follows (absent "NULLS" (by decide)) start e true
    exact ⟨next, bind_ok (accept_word (by decide) ["DESC"] (by decide) shown) done, ended⟩
  | false =>
    obtain ⟨next, done, ended⟩ := nulls_parses follows (absent "NULLS" (by decide)) shown e false
    have not (w : String) (listed : w ∈ ["DESC", "ASC"]) : accept w c = .ok (false, c) := by
      have other : w ≠ "NULLS" := by
        rintro rfl
        exact absurd listed (by decide)
      refine accept_none ?_
      simpa using behind.is shown (by simpa [other] using absent w (by revert w; decide))
    refine ⟨next, bind_ok (not "DESC" (by decide)) ?_, ended⟩
    exact bind_ok (not "ASC" (by decide)) done

theorem WrittenOrder.parses (ready : d.ReadsQueries) (absent : ∀ w ∈ ["DESC", "ASC", "NULLS"], .word w ∉ heads)
    (item : OrderItem) (text : String) (ts : List Token) (written : WrittenOrder d item text ts) :
    Parses d orderItem heads (OrderItem.Alike · item) ts := by
  intro depth c tail enough follows shown
  obtain ⟨descending, nullsFirst, written⟩ := written
  rw [List.length_append] at enough
  rw [List.append_assoc] at shown
  have behind : Follows d.toLexicon allHeads ((orderWords descending nullsFirst).map (word d.toLexicon) ++ tail) := by
    cases descending with
    | true => exact ⟨.word "DESC", by decide, by decide, _, rfl⟩
    | false =>
      obtain ⟨head, _, known, rest⟩ := nulls_follows nullsFirst follows
      exact ⟨head, known, known, rest⟩
  obtain ⟨read, middle, done, left, same⟩ := written.parses ready depth c _ (by omega) behind shown
  obtain ⟨next, directed, ended⟩ := direction_parses follows absent left read
  exact ⟨_, next, bind_ok done directed, ended, same, rfl, rfl⟩

theorem orderItems_cons (p : Printer) (e : Expr) (descending : Bool)
    (nullsFirst : Option Bool) (items : List OrderItem) :
    p.orderItems (⟨e, descending, nullsFirst⟩ :: items) = (do
      let text ← p.expr e
      let nulls := match nullsFirst with
        | none => ""
        | some first => if first then " NULLS FIRST" else " NULLS LAST"
      return (text ++ (if descending then " DESC" else "") ++ nulls) :: (← p.orderItems items)) := rfl

theorem orders_printed {p : Printer} (target : p.dialect = d) (unkeyed : p.keyed = false) {items : List OrderItem}
    {texts : List String} (series : Series (WrittenOrder d) items texts ts) : p.orderItems items = .ok texts := by
  have own {item : OrderItem} {text : String} {ts : List Token} (written : WrittenOrder d item text ts)
      (items : List OrderItem) : p.orderItems (item :: items) = (p.orderItems items).map (text :: ·) := by
    obtain ⟨descending, nullsFirst, written⟩ := written
    rw [orderItems_cons, written.printed p target unkeyed]
    have words : String.ofList (wordsText (orderWords descending nullsFirst)) =
        (if descending then " DESC" else "") ++ match nullsFirst with
          | none => ""
          | some first => if first then " NULLS FIRST" else " NULLS LAST" := by
      obtain _ | _ | _ := nullsFirst <;> cases descending <;> decide
    rw [words, ← String.append_assoc]
    cases p.orderItems items <;> rfl
  induction series with
  | single written =>
    rw [own written]
    rfl
  | cons written _ ih =>
    rw [own written, ih]
    rfl

/-! ### The clauses behind the terms -/

/-- The clauses without their places. -/
def Parser.QueryTail.bare (tail : QueryTail) : QueryTail :=
  { orderBy := bareOrder tail.orderBy, limit := bareOption tail.limit, offset := bareOption tail.offset }

/-- A value, its text and its tokens, or none of them. -/
inductive WrittenOption (d : Dialect) : Option Expr → Option String → Option (List Token) → Prop
  | missing : WrittenOption d none none none
  | present {e : Expr} {text : String} {ts : List Token} (written : WrittenValue d e text ts) :
    WrittenOption d (some e) (some text) (some ts)

/-- The tokens of a value between words, or nothing. -/
def between (lexicon : Lexicon) (front back : List String) : Option (List Token) → List Token
  | none => []
  | some ts => front.map (word lexicon) ++ (ts ++ back.map (word lexicon))

section between

variable {value : Option Expr} {text : Option String} {tokens : Option (List Token)}
    {w : String} {front back : List String}

theorem exists_writtenOption (ready : d.ReadsQueries) (each : ∀ e ∈ value, ValueTree d e) :
    ∃ text tokens, WrittenOption d value text tokens := by
  cases value with
  | none => exact ⟨_, _, .missing⟩
  | some e =>
    obtain ⟨_, _, written⟩ := (each e rfl).exists_written ready
    exact ⟨_, _, .present written⟩

theorem WrittenOption.printed {p : Printer} (target : p.dialect = d) (unkeyed : p.keyed = false)
    (option : WrittenOption d value text tokens) : p.exprOption value = .ok text := by
  cases option with
  | missing => rfl
  | @present e text ts written =>
    have run : p.exprOption (some e) = (p.expr e).map some := by
      simp only [Printer.exprOption]
      cases p.expr e <;> rfl
    rw [run, written.printed p target unkeyed]
    rfl

theorem WrittenOption.spelled (regular : d.toLexicon.Regular) (option : WrittenOption d value text tokens)
    (w : String) (front back : List String) (opens : ∀ v ∈ w :: front, v ∈ queryWords)
    (closes : ∀ v ∈ back, v ∈ queryWords) (keyword suffix : String)
      (before : keyword.toList = wordsText (w :: front) ++ [' ']) (after : suffix.toList = wordsText back) :
    SpellsTail d.toLexicon (Printer.clause keyword (text.map (· ++ suffix))).toList
      (between d.toLexicon (w :: front) back tokens) := by
  cases option with
  | missing => exact spellsTail_nil
  | present written =>
    have value := written.spelled.clauses regular (spellsTail_words regular closes)
    rw [Option.map_some, Printer.clause, String.toList_append, String.toList_append, before, after, List.append_assoc]
    exact (spellsTail_words regular opens).append regular (.inr ⟨_, rfl, value⟩)

theorem between_follows (known : w ∈ queryWords) (listed : .word w ∈ heads) {tail : List Token}
    (follows : Follows lexicon heads tail) : Follows lexicon heads
    (between lexicon (w :: front) back tokens ++ tail) := by
  cases tokens with
  | none => exact follows
  | some ts => exact ⟨.word w, listed, by simp [allHeads, known], _, rfl⟩

private theorem value_parses (ready : d.ReadsQueries) {e : Expr} {text : String} {ts tail : List Token}
    (written : WrittenValue d e text ts) (depth : Nat) (enough : ts.length < depth)
    (closes : ∀ v ∈ back, v ∈ queryWords) (follows : Follows d.toLexicon heads tail)
    (shown : c.Shows (ts ++ back.map (word d.toLexicon) ++ tail)) :
    ∃ read next, (grammar d depth).value c = .ok (read, next) ∧ next.Shows (back.map (word d.toLexicon) ++ tail) ∧
      read.bare = e.bare := by
  rw [List.append_assoc] at shown
  have behind : Follows d.toLexicon allHeads (back.map (word d.toLexicon) ++ tail) := by
    cases back with
    | nil =>
      obtain ⟨head, _, known, rest⟩ := follows
      exact ⟨head, known, known, rest⟩
    | cons v back =>
      have known : Head.word v ∈ allHeads := by simp [allHeads, closes v List.mem_cons_self]
      exact ⟨.word v, known, known, _, rfl⟩
  exact written.parses ready depth c _ enough behind shown

theorem limit_parses (ready : d.ReadsQueries) (option : WrittenOption d value text tokens)
    {tail : List Token} (depth : Nat)
    (enough : (between d.toLexicon ["LIMIT"] [] tokens).length < depth) (follows : Follows d.toLexicon heads tail)
    (absent : .word "LIMIT" ∉ heads ∧ .mark "," ∉ heads)
      (shown : c.Shows (between d.toLexicon ["LIMIT"] [] tokens ++ tail))
    (orderBy : List OrderItem) :
    ∃ read next, limitClause (grammar d depth) { orderBy } c =
    .ok ({ orderBy, limit := read }, next) ∧ next.Shows tail ∧
      bareOption read = bareOption value := by
  cases option with
  | missing => exact ⟨_, c, bind_ok (accept_none (by simpa using follows.is shown absent.1)) rfl, shown, rfl⟩
  | @present e text ts written =>
    have start : c.advance.Shows (ts ++ [].map (word d.toLexicon) ++ tail) :=
      Cursor.Shows.advance' shown (List.append_ne_nil_of_right_ne_nil _ follows.nonempty)
    simp only [between, List.length_append, List.length_map, List.length_cons, List.length_nil] at enough
    obtain ⟨read, next, done, left, same⟩ := value_parses ready written depth (by omega) (by simp) follows start
    refine ⟨some read, next, ?_, left, congrArg some same⟩
    refine bind_ok (accept_word (by decide) ["LIMIT"] (by decide) shown)
      (bind_ok done (bind_ok (a := false) (m := next) ?_ rfl))
    rw [acceptOp_apply, follows.isOp left absent.2]
    rfl

theorem offset_parses (ready : d.ReadsQueries) (option : WrittenOption d value text tokens)
    (closes : back ∈ [[], ["ROWS"]])
    {tail : List Token} (depth : Nat) (enough : (between d.toLexicon ["OFFSET"] back tokens).length < depth)
    (follows : Follows d.toLexicon heads tail) (absent : ∀ w ∈ ["OFFSET", "ROW", "ROWS"], .word w ∉ heads)
    (shown : c.Shows (between d.toLexicon ["OFFSET"] back tokens ++ tail))
      (orderBy : List OrderItem) (limit : Option Expr) :
    ∃ read next, offsetClause (grammar d depth) { orderBy, limit } c = .ok ({ orderBy, limit, offset := read }, next) ∧
      next.Shows tail ∧ bareOption read = bareOption value := by
  cases option with
  | missing => exact ⟨_, c, bind_ok (accept_none (by simpa using follows.is shown (absent "OFFSET" (by decide)))) rfl,
      shown, rfl⟩
  | @present e text ts written =>
    have start : c.advance.Shows (ts ++ back.map (word d.toLexicon) ++ tail) :=
      Cursor.Shows.advance' shown (List.append_ne_nil_of_right_ne_nil _ follows.nonempty)
    have closing : ∀ back ∈ [[], ["ROWS"]], ∀ v ∈ back, v ∈ queryWords := by decide
    have known := closing back closes
    simp only [between, List.length_append, List.length_map, List.length_cons, List.length_nil] at enough
    obtain ⟨read, middle, done, left, same⟩ := value_parses ready written depth (by omega) known follows start
    obtain ⟨found, next, rows, ended⟩ : ∃ found next,
      acceptAny ["ROW", "ROWS"] middle = .ok (found, next) ∧ next.Shows tail := by
      simp only [List.mem_cons, List.not_mem_nil, or_false] at closes
      obtain rfl | rfl := closes
      · exact ⟨false, middle, accept_none (follows.any_is left fun w member =>
          absent w (List.mem_cons_of_mem _ member)), left⟩
      · exact ⟨true, _, accept_word (by decide) _ (by decide) left, Cursor.Shows.advance' left follows.nonempty⟩
    refine ⟨some read, next, ?_, ended, congrArg some same⟩
    exact bind_ok (accept_word (by decide) ["OFFSET"] (by decide) shown) (bind_ok done (bind_ok rows rfl))

theorem fetch_parses (ready : d.ReadsQueries) (option : WrittenOption d value text tokens)
    {tail : List Token} (depth : Nat)
    (enough : (between d.toLexicon ["FETCH", "FIRST"] ["ROWS", "ONLY"] tokens).length < depth)
    (follows : Follows d.toLexicon heads tail) (absent : .word "FETCH" ∉ heads)
    (shown : c.Shows (between d.toLexicon ["FETCH", "FIRST"] ["ROWS", "ONLY"] tokens ++ tail))
    (orderBy : List OrderItem)
    (offset : Option Expr) :
    ∃ read next, fetchClause (grammar d depth) { orderBy, offset } c = .ok ({ orderBy, limit := read, offset }, next) ∧
      next.Shows tail ∧ bareOption read = bareOption value := by
  cases option with
  | missing => exact ⟨_, c, bind_ok (accept_none (by simpa using follows.is shown absent)) rfl, shown, rfl⟩
  | @present e text ts written =>
    have first : c.advance.Shows (word d.toLexicon "FIRST" ::
      (ts ++ ["ROWS", "ONLY"].map (word d.toLexicon) ++ tail)) :=
      Cursor.Shows.advance shown
    have start := first.advance' (List.append_ne_nil_of_right_ne_nil _ follows.nonempty)
    simp only [between, List.length_append, List.length_map, List.length_cons, List.length_nil] at enough
    obtain ⟨read, middle, done, left, same⟩ := value_parses ready written depth (by omega) (by decide) follows start
    have last : middle.advance.Shows (word d.toLexicon "ONLY" :: tail) := Cursor.Shows.advance left
    refine ⟨some read, middle.advance.advance, ?_, last.advance' follows.nonempty, congrArg some same⟩
    refine bind_ok (accept_word (by decide) ["FETCH"] (by decide) shown) ?_
    refine bind_ok (accept_word (by decide) ["FIRST", "NEXT"] (by decide) first) (bind_ok done ?_)
    exact bind_ok (accept_word (by decide) ["ROW", "ROWS"] (by decide) left)
      (bind_ok (expect_word (by decide) last) rfl)

end between

/-- What stands behind a query. -/
def queryEnds : List Head := [.finish, .mark ")", .mark ";"]

/-- The clauses hold values that are read again. -/
structure TailTree (d : Dialect) (tail : QueryTail) : Prop where
  orders : ∀ item ∈ tail.orderBy, ValueTree d item.expr
  limit : ∀ e ∈ tail.limit, ValueTree d e
  offset : ∀ e ∈ tail.offset, ValueTree d e

/-- The clauses in the order in which the dialect writes them. -/
def tailTokens (d : Dialect) (orders : List Token) (limit offset : Option (List Token)) : List Token :=
  orders ++ if d.hints.fetchFirst then
      between d.toLexicon ["OFFSET"] ["ROWS"] offset ++ between d.toLexicon ["FETCH", "FIRST"] ["ROWS", "ONLY"] limit
    else between d.toLexicon ["LIMIT"] [] limit ++ between d.toLexicon ["OFFSET"] [] offset

/-- The clauses, their texts and their tokens. -/
structure WrittenTail (d : Dialect) (tail : QueryTail) (orders : List String) (limit offset : Option String)
    (os : List Token) (ls fs : Option (List Token)) : Prop where
  ordered : ListClause d.toLexicon ["ORDER", "BY"] (WrittenOrder d) tail.orderBy orders os
  limited : WrittenOption d tail.limit limit ls
  shifted : WrittenOption d tail.offset offset fs

theorem OrderItem.exists_written (ready : d.ReadsQueries) {item : OrderItem} (tree : ValueTree d item.expr) :
    ∃ text ts, WrittenOrder d item text ts := by
  obtain ⟨e, descending, nullsFirst⟩ := item
  obtain ⟨_, _, written⟩ := tree.exists_written ready
  exact ⟨_, _, .mk descending nullsFirst written⟩

theorem TailTree.exists_written (ready : d.ReadsQueries) {tail : QueryTail} (tree : TailTree d tail) :
    ∃ orders limit offset os ls fs, WrittenTail d tail orders limit offset os ls fs := by
  obtain ⟨orders, os, ordered⟩ := exists_listClause d.toLexicon ["ORDER", "BY"] fun item member =>
    OrderItem.exists_written ready (tree.orders item member)
  obtain ⟨limit, ls, limited⟩ := exists_writtenOption ready tree.limit
  obtain ⟨offset, fs, shifted⟩ := exists_writtenOption ready tree.offset
  exact ⟨_, _, _, _, _, _, ordered, limited, shifted⟩

theorem bareOrder_alike {read items : List OrderItem} (alike : List.Forall₂ OrderItem.Alike read items) :
    bareOrder read = bareOrder items := by
  induction alike with
  | nil => rfl
  | @cons one other read items same _ ih =>
    obtain ⟨e, descending, nullsFirst⟩ := one
    obtain ⟨e', descending', nullsFirst'⟩ := other
    obtain ⟨value, rfl, rfl⟩ : e.bare = e'.bare ∧ descending = descending' ∧ nullsFirst = nullsFirst' := same
    simp only [bareOrder, value, ih]

section WrittenTail

variable {tail : QueryTail} {orders : List String} {limit offset : Option String} {os : List Token}
  {ls fs : Option (List Token)}

theorem orderBy_printed {items : List OrderItem}
    (clause : ListClause d.toLexicon ["ORDER", "BY"] (WrittenOrder d) items orders os)
    {p : Printer} (target : p.dialect = d) (unkeyed : p.keyed = false) : p.orderItems items = .ok orders := by
  cases clause with
  | missing => rfl
  | present series => exact orders_printed target unkeyed series

theorem WrittenTail.spelled (ready : d.ReadsQueries)
    (written : WrittenTail d tail orders limit offset os ls fs) {p : Printer}
    (target : p.dialect = d) : SpellsTail d.toLexicon (p.tailText orders limit offset).toList
    (tailTokens d os ls fs) := by
  have regular := ready.regular.lexicon
  have order := written.ordered.spelled regular (by decide) " ORDER BY " (by decide) (WrittenOrder.spelled ready)
  have plain (text : Option String) : text.map (· ++ "") = text := by simp
  subst target
  unfold Printer.tailText tailTokens
  split
  · have shifted := written.shifted.spelled regular "OFFSET" [] ["ROWS"] (by decide) (by decide) " OFFSET " " ROWS"
      (by decide) (by decide)
    have limited := written.limited.spelled regular "FETCH" ["FIRST"] ["ROWS", "ONLY"] (by decide)
      (by decide) " FETCH FIRST " " ROWS ONLY" (by decide) (by decide)
    simpa using order.append regular (shifted.append regular limited)
  · have limited := written.limited.spelled regular "LIMIT" [] [] (by decide) (by decide) " LIMIT " ""
      (by decide) (by decide)
    have shifted := written.shifted.spelled regular "OFFSET" [] [] (by decide) (by decide) " OFFSET " ""
      (by decide) (by decide)
    rw [plain] at limited shifted
    simpa using order.append regular (limited.append regular shifted)

private theorem orderBy_parses (ready : d.ReadsQueries) {items : List OrderItem}
    (clause : ListClause d.toLexicon ["ORDER", "BY"] (WrittenOrder d) items orders os)
      (depth : Nat) {after : List Token}
    (enough : os.length < depth) (follows : Follows d.toLexicon heads after)
    (absent : ∀ w ∈ ["ORDER", "DESC", "ASC", "NULLS"], .word w ∉ heads) (noComma : .mark "," ∉ heads)
    (shown : c.Shows (os ++ after)) :
    ∃ found read next, curIs "ORDER" c = .ok (found, c) ∧
      (if found = true then orderClause (grammar d depth) else pure []) c = .ok (read, next) ∧ next.Shows after ∧
      bareOrder read = bareOrder items := by
  cases clause with
  | missing =>
    refine ⟨false, [], c, ?_, rfl, shown, rfl⟩
    rw [curIs_apply, follows.is shown (absent "ORDER" (by decide))]
  | @present items texts ts series =>
    have shown : c.Shows (word d.toLexicon "ORDER" :: word d.toLexicon "BY" :: (ts ++ after)) := shown
    have start := shown.advance.advance' (List.append_ne_nil_of_right_ne_nil ts follows.nonempty)
    simp only [List.map_cons, List.map_nil, List.length_append, List.length_cons, List.length_nil] at enough
    have directions : ∀ w ∈ ["DESC", "ASC", "NULLS"], Head.word w ∉ Head.mark "," :: heads := by
      intro w member
      simpa using absent w (List.mem_cons_of_mem _ member)
    obtain ⟨read, next, done, left, alike⟩ :=
      series.parses (WrittenOrder.parses ready directions) noComma depth _ after (by omega) follows start
    refine ⟨true, read, next, ?_, ?_, left, bareOrder_alike alike⟩
    · have isOrder : c.current.is "ORDER" = true := by
        rw [← is_bare, shown.current, is_word, upper_queryWord "ORDER" (by decide), beq_self_eq_true]
      rw [curIs_apply, isOrder]
    · rw [if_pos rfl]
      refine bind_ok (expect_word (by decide) shown) (bind_ok (expect_word (by decide) shown.advance) ?_)
      rw [orderItems_eq]
      exact done

theorem WrittenTail.parses (ready : d.ReadsQueries) (written : WrittenTail d tail orders limit offset os ls fs) :
    Parses d queryTail queryEnds (fun read => read.bare = tail.bare) (tailTokens d os ls fs) := by
  intro depth c after enough follows shown
  have mono {heads more : List Head} {ts : List Token} (within : heads ⊆ more)
    (follows : Follows d.toLexicon heads ts) :
      Follows d.toLexicon more ts := follows.mono fun head member => within member
  unfold tailTokens at enough shown
  rw [List.length_append] at enough
  rw [List.append_assoc] at shown
  cases fetches : d.hints.fetchFirst with
  | true =>
    rw [fetches, if_pos rfl, List.append_assoc] at shown
    rw [fetches, if_pos rfl, List.length_append] at enough
    have atFetch : Follows d.toLexicon (.word "FETCH" :: queryEnds)
        (between d.toLexicon ["FETCH", "FIRST"] ["ROWS", "ONLY"] ls ++ after) :=
      between_follows (by decide) (by decide) (mono (by decide) follows)
    have atOffset : Follows d.toLexicon (.word "OFFSET" :: .word "FETCH" :: queryEnds)
        (between d.toLexicon ["OFFSET"] ["ROWS"] fs ++
          (between d.toLexicon ["FETCH", "FIRST"] ["ROWS", "ONLY"] ls ++ after)) :=
      between_follows (by decide) (by decide) (mono (by decide) atFetch)
    obtain ⟨found, orderBy, first, isOrder, ordered, left, sameOrder⟩ :=
      orderBy_parses ready written.ordered depth (by omega) atOffset (by decide) (by decide) shown
    have noLimit : limitClause (grammar d depth) { orderBy } first = .ok ({ orderBy }, first) :=
      bind_ok (accept_none (by simpa using atOffset.is left (by decide))) rfl
    obtain ⟨offset, second, shifted, left, sameOffset⟩ :=
      offset_parses ready written.shifted (by decide) depth (by omega) atFetch (by decide) left orderBy none
    obtain ⟨limit, last, limited, left, sameLimit⟩ :=
      fetch_parses ready written.limited depth (by omega) follows (by decide) left orderBy offset
    refine ⟨_, last, bind_ok isOrder (branch_ok ordered (bind_ok noLimit (bind_ok shifted limited))), left, ?_⟩
    simp only [QueryTail.bare, sameOrder, sameLimit, sameOffset]
  | false =>
    rw [fetches, if_neg (by decide), List.append_assoc] at shown
    rw [fetches, if_neg (by decide), List.length_append] at enough
    have atOffset : Follows d.toLexicon (.word "OFFSET" :: queryEnds) (between d.toLexicon ["OFFSET"] [] fs ++ after) :=
      between_follows (by decide) (by decide) (mono (by decide) follows)
    have atLimit : Follows d.toLexicon (.word "LIMIT" :: .word "OFFSET" :: queryEnds)
        (between d.toLexicon ["LIMIT"] [] ls ++ (between d.toLexicon ["OFFSET"] [] fs ++ after)) :=
      between_follows (by decide) (by decide) (mono (by decide) atOffset)
    obtain ⟨found, orderBy, first, isOrder, ordered, left, sameOrder⟩ :=
      orderBy_parses ready written.ordered depth (by omega) atLimit (by decide) (by decide) shown
    obtain ⟨limit, second, limited, left, sameLimit⟩ :=
      limit_parses ready written.limited depth (by omega) atOffset (by decide) left orderBy
    obtain ⟨offset, last, shifted, left, sameOffset⟩ :=
      offset_parses ready written.shifted (by decide) depth (by omega) follows (by decide) left orderBy limit
    have noFetch : fetchClause (grammar d depth) { orderBy, limit, offset } last =
      .ok ({ orderBy, limit, offset }, last) :=
      bind_ok (accept_none (by simpa using follows.is left (by decide))) rfl
    refine ⟨_, last, bind_ok isOrder (branch_ok ordered (bind_ok limited (bind_ok shifted noFetch))), left, ?_⟩
    simp only [QueryTail.bare, sameOrder, sameLimit, sameOffset]

/-- The clauses begin with a word of their own, if there are any. -/
theorem WrittenTail.follows (written : WrittenTail d tail orders limit offset os ls fs) {after : List Token}
    (follows : Follows d.toLexicon heads after)
      (listed : ∀ w ∈ ["ORDER", "LIMIT", "OFFSET", "FETCH"], .word w ∈ heads) :
    Follows d.toLexicon heads (tailTokens d os ls fs ++ after) := by
  unfold tailTokens
  rw [List.append_assoc]
  refine written.ordered.follows (by decide) (listed "ORDER" (by decide)) ?_
  split <;> rw [List.append_assoc]
  · exact between_follows (by decide) (listed "OFFSET" (by decide))
      (between_follows (by decide) (listed "FETCH" (by decide)) follows)
  · exact between_follows (by decide) (listed "LIMIT" (by decide))
      (between_follows (by decide) (listed "OFFSET" (by decide)) follows)

theorem WrittenTail.missing (written : WrittenTail d tail orders limit offset os ls fs)
    (empty : tail.orderBy = [] ∧ tail.limit = none ∧ tail.offset = none) :
    tailTokens d os ls fs = [] ∧ orders = [] ∧ limit = none ∧ offset = none := by
  obtain ⟨ordered, limited, shifted⟩ := written
  rw [empty.1] at ordered
  rw [empty.2.1] at limited
  rw [empty.2.2] at shifted
  cases limited
  cases shifted
  cases ordered with
  | missing =>
    unfold tailTokens
    split <;> exact ⟨rfl, rfl, rfl, rfl⟩
  | present series => cases series

end WrittenTail

end SqlDialects
